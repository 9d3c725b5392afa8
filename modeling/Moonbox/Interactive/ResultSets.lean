import Moonbox.Interactive.Runner
import Moonbox.Lib.Runs

/-!
# The result sets of a connection

`MoonboxStatement.executeQuery` and `MoonboxResult.next`. All statements of a connection share one
session, and so one runner with one current result. A call is one step and the connection stays
open; a call that the stack does not let return ends with the error of the platform.
-/

namespace Moonbox.Interactive

open Actor

variable {S R : Type}

structure MoonboxResult (R : Type) where
  hasMoreData : Bool
  currentData : List R
  rowIndex : Nat := 0
  currentRow : Option R := none
  deriving DecidableEq, Repr

namespace MoonboxResult

/-- The rows of the page that have not been looked at. -/
def pending (m : MoonboxResult R) : List R := m.currentData.drop m.rowIndex

/-- Run a method of the runner by a request. -/
def onRunner {α : Type} (m : Handler (Runner S R) α) : Handler (Runner S R × MoonboxResult R) α :=
  fun s => ((m s.1).1, (m s.1).2, s.2)

def fetchMoreData : Handler (Runner S R × MoonboxResult R) Unit := do
  let next ← onRunner Runner.fetchResultData
  Handler.modify fun s =>
    (s.1, { s.2 with hasMoreData := next.hasMore, currentData := next.data, rowIndex := 0 })

/-- `depth` is how often the stack lets `next` call itself. -/
def next : Nat → Handler (Runner S R × MoonboxResult R) Bool
  | 0 => Handler.throw "StackOverflowError"
  | depth + 1 => do
    let s ← Handler.get
    match s.2.currentData[s.2.rowIndex]? with
    | some row => do
      Handler.modify fun s =>
        (s.1, { s.2 with currentRow := some row, rowIndex := s.2.rowIndex + 1 })
      pure true
    | none =>
      if s.2.hasMoreData then do
        fetchMoreData
        next depth
      else pure false

end MoonboxResult

/-- A result set, with what the proofs record of it: the statement of the runner it was opened by,
the rows found for it, those the client is to get, and what the calls of `next` have answered. -/
structure ResultSet (R : Type) where
  result : MoonboxResult R
  stamp : Nat
  data : List R
  rows : List R
  answers : List (Except String (Option R)) := []

/-- One row after the other, and then the end. -/
def ResultSet.Yields (rs : ResultSet R) : Prop :=
  rs.answers = (List.range rs.answers.length).map fun k => .ok rs.rows[k]?

instance [DecidableEq R] (rs : ResultSet R) : Decidable rs.Yields :=
  inferInstanceAs (Decidable (_ = _))

structure Connection (S R : Type) where
  runner : Runner S R := {}
  results : List (ResultSet R) := []

/-- The calls on the statements and the result sets of a connection. -/
inductive Call (S R : Type) : Type
  | executeQuery (sqls : List (Except String (Executed S R))) (fetchSize maxRows : Int)
  | next (i : Nat)

namespace Connection

/-- The result set of an answer, with the rows the engine finds for the last of the commands. -/
def resultSet (sqls : List (Except String (Executed S R))) (maxRows : Int) (q : QueryResult S R)
    (r : Runner S R) : ResultSet R where
  result := { hasMoreData := q.hasMore, currentData := q.data }
  stamp := r.statements
  data := ((Runner.lastCommand sqls).map (Runner.dataOf maxRows)).getD []
  rows := ((Runner.lastCommand sqls).map (Runner.rowsOf maxRows)).getD []

def executeQuery (sqls : List (Except String (Executed S R))) (fetchSize maxRows : Int)
    (c : Connection S R) : Connection S R :=
  match Runner.query sqls fetchSize maxRows c.runner with
  | (.ok q, r) =>
    { runner := r, results := c.results ++ [resultSet sqls (Runner.effectiveMaxRows maxRows) q r] }
  | (.error _, r) => { c with runner := r }

/-- What a call of `next` has answered: the row it stands on then, or the end. -/
def answer (b : Except String Bool) (m : MoonboxResult R) : Except String (Option R) :=
  b.map fun found => if found then m.currentRow else none

def next (depth i : Nat) (c : Connection S R) : Connection S R :=
  match c.results[i]? with
  | some rs =>
    let (b, r, m) := MoonboxResult.next depth (c.runner, rs.result)
    { runner := r
      results := c.results.set i { rs with result := m, answers := rs.answers ++ [answer b m] } }
  | none => c

def step (depth : Nat) (c : Connection S R) : Call S R → Connection S R
  | .executeQuery sqls fetchSize maxRows => c.executeQuery sqls fetchSize maxRows
  | .next i => c.next depth i

def run (depth : Nat) (c : Connection S R) (calls : List (Call S R)) : Connection S R :=
  calls.foldl (step depth) c

/-- A page is fetched only while no statement has been run since the one the result set belongs
to, with the `maxRows` in force cutting its rows where its own did, and with a fetch size that
brings it on. -/
def Undisturbed (c : Connection S R) : Call S R → Prop
  | .executeQuery _ _ _ => True
  | .next i => ∀ rs, c.results[i]? = some rs → rs.result.pending = [] →
    rs.result.hasMoreData = true → c.runner.statements = rs.stamp ∧
      Runner.cut c.runner.maxRows rs.data = rs.rows ∧ (rs.rows = [] ∨ 0 < c.runner.fetchSize)

end Connection

/-! ### A cursor of its own -/

open Connection

/-- A result set stands before its row `n`: the page has the next rows, and if it is not the last
the runner, as long as it runs no other statement, has what comes after it. -/
structure At (r : Runner S R) (m : MoonboxResult R) (stamp : Nat) (data rows : List R) (n : Nat) :
    Prop where
  pending : m.pending <+: rows.drop n
  whole : m.hasMoreData = false → m.pending = rows.drop n
  paged : m.hasMoreData = true → r.statements = stamp → r.currentSchema.isSome ∧
    r.currentData = some (data.drop r.currentRowId) ∧ r.currentRowId = n + m.pending.length

section Next

variable {r : Runner S R} {m : MoonboxResult R} {stamp n : Nat} {data rows : List R}

lemma wp_onRunner {α : Type} {f : Handler (Runner S R) α} {Q : α → Runner S R → Prop}
    {E : Runner S R → Prop} (h : Handler.wp f Q E r) :
    Handler.wp (MoonboxResult.onRunner f) (fun a s => Q a s.1 ∧ s.2 = m)
      (fun s => E s.1 ∧ s.2 = m) (r, m) := by
  simp only [Handler.wp, MoonboxResult.onRunner] at h ⊢
  cases hf : f r with
  | mk a r' =>
    rw [hf] at h
    cases a with
    | ok a => exact ⟨h, rfl⟩
    | error e => exact ⟨h, rfl⟩

/-- Without a fetch. -/
lemma At.next (h : At r m stamp data rows n) (depth : Nat)
    (hready : m.pending ≠ [] ∨ m.hasMoreData = false) :
    Handler.wp (MoonboxResult.next (depth + 1))
      (fun b s => s.1 = r ∧ (if b then s.2.currentRow else none) = rows[n]? ∧
        s.2.hasMoreData = m.hasMoreData ∧ At r s.2 stamp data rows (n + 1))
      (fun _ => False) (r, m) := by
  simp only [MoonboxResult.next, Handler.wp_bind, Handler.wp_get]
  cases hrow : m.currentData[m.rowIndex]? with
  | some row =>
    simp only [Handler.wp_bind, Handler.wp_modify, Handler.wp_pure, if_true]
    obtain ⟨hlt, hval⟩ := List.getElem?_eq_some_iff.mp hrow
    have hpending : m.pending = row :: m.currentData.drop (m.rowIndex + 1) := by
      rw [MoonboxResult.pending, List.drop_eq_getElem_cons hlt, hval]
    obtain ⟨later, hlater⟩ := h.pending
    rw [hpending, List.cons_append] at hlater
    obtain ⟨hnow, hnext⟩ := Runner.drop_eq_cons hlater.symm
    refine ⟨trivial, hnow.symm, trivial, ⟨later, hnext.symm⟩, fun hlast => ?_,
      fun hmore hstamp => ?_⟩
    · have hall := h.whole hlast
      rw [hpending] at hall
      exact (Runner.drop_eq_cons hall.symm).2.symm
    · obtain ⟨hschema, hdata, hid⟩ := h.paged hmore hstamp
      refine ⟨hschema, hdata, ?_⟩
      rw [hpending, List.length_cons] at hid
      show r.currentRowId = n + 1 + (m.currentData.drop (m.rowIndex + 1)).length
      omega
  | none =>
    have hnil : m.pending = [] := List.drop_eq_nil_of_le (List.getElem?_eq_none_iff.mp hrow)
    have hlast : m.hasMoreData = false := hready.resolve_left fun h => h hnil
    have hend : rows.drop n = [] := by rw [← h.whole hlast, hnil]
    have hend' : rows.drop (n + 1) = [] := by
      rw [List.drop_eq_nil_iff] at hend ⊢
      omega
    simp only [hlast, Bool.false_eq_true, if_false, Handler.wp_pure, true_and]
    refine ⟨?_, ⟨?_, fun _ => ?_, fun hmore => ?_⟩⟩
    · rw [← List.head?_drop, hend]
      rfl
    · rw [hnil]
      exact List.nil_prefix
    · rw [hnil, hend']
    · rw [hlast] at hmore
      cases hmore

/-- The next page. -/
lemma At.fetchMoreData (h : At r m stamp data rows n) (hnil : m.pending = [])
    (hmore : m.hasMoreData = true) (hstamp : r.statements = stamp)
    (hcut : Runner.cut r.maxRows data = rows) (hsize : rows = [] ∨ 0 < r.fetchSize) :
    Handler.wp MoonboxResult.fetchMoreData
      (fun _ s => At s.1 s.2 stamp data rows n ∧
        (s.2.pending ≠ [] ∨ s.2.hasMoreData = false) ∧ s.1.statements = r.statements)
      (fun _ => False) (r, m) := by
  obtain ⟨hschema, hdata, hid⟩ := h.paged hmore hstamp
  rw [hnil, List.length_nil, Nat.add_zero] at hid
  have hfetch := Runner.wp_fetchResultData hschema hdata
  rw [hcut, hid] at hfetch
  rw [MoonboxResult.fetchMoreData, Handler.wp_bind]
  apply Handler.wp_mono (wp_onRunner hfetch)
  · rintro q s ⟨⟨hdata', hmore', hleft, hstatements, -⟩, hsame⟩
    rw [Handler.wp_modify]
    refine ⟨⟨?_, fun hlast => ?_, fun hnext _ => ?_⟩, ?_, hstatements⟩
    · show q.data.drop 0 <+: _
      rw [List.drop_zero, hdata']
      exact List.take_prefix _ _
    · show q.data.drop 0 = _
      have hlast' : rows.length ≤ n + q.data.length := by
        have hle : q.hasMore = false := hlast
        rw [hmore', decide_eq_false_iff_not] at hle
        omega
      rw [List.drop_zero, hdata']
      rw [hdata', List.length_take, List.length_drop] at hlast'
      apply List.take_of_length_le
      rw [List.length_drop]
      omega
    · obtain ⟨hschema', hid', hrest⟩ := hleft hnext
      refine ⟨hschema', hrest, ?_⟩
      rw [hid']
      rfl
    · cases hq : q.hasMore with
      | false => exact Or.inr rfl
      | true =>
        left
        show q.data.drop 0 ≠ []
        rw [hq, eq_comm, decide_eq_true_eq] at hmore'
        have hsize' : 0 < r.fetchSize := by
          rcases hsize with hrows | hsize
          · simp [hrows] at hmore'
          · exact hsize
        rw [List.drop_zero, hdata']
        intro hempty
        rw [List.take_eq_nil_iff, List.drop_eq_nil_iff] at hempty
        omega
  · intro s hfalse
    exact hfalse.1

/-- One call of `next` answers with the row the result set stands before. -/
lemma At.answers (h : At r m stamp data rows n) {depth : Nat} (hdepth : 2 ≤ depth)
    (hfetch : m.pending = [] → m.hasMoreData = true → r.statements = stamp ∧
      Runner.cut r.maxRows data = rows ∧ (rows = [] ∨ 0 < r.fetchSize)) :
    Handler.wp (MoonboxResult.next depth)
      (fun b s => (if b then s.2.currentRow else none) = rows[n]? ∧
        At s.1 s.2 stamp data rows (n + 1) ∧ s.1.statements = r.statements ∧
        (s.2.hasMoreData = true → m.hasMoreData = true) ∧
        (s.1 = r ∨ m.hasMoreData = true ∧ r.statements = stamp))
      (fun _ => False) (r, m) := by
  obtain ⟨depth, rfl⟩ := Nat.exists_eq_add_of_le' hdepth
  by_cases hready : m.pending ≠ [] ∨ m.hasMoreData = false
  · apply Handler.wp_mono (h.next (depth + 1) hready)
    · rintro b s ⟨rfl, hrow, hmore, hat⟩
      exact ⟨hrow, hat, rfl, fun h => hmore ▸ h, Or.inl rfl⟩
    · exact fun _ hfalse => hfalse
  · push Not at hready
    obtain ⟨hnil, hmore⟩ := hready
    rw [Bool.ne_false_iff] at hmore
    obtain ⟨hstamp, hcut, hsize⟩ := hfetch hnil hmore
    have hrow : m.currentData[m.rowIndex]? = none := by
      rw [List.getElem?_eq_none_iff, ← List.drop_eq_nil_iff]
      exact hnil
    rw [MoonboxResult.next]
    simp only [Handler.wp_bind, Handler.wp_get, hrow, hmore, if_true]
    apply Handler.wp_mono (h.fetchMoreData hnil hmore hstamp hcut hsize)
    · rintro _ ⟨r', m'⟩ ⟨hat, hready', hstatements⟩
      apply Handler.wp_mono (hat.next depth hready')
      · rintro b s ⟨rfl, hrow', -, hat'⟩
        exact ⟨hrow', hat', hstatements, fun _ => trivial, Or.inr ⟨trivial, hstamp⟩⟩
      · exact fun _ hfalse => hfalse
    · exact fun _ hfalse => hfalse

/-- A result set keeps its place while the runner runs other requests. -/
lemma At.later {r' : Runner S R} (h : At r m stamp data rows n) (hle : stamp ≤ r.statements)
    (hlater : r.Later r') : At r' m stamp data rows n := by
  refine ⟨h.pending, h.whole, fun hmore hstamp => ?_⟩
  have hge := hlater.statements
  obtain ⟨hdata, hschema, hid⟩ := hlater.same (by omega)
  rw [hdata, hschema, hid]
  exact h.paged hmore (by omega)

end Next

/-! ### Runs -/

/-- Every result set has answered with its rows and is in its place. Those that still have to
fetch were opened by different statements. -/
structure Serves (c : Connection S R) : Prop where
  yields : ∀ rs ∈ c.results, rs.Yields
  opened : ∀ rs ∈ c.results, rs.stamp ≤ c.runner.statements
  place : ∀ rs ∈ c.results, At c.runner rs.result rs.stamp rs.data rs.rows rs.answers.length
  distinct : ∀ (i j : Nat) (rs rs' : ResultSet R), i ≠ j → c.results[i]? = some rs → c.results[j]? = some rs' →
    rs.result.hasMoreData = true → rs'.result.hasMoreData = true → rs.stamp ≠ rs'.stamp

lemma Serves.empty : Serves (Connection.mk {} [] : Connection S R) := by
  constructor <;> simp

/-- A result set after one more answer. -/
def ResultSet.answered (rs : ResultSet R) (m : MoonboxResult R) : ResultSet R :=
  { rs with
    result := m
    answers := rs.answers ++ [.ok rs.rows[rs.answers.length]?] }

lemma ResultSet.Yields.answered {rs : ResultSet R} (h : rs.Yields) (m : MoonboxResult R) :
    (rs.answered m).Yields := by
  rw [ResultSet.Yields] at h ⊢
  simp only [ResultSet.answered, List.length_append, List.length_singleton, List.range_succ,
    List.map_append, List.map_cons, List.map_nil]
  rw [← h]

/-- The answer to a query puts its result set before its first row. -/
lemma at_resultSet {sqls : List (Except String (Executed S R))} {maxRows : Int} {q : QueryResult S R}
    {r r' : Runner S R} {last : Executed S R} (hlast : Runner.lastCommand sqls = some last)
    (h : Runner.Answers maxRows last r q r') :
    At r' (resultSet sqls maxRows q r').result (resultSet sqls maxRows q r').stamp
      (resultSet sqls maxRows q r').data (resultSet sqls maxRows q r').rows 0 := by
  simp only [resultSet, hlast, Option.map_some, Option.getD_some]
  cases hq : q.hasMore with
  | false =>
    have hdata := h.whole hq
    refine ⟨?_, fun _ => ?_, by simp⟩
    · simp [MoonboxResult.pending, hdata]
    · simp [MoonboxResult.pending, hdata]
  | true =>
    obtain ⟨hdata, -, hrows, hcurrent, hschema, hid⟩ := h.paged hq
    refine ⟨?_, by simp, fun _ _ => ?_⟩
    · simp [MoonboxResult.pending, hdata]
    · simp [MoonboxResult.pending, hdata, hcurrent, hschema, hid]

lemma Serves.executeQuery {c : Connection S R} (h : Serves c)
    (sqls : List (Except String (Executed S R))) (fetchSize maxRows : Int) :
    Serves (c.executeQuery sqls fetchSize maxRows) := by
  have hquery := Runner.wp_query sqls fetchSize maxRows c.runner
  unfold Connection.executeQuery
  rw [Handler.wp] at hquery
  split
  · rename_i q r hrun
    rw [hrun] at hquery
    obtain ⟨⟨last, hlast, hanswers⟩, hlater, -⟩ := hquery
    have hnew : ∀ rs ∈ c.results, (resultSet sqls (Runner.effectiveMaxRows maxRows) q
        r).result.hasMoreData = true → rs.stamp ≠ r.statements := by
      intro rs hrs hmore
      obtain ⟨-, hlt, -⟩ := hanswers.paged hmore
      have hle := h.opened rs hrs
      omega
    refine ⟨fun rs hrs => ?_, fun rs hrs => ?_, fun rs hrs => ?_, ?_⟩
    · rcases List.mem_append.mp hrs with hrs | hrs
      · exact h.yields rs hrs
      · rw [List.mem_singleton.mp hrs]
        rfl
    · rcases List.mem_append.mp hrs with hrs | hrs
      · exact Nat.le_trans (h.opened rs hrs) hlater.statements
      · rw [List.mem_singleton.mp hrs]
        exact Nat.le_refl _
    · rcases List.mem_append.mp hrs with hrs | hrs
      · exact (h.place rs hrs).later (h.opened rs hrs) hlater
      · rw [List.mem_singleton.mp hrs]
        exact at_resultSet hlast hanswers
    · intro i j rs rs' hij hi hj hmore hmore'
      simp only [List.getElem?_append] at hi hj
      split at hi <;> split at hj
      · exact h.distinct i j rs rs' hij hi hj hmore hmore'
      · have heq := List.mem_singleton.mp (List.mem_of_getElem? hj)
        rw [heq] at hmore' ⊢
        exact hnew rs (List.mem_of_getElem? hi) hmore'
      · have heq := List.mem_singleton.mp (List.mem_of_getElem? hi)
        rw [heq] at hmore ⊢
        exact (hnew rs' (List.mem_of_getElem? hj) hmore).symm
      · have hi' := (List.getElem?_eq_some_iff.mp hi).1
        have hj' := (List.getElem?_eq_some_iff.mp hj).1
        simp only [List.length_singleton] at hi' hj'
        omega
  · rename_i e r hrun
    rw [hrun] at hquery
    refine ⟨h.yields, fun rs hrs => ?_, fun rs hrs => ?_, h.distinct⟩
    · exact Nat.le_trans (h.opened rs hrs) hquery.statements
    · exact (h.place rs hrs).later (h.opened rs hrs) hquery

/-- One result set has answered; another that waits for its next page was opened by another
statement, so that it does not matter to it which rows are gone. -/
lemma Serves.answered {c : Connection S R} (h : Serves c) {i : Nat} {rs : ResultSet R}
    (hi : c.results[i]? = some rs) {r : Runner S R} {m : MoonboxResult R}
    (hstatements : r.statements = c.runner.statements)
    (hmore : m.hasMoreData = true → rs.result.hasMoreData = true)
    (hat : At r m rs.stamp rs.data rs.rows (rs.answers.length + 1))
    (hsame : r = c.runner ∨ rs.result.hasMoreData = true ∧ c.runner.statements = rs.stamp) :
    Serves ⟨r, c.results.set i (rs.answered m)⟩ := by
  have hmem := List.mem_of_getElem? hi
  have hcases : ∀ (j : Nat) (rs' : ResultSet R), (c.results.set i (rs.answered m))[j]? = some rs' →
      i = j ∧ rs' = rs.answered m ∨ i ≠ j ∧ c.results[j]? = some rs' := by
    intro j rs' hj
    rw [List.getElem?_set] at hj
    by_cases hij : i = j
    · rw [if_pos hij, if_pos (List.getElem?_eq_some_iff.mp hi).1] at hj
      exact Or.inl ⟨hij, (Option.some.inj hj).symm⟩
    · rw [if_neg hij] at hj
      exact Or.inr ⟨hij, hj⟩
  refine ⟨fun rs' hrs' => ?_, fun rs' hrs' => ?_, fun rs' hrs' => ?_, ?_⟩
  · obtain ⟨j, hj⟩ := List.mem_iff_getElem?.mp hrs'
    rcases hcases j rs' hj with ⟨-, rfl⟩ | ⟨-, hj⟩
    · exact (h.yields rs hmem).answered m
    · exact h.yields rs' (List.mem_of_getElem? hj)
  · obtain ⟨j, hj⟩ := List.mem_iff_getElem?.mp hrs'
    rw [hstatements]
    rcases hcases j rs' hj with ⟨-, rfl⟩ | ⟨-, hj⟩
    · exact h.opened rs hmem
    · exact h.opened rs' (List.mem_of_getElem? hj)
  · obtain ⟨j, hj⟩ := List.mem_iff_getElem?.mp hrs'
    rcases hcases j rs' hj with ⟨-, rfl⟩ | ⟨hij, hj⟩
    · simpa [ResultSet.answered] using hat
    · have hplace := h.place rs' (List.mem_of_getElem? hj)
      rcases hsame with rfl | ⟨hwaits, hstamp⟩
      · exact hplace
      · refine ⟨hplace.pending, hplace.whole, fun hwaits' hstamp' => ?_⟩
        have hne := h.distinct i j rs rs' hij hi hj hwaits hwaits'
        exact absurd ((hstamp.symm.trans hstatements.symm).trans hstamp') hne
  · intro j k rs₁ rs₂ hjk hj hk hwaits hwaits'
    rcases hcases j rs₁ hj with ⟨rfl, rfl⟩ | ⟨-, hj⟩ <;>
      rcases hcases k rs₂ hk with ⟨rfl, rfl⟩ | ⟨-, hk⟩
    · exact absurd rfl hjk
    · exact h.distinct _ _ rs rs₂ hjk hi hk (hmore hwaits) hwaits'
    · exact h.distinct _ _ rs₁ rs hjk hj hi hwaits (hmore hwaits')
    · exact h.distinct _ _ rs₁ rs₂ hjk hj hk hwaits hwaits'

lemma Serves.next {c : Connection S R} (h : Serves c) {depth : Nat} (hdepth : 2 ≤ depth) {i : Nat}
    (hcall : c.Undisturbed (.next i)) : Serves (c.next depth i) := by
  unfold Connection.next
  split
  · rename_i rs hi
    have hrs := List.mem_of_getElem? hi
    have hanswers := (h.place rs hrs).answers hdepth (hcall rs hi)
    rw [Handler.wp] at hanswers
    cases hrun : MoonboxResult.next depth (c.runner, rs.result) with
    | mk b s =>
      obtain ⟨r, m⟩ := s
      rw [hrun] at hanswers
      cases b with
      | error e => exact hanswers.elim
      | ok b =>
        obtain ⟨hrow, hat, hstatements, hmore, hsame⟩ := hanswers
        simp only at hrow hat hstatements hmore hsame
        have hanswer : answer (.ok b) m = .ok rs.rows[rs.answers.length]? := by
          rw [← hrow]
          rfl
        simp only [hanswer]
        exact h.answered hi hstatements hmore hat hsame
  · exact h

lemma Serves.step {c : Connection S R} (h : Serves c) {depth : Nat} (hdepth : 2 ≤ depth)
    (call : Call S R) (hcall : c.Undisturbed call) : Serves (c.step depth call) := by
  cases call with
  | executeQuery sqls fetchSize maxRows => exact h.executeQuery sqls fetchSize maxRows
  | next i => exact h.next hdepth hcall

/-- As long as no call disturbs a result set that has pages to fetch, every result set answers
with the rows of its own query, each once and in their order, and then with the end. -/
theorem result_sets_independent (depth : Nat) (hdepth : 2 ≤ depth) (calls : List (Call S R))
    (hcalls : EachStep (step depth) Undisturbed (Connection.mk {} []) calls) :
    ∀ rs ∈ ((Connection.mk {} []).run depth calls).results, rs.Yields :=
  (hcalls.invariant (fun _ call h hcall => h.step hdepth call hcall) Serves.empty).yields

/-- `executeQuery` with a statement that has the given rows, fetched one by one. -/
def oneByOne (rows : List Nat) : Call String Nat :=
  .executeQuery [.ok (.statement fun _ => .ok (rows, "id int"))] 1 100

theorem result_sets_independent_in_turn :
    (((Connection.mk {} []).run 2
      [oneByOne [1, 2], .next 0, .next 0, oneByOne [3, 4], .next 1, .next 0]).results.all
        fun rs => decide rs.Yields) = true := by
  rw [List.all_eq_true]
  intro rs hrs
  rw [decide_eq_true_eq]
  refine result_sets_independent 2 (by decide) _ ?_ rs hrs
  refine ⟨trivial, ?_, ?_, trivial, ?_, ?_, trivial⟩
  all_goals
    intro rs hrs
    cases hrs
    decide

/-- A statement executed while another still has pages to fetch gives its rows to it. -/
theorem result_sets_independent_fails :
    ¬ ∀ rs ∈ ((Connection.mk {} []).run 2
      [oneByOne [1, 2], .next 0, oneByOne [3, 4], .next 0]).results, rs.Yields := by
  intro h
  have hfirst := h _ (List.mem_of_getElem? (i := 0) rfl)
  exact absurd hfirst (by decide)

end Moonbox.Interactive
