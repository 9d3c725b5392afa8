import Moonbox.Interactive.ResultSets

/-!
# The pages of a result

A client reads the first answer and then pages until there are no more, or calls `next` until it
answers `false`. The connection runs nothing else meanwhile.
-/

namespace Moonbox.Interactive

open Actor

variable {S R : Type}

/-- What Spark is to run, with the rows it comes to. -/
structure SparkPlan (S R : Type) where
  isRunnable : Bool
  rows : List R
  schema : S

/-- `SparkEngine.sql`. The rows of a command are collected, any other plan is limited. -/
def SparkPlan.sql (plan : SparkPlan S R) (maxRows : Int) : Except String (List R × S) :=
  if plan.isRunnable || decide (maxRows < 0) then .ok (plan.rows, plan.schema)
  else .ok (plan.rows.take maxRows.toNat, plan.schema)

/-- The pages from an answer on, read until there are no more, have these rows in this order, and
so many calls fetch them. -/
inductive Fetches : QueryResult S R → Runner S R → List R → Nat → Prop
  | last {q r} (hmore : q.hasMore = false) : Fetches q r q.data 0
  | more {q q' r r' rows calls} (hmore : q.hasMore = true)
    (hfetch : Runner.fetchResultData r = (.ok q', r')) (rest : Fetches q' r' rows calls) :
    Fetches q r (q.data ++ rows) (calls + 1)

/-- The calls of `next` until the first that answers `false` stand on these rows. -/
inductive Iterates (depth : Nat) : Runner S R × MoonboxResult R → List R → Prop
  | done {s s'} (hnext : MoonboxResult.next depth s = (.ok false, s')) : Iterates depth s []
  | row {s s' row rows} (hnext : MoonboxResult.next depth s = (.ok true, s'))
    (hrow : s'.2.currentRow = some row) (rest : Iterates depth s' rows) :
    Iterates depth s (row :: rows)

/-- Both ways of reading an answer end and come to these rows. -/
structure Complete (q : QueryResult S R) (r : Runner S R) (rows : List R) : Prop where
  fetches : ∃ calls, Fetches q r rows calls
  iterates : ∀ depth, 2 ≤ depth →
    Iterates depth (r, { hasMoreData := q.hasMore, currentData := q.data }) rows

/-! ### What an answer comes to is determined -/

lemma Fetches.unique {q : QueryResult S R} {r : Runner S R} {rows rows' : List R}
    {calls calls' : Nat} (h : Fetches q r rows calls) (h' : Fetches q r rows' calls') :
    rows = rows' ∧ calls = calls' := by
  induction h generalizing rows' calls' with
  | last hmore =>
    cases h' with
    | last => exact ⟨rfl, rfl⟩
    | more hmore' => exact absurd (hmore.symm.trans hmore') Bool.false_ne_true
  | more hmore hfetch _ ih =>
    cases h' with
    | last hmore' => exact absurd (hmore'.symm.trans hmore) Bool.false_ne_true
    | more _ hfetch' rest' =>
      rw [hfetch] at hfetch'
      cases hfetch'
      obtain ⟨rfl, rfl⟩ := ih rest'
      exact ⟨rfl, rfl⟩

/-! ### Reading the pages -/

section Pages

variable {r : Runner S R} {q : QueryResult S R} {data : List R}

/-- From an answer that has more, the pages have what is left of the rows. -/
lemma fetches_rest (hmore : q.hasMore = true) (hschema : r.currentSchema.isSome)
    (hdata : r.currentData = some (data.drop r.currentRowId))
    (hsize : 0 < r.fetchSize ∨ (Runner.cut r.maxRows data).drop r.currentRowId = []) :
    ∃ calls, Fetches q r (q.data ++ (Runner.cut r.maxRows data).drop r.currentRowId) calls := by
  induction hleft : (Runner.cut r.maxRows data).length - r.currentRowId using
    Nat.strongRecOn generalizing q r with
  | _ left ih =>
    have hpage := Runner.wp_fetchResultData hschema hdata
    rw [Handler.wp] at hpage
    split at hpage
    · rename_i q' r' hfetch
      obtain ⟨hdata', hmore', hnext, -, hsettings⟩ := hpage
      have hprefix : q'.data <+: (Runner.cut r.maxRows data).drop r.currentRowId := by
        rw [hdata']
        exact List.take_prefix _ _
      have happend := List.prefix_iff_eq_append.mp hprefix
      rw [List.drop_drop] at happend
      cases hq : q'.hasMore with
      | false =>
        rw [hq, eq_comm, decide_eq_false_iff_not, Nat.not_lt] at hmore'
        rw [List.drop_eq_nil_of_le hmore', List.append_nil] at happend
        exact ⟨1, happend ▸ .more hmore hfetch (.last hq)⟩
      | true =>
        rw [hq, eq_comm, decide_eq_true_eq] at hmore'
        obtain ⟨hschema', hid, hcurrent⟩ := hnext hq
        have hfetchSize : r'.fetchSize = r.fetchSize := congrArg Prod.fst hsettings
        have hmaxRows : r'.maxRows = r.maxRows := congrArg Prod.snd hsettings
        have hne : (Runner.cut r.maxRows data).drop r.currentRowId ≠ [] := by
          rw [ne_eq, List.drop_eq_nil_iff]
          omega
        have hpos := hsize.resolve_right hne
        -- A page that is not the last has a row, so less is left after it.
        have hpage : 0 < q'.data.length := by
          rw [hdata', List.length_take, List.length_drop]
          omega
        obtain ⟨calls, hcalls⟩ := ih _ (by rw [hmaxRows, hid]; omega) hq hschema' hcurrent
          (Or.inl (by rw [hfetchSize]; exact hpos)) rfl
        rw [hmaxRows, hid, happend] at hcalls
        exact ⟨calls + 1, .more hmore hfetch hcalls⟩
    · exact hpage.elim

/-- The settings of the request stay in force. -/
def SameSettings (r r' : Runner S R) : Prop := r'.settings = r.settings

instance : Std.Refl (SameSettings (S := S) (R := R)) := ⟨fun _ => rfl⟩

instance : IsTrans (Runner S R) SameSettings := ⟨fun _ _ _ h h' => h'.trans h⟩

lemma sameSettings_fetchResultData :
    Handler.Keeps SameSettings (Runner.fetchResultData (S := S) (R := R)) := by
  refine Handler.Keeps.get.bind fun r => ?_
  cases r.currentData with
  | none => exact Handler.Keeps.throw _
  | some data =>
    cases r.currentSchema with
    | none => exact Handler.Keeps.throw _
    | some schema =>
      refine Handler.Keeps.bind (.modify fun r => Std.Refl.refl r.settings) fun _ =>
        Handler.Keeps.ite (.pure _) (Handler.Keeps.bind ?_ fun _ => .pure _)
      exact .modify fun r => Std.Refl.refl r.settings

end Pages

/-! ### Calling `next` -/

namespace MoonboxResult

/-- When `next` answers `true` there is a row to stand on. -/
lemma next_currentRow (depth : Nat) (s : Runner S R × MoonboxResult R) :
    Handler.wp (next depth) (fun b s' => b = true → s'.2.currentRow.isSome) (fun _ => True) s := by
  induction depth generalizing s with
  | zero => trivial
  | succ depth ih =>
    simp only [next, Handler.wp_bind, Handler.wp_get]
    cases s.2.currentData[s.2.rowIndex]? with
    | some row => simp
    | none =>
      split_ifs
      · rw [Handler.wp_bind]
        exact Handler.wp_mono (Handler.wp_true _ _) (fun _ s' _ => ih s') fun _ _ => trivial
      · simp

lemma sameSettings_next (depth : Nat) : Handler.Keeps
    (fun s s' : Runner S R × MoonboxResult R => SameSettings s.1 s'.1) (next depth) := by
  have : Std.Refl fun s s' : Runner S R × MoonboxResult R => SameSettings s.1 s'.1 :=
    ⟨fun s => Std.Refl.refl s.1⟩
  have : IsTrans (Runner S R × MoonboxResult R) fun s s' => SameSettings s.1 s'.1 :=
    ⟨fun _ _ _ h h' => IsTrans.trans _ _ _ h h'⟩
  induction depth with
  | zero => exact Handler.Keeps.throw _
  | succ depth ih =>
    refine Handler.Keeps.get.bind fun s => ?_
    cases s.2.currentData[s.2.rowIndex]? with
    | some row =>
      exact Handler.Keeps.bind (.modify fun s => Std.Refl.refl s.1.settings) fun _ => .pure true
    | none =>
      refine Handler.Keeps.ite (Handler.Keeps.bind ?_ fun _ => ih) (.pure false)
      exact Handler.Keeps.bind (fun s => sameSettings_fetchResultData s.1) fun _ =>
        .modify fun s => Std.Refl.refl s.1.settings

end MoonboxResult

/-- From its place on a result set goes through the rows to come. -/
lemma At.iterates {r : Runner S R} {m : MoonboxResult R} {stamp n depth : Nat}
    {data rows : List R} (h : At r m stamp data rows n) (hdepth : 2 ≤ depth)
    (hstamp : r.statements = stamp) (hcut : Runner.cut r.maxRows data = rows)
    (hsize : 0 < r.fetchSize ∨ rows = []) : Iterates depth (r, m) (rows.drop n) := by
  induction hleft : rows.drop n generalizing r m n with
  | nil =>
    have hnext := Handler.wp_and
      (h.answers hdepth fun _ _ => ⟨hstamp, hcut, hsize.symm⟩)
      (MoonboxResult.next_currentRow depth (r, m))
    rw [Handler.wp] at hnext
    split at hnext
    · rename_i b s hs
      obtain ⟨⟨hrow, -⟩, hsome⟩ := hnext
      rw [← List.head?_drop, hleft] at hrow
      cases b with
      | false => exact .done hs
      | true =>
        rw [if_pos rfl] at hrow
        rw [hrow] at hsome
        exact absurd (hsome rfl) Bool.false_ne_true
    · exact hnext.1.elim
  | cons row rows' ih =>
    have hnext := Handler.wp_and (h.answers hdepth fun _ _ => ⟨hstamp, hcut, hsize.symm⟩)
      ((MoonboxResult.sameSettings_next depth).wp (r, m))
    rw [Handler.wp] at hnext
    split at hnext
    · rename_i b s hs
      obtain ⟨⟨hrow, hat, hstatements, -⟩, hsettings⟩ := hnext
      obtain ⟨hhead, htail⟩ := Runner.drop_eq_cons hleft
      rw [hhead] at hrow
      have hfetchSize : s.1.fetchSize = r.fetchSize := congrArg Prod.fst hsettings
      have hmaxRows : s.1.maxRows = r.maxRows := congrArg Prod.snd hsettings
      cases b with
      | false => cases hrow
      | true =>
        exact .row hs hrow (ih hat (hstatements.trans hstamp) (by rw [hmaxRows, hcut])
          (by rw [hfetchSize]; exact hsize) htail)
    · exact hnext.1.elim

/-! ### Requests -/

/-- A statement has as many rows as may be given, the first of those of its plan. -/
lemma cut_sql {plan : SparkPlan S R} {maxRows : Int} :
    Runner.cut maxRows (Runner.dataOf maxRows (.statement plan.sql)) =
      Runner.cut maxRows plan.rows := by
  by_cases hnegative : maxRows < 0
  · simp [Runner.dataOf, SparkPlan.sql, hnegative]
  · cases hrunnable : plan.isRunnable with
    | true => simp [Runner.dataOf, SparkPlan.sql, hrunnable]
    | false =>
      simp only [Runner.dataOf, SparkPlan.sql, hrunnable, hnegative, Runner.cut, decide_false,
        Bool.or_self, Bool.false_eq_true, if_false, List.take_take, Nat.min_self]

/-- An answer to a statement, with the settings it was run with. -/
lemma complete_of_query {sqls : List (Except String (Executed S R))} {plan : SparkPlan S R}
    (hlast : Runner.lastCommand sqls = some (.statement plan.sql)) {fetchSize maxRows : Int}
    (hsize : 0 < fetchSize ∨ Runner.cut (Runner.effectiveMaxRows maxRows) plan.rows = [])
    {r r' : Runner S R} {q : QueryResult S R}
    (hquery : Runner.query sqls fetchSize maxRows r = (.ok q, r')) :
    Complete q r' (Runner.cut (Runner.effectiveMaxRows maxRows) plan.rows) := by
  have h := Runner.wp_query sqls fetchSize maxRows r
  rw [Handler.wp, hquery] at h
  obtain ⟨⟨last, hlast', hanswers⟩, -, hsettings⟩ := h
  obtain rfl := Option.some.inj (hlast.symm.trans hlast')
  have hfetchSize : r'.fetchSize = fetchSize := congrArg Prod.fst hsettings
  have hmaxRows : r'.maxRows = Runner.effectiveMaxRows maxRows := congrArg Prod.snd hsettings
  constructor
  · cases hq : q.hasMore with
    | false =>
      have hwhole := hanswers.whole hq
      rw [Runner.rowsOf, cut_sql] at hwhole
      exact ⟨0, hwhole ▸ .last hq⟩
    | true =>
      obtain ⟨hdata, -, -, hcurrent, hschema, hid⟩ := hanswers.paged hq
      have hrest := fetches_rest hq hschema (by rw [hcurrent, hid, List.drop_zero])
        (by rw [hfetchSize, hmaxRows, hid, List.drop_zero, cut_sql]; exact hsize)
      rwa [hdata, hmaxRows, hid, List.drop_zero, List.nil_append, cut_sql] at hrest
  · intro depth hdepth
    have hat := at_resultSet hlast hanswers
    have hrows : (Connection.resultSet sqls (Runner.effectiveMaxRows maxRows) q r').rows =
        Runner.cut (Runner.effectiveMaxRows maxRows) plan.rows := by
      simp only [Connection.resultSet, hlast, Option.map_some, Option.getD_some, Runner.rowsOf,
        cut_sql]
    rw [hrows] at hat
    refine hat.iterates hdepth rfl ?_ (by rw [hfetchSize]; exact hsize)
    rw [hmaxRows, ← cut_sql]
    simp only [Connection.resultSet, hlast, Option.map_some, Option.getD_some]

/-- Whatever came before on the session, the answer to a statement and the pages after it have the
first `maxRows` rows, all if `maxRows` is negative and a hundred if it is not set. -/
theorem paged_results_complete {sqls : List (Except String (Executed S R))} {plan : SparkPlan S R}
    (hlast : Runner.lastCommand sqls = some (.statement plan.sql)) {fetchSize maxRows : Int}
    (hsize : 0 < fetchSize ∨ Runner.cut (Runner.effectiveMaxRows maxRows) plan.rows = [])
    {r r' : Runner S R} {q : QueryResult S R}
    (hquery : Runner.query sqls fetchSize maxRows r = (.ok q, r')) :
    Complete q r' (Runner.cut (Runner.effectiveMaxRows maxRows) plan.rows) :=
  complete_of_query hlast hsize hquery

/-- A query with so many rows. -/
def rangePlan (n : Nat) : SparkPlan Unit Nat :=
  { isRunnable := false, rows := List.range n, schema := () }

def rangeRequest (n : Nat) : List (Except String (Executed Unit Nat)) :=
  [.ok (.statement (rangePlan n).sql)]

/-- Three rows of five in pages of two. -/
theorem paged_results_complete_range : ∃ (q : QueryResult Unit Nat) (r : Runner Unit Nat),
    Runner.query (rangeRequest 5) 2 3 {} = (.ok q, r) ∧ Complete q r [0, 1, 2] := by
  obtain ⟨q, r, hquery⟩ : ∃ (q : QueryResult Unit Nat) (r : Runner Unit Nat),
    Runner.query (rangeRequest 5) 2 3 {} = (.ok q, r) := ⟨_, _, rfl⟩
  have hlast : Runner.lastCommand (rangeRequest 5) = some (.statement (rangePlan 5).sql) := rfl
  exact ⟨q, r, hquery, paged_results_complete hlast (Or.inl (by decide)) hquery⟩

/-- The least integer is negative and stands for a hundred. -/
theorem paged_results_complete_fails :
    ¬∀ (plan : SparkPlan Unit Nat) (fetchSize maxRows : Int) (r r' : Runner Unit Nat)
      (q : QueryResult Unit Nat),
      Runner.query [.ok (.statement plan.sql)] fetchSize maxRows r = (.ok q, r') →
        Complete q r' (Runner.cut maxRows plan.rows) := by
  intro h
  obtain ⟨q, r, hquery⟩ : ∃ (q : QueryResult Unit Nat) (r : Runner Unit Nat),
    Runner.query (rangeRequest 101) 1000 (-2147483648) {} = (.ok q, r) := ⟨_, _, rfl⟩
  have hlast : Runner.lastCommand (rangeRequest 101) = some (.statement (rangePlan 101).sql) := rfl
  obtain ⟨_, hall⟩ := (h (rangePlan 101) 1000 (-2147483648) {} r q hquery).fetches
  obtain ⟨_, hcut⟩ := (complete_of_query hlast (Or.inl (by decide)) hquery).fetches
  have hlength := congrArg List.length (hall.unique hcut).1
  simp [Runner.cut, Runner.effectiveMaxRows, rangePlan] at hlength

end Moonbox.Interactive
