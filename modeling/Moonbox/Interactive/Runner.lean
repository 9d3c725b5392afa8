import Mathlib.Data.List.TakeDrop
import Moonbox.Lib.Handler

/-!
# Query results on the server

The part of `Runner` that runs the commands of a request and hands out the rows of the last
statement page by page. What the engine answers to a command comes with the command.
-/

namespace Moonbox.Interactive

open Actor

variable {S R : Type}

structure QueryResult (S R : Type) where
  schema : S
  data : List R
  hasMore : Bool
  deriving DecidableEq, Repr

/-- The fields of a runner. `none` is `null`, an iterator is the list of what it has still to
give, and `statements` records for the proofs how often `currentData` was set. -/
structure Runner (S R : Type) where
  fetchSize : Int := 0
  maxRows : Int := 0
  currentData : Option (List R) := none
  currentSchema : Option S := none
  currentRowId : Nat := 0
  statements : Nat := 0
  deriving DecidableEq, Repr

/-- A command that has passed the parser and the check, with what running it gives: a statement
gets the `maxRows` in force. -/
inductive Executed (S R : Type) : Type
  | runnable (result : Except String (S × List R))
  | createTempView (result : Except String S)
  | statement (sql : Int → Except String (List R × S))
  | unsupported (message : String)

namespace Runner

/-- The value of a computation of the engine, or its exception. -/
def lift {α : Type} : Except String α → Handler (Runner S R) α
  | .ok a => pure a
  | .error e => Handler.throw e

def setCurrent (data : List R) (schema : S) (r : Runner S R) : Runner S R :=
  { r with
    currentRowId := 0
    currentData := some data
    currentSchema := some schema
    statements := r.statements + 1 }

def statement (sql : Int → Except String (List R × S)) : Handler (Runner S R) (QueryResult S R) :=
  do
    let r ← Handler.get
    let dataResult ← lift (sql r.maxRows)
    Handler.modify (setCurrent dataResult.1 dataResult.2)
    pure { schema := dataResult.2, data := [], hasMore := !dataResult.1.isEmpty }

def runCommand : Executed S R → Handler (Runner S R) (QueryResult S R)
  | .runnable result => do
    let (schema, data) ← lift result
    pure { schema := schema, data := data, hasMore := false }
  | .createTempView result => do
    let emptySchema ← lift result
    pure { schema := emptySchema, data := [], hasMore := false }
  | .statement sql => statement sql
  | .unsupported message => Handler.throw message

/-- All commands are run in their order, the result of the last is the answer. -/
def runCommands : List (Executed S R) → Handler (Runner S R) (QueryResult S R)
  | [] => Handler.throw "empty.last"
  | [command] => runCommand command
  | command :: commands => do
    let _ ← runCommand command
    runCommands commands

/-- `Int.MinValue` stands for the default of a hundred rows. -/
def effectiveMaxRows (maxRows : Int) : Int := if maxRows = -2147483648 then 100 else maxRows

/-- Every text is parsed and checked before the first command is run. -/
def query (sqls : List (Except String (Executed S R))) (fetchSize maxRows : Int) :
    Handler (Runner S R) (QueryResult S R) := do
  Handler.modify ({ · with fetchSize := fetchSize, maxRows := effectiveMaxRows maxRows })
  let commands ← lift (sqls.mapM id)
  runCommands commands

def hasNext (maxRows : Int) (rowId : Nat) (data : List R) : Bool :=
  if maxRows < 0 then !data.isEmpty else !data.isEmpty && decide ((rowId : Int) < maxRows)

/-- The loop of `fetchResultData`: the rows it takes and those it leaves. -/
def fetchRows (fetchSize maxRows : Int) : List R → Nat → Nat → List R × List R
  | [], _, _ => ([], [])
  | row :: data, rowId, rowCount =>
    if hasNext maxRows rowId (row :: data) && decide ((rowCount : Int) < fetchSize) then
      let (page, rest) := fetchRows fetchSize maxRows data (rowId + 1) (rowCount + 1)
      (row :: page, rest)
    else ([], row :: data)

def clear (r : Runner S R) : Runner S R := { r with currentData := none, currentSchema := none }

def fetchResultData : Handler (Runner S R) (QueryResult S R) := do
  let r ← Handler.get
  match r.currentData, r.currentSchema with
  | some data, some schema => do
    let (page, rest) := fetchRows r.fetchSize r.maxRows data r.currentRowId 0
    let rowId := r.currentRowId + page.length
    let more := hasNext r.maxRows rowId rest
    Handler.modify ({ · with currentData := some rest, currentRowId := rowId })
    if more then pure () else Handler.modify clear
    pure { schema := schema, data := page, hasMore := more }
  | _, _ => Handler.throw "NullPointerException"

/-! ### What a page holds -/

/-- The rows a runner may give of those it has. -/
def cut (maxRows : Int) (data : List R) : List R :=
  if maxRows < 0 then data else data.take maxRows.toNat

/-- The head and the tail of what is left of a list. -/
lemma drop_eq_cons {α : Type} {xs rest : List α} {n : Nat} {x : α} (h : xs.drop n = x :: rest) :
    xs[n]? = some x ∧ xs.drop (n + 1) = rest := by
  constructor
  · rw [← List.head?_drop, h]
    rfl
  · rw [← List.drop_drop, h]
    rfl

lemma cut_isPrefix (maxRows : Int) (data : List R) : cut maxRows data <+: data := by
  unfold cut
  split
  · exact List.prefix_refl _
  · exact List.take_prefix _ _

lemma hasNext_drop (maxRows : Int) (rowId : Nat) (data : List R) :
    hasNext maxRows rowId (data.drop rowId) = decide (rowId < (cut maxRows data).length) := by
  have hempty : (data.drop rowId).isEmpty = decide (data.length ≤ rowId) := by
    rw [Bool.eq_iff_iff, List.isEmpty_iff, List.drop_eq_nil_iff, decide_eq_true_eq]
  unfold hasNext cut
  rw [hempty]
  split
  · rw [Bool.eq_iff_iff]
    simp
  · rw [List.length_take, Bool.eq_iff_iff]
    simp only [Bool.and_eq_true, Bool.not_eq_true', decide_eq_false_iff_not, decide_eq_true_eq]
    omega

/-- Of the rows a runner may give, the first to come is the first of those it has. -/
lemma cut_drop_cons {maxRows : Int} {rowId : Nat} {data rest : List R} {row : R}
    (hdrop : data.drop rowId = row :: rest) (h : rowId < (cut maxRows data).length) :
    (cut maxRows data).drop rowId = row :: (cut maxRows data).drop (rowId + 1) := by
  obtain ⟨hlt, hrow⟩ := List.getElem?_eq_some_iff.mp (drop_eq_cons hdrop).1
  rw [List.drop_eq_getElem_cons h, (cut_isPrefix maxRows data).getElem h, hrow]

/-- A page holds the next rows, as many as the fetch size allows. -/
lemma fetchRows_spec (fetchSize maxRows : Int) (data : List R) (rowId rowCount : Nat) :
    (fetchRows fetchSize maxRows (data.drop rowId) rowId rowCount).1 =
        ((cut maxRows data).drop rowId).take (fetchSize - rowCount).toNat ∧
      (fetchRows fetchSize maxRows (data.drop rowId) rowId rowCount).2 =
        data.drop (rowId + (fetchRows fetchSize maxRows (data.drop rowId) rowId rowCount).1.length)
    := by
  induction hrest : data.drop rowId generalizing rowId rowCount with
  | nil =>
    have hnil : (cut maxRows data).drop rowId = [] := by
      rw [List.drop_eq_nil_iff] at hrest ⊢
      exact Nat.le_trans (cut_isPrefix maxRows data).length_le hrest
    simp [fetchRows, hnil, hrest]
  | cons row rest ih =>
    have hnext : data.drop (rowId + 1) = rest := (drop_eq_cons hrest).2
    rw [fetchRows, ← hrest, hasNext_drop]
    by_cases h : rowId < (cut maxRows data).length
    · by_cases hcount : (rowCount : Int) < fetchSize
      · obtain ⟨hpage, hleft⟩ := ih (rowId + 1) (rowCount + 1) hnext
        have hsize : (fetchSize - rowCount).toNat = (fetchSize - (rowCount + 1 : Nat)).toNat + 1 := by
          omega
        simp only [h, hcount, decide_true, Bool.and_self, if_true]
        rw [hpage] at hleft
        rw [cut_drop_cons hrest h, hsize, List.take_succ_cons, hpage, hleft, List.length_cons]
        refine ⟨rfl, ?_⟩
        congr 1
        omega
      · have hsize : (fetchSize - rowCount).toNat = 0 := by omega
        simp [hcount, hsize]
    · have hnil : (cut maxRows data).drop rowId = [] := by
        rw [List.drop_eq_nil_iff]
        omega
      simp [h, hnil]

/-! ### What the functions of a runner do -/

/-- The rows the engine finds for a command that is run with `maxRows`. -/
def dataOf (maxRows : Int) : Executed S R → List R
  | .runnable (.ok (_, data)) => data
  | .statement sql =>
    match sql maxRows with
    | .ok (data, _) => data
    | .error _ => []
  | _ => []

/-- The rows a client is to get of a command. -/
def rowsOf (maxRows : Int) : Executed S R → List R
  | .statement sql => cut maxRows (dataOf maxRows (.statement sql))
  | command => dataOf maxRows command

/-- The answer to a command either has all of its rows or leaves all of them to be fetched. -/
structure Answers (maxRows : Int) (command : Executed S R) (r : Runner S R)
    (q : QueryResult S R) (r' : Runner S R) : Prop where
  whole : q.hasMore = false → q.data = rowsOf maxRows command
  paged : q.hasMore = true → q.data = [] ∧ r.statements < r'.statements ∧
    rowsOf maxRows command = cut maxRows (dataOf maxRows command) ∧
    r'.currentData = some (dataOf maxRows command) ∧ r'.currentSchema.isSome ∧
    r'.currentRowId = 0

lemma Answers.of_le {maxRows : Int} {command : Executed S R} {r₀ r r' : Runner S R}
    {q : QueryResult S R} (h : Answers maxRows command r q r') (hle : r₀.statements ≤ r.statements) :
    Answers maxRows command r₀ q r' := by
  refine ⟨h.whole, fun hmore => ?_⟩
  obtain ⟨hdata, hlt, hrest⟩ := h.paged hmore
  exact ⟨hdata, Nat.lt_of_le_of_lt hle hlt, hrest⟩

/-- The rows that wait to be fetched are replaced by a statement and by nothing else. -/
structure Later (r r' : Runner S R) : Prop where
  statements : r.statements ≤ r'.statements
  same : r'.statements = r.statements → r'.currentData = r.currentData ∧
    r'.currentSchema = r.currentSchema ∧ r'.currentRowId = r.currentRowId

lemma Later.refl (r : Runner S R) : Later r r := ⟨Nat.le_refl _, fun _ => ⟨rfl, rfl, rfl⟩⟩

lemma Later.trans {r r' r'' : Runner S R} (h : Later r r') (h' : Later r' r'') : Later r r'' := by
  refine ⟨Nat.le_trans h.statements h'.statements, fun heq => ?_⟩
  have hle := h.statements
  have hle' := h'.statements
  obtain ⟨h1, h2, h3⟩ := h.same (by omega)
  obtain ⟨h1', h2', h3'⟩ := h'.same (by omega)
  exact ⟨h1'.trans h1, h2'.trans h2, h3'.trans h3⟩

/-- The settings of the request in force. -/
def settings (r : Runner S R) : Int × Int := (r.fetchSize, r.maxRows)

lemma wp_lift {α : Type} (x : Except String α) {r : Runner S R} {Q : α → Runner S R → Prop}
    {E : Runner S R → Prop} :
    Handler.wp (lift x) Q E r ↔
      match x with
      | .ok a => Q a r
      | .error _ => E r := by
  cases x <;> rfl

lemma wp_runCommand (command : Executed S R) (r : Runner S R) :
    Handler.wp (runCommand command)
      (fun q r' => Answers r.maxRows command r q r' ∧ Later r r' ∧ r'.settings = r.settings)
      (fun r' => Later r r' ∧ r'.settings = r.settings) r := by
  cases command with
  | runnable result =>
    rw [runCommand, Handler.wp_bind, wp_lift]
    cases result with
    | error e => exact ⟨.refl r, rfl⟩
    | ok result => exact ⟨⟨fun _ => rfl, by simp⟩, .refl r, rfl⟩
  | createTempView result =>
    rw [runCommand, Handler.wp_bind, wp_lift]
    cases result with
    | error e => exact ⟨.refl r, rfl⟩
    | ok schema => exact ⟨⟨fun _ => rfl, by simp⟩, .refl r, rfl⟩
  | unsupported message => exact ⟨.refl r, rfl⟩
  | statement sql =>
    simp only [runCommand, statement, Handler.wp_bind, Handler.wp_get, wp_lift]
    cases hsql : sql r.maxRows with
    | error e => simpa using Later.refl r
    | ok dataResult =>
      obtain ⟨data, schema⟩ := dataResult
      have hdata : dataOf r.maxRows (.statement sql : Executed S R) = data := by
        simp [dataOf, hsql]
      simp only [Handler.wp_modify, Handler.wp_pure]
      refine ⟨⟨fun hmore => ?_, fun _ => ?_⟩, ⟨by simp [setCurrent], by simp [setCurrent]⟩, rfl⟩
      · have hnil : data = [] := by simpa using hmore
        have hcut : cut r.maxRows ([] : List R) = [] := by simp [cut]
        rw [rowsOf, hdata, hnil, hcut]
      · rw [hdata]
        exact ⟨rfl, Nat.lt_succ_self _, by rw [rowsOf, hdata], rfl, rfl, rfl⟩

lemma wp_runCommands (commands : List (Executed S R)) (r : Runner S R) :
    Handler.wp (runCommands commands)
      (fun q r' => (∃ last, commands.getLast? = some last ∧ Answers r.maxRows last r q r') ∧
        Later r r' ∧ r'.settings = r.settings)
      (fun r' => Later r r' ∧ r'.settings = r.settings) r := by
  induction commands generalizing r with
  | nil => exact ⟨.refl r, rfl⟩
  | cons command commands ih =>
    cases commands with
    | nil =>
      apply Handler.wp_mono (wp_runCommand command r)
      · intro q r' h
        exact ⟨⟨command, rfl, h.1⟩, h.2⟩
      · intro r' h
        exact h
    | cons next commands =>
      rw [runCommands, Handler.wp_bind]
      apply Handler.wp_mono (wp_runCommand command r)
      · intro q r' h
        have hmax : r'.maxRows = r.maxRows := congrArg Prod.snd h.2.2
        apply Handler.wp_mono (ih r')
        · intro q' r'' h'
          obtain ⟨⟨last, hlast, hanswers⟩, hlater, hsettings⟩ := h'
          rw [hmax] at hanswers
          exact ⟨⟨last, by simpa using hlast, hanswers.of_le h.2.1.statements⟩,
            h.2.1.trans hlater, hsettings.trans h.2.2⟩
        · intro r'' h'
          exact ⟨h.2.1.trans h'.1, h'.2.trans h.2.2⟩
      · intro r' h
        exact h
      · exact List.cons_ne_nil _ _

/-- The command whose rows a request is to answer with. -/
def lastCommand (sqls : List (Except String (Executed S R))) : Option (Executed S R) :=
  match sqls.mapM id with
  | .ok commands => commands.getLast?
  | .error _ => none

lemma wp_query (sqls : List (Except String (Executed S R))) (fetchSize maxRows : Int)
    (r : Runner S R) :
    Handler.wp (query sqls fetchSize maxRows)
      (fun q r' => (∃ last, lastCommand sqls = some last ∧
          Answers (effectiveMaxRows maxRows) last r q r') ∧
        Later r r' ∧ r'.settings = (fetchSize, effectiveMaxRows maxRows))
      (fun r' => Later r r') r := by
  simp only [query, Handler.wp_bind, Handler.wp_modify, wp_lift, lastCommand]
  have hset : Later r { r with fetchSize := fetchSize, maxRows := effectiveMaxRows maxRows } :=
    ⟨Nat.le_refl _, fun _ => ⟨rfl, rfl, rfl⟩⟩
  cases sqls.mapM id with
  | error e => exact hset
  | ok commands =>
    apply Handler.wp_mono (wp_runCommands commands _)
    · intro q r' h
      obtain ⟨⟨last, hlast, hanswers⟩, hlater, hsettings⟩ := h
      exact ⟨⟨last, hlast, hanswers.of_le (Nat.le_refl _)⟩, hset.trans hlater, hsettings⟩
    · intro r' h
      exact hset.trans h.1

/-- A page of the current data: its rows, whether more are to come and what is left. -/
lemma wp_fetchResultData {r : Runner S R} {data : List R} (hschema : r.currentSchema.isSome)
    (hdata : r.currentData = some (data.drop r.currentRowId)) :
    Handler.wp fetchResultData
      (fun q r' => q.data = ((cut r.maxRows data).drop r.currentRowId).take r.fetchSize.toNat ∧
        q.hasMore = decide (r.currentRowId + q.data.length < (cut r.maxRows data).length) ∧
        (q.hasMore = true → r'.currentSchema.isSome ∧
          r'.currentRowId = r.currentRowId + q.data.length ∧
          r'.currentData = some (data.drop r'.currentRowId)) ∧
        r'.statements = r.statements ∧ r'.settings = r.settings)
      (fun _ => False) r := by
  obtain ⟨schema, hschema⟩ := Option.isSome_iff_exists.mp hschema
  obtain ⟨hpage, hrest⟩ := fetchRows_spec r.fetchSize r.maxRows data r.currentRowId 0
  simp only [fetchResultData, Handler.wp_bind, Handler.wp_get, hschema, hdata, Handler.wp_modify,
    Handler.wp_ite, Handler.wp_pure]
  rw [hrest, hasNext_drop]
  split <;> rename_i hmore
  · exact ⟨by simpa using hpage, rfl, fun _ => by simp, by simp [settings]⟩
  · exact ⟨by simpa using hpage, rfl, fun h => absurd h hmore, by simp [settings, clear]⟩

end Runner

end Moonbox.Interactive
