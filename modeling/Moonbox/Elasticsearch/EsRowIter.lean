import Mathlib.Data.List.Basic
import Mathlib.Tactic.Lemma

/-!
# `EsRowIter`

The iterator over the answers to a query, which come page by page, or at once when rows are
aggregated.
-/

namespace Moonbox.Elasticsearch

variable {T : Type}

/-! ### Responses -/

inductive Aggregations (T : Type)
  /-- no buckets: one row -/
  | simple (row : T)
  /-- the rows of all buckets -/
  | buckets (rows : List T)

def Aggregations.rows : Aggregations T → List T
  | .simple row => [row]
  | .buckets rows => rows

/-- What the iterator reads of a response, with the rows for Spark. There is none for a hit that
has no field. -/
structure Response (T : Type) where
  total : Nat
  aggregations : Option (Aggregations T)
  hits : List (Option T)

namespace Response

def containsAggs (response : Response T) : Bool := response.aggregations.isSome

/-- The size of the answer and its rows. -/
def handleResponse (response : Response T) : Nat × List T :=
  match response.aggregations with
  | some (.simple row) => (0, [row])
  | some (.buckets rows) => (rows.length, rows)
  | none => (response.hits.length, response.hits.filterMap id)

end Response

/-! ### The iterator -/

structure EsRowIter (T : Type) where
  hasProcessLines : Int := 0
  shouldProcessLines : Int := 0
  isFirstTime : Bool := true
  continues : Bool := false
  resultIter : List T := []
  hasPassedLines : Int := 0
  runtime : Nat := 0

namespace EsRowIter

variable (limitSize : Int) (server : Nat → Response T)

/-- The next request, which the server answers. -/
def sendBulkMessage (it : EsRowIter T) : EsRowIter T :=
  let response := server it.runtime
  let shouldProcessLines : Int :=
    if limitSize ≠ -1 then min limitSize response.total else max limitSize response.total
  let hasProcessLines := it.hasProcessLines + response.handleResponse.1
  { it with
    shouldProcessLines := shouldProcessLines
    runtime := it.runtime + 1
    hasProcessLines := hasProcessLines
    continues := !response.containsAggs &&
      (hasProcessLines < shouldProcessLines && hasProcessLines != 0)
    resultIter := response.handleResponse.2 }

/-- The query itself is sent when it is first asked for a row. -/
def firstBulk (it : EsRowIter T) : EsRowIter T :=
  if it.isFirstTime then { it.sendBulkMessage limitSize server with isFirstTime := false } else it

def getNextBulk (it : EsRowIter T) : Bool × EsRowIter T :=
  let it := it.firstBulk limitSize server
  if it.resultIter.isEmpty then
    if it.continues then
      let it := it.sendBulkMessage limitSize server
      (!it.resultIter.isEmpty, it)
    else (false, it)
  else (true, it)

def hasNext (it : EsRowIter T) : Bool × EsRowIter T :=
  let (found, it) := it.getNextBulk limitSize server
  (found && it.hasPassedLines < it.shouldProcessLines, it)

def next (it : EsRowIter T) : Except String (T × EsRowIter T) :=
  match it.resultIter with
  | [] => .error "java.util.NoSuchElementException: next on empty iterator"
  | row :: rows =>
    .ok (row, { it with hasPassedLines := it.hasPassedLines + 1, resultIter := rows })

/-- So many further calls of `hasNext`, as long as it answers `true`. -/
def hasNextAgain : Nat → EsRowIter T → Bool × EsRowIter T
  | 0, it => it.hasNext limitSize server
  | calls + 1, it =>
    match it.hasNext limitSize server with
    | (true, it) => hasNextAgain calls it
    | (false, it) => (false, it)

/-- Iterating from the `i`-th row until `hasNext` is false yields the rows. Before a row `hasNext`
is called more than once, as often as `calls` says. -/
inductive Iterates (calls : Nat → Nat) : Nat → EsRowIter T → List T → Prop
  | done {i : Nat} {it it' : EsRowIter T} :
    it.hasNextAgain limitSize server (calls i) = (false, it') → Iterates calls i it []
  | row {i : Nat} {it it' it'' : EsRowIter T} {row : T} {rows : List T} :
    it.hasNextAgain limitSize server (calls i) = (true, it') → it'.next = .ok (row, it'') →
      Iterates calls (i + 1) it'' rows → Iterates calls i it (row :: rows)

end EsRowIter

/-! ### What should be yielded -/

/-- The hits of one page. -/
abbrev Page (T : Type) := List (Option T)

namespace Page

def rowsOf (page : Page T) : List T := page.filterMap id

def rows (pages : List (Page T)) : List T := pages.flatMap rowsOf

def hits (pages : List (Page T)) : Nat := pages.flatten.length

end Page

inductive Search (T : Type)
  | documents (pages : List (Page T))
  | aggregated (total : Nat) (aggregations : Aggregations T) (hits : Page T)

/-- All of them without a limit. -/
def atMost : Option Nat → Nat → Nat
  | none, n => n
  | some limit, n => min limit n

def limitSize : Option Nat → Int
  | none => -1
  | some limit => limit

namespace Search

/-- The answers to the query and to the requests for more of it. Each has the number of all hits. -/
def server : Search T → Nat → Response T
  | documents pages, i =>
    { total := Page.hits pages, aggregations := none, hits := pages.getD i [] }
  | aggregated total aggs hits, _ => { total := total, aggregations := some aggs, hits := hits }

def firstRows (limit : Option Nat) : Search T → List T
  | documents pages => (Page.rows pages).take (atMost limit (Page.hits pages))
  | aggregated _ aggs _ => aggs.rows.take (atMost limit aggs.rows.length)

/-- Before a page with a row that is needed come, if it is not the first, a page with a hit and
pages that each have a row, with fewer hits than are processed. Of aggregations there are no more
rows to be yielded than hits. -/
def Reaches (limit : Option Nat) : Search T → Prop
  | documents pages => ∀ first before page later, pages = first :: before ++ page :: later →
      Page.rowsOf page ≠ [] →
        (Page.rows (first :: before)).length < atMost limit (Page.hits pages) →
          first ≠ [] ∧ (∀ p ∈ before, Page.rowsOf p ≠ []) ∧
            Page.hits (first :: before) < atMost limit (Page.hits pages)
  | aggregated total aggs hits => ((aggregated total aggs hits).firstRows limit).length ≤ total

end Search

namespace EsRowIter

/-! ### Calls of `hasNext` -/

section Calls

variable {limitSize : Int} {server : Nat → Response T} {calls : Nat → Nat} {i : Nat}
  {it it' : EsRowIter T} {rows : List T}

lemma isFirstTime_firstBulk (limitSize : Int) (server : Nat → Response T) (it : EsRowIter T) :
    (it.firstBulk limitSize server).isFirstTime = false := by
  unfold firstBulk
  split
  · rfl
  · rename_i hfalse
    exact Bool.eq_false_iff.mpr hfalse

lemma getNextBulk_eq_true (h : it.getNextBulk limitSize server = (true, it')) :
    it'.isFirstTime = false ∧ it'.resultIter.isEmpty = false := by
  have hfirst := isFirstTime_firstBulk limitSize server it
  dsimp only [getNextBulk] at h
  split at h
  · split at h
    · obtain ⟨hfound, rfl⟩ := Prod.mk.inj h
      exact ⟨hfirst, by simpa using hfound⟩
    · cases h
  · rename_i hrows
    obtain ⟨-, rfl⟩ := Prod.mk.inj h
    exact ⟨hfirst, Bool.eq_false_iff.mpr hrows⟩

lemma getNextBulk_of_rows (hfirst : it.isFirstTime = false)
    (hrows : it.resultIter.isEmpty = false) :
    it.getNextBulk limitSize server = (true, it) := by
  simp [getNextBulk, firstBulk, hfirst, hrows]

/-- A call that answered `true` may be repeated. -/
lemma hasNext_of_hasNext (h : it.hasNext limitSize server = (true, it')) :
    it'.hasNext limitSize server = (true, it') := by
  simp only [hasNext, Prod.mk.injEq, Bool.and_eq_true] at h
  obtain ⟨⟨hfound, hpassed⟩, rfl⟩ := h
  obtain ⟨hfirst, hrows⟩ := getNextBulk_eq_true (Prod.ext hfound rfl)
  simp only [hasNext, getNextBulk_of_rows hfirst hrows, hpassed, Bool.and_self]

lemma hasNextAgain_of_true (h : it.hasNext limitSize server = (true, it')) (n : Nat) :
    it.hasNextAgain limitSize server n = (true, it') := by
  induction n generalizing it with
  | zero => exact h
  | succ n ih =>
    rw [hasNextAgain, h]
    exact ih (hasNext_of_hasNext h)

lemma hasNextAgain_of_false (h : it.hasNext limitSize server = (false, it')) (n : Nat) :
    it.hasNextAgain limitSize server n = (false, it') := by
  cases n with
  | zero => exact h
  | succ n => rw [hasNextAgain, h]

lemma hasNextAgain_congr (h : it.hasNext limitSize server = it'.hasNext limitSize server)
    (n : Nat) : it.hasNextAgain limitSize server n = it'.hasNextAgain limitSize server n := by
  cases n with
  | zero => exact h
  | succ n => rw [hasNextAgain, hasNextAgain, h]

/-- Iterating goes on from what `hasNext` does first. -/
lemma Iterates.congr (h : it.hasNext limitSize server = it'.hasNext limitSize server)
    (h' : Iterates limitSize server calls i it' rows) :
    Iterates limitSize server calls i it rows := by
  cases h' with
  | done hdone => exact .done ((hasNextAgain_congr h _).trans hdone)
  | row hrow hnext hrest => exact .row ((hasNextAgain_congr h _).trans hrow) hnext hrest

lemma Iterates.unique {rows' : List T} (h : Iterates limitSize server calls i it rows)
    (h' : Iterates limitSize server calls i it rows') : rows = rows' := by
  induction h generalizing rows' with
  | done hdone =>
    cases h' with
    | done => rfl
    | row hrow =>
      rw [hdone] at hrow
      cases hrow
  | row hrow hnext hrest ih =>
    cases h' with
    | done hdone =>
      rw [hrow] at hdone
      cases hdone
    | row hrow' hnext' hrest' =>
      rw [hrow] at hrow'
      obtain ⟨-, rfl⟩ := Prod.mk.inj hrow'
      rw [hnext] at hnext'
      cases hnext'
      rw [ih hrest']

lemma Iterates.iff_eq {rows' : List T} (h : Iterates limitSize server calls i it rows) :
    Iterates limitSize server calls i it rows' ↔ rows = rows' := by
  constructor
  · exact h.unique
  · rintro rfl
    exact h

/-- The iterator at a row. -/
def withRows (it : EsRowIter T) (passed : Nat) (rows : List T) : EsRowIter T :=
  { it with hasPassedLines := passed, resultIter := rows }

lemma hasNext_of_rows (limitSize : Int) (server : Nat → Response T) (it : EsRowIter T) {most : Nat}
    (hfirst : it.isFirstTime = false) (hmost : it.shouldProcessLines = most) (passed : Nat)
    (row : T) (rows : List T) :
    (it.withRows passed (row :: rows)).hasNext limitSize server =
      (decide (passed < most), it.withRows passed (row :: rows)) := by
  have hbulk : (it.withRows passed (row :: rows)).getNextBulk limitSize server =
      (true, it.withRows passed (row :: rows)) := getNextBulk_of_rows hfirst rfl
  rw [hasNext, hbulk]
  simp [withRows, hmost]

/-- The rows of a page are passed one by one, up to the last that should be. -/
lemma iterates_rows (it : EsRowIter T) {most : Nat} {further : List T}
    (hfirst : it.isFirstTime = false) (hmost : it.shouldProcessLines = most)
    (hnil : ∀ i passed, Iterates limitSize server calls i (it.withRows passed [])
      (further.take (most - passed))) (rows : List T) (i passed : Nat) :
    Iterates limitSize server calls i (it.withRows passed rows)
      ((rows ++ further).take (most - passed)) := by
  induction rows generalizing i passed with
  | nil => exact hnil i passed
  | cons row rows ih =>
    have hcall := hasNext_of_rows limitSize server it hfirst hmost passed row rows
    by_cases hpassed : passed < most
    · rw [decide_eq_true hpassed] at hcall
      obtain ⟨left, hleft⟩ := Nat.exists_eq_add_of_lt hpassed
      have hrest := ih (i + 1) (passed + 1)
      rw [show most - (passed + 1) = left by omega] at hrest
      rw [show most - passed = left + 1 by omega, List.cons_append, List.take_succ_cons]
      exact .row (hasNextAgain_of_true hcall _) rfl hrest
    · rw [decide_eq_false hpassed] at hcall
      rw [Nat.sub_eq_zero_of_le (Nat.le_of_not_lt hpassed), List.take_zero]
      exact .done (hasNextAgain_of_false hcall _)

end Calls

/-! ### Pages -/

section Pages

variable (limit : Option Nat) (pages : List (Page T))

/-- The iterator when so many pages were answered and so many rows passed. -/
def placed (asked passed : Nat) (rows : List T) : EsRowIter T where
  hasProcessLines := Page.hits (pages.take asked)
  shouldProcessLines := atMost limit (Page.hits pages)
  isFirstTime := false
  continues := (Page.hits (pages.take asked) : Int) < atMost limit (Page.hits pages) &&
    (Page.hits (pages.take asked) : Int) != 0
  resultIter := rows
  hasPassedLines := passed
  runtime := asked

lemma shouldProcessLines_eq (n : Nat) :
    (if limitSize limit ≠ -1 then min (limitSize limit) n else max (limitSize limit) n) =
      (atMost limit n : Int) := by
  cases limit with
  | none =>
    rw [limitSize, atMost]
    omega
  | some limit =>
    rw [limitSize, atMost]
    omega

omit limit in
lemma hits_take_succ (asked : Nat) :
    Page.hits (pages.take (asked + 1)) =
      Page.hits (pages.take asked) + (pages.getD asked []).length := by
  rw [Page.hits, Page.hits, List.take_add_one, List.flatten_append, List.length_append,
    List.getD_eq_getElem?_getD]
  cases pages[asked]? <;> simp

/-- The next page is asked for. -/
lemma sendBulkMessage_placed (asked passed : Nat) (rows : List T) :
    (placed limit pages asked passed rows).sendBulkMessage (limitSize limit)
        (Search.documents pages).server =
      placed limit pages (asked + 1) passed (Page.rowsOf (pages.getD asked [])) := by
  have hhits := hits_take_succ pages asked
  simp only [sendBulkMessage, placed, Search.server, Response.handleResponse,
    Response.containsAggs, shouldProcessLines_eq, Page.rowsOf, hhits]
  simp

lemma continues_placed {asked passed : Nat} {rows : List T} :
    (placed limit pages asked passed rows).continues = true ↔
      0 < Page.hits (pages.take asked) ∧
        Page.hits (pages.take asked) < atMost limit (Page.hits pages) := by
  simp only [placed, Bool.and_eq_true, decide_eq_true_eq, bne_iff_ne]
  omega

/-- The first page is asked for. -/
lemma hasNext_start :
    ({} : EsRowIter T).hasNext (limitSize limit) (Search.documents pages).server =
      (placed limit pages 1 0 (Page.rowsOf (pages.getD 0 []))).hasNext (limitSize limit)
        (Search.documents pages).server := by
  have hfirst : ({} : EsRowIter T).firstBulk (limitSize limit) (Search.documents pages).server =
      { (placed limit pages 0 0 []).sendBulkMessage (limitSize limit)
        (Search.documents pages).server with isFirstTime := false } := rfl
  rw [hasNext, hasNext, getNextBulk, getNextBulk, hfirst, sendBulkMessage_placed]
  rfl

lemma hasNext_of_nil (asked passed : Nat) :
    (placed limit pages asked passed ([] : List T)).hasNext (limitSize limit)
        (Search.documents pages).server =
      if (placed limit pages asked passed ([] : List T)).continues = true then
        (!(Page.rowsOf (pages.getD asked [])).isEmpty &&
            decide (passed < atMost limit (Page.hits pages)),
          placed limit pages (asked + 1) passed (Page.rowsOf (pages.getD asked [])))
      else (false, placed limit pages asked passed []) := by
  have hbulk : (placed limit pages asked passed ([] : List T)).firstBulk (limitSize limit)
      (Search.documents pages).server = placed limit pages asked passed [] := rfl
  rw [hasNext, getNextBulk, hbulk]
  cases (placed limit pages asked passed ([] : List T)).continues with
  | false => rfl
  | true =>
    simp only [sendBulkMessage_placed, if_true]
    simp [placed]

variable {limit pages}

/-- The rows of the further pages, when so many lines were processed before them. -/
def furtherRows (most : Nat) : Nat → List (Page T) → List T
  | _, [] => []
  | processed, page :: pages =>
    if 0 < processed ∧ processed < most ∧ Page.rowsOf page ≠ [] then
      Page.rowsOf page ++ furtherRows most (processed + page.length) pages
    else []

/-- Iterating ends, with the rows of the page and the further ones up to the limit. -/
lemma iterates_placed (calls : Nat → Nat) {later : List (Page T)} {asked : Nat}
    (hlater : pages.drop asked = later) (rows : List T) (i passed : Nat) :
    Iterates (limitSize limit) (Search.documents pages).server calls i
      (placed limit pages asked passed rows)
      ((rows ++ furtherRows (atMost limit (Page.hits pages)) (Page.hits (pages.take asked))
        later).take (atMost limit (Page.hits pages) - passed)) := by
  induction later generalizing asked rows i passed with
  | nil =>
    refine iterates_rows (placed limit pages asked 0 []) rfl rfl (fun i passed => ?_) rows i passed
    change Iterates _ _ _ _ (placed limit pages asked passed []) _
    have hpage : pages.getD asked [] = [] := by
      rw [List.getD_eq_getElem?_getD, List.getElem?_eq_none (List.drop_eq_nil_iff.mp hlater)]
      rfl
    rw [furtherRows, List.take_nil]
    by_cases hcontinues : (placed limit pages asked passed ([] : List T)).continues = true
    · have hfalse := hasNext_of_nil limit pages asked passed
      rw [if_pos hcontinues, hpage] at hfalse
      exact .done (hasNextAgain_of_false hfalse _)
    · have hfalse := hasNext_of_nil limit pages asked passed
      rw [if_neg hcontinues] at hfalse
      exact .done (hasNextAgain_of_false hfalse _)
  | cons page later ih =>
    refine iterates_rows (placed limit pages asked 0 []) rfl rfl (fun i passed => ?_) rows i passed
    change Iterates _ _ _ _ (placed limit pages asked passed []) _
    have hget : pages[asked]? = some page := by
      rw [← List.head?_drop, hlater]
      rfl
    have hpage : pages.getD asked [] = page := by
      rw [List.getD_eq_getElem?_getD, hget]
      rfl
    have hnext : pages.drop (asked + 1) = later := by
      rw [← List.tail_drop, hlater]
      rfl
    have hhits := hits_take_succ pages asked
    rw [hpage] at hhits
    have hcall := hasNext_of_nil limit pages asked passed
    rw [hpage] at hcall
    rw [furtherRows]
    by_cases hcontinues : (placed limit pages asked passed ([] : List T)).continues = true
    · rw [if_pos hcontinues] at hcall
      obtain ⟨hpositive, hmore⟩ := (continues_placed limit pages).mp hcontinues
      cases hrows : Page.rowsOf page with
      | nil =>
        rw [hrows] at hcall
        rw [if_neg (by simp), List.take_nil]
        exact .done (hasNextAgain_of_false hcall _)
      | cons row rows' =>
        rw [hrows] at hcall
        rw [if_pos ⟨hpositive, hmore, by simp⟩, ← hhits]
        have hrow : (placed limit pages (asked + 1) passed (row :: rows')).hasNext
            (limitSize limit) (Search.documents pages).server =
            (decide (passed < atMost limit (Page.hits pages)),
              placed limit pages (asked + 1) passed (row :: rows')) :=
          hasNext_of_rows _ _ (placed limit pages (asked + 1) 0 []) rfl rfl passed row rows'
        exact .congr (hcall.trans hrow.symm) (ih hnext (row :: rows') i passed)
    · rw [if_neg hcontinues] at hcall
      rw [continues_placed] at hcontinues
      rw [if_neg fun h => hcontinues ⟨h.1, h.2.1⟩, List.take_nil]
      exact .done (hasNextAgain_of_false hcall _)

end Pages

/-! ### Pages that are reached -/

lemma rows_cons (page : Page T) (pages : List (Page T)) :
    Page.rows (page :: pages) = Page.rowsOf page ++ Page.rows pages :=
  List.flatMap_cons

lemma hits_cons (page : Page T) (pages : List (Page T)) :
    Page.hits (page :: pages) = page.length + Page.hits pages := by
  simp [Page.hits]

lemma forall_splits_cons {P : List (Page T) → Page T → Prop} {first : Page T}
    {pages : List (Page T)} :
    (∀ before page later, first :: pages = before ++ page :: later → P before page) ↔
      P [] first ∧
        ∀ before page later, pages = before ++ page :: later → P (first :: before) page := by
  constructor
  · intro h
    exact ⟨h [] first pages rfl, fun before page later heq =>
      h (first :: before) page later (by rw [heq, List.cons_append])⟩
  · rintro ⟨hfirst, hrest⟩ before page later heq
    cases before with
    | nil =>
      cases heq
      exact hfirst
    | cons q before =>
      rw [List.cons_append, List.cons.injEq] at heq
      obtain ⟨rfl, heq⟩ := heq
      exact hrest before page later heq

/-- No page has a row that is needed. -/
lemma take_rows_eq_nil_iff (most given : Nat) (pages : List (Page T)) :
    (Page.rows pages).take (most - given) = [] ↔ ∀ before page later,
      pages = before ++ page :: later → Page.rowsOf page ≠ [] →
        ¬ given + (Page.rows before).length < most := by
  induction pages generalizing given with
  | nil => simp [Page.rows]
  | cons page pages ih =>
    rw [forall_splits_cons (P := fun before page => Page.rowsOf page ≠ [] →
      ¬ given + (Page.rows before).length < most), rows_cons, List.take_append,
      List.append_eq_nil_iff, Nat.sub_sub, ih]
    refine and_congr ?_ ?_
    · rw [List.take_eq_nil_iff, Page.rows, List.flatMap_nil, List.length_nil]
      by_cases hrows : Page.rowsOf page = []
      · simp [hrows]
      · simp only [hrows, or_false, ne_eq, not_false_eq_true, true_implies]
        omega
    · simp only [rows_cons, List.length_append, Nat.add_assoc]

/-- The further pages give the rows that are needed exactly if they are reached. -/
lemma take_furtherRows_iff (most given processed : Nat) (pages : List (Page T)) :
    (furtherRows most processed pages).take (most - given) =
        (Page.rows pages).take (most - given) ↔
      ∀ before page later, pages = before ++ page :: later → Page.rowsOf page ≠ [] →
        given + (Page.rows before).length < most →
          0 < processed ∧ (∀ p ∈ before, Page.rowsOf p ≠ []) ∧
            processed + Page.hits before < most := by
  induction pages generalizing given processed with
  | nil => simp [furtherRows, Page.rows]
  | cons page pages ih =>
    rw [furtherRows]
    split
    · rename_i h
      rw [forall_splits_cons (P := fun before page => Page.rowsOf page ≠ [] →
        given + (Page.rows before).length < most → 0 < processed ∧
          (∀ p ∈ before, Page.rowsOf p ≠ []) ∧ processed + Page.hits before < most)]
      rw [rows_cons, List.take_append, List.take_append, List.append_cancel_left_eq, Nat.sub_sub,
        ih]
      simp only [rows_cons, hits_cons, List.length_append, Nat.add_assoc,
        List.forall_mem_cons]
      have hhere : processed + Page.hits ([] : List (Page T)) < most := h.2.1
      rw [and_iff_right fun _ _ => ⟨h.1, by simp, hhere⟩]
      refine forall₃_congr fun before p later => forall₃_congr fun _ _ _ => ?_
      simp only [h.1, h.2.2, Nat.add_pos_left h.1, ne_eq, not_false_eq_true, true_and]
    · rename_i h
      rw [List.take_nil, eq_comm, take_rows_eq_nil_iff]
      constructor
      · exact fun hnone before p later heq hrows hlt =>
          absurd hlt (hnone before p later heq hrows)
      · intro hreached before p later heq hrows hlt
        obtain ⟨hpositive, hbefore, hmore⟩ := hreached before p later heq hrows hlt
        have hfirst : Page.rowsOf page ≠ [] := by
          cases before with
          | nil =>
            cases heq
            exact hrows
          | cons q before =>
            obtain ⟨rfl, -⟩ := List.cons.inj heq
            exact hbefore page List.mem_cons_self
        exact h ⟨hpositive, Nat.lt_of_le_of_lt (Nat.le_add_right ..) hmore, hfirst⟩

/-! ### Searches -/

/-- Documents are yielded page by page. -/
lemma iterates_documents (limit : Option Nat) (calls : Nat → Nat) (pages : List (Page T)) :
    Iterates (limitSize limit) (Search.documents pages).server calls 0 {}
      ((Page.rowsOf (pages.getD 0 []) ++ furtherRows (atMost limit (Page.hits pages))
        (Page.hits (pages.take 1)) (pages.drop 1)).take (atMost limit (Page.hits pages))) :=
  .congr (hasNext_start limit pages) (iterates_placed calls rfl (Page.rowsOf (pages.getD 0 [])) 0 0)

lemma documents_iff (limit : Option Nat) (calls : Nat → Nat) (pages : List (Page T)) :
    Iterates (limitSize limit) (Search.documents pages).server calls 0 {}
        ((Search.documents pages).firstRows limit) ↔ (Search.documents pages).Reaches limit := by
  have hiterates := iterates_documents limit calls pages
  cases pages with
  | nil =>
    refine iff_of_true ?_ fun first before page later heq => by cases heq
    simpa [Search.firstRows, Page.rows, Page.rowsOf, furtherRows] using hiterates
  | cons first pages =>
    have hhits : Page.hits ((first :: pages).take 1) = first.length := by simp [Page.hits]
    rw [hhits] at hiterates
    rw [Search.firstRows, rows_cons, hiterates.iff_eq, List.getD_cons_zero, List.drop_one,
      List.tail_cons, List.take_append, List.take_append, List.append_cancel_left_eq,
      take_furtherRows_iff]
    simp only [Search.Reaches, rows_cons, hits_cons, List.length_append, List.length_pos_iff,
      List.cons_append, List.cons.injEq]
    constructor
    · rintro h first' before page later ⟨rfl, heq⟩
      exact h before page later heq
    · intro h before page later heq
      exact h first before page later ⟨rfl, heq⟩

/-- The rows of an aggregation are yielded as far as there are hits. -/
lemma iterates_aggregated (limit : Option Nat) (calls : Nat → Nat) (total : Nat)
    (aggs : Aggregations T) (hits : Page T) :
    Iterates (limitSize limit) (Search.aggregated total aggs hits).server calls 0 {}
      (aggs.rows.take (atMost limit total)) := by
  have hstart : ({} : EsRowIter T).hasNext (limitSize limit)
      (Search.aggregated total aggs hits).server =
      (({} : EsRowIter T).firstBulk (limitSize limit)
        (Search.aggregated total aggs hits).server).hasNext (limitSize limit)
        (Search.aggregated total aggs hits).server := rfl
  refine .congr hstart ?_
  have hrows : ((Search.aggregated total aggs hits).server 0).handleResponse.2 = aggs.rows := by
    cases aggs <;> rfl
  rw [← hrows, ← List.append_nil ((Search.aggregated total aggs hits).server 0).handleResponse.2]
  refine iterates_rows (({} : EsRowIter T).firstBulk (limitSize limit)
    (Search.aggregated total aggs hits).server) rfl (shouldProcessLines_eq limit total)
    (fun i passed => ?_) ((Search.aggregated total aggs hits).server 0).handleResponse.2 0 0
  rw [List.take_nil]
  exact .done (hasNextAgain_of_false rfl _)

/-- Iterating terminates with exactly the first rows, whatever number of times `hasNext` is called
between two rows, if and only if every row that is needed is reached. -/
theorem iterates_firstRows_iff (search : Search T) (limit : Option Nat) (calls : Nat → Nat) :
    Iterates (limitSize limit) search.server calls 0 {} (search.firstRows limit) ↔
      search.Reaches limit := by
  cases search with
  | documents pages => exact documents_iff limit calls pages
  | aggregated total aggs hits =>
    rw [(iterates_aggregated limit calls total aggs hits).iff_eq, Search.Reaches,
      Search.firstRows, List.take_eq_take_iff, List.length_take]
    cases limit with
    | none =>
      simp only [atMost]
      omega
    | some limit =>
      simp only [atMost]
      omega

/-- A count over an index without documents: there is a row, but no hit. -/
theorem iterates_firstRows_fails : ¬ ∀ (search : Search Nat) (limit : Option Nat),
    Iterates (limitSize limit) search.server (fun _ => 0) 0 {} (search.firstRows limit) := by
  intro h
  have hcount := h (.aggregated 0 (.simple 0) []) none
  cases hcount with
  | row hcall => cases hcall

/-- Two pages, and `hasNext` is called twice for each row. -/
example : Iterates (limitSize (some 3))
    (Search.documents [[some 1, some 2], [some 3, some 4]]).server (fun _ => 1) 0 {} [1, 2, 3] :=
  .row rfl rfl (.row rfl rfl (.row rfl rfl (.done rfl)))

end EsRowIter

end Moonbox.Elasticsearch
