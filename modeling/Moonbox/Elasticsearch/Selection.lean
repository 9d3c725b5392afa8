import Moonbox.Elasticsearch.EsFilterExec

/-!
# What the filters select

The conditions for which the text of the query is read as a query that selects what they select.
A document is selected when a condition is true, and under a negation when it is not false.
-/

namespace Moonbox.Elasticsearch

open ThreeValued

/-! ### Ranges -/

section Atoms

variable {w : Writer} {server : Server} {a : Attribute} {l : Literal} {u v : Value} {q : Query}

/-- The name of a bound, and what is written between it and the colon. -/
def boundName : Comparison → String × List Char
  | .equalTo => ("", [])
  | .greaterThan => ("gt", [' '])
  | .greaterThanOrEqual => ("gte", [])
  | .lessThan => ("lt", [' '])
  | .lessThanOrEqual => ("lte", [])

lemma handleComparison_of_ne {op : Comparison} (h : op ≠ .equalTo) {isES50 : Bool} :
    handleComparison w isES50 op a l =
      object "range" (object a.name (Json.braces (Json.quote (boundName op).1.toList ++
        ((boundName op).2 ++ ':' :: extract w true l)))) := by
  cases op <;> first | exact absurd rfl h | rfl

lemma bound_json (hw : w.Lawful server) (hl : l.IsPrinted) (hv : l.printed = some v)
    {op : Comparison} (h : op ≠ .equalTo) :
    server.bound v.dataType ((boundName op).1, l.json w) = some [(op, v)] := by
  have hname : Server.boundName (boundName op).1 = some op := by
    cases op <;> first | exact absurd rfl h | rfl
  have hindexed := Literal.indexed_json hw hl hv
  cases l with
  | null => cases hv
  | _ => simp_all [Server.bound, Literal.json]

lemma translates_range (hw : w.Lawful server) (hn : IsPlain a.name)
    (hfield : server.index.fields a.name = some v.dataType) (hl : l.IsPrinted)
    (hv : l.printed = some v) {op : Comparison} (h : op ≠ .equalTo) {isES50 : Bool} :
    Translates server (handleComparison w isES50 op a l) (.range a.name [(op, v)]) := by
  have hkey : IsPlain (boundName op).1 := by
    cases op <;> exact isPlain_of_all rfl
  have hblanks : ∀ c ∈ (boundName op).2, Json.isBlank c = true := by
    cases op <;> exact List.all_eq_true.mp rfl
  have hrange : IsPlain "range" := isPlain_of_all rfl
  have hbound := Json.readsMember_cons hkey hblanks (Literal.reads_extract hw hl)
  rw [handleComparison_of_ne h]
  refine ⟨_, reads_object_cons hrange (reads_object_cons hn (Json.reads_object hbound)), ?_⟩
  simp [Server.query, Server.single, Server.named, Server.leaf, Server.rangeQuery, hfield,
    bound_json hw hl hv h]

/-! ### Values -/

lemma isScalar_json (h : l.IsExact) : IsScalar (l.json w) := by
  cases l <;> first | exact h | trivial

lemma exactQuery_json (hw : w.Lawful server) (hl : l.IsExact) (hv : l.value = some v)
    (hfield : server.index.fields a.name = some v.dataType) :
    server.exactQuery a.name [l.json w] = some (.exact a.name [v]) := by
  have hprinted : l.printed = some v := (Literal.printed_of_isExact hl).trans hv
  simp [Server.exactQuery, hfield,
    Literal.indexed_json hw (Literal.isPrinted_of_isExact hl) hprinted]

lemma translates_value (hw : w.Lawful server) (hversion : server.version ≤ 5) (hn : IsPlain a.name)
    (hl : l.IsExact) (hv : l.value = some v)
    (hfield : server.index.fields a.name = some v.dataType) :
    Translates server (matching (isES50 server.version) a.name (extract w true l))
      (.exact a.name [v]) :=
  translates_matching hversion hn (Literal.reads_extract hw (Literal.isPrinted_of_isExact hl))
    (isScalar_json hl) (exactQuery_json hw hl hv hfield)

/-! ### Lists -/

/-- A query that is one of one. -/
lemma translates_should (hversion : server.version ≤ 5) {text : List Char}
    (ht : Translates server text q) :
    Translates server (if isES50 server.version then
        object "bool" (object "should" (Json.brackets text))
      else object "or" (object "filters" (Json.brackets text))) (.bool [] [] [q]) := by
  obtain ⟨j, hj, hq⟩ := ht
  have hjs : Json.Reads (Json.brackets (Json.commas [text])) (.array [j]) :=
    Json.reads_array (.cons hj .nil)
  have hqs : server.queries [j] = some [q] := by simp [Server.queries, hq]
  rcases version_cases hversion with h | ⟨h, hf⟩
  · rw [if_pos h]
    exact translates_clause (isPlain_of_all rfl) hjs
      (by simp [Server.clause, hqs, Server.occurring])
  · rw [if_neg (by simp [h])]
    exact translates_filters hf (by simp) (isPlain_of_all rfl) hjs (by simp [Server.filter, hqs])

/-- The number that the text is read as. -/
def numberOf (text : List Char) : Value := .number (.finite ((Json.readNumber text).getD 0))

lemma exactQuery_numbers {texts : List (List Char)}
    (h : ∀ t ∈ texts, (Json.readNumber t).isSome = true)
    (hfield : server.index.fields a.name = some .number) :
    server.exactQuery a.name (texts.map .number) = some (.exact a.name (texts.map numberOf)) := by
  have hmap : (texts.map Json.number).mapM (server.indexed .number) =
      some (texts.map numberOf) := by
    induction texts with
    | nil => rfl
    | cons t texts ih =>
      rw [List.forall_mem_cons] at h
      obtain ⟨y, hy⟩ := Option.isSome_iff_exists.mp h.1
      rw [List.map_cons, List.mapM_cons, ih h.2]
      simp [Server.indexed, numberOf, hy]
  rw [Server.exactQuery, hfield]
  simp only [hmap, Option.map_some]

lemma translates_terms (hn : IsPlain a.name) {texts : List (List Char)} (hne : texts ≠ [])
    (h : ∀ t ∈ texts, (Json.readNumber t).isSome = true)
    (hfield : server.index.fields a.name = some .number) :
    Translates server (object "terms" (object a.name (array texts)))
      (.exact a.name (texts.map numberOf)) := by
  have hterms : IsPlain "terms" := isPlain_of_all rfl
  have hquery := exactQuery_numbers h hfield
  have hreads : List.Forall₂ Json.Reads texts (texts.map .number) := by
    rw [List.forall₂_map_right_iff, List.forall₂_same]
    intro t ht
    obtain ⟨y, hy⟩ := Option.isSome_iff_exists.mp (h t ht)
    exact Json.reads_number hy
  cases texts with
  | nil => exact absurd rfl hne
  | cons t texts =>
    refine ⟨_, reads_object_cons hterms (reads_object_cons hn (Json.reads_array hreads)), ?_⟩
    rw [← hquery]
    simp [Server.query, Server.single, Server.named, Server.leaf]

variable {list : List Literal}

lemma value_of_isNumber (h : isNumber l = true) (hl : l.IsPrinted) :
    l.value = some (numberOf (extract w false l)) ∧
      (Json.readNumber (extract w false l)).isSome = true := by
  cases l with
  | number x =>
    obtain ⟨y, hx, hy⟩ := Literal.readNumber_text hl
    simp [Literal.value, numberOf, extract, hx, hy]
  | _ => cases h

/-- The elements that are not null -/
lemma translates_in (hversion : server.version ≤ 5) (hne : ∃ l ∈ list, l.isNull = false)
    (ht : Translates server
      (extractMatchArray w (isES50 server.version) a.name (list.filter (!·.isNull))) q) :
    Translates server (handleIn w (isES50 server.version) a list) (.bool [] [] [q]) := by
  have hfiltered : list.filter (!·.isNull) ≠ [] := by simpa using hne
  simpa [handleIn, hfiltered] using translates_should hversion ht

lemma extractMatchArray_numbers {isES50 : Bool} (h : ∀ l ∈ list, isNumber l = true)
    (hne : list ≠ []) :
    extractMatchArray w isES50 a.name list =
      object "terms" (object a.name (array (list.map (extract w false)).eraseDups)) := by
  have hnumbers : list.filter isNumber = list := List.filter_eq_self.mpr h
  have hstrings : list.filter (!isNumber ·) = [] :=
    List.filter_eq_nil_iff.mpr fun l hl => by simp [h l hl]
  have hdups : (list.map (extract w false)).eraseDups ≠ [] := by
    obtain ⟨l, hl⟩ := List.exists_mem_of_ne_nil list hne
    exact List.ne_nil_of_mem (List.mem_eraseDups.mpr (List.mem_map_of_mem hl))
  simp [extractMatchArray, hnumbers, hstrings, hdups]

lemma translates_numbers (hversion : server.version ≤ 5) (hn : IsPlain a.name)
    (hne : ∃ l ∈ list, l.isNull = false)
    (hall : ∀ l ∈ list, l.isNull = false → isNumber l = true ∧ l.IsPrinted)
    (hfield : server.index.fields a.name = some .number) :
    ∃ values, Translates server (handleIn w (isES50 server.version) a list)
        (.bool [] [] [.exact a.name values]) ∧
      ∀ v, v ∈ values ↔ ∃ l ∈ list, l.value = some v := by
  have hfiltered : ∀ l ∈ list.filter (!·.isNull), isNumber l = true ∧ l.IsPrinted := by
    simpa using hall
  have hvalue := fun l hl => value_of_isNumber (w := w) (hfiltered l hl).1 (hfiltered l hl).2
  have htexts : ∀ t, t ∈ ((list.filter (!·.isNull)).map (extract w false)).eraseDups ↔
      ∃ l ∈ list.filter (!·.isNull), extract w false l = t := by
    simp only [List.mem_eraseDups, List.mem_map, implies_true]
  have hread : ∀ t ∈ ((list.filter (!·.isNull)).map (extract w false)).eraseDups,
      (Json.readNumber t).isSome = true := by
    intro t ht
    obtain ⟨l, hl, rfl⟩ := (htexts t).mp ht
    exact (hvalue l hl).2
  obtain ⟨l₀, hl₀, hnull⟩ := id hne
  have hmem : l₀ ∈ list.filter (!·.isNull) := by simp [hl₀, hnull]
  have hdups := List.ne_nil_of_mem ((htexts _).mpr ⟨l₀, hmem, rfl⟩)
  have hterms := translates_terms hn hdups hread hfield
  rw [← extractMatchArray_numbers (fun l hl => (hfiltered l hl).1) (List.ne_nil_of_mem hmem)]
    at hterms
  refine ⟨_, translates_in hversion hne hterms, fun v => ?_⟩
  simp only [List.mem_map, htexts]
  constructor
  · rintro ⟨_, ⟨l, hl, rfl⟩, rfl⟩
    exact ⟨l, List.mem_of_mem_filter hl, (hvalue l hl).1⟩
  · rintro ⟨l, hl, hv⟩
    have hl : l ∈ list.filter (!·.isNull) := by simp [hl, Literal.isNull, hv]
    exact ⟨_, ⟨l, hl, rfl⟩, Option.some.inj ((hvalue l hl).1.symm.trans hv)⟩

lemma eraseDups_eq_singleton {α : Type} [BEq α] [LawfulBEq α] {xs : List α} {x : α}
    (hmem : x ∈ xs) (h : ∀ y ∈ xs, y = x) : xs.eraseDups = [x] := by
  cases xs with
  | nil => cases hmem
  | cons y ys =>
    rw [List.forall_mem_cons] at h
    rw [List.eraseDups_cons, h.1, List.filter_eq_nil_iff.mpr]
    · rfl
    · intro z hz
      simp [h.2 z hz]

/-- In quotation marks, whatever its type -/
lemma indexed_quoted (hw : w.Lawful server) (hl : l.IsExact) (hnumber : isNumber l = false)
    (hv : l.value = some v) :
    server.indexed v.dataType (.string (String.ofList (extract w false l))) = some v := by
  cases l with
  | null => cases hl
  | number x => cases hnumber
  | string s =>
    cases hv
    simp [extract, Value.dataType, Server.indexed]
  | boolean b =>
    cases hv
    cases b <;> rfl
  | timestamp micros =>
    cases hv
    simp [extract, Value.dataType, Server.indexed, hw.readDateTime_printDateTime,
      Int.mul_ediv_cancel' hl]

lemma extractMatchArray_same {isES50 : Bool} (hnumber : isNumber l = false)
    (h : ∀ l' ∈ list, l' = l) (hmem : l ∈ list) :
    extractMatchArray w isES50 a.name list =
      matching isES50 a.name (Json.quote (extract w false l)) := by
  have hnumbers : list.filter isNumber = [] :=
    List.filter_eq_nil_iff.mpr fun l' hl' => by simp [h l' hl', hnumber]
  have hstrings : list.filter (!isNumber ·) = list :=
    List.filter_eq_self.mpr fun l' hl' => by simp [h l' hl', hnumber]
  have hone : (list.map (extract w false)).eraseDups = [extract w false l] := by
    refine eraseDups_eq_singleton (List.mem_map_of_mem hmem) fun t ht => ?_
    obtain ⟨l', hl', rfl⟩ := List.mem_map.mp ht
    rw [h l' hl']
  simp [extractMatchArray, hnumbers, hstrings, hone]

lemma translates_same (hw : w.Lawful server) (hversion : server.version ≤ 5)
    (hn : IsPlain a.name) (hl : l.IsExact) (hnumber : isNumber l = false)
    (hplain : ∀ c ∈ extract w false l, Json.isPlain c = true) (hmem : l ∈ list)
    (hall : ∀ l' ∈ list, l'.isNull = false → l' = l) (hv : l.value = some v)
    (hfield : server.index.fields a.name = some v.dataType) :
    Translates server (handleIn w (isES50 server.version) a list)
      (.bool [] [] [.exact a.name [v]]) := by
  have hnull : l.isNull = false := by simp [Literal.isNull, hv]
  refine translates_in hversion ⟨l, hmem, hnull⟩ ?_
  rw [extractMatchArray_same hnumber (by simpa using hall) (by simp [hmem, hnull])]
  refine translates_matching hversion hn (Json.reads_quote hplain) trivial ?_
  simp [Server.exactQuery, hfield, indexed_quoted hw hl hnumber hv]

end Atoms

/-! ### Conditions -/

section Conditions

variable {ops : Operators} {row : String → Option Value} {a : Attribute} {l : Literal}
  {list : List Literal} {u v : Value}

@[simp] lemma mapM_literal? : (list.map .literal).mapM literal? = some list := by
  induction list with
  | nil => rfl
  | cons l list ih => simp [literal?, ih]

@[simp] lemma evalAll_literals :
    Expression.evalAll ops row (list.map .literal) = list.map (·.value) := by
  induction list with
  | nil => rfl
  | cons l list ih => simp [Expression.evalAll, Expression.eval, ih]

/-- A value has the type of the attribute that it is compared with. -/
lemma dataType_of_agree (h : Expression.Agree (.attribute a) (.literal l))
    (hv : l.value = some v) : v.dataType = a.dataType :=
  (h a.dataType v.dataType rfl (by simp [Expression.dataType?, hv])).symm

lemma dataType_of_resolvedAll {ix : Index}
    (h : Expression.ResolvedAll ix (Expression.Agree (.attribute a)) (list.map .literal))
    (hl : l ∈ list) (hv : l.value = some v) : v.dataType = a.dataType := by
  induction list with
  | nil => cases hl
  | cons l' list ih =>
    obtain ⟨-, hagree, hrest⟩ := h
    rcases List.mem_cons.mp hl with rfl | hl
    · exact dataType_of_agree hagree hv
    · exact ih hrest hl

lemma truth_comparison {op : Comparison} (hl : l.value = some u) :
    truth (Expression.eval ops row (.comparison op (.attribute a) (.literal l))) = some true ↔
      ∃ v, row a.name = some v ∧ op.holds v u = true := by
  cases h : row a.name <;> simp [Expression.eval, hl, h, truth]

lemma truth_inList :
    truth (Expression.eval ops row (.inList (.attribute a) (list.map .literal))) = some true ↔
      ∃ v, row a.name = some v ∧ ∃ l ∈ list, l.value = some v := by
  cases h : row a.name with
  | none => simp [Expression.eval, h, truth]
  | some v =>
    simp only [Expression.eval, h, Option.bind_some, evalAll_literals, Option.some.injEq,
      exists_eq_left']
    split
    case isTrue hv => simpa [truth] using hv
    case isFalse hv =>
      split <;> simpa [truth] using hv

end Conditions

/-- What a string is in quotation marks without being escaped -/
def Literal.IsPlainText : Literal → Prop
  | .string s => IsPlain s
  | _ => True

/-- The conditions for which nothing goes wrong: no literal is null outside of a list, the literal
is on the right of an order, a list has numbers or one value, and nothing that is unknown for a
missing field is negated. -/
inductive Expression.Faithful : Bool → Expression → Prop
  | equalTo {a l} : IsPlain a.name → l.IsExact →
      Faithful false (.comparison .equalTo (.attribute a) (.literal l))
  | equalToLeft {a l} : IsPlain a.name → l.IsExact →
      Faithful false (.comparison .equalTo (.literal l) (.attribute a))
  | order {op a l} : op ≠ .equalTo → IsPlain a.name → l.IsBound op →
      Faithful false (.comparison op (.attribute a) (.literal l))
  | equalNullSafe {negated a l} : IsPlain a.name → l.IsExact →
      Faithful negated (.equalNullSafe (.attribute a) (.literal l))
  | equalNullSafeLeft {negated a l} : IsPlain a.name → l.IsExact →
      Faithful negated (.equalNullSafe (.literal l) (.attribute a))
  | inNumbers {a} {list : List Literal} : IsPlain a.name → (∃ l ∈ list, l.isNull = false) →
      (∀ l ∈ list, l.isNull = false → isNumber l = true ∧ l.IsPrinted) →
      Faithful false (.inList (.attribute a) (list.map .literal))
  | inSame {a l} {list : List Literal} : IsPlain a.name → l.IsExact → isNumber l = false →
      l.IsPlainText → l ∈ list → (∀ l' ∈ list, l'.isNull = false → l' = l) →
      Faithful false (.inList (.attribute a) (list.map .literal))
  | isNull {negated a} : IsPlain a.name → Faithful negated (.isNull (.attribute a))
  | isNotNull {negated a} : IsPlain a.name → Faithful negated (.isNotNull (.attribute a))
  | and {negated left right} : Faithful negated left → Faithful negated right →
      Faithful negated (.and left right)
  | or {negated left right} : Faithful negated left → Faithful negated right →
      Faithful negated (.or left right)
  | not {negated child} : Faithful (!negated) child → Faithful negated (.not child)

/-- The text is read as a query that selects the documents for which the condition stands. -/
def Selects (server : Server) (text : List Char) (negated : Bool) (e : Expression) : Prop :=
  ∃ q, Translates server text q ∧ ∀ (ops : Operators) (d : Document server.index),
    q.hits d = true ↔ Truth.Stands negated (truth (e.eval ops d.value))

section Selects

variable {w : Writer} {server : Server} {text text' : List Char} {negated : Bool}
  {left right e : Expression} {a : Attribute} {l : Literal} {u : Value}

lemma hits_exact {ix : Index} (d : Document ix) {field : String} {values : List Value} :
    (Query.exact field values).hits d = true ↔ ∃ v, d.value field = some v ∧ v ∈ values := by
  simp [Query.hits, Option.any_eq_true]

lemma hits_should {ix : Index} (d : Document ix) (q : Query) :
    (Query.bool [] [] [q]).hits d = q.hits d := by
  simp [Query.hits, Query.hitsAll, Query.hitsAny]

lemma value_of_isExact (h : l.IsExact) : ∃ v, l.value = some v := by
  cases l with
  | null => cases h
  | _ => exact ⟨_, rfl⟩

lemma selects_equalTo (hw : w.Lawful server) (hversion : server.version ≤ 5) (hn : IsPlain a.name)
    (hl : l.IsExact) (ha : server.index.fields a.name = some a.dataType)
    (hagree : Expression.Agree (.attribute a) (.literal l)) :
    Selects server (handleEqualTo w (isES50 server.version) a l) false
      (.comparison .equalTo (.attribute a) (.literal l)) := by
  obtain ⟨u, hu⟩ := value_of_isExact hl
  rw [← dataType_of_agree hagree hu] at ha
  have hnull : l.isNull = false := by simp [Literal.isNull, hu]
  refine ⟨.exact a.name [u], ?_, fun ops d => ?_⟩
  · simpa [handleEqualTo, hnull, strictPushDown] using translates_value hw hversion hn hl hu ha
  · rw [hits_exact, Truth.stands_false, truth_comparison hu]
    simp [Comparison.holds]

lemma eval_equalTo_comm (ops : Operators) (row : String → Option Value) :
    (Expression.comparison .equalTo left right).eval ops row =
      (Expression.comparison .equalTo right left).eval ops row := by
  cases hl : left.eval ops row <;> cases hr : right.eval ops row <;>
    simp [Expression.eval, hl, hr, Comparison.holds, eq_comm]

lemma eval_equalNullSafe_comm (ops : Operators) (row : String → Option Value) :
    (Expression.equalNullSafe left right).eval ops row =
      (Expression.equalNullSafe right left).eval ops row := by
  simpa [Expression.eval] using eq_comm

lemma agree_comm (h : Expression.Agree left right) : Expression.Agree right left :=
  fun s t hs ht => (h t s ht hs).symm

lemma selects_order (hw : w.Lawful server) {op : Comparison} (hop : op ≠ .equalTo)
    (hn : IsPlain a.name) (hl : l.IsBound op)
    (ha : server.index.fields a.name = some a.dataType)
    (hagree : Expression.Agree (.attribute a) (.literal l)) {isES50 : Bool} :
    Selects server (handleComparison w isES50 op a l) false
      (.comparison op (.attribute a) (.literal l)) := by
  obtain ⟨u, u', hu, hu', htype⟩ := Literal.printed_of_isBound hl
  rw [← dataType_of_agree hagree hu] at ha
  refine ⟨.range a.name [(op, u')], ?_, fun ops d => ?_⟩
  · exact translates_range hw hn (htype ▸ ha) (Literal.isPrinted_of_isBound hl) hu' hop
  · rw [Truth.stands_false, truth_comparison hu]
    simp only [Query.hits, Option.any_eq_true, List.all_cons, List.all_nil, Bool.and_true]
    refine exists_congr fun v => and_congr_right fun hv => ?_
    obtain ⟨hfield, hstored⟩ := d.typed _ _ hv
    have hsame : u.dataType = v.dataType := Option.some.inj (ha.symm.trans hfield)
    obtain ⟨_, hprinted, -, hholds⟩ := Literal.holds_printed hl hstored hu hsame
    rw [← hholds, Option.some.inj (hu'.symm.trans hprinted)]

lemma selects_equalNullSafe (hw : w.Lawful server) (hversion : server.version ≤ 5)
    (hn : IsPlain a.name) (hl : l.IsExact)
    (ha : server.index.fields a.name = some a.dataType)
    (hagree : Expression.Agree (.attribute a) (.literal l)) :
    Selects server (handleEqualNullSafe w (isES50 server.version) a l) negated
      (.equalNullSafe (.attribute a) (.literal l)) := by
  obtain ⟨u, hu⟩ := value_of_isExact hl
  rw [← dataType_of_agree hagree hu] at ha
  refine ⟨.exact a.name [u], ?_, fun ops d => ?_⟩
  · simpa [handleEqualNullSafe, strictPushDown] using translates_value hw hversion hn hl hu ha
  · rw [hits_exact, Expression.eval, truth, Truth.stands_some]
    simp [Expression.eval, hu]

lemma selects_inNumbers (hversion : server.version ≤ 5) {list : List Literal}
    (hn : IsPlain a.name) (hne : ∃ l ∈ list, l.isNull = false)
    (hall : ∀ l ∈ list, l.isNull = false → isNumber l = true ∧ l.IsPrinted)
    (hr : (Expression.inList (.attribute a) (list.map .literal)).Resolved server.index) :
    Selects server (handleIn w (isES50 server.version) a list) false
      (.inList (.attribute a) (list.map .literal)) := by
  obtain ⟨l, hl, hnull⟩ := id hne
  obtain ⟨hnumber, hprinted⟩ := hall l hl hnull
  have ha : server.index.fields a.name = some a.dataType := hr.1
  rw [← dataType_of_resolvedAll hr.2 hl (value_of_isNumber (w := w) hnumber hprinted).1] at ha
  obtain ⟨values, ht, hvalues⟩ := translates_numbers (w := w) hversion hn hne hall ha
  refine ⟨_, ht, fun ops d => ?_⟩
  rw [hits_should, hits_exact, Truth.stands_false, truth_inList]
  simp [hvalues]

lemma isPlain_extract (hw : w.Lawful server) (hl : l.IsExact) (hnumber : isNumber l = false)
    (h : l.IsPlainText) : ∀ c ∈ extract w false l, Json.isPlain c = true := by
  cases l with
  | null => cases hl
  | number x => cases hnumber
  | boolean b => cases b <;> exact List.all_eq_true.mp rfl
  | string s => exact h
  | timestamp micros => exact hw.isPlain_printDateTime _

lemma selects_inSame (hw : w.Lawful server) (hversion : server.version ≤ 5) {list : List Literal}
    (hn : IsPlain a.name) (hl : l.IsExact) (hnumber : isNumber l = false) (hplain : l.IsPlainText)
    (hmem : l ∈ list) (hall : ∀ l' ∈ list, l'.isNull = false → l' = l)
    (hr : (Expression.inList (.attribute a) (list.map .literal)).Resolved server.index) :
    Selects server (handleIn w (isES50 server.version) a list) false
      (.inList (.attribute a) (list.map .literal)) := by
  obtain ⟨u, hu⟩ := value_of_isExact hl
  have ha : server.index.fields a.name = some a.dataType := hr.1
  rw [← dataType_of_resolvedAll hr.2 hmem hu] at ha
  have ht := translates_same hw hversion hn hl hnumber (isPlain_extract hw hl hnumber hplain) hmem
    hall hu ha
  refine ⟨_, ht, fun ops d => ?_⟩
  rw [hits_should, hits_exact, Truth.stands_false, truth_inList]
  refine exists_congr fun v => and_congr_right fun _ => ?_
  constructor
  · rw [List.mem_singleton]
    rintro rfl
    exact ⟨l, hmem, hu⟩
  · rintro ⟨l', hl', hv⟩
    rw [hall l' hl' (by simp [Literal.isNull, hv]), hu] at hv
    simp [Option.some.inj hv]

lemma selects_isNull (hversion : server.version ≤ 5) (hn : IsPlain a.name) :
    Selects server (missing (isES50 server.version) a.name) negated (.isNull (.attribute a)) := by
  refine ⟨_, translates_missing hversion hn, fun ops d => ?_⟩
  rw [Expression.eval, truth, Truth.stands_some]
  simp [Query.hits, Query.hitsAll, Query.hitsAny, Expression.eval]

lemma selects_isNotNull (hn : IsPlain a.name) :
    Selects server (object "exists" (object "field" (Json.quote a.name.toList))) negated
      (.isNotNull (.attribute a)) := by
  refine ⟨_, translates_exists hn, fun ops d => ?_⟩
  rw [Expression.eval, truth, Truth.stands_some]
  simp [Query.hits, Expression.eval]

/-- The condition of a translation under `AND`, `OR` and `NOT` -/
lemma selects_and (hversion : server.version ≤ 5) (h : Selects server text negated left)
    (h' : Selects server text' negated right) :
    Selects server (if isES50 server.version then
        object "bool" (object "filter" (array [text, ' ' :: text']))
      else object "and" (object "filters" (array [text, ' ' :: text']))) negated
      (.and left right) := by
  obtain ⟨q, hq, hhits⟩ := h
  obtain ⟨r, hr, hhits'⟩ := h'
  refine ⟨_, translates_and hversion hq hr, fun ops d => ?_⟩
  rw [Expression.eval, truth_ofTruth, Truth.stands_and, ← hhits, ← hhits']
  simp [Query.hits, Query.hitsAll, Query.hitsAny]

lemma selects_or (hversion : server.version ≤ 5) (h : Selects server text negated left)
    (h' : Selects server text' negated right) :
    Selects server (if isES50 server.version then
        let filter := fun text => object "bool" (object "filter" text)
        object "bool" (object "should" (array [filter text, ' ' :: filter text']))
      else object "or" (object "filters" (array [text, ' ' :: text']))) negated
      (.or left right) := by
  obtain ⟨q, hq, hhits⟩ := h
  obtain ⟨r, hr, hhits'⟩ := h'
  obtain ⟨q', r', ht, hsame⟩ := translates_or hversion hq hr
  refine ⟨_, ht, fun ops d => ?_⟩
  rw [Expression.eval, truth_ofTruth, Truth.stands_or, ← hhits, ← hhits']
  simp [Query.hits, Query.hitsAll, Query.hitsAny, hsame]

lemma selects_not (hversion : server.version ≤ 5) (h : Selects server text (!negated) e) :
    Selects server (if isES50 server.version then object "bool" (object "must_not" text)
      else object "not" (object "filter" text)) negated (.not e) := by
  obtain ⟨q, hq, hhits⟩ := h
  refine ⟨_, translates_not hversion hq, fun ops d => ?_⟩
  rw [Expression.eval, truth_ofTruth, Truth.stands_not, ← hhits]
  simp [Query.hits, Query.hitsAll, Query.hitsAny]

theorem selects_translateFilter (hw : w.Lawful server) (hversion : server.version ≤ 5)
    (h : e.Faithful negated) (hr : e.Resolved server.index) :
    Selects server (translateFilter w (isES50 server.version) e) negated e := by
  induction h with
  | equalTo hn hl => exact selects_equalTo hw hversion hn hl hr.1 hr.2.2
  | equalToLeft hn hl =>
    obtain ⟨q, ht, hq⟩ := selects_equalTo hw hversion hn hl hr.2.1 (agree_comm hr.2.2)
    exact ⟨q, ht, fun ops d => by rw [eval_equalTo_comm, hq]⟩
  | order hop hn hl =>
    rw [translateFilter]
    exact selects_order hw hop hn hl hr.1 hr.2.2
  | equalNullSafe hn hl => exact selects_equalNullSafe hw hversion hn hl hr.1 hr.2.2
  | equalNullSafeLeft hn hl =>
    obtain ⟨q, ht, hq⟩ := selects_equalNullSafe hw hversion hn hl hr.2.1 (agree_comm hr.2.2)
    exact ⟨q, ht, fun ops d => by rw [eval_equalNullSafe_comm, hq]⟩
  | inNumbers hn hne hall =>
    rw [translateFilter, mapM_literal?]
    exact selects_inNumbers hversion hn hne hall hr
  | inSame hn hl hnumber hplain hmem hall =>
    rw [translateFilter, mapM_literal?]
    exact selects_inSame hw hversion hn hl hnumber hplain hmem hall hr
  | isNull hn => exact selects_isNull hversion hn
  | isNotNull hn => exact selects_isNotNull hn
  | and hleft hright ihleft ihright => exact selects_and hversion (ihleft hr.1) (ihright hr.2)
  | or hleft hright ihleft ihright => exact selects_or hversion (ihleft hr.1) (ihright hr.2)
  | not hchild ih => exact selects_not hversion (ih hr)

end Selects

/-- The text is JSON, and it is a query that selects the documents for which the condition is
true. -/
def SelectsExactly (server : Server) (text : List Char) (e : Expression) : Prop :=
  ∃ j q, Json.parse text = some j ∧ server.query j = some q ∧
    ∀ (ops : Operators) (d : Document server.index),
      q.hits d = true ↔ truth (e.eval ops d.value) = some true

def hexOf (n : Nat) : Char := Char.ofNat (if n < 10 then '0'.toNat + n else 'a'.toNat + (n - 10))

def escape (c : Char) : List Char :=
  if Json.isPlain c then [c]
  else ['\\', 'u', '0', '0', hexOf (c.toNat / 16), hexOf (c.toNat % 16)]

/-- Escapes strings; a time is as many signs as it has milliseconds. -/
def plainWriter : Writer where
  toJsonString s := '"' :: s.toList.flatMap escape ++ ['"']
  printDateTime ms := List.replicate ms.toNat '+' ++ List.replicate (-ms).toNat '-'

def scores : Server where
  version := 5
  index := ⟨fun field => if field = "score" then some .number else none⟩
  readDateTime text := some (text.count '+' - text.count '-')

lemma lt_of_not_isPlain {c : Char} (h : Json.isPlain c = false) : c.toNat < 128 := by
  by_contra hc
  have : Json.isPlain c = true := by
    rw [Json.isPlain_iff]
    refine ⟨?_, ?_, by omega⟩
    all_goals rintro rfl; exact hc (by decide)
  simp [this] at h

lemma readHex_hexOf : ∀ n < 128,
    Json.readHex ['0', '0', hexOf (n / 16), hexOf (n % 16)] = some n := by
  decide

lemma run_escape (c : Char) (text rest : List Char) (stack : List Json.Frame) :
    Json.run (.quoted ⟨none, text, none⟩, stack) (escape c ++ rest) =
      Json.run (.quoted ⟨none, text ++ [c], none⟩, stack) rest := by
  rw [escape]
  split
  case isTrue hc => exact Json.run_quoted (by simpa using hc) _ rfl rest
  case isFalse hc =>
    have hn := lt_of_not_isPlain (Bool.eq_false_iff.mpr hc)
    have hread := readHex_hexOf c.toNat hn
    have hlow : ¬0xd800 ≤ c.toNat := by omega
    have hlow' : ¬0xdc00 ≤ c.toNat := by omega
    simp [Json.run_cons, Json.step, hread, Json.Quoted.unit, Json.Quoted.append, hlow, hlow']

lemma plainWriter_lawful : plainWriter.Lawful scores where
  reads_toJsonString s stack := by
    have hrun : ∀ (cs text : List Char), Json.run (.quoted ⟨none, text, none⟩, stack)
        (cs.flatMap escape ++ ['"']) =
          Json.run (.quoted ⟨none, text ++ cs, none⟩, stack) ['"'] := by
      intro cs
      induction cs with
      | nil => simp
      | cons c cs ih =>
        intro text
        rw [List.flatMap_cons, List.append_assoc, run_escape, ih, List.append_assoc,
          List.singleton_append]
    change (Json.run (.quoted ⟨none, [], none⟩, stack)
      (s.toList.flatMap escape ++ ['"'])).bind Json.settle = _
    rw [hrun, List.nil_append]
    simp [Json.run_cons, Json.step, Json.Quoted.close, Json.settle]
  readDateTime_printDateTime ms := by
    have hplus : (plainWriter.printDateTime ms).count '+' = ms.toNat := by
      simp [plainWriter, List.count_append, List.count_replicate]
    have hminus : (plainWriter.printDateTime ms).count '-' = (-ms).toNat := by
      simp [plainWriter, List.count_append, List.count_replicate]
    rw [scores]
    simp only [hplus, hminus, Int.toNat_sub_toNat_neg]
  isPlain_printDateTime ms := by
    intro c hc
    rcases List.mem_append.mp hc with hc | hc <;> rw [List.eq_of_mem_replicate hc] <;> rfl

def score : Attribute := ⟨"score", .number⟩

def three : Literal := .number ⟨['3'], .finite 3, by decide +kernel⟩

def seven : Document scores.index where
  value field := if field = "score" then some (.number (.finite 7)) else none
  typed f v hv := by
    obtain ⟨rfl, rfl⟩ : f = "score" ∧ .number (.finite 7) = v := by simpa using hv
    exact ⟨rfl, rfl⟩

end Moonbox.Elasticsearch
