import Moonbox.Elasticsearch.Expressions

/-!
# Filters of Elasticsearch

A condition is written as the text of a query. Nothing is written for an expression that has no
query.
-/

namespace Moonbox.Elasticsearch

open ThreeValued

/-! ### Texts -/

/-- What texts are written with. -/
structure Writer where
  toJsonString : String → List Char
  /-- a time in milliseconds, in the zone of the machine -/
  printDateTime : Int → List Char

/-- `{"name":value}` -/
def object (name : String) (value : List Char) : List Char :=
  Json.braces (Json.quote name.toList ++ ':' :: value)

def array (texts : List (List Char)) : List Char := Json.brackets (Json.commas texts)

def isES50 (version : Nat) : Bool := version = 5

def strictPushDown : Bool := false

section Translation

variable (w : Writer) (isES50 : Bool)

def extract (inJsonFormat : Bool) : Literal → List Char
  | .null => "null".toList
  | .boolean b => (toString b).toList
  | .number x => x.text
  | .string s => if inJsonFormat then w.toJsonString s else s.toList
  | .timestamp micros =>
    let str := w.printDateTime (micros / 1000)
    if inJsonFormat then w.toJsonString (String.ofList str) else str

def missing (name : String) : List Char :=
  let field := object "field" (Json.quote name.toList)
  if isES50 then object "bool" (object "must_not" (object "exists" field))
  else object "missing" field

def matching (name : String) (value : List Char) : List Char :=
  if isES50 then object "match" (object name value)
  else object "query" (object "match" (object name value))

def handleEqualTo (a : Attribute) (l : Literal) : List Char :=
  if l.isNull then missing isES50 a.name
  else if strictPushDown then object "term" (object a.name (extract w true l))
  else matching isES50 a.name (extract w true l)

def handleRange (bound : List Char) (a : Attribute) (l : Literal) : List Char :=
  object "range" (object a.name (Json.braces (bound ++ ':' :: extract w true l)))

def handleGreaterThan : Attribute → Literal → List Char := handleRange w "\"gt\" ".toList

def handleGreaterThanOrEqual : Attribute → Literal → List Char := handleRange w "\"gte\"".toList

def handleLessThan : Attribute → Literal → List Char := handleRange w "\"lt\" ".toList

def handleLessThanOrEqual : Attribute → Literal → List Char := handleRange w "\"lte\"".toList

def handleComparison : Comparison → Attribute → Literal → List Char
  | .equalTo => handleEqualTo w isES50
  | .greaterThan => handleGreaterThan w
  | .greaterThanOrEqual => handleGreaterThanOrEqual w
  | .lessThan => handleLessThan w
  | .lessThanOrEqual => handleLessThanOrEqual w

def handleEqualNullSafe (a : Attribute) (l : Literal) : List Char :=
  if strictPushDown then object "term" (object a.name (extract w true l))
  else matching isES50 a.name (extract w true l)

def isNumber : Literal → Bool
  | .number _ => true
  | _ => false

/-- The texts of the numbers and those of the other values, each once. -/
def extractMatchArray (name : String) (ar : List Literal) : List Char :=
  let numbers := ((ar.filter isNumber).map (extract w false)).eraseDups
  let strings := ((ar.filter (!isNumber ·)).map (extract w false)).eraseDups
  let terms := object "terms" (object name (array numbers))
  let joined := matching isES50 name (Json.quote ([' '].intercalate strings))
  if numbers.isEmpty then if strings.isEmpty then [] else joined
  else if strings.isEmpty then terms
  else terms ++ ',' :: joined

def literal? : Expression → Option Literal
  | .literal l => some l
  | _ => none

def handleIn (a : Attribute) (list : List Literal) : List Char :=
  let filtered := list.filter (!·.isNull)
  if filtered.isEmpty then []
  else
    let queries := Json.brackets (extractMatchArray w isES50 a.name filtered)
    if isES50 then object "bool" (object "should" queries)
    else object "or" (object "filters" queries)

def translateFilter : Expression → List Char
  | .comparison op (.attribute a) (.literal l) => handleComparison w isES50 op a l
  | .comparison op (.literal l) (.attribute a) => handleComparison w isES50 op a l
  | .equalNullSafe (.attribute a) (.literal l) => handleEqualNullSafe w isES50 a l
  | .equalNullSafe (.literal l) (.attribute a) => handleEqualNullSafe w isES50 a l
  | .inList (.attribute a) list => ((list.mapM literal?).map (handleIn w isES50 a)).getD []
  | .isNull (.attribute a) => missing isES50 a.name
  | .isNotNull (.attribute a) => object "exists" (object "field" (Json.quote a.name.toList))
  | .and left right =>
    let filters := array [translateFilter left, ' ' :: translateFilter right]
    if isES50 then object "bool" (object "filter" filters)
    else object "and" (object "filters" filters)
  | .or left right =>
    if isES50 then
      let filter := fun text => object "bool" (object "filter" text)
      object "bool" (object "should"
        (array [filter (translateFilter left), ' ' :: filter (translateFilter right)]))
    else
      object "or" (object "filters" (array [translateFilter left, ' ' :: translateFilter right]))
  | .not filterToNeg =>
    if isES50 then object "bool" (object "must_not" (translateFilter filterToNeg))
    else object "not" (object "filter" (translateFilter filterToNeg))
  | _ => []

end Translation

/-! ### Reading -/

section Reading

open Json

variable {name : String} {value : List Char} {j : Json} {server : Server}
  {q r : Query}

abbrev IsPlain (name : String) : Prop := ∀ c ∈ name.toList, isPlain c = true

lemma isPlain_of_all (h : name.toList.all isPlain = true) : IsPlain name :=
  List.all_eq_true.mp h

lemma reads_object_cons (h : IsPlain name) (hv : Reads value j) :
    Reads (object name value) (.object [(name, j)]) :=
  reads_object (readsMember h hv)

lemma reads_name (h : IsPlain name) : Reads (quote name.toList) (.string name) := by
  simpa using reads_quote h

namespace Server

lemma eq_object_of_query (h : server.query j = some q) : ∃ members, j = .object members := by
  cases j with
  | object members => exact ⟨members, rfl⟩
  | _ => simp [query] at h

lemma clause_of_query (h : server.query j = some q) :
    server.clause (name, j) = occurring name [q] := by
  obtain ⟨members, rfl⟩ := eq_object_of_query h
  simp [clause, h]

lemma filter_of_query (h : server.query j = some q) :
    server.filter "not" ("filter", j) = some (.bool [] [q] []) := by
  obtain ⟨members, rfl⟩ := eq_object_of_query h
  simp [filter, h]

lemma query_bool {key : String} {fs ns ss : List Query}
    (h : server.clause (key, j) = some (.bool fs ns ss)) :
    server.query (.object [("bool", .object [(key, j)])]) = some (.bool fs ns ss) := by
  simp [query, single, named, clauses, h]

lemma query_filters {key : String} (hf : server.hasFilters = true)
    (hname : name = "and" ∨ name = "or" ∨ name = "not")
    (h : server.filter name (key, j) = some q) :
    server.query (.object [(name, .object [(key, j)])]) = some q := by
  rcases hname with rfl | rfl | rfl <;> simp [query, single, named, filters, hf, h]

end Server

/-- The text is read as the query. -/
def Translates (server : Server) (text : List Char) (q : Query) : Prop :=
  ∃ j, Reads text j ∧ server.query j = some q

variable {text text' : List Char}

lemma version_cases (hv : server.version ≤ 5) :
    isES50 server.version = true ∨ isES50 server.version = false ∧ server.hasFilters = true := by
  simp only [isES50, Server.hasFilters, decide_eq_true_eq, decide_eq_false_iff_not]
  omega

lemma translates_clause {key : String} (hkey : IsPlain key) {fs ns ss : List Query}
    (ht : Reads text j) (h : server.clause (key, j) = some (.bool fs ns ss)) :
    Translates server (object "bool" (object key text)) (.bool fs ns ss) :=
  ⟨_, reads_object_cons (isPlain_of_all rfl) (reads_object_cons hkey ht), Server.query_bool h⟩

lemma translates_filters {key : String} (hf : server.hasFilters = true)
    (hname : name = "and" ∨ name = "or" ∨ name = "not") (hkey : IsPlain key)
    (ht : Reads text j) (h : server.filter name (key, j) = some q) :
    Translates server (object name (object key text)) q := by
  refine ⟨_, reads_object_cons ?_ (reads_object_cons hkey ht), Server.query_filters hf hname h⟩
  rcases hname with rfl | rfl | rfl <;> exact isPlain_of_all rfl

lemma translates_exists (hn : IsPlain name) :
    Translates server (object "exists" (object "field" (quote name.toList))) (.exists name) := by
  have hkey : IsPlain "field" := isPlain_of_all rfl
  have hfield := reads_object_cons hkey (reads_name hn)
  refine ⟨_, reads_object_cons (isPlain_of_all rfl) hfield, ?_⟩
  simp [Server.query, Server.single, Server.named, Server.leaf]

lemma translates_missing (hv : server.version ≤ 5) (hn : IsPlain name) :
    Translates server (missing (isES50 server.version) name) (.bool [] [.exists name] []) := by
  rcases version_cases hv with h | ⟨h, hf⟩
  · obtain ⟨j, hj, hq⟩ := @translates_exists name server hn
    rw [missing, h, if_pos rfl]
    exact translates_clause (isPlain_of_all rfl) hj (Server.clause_of_query hq)
  · rw [missing, h, if_neg Bool.false_ne_true]
    have hkey : IsPlain "field" := isPlain_of_all rfl
    have hfield := reads_object_cons hkey (reads_name hn)
    refine ⟨_, reads_object_cons (isPlain_of_all rfl) hfield, ?_⟩
    simp [Server.query, Server.single, Server.named, Server.leaf, hf]

/-- A value of a field -/
def IsScalar : Json → Prop
  | .boolean _ | .number _ | .string _ => True
  | _ => False

lemma query_match (hj : IsScalar j) :
    server.query (.object [("match", .object [(name, j)])]) = server.exactQuery name [j] := by
  cases j <;> simp_all [IsScalar, Server.query, Server.single, Server.named, Server.leaf]

lemma translates_matching (hv : server.version ≤ 5) (hn : IsPlain name) (ht : Reads text j)
    (hj : IsScalar j) (hq : server.exactQuery name [j] = some q) :
    Translates server (matching (isES50 server.version) name text) q := by
  have hmatch : IsPlain "match" := isPlain_of_all rfl
  have hm := reads_object_cons hmatch (reads_object_cons hn ht)
  rcases version_cases hv with h | ⟨h, hf⟩
  · rw [matching, h, if_pos rfl]
    exact ⟨_, hm, (query_match hj).trans hq⟩
  · rw [matching, h, if_neg Bool.false_ne_true]
    refine ⟨_, reads_object_cons (isPlain_of_all rfl) hm, ?_⟩
    have := (@query_match name j server hj).trans hq
    simpa [Server.query, Server.single, Server.named, hf] using this

lemma translates_not (hv : server.version ≤ 5) (ht : Translates server text q) :
    Translates server (if isES50 server.version then object "bool" (object "must_not" text)
      else object "not" (object "filter" text)) (.bool [] [q] []) := by
  obtain ⟨j, hj, hq⟩ := ht
  rcases version_cases hv with h | ⟨h, hf⟩
  · rw [if_pos h]
    exact translates_clause (isPlain_of_all rfl) hj (Server.clause_of_query hq)
  · rw [if_neg (by simp [h])]
    exact translates_filters hf (by simp) (isPlain_of_all rfl) hj (Server.filter_of_query hq)

lemma translates_array (ht : Translates server text q) (ht' : Translates server text' r) :
    ∃ js, Reads (array [text, ' ' :: text']) (.array js) ∧ server.queries js = some [q, r] := by
  obtain ⟨j, hj, hq⟩ := ht
  obtain ⟨j', hj', hr⟩ := ht'
  exact ⟨[j, j'], reads_array (.cons hj (.cons (reads_blank rfl hj') .nil)), by
    simp [Server.queries, hq, hr]⟩

lemma translates_and (hv : server.version ≤ 5) (ht : Translates server text q)
    (ht' : Translates server text' r) :
    Translates server (if isES50 server.version then
        object "bool" (object "filter" (array [text, ' ' :: text']))
      else object "and" (object "filters" (array [text, ' ' :: text']))) (.bool [q, r] [] []) := by
  obtain ⟨js, hjs, hqs⟩ := translates_array ht ht'
  rcases version_cases hv with h | ⟨h, hf⟩
  · rw [if_pos h]
    exact translates_clause (isPlain_of_all rfl) hjs
      (by simp [Server.clause, hqs, Server.occurring])
  · rw [if_neg (by simp [h])]
    exact translates_filters hf (by simp) (isPlain_of_all rfl) hjs (by simp [Server.filter, hqs])

lemma translates_or (hv : server.version ≤ 5) (ht : Translates server text q)
    (ht' : Translates server text' r) :
    ∃ q' r', Translates server (if isES50 server.version then
        let filter := fun text => object "bool" (object "filter" text)
        object "bool" (object "should" (array [filter text, ' ' :: filter text']))
      else object "or" (object "filters" (array [text, ' ' :: text']))) (.bool [] [] [q', r']) ∧
      ∀ d : Document server.index, q'.hits d = q.hits d ∧ r'.hits d = r.hits d := by
  rcases version_cases hv with h | ⟨h, hf⟩
  · have hfilter : ∀ {t q}, Translates server t q →
        Translates server (object "bool" (object "filter" t)) (.bool [q] [] []) := by
      rintro t q ⟨j, hj, hq⟩
      exact translates_clause (isPlain_of_all rfl) hj (Server.clause_of_query hq)
    obtain ⟨js, hjs, hqs⟩ := translates_array (hfilter ht) (hfilter ht')
    refine ⟨.bool [q] [] [], .bool [r] [] [], ?_, fun d => ?_⟩
    · rw [if_pos h]
      exact translates_clause (isPlain_of_all rfl) hjs
        (by simp [Server.clause, hqs, Server.occurring])
    · simp [Query.hits, Query.hitsAll, Query.hitsAny]
  · obtain ⟨js, hjs, hqs⟩ := translates_array ht ht'
    refine ⟨q, r, ?_, fun d => ⟨rfl, rfl⟩⟩
    rw [if_neg (by simp [h])]
    exact translates_filters hf (by simp) (isPlain_of_all rfl) hjs (by simp [Server.filter, hqs])

end Reading

/-! ### Literals -/

/-- What the library that escapes strings, and the one that prints times, are documented to do. -/
structure Writer.Lawful (w : Writer) (server : Server) : Prop where
  reads_toJsonString : ∀ s, Json.Reads (w.toJsonString s) (.string s)
  readDateTime_printDateTime : ∀ ms, server.readDateTime (w.printDateTime ms) = some ms
  isPlain_printDateTime : ∀ ms, ∀ c ∈ w.printDateTime ms, Json.isPlain c = true

namespace Literal

/-- Not a number and the infinities are not written in JSON. -/
def IsPrinted : Literal → Prop
  | number x => x.value.finite?.isSome
  | _ => True

/-- A time is printed without its microseconds. -/
def IsExact : Literal → Prop
  | null => False
  | timestamp micros => 1000 ∣ micros
  | l => l.IsPrinted

/-- A time without its microseconds is as good a bound if it is excluded from above or included
from below. -/
def IsBound (op : Comparison) : Literal → Prop
  | timestamp micros => 1000 ∣ micros ∨ op = .greaterThan ∨ op = .lessThanOrEqual
  | l => l.IsExact

def json (w : Writer) : Literal → Json
  | null => .null
  | boolean b => .boolean b
  | number x => .number x.text
  | string s => .string s
  | timestamp micros => .string (String.ofList (w.printDateTime (micros / 1000)))

/-- The value that is read. -/
def printed : Literal → Option Value
  | timestamp micros => some (.timestamp (1000 * (micros / 1000)))
  | l => l.value

variable {w : Writer} {server : Server} {l : Literal} {v u : Value} {op : Comparison}

lemma readNumber_text {x : NumericLiteral} (h : x.value.finite?.isSome) :
    ∃ y, x.value = .finite y ∧ Json.readNumber x.text = some y := by
  cases hx : x.value with
  | finite y => exact ⟨y, rfl, by rw [x.denotes, hx]; rfl⟩
  | _ => simp [hx, Number.finite?] at h

lemma reads_extract (hw : w.Lawful server) (h : l.IsPrinted) :
    Json.Reads (extract w true l) (l.json w) := by
  cases l with
  | null => exact Json.reads_null
  | boolean b => exact Json.reads_boolean b
  | number x =>
    obtain ⟨y, -, hy⟩ := readNumber_text h
    exact Json.reads_number hy
  | string s => exact hw.reads_toJsonString s
  | timestamp micros => exact hw.reads_toJsonString _

lemma indexed_json (hw : w.Lawful server) (h : l.IsPrinted) (hv : l.printed = some v) :
    server.indexed v.dataType (l.json w) = some v := by
  cases l with
  | null => cases hv
  | boolean b | string s =>
    cases hv
    rfl
  | number x =>
    obtain ⟨y, hx, hy⟩ := readNumber_text h
    cases hv
    simp [Value.dataType, json, Server.indexed, hx, hy]
  | timestamp micros =>
    cases hv
    simp [Value.dataType, json, Server.indexed, hw.readDateTime_printDateTime]

lemma isPrinted_of_isExact (h : l.IsExact) : l.IsPrinted := by
  cases l <;> first | exact h | trivial

lemma isPrinted_of_isBound (h : l.IsBound op) : l.IsPrinted := by
  cases l <;> first | exact h | trivial

lemma printed_of_isExact (h : l.IsExact) : l.printed = l.value := by
  cases l with
  | timestamp micros => simp [printed, value, Int.mul_ediv_cancel' h]
  | _ => rfl

lemma printed_of_isBound (h : l.IsBound op) :
    ∃ u v, l.value = some u ∧ l.printed = some v ∧ v.dataType = u.dataType := by
  cases l with
  | null => cases h
  | _ => exact ⟨_, _, rfl, rfl, rfl⟩

/-- With a time of a document it makes no difference that the bound is read without its
microseconds. -/
lemma holds_printed (h : l.IsBound op) (hv : v.IsStored) (hl : l.value = some u)
    (ht : u.dataType = v.dataType) :
    ∃ u', l.printed = some u' ∧ u'.dataType = u.dataType ∧ op.holds v u' = op.holds v u := by
  cases l with
  | timestamp micros =>
    cases hl
    refine ⟨_, rfl, rfl, ?_⟩
    cases v with
    | timestamp ms =>
      obtain ⟨k, rfl⟩ := hv
      rcases h with ⟨k', rfl⟩ | rfl | rfl
      · rw [Int.mul_ediv_cancel_left _ (by decide)]
      · simp only [Comparison.holds, Value.lt, decide_eq_decide]
        omega
      · simp only [Comparison.holds, Value.lt, Value.timestamp.injEq]
        rw [Bool.eq_iff_iff]
        simp only [Bool.or_eq_true, decide_eq_true_eq]
        omega
    | _ => cases ht
  | _ => exact ⟨u, hl, rfl, rfl⟩

end Literal

end Moonbox.Elasticsearch
