import Moonbox.Lib.Json

/-!
# Documents of Elasticsearch

An index with fields that are not analyzed, and what its queries select.
-/

namespace Moonbox.Elasticsearch

/-! ### Values -/

/-- The types that the fields of an index have in Spark. -/
inductive DataType
  | string
  | boolean
  | number
  | timestamp
  deriving DecidableEq

inductive Number
  | finite (x : ℚ)
  | negativeInfinity
  | infinity
  | nan
  deriving DecidableEq

namespace Number

/-- Not a number is greater than everything else. -/
def lt : Number → Number → Bool
  | finite x, finite y => x < y
  | finite _, negativeInfinity => false
  | finite _, _ => true
  | negativeInfinity, negativeInfinity => false
  | negativeInfinity, _ => true
  | infinity, nan => true
  | infinity, _ => false
  | nan, _ => false

def finite? : Number → Option ℚ
  | finite x => some x
  | _ => none

end Number

inductive Value
  | string (s : String)
  | boolean (b : Bool)
  | number (x : Number)
  | timestamp (micros : Int)
  deriving DecidableEq

namespace Value

def dataType : Value → DataType
  | string _ => .string
  | boolean _ => .boolean
  | number _ => .number
  | timestamp _ => .timestamp

def lt : Value → Value → Bool
  | string s, string t => s < t
  | boolean b, boolean c => !b && c
  | number x, number y => x.lt y
  | timestamp m, timestamp n => m < n
  | _, _ => false

/-- Numbers of a document are finite, and its times are whole milliseconds. -/
def IsStored : Value → Prop
  | number x => x.finite?.isSome
  | timestamp micros => 1000 ∣ micros
  | _ => True

end Value

inductive Comparison
  | equalTo
  | greaterThan
  | greaterThanOrEqual
  | lessThan
  | lessThanOrEqual
  deriving DecidableEq

def Comparison.holds : Comparison → Value → Value → Bool
  | equalTo, v, w => v = w
  | greaterThan, v, w => w.lt v
  | greaterThanOrEqual, v, w => v = w || w.lt v
  | lessThan, v, w => v.lt w
  | lessThanOrEqual, v, w => v = w || v.lt w

/-! ### Queries -/

structure Index where
  fields : String → Option DataType

structure Document (ix : Index) where
  value : String → Option Value
  typed : ∀ f v, value f = some v → ix.fields f = some v.dataType ∧ v.IsStored

inductive Query
  /-- one of the values: `match`, `term` and `terms` -/
  | exact (field : String) (values : List Value)
  | range (field : String) (bounds : List (Comparison × Value))
  | exists (field : String)
  | bool (filter mustNot should : List Query)

section Hits

variable {ix : Index} (d : Document ix)

mutual

def Query.hits : Query → Bool
  | .exact field values => (d.value field).any (values.contains ·)
  | .range field bounds => (d.value field).any fun v => bounds.all fun (op, w) => op.holds v w
  | .exists field => (d.value field).isSome
  | .bool filter mustNot should =>
    hitsAll filter && !hitsAny mustNot && (should.isEmpty || !filter.isEmpty || hitsAny should)

def Query.hitsAll : List Query → Bool
  | [] => true
  | q :: qs => q.hits && hitsAll qs

def Query.hitsAny : List Query → Bool
  | [] => false
  | q :: qs => q.hits || hitsAny qs

end

end Hits

/-! ### Requests -/

structure Server where
  version : Nat
  index : Index
  /-- the date format of the fields, in milliseconds -/
  readDateTime : List Char → Option Int

namespace Server

variable (server : Server)

/-- `and`, `or`, `not`, `missing` and `query` were queries up to version 2. -/
def hasFilters : Bool := server.version < 5

/-- The value a field of the type is compared with. -/
def indexed : DataType → Json → Option Value
  | .string, .string s => some (.string s)
  | .string, .number text => some (.string (String.ofList text))
  | .string, .boolean b => some (.string (toString b))
  | .boolean, .boolean b => some (.boolean b)
  | .boolean, .string s =>
    if s = "true" then some (.boolean true)
    else if s = "false" then some (.boolean false)
    else none
  | .number, .number text => (Json.readNumber text).map fun x => .number (.finite x)
  | .number, .string s => (Json.readNumber s.toList).map fun x => .number (.finite x)
  | .timestamp, .number text => (server.readDateTime text).map fun ms => .timestamp (1000 * ms)
  | .timestamp, .string s => (server.readDateTime s.toList).map fun ms => .timestamp (1000 * ms)
  | _, _ => none

/-- No document has a field that is not in the index. -/
def exactQuery (field : String) (values : List Json) : Option Query :=
  match server.index.fields field with
  | none => some (.exact field [])
  | some type => (values.mapM (server.indexed type)).map (.exact field)

def boundName (name : String) : Option Comparison :=
  if name = "gt" then some .greaterThan
  else if name = "gte" then some .greaterThanOrEqual
  else if name = "lt" then some .lessThan
  else if name = "lte" then some .lessThanOrEqual
  else none

/-- A bound that is null is no bound. -/
def bound (type : DataType) (member : String × Json) : Option (List (Comparison × Value)) :=
  (boundName member.1).bind fun op =>
  match member.2 with
  | .null => some []
  | j => (server.indexed type j).map fun w => [(op, w)]

def rangeQuery (field : String) (bounds : List (String × Json)) : Option Query :=
  match server.index.fields field with
  | none => some (.range field [])
  | some type => (bounds.mapM (server.bound type)).map fun bounds => .range field bounds.flatten

/-- A query with one field or one string in it. -/
def leaf (name : String) (member : String × Json) : Option Query :=
  match member with
  | (field, .object bounds) => if name = "range" then server.rangeQuery field bounds else none
  | (field, .array values) => if name = "terms" then server.exactQuery field values else none
  | (field, .string s) =>
    if name = "exists" ∧ field = "field" then some (.exists s)
    else if name = "missing" ∧ field = "field" ∧ server.hasFilters then
      some (.bool [] [.exists s] [])
    else if name = "match" ∨ name = "term" then server.exactQuery field [.string s]
    else none
  | (field, j) => if name = "match" ∨ name = "term" then server.exactQuery field [j] else none

/-- The part of a `bool` query under a name. -/
def occurring (name : String) (qs : List Query) : Option Query :=
  if name = "filter" ∨ name = "must" then some (.bool qs [] [])
  else if name = "must_not" then some (.bool [] qs [])
  else if name = "should" then some (.bool [] [] qs)
  else none

mutual

def query : Json → Option Query
  | .object members => single members
  | _ => none

def queries : List Json → Option (List Query)
  | [] => some []
  | j :: js => (query j).bind fun q => (queries js).map (q :: ·)

/-- A query is an object with one member. -/
def single : List (String × Json) → Option Query
  | [member] => named member
  | _ => none

def named : String × Json → Option Query
  | (name, .object members) =>
    if name = "bool" then clauses members
    else if name = "query" then if server.hasFilters then single members else none
    else if name = "and" ∨ name = "or" ∨ name = "not" then
      if server.hasFilters then filters name members else none
    else match members with
      | [member] => server.leaf name member
      | _ => none
  | _ => none

def clauses : List (String × Json) → Option Query
  | [] => some (.bool [] [] [])
  | c :: cs => (clause c).bind fun q => (clauses cs).bind fun r =>
    match q, r with
    | .bool fs ns ss, .bool fs' ns' ss' => some (.bool (fs ++ fs') (ns ++ ns') (ss ++ ss'))
    | _, _ => none

def clause : String × Json → Option Query
  | (name, .array js) => (queries js).bind (occurring name)
  | (name, j) => (query j).bind fun q => occurring name [q]

def filters (name : String) : List (String × Json) → Option Query
  | [member] => filter name member
  | _ => none

def filter (name : String) : String × Json → Option Query
  | (key, .array js) =>
    if key = "filters" ∧ name = "and" then (queries js).map fun qs => .bool qs [] []
    else if key = "filters" ∧ name = "or" then (queries js).map fun qs => .bool [] [] qs
    else none
  | (key, j) =>
    if key = "filter" ∧ name = "not" then (query j).map fun q => .bool [] [q] [] else none

end

end Server

end Moonbox.Elasticsearch
