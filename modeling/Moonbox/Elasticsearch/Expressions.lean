import Moonbox.Elasticsearch.Documents
import Moonbox.Lib.ThreeValued

/-!
# Expressions of a condition

The expressions that are supported in a condition that is pushed down to Elasticsearch.
-/

namespace Moonbox.Elasticsearch

open ThreeValued

structure Attribute where
  name : String
  dataType : DataType

/-- A number with what its `toString` gives. -/
structure NumericLiteral where
  text : List Char
  value : Number
  denotes : Json.readNumber text = value.finite?

inductive Literal
  | null
  | string (s : String)
  | boolean (b : Bool)
  | number (x : NumericLiteral)
  | timestamp (micros : Int)

namespace Literal

def value : Literal → Option Value
  | null => none
  | string s => some (.string s)
  | boolean b => some (.boolean b)
  | number x => some (.number x.value)
  | timestamp micros => some (.timestamp micros)

def isNull (l : Literal) : Bool := l.value.isNone

end Literal

inductive Operator
  | add
  | subtract
  | multiply
  | divide
  | like
  | substring
  | round
  | caseWhen

inductive Expression
  | attribute (a : Attribute)
  | literal (l : Literal)
  | comparison (op : Comparison) (left right : Expression)
  | equalNullSafe (left right : Expression)
  | inList (value : Expression) (list : List Expression)
  | isNull (child : Expression)
  | isNotNull (child : Expression)
  | not (child : Expression)
  | and (left right : Expression)
  | or (left right : Expression)
  | operator (o : Operator) (children : List Expression)

/-- What Spark computes for the operators. -/
abbrev Operators := Operator → List (Option Value) → Option Value

/-- The truth of a boolean. -/
def truth : Option Value → Truth
  | some (.boolean b) => some b
  | _ => none

def ofTruth (t : Truth) : Option Value := t.map .boolean

@[simp] lemma truth_ofTruth (t : Truth) : truth (ofTruth t) = t := by
  cases t <;> rfl

namespace Expression

section Eval

variable (ops : Operators) (row : String → Option Value)

mutual

def eval : Expression → Option Value
  | .attribute a => row a.name
  | literal l => l.value
  | comparison op left right =>
    (eval left).bind fun v => (eval right).map fun w => .boolean (op.holds v w)
  | equalNullSafe left right => some (.boolean (eval left = eval right))
  | inList value list =>
    (eval value).bind fun v =>
      if (evalAll list).contains (some v) then some (.boolean true)
      else if (evalAll list).contains none then none
      else some (.boolean false)
  | isNull child => some (.boolean (eval child).isNone)
  | isNotNull child => some (.boolean (eval child).isSome)
  | not child => ofTruth (truth (eval child)).not
  | and left right => ofTruth ((truth (eval left)).and (truth (eval right)))
  | or left right => ofTruth ((truth (eval left)).or (truth (eval right)))
  | operator o children => ops o (evalAll children)

def evalAll : List Expression → List (Option Value)
  | [] => []
  | e :: es => eval e :: evalAll es

end

end Eval

/-- The type of an expression that has one whatever the operators give. -/
def dataType? : Expression → Option DataType
  | .attribute a => some a.dataType
  | literal l => l.value.map (·.dataType)
  | operator _ _ => none
  | _ => some .boolean

def Agree (left right : Expression) : Prop :=
  ∀ s t, left.dataType? = some s → right.dataType? = some t → s = t

mutual

/-- The attributes are fields of the index, and values are compared with values of their type. -/
def Resolved (ix : Index) : Expression → Prop
  | .attribute a => ix.fields a.name = some a.dataType
  | literal _ => True
  | comparison _ left right => Resolved ix left ∧ Resolved ix right ∧ Agree left right
  | equalNullSafe left right => Resolved ix left ∧ Resolved ix right ∧ Agree left right
  | inList value list => Resolved ix value ∧ ResolvedAll ix (Agree value) list
  | isNull child => Resolved ix child
  | isNotNull child => Resolved ix child
  | not child => Resolved ix child
  | and left right => Resolved ix left ∧ Resolved ix right
  | or left right => Resolved ix left ∧ Resolved ix right
  | operator _ children => ResolvedAll ix (fun _ => True) children

def ResolvedAll (ix : Index) (agree : Expression → Prop) : List Expression → Prop
  | [] => True
  | e :: es => Resolved ix e ∧ agree e ∧ ResolvedAll ix agree es

end

end Expression

end Moonbox.Elasticsearch
