import Mathlib.Data.List.DropRight
import Moonbox.HBase.BytesEncoder
import Moonbox.Lib.Outcomes

/-!
# Dynamic logic expressions

The conditions that are pushed to the region servers. An expression is sent as a text, which the
server takes apart at the blanks and builds the expression from again.
-/

namespace Moonbox.HBase

open ByteOrder Outcome

inductive DynamicLogicExpression
  | and (leftExpression rightExpression : DynamicLogicExpression)
  | or (leftExpression rightExpression : DynamicLogicExpression)
  | equal (columnName : List Char) (valueFromQueryIndex : Int32) (isNot : Bool)
  | isNull (columnName : List Char) (isNot : Bool)
  | compare (filterOps : JavaBytesEncoder) (columnName : List Char) (valueFromQueryIndex : Int32)
  | passThrough
  deriving DecidableEq

namespace DynamicLogicExpression

abbrev lessThan := compare .less
abbrev lessThanOrEqual := compare .lessEqual
abbrev greaterThan := compare .greater
abbrev greaterThanOrEqual := compare .greaterEqual

/-! ### Execution -/

/-- The bytes of a column in the current row, if the row has it -/
abbrev RowValues := List Char → Option Bytes

def valueAt (values : List Bytes) (index : Int32) : Except String Bytes :=
  if 0 ≤ index.toInt then
    match values[index.toInt.toNat]? with
    | some value => .ok value
    | none => .error "java.lang.ArrayIndexOutOfBoundsException"
  else .error "java.lang.ArrayIndexOutOfBoundsException"

def execute (encoder : BytesEncoder) (row : RowValues) (values : List Bytes) :
    DynamicLogicExpression → Except String Bool
  | and left right => do
    if ← execute encoder row values left then execute encoder row values right else pure false
  | or left right => do
    if ← execute encoder row values left then pure true else execute encoder row values right
  | equal columnName index isNot => do
    let valueFromQuery ← valueAt values index
    match row columnName with
    | none => pure false
    | some currentRowValue => pure ((valueFromQuery == currentRowValue) != isNot)
  | isNull columnName isNot => pure ((row columnName).isNone != isNot)
  | compare filterOps columnName index => do
    let valueFromQuery ← valueAt values index
    match row columnName with
    | none => pure false
    | some currentRowValue => encoder.filter currentRowValue valueFromQuery filterOps
  | passThrough => pure true

/-! ### The text -/

def command : JavaBytesEncoder → List Char
  | .greater => ['>']
  | .greaterEqual => ['>', '=']
  | .less => ['<']
  | .lessEqual => ['<', '=']

def equalCommand (isNot : Bool) : List Char := if isNot then ['!', '='] else ['=', '=']

def isNullCommand (isNot : Bool) : List Char :=
  if isNot then ['i', 's', 'N', 'o', 't', 'N', 'u', 'l', 'l'] else ['i', 's', 'N', 'u', 'l', 'l']

def gateAnd : List Char := ['A', 'N', 'D']

def gateOr : List Char := ['O', 'R']

/-- `dummy Pass -1` puts the command where it is looked for. -/
def dummy : List Char := ['d', 'u', 'm', 'm', 'y']

def pass : List Char := ['P', 'a', 's', 's']

def toExpressionString : DynamicLogicExpression → List Char
  | and left right =>
    ['('] ++ ' ' :: (toExpressionString left ++ ' ' :: (gateAnd ++ ' ' ::
      (toExpressionString right ++ ' ' :: [')'])))
  | or left right =>
    ['('] ++ ' ' :: (toExpressionString left ++ ' ' :: (gateOr ++ ' ' ::
      (toExpressionString right ++ ' ' :: [')'])))
  | equal columnName index isNot =>
    columnName ++ ' ' :: (equalCommand isNot ++ ' ' :: Decimals.text index.toInt)
  | isNull columnName isNot => columnName ++ ' ' :: isNullCommand isNot
  | compare filterOps columnName index =>
    columnName ++ ' ' :: (command filterOps ++ ' ' :: Decimals.text index.toInt)
  | passThrough => dummy ++ ' ' :: (pass ++ ' ' :: ['-', '1'])

/-- `split(' ')`: the empty words at the end are left out. -/
def split (text : List Char) : List (List Char) :=
  if ' ' ∈ text then (text.splitOn ' ').rdropWhile List.isEmpty else [text]

def wordAt (words : List (List Char)) (offset : Nat) : Except String (List Char) :=
  match words[offset]? with
  | some word => .ok word
  | none => .error "java.lang.ArrayIndexOutOfBoundsException"

def toInt (word : List Char) : Except String Int32 :=
  match Decimals.parse 32 word with
  | some n => .ok (Int32.ofInt n)
  | none => .error "java.lang.NumberFormatException"

/-- A condition on one column, from the first three words -/
def buildCommand (words : List (List Char)) :
    Except String (DynamicLogicExpression × List (List Char)) := do
  let command ← wordAt words 1
  let columnName ← wordAt words 0
  if command = ['<'] then
    pure (lessThan columnName (← toInt (← wordAt words 2)), words.drop 3)
  else if command = ['<', '='] then
    pure (lessThanOrEqual columnName (← toInt (← wordAt words 2)), words.drop 3)
  else if command = ['>'] then
    pure (greaterThan columnName (← toInt (← wordAt words 2)), words.drop 3)
  else if command = ['>', '='] then
    pure (greaterThanOrEqual columnName (← toInt (← wordAt words 2)), words.drop 3)
  else if command = ['=', '='] then
    pure (equal columnName (← toInt (← wordAt words 2)) false, words.drop 3)
  else if command = ['!', '='] then
    pure (equal columnName (← toInt (← wordAt words 2)) true, words.drop 3)
  else if command = isNullCommand false then
    pure (isNull columnName false, words.drop 2)
  else if command = isNullCommand true then
    pure (isNull columnName true, words.drop 2)
  else if command = pass then
    pure (passThrough, words.drop 3)
  else
    .error s!"Unknown logic command:{String.ofList command}"

/-- The expression at the front of the words, and the words behind it. An expression in another has
a word less before it, so that at depth zero no word is left. -/
def buildFrom : Nat → List (List Char) → Except String (DynamicLogicExpression × List (List Char))
  | 0, _ => .error "java.lang.ArrayIndexOutOfBoundsException"
  | depth + 1, words => do
    if (← wordAt words 0) = ['('] then
      let (left, words) ← buildFrom depth (words.drop 1)
      let (right, rest) ← buildFrom depth (words.drop 1)
      let gate ← wordAt words 0
      if gate = gateAnd then
        pure (and left right, rest.drop 1)
      else if gate = gateOr then
        pure (or left right, rest.drop 1)
      else
        .error s!"Unknown gate:{String.ofList gate}"
    else
      buildCommand words

def build (expressionString : List Char) : Except String DynamicLogicExpression := do
  let words := split expressionString
  let (expression, _) ← buildFrom words.length words
  pure expression

/-! ### The words of the text -/

variable {e : DynamicLogicExpression} {columnName : List Char} {ws rest : List (List Char)}

/-- A name that is one word, and not taken for the start of a compound expression. -/
def IsName (columnName : List Char) : Prop := ' ' ∉ columnName ∧ columnName ≠ ['(']

instance (columnName : List Char) : Decidable (IsName columnName) :=
  inferInstanceAs (Decidable (_ ∧ _))

def WellNamed : DynamicLogicExpression → Prop
  | and left right => WellNamed left ∧ WellNamed right
  | or left right => WellNamed left ∧ WellNamed right
  | equal columnName _ _ => IsName columnName
  | isNull columnName _ => IsName columnName
  | compare _ columnName _ => IsName columnName
  | passThrough => True

/-- The words of a text, where a name may be several. -/
def words : DynamicLogicExpression → List (List Char)
  | and left right => ['('] :: words left ++ gateAnd :: words right ++ [[')']]
  | or left right => ['('] :: words left ++ gateOr :: words right ++ [[')']]
  | equal columnName index isNot =>
    columnName.splitOn ' ' ++ [equalCommand isNot, Decimals.text index.toInt]
  | isNull columnName isNot => columnName.splitOn ' ' ++ [isNullCommand isNot]
  | compare filterOps columnName index =>
    columnName.splitOn ' ' ++ [command filterOps, Decimals.text index.toInt]
  | passThrough => [dummy, pass, ['-', '1']]

lemma splitOn_text (n : Int) : (Decimals.text n).splitOn ' ' = [Decimals.text n] :=
  List.splitOn_eq_singleton (Decimals.not_mem_text (by decide) (by decide) n)

lemma splitOn_equalCommand (isNot : Bool) :
    (equalCommand isNot).splitOn ' ' = [equalCommand isNot] :=
  List.splitOn_eq_singleton (by cases isNot <;> decide)

lemma splitOn_isNullCommand (isNot : Bool) :
    (isNullCommand isNot).splitOn ' ' = [isNullCommand isNot] :=
  List.splitOn_eq_singleton (by cases isNot <;> decide)

lemma splitOn_command (filterOps : JavaBytesEncoder) :
    (command filterOps).splitOn ' ' = [command filterOps] :=
  List.splitOn_eq_singleton (by cases filterOps <;> decide)

lemma splitOn_word {word : List Char} (h : ' ' ∉ word) (text : List Char) :
    (word ++ ' ' :: text).splitOn ' ' = word :: text.splitOn ' ' :=
  List.splitOn_append_cons_self_of_not_mem h text

lemma splitOn_toExpressionString (e : DynamicLogicExpression) :
    e.toExpressionString.splitOn ' ' = e.words := by
  induction e with
  | and left right ihl ihr =>
    rw [toExpressionString, splitOn_word (by decide), List.splitOn_append_cons_self, ihl,
      splitOn_word (by decide), List.splitOn_append_cons_self, ihr,
      List.splitOn_eq_singleton (by decide)]
    simp [words]
  | or left right ihl ihr =>
    rw [toExpressionString, splitOn_word (by decide), List.splitOn_append_cons_self, ihl,
      splitOn_word (by decide), List.splitOn_append_cons_self, ihr,
      List.splitOn_eq_singleton (by decide)]
    simp [words]
  | equal columnName index isNot =>
    rw [toExpressionString, List.splitOn_append_cons_self, List.splitOn_append_cons_self,
      splitOn_equalCommand, splitOn_text]
    rfl
  | isNull columnName isNot =>
    rw [toExpressionString, List.splitOn_append_cons_self, splitOn_isNullCommand]
    rfl
  | compare filterOps columnName index =>
    rw [toExpressionString, List.splitOn_append_cons_self, List.splitOn_append_cons_self,
      splitOn_command, splitOn_text]
    rfl
  | passThrough => decide

/-- The text has a blank, and its last word is not empty. -/
lemma blank_mem_toExpressionString (e : DynamicLogicExpression) : ' ' ∈ e.toExpressionString := by
  cases e <;> simp [toExpressionString]

lemma split_toExpressionString (e : DynamicLogicExpression) :
    split e.toExpressionString = e.words := by
  have hblank := blank_mem_toExpressionString e
  have hlast : ∃ front last, e.words = front ++ [last] ∧ last.isEmpty = false := by
    cases e with
    | and left right => exact ⟨_, _, rfl, rfl⟩
    | or left right => exact ⟨_, _, rfl, rfl⟩
    | equal columnName index isNot =>
      exact ⟨columnName.splitOn ' ' ++ [equalCommand isNot], Decimals.text index.toInt,
        by simp [words], by simpa using Decimals.text_ne_nil _⟩
    | isNull columnName isNot => exact ⟨_, _, rfl, by cases isNot <;> rfl⟩
    | compare filterOps columnName index =>
      exact ⟨columnName.splitOn ' ' ++ [command filterOps], Decimals.text index.toInt,
        by simp [words], by simpa using Decimals.text_ne_nil _⟩
    | passThrough => exact ⟨[dummy, pass], _, rfl, rfl⟩
  obtain ⟨front, last, hwords, hempty⟩ := hlast
  rw [split, if_pos hblank, splitOn_toExpressionString, hwords,
    List.rdropWhile_concat_neg _ _ _ (by simp [hempty])]

/-! ### What is built -/

lemma toInt_text (index : Int32) : toInt (Decimals.text index.toInt) = .ok index := by
  rw [toInt, Decimals.parse_text index.le_toInt index.toInt_lt]
  simp

/-- A condition is built from its words, whatever comes behind. -/
lemma buildCommand_compare (filterOps : JavaBytesEncoder) (columnName : List Char) (index : Int32)
    (rest : List (List Char)) :
    buildCommand (columnName :: command filterOps :: Decimals.text index.toInt :: rest) =
      .ok (compare filterOps columnName index, rest) := by
  have hindex := toInt_text index
  cases filterOps <;>
    simp [buildCommand, wordAt, command, hindex, bind, Except.bind, pure, Except.pure]

lemma buildCommand_equal (columnName : List Char) (index : Int32) (isNot : Bool)
    (rest : List (List Char)) :
    buildCommand (columnName :: equalCommand isNot :: Decimals.text index.toInt :: rest) =
      .ok (equal columnName index isNot, rest) := by
  have hindex := toInt_text index
  cases isNot <;>
    simp [buildCommand, wordAt, equalCommand, hindex, bind, Except.bind, pure, Except.pure]

lemma buildCommand_isNull (columnName : List Char) (isNot : Bool) (rest : List (List Char)) :
    buildCommand (columnName :: isNullCommand isNot :: rest) =
      .ok (isNull columnName isNot, rest) := by
  cases isNot <;>
    simp [buildCommand, wordAt, isNullCommand, bind, Except.bind, pure, Except.pure]

lemma buildCommand_passThrough (rest : List (List Char)) :
    buildCommand (dummy :: pass :: ['-', '1'] :: rest) = .ok (passThrough, rest) := rfl

lemma buildFrom_succ_of_ne {word : List Char} (depth : Nat) (h : word ≠ ['(']) :
    buildFrom (depth + 1) (word :: ws) = buildCommand (word :: ws) := by
  simp [buildFrom, wordAt, h, bind, Except.bind]

lemma splitOn_name (h : IsName columnName) : columnName.splitOn ' ' = [columnName] :=
  List.splitOn_eq_singleton h.1

/-- An expression whose names are words is built from its words, whatever comes behind. -/
lemma buildFrom_words (h : e.WellNamed) (depth : Nat) (hdepth : e.words.length ≤ depth)
    (rest : List (List Char)) : buildFrom depth (e.words ++ rest) = .ok (e, rest) := by
  induction e generalizing depth rest with
  | and left right ihl ihr =>
    simp only [words, List.length_append, List.length_cons, List.cons_append] at hdepth
    obtain ⟨depth, rfl⟩ := Nat.exists_eq_succ_of_ne_zero (show depth ≠ 0 by omega)
    have hl := ihl h.1 depth (by omega)
    have hr := ihr h.2 depth (by omega)
    simp [words, buildFrom, wordAt, bind, Except.bind, pure, Except.pure, hl, hr]
  | or left right ihl ihr =>
    simp only [words, List.length_append, List.length_cons, List.cons_append] at hdepth
    obtain ⟨depth, rfl⟩ := Nat.exists_eq_succ_of_ne_zero (show depth ≠ 0 by omega)
    have hl := ihl h.1 depth (by omega)
    have hr := ihr h.2 depth (by omega)
    simp [words, buildFrom, wordAt, bind, Except.bind, pure, Except.pure, hl, hr, gateAnd, gateOr]
  | equal columnName index isNot =>
    rw [words, splitOn_name h] at hdepth ⊢
    obtain ⟨depth, rfl⟩ := Nat.exists_eq_add_of_le' hdepth
    exact (buildFrom_succ_of_ne _ h.2).trans (buildCommand_equal columnName index isNot rest)
  | isNull columnName isNot =>
    rw [words, splitOn_name h] at hdepth ⊢
    obtain ⟨depth, rfl⟩ := Nat.exists_eq_add_of_le' hdepth
    exact (buildFrom_succ_of_ne _ h.2).trans (buildCommand_isNull columnName isNot rest)
  | compare filterOps columnName index =>
    rw [words, splitOn_name h] at hdepth ⊢
    obtain ⟨depth, rfl⟩ := Nat.exists_eq_add_of_le' hdepth
    exact (buildFrom_succ_of_ne _ h.2).trans (buildCommand_compare filterOps columnName index rest)
  | passThrough =>
    obtain ⟨depth, rfl⟩ := Nat.exists_eq_add_of_le' hdepth
    exact (buildFrom_succ_of_ne _ (by decide)).trans (buildCommand_passThrough rest)

/-! ### The names of what is built -/

lemma wordAt_eq_ok {n : Nat} {word : List Char} (h : wordAt ws n = .ok word) : word ∈ ws := by
  unfold wordAt at h
  split at h
  · rename_i found hfound
    cases h
    exact List.mem_of_getElem? hfound
  · cases h

/-- A condition is on the column that the first word names. -/
lemma buildCommand_ok (h : buildCommand ws = .ok (e, rest)) :
    ∃ columnName, wordAt ws 0 = .ok columnName ∧ (IsName columnName → e.WellNamed) ∧
      rest <:+ ws := by
  obtain ⟨command, -, h⟩ := bind_eq_ok.mp h
  obtain ⟨columnName, hcolumn, h⟩ := bind_eq_ok.mp h
  refine ⟨columnName, hcolumn, ?_⟩
  have hindexed {f : Int32 → DynamicLogicExpression} (hf : ∀ index, (f index).WellNamed =
      IsName columnName) (h : (do let index ← toInt (← wordAt ws 2)
                                  pure (f index, ws.drop 3)) = Except.ok (e, rest)) :
      (IsName columnName → e.WellNamed) ∧ rest <:+ ws := by
    obtain ⟨word, -, h⟩ := bind_eq_ok.mp h
    obtain ⟨index, -, h⟩ := bind_eq_ok.mp h
    obtain ⟨rfl, rfl⟩ := Prod.mk.inj (pure_eq_ok.mp h)
    exact ⟨fun hname => (hf index).mpr hname, List.drop_suffix _ _⟩
  split_ifs at h
  · exact hindexed (fun _ => rfl) h
  · exact hindexed (fun _ => rfl) h
  · exact hindexed (fun _ => rfl) h
  · exact hindexed (fun _ => rfl) h
  · exact hindexed (fun _ => rfl) h
  · exact hindexed (fun _ => rfl) h
  · obtain ⟨rfl, rfl⟩ := Prod.mk.inj (pure_eq_ok.mp h)
    exact ⟨id, List.drop_suffix _ _⟩
  · obtain ⟨rfl, rfl⟩ := Prod.mk.inj (pure_eq_ok.mp h)
    exact ⟨id, List.drop_suffix _ _⟩
  · obtain ⟨rfl, rfl⟩ := Prod.mk.inj (pure_eq_ok.mp h)
    exact ⟨fun _ => trivial, List.drop_suffix _ _⟩

/-- Whatever is built of words without blanks has names that are words. -/
lemma wellNamed_of_buildFrom {depth : Nat} (hws : ∀ word ∈ ws, ' ' ∉ word)
    (h : buildFrom depth ws = .ok (e, rest)) : e.WellNamed ∧ rest <:+ ws := by
  induction depth generalizing ws e rest with
  | zero => cases h
  | succ depth ih =>
    obtain ⟨first, hfirst, h⟩ := bind_eq_ok.mp h
    split_ifs at h with hparen
    · obtain ⟨⟨left, ws₁⟩, hleft, h⟩ := bind_eq_ok.mp h
      obtain ⟨⟨right, ws₂⟩, hright, h⟩ := bind_eq_ok.mp h
      obtain ⟨gate, -, h⟩ := bind_eq_ok.mp h
      obtain ⟨hl, hsuf₁⟩ := ih (fun word hword => hws word (List.mem_of_mem_drop hword)) hleft
      have hsuf₁ := hsuf₁.trans (List.drop_suffix 1 ws)
      obtain ⟨hr, hsuf₂⟩ :=
        ih (fun word hword => hws word (hsuf₁.subset (List.mem_of_mem_drop hword))) hright
      have hsuf₂ := (hsuf₂.trans (List.drop_suffix 1 ws₁)).trans hsuf₁
      split_ifs at h
      · obtain ⟨rfl, rfl⟩ := Prod.mk.inj (pure_eq_ok.mp h)
        exact ⟨⟨hl, hr⟩, (List.drop_suffix 1 ws₂).trans hsuf₂⟩
      · obtain ⟨rfl, rfl⟩ := Prod.mk.inj (pure_eq_ok.mp h)
        exact ⟨⟨hl, hr⟩, (List.drop_suffix 1 ws₂).trans hsuf₂⟩
    · obtain ⟨columnName, hcolumn, hnamed, hsuffix⟩ := buildCommand_ok h
      obtain rfl := Except.ok.inj (hfirst.symm.trans hcolumn)
      exact ⟨hnamed ⟨hws _ (wordAt_eq_ok hcolumn), hparen⟩, hsuffix⟩

lemma not_mem_of_mem_splitOn {sep : Char} {text word : List Char} (h : word ∈ text.splitOn sep) :
    sep ∉ word := by
  induction text generalizing word with
  | nil => simp_all
  | cons c text ih =>
    obtain ⟨first, others, hsplit⟩ := List.exists_cons_of_ne_nil (List.splitOn_ne_nil sep text)
    rw [List.splitOn_cons_eq_if_modifyHead] at h
    rw [hsplit] at h ih
    split_ifs at h with hc
    · rcases List.mem_cons.mp h with rfl | h
      · exact List.not_mem_nil
      · exact ih h
    · rcases List.mem_cons.mp h with rfl | h
      · rw [List.mem_cons, not_or]
        exact ⟨fun hsep => hc (by simp [hsep]), ih (List.mem_cons_self ..)⟩
      · exact ih (List.mem_cons_of_mem _ h)

lemma not_mem_of_mem_split {text word : List Char} (hblank : ' ' ∈ text) (h : word ∈ split text) :
    ' ' ∉ word := by
  rw [split, if_pos hblank] at h
  exact not_mem_of_mem_splitOn ((List.rdropWhile_prefix _ _).subset h)

lemma build_toExpressionString (h : e.WellNamed) : build e.toExpressionString = .ok e := by
  have hbuilt := buildFrom_words h _ le_rfl []
  rw [List.append_nil] at hbuilt
  rw [build, split_toExpressionString, hbuilt]
  rfl

/-- An expression comes back from its text just if each column name is one word, and not the
parenthesis that starts a compound expression. -/
theorem build_toExpressionString_iff (e : DynamicLogicExpression) :
    build e.toExpressionString = .ok e ↔ e.WellNamed := by
  have hblank := blank_mem_toExpressionString e
  refine ⟨fun h => ?_, build_toExpressionString⟩
  obtain ⟨⟨built, rest⟩, hbuilt, h⟩ := bind_eq_ok.mp h
  obtain rfl := pure_eq_ok.mp h
  exact (wellNamed_of_buildFrom (fun word => not_mem_of_mem_split hblank) hbuilt).1

end DynamicLogicExpression

end Moonbox.HBase
