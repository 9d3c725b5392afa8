import Moonbox.Lib.Utf8

/-!
# Predicates for Kudu

The comparisons and prefixes of `ExpressionUtils` for Kudu, on columns of strings. Kudu compares
strings by their bytes in UTF-8.
-/

namespace Moonbox.DataSys.Kudu

open JavaStrings Utf8

/-! ### Predicates -/

inductive ComparisonOp
  | greater
  | greaterEqual
  | equal
  | less
  | lessEqual

structure KuduPredicate where
  column : String
  op : ComparisonOp
  value : List ℕ

/-- Whether the predicate accepts a row that has these bytes in the column. -/
def KuduPredicate.accepts (predicate : KuduPredicate) (stored : List ℕ) : Bool :=
  match predicate.op with
  | .greater => precedes predicate.value stored
  | .greaterEqual => !precedes stored predicate.value
  | .equal => stored == predicate.value
  | .less => precedes stored predicate.value
  | .lessEqual => !precedes predicate.value stored

/-! ### Comparisons -/

/-- An attribute or a literal string. -/
inductive Operand
  | attribute (name : String)
  | literal (value : List Char)

inductive BinaryComparison
  | equalNullSafe (left right : Operand)
  | equalTo (left right : Operand)
  | greaterThan (left right : Operand)
  | greaterThanOrEqual (left right : Operand)
  | lessThan (left right : Operand)
  | lessThanOrEqual (left right : Operand)

/-- The name, the value and whether they are the other way round. -/
def getColumnNameAndValue : Operand → Operand → Except String (String × List Char × Bool)
  | .attribute name, .literal value => .ok (name, value, false)
  | .attribute _, .attribute _ => .error "java.lang.ClassCastException"
  | .literal value, .attribute name => .ok (name, value, true)
  | .literal _, .literal _ => .error "java.lang.ClassCastException"

/-- The columns of the table are given by their names. -/
def getColumn (schema : List String) (name : String) : Except String Unit :=
  if schema.contains name then .ok () else .error s!"Unknown column: {name}"

def genComparisonPredicate (column : String) (op : ComparisonOp) (value : List Char) :
    KuduPredicate :=
  { column := column, op := op, value := encode value }

def binaryComparison2KuduPredicate (schema : List String) (expression : BinaryComparison) :
    Except String KuduPredicate := do
  let gen (left right : Operand) (op reversed : ComparisonOp) : Except String KuduPredicate := do
    let (columnName, value, needReverse) ← getColumnNameAndValue left right
    getColumn schema columnName
    pure (genComparisonPredicate columnName (if needReverse then reversed else op) value)
  match expression with
  | .equalNullSafe _ _ => .error "is temporarily unsupported."
  | .equalTo left right => gen left right .equal .equal
  | .greaterThan left right => gen left right .greater .less
  | .greaterThanOrEqual left right => gen left right .greaterEqual .lessEqual
  | .lessThan left right => gen left right .less .greater
  | .lessThanOrEqual left right => gen left right .lessEqual .greaterEqual

/-! ### Prefixes -/

/-- `Char.MaxValue` -/
def maxValue : ℕ := 65535

/-- The code units of the least string that comes, code unit by code unit, after all strings with
the prefix `p`. -/
def prefixInfimum (p : List ℕ) : Option (List ℕ) :=
  let q := p.rdropWhile fun u => u == maxValue
  match q.getLast? with
  | none => none
  | some last => some (q.dropLast ++ [(last + 1) % 65536])

/-- A literal is kept in UTF-8. -/
def literal (units : List ℕ) : Operand := .literal (decode units)

def startsWith2KuduPredicate (column : Operand) (p : List ℕ) (schema : List String) :
    Except String (List KuduPredicate) := do
  match prefixInfimum p with
  | none =>
    let least ← binaryComparison2KuduPredicate schema (.greaterThanOrEqual column (literal p))
    pure [least]
  | some inf =>
    let least ← binaryComparison2KuduPredicate schema (.greaterThanOrEqual column (literal p))
    let greatest ← binaryComparison2KuduPredicate schema (.lessThan column (literal inf))
    pure [least, greatest]

/-- The code units of a string. -/
def units (s : List Char) : List ℕ := s.flatMap codeUnits

/-- The predicates that are built for the column accept a string exactly if it has the prefix. -/
def PrefixExact (schema : List String) (column : String) (p : List Char) : Prop :=
  ∀ predicates, startsWith2KuduPredicate (.attribute column) (units p) schema = .ok predicates →
    ∀ stored, (∀ predicate ∈ predicates, predicate.accepts (encode stored) = true) ↔ p <+: stored

/-- The code unit after the last of the character makes a character with the others. -/
def HasNext (c : Char) : Prop :=
  c.toNat ≠ 55295 ∧ ¬ (65536 ≤ c.toNat ∧ c.toNat % 1024 = 1023)

/-! ### Upper bounds -/

lemma rdropWhile_replicate (front : List ℕ) (k : ℕ) :
    (front ++ List.replicate k maxValue).rdropWhile (fun u => u == maxValue) =
      front.rdropWhile fun u => u == maxValue := by
  induction k with
  | zero => rw [List.replicate_zero, List.append_nil]
  | succ k ih =>
    rw [List.replicate_succ', ← List.append_assoc, List.rdropWhile_concat_pos _ _ _ (by simp), ih]

lemma prefixInfimum_replicate (k : ℕ) : prefixInfimum (List.replicate k maxValue) = none := by
  have h := rdropWhile_replicate [] k
  rw [List.nil_append] at h
  rw [prefixInfimum, h]
  rfl

lemma prefixInfimum_append (front : List ℕ) {last : ℕ} (hlast : last ≠ maxValue) (k : ℕ) :
    prefixInfimum (front ++ [last] ++ List.replicate k maxValue) =
      some (front ++ [(last + 1) % 65536]) := by
  rw [prefixInfimum, rdropWhile_replicate, List.rdropWhile_concat_neg _ _ _ (by simpa using hlast)]
  simp

/-- The greatest character with one code unit. -/
def maxChar : Char := Char.ofNat maxValue

lemma units_replicate (k : ℕ) : units (List.replicate k maxChar) = List.replicate k maxValue := by
  induction k with
  | zero => rfl
  | succ k ih =>
    rw [List.replicate_succ, units, List.flatMap_cons, List.replicate_succ]
    exact congrArg _ ih

lemma toNat_ofNat {n : ℕ} (h : n < 55296 ∨ 57343 < n ∧ n < 1114112) :
    (Char.ofNat n).toNat = n := by
  have hvalid : n.isValidChar := h
  rw [Char.ofNat, dif_pos hvalid]
  rfl

/-- The bound is what precedes the last character that is not the greatest, and one that goes on
with the next character or comes before. -/
lemma prefixInfimum_units (front : List Char) {c : Char} (hc : c ≠ maxChar) (k : ℕ) :
    ∃ inf x rest, prefixInfimum (units (front ++ [c] ++ List.replicate k maxChar)) = some inf ∧
      decode inf = front ++ x :: rest ∧
      (HasNext c ∧ x.toNat = c.toNat + 1 ∧ rest = [] ∨ ¬ HasNext c ∧ x.toNat < c.toNat) := by
  have hunits : units (front ++ [c] ++ List.replicate k maxChar) =
      units front ++ codeUnits c ++ List.replicate k maxValue := by
    rw [units, List.flatMap_append, List.flatMap_append, List.flatMap_singleton,
      ← units_replicate k]
    rfl
  have hvalid : c.toNat < 55296 ∨ 57343 < c.toNat ∧ c.toNat < 1114112 := c.valid
  have hmax : c.toNat ≠ 65535 := fun h => hc (Char.toNat_inj.mp h)
  rw [hunits]
  unfold codeUnits
  split_ifs with h
  · have hmod : (c.toNat + 1) % 65536 = c.toNat + 1 := Nat.mod_eq_of_lt (by omega)
    refine ⟨_, single (c.toNat + 1), [], prefixInfimum_append (units front) hmax k, ?_, ?_⟩
    · rw [hmod, units, decode_flatMap_codeUnits]
      rfl
    · unfold single HasNext
      split_ifs with hhalf
      · exact .inr ⟨by omega, by change 63 < c.toNat; omega⟩
      · refine .inl ⟨by omega, toNat_ofNat (by omega), rfl⟩
  · have hmod : (56320 + (c.toNat - 65536) % 1024 + 1) % 65536 =
        56320 + (c.toNat - 65536) % 1024 + 1 := Nat.mod_eq_of_lt (by omega)
    have hlow : 56320 + (c.toNat - 65536) % 1024 ≠ maxValue := by
      rw [maxValue]
      omega
    have hinf := prefixInfimum_append (units front ++ [55296 + (c.toNat - 65536) / 1024]) hlow k
    rw [hmod, List.append_assoc (units front) [_] [_], List.append_assoc (units front) [_] [_]]
      at hinf
    by_cases hhalf : 56320 + (c.toNat - 65536) % 1024 + 1 < 57344
    · refine ⟨_, Char.ofNat (c.toNat + 1), [], hinf, ?_, .inl ⟨?_, toNat_ofNat (by omega), rfl⟩⟩
      · have hsame : 65536 + (55296 + (c.toNat - 65536) / 1024 - 55296) * 1024 +
            (56320 + (c.toNat - 65536) % 1024 + 1 - 56320) = c.toNat + 1 := by omega
        rw [units, decode_flatMap_codeUnits, List.singleton_append, decode_pair (by omega), hsame]
        rfl
      · unfold HasNext
        omega
    · refine ⟨_, '?', decode [56320 + (c.toNat - 65536) % 1024 + 1], hinf, ?_, .inr ⟨?_, ?_⟩⟩
      · rw [units, decode_flatMap_codeUnits, List.singleton_append, decode_unpaired (by omega),
          single, if_pos (by omega)]
      · unfold HasNext
        omega
      · change 63 < c.toNat
        omega

/-! ### Exact prefixes -/

lemma decode_units (p : List Char) : decode (units p) = p := by
  have h := decode_flatMap_codeUnits p []
  rwa [List.append_nil, decode, List.append_nil] at h

/-- What is accepted is not before the prefix and before the bound, if there is one. -/
def Accepts (p stored : List Char) : Prop :=
  precedes (points stored) (points p) = false ∧
    ∀ inf, prefixInfimum (units p) = some inf →
      precedes (points stored) (points (decode inf)) = true

lemma startsWith2KuduPredicate_eq {schema : List String} {column : String}
    (hmem : column ∈ schema) (p : List Char) :
    startsWith2KuduPredicate (.attribute column) (units p) schema =
      .ok (genComparisonPredicate column .greaterEqual p ::
        ((prefixInfimum (units p)).map fun inf =>
          genComparisonPredicate column .less (decode inf)).toList) := by
  have hcolumn : getColumn schema column = .ok () := by simp [getColumn, hmem]
  unfold startsWith2KuduPredicate
  cases prefixInfimum (units p) with
  | none =>
    simp [binaryComparison2KuduPredicate, literal, getColumnNameAndValue, hcolumn,
      decode_units, bind, Except.bind, pure, Except.pure]
  | some inf =>
    simp [binaryComparison2KuduPredicate, literal, getColumnNameAndValue, hcolumn,
      decode_units, bind, Except.bind, pure, Except.pure]

lemma prefixExact_iff (schema : List String) (column : String) (p : List Char) :
    PrefixExact schema column p ↔
      (column ∈ schema → ∀ stored, Accepts p stored ↔ p <+: stored) := by
  by_cases hmem : column ∈ schema
  · rw [PrefixExact, startsWith2KuduPredicate_eq hmem]
    simp only [Except.ok.injEq, forall_eq', hmem, true_implies, List.forall_mem_cons]
    refine forall_congr' fun stored => iff_congr (and_congr ?_ ?_) Iff.rfl
    · simp [KuduPredicate.accepts, genComparisonPredicate, precedes_encode]
    · cases prefixInfimum (units p) with
      | none => simp
      | some inf => simp [KuduPredicate.accepts, genComparisonPredicate, precedes_encode]
  · refine iff_of_true (fun predicates h => ?_) fun h => absurd h hmem
    have hcolumn : getColumn schema column = .error s!"Unknown column: {column}" := by
      simp [getColumn, hmem]
    unfold startsWith2KuduPredicate at h
    simp only [binaryComparison2KuduPredicate, literal, getColumnNameAndValue, hcolumn, bind,
      Except.bind] at h
    split at h <;> cases h

lemma points_prefix_iff {p s : List Char} : points p <+: points s ↔ p <+: s := by
  constructor
  · rintro ⟨rest, hrest⟩
    obtain ⟨front, later, rfl, hfront, -⟩ := List.map_eq_append_iff.mp hrest.symm
    obtain rfl := List.map_injective_iff.mpr (fun c d h => Char.toNat_inj.mp h) hfront
    exact List.prefix_append front later
  · exact fun h => h.map Char.toNat

/-- Of two strings that differ in a character that one comes first. -/
lemma precedes_points_append {front s t : List Char} {c d : Char} (h : c.toNat < d.toNat) :
    precedes (points (front ++ c :: s)) (points (front ++ d :: t)) = true := by
  rw [points, points, List.map_append, List.map_append, precedes_append_left]
  exact cons_precedes_cons.mpr (.inl h)

/-- A character of two code units, greater than all of one. -/
def pair : Char := Char.ofNat 65536

lemma not_isPrefix_maxChar (front : List Char) : ¬ front ++ [maxChar] <+: front ++ [pair] := by
  rw [List.prefix_append_right_inj]
  decide

lemma pair_not_precedes (front : List Char) :
    precedes (points (front ++ [pair])) (points (front ++ [maxChar])) = false :=
  precedes_asymm (precedes_points_append (by decide))

lemma accepts_replicate (k : ℕ) :
    (∀ stored, Accepts (List.replicate k maxChar) stored ↔ List.replicate k maxChar <+: stored) ↔
      k = 0 := by
  constructor
  · intro h
    cases k with
    | zero => rfl
    | succ k =>
      rw [List.replicate_succ'] at h
      refine absurd ((h _).mp ⟨pair_not_precedes (List.replicate k maxChar), ?_⟩)
        (not_isPrefix_maxChar _)
      rw [← List.replicate_succ', units_replicate, prefixInfimum_replicate]
      exact fun inf hinf => by cases hinf
  · rintro rfl stored
    refine iff_of_true ⟨precedes_nil _, ?_⟩ List.nil_prefix
    exact fun inf hinf => by cases hinf

lemma accepts_append (front : List Char) {c : Char} (hc : c ≠ maxChar) (k : ℕ) :
    (∀ stored, Accepts (front ++ [c] ++ List.replicate k maxChar) stored ↔
        front ++ [c] ++ List.replicate k maxChar <+: stored) ↔ k = 0 ∧ HasNext c := by
  obtain ⟨inf, x, rest, hinf, hdecode, hnext⟩ := prefixInfimum_units front hc k
  have haccepts : ∀ stored, Accepts (front ++ [c] ++ List.replicate k maxChar) stored ↔
      precedes (points stored) (points (front ++ [c] ++ List.replicate k maxChar)) = false ∧
        precedes (points stored) (points (front ++ x :: rest)) = true := by
    intro stored
    simp only [Accepts, hinf, Option.some.injEq, forall_eq', hdecode]
  simp only [haccepts]
  constructor
  · intro h
    rcases hnext with ⟨hnext, hx, -⟩ | ⟨-, hx⟩
    · refine ⟨?_, hnext⟩
      cases k with
      | zero => rfl
      | succ k =>
        rw [List.replicate_succ', ← List.append_assoc] at h
        refine absurd ((h _).mp ⟨pair_not_precedes _, ?_⟩) (not_isPrefix_maxChar _)
        rw [List.append_assoc front, List.append_assoc front]
        exact precedes_points_append (by omega)
    · have hself := ((h _).mpr (List.prefix_refl _)).2
      have hbound : precedes (points (front ++ x :: rest))
          (points (front ++ c :: List.replicate k maxChar)) = true := precedes_points_append hx
      rw [List.append_assoc, List.singleton_append, precedes_asymm hbound] at hself
      cases hself
  · rintro ⟨rfl, hhas⟩ stored
    obtain ⟨-, hx, rfl⟩ : HasNext c ∧ x.toNat = c.toNat + 1 ∧ rest = [] :=
      hnext.resolve_right fun h => h.1 hhas
    have hbetween := between_iff (points stored) (points front) c.toNat
    rw [List.replicate_zero, List.append_nil, ← points_prefix_iff]
    simp only [points, List.map_append, List.map_cons, List.map_nil, hx] at hbetween ⊢
    exact hbetween

/-- The predicates are exact for a column of the table if the last character of the prefix is
followed by another one in UTF-16, and it is not the greatest with one code unit. -/
theorem prefixExact_iff_hasNext (schema : List String) (column : String) (p : List Char) :
    PrefixExact schema column p ↔
      (column ∈ schema → ∀ c ∈ p.getLast?, c ≠ maxChar ∧ HasNext c) := by
  rw [prefixExact_iff]
  refine imp_congr_right fun _ => ?_
  obtain ⟨k, hk⟩ : ∃ k, p.rtakeWhile (· == maxChar) = List.replicate k maxChar :=
    ⟨_, List.eq_replicate_of_mem fun c hc => by simpa using List.mem_rtakeWhile_imp hc⟩
  have hp : p.rdropWhile (· == maxChar) ++ List.replicate k maxChar = p := by
    rw [← hk, List.rdropWhile_append_rtakeWhile]
  have hlast := List.rdropWhile_last_not (p := (· == maxChar)) (l := p)
  rw [← hp]
  rcases List.eq_nil_or_concat' (p.rdropWhile (· == maxChar)) with hnil | ⟨front, c, hfront⟩
  · rw [hnil, List.nil_append, accepts_replicate]
    cases k with
    | zero => simp
    | succ k => simp [List.replicate_succ']
  · have hc : c ≠ maxChar := by
      simpa [hfront] using hlast (by simp [hfront])
    rw [hfront, accepts_append front hc k]
    cases k with
    | zero => simp [hc]
    | succ k => simp [List.replicate_succ', ← List.append_assoc]

/-- After the last code unit before the halves of pairs comes such a half, so the prefix itself is
not accepted. -/
theorem prefixExact_fails : ¬ ∀ p, PrefixExact ["name"] "name" p := by
  intro h
  have hstored := (h [Char.ofNat 55295] _ rfl [Char.ofNat 55295]).mpr (List.prefix_refl _)
  have hbound : KuduPredicate.accepts ⟨"name", .less, encode ['?']⟩
      (encode [Char.ofNat 55295]) = true := hstored _ (List.mem_cons_of_mem _ List.mem_cons_self)
  revert hbound
  decide

end Moonbox.DataSys.Kudu
