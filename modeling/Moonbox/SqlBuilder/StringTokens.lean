import Moonbox.Lib.LikePatterns
import Moonbox.SqlBuilder.ColumnNames

/-!
# Strings

How a string is printed, as a literal and in the patterns of `LIKE`, and how the databases read
strings and patterns. No dialect has a `literalToSQL` of its own.
-/

namespace Moonbox.SqlBuilder

open Quotation LikePattern

/-! ### What is printed -/

/-- `MbDialect.literalToSQL` of a string -/
def literalToSQL (v : List Char) : List Char :=
  ['\''] ++ replace '\'' ['\\', '\''] (replace '\\' ['\\', '\\'] v) ++ ['\'']

def stripPrefix (c : Char) : List Char → List Char
  | [] => []
  | x :: text => if x = c then text else x :: text

def stripSuffix (c : Char) (text : List Char) : List Char :=
  if text.getLast? = some c then text.dropLast else text

inductive StringPredicate
  | startsWith
  | endsWith
  | contains

/-- The pattern of `right`. -/
def StringPredicate.pattern (p : StringPredicate) (right : List Char) : List Char :=
  let text := stripSuffix '\'' (stripPrefix '\'' right)
  match p with
  | startsWith => ['\''] ++ text ++ ['%', '\'']
  | endsWith => ['\'', '%'] ++ text ++ ['\'']
  | contains => ['\'', '%'] ++ text ++ ['%', '\'']

def stringPredicate (p : StringPredicate) (left right : List Char) : List Char :=
  left ++ " LIKE ".toList ++ p.pattern right

/-! ### How strings are read -/

/-- The escapes of MySQL. Those of `%` and `_` are left to the patterns. -/
def MySQL.escape : List Char → List Char × Nat
  | '0' :: _ => (['\x00'], 1)
  | 'b' :: _ => (['\x08'], 1)
  | 'n' :: _ => (['\n'], 1)
  | 'r' :: _ => (['\r'], 1)
  | 't' :: _ => (['\t'], 1)
  | 'Z' :: _ => (['\x1a'], 1)
  | '%' :: _ => (['\\', '%'], 1)
  | '_' :: _ => (['\\', '_'], 1)
  | c :: _ => ([c], 1)
  | [] => ([], 1)

/-- In all of them a quote is doubled. -/
def Dialect.strings : Dialect → Quotation
  | .mySQL => ⟨'\'', true, some MySQL.escape⟩
  | .clickHouse => ⟨'\'', true, some ClickHouse.escape⟩
  | _ => ⟨'\'', true, none⟩

def Dialect.isText : Dialect → List Char → Bool
  | .postgres, v => v.all fun c => 0 < c.toNat
  | _, _ => true

/-- The string at the start of a text and what is after it. -/
def Dialect.stringToken (d : Dialect) : List Char → Option (List Char × List Char)
  | [] => none
  | c :: text =>
    if c = '\'' then do
      let (value, rest) ← d.strings.read 0 text
      if d.isText value then some (value, rest) else none
    else none

/-! ### How patterns are read -/

/-- `%` and `_`, and what a database has besides. -/
def likeGrammar (more : Char → Option (List Char → Item × Nat)) : Grammar where
  special c :=
    if c = '%' then some fun _ => (.many, 0)
    else if c = '_' then some fun _ => (.oneOf fun _ => true, 0)
    else more c

/-- A backslash before any character, and one at the end that `dangling` says of. -/
def backslash (dangling : Item) (text : List Char) : Item × Nat :=
  match text with
  | [] => (dangling, 0)
  | c :: _ => (.char c, 1)

def never : Item := .oneOf fun _ => false

/-- The ranges and characters between brackets. -/
def inBrackets : List Char → Char → Bool
  | a :: '-' :: b :: text, x => (a ≤ x && x ≤ b) || inBrackets text x
  | a :: text, x => a = x || inBrackets text x
  | [], _ => false

/-- One of the characters between brackets, or with `^` one of the others. Without a closing
bracket nothing is matched. -/
def SqlServer.brackets (text : List Char) : Item × Nat :=
  let set := text.takeWhile (· ≠ ']')
  if ']' ∈ text then
    match set with
    | '^' :: set => (.oneOf fun x => !inBrackets set x, set.length + 2)
    | _ => (.oneOf (inBrackets set), set.length + 1)
  else (never, 0)

/-- A backslash that is not before `%`, `_` or a backslash is one like others. -/
def ClickHouse.backslash : List Char → Item × Nat
  | [] => (never, 0)
  | c :: _ => if c = '%' ∨ c = '_' ∨ c = '\\' then (.char c, 1) else (.char '\\', 0)

def Dialect.patterns : Dialect → Grammar
  | .mySQL => likeGrammar fun c => if c = '\\' then some (backslash (.char '\\')) else none
  | .postgres => likeGrammar fun c => if c = '\\' then some (backslash never) else none
  | .sqlServer => likeGrammar fun c => if c = '[' then some SqlServer.brackets else none
  | .clickHouse => likeGrammar fun c => if c = '\\' then some ClickHouse.backslash else none
  | _ => likeGrammar fun _ => none

/-! ### Strings that stay what they are -/

def Dialect.ReadsString (d : Dialect) (text value : List Char) : Prop :=
  ∀ rest, Ends rest → d.stringToken (text ++ rest) = some (value, rest)

def StringPredicate.Holds : StringPredicate → List Char → List Char → Prop
  | startsWith, s, t => s <+: t
  | endsWith, s, t => s <:+ t
  | contains, s, t => s <:+: t

/-- The literal is read as the string, and each pattern matches the texts that its predicate is
true of. -/
structure Dialect.KeepsString (d : Dialect) (s : List Char) : Prop where
  literal : d.ReadsString (literalToSQL s) s
  like : ∀ p : StringPredicate, ∃ pattern, d.ReadsString (p.pattern (literalToSQL s)) pattern ∧
    ∀ t, d.patterns.like pattern t = true ↔ p.Holds s t

def Dialect.Harmless : Dialect → List Char → Prop
  | .mySQL, s => '%' ∉ s ∧ '_' ∉ s ∧ '\\' ∉ s
  | .clickHouse, s =>
    '%' ∉ s ∧ '_' ∉ s ∧ ¬['\\', '\\'] <:+: s ∧ s.getLast? ≠ some '\\'
  | .oracle, s | .presto, s => '\'' ∉ s ∧ '\\' ∉ s ∧ '%' ∉ s ∧ '_' ∉ s
  | .sqlServer, s => '\'' ∉ s ∧ '\\' ∉ s ∧ '%' ∉ s ∧ '_' ∉ s ∧ '[' ∉ s
  | .postgres, s => '\'' ∉ s ∧ '\\' ∉ s ∧ '%' ∉ s ∧ '_' ∉ s ∧ ∀ c ∈ s, 0 < c.toNat

/-! ### Tokens -/

section Tokens

variable {d : Dialect} {c : Char} {s text value value' rest : List Char}

/-- What is between the quotes of a literal. -/
def escaped (s : List Char) : List Char :=
  replace '\'' ['\\', '\''] (replace '\\' ['\\', '\\'] s)

lemma literalToSQL_eq (s : List Char) : literalToSQL s = '\'' :: (escaped s ++ ['\'']) := rfl

lemma escaped_cons : escaped (c :: s) =
    (if c = '\\' then ['\\', '\\'] else if c = '\'' then ['\\', '\''] else [c]) ++ escaped s := by
  by_cases hb : c = '\\'
  · simp [escaped, replace, hb]
  · by_cases hq : c = '\'' <;> simp [escaped, replace, hb, hq]

lemma escaped_of_not_mem (hq : '\'' ∉ s) (hb : '\\' ∉ s) : escaped s = s := by
  rw [escaped, replace_of_not_mem hb, replace_of_not_mem hq]

lemma count_escaped (s : List Char) :
    (escaped s).count '\\' = 2 * s.count '\\' + s.count '\'' := by
  induction s with
  | nil => rfl
  | cons c s ih =>
    rw [escaped_cons, List.count_append, ih]
    by_cases hb : c = '\\'
    · simp [hb]
      omega
    · by_cases hq : c = '\''
      · simp [hq]
        omega
      · simp [hb, hq]

/-- The outer quotes of the literal are taken away again. -/
lemma stripSuffix_stripPrefix :
    stripSuffix '\'' (stripPrefix '\'' (literalToSQL s)) = escaped s := by
  simp [literalToSQL_eq, stripPrefix, stripSuffix]

lemma stringToken_cons : d.stringToken ('\'' :: text) = some (value, rest) ↔
    d.strings.read 0 text = some (value, rest) ∧ d.isText value = true := by
  rw [Dialect.stringToken, if_pos rfl]
  cases d.strings.read 0 text with
  | none => simp
  | some p =>
    obtain ⟨v, r⟩ := p
    simp only [Option.bind_eq_bind, Option.bind_some, Option.some.injEq, Prod.mk.injEq]
    constructor
    · intro h
      split at h
      · rename_i hv
        cases h
        exact ⟨⟨rfl, rfl⟩, hv⟩
      · cases h
    · rintro ⟨⟨rfl, rfl⟩, hv⟩
      rw [if_pos hv]

lemma Dialect.ReadsString.unique (h : d.ReadsString text value) (h' : d.ReadsString text value') :
    value = value' := by
  have := (h [] Ends.nil).symm.trans (h' [] Ends.nil)
  simpa using this

lemma strings_quote : d.strings.quote = '\'' := by
  cases d <;> rfl

lemma Ends.head_ne_quote (h : Ends rest) : rest.head? ≠ some '\'' := by
  intro heq
  simpa using h _ heq

/-- A token that is read to its end. -/
lemma readsString_of_read (hisText : d.isText value = true)
    (h : ∀ rest, Ends rest → d.strings.read 0 (text ++ '\'' :: rest) = some (value, rest)) :
    d.ReadsString ('\'' :: (text ++ ['\''])) value := by
  intro rest hrest
  rw [List.cons_append, List.append_assoc, stringToken_cons]
  exact ⟨h rest hrest, hisText⟩

lemma read_string_close (hrest : Ends rest) :
    d.strings.read 0 ('\'' :: rest) = some ([], rest) := by
  have h := @read_close d.strings rest fun _ => by
    rw [strings_quote]
    exact hrest.head_ne_quote
  rwa [strings_quote] at h

/-! #### Databases with backslash escapes -/

/-- The escapes that are printed are escapes of the database. -/
def Dialect.Escapes (d : Dialect) : Prop :=
  ∃ escape, d.strings.escape = some escape ∧
    ∀ c ∈ ['\\', '\''], ∀ text, escape (c :: text) = ([c], 1)

lemma escapes_mySQL : Dialect.mySQL.Escapes := ⟨MySQL.escape, rfl, by simp [MySQL.escape]⟩

lemma escapes_clickHouse : Dialect.clickHouse.Escapes :=
  ⟨ClickHouse.escape, rfl, by simp [ClickHouse.escape]⟩

lemma read_escaped (hd : d.Escapes) :
    d.strings.read 0 (escaped s ++ text) = prepend s (d.strings.read 0 text) := by
  obtain ⟨escape, hescape, hread⟩ := hd
  have hpair {c : Char} (hc : c ∈ ['\\', '\'']) (text : List Char) :
      d.strings.read 0 ('\\' :: c :: text) = prepend [c] (d.strings.read 0 text) := by
    rw [Quotation.read, if_neg (by simp [strings_quote]), hescape]
    simp [hread c hc, Quotation.read]
  induction s with
  | nil => cases h : d.strings.read 0 text <;> simp [escaped, replace, prepend, h]
  | cons c s ih =>
    have hcons : prepend (c :: s) (d.strings.read 0 text) =
        prepend [c] (d.strings.read 0 (escaped s ++ text)) := by
      rw [ih]
      cases d.strings.read 0 text <;> rfl
    rw [hcons, escaped_cons, List.append_assoc]
    by_cases hb : c = '\\'
    · rw [if_pos hb, hb]
      exact hpair (by simp) _
    · by_cases hq : c = '\''
      · rw [if_neg hb, if_pos hq, hq]
        exact hpair (by simp) _
      · rw [if_neg hb, if_neg hq]
        exact read_cons_plain (by rwa [strings_quote]) fun _ => hb

/-! #### Databases without -/

lemma read_escaped_of_not_mem (hq : '\'' ∉ s) (hb : '\\' ∉ s) (hrest : Ends rest) :
    d.strings.read 0 (s ++ '\'' :: rest) = some (s, rest) := by
  have h := @read_plain d.strings s rest (by rwa [strings_quote]) (fun _ => hb) fun _ => by
    rw [strings_quote]
    exact hrest.head_ne_quote
  rwa [strings_quote] at h

/-- Without escapes the quotes of a string that is read were doubled. -/
lemma escaped_eq_double (hd : d.strings.escape = none) (h : d.ReadsString (literalToSQL s) s) :
    escaped s = double '\'' s := by
  have htoken := h [] Ends.nil
  rw [List.append_nil, literalToSQL_eq, stringToken_cons] at htoken
  have hdouble := eq_double_of_read hd htoken.1
  rw [strings_quote] at hdouble
  exact List.append_cancel_right hdouble

/-! #### Literals and patterns -/

lemma literal_of_escapes (hd : d.Escapes) (hisText : d.isText s = true) :
    d.ReadsString (literalToSQL s) s := by
  rw [literalToSQL_eq]
  refine readsString_of_read hisText fun rest hrest => ?_
  rw [read_escaped hd, read_string_close hrest]
  simp [prepend]

lemma literal_iff (hd : d.strings.escape = none) :
    d.ReadsString (literalToSQL s) s ↔ '\'' ∉ s ∧ '\\' ∉ s ∧ d.isText s = true := by
  constructor
  · intro h
    have hcount := congrArg (List.count '\\') (escaped_eq_double hd h)
    rw [count_escaped, count_double_of_ne (by decide)] at hcount
    have hisText := (stringToken_cons.mp (h [] Ends.nil)).2
    refine ⟨List.count_eq_zero.mp (by omega), List.count_eq_zero.mp (by omega), hisText⟩
  · rintro ⟨hq, hb, hisText⟩
    rw [literalToSQL_eq, escaped_of_not_mem hq hb]
    refine readsString_of_read hisText fun rest hrest => ?_
    exact read_escaped_of_not_mem hq hb hrest

/-- The pattern whose text is printed. -/
def StringPredicate.around (p : StringPredicate) (s : List Char) : List Char :=
  match p with
  | startsWith => s ++ ['%']
  | endsWith => '%' :: s
  | contains => '%' :: (s ++ ['%'])

lemma pattern_eq (p : StringPredicate) (s : List Char) :
    p.pattern (literalToSQL s) = '\'' :: (p.around (escaped s) ++ ['\'']) := by
  cases p <;> simp [StringPredicate.pattern, stripSuffix_stripPrefix, StringPredicate.around]

lemma read_percent : d.strings.read 0 ('%' :: text) = prepend ['%'] (d.strings.read 0 text) :=
  read_cons_plain (by simp [strings_quote]) fun _ => by decide

lemma pattern_of_escapes (hd : d.Escapes) (p : StringPredicate)
    (hisText : d.isText (p.around s) = true) :
    d.ReadsString (p.pattern (literalToSQL s)) (p.around s) := by
  rw [pattern_eq]
  refine readsString_of_read hisText fun rest hrest => ?_
  cases p <;>
    simp [StringPredicate.around, read_percent, read_escaped hd, read_string_close hrest, prepend]

lemma pattern_of_not_mem (hq : '\'' ∉ s) (hb : '\\' ∉ s) (p : StringPredicate)
    (hisText : d.isText (p.around s) = true) :
    d.ReadsString (p.pattern (literalToSQL s)) (p.around s) := by
  rw [pattern_eq, escaped_of_not_mem hq hb]
  refine readsString_of_read hisText fun rest hrest => ?_
  refine read_escaped_of_not_mem ?_ ?_ hrest
  · cases p <;> simp [StringPredicate.around, hq]
  · cases p <;> simp [StringPredicate.around, hb]

end Tokens

/-! ### Patterns -/

section Patterns

variable {d : Dialect} {c : Char} {s v : List Char} {more : Char → Option (List Char → Item × Nat)}

lemma likeGrammar_item (hpercent : c ≠ '%') (hunderscore : c ≠ '_') (text : List Char) :
    (likeGrammar more).item c text =
      match more c with
      | none => (.char c, 0)
      | some meaning => meaning text := by
  cases h : more c <;> simp [Grammar.item, likeGrammar, hpercent, hunderscore, h]

/-- What the database has besides `%` and `_` is to depart too. -/
lemma departs_likeGrammar (h : ∀ c meaning, more c = some meaning → ∀ v,
    meaning (v ++ ['%']) = (.char c, 0) ∨
    (∀ x, (meaning (v ++ ['%'])).1.accepts x = false) ∨
    (∃ x, x ≠ c ∧ (meaning (v ++ ['%'])).1.accepts x = true) ∨
    (v ≠ [] ∧ 0 < (meaning (v ++ ['%'])).2)) : (likeGrammar more).Departs := by
  refine ⟨rfl, fun c v => ?_⟩
  by_cases hpercent : c = '%'
  · subst hpercent
    exact .inr (.inr (.inl ⟨'a', by decide, rfl⟩))
  by_cases hunderscore : c = '_'
  · subst hunderscore
    exact .inr (.inr (.inl ⟨'a', by decide, rfl⟩))
  rw [likeGrammar_item hpercent hunderscore]
  cases hmore : more c with
  | none => exact .inl rfl
  | some meaning => exact h c meaning hmore v

lemma departs_backslash (dangling : Item) :
    (likeGrammar fun c => if c = '\\' then some (backslash dangling) else none).Departs := by
  refine departs_likeGrammar fun c meaning h v => ?_
  obtain ⟨rfl, rfl⟩ : c = '\\' ∧ backslash dangling = meaning := by simpa using h
  cases v with
  | nil => exact .inr (.inr (.inl ⟨'%', by decide, rfl⟩))
  | cons x v => exact .inr (.inr (.inr ⟨by simp, Nat.one_pos⟩))

lemma snd_brackets_pos {text : List Char} (h : ']' ∈ text) : 0 < (SqlServer.brackets text).2 := by
  rw [SqlServer.brackets, if_pos h]
  split <;> exact Nat.succ_pos _

lemma departs (d : Dialect) : d.patterns.Departs := by
  cases d with
  | mySQL => exact departs_backslash _
  | postgres => exact departs_backslash _
  | oracle => exact departs_likeGrammar fun c meaning h => by cases h
  | presto => exact departs_likeGrammar fun c meaning h => by cases h
  | sqlServer =>
    refine departs_likeGrammar fun c meaning h v => ?_
    obtain ⟨rfl, rfl⟩ : c = '[' ∧ SqlServer.brackets = meaning := by simpa using h
    by_cases hclosed : ']' ∈ v ++ ['%']
    · have hv : ']' ∈ v := by simpa using hclosed
      exact .inr (.inr (.inr ⟨List.ne_nil_of_mem hv, snd_brackets_pos hclosed⟩))
    · rw [SqlServer.brackets, if_neg hclosed]
      exact .inr (.inl fun _ => rfl)
  | clickHouse =>
    refine departs_likeGrammar fun c meaning h v => ?_
    obtain ⟨rfl, rfl⟩ : c = '\\' ∧ ClickHouse.backslash = meaning := by simpa using h
    cases v with
    | nil => exact .inr (.inr (.inl ⟨'%', by decide, rfl⟩))
    | cons x v =>
      rw [List.cons_append, ClickHouse.backslash]
      split
      · exact .inr (.inr (.inr ⟨by simp, Nat.one_pos⟩))
      · exact .inl rfl

/-- What the database has besides `%` and `_` is not to stand for itself. -/
lemma plain_likeGrammar (h : ∀ c meaning, more c = some meaning → ∀ v,
    meaning (v ++ ['%']) ≠ (.char c, 0)) :
    (likeGrammar more).Plain s ['%'] ↔ ∀ c ∈ s, c ≠ '%' ∧ c ≠ '_' ∧ more c = none := by
  refine plain_iff_forall fun c v => ?_
  by_cases hpercent : c = '%'
  · simp [hpercent, Grammar.item, likeGrammar]
  by_cases hunderscore : c = '_'
  · simp [hunderscore, Grammar.item, likeGrammar]
  rw [likeGrammar_item hpercent hunderscore]
  cases hmore : more c with
  | none => simp [hpercent, hunderscore]
  | some meaning => simp [h c meaning hmore v]

lemma plain_nil_likeGrammar (h : ∀ c ∈ s, c ≠ '%' ∧ c ≠ '_' ∧ more c = none) :
    (likeGrammar more).Plain s [] := by
  induction s with
  | nil => trivial
  | cons c s ih =>
    rw [List.forall_mem_cons] at h
    refine ⟨?_, ih h.2⟩
    rw [likeGrammar_item h.1.1 h.1.2.1, h.1.2.2]

lemma forall_special {b : Char} {meaning : List Char → Item × Nat} :
    (∀ c ∈ s, c ≠ '%' ∧ c ≠ '_' ∧ (if c = b then some meaning else none) = none) ↔
      '%' ∉ s ∧ '_' ∉ s ∧ b ∉ s := by
  simp only [ite_eq_right_iff, reduceCtorEq, imp_false]
  constructor
  · intro h
    exact ⟨fun hm => (h _ hm).1 rfl, fun hm => (h _ hm).2.1 rfl, fun hm => (h _ hm).2.2 rfl⟩
  · rintro ⟨hp, hu, hb⟩ c hc
    exact ⟨fun h => hp (h ▸ hc), fun h => hu (h ▸ hc), fun h => hb (h ▸ hc)⟩

/-- A database with one special character more. -/
lemma plain_special {b : Char} {meaning : List Char → Item × Nat}
    (h : ∀ v, meaning (v ++ ['%']) ≠ (.char b, 0)) :
    ((likeGrammar fun c => if c = b then some meaning else none).Plain s ['%'] ↔
      '%' ∉ s ∧ '_' ∉ s ∧ b ∉ s) ∧
    ((likeGrammar fun c => if c = b then some meaning else none).Plain s ['%'] →
      (likeGrammar fun c => if c = b then some meaning else none).Plain s []) := by
  have hplain := @plain_likeGrammar s (fun c => if c = b then some meaning else none)
    fun c meaning' hc v => by
      obtain ⟨rfl, rfl⟩ : c = b ∧ meaning = meaning' := by simpa using hc
      exact h v
  exact ⟨hplain.trans forall_special, fun hs => plain_nil_likeGrammar (hplain.mp hs)⟩

/-- A database with no other. -/
lemma plain_only :
    ((likeGrammar fun _ => none).Plain s ['%'] ↔ '%' ∉ s ∧ '_' ∉ s) ∧
    ((likeGrammar fun _ => none).Plain s ['%'] → (likeGrammar fun _ => none).Plain s []) := by
  have hplain := @plain_likeGrammar s (fun _ => none) fun c meaning hc => by cases hc
  refine ⟨hplain.trans ?_, fun hs => plain_nil_likeGrammar (hplain.mp hs)⟩
  constructor
  · intro h
    exact ⟨fun hm => (h _ hm).1 rfl, fun hm => (h _ hm).2.1 rfl⟩
  · rintro ⟨hp, hu⟩ c hc
    exact ⟨fun h => hp (h ▸ hc), fun h => hu (h ▸ hc), rfl⟩

lemma backslash_ne (dangling : Item) (v : List Char) :
    backslash dangling (v ++ ['%']) ≠ (.char c, 0) := by
  cases v <;> simp [backslash]

lemma brackets_ne (v : List Char) : SqlServer.brackets (v ++ ['%']) ≠ (.char c, 0) := by
  intro heq
  by_cases h : ']' ∈ v ++ ['%']
  · have := snd_brackets_pos h
    rw [heq] at this
    exact absurd this (Nat.lt_irrefl 0)
  · rw [SqlServer.brackets, if_neg h] at heq
    cases heq

lemma clickHouse_item_backslash :
    Dialect.clickHouse.patterns.item '\\' v = ClickHouse.backslash v := rfl

/-- A backslash stands for itself if something is behind it that is not special. -/
lemma clickHouse_plain_cons : Dialect.clickHouse.patterns.Plain (c :: s) ['%'] ↔
    c ≠ '%' ∧ c ≠ '_' ∧ (c = '\\' → s ≠ [] ∧ s.head? ≠ some '\\') ∧
      Dialect.clickHouse.patterns.Plain s ['%'] := by
  rw [Grammar.Plain]
  by_cases hpercent : c = '%'
  · simp [hpercent, Dialect.patterns, Grammar.item, likeGrammar]
  by_cases hunderscore : c = '_'
  · simp [hunderscore, Dialect.patterns, Grammar.item, likeGrammar]
  by_cases hb : c = '\\'
  · subst hb
    rw [clickHouse_item_backslash]
    cases s with
    | nil => simp [ClickHouse.backslash]
    | cons x s =>
      have hplain : Dialect.clickHouse.patterns.Plain (x :: s) ['%'] → x ≠ '%' ∧ x ≠ '_' := by
        intro h
        constructor <;> rintro rfl <;> simp [Grammar.Plain, Dialect.patterns, Grammar.item,
          likeGrammar] at h
      rw [List.cons_append, ClickHouse.backslash]
      split
      · rename_i hx
        simp only [Prod.mk.injEq, Nat.one_ne_zero, and_false, false_and, false_iff]
        rintro ⟨-, -, h, hs⟩
        obtain rfl := hx.resolve_left (hplain hs).1 |>.resolve_left (hplain hs).2
        exact (h trivial).2 rfl
      · rename_i hx
        simp only [not_or] at hx
        simp [hx.2.2]
  · simp [hpercent, hunderscore, hb, Dialect.patterns, likeGrammar_item]

end Patterns

/-! ### The dialects -/

section Dialects

variable {d : Dialect} {s : List Char}

lemma clickHouse_plain : Dialect.clickHouse.patterns.Plain s ['%'] ↔
    Dialect.clickHouse.Harmless s := by
  induction s with
  | nil => simp [Grammar.Plain, Dialect.Harmless]
  | cons c s ih =>
    rw [clickHouse_plain_cons, ih]
    cases s with
    | nil =>
      have hinfix : ¬['\\', '\\'] <:+: [c] := fun h => by
        have := h.length_le
        simp at this
      simp only [Dialect.Harmless, hinfix, List.mem_singleton, List.getLast?_singleton]
      grind
    | cons x s =>
      simp only [Dialect.Harmless, List.infix_cons_iff (a := c), List.cons_prefix_cons,
        List.getLast?_cons_cons, List.mem_cons (a := '%') (b := c)]
      grind

lemma clickHouse_plain_nil (h : Dialect.clickHouse.patterns.Plain s ['%']) :
    Dialect.clickHouse.patterns.Plain s [] := by
  induction s with
  | nil => trivial
  | cons c s ih =>
    obtain ⟨hpercent, hunderscore, hb, hs⟩ := clickHouse_plain_cons.mp h
    refine ⟨?_, ih hs⟩
    by_cases hc : c = '\\'
    · subst hc
      cases s with
      | nil => exact absurd rfl (hb rfl).1
      | cons x s =>
        obtain ⟨hx, hx', -, -⟩ := clickHouse_plain_cons.mp hs
        have hx'' : x ≠ '\\' := by simpa using (hb rfl).2
        rw [clickHouse_item_backslash, List.append_nil, ClickHouse.backslash]
        simp [hx, hx', hx'']
    · simp [Dialect.patterns, likeGrammar_item hpercent hunderscore, hc]

/-- Every pattern matches what its predicate is true of, exactly if the string is plain. -/
lemma like_around_iff (h : d.patterns.Plain s ['%'] → d.patterns.Plain s []) :
    (∀ (p : StringPredicate) t, d.patterns.like (p.around s) t = true ↔ p.Holds s t) ↔
      d.patterns.Plain s ['%'] := by
  have hpercent : d.patterns.special '%' = some fun _ => (.many, 0) := by cases d <;> rfl
  constructor
  · exact fun hlike => (like_prefix_iff (departs d)).mp (hlike .startsWith)
  · intro hplain p t
    cases p with
    | startsWith => exact (like_prefix_iff (departs d)).mpr hplain t
    | endsWith => exact like_suffix hpercent (h hplain)
    | contains => exact like_infix hpercent hplain

/-- The patterns are looked at when the literals are right. -/
lemma keepsString_iff_plain {P : Prop} (hliteral : d.ReadsString (literalToSQL s) s ↔ P)
    (hpattern : P → ∀ p : StringPredicate,
      d.ReadsString (p.pattern (literalToSQL s)) (p.around s))
    (h : d.patterns.Plain s ['%'] → d.patterns.Plain s []) :
    d.KeepsString s ↔ P ∧ d.patterns.Plain s ['%'] := by
  rw [← like_around_iff h]
  constructor
  · intro hkeeps
    have hP := hliteral.mp hkeeps.literal
    refine ⟨hP, fun p t => ?_⟩
    obtain ⟨pattern, hread, hlike⟩ := hkeeps.like p
    rw [(hpattern hP p).unique hread]
    exact hlike t
  · rintro ⟨hP, hlike⟩
    exact ⟨hliteral.mpr hP, fun p => ⟨p.around s, hpattern hP p, hlike p⟩⟩

/-- For the databases in which a backslash is a character like others -/
lemma keepsString_of_standard (hescape : d.strings.escape = none)
    (hisText : ∀ p : StringPredicate, d.isText s = true → d.isText (p.around s) = true)
    (h : d.patterns.Plain s ['%'] → d.patterns.Plain s []) :
    d.KeepsString s ↔
      ('\'' ∉ s ∧ '\\' ∉ s ∧ d.isText s = true) ∧ d.patterns.Plain s ['%'] :=
  keepsString_iff_plain (literal_iff hescape)
    (fun hs p => pattern_of_not_mem hs.1 hs.2.1 p (hisText p hs.2.2)) h

/-- What a string may hold for its literal and its patterns to be read as they are meant. -/
theorem keepsString_iff (d : Dialect) (s : List Char) : d.KeepsString s ↔ d.Harmless s := by
  cases d with
  | mySQL =>
    have hplain := @plain_special s '\\' (backslash (.char '\\')) (backslash_ne _)
    have hliteral := @literal_of_escapes .mySQL s escapes_mySQL rfl
    rw [keepsString_iff_plain (iff_of_true hliteral trivial)
      (fun _ p => pattern_of_escapes escapes_mySQL p rfl) hplain.2, true_and]
    exact hplain.1
  | clickHouse =>
    have hliteral := @literal_of_escapes .clickHouse s escapes_clickHouse rfl
    rw [keepsString_iff_plain (iff_of_true hliteral trivial)
      (fun _ p => pattern_of_escapes escapes_clickHouse p rfl) clickHouse_plain_nil, true_and]
    exact clickHouse_plain
  | oracle =>
    rw [@keepsString_of_standard .oracle s rfl (fun _ _ => rfl) (@plain_only s).2]
    simp [Dialect.Harmless, Dialect.isText, Dialect.patterns, (@plain_only s).1, and_assoc]
  | presto =>
    rw [@keepsString_of_standard .presto s rfl (fun _ _ => rfl) (@plain_only s).2]
    simp [Dialect.Harmless, Dialect.isText, Dialect.patterns, (@plain_only s).1, and_assoc]
  | sqlServer =>
    have hplain := @plain_special s '[' SqlServer.brackets brackets_ne
    rw [@keepsString_of_standard .sqlServer s rfl (fun _ _ => rfl) hplain.2]
    simp [Dialect.Harmless, Dialect.isText, Dialect.patterns, hplain.1, and_assoc]
  | postgres =>
    have hplain := @plain_special s '\\' (backslash never) (backslash_ne _)
    have hisText : Dialect.postgres.isText s = true ↔ ∀ c ∈ s, 0 < c.toNat := by
      simp [Dialect.isText]
    rw [@keepsString_of_standard .postgres s rfl _ hplain.2, hisText]
    · simp only [Dialect.Harmless, Dialect.patterns, hplain.1]
      tauto
    · intro p h
      cases p <;> simp_all [Dialect.isText, StringPredicate.around]

/-- In Oracle the literal of `it's` ends before the `s`. -/
theorem not_keepsString_quote : ¬Dialect.oracle.KeepsString ['i', 't', '\'', 's'] := by
  intro h
  have hliteral := h.literal [] Ends.nil
  revert hliteral
  decide

end Dialects

end Moonbox.SqlBuilder
