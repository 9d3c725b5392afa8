import Moonbox.SqlBuilder.Dialects

/-!
# Column names

When the texts of a column's attribute and alias are identifiers with the column's name.
-/

namespace Moonbox.SqlBuilder

open Quotation

variable (keyword : List Char → Bool)

/-- What may be after a column in a query. -/
def Ends (rest : List Char) : Prop := ∀ c, rest.head? = some c → c = ' ' ∨ c = ',' ∨ c = ')'

def Dialect.ReadsAs (d : Dialect) (text name : List Char) : Prop :=
  ∀ rest, Ends rest → d.identifier keyword (text ++ rest) = some (name, rest)

/-- The text is read as the name, after the qualifier if it has one. -/
def Dialect.Names (d : Dialect) (qualifier : Option (List Char)) (text name : List Char) : Prop :=
  ∃ column, (text = column ∨ text = qualifierPrefix qualifier ++ column) ∧
    d.ReadsAs keyword column name

def Dialect.KeepsName (d : Dialect) (name : List Char) : Prop :=
  ∀ qualifier, d.Names keyword qualifier (d.mbDialect.getAttributeName qualifier name) name ∧
    d.Names keyword qualifier (d.mbDialect.aliasName qualifier name) name

/-- The columns of a query, each under its name, and different ones under different names. -/
def Dialect.KeepsNames (d : Dialect) (names : List (List Char)) : Prop :=
  (∀ name ∈ names, d.KeepsName keyword name) ∧
    ∀ name ∈ names, ∀ name' ∈ names,
      d.identifier keyword (d.mbDialect.getAttributeName none name) =
        d.identifier keyword (d.mbDialect.getAttributeName none name') → name = name'

def Dialect.Quotable : Dialect → List Char → Prop
  | .mySQL, name => name ≠ [] ∧ ∀ c ∈ name, 0 < c.toNat ∧ c.toNat < 0x10000
  | .oracle, name => name ≠ [] ∧ '"' ∉ name ∧ '`' ∉ name ∧ ∀ c ∈ name, 0 < c.toNat
  | .sqlServer, _ => False
  | .postgres, name =>
    name ≠ [] ∧ '"' ∉ name ∧ '`' ∉ name ∧ (∀ c ∈ name, 0 < c.toNat) ∧ utf8Length name ≤ 63
  | .presto, name => name ≠ [] ∧ '"' ∉ name ∧ '`' ∉ name
  | .clickHouse, name =>
    if '#' ∈ name ∨ '(' ∈ name then '\\' ∉ name else isRegular name ∧ keyword name = false

/-! ### Texts -/

section Texts

variable {c : Char} {cs name text : List Char}

lemma not_mem_replace (h : c ∉ cs) : c ∉ replace c cs text := by
  simp only [replace, List.mem_flatMap, not_exists, not_and]
  intro x _
  split
  · exact h
  · rename_i hne
    simpa using Ne.symm hne

lemma replace_of_not_mem (h : c ∉ text) : replace c cs text = text := by
  induction text with
  | nil => rfl
  | cons x text ih =>
    rw [List.mem_cons, not_or] at h
    rw [replace, List.flatMap_cons, if_neg (Ne.symm h.1), ← replace, ih h.2]
    rfl

lemma length_replace_le (h : cs.length ≤ 1) : (replace c cs text).length ≤ text.length := by
  induction text with
  | nil => exact Nat.le_refl 0
  | cons x text ih =>
    rw [replace, List.flatMap_cons, ← replace, List.length_append, List.length_cons]
    split
    · omega
    · rw [List.length_singleton]
      omega

lemma mem_double (h : c ∈ text) (quote : Char) : c ∈ double quote text := by
  refine List.mem_flatMap.mpr ⟨c, h, ?_⟩
  split
  · simp_all
  · simp

lemma length_clip_le (size : Nat) (text : List Char) : (clip size text).length ≤ text.length := by
  induction text generalizing size with
  | nil => exact Nat.le_refl 0
  | cons c text ih =>
    rw [clip]
    split
    · exact Nat.succ_le_succ (ih _)
    · exact Nat.zero_le _

lemma clip_of_le {size : Nat} (h : utf8Length text ≤ size) : clip size text = text := by
  induction text generalizing size with
  | nil => rfl
  | cons c text ih =>
    rw [utf8Length] at h
    rw [clip, if_pos (by omega), ih (by omega)]

lemma utf8Length_le {size : Nat} (h : text.length ≤ (clip size text).length) :
    utf8Length text ≤ size := by
  induction text generalizing size with
  | nil => exact Nat.zero_le _
  | cons c text ih =>
    rw [clip] at h
    split at h
    · have := ih (Nat.le_of_succ_le_succ h)
      rw [utf8Length]
      omega
    · simp at h

end Texts

/-! ### Reading -/

section Reading

variable {keyword} {d : Dialect} {c : Char} {cs body name text rest : List Char}

lemma Ends.nil : Ends [] := by simp [Ends]

lemma Ends.head_ne (h : Ends rest) (hc : c = '`' ∨ c = '"') : rest.head? ≠ some c := by
  intro heq
  rcases hc with rfl | rfl <;> simpa using h _ heq

lemma identifier_quoted :
    d.identifier keyword (d.identifiers.quotation.quote :: text) = some (name, rest) ↔
      ∃ value, d.identifiers.quotation.read 0 text = some (value, rest) ∧ value ≠ [] ∧
        d.identifiers.permitted value = true ∧ d.identifiers.kept value = name := by
  rw [Dialect.identifier.eq_def]
  simp only [if_true]
  cases d.identifiers.quotation.read 0 text with
  | none => simp
  | some p =>
    obtain ⟨value, rest'⟩ := p
    simp only [Option.bind_eq_bind, Option.bind_some, Option.some.injEq, Prod.mk.injEq]
    constructor
    · intro h
      split at h
      · rename_i hp
        cases h
        exact ⟨value, ⟨rfl, rfl⟩, hp.1, hp.2, rfl⟩
      · cases h
    · rintro ⟨_, ⟨rfl, rfl⟩, hne, hp, rfl⟩
      rw [if_pos ⟨hne, hp⟩]

lemma Dialect.ReadsAs.names (h : d.ReadsAs keyword text name) (qualifier : Option (List Char)) :
    d.Names keyword qualifier text name ∧
      d.Names keyword qualifier (qualifierPrefix qualifier ++ text) name :=
  ⟨⟨text, .inl rfl, h⟩, ⟨text, .inr rfl, h⟩⟩

/-- Without a qualifier the text is the identifier. -/
lemma Dialect.Names.readsAs (h : d.Names keyword none text name) : d.ReadsAs keyword text name := by
  obtain ⟨column, heq, h⟩ := h
  have htext : text = column := by simpa [qualifierPrefix] using heq
  rwa [htext]

lemma Dialect.ReadsAs.identifier (h : d.ReadsAs keyword text name) :
    d.identifier keyword text = some (name, []) := by
  have hread := h [] Ends.nil
  rwa [List.append_nil] at hread

/-- The three dialects that put the name between double quotes and lose its backquotes. -/
lemma eq_of_quoted (hquote : d.identifiers.quotation.quote = '"')
    (hescape : d.identifiers.quotation.escape = none) (hcs : cs.length ≤ 1) (hmem : '`' ∉ cs)
    (hle : ∀ value, (d.identifiers.kept value).length ≤ value.length)
    (hkept : ∀ value, value.length ≤ (d.identifiers.kept value).length →
      d.identifiers.kept value = value)
    (h : d.identifier keyword (['"'] ++ replace '`' cs name ++ ['"']) = some (name, [])) :
    name ≠ [] ∧ '"' ∉ name ∧ '`' ∉ name ∧ d.identifiers.permitted name = true ∧
      name.length ≤ (d.identifiers.kept name).length := by
  rw [List.append_assoc, List.singleton_append, ← hquote] at h
  obtain ⟨value, hread, hne, hpermitted, hname⟩ := identifier_quoted.mp h
  have hshort : d.identifiers.quotation.Shortens := by simp [Shortens, hescape]
  have hlength : (replace '`' cs name).length ≤ (d.identifiers.kept value).length :=
    hname ▸ length_replace_le hcs
  obtain ⟨hvalue, hq⟩ := eq_of_read hshort (by simp [hquote]) hread
    (Nat.le_trans hlength (hle value))
  have hsame : d.identifiers.kept value = value := hkept value (hvalue ▸ hlength)
  obtain rfl : name = value := hname.symm.trans hsame
  rw [hquote, ← hvalue] at hq
  refine ⟨hne, hq, ?_, hpermitted, Nat.le_of_eq (congrArg List.length hsame.symm)⟩
  rw [hvalue]
  exact not_mem_replace hmem

lemma quoted_readsAs (hquote : d.identifiers.quotation.quote = '"')
    (hescape : d.identifiers.quotation.escape = none) (hne : name ≠ []) (hq : '"' ∉ name)
    (hbackquote : '`' ∉ name) (hpermitted : d.identifiers.permitted name = true)
    (hkept : d.identifiers.kept name = name) :
    d.ReadsAs keyword (['"'] ++ replace '`' cs name ++ ['"']) name := by
  intro rest hrest
  rw [replace_of_not_mem hbackquote, List.append_assoc, List.append_assoc, List.singleton_append,
    List.singleton_append, ← hquote]
  refine identifier_quoted.mpr ⟨name, ?_, hne, hpermitted, hkept⟩
  refine read_plain (by rwa [hquote]) (by simp [Plain, hescape]) fun _ => ?_
  rw [hquote]
  exact hrest.head_ne (.inr rfl)

end Reading

/-! ### The dialects -/

section Dialects

variable {keyword} {d : Dialect} {name : List Char}

/-- For the dialects with the trait's `getAttributeName`. -/
lemma keepsName_ofQuote {quote maybeQuote : List Char → List Char}
    (hd : d.mbDialect = .ofQuote quote maybeQuote) :
    d.KeepsName keyword name ↔ d.ReadsAs keyword (quote name) name := by
  unfold Dialect.KeepsName
  rw [hd]
  constructor
  · intro h
    exact (h none).1.readsAs
  · intro h qualifier
    exact ⟨(h.names qualifier).2, (h.names qualifier).2⟩

lemma keepsName_clickHouse : Dialect.clickHouse.KeepsName keyword name ↔
    Dialect.clickHouse.ReadsAs keyword (ClickHouse.maybeQuote name) name ∧
      Dialect.clickHouse.ReadsAs keyword (ClickHouse.quote name) name := by
  constructor
  · intro h
    exact ⟨(h none).1.readsAs, (h none).2.readsAs⟩
  · intro h qualifier
    exact ⟨(h.1.names qualifier).1, (h.2.names qualifier).2⟩

lemma mySQL_readsAs : Dialect.mySQL.ReadsAs keyword (mbMySQLDialect.quote name) name ↔
    Dialect.mySQL.Quotable keyword name := by
  have hpermitted : Dialect.mySQL.identifiers.permitted name = true ↔
      ∀ c ∈ name, 0 < c.toNat ∧ c.toNat < 0x10000 := by
    simp [Dialect.identifiers]
  have hread {rest : List Char} (hrest : Ends rest) :
      Dialect.mySQL.identifiers.quotation.read 0 (double '`' name ++ '`' :: rest) =
        some (name, rest) :=
    read_double rfl (by simp [Plain, Dialect.identifiers]) (hrest.head_ne (.inl rfl))
  constructor
  · intro h
    have hident := h.identifier
    obtain ⟨value, hvalue, hne, hp, -⟩ := identifier_quoted.mp hident
    obtain rfl : value = name := by
      have := hvalue.symm.trans (hread Ends.nil)
      simpa using this
    exact ⟨hne, hpermitted.mp hp⟩
  · rintro ⟨hne, hp⟩ rest hrest
    have htext : mbMySQLDialect.quote name ++ rest = '`' :: (double '`' name ++ '`' :: rest) := by
      simp [mbMySQLDialect, MbDialect.ofQuote, double]
    rw [htext]
    exact identifier_quoted.mpr ⟨name, hread hrest, hne, hpermitted.mpr hp, rfl⟩

lemma oracle_readsAs : Dialect.oracle.ReadsAs keyword (mbOracleDialect.quote name) name ↔
    Dialect.oracle.Quotable keyword name := by
  have hpermitted : Dialect.oracle.identifiers.permitted name = true ↔
      ∀ c ∈ name, 0 < c.toNat := by
    simp [Dialect.identifiers]
  constructor
  · intro h
    obtain ⟨hne, hq, hbackquote, hp, -⟩ := eq_of_quoted rfl rfl (by decide) (by decide)
      (fun _ => Nat.le_refl _) (fun _ _ => rfl) h.identifier
    exact ⟨hne, hq, hbackquote, hpermitted.mp hp⟩
  · rintro ⟨hne, hq, hbackquote, hp⟩
    exact quoted_readsAs rfl rfl hne hq hbackquote (hpermitted.mpr hp) rfl

lemma presto_readsAs : Dialect.presto.ReadsAs keyword (mbPrestoDialect.quote name) name ↔
    Dialect.presto.Quotable keyword name := by
  constructor
  · intro h
    obtain ⟨hne, hq, hbackquote, -, -⟩ := eq_of_quoted rfl rfl (by decide) (by decide)
      (fun _ => Nat.le_refl _) (fun _ _ => rfl) h.identifier
    exact ⟨hne, hq, hbackquote⟩
  · rintro ⟨hne, hq, hbackquote⟩
    exact quoted_readsAs rfl rfl hne hq hbackquote rfl rfl

lemma postgres_readsAs : Dialect.postgres.ReadsAs keyword (mbPostgresDialect.quote name) name ↔
    Dialect.postgres.Quotable keyword name := by
  have hpermitted : Dialect.postgres.identifiers.permitted name = true ↔
      ∀ c ∈ name, 0 < c.toNat := by
    simp [Dialect.identifiers]
  constructor
  · intro h
    obtain ⟨hne, hq, hbackquote, hp, hlength⟩ := eq_of_quoted (d := .postgres) rfl rfl
      (by decide) (by decide) (length_clip_le 63) (fun _ h => clip_of_le (utf8Length_le h))
      h.identifier
    exact ⟨hne, hq, hbackquote, hpermitted.mp hp, utf8Length_le hlength⟩
  · rintro ⟨hne, hq, hbackquote, hp, hlength⟩
    exact quoted_readsAs rfl rfl hne hq hbackquote (hpermitted.mpr hp) (clip_of_le hlength)

/-- What is between single quotes is a literal. -/
lemma not_sqlServer_readsAs :
    ¬ Dialect.sqlServer.ReadsAs keyword (mbSqlServerDialect.quote name) name := by
  intro h
  have hident := h.identifier
  simp [mbSqlServerDialect, MbDialect.ofQuote, Dialect.identifier, Dialect.identifiers] at hident

/-! ### ClickHouse -/

lemma ClickHouse.shortens : Dialect.clickHouse.identifiers.quotation.Shortens := by
  rintro _ ⟨rfl⟩ text
  unfold ClickHouse.escape
  split <;> simp

lemma clickHouse_quote_readsAs (hne : name ≠ []) :
    Dialect.clickHouse.ReadsAs keyword (ClickHouse.quote name) name ↔ '\\' ∉ name := by
  have htext {rest : List Char} :
      ClickHouse.quote name ++ rest = '`' :: (double '`' name ++ '`' :: rest) := by
    simp [ClickHouse.quote, double]
  constructor
  · intro h hmem
    have hident := h.identifier
    rw [← List.append_nil (ClickHouse.quote name), htext] at hident
    obtain ⟨value, hread, -, -, rfl⟩ := identifier_quoted.mp hident
    have hweighs := (read_weighs ClickHouse.shortens (by decide) hread).2 rfl (mem_double hmem '`')
    have hlength := double_length '`' value
    have hcount := double_count '`' value
    simp only [Dialect.identifiers] at hweighs
    omega
  · intro hmem rest hrest
    rw [htext]
    refine identifier_quoted.mpr ⟨name, ?_, hne, rfl, rfl⟩
    exact read_double rfl (fun _ => hmem) (hrest.head_ne (.inl rfl))

lemma all_isWord (h : isRegular name = true) : name.all isWord = true ∧ name.head? ≠ some '`' := by
  cases name with
  | nil => cases h
  | cons c name =>
    rw [isRegular, Bool.and_eq_true] at h
    have hword : isWord c = true := by
      have := h.1
      simp only [isLetter, isWord, Char.isAlphanum, Bool.or_eq_true] at this ⊢
      tauto
    refine ⟨by rw [List.all_cons, hword, h.2]; rfl, fun hc => ?_⟩
    obtain rfl : c = '`' := by simpa using hc
    exact absurd h.1 (by decide)

lemma clickHouse_bare_readsAs : Dialect.clickHouse.ReadsAs keyword name name ↔
    isRegular name = true ∧ keyword name = false := by
  constructor
  · intro h
    have hident := h.identifier
    cases name with
    | nil => cases hident
    | cons c name =>
      by_cases hc : c = '`'
      · -- the quotes themselves are not read as a part of the name
        subst hc
        obtain ⟨value, hread, -, -, hvalue⟩ := identifier_quoted.mp hident
        obtain rfl : value = '`' :: name := hvalue
        obtain ⟨skipped, body, hname, -, hweighs⟩ :=
          read_weighs_skip ClickHouse.shortens (by decide) hread
        have hlength := hweighs.1
        rw [hname] at hlength
        simp only [List.length_cons, List.length_append] at hlength
        omega
      · simp only [Dialect.identifier, Dialect.identifiers, if_neg hc] at hident
        split at hident
        · rename_i hword
          obtain ⟨htake, -⟩ := Prod.mk.inj (Option.some.inj hident)
          rwa [htake] at hword
        · cases hident
  · rintro ⟨hregular, hkeyword⟩ rest hrest
    obtain ⟨hall, hhead⟩ := all_isWord hregular
    have hstop : rest.takeWhile isWord = [] ∧ rest.dropWhile isWord = rest := by
      cases rest with
      | nil => exact ⟨rfl, rfl⟩
      | cons c rest =>
        rcases hrest c rfl with rfl | rfl | rfl <;> exact ⟨rfl, rfl⟩
    have htake : (name ++ rest).takeWhile isWord = name := by
      rw [List.takeWhile_append_of_pos (List.all_eq_true.mp hall), hstop.1, List.append_nil]
    have hdrop : (name ++ rest).dropWhile isWord = rest := by
      rw [List.dropWhile_append_of_pos (List.all_eq_true.mp hall), hstop.2]
    cases name with
    | nil => cases hregular
    | cons c name =>
      have hc : c ≠ '`' := fun hc => hhead (by rw [hc]; rfl)
      rw [List.cons_append] at htake hdrop ⊢
      simp only [Dialect.identifier, Dialect.identifiers, if_neg hc, htake, hdrop]
      rw [if_pos ⟨hregular, hkeyword⟩]

lemma clickHouse_keepsName : Dialect.clickHouse.KeepsName keyword name ↔
    Dialect.clickHouse.Quotable keyword name := by
  have hcontains : (name.contains '#' || name.contains '(') = true ↔ '#' ∈ name ∨ '(' ∈ name := by
    simp
  rw [keepsName_clickHouse, ClickHouse.maybeQuote, Dialect.Quotable]
  by_cases hmark : '#' ∈ name ∨ '(' ∈ name
  · have hne : name ≠ [] := by
      rintro rfl
      simp at hmark
    rw [if_pos (hcontains.mpr hmark), if_pos hmark, and_self]
    exact clickHouse_quote_readsAs hne
  · rw [if_neg (fun h => hmark (hcontains.mp h)), if_neg hmark, clickHouse_bare_readsAs]
    refine ⟨fun h => h.1, fun h => ⟨h, ?_⟩⟩
    have hword := (all_isWord h.1).1
    refine (clickHouse_quote_readsAs ?_).mpr fun hmem => ?_
    · rintro rfl
      cases h.1
    · exact absurd (List.all_eq_true.mp hword _ hmem) (by decide)

end Dialects

lemma keepsName_iff (d : Dialect) (name : List Char) :
    d.KeepsName keyword name ↔ d.Quotable keyword name := by
  cases d with
  | mySQL => exact (keepsName_ofQuote rfl).trans mySQL_readsAs
  | oracle => exact (keepsName_ofQuote rfl).trans oracle_readsAs
  | sqlServer => exact (keepsName_ofQuote rfl).trans (iff_false_intro not_sqlServer_readsAs)
  | postgres => exact (keepsName_ofQuote rfl).trans postgres_readsAs
  | presto => exact (keepsName_ofQuote rfl).trans presto_readsAs
  | clickHouse => exact clickHouse_keepsName

/-- The columns of a query keep their names, whatever words are keywords, if and only if the
dialect's quotes fit each of them. -/
theorem keepsNames_iff (d : Dialect) (names : List (List Char)) :
    d.KeepsNames keyword names ↔ ∀ name ∈ names, d.Quotable keyword name := by
  constructor
  · rintro ⟨hkeeps, -⟩ name hname
    exact (keepsName_iff keyword d name).mp (hkeeps name hname)
  · intro h
    have hkeeps : ∀ name ∈ names, d.KeepsName keyword name := fun name hname =>
      (keepsName_iff keyword d name).mpr (h name hname)
    refine ⟨hkeeps, fun name hname name' hname' heq => ?_⟩
    have hread := (hkeeps name hname none).1.readsAs.identifier
    have hread' := (hkeeps name' hname' none).1.readsAs.identifier
    rw [hread, hread'] at heq
    exact (Prod.mk.inj (Option.some.inj heq)).1

/-- SQL Server takes the column `a` for a text. -/
theorem keepsNames_fails :
    ¬ ∀ (d : Dialect) (names : List (List Char)), d.KeepsNames (fun _ => false) names := by
  intro h
  exact not_sqlServer_readsAs (((h .sqlServer [['a']]).1 ['a'] (by simp) none).1.readsAs)

end Moonbox.SqlBuilder
