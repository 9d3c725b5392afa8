import Moonbox.Lib.JavaStrings
import Moonbox.Lib.Peg
import Mathlib.Data.List.Perm.Subperm
import Mathlib.Data.List.Nodup

/-!
# `EntityComponent`

How the columns with lists and maps are kept as texts.
-/

namespace Moonbox.Catalog

open JavaStrings

/-- `MappedColumnType.base`; `none` where the way back throws. -/
structure MappedColumnType (α : Type) where
  tmap : α → List Char
  tcomap : List Char → Option α

/-! ### The commands of a procedure -/

namespace ProcedureEntityTable

def seqColumnType : MappedColumnType (List (List Char)) where
  tmap seq := [';', ' '].intercalate seq
  tcomap string := some ((split [';', ' '] string).map trim)

/-- A command comes back as it is when it has no separator in it and is trimmed. -/
def IsWhole (cmd : List Char) : Prop := ¬[';', ' '] <:+: cmd ∧ trim cmd = cmd

variable {cmds : List (List Char)} {cmd : List Char}

lemma isWhole_of_mem (h : seqColumnType.tcomap (seqColumnType.tmap cmds) = some cmds)
    (hcmd : cmd ∈ cmds) : IsWhole cmd := by
  rw [← Option.some.inj h] at hcmd
  obtain ⟨piece, hpiece, rfl⟩ := List.mem_map.mp hcmd
  refine ⟨fun hsep => ?_, trim_trim piece⟩
  have htrim := trim_infix piece
  exact not_infix_of_mem_split hpiece (hsep.trans htrim)

lemma tcomap_tmap (hne : cmds ≠ []) (h : ∀ cmd ∈ cmds, IsWhole cmd) :
    seqColumnType.tcomap (seqColumnType.tmap cmds) =
      some (if cmds.length = 1 then cmds else cmds.rdropWhile (·.isEmpty)) := by
  have hpieces := pieces_intercalate (by decide) hne fun cmd hcmd => (h cmd hcmd).1
  have htrim : ∀ cmds' ⊆ cmds, cmds'.map trim = cmds' := fun cmds' hsub =>
    (List.map_congr_left fun cmd hcmd => (h cmd (hsub hcmd)).2).trans (List.map_id _)
  simp only [seqColumnType, split, hpieces]
  split_ifs
  · rw [htrim cmds (List.Subset.refl _)]
  · rw [htrim _ (List.rdropWhile_prefix _ _).subset]

/-- A list of commands is read back as it was stored exactly when it has a command, each of them
is whole, and the last is not empty unless it is the only one. -/
theorem cmdsKept_iff (cmds : List (List Char)) :
    seqColumnType.tcomap (seqColumnType.tmap cmds) = some cmds ↔
      cmds ≠ [] ∧ (∀ cmd ∈ cmds, IsWhole cmd) ∧ (cmds.getLast? = some [] → cmds = [[]]) := by
  constructor
  · intro h
    have hne : cmds ≠ [] := by
      rintro rfl
      exact absurd h (by decide)
    have hwhole : ∀ cmd ∈ cmds, IsWhole cmd := fun cmd hcmd => isWhole_of_mem h hcmd
    refine ⟨hne, hwhole, fun hlast => ?_⟩
    rw [tcomap_tmap hne hwhole, Option.some.injEq] at h
    split_ifs at h with hlength
    · obtain ⟨cmd, rfl⟩ := List.length_eq_one_iff.mp hlength
      simpa using hlast
    · have := List.rdropWhile_eq_self_iff.mp h hne
      rw [List.getLast?_eq_some_getLast hne, Option.some.injEq] at hlast
      simp [hlast] at this
  · rintro ⟨hne, hwhole, hlast⟩
    rw [tcomap_tmap hne hwhole]
    split_ifs with hlength
    · rfl
    · refine congrArg some (List.rdropWhile_eq_self_iff.mpr fun hne' hempty => ?_)
      have hnil : cmds.getLast hne' = [] := by simpa using hempty
      have := hlast (by rw [List.getLast?_eq_some_getLast hne', hnil])
      exact hlength (by rw [this]; rfl)

/-- A literal with a semicolon and a blank in it is torn apart. -/
theorem cmdsKept_fails : ¬ ∀ cmds : List (List Char), cmds ≠ [] → (∀ cmd ∈ cmds, cmd ≠ []) →
    seqColumnType.tcomap (seqColumnType.tmap cmds) = some cmds := by
  intro h
  exact absurd (h ["SELECT 'a; b'".toList] (by decide) (by decide)) (by decide)

end ProcedureEntityTable

/-! ### Properties -/

namespace ParseUtils

open Peg

def keyParser : Peg (List Char) := chars (fun c => c ≠ ' ' && c ≠ '=') 0 none

def quoted (quote : Char) : Peg (List Char) :=
  map (fun r => r.1.2)
    (((char quote).andThen (chars (· ≠ quote) 0 none)).andThen (char quote))

def valueParser : Peg (List Char) := orElse (quoted '\'') (quoted '"')

def delimiterParser : Peg (List Char) :=
  orElse
    (map (fun r => r.1.1 ++ r.1.2 ++ r.2) (((chars (· = ' ') 0 none).andThen
      (chars (· = '=') 1 (some 2))).andThen (chars (· = ' ') 0 none)))
    (chars (· = ' ') 1 none)

def keyValueParser : Peg (List Char × List Char) :=
  map (fun r => (r.1.1, r.2)) ((keyParser.andThen delimiterParser).andThen valueParser)

def separator : Peg (List Char) :=
  map (fun r => r.1 :: r.2) ((char ',').andThen (chars (· = ' ') 0 none))

def propertiesParser : Peg (List (List Char × List Char)) := rep keyValueParser separator

def parseProperties (properties : List Char) : Option (List (List Char × List Char)) :=
  parse propertiesParser properties

variable {text rest taken key value : List Char} {quote : Char}

lemma keyParser_eq_some (h : keyParser text = some (taken, rest)) :
    text = taken ++ rest ∧ ' ' ∉ taken ∧ '=' ∉ taken := by
  obtain ⟨htext, -, htaken, -⟩ := chars_eq_some h
  refine ⟨htext, fun hc => ?_, fun hc => ?_⟩
  · exact absurd (htaken _ hc) (by decide)
  · exact absurd (htaken _ hc) (by decide)

lemma quoted_eq_some (h : quoted quote text = some (value, rest)) :
    text = quote :: value ++ [quote] ++ rest ∧ quote ∉ value := by
  obtain ⟨⟨⟨c, taken⟩, d⟩, hread, rfl⟩ := map_eq_some.mp h
  obtain ⟨text₂, hbody, hclose⟩ := andThen_eq_some.mp hread
  obtain ⟨text₁, hopen, hvalue⟩ := andThen_eq_some.mp hbody
  obtain ⟨rfl, -⟩ := char_eq_some.mp hopen
  obtain ⟨rfl, -⟩ := char_eq_some.mp hclose
  obtain ⟨rfl, -, htaken, -⟩ := chars_eq_some hvalue
  exact ⟨by simp, fun hc => absurd (htaken _ hc) (by simp)⟩

lemma valueParser_eq_some (h : valueParser text = some (value, rest)) :
    ∃ quote, (quote = '\'' ∨ quote = '"') ∧ text = quote :: value ++ [quote] ++ rest ∧
      quote ∉ value := by
  rcases Option.or_eq_some_iff.mp h with h | ⟨-, h⟩
  · exact ⟨'\'', Or.inl rfl, quoted_eq_some h⟩
  · exact ⟨'"', Or.inr rfl, quoted_eq_some h⟩

lemma mem_chars {c : Char} {least : ℕ} {most : Option ℕ}
    (h : chars (· = c) least most text = some (taken, rest)) : ∀ d ∈ taken, d = c := fun d hd => by
  simpa using (chars_eq_some h).2.2.1 d hd

lemma delimiterParser_eq_some (h : delimiterParser text = some (taken, rest)) :
    text = taken ++ rest ∧ taken ≠ [] ∧ ∀ c ∈ taken, c = ' ' ∨ c = '=' := by
  rcases Option.or_eq_some_iff.mp h with h | ⟨-, h⟩
  · obtain ⟨⟨⟨blanks, equals⟩, blanks'⟩, hread, rfl⟩ := map_eq_some.mp h
    obtain ⟨text₂, hread, hafter⟩ := andThen_eq_some.mp hread
    obtain ⟨text₁, hbefore, hequals⟩ := andThen_eq_some.mp hread
    obtain ⟨rfl, -⟩ := chars_eq_some hbefore
    obtain ⟨rfl, hleast, -⟩ := chars_eq_some hequals
    obtain ⟨rfl, -⟩ := chars_eq_some hafter
    refine ⟨by simp, fun hnil => ?_, fun c hc => ?_⟩
    · have : equals = [] := by simp_all
      simp [this] at hleast
    · have hc' : c ∈ blanks ∨ c ∈ equals ∨ c ∈ blanks' := by simpa using hc
      rcases hc' with hc | hc | hc
      · exact Or.inl (mem_chars hbefore c hc)
      · exact Or.inr (mem_chars hequals c hc)
      · exact Or.inl (mem_chars hafter c hc)
  · obtain ⟨htext, hleast, -⟩ := chars_eq_some h
    refine ⟨htext, ?_, fun c hc => Or.inl (mem_chars h c hc)⟩
    rintro rfl
    simp at hleast

/-- What an entry is made of. -/
lemma keyValueParser_eq_some (h : keyValueParser text = some ((key, value), rest)) :
    ∃ delimiter quote, text = key ++ delimiter ++ quote :: value ++ [quote] ++ rest ∧
      (' ' ∉ key ∧ '=' ∉ key) ∧ (delimiter ≠ [] ∧ ∀ c ∈ delimiter, c = ' ' ∨ c = '=') ∧
        (quote = '\'' ∨ quote = '"') ∧ quote ∉ value := by
  obtain ⟨⟨⟨key', delimiter⟩, value'⟩, hread, heq⟩ := map_eq_some.mp h
  obtain ⟨rfl, rfl⟩ := Prod.mk.inj heq
  obtain ⟨text₂, hread, hvalue⟩ := andThen_eq_some.mp hread
  obtain ⟨text₁, hkey, hdelimiter⟩ := andThen_eq_some.mp hread
  obtain ⟨rfl, hnot⟩ := keyParser_eq_some hkey
  obtain ⟨rfl, hd⟩ := delimiterParser_eq_some hdelimiter
  obtain ⟨quote, hquote, rfl, hv⟩ := valueParser_eq_some hvalue
  exact ⟨delimiter, quote, by simp, hnot, hd, hquote, hv⟩

lemma separator_eq_some (h : separator text = some (taken, rest)) :
    text = taken ++ rest ∧ rest.head? ≠ some ' ' ∧ ∀ c ∈ taken, c = ',' ∨ c = ' ' := by
  obtain ⟨⟨comma, blanks⟩, hread, rfl⟩ := map_eq_some.mp h
  obtain ⟨text₁, hcomma, hblanks⟩ := andThen_eq_some.mp hread
  obtain ⟨rfl, rfl⟩ := char_eq_some.mp hcomma
  obtain ⟨rfl, -, -, hrest⟩ := chars_eq_some hblanks
  refine ⟨rfl, fun hhead => ?_, fun c hc => ?_⟩
  · simpa using hrest rfl ' ' hhead
  · rcases List.mem_cons.mp hc with rfl | hc
    · exact Or.inl rfl
    · exact Or.inr (mem_chars hblanks c hc)

/-! What a text has besides the keys and values tells how they were written. -/

/-- The keys and values. -/
def content (entries : List (List Char × List Char)) : List Char :=
  entries.flatMap fun e => e.1 ++ e.2

/-- What stands around the keys and values that were read. -/
structure Marked (entries : List (List Char × List Char)) (marks : List Char) : Prop where
  quotes : marks.count '\'' + marks.count '"' = 2 * entries.length
  keys : ∀ e ∈ entries, ' ' ∉ e.1 ∧ '=' ∉ e.1
  values : '"' ∉ marks → ∀ e ∈ entries, '\'' ∉ e.2

variable {entries : List (List Char × List Char)} {marks between : List Char}

lemma Marked.nil : Marked [] [] := ⟨rfl, by simp, by simp⟩

lemma Marked.cons (h : Marked entries marks) (hkey : ' ' ∉ key ∧ '=' ∉ key)
    (hquote : quote = '\'' ∨ quote = '"') (hvalue : quote ∉ value)
    (hbetween : ∀ c ∈ between, c = ' ' ∨ c = '=' ∨ c = ',') :
    Marked ((key, value) :: entries) (between ++ [quote, quote] ++ marks) where
  quotes := by
    have hno : ∀ c, c = '\'' ∨ c = '"' → between.count c = 0 := fun c hc =>
      List.count_eq_zero.mpr fun hmem => by
        rcases hc with rfl | rfl
        · rcases hbetween _ hmem with h | h | h <;> exact absurd h (by decide)
        · rcases hbetween _ hmem with h | h | h <;> exact absurd h (by decide)
    have := h.quotes
    simp only [List.count_append, hno '\'' (Or.inl rfl), hno '"' (Or.inr rfl), List.length_cons]
    rcases hquote with rfl | rfl
    · simp
      omega
    · simp
      omega
  keys := List.forall_mem_cons.mpr ⟨hkey, h.keys⟩
  values hno := by
    simp only [List.mem_append, not_or] at hno
    refine List.forall_mem_cons.mpr ⟨?_, h.values hno.2⟩
    rcases hquote with rfl | rfl
    · exact hvalue
    · simp at hno

/-- Entries that are read each after a separator. -/
lemma more_marked {bound : ℕ} (h : more keyValueParser separator bound text = (entries, rest)) :
    ∃ marks, text.Perm (content entries ++ marks ++ rest) ∧ Marked entries marks ∧
      ('=' ∉ marks → ∀ e ∈ entries, e.1 ≠ []) := by
  induction bound generalizing text entries with
  | zero =>
    obtain ⟨rfl, rfl⟩ := Prod.mk.inj h
    exact ⟨[], List.Perm.refl _, Marked.nil, by simp⟩
  | succ bound ih =>
    rw [more] at h
    split at h
    case h_1 =>
      obtain ⟨rfl, rfl⟩ := Prod.mk.inj h
      exact ⟨[], List.Perm.refl _, Marked.nil, by simp⟩
    case h_2 sep e rest₁ hread =>
      obtain ⟨key, value⟩ := e
      obtain ⟨text₁, hseparator, hentry⟩ := andThen_eq_some.mp hread
      generalize hmore : more keyValueParser separator bound rest₁ = r at h
      obtain ⟨entries', rest'⟩ := r
      obtain ⟨rfl, rfl⟩ := Prod.mk.inj h
      obtain ⟨marks, hperm, hmarked, hkeys⟩ := ih hmore
      obtain ⟨rfl, hblank, hsep⟩ := separator_eq_some hseparator
      obtain ⟨delimiter, quote, rfl, hkey, ⟨hne, hdelimiter⟩, hquote, hvalue⟩ :=
        keyValueParser_eq_some hentry
      have hbetween : ∀ c ∈ sep ++ delimiter, c = ' ' ∨ c = '=' ∨ c = ',' := fun c hc => by
        rcases List.mem_append.mp hc with hc | hc
        · exact (hsep c hc).elim (fun h => Or.inr (Or.inr h)) Or.inl
        · exact (hdelimiter c hc).imp_right Or.inl
      refine ⟨_, ?_, hmarked.cons hkey hquote hvalue hbetween, fun hno => ?_⟩
      · refine List.perm_iff_count.mpr fun c => ?_
        have := List.perm_iff_count.mp hperm c
        simp only [content, List.flatMap_cons, List.count_append, List.count_cons,
          List.count_nil] at this ⊢
        omega
      · simp only [List.mem_append, not_or] at hno
        refine List.forall_mem_cons.mpr ⟨?_, hkeys hno.2⟩
        -- the separator took the blanks, so only a delimiter with `=` could follow at once
        rintro (rfl : key = [])
        obtain ⟨c, delimiter, rfl⟩ := List.exists_cons_of_ne_nil hne
        rcases hdelimiter c List.mem_cons_self with rfl | rfl
        · exact hblank rfl
        · exact hno.1.1.2 List.mem_cons_self

lemma parseProperties_marked (h : parseProperties text = some entries) :
    ∃ marks, text.Perm (content entries ++ marks) ∧ Marked entries marks ∧
      ('=' ∉ marks → (∀ e ∈ entries.tail, e.1 ≠ []) ∧
        ∀ e ∈ entries.head?, e.1 = [] → text.head? = some ' ') := by
  have hread := parse_eq_some.mp h
  simp only [propertiesParser, rep] at hread
  split at hread
  case h_1 =>
    obtain ⟨rfl, rfl⟩ := Prod.mk.inj (Option.some.inj hread)
    exact ⟨[], List.Perm.refl _, Marked.nil, by simp⟩
  case h_2 e rest₁ hentry =>
    obtain ⟨key, value⟩ := e
    generalize hmore : more keyValueParser separator rest₁.length rest₁ = r at hread
    obtain ⟨entries', rest'⟩ := r
    obtain ⟨rfl, rfl⟩ := Prod.mk.inj (Option.some.inj hread)
    obtain ⟨marks, hperm, hmarked, hkeys⟩ := more_marked hmore
    obtain ⟨delimiter, quote, rfl, hkey, ⟨hne, hdelimiter⟩, hquote, hvalue⟩ :=
      keyValueParser_eq_some hentry
    refine ⟨_, ?_, hmarked.cons hkey hquote hvalue fun c hc => (hdelimiter c hc).imp_right Or.inl,
      fun hno => ?_⟩
    · refine List.perm_iff_count.mpr fun c => ?_
      have := List.perm_iff_count.mp hperm c
      simp only [content, List.flatMap_cons, List.count_append, List.count_cons,
        List.count_nil] at this ⊢
      omega
    · simp only [List.mem_append, not_or] at hno
      refine ⟨hkeys hno.2, ?_⟩
      simp only [List.head?_cons, Option.mem_some_iff, forall_eq']
      rintro (rfl : key = [])
      obtain ⟨c, delimiter, rfl⟩ := List.exists_cons_of_ne_nil hne
      rcases hdelimiter c List.mem_cons_self with rfl | rfl
      · rfl
      · exact absurd List.mem_cons_self hno.1.1

/-! What is written is read. -/

/-- Its key is read to the end, and its value is. -/
def IsPlain (e : List Char × List Char) : Prop := (' ' ∉ e.1 ∧ '=' ∉ e.1) ∧ '\'' ∉ e.2

def spelled (e : List Char × List Char) : List Char := e.1 ++ [' ', '\''] ++ e.2 ++ ['\'']

lemma keyParser_append (hkey : ' ' ∉ key ∧ '=' ∉ key) :
    keyParser (key ++ ' ' :: rest) = some (key, ' ' :: rest) := by
  refine chars_append (fun c hc => ?_) (Nat.zero_le _) (by simp)
  have hblank : c ≠ ' ' := fun h => hkey.1 (h ▸ hc)
  have hequals : c ≠ '=' := fun h => hkey.2 (h ▸ hc)
  simp [hblank, hequals]

lemma delimiterParser_blank :
    delimiterParser (' ' :: '\'' :: rest) = some ([' '], '\'' :: rest) := by
  have hblank : ∀ least ≤ 1,
      chars (· = ' ') least none (' ' :: '\'' :: rest) = some ([' '], '\'' :: rest) :=
    fun least hleast =>
      have hone : ∀ c ∈ [' '], decide (c = ' ') = true := by simp
      chars_append hone hleast (by simp)
  have hequals : chars (· = '=') 1 (some 2) ('\'' :: rest) = none :=
    chars_eq_none Nat.one_pos (by simp)
  refine (orElse_right (map_eq_none ?_)).trans (hblank 1 le_rfl)
  simp [andThen, hblank 0 (Nat.zero_le 1), hequals]

lemma valueParser_quoted (hvalue : '\'' ∉ value) :
    valueParser ('\'' :: value ++ '\'' :: rest) = some (value, rest) := by
  have hchars : chars (· ≠ '\'') 0 none (value ++ '\'' :: rest) = some (value, '\'' :: rest) :=
    chars_append (fun c hc => by simpa using fun h : c = '\'' => hvalue (h ▸ hc)) (Nat.zero_le _)
      (by simp)
  refine orElse_left (map_eq_some.mpr ⟨(('\'', value), '\''), ?_, rfl⟩)
  refine andThen_eq_some.mpr ⟨'\'' :: rest, ?_, char_eq_some.mpr ⟨rfl, rfl⟩⟩
  exact andThen_eq_some.mpr ⟨value ++ '\'' :: rest, char_eq_some.mpr ⟨rfl, rfl⟩, hchars⟩

lemma keyValueParser_spelled {e : List Char × List Char} (he : IsPlain e) (rest : List Char) :
    keyValueParser (spelled e ++ rest) = some (e, rest) := by
  have htext : spelled e ++ rest = e.1 ++ ' ' :: '\'' :: (e.2 ++ '\'' :: rest) := by
    simp [spelled]
  rw [htext]
  refine map_eq_some.mpr ⟨((e.1, [' ']), e.2), ?_, rfl⟩
  refine andThen_eq_some.mpr ⟨'\'' :: e.2 ++ '\'' :: rest, ?_, valueParser_quoted he.2⟩
  exact andThen_eq_some.mpr ⟨_, keyParser_append he.1, delimiterParser_blank⟩

lemma separator_append (h : text.head? ≠ some ' ') :
    separator (',' :: ' ' :: text) = some ([',', ' '], text) := by
  refine map_eq_some.mpr ⟨(',', [' ']), ?_, rfl⟩
  refine andThen_eq_some.mpr ⟨' ' :: text, char_eq_some.mpr ⟨rfl, rfl⟩, ?_⟩
  have hone : ∀ c ∈ [' '], decide (c = ' ') = true := by simp
  refine chars_append hone (Nat.zero_le _) fun c hc => ?_
  simpa using fun hblank : c = ' ' => h (hblank ▸ hc)

lemma head?_spelled {e : List Char × List Char} (he : IsPlain e) (hne : e.1 ≠ []) :
    (spelled e ++ rest).head? ≠ some ' ' := by
  obtain ⟨c, key, hkey⟩ := List.exists_cons_of_ne_nil hne
  have hblank := he.1.1
  simp only [spelled, hkey, List.mem_cons, not_or] at hblank ⊢
  simpa using fun h : c = ' ' => hblank.1 h.symm

/-- The entries but the first. -/
def following (entries : List (List Char × List Char)) : List Char :=
  entries.flatMap fun e => [',', ' '] ++ spelled e

lemma more_following {bound : ℕ} (hbound : entries.length ≤ bound)
    (h : ∀ e ∈ entries, IsPlain e ∧ e.1 ≠ []) :
    more keyValueParser separator bound (following entries) = (entries, []) := by
  induction entries generalizing bound with
  | nil =>
    cases bound with
    | zero => rfl
    | succ bound => simp [more, following, andThen, separator, map, char]
  | cons e entries ih =>
    obtain ⟨bound, rfl⟩ := Nat.exists_eq_add_of_le' (Nat.one_le_of_lt hbound)
    rw [List.forall_mem_cons] at h
    have htext : following (e :: entries) = ',' :: ' ' :: (spelled e ++ following entries) := by
      simp [following]
    have hread : (separator.andThen keyValueParser) (following (e :: entries)) =
        some (([',', ' '], e), following entries) := by
      rw [htext]
      exact andThen_eq_some.mpr ⟨_, separator_append (head?_spelled h.1.1 h.1.2),
        keyValueParser_spelled h.1.1 _⟩
    simp [more, hread, ih (Nat.le_of_succ_le_succ hbound) h.2]

lemma length_le_following : entries.length ≤ (following entries).length := by
  induction entries with
  | nil => simp
  | cons e entries ih =>
    simp [following] at ih ⊢
    omega

lemma parseProperties_spelled {e : List Char × List Char} (he : IsPlain e)
    (h : ∀ e ∈ entries, IsPlain e ∧ e.1 ≠ []) :
    parseProperties (spelled e ++ following entries) = some (e :: entries) := by
  refine parse_eq_some.mpr ?_
  simp [propertiesParser, rep, keyValueParser_spelled he, more_following length_le_following h]

end ParseUtils

/-- A `Map[String, String]`, in the order of its iterator. -/
structure PropertyMap where
  entries : List (List Char × List Char)
  nodup : (entries.map Prod.fst).Nodup

namespace PropertyMap

def get (map : PropertyMap) (key : List Char) : Option (List Char) :=
  (map.entries.find? fun e => e.1 = key).map Prod.snd

def empty : PropertyMap := ⟨[], List.nodup_nil⟩

lemma map_fst_replace {e : List Char × List Char} {entries : List (List Char × List Char)} :
    (entries.map fun e' => if e'.1 = e.1 then e else e').map Prod.fst = entries.map Prod.fst := by
  rw [List.map_map]
  refine List.map_congr_left fun e' _ => ?_
  by_cases h : e'.1 = e.1
  · simp [h]
  · simp [h]

/-- `map + (key -> value)` -/
def put (map : PropertyMap) (e : List Char × List Char) : PropertyMap :=
  if h : e.1 ∈ map.entries.map Prod.fst then
    ⟨map.entries.map fun e' => if e'.1 = e.1 then e else e', by
      rw [map_fst_replace]
      exact map.nodup⟩
  else
    ⟨map.entries ++ [e], by
      rw [List.map_append, List.map_singleton, ← List.concat_eq_append]
      exact map.nodup.concat h⟩

def toMap (entries : List (List Char × List Char)) : PropertyMap := entries.foldl put empty

variable {map : PropertyMap} {e : List Char × List Char} {key value : List Char}
  {entries : List (List Char × List Char)}

lemma get_eq_some : map.get key = some value ↔ (key, value) ∈ map.entries := by
  constructor
  · intro h
    obtain ⟨e, he, rfl⟩ := Option.map_eq_some_iff.mp h
    obtain rfl : e.1 = key := by simpa using List.find?_some he
    exact List.mem_of_find?_eq_some he
  · intro h
    obtain ⟨e, he⟩ : ∃ e, map.entries.find? (fun e => e.1 = key) = some e :=
      Option.isSome_iff_exists.mp (List.find?_isSome.mpr ⟨_, h, by simp⟩)
    have hkey : e.1 = key := by simpa using List.find?_some he
    have heq : e = (key, value) :=
      List.inj_on_of_nodup_map map.nodup (List.mem_of_find?_eq_some he) h hkey
    simp [get, he, heq]

lemma mem_put {e' : List Char × List Char} (h : e' ∈ (map.put e).entries) :
    e' ∈ map.entries ∨ e' = e := by
  unfold put at h
  split_ifs at h
  · obtain ⟨e'', he'', rfl⟩ := List.mem_map.mp h
    split_ifs
    · exact Or.inr rfl
    · exact Or.inl he''
  · simpa using h

lemma mem_foldl_put {e' : List Char × List Char} (h : e' ∈ (entries.foldl put map).entries) :
    e' ∈ map.entries ∨ e' ∈ entries := by
  induction entries generalizing map with
  | nil => exact Or.inl h
  | cons e entries ih =>
    rcases ih h with h | h
    · exact (mem_put h).imp_right fun (h : e' = e) => h ▸ List.mem_cons_self
    · exact Or.inr (List.mem_cons_of_mem e h)

lemma mem_toMap (h : e ∈ (toMap entries).entries) : e ∈ entries :=
  (mem_foldl_put h).resolve_left (by simp [empty])

lemma entries_foldl_put (h : ((map.entries ++ entries).map Prod.fst).Nodup) :
    (entries.foldl put map).entries = map.entries ++ entries := by
  induction entries generalizing map with
  | nil => simp
  | cons e entries ih =>
    have hnot : e.1 ∉ map.entries.map Prod.fst := by
      rw [List.map_append, List.map_cons] at h
      exact fun hmem => List.disjoint_of_nodup_append h hmem List.mem_cons_self
    have hput : (map.put e).entries = map.entries ++ [e] := by simp only [put, dif_neg hnot]
    rw [List.foldl_cons, ih (by rwa [hput, List.append_assoc, List.singleton_append]), hput,
      List.append_assoc, List.singleton_append]

lemma toMap_entries (map : PropertyMap) : (toMap map.entries).entries = map.entries :=
  @entries_foldl_put empty map.entries map.nodup

end PropertyMap

open ParseUtils

def mapColumnType : MappedColumnType PropertyMap where
  tmap map := [',', ' '].intercalate (map.entries.map fun (key, value) =>
    key ++ [' ', '\''] ++ value ++ ['\''])
  tcomap string := (parseProperties string).map PropertyMap.toMap

/-- The map that is read has the same values. -/
def KeepsProperties (map : PropertyMap) : Prop :=
  ∃ map', mapColumnType.tcomap (mapColumnType.tmap map) = some map' ∧
    ∀ key, map'.get key = map.get key

variable {map : PropertyMap} {entries : List (List Char × List Char)}
  {e : List Char × List Char}

lemma tcomap_eq (string : List Char) :
    mapColumnType.tcomap string = (parseProperties string).map PropertyMap.toMap := by
  rw [mapColumnType]

lemma tmap_eq (h : map.entries = e :: entries) :
    mapColumnType.tmap map = spelled e ++ following entries := by
  have hspelled : mapColumnType.tmap map = [',', ' '].intercalate (map.entries.map spelled) := rfl
  rw [hspelled, h]
  clear hspelled h
  induction entries generalizing e with
  | nil => simp [following]
  | cons e' entries ih =>
    rw [List.map_cons, List.map_cons, List.intercalate_cons_cons, ← List.map_cons, ih]
    simp [following]

/-- What the entries are written with. -/
lemma following_marks (entries : List (List Char × List Char)) :
    ∃ marks, (following entries).Perm (content entries ++ marks) ∧ '=' ∉ marks ∧ '"' ∉ marks ∧
      marks.count '\'' = 2 * entries.length := by
  induction entries with
  | nil => exact ⟨[], List.Perm.refl _, by simp, by simp, rfl⟩
  | cons e entries ih =>
    obtain ⟨marks, hperm, hequals, hdouble, hsingle⟩ := ih
    refine ⟨[',', ' ', ' ', '\'', '\''] ++ marks, ?_, by simp [hequals], by simp [hdouble], ?_⟩
    · refine List.perm_iff_count.mpr fun c => ?_
      have := List.perm_iff_count.mp hperm c
      simp only [following, content, spelled, List.flatMap_cons, List.count_append,
        List.count_cons, List.count_nil] at this ⊢
      omega
    · simp [hsingle]
      omega

lemma tmap_marks (map : PropertyMap) :
    ∃ marks, (mapColumnType.tmap map).Perm (content map.entries ++ marks) ∧ '=' ∉ marks ∧
      '"' ∉ marks ∧ marks.count '\'' = 2 * map.entries.length := by
  cases h : map.entries with
  | nil =>
    refine ⟨[], ?_, by simp, by simp, rfl⟩
    simp [mapColumnType, h, content]
  | cons e entries =>
    obtain ⟨marks, hperm, hequals, hdouble, hsingle⟩ := following_marks entries
    refine ⟨[' ', '\'', '\''] ++ marks, ?_, by simp [hequals], by simp [hdouble], ?_⟩
    · rw [tmap_eq h]
      refine List.perm_iff_count.mpr fun c => ?_
      have := List.perm_iff_count.mp hperm c
      simp only [content, spelled, List.flatMap_cons, List.count_append,
        List.count_cons, List.count_nil] at this ⊢
      omega
    · simp [hsingle]
      omega

/-- The entries are the ones that were stored, written as they were: counting shows that none is
left over and that no other quote or `=` was used. -/
lemma perm_of_keeps {marks marks' : List Char} (hsub : map.entries ⊆ entries)
    (hperm : (mapColumnType.tmap map).Perm (content map.entries ++ marks))
    (hdouble : '"' ∉ marks) (hsingle : marks.count '\'' = 2 * map.entries.length)
    (hperm' : (mapColumnType.tmap map).Perm (content entries ++ marks'))
    (hmarked : Marked entries marks') :
    map.entries.Perm entries ∧ '"' ∉ marks' ∧ ∀ c, marks.count c = marks'.count c := by
  obtain ⟨others, hothers⟩ : ∃ others, entries.Perm (map.entries ++ others) := by
    obtain ⟨part, hpart, hsublist⟩ := (map.nodup.of_map Prod.fst).subperm hsub
    obtain ⟨others, h⟩ := hsublist.exists_perm_append
    exact ⟨others, h.trans (hpart.append_right others)⟩
  have hcount : ∀ c, (content map.entries).count c + marks.count c =
      (content map.entries).count c + (content others).count c + marks'.count c := fun c => by
    have h := List.perm_iff_count.mp (hperm.symm.trans hperm') c
    have hcontent : (content entries).count c =
        (content map.entries).count c + (content others).count c := by
      have := (hothers.flatMap_right fun e => e.1 ++ e.2).count_eq c
      simpa [content] using this
    simpa [hcontent] using h
  have hnone : marks.count '"' = 0 := List.count_eq_zero.mpr hdouble
  have hlength : entries.length = map.entries.length + others.length := by
    simpa using hothers.length_eq
  have hquotes := hmarked.quotes
  have h₁ := hcount '"'
  have h₂ := hcount '\''
  have hothers' : others = [] := List.eq_nil_of_length_eq_zero (by omega)
  subst hothers'
  refine ⟨by simpa using hothers.symm, List.count_eq_zero.mp (by omega), fun c => ?_⟩
  simpa [content] using hcount c

/-- Properties are read back as they were stored exactly when no key has a blank or an equals sign
in it, no value has a single quote, and only the first key may be empty. -/
theorem propertiesKept_iff (map : PropertyMap) : KeepsProperties map ↔
    (∀ e ∈ map.entries, IsPlain e) ∧ ∀ e ∈ map.entries.tail, e.1 ≠ [] := by
  constructor
  · rintro ⟨map', hread, hget⟩
    rw [tcomap_eq] at hread
    obtain ⟨entries, hparse, rfl⟩ := Option.map_eq_some_iff.mp hread
    obtain ⟨marks, hperm, hequals, hdouble, hsingle⟩ := tmap_marks map
    obtain ⟨marks', hperm', hmarked, hkeys⟩ := parseProperties_marked hparse
    have hsub : map.entries ⊆ entries := fun e he => by
      refine PropertyMap.mem_toMap (PropertyMap.get_eq_some.mp ?_)
      rw [hget]
      exact PropertyMap.get_eq_some.mpr he
    obtain ⟨hentries, hdouble', hmarks⟩ :=
      perm_of_keeps hsub hperm hdouble hsingle hperm' hmarked
    have hplain : ∀ e ∈ map.entries, IsPlain e := fun e he =>
      ⟨hmarked.keys e (hsub he), hmarked.values hdouble' e (hsub he)⟩
    have hequals' : '=' ∉ marks' := by
      rw [← List.count_eq_zero, ← hmarks, List.count_eq_zero]
      exact hequals
    obtain ⟨htail, hhead⟩ := hkeys hequals'
    refine ⟨hplain, fun e he hempty => ?_⟩
    cases hmap : map.entries with
    | nil => simp [hmap] at he
    | cons e₀ rest =>
      rw [hmap, List.tail_cons] at he
      -- an entry with an empty key can only be read first, and then the text begins with a blank
      have hblank : (mapColumnType.tmap map).head? = some ' ' := by
        cases entries with
        | nil => exact absurd (hsub (hmap ▸ List.mem_cons_self)) (List.not_mem_nil)
        | cons f₀ entries =>
          rcases List.mem_cons.mp (hsub (hmap ▸ List.mem_cons_of_mem e₀ he)) with rfl | he'
          · exact hhead e rfl hempty
          · exact absurd hempty (htail e he')
      have hnodup := map.nodup
      rw [hmap, List.map_cons, List.nodup_cons] at hnodup
      rw [tmap_eq hmap] at hblank
      have hne : e₀.1 ≠ [] := fun h => hnodup.1 (h ▸ hempty ▸ List.mem_map_of_mem he)
      exact head?_spelled (hplain e₀ (hmap ▸ List.mem_cons_self)) hne hblank
  · rintro ⟨hplain, htail⟩
    cases h : map.entries with
    | nil =>
      refine ⟨PropertyMap.empty, ?_, fun key => by simp [PropertyMap.get, h, PropertyMap.empty]⟩
      have hread : parseProperties [] = some [] := by decide
      simp [mapColumnType, h, hread, PropertyMap.toMap]
    | cons e entries =>
      rw [h] at hplain htail
      rw [List.forall_mem_cons] at hplain
      refine ⟨PropertyMap.toMap map.entries, ?_, fun key => ?_⟩
      · have hread := parseProperties_spelled hplain.1 fun e he => ⟨hplain.2 e he, htail e he⟩
        rw [tmap_eq h, h]
        simp [mapColumnType, hread]
      · simp [PropertyMap.get, PropertyMap.toMap_entries]

/-- A quote in a value ends it, and what follows is no list of properties. -/
theorem propertiesKept_fails : ¬ ∀ map, KeepsProperties map := by
  intro h
  obtain ⟨map', hread, -⟩ := h ⟨[("password".toList, "it's".toList)], by simp⟩
  exact absurd (Option.isSome_iff_exists.mpr ⟨map', hread⟩) (by decide)

end Moonbox.Catalog
