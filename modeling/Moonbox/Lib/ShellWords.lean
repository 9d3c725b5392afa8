import Mathlib.Data.List.Basic
import Mathlib.Tactic.Lemma

/-!
# Words of a shell

How a POSIX shell reads a text as one simple command, with quotes, line continuations and comments.
Where the text has operators or expansions, where a quote stays open, or where it goes on after the
command, it is not read as one command of literal words.
-/

namespace ShellWords

/-! ### Characters -/

def isBlank (c : Char) : Bool := c = ' ' || c = '\t'

/-- Characters that every shell takes literally. -/
def isPlain (c : Char) : Bool := c.isAlphanum || ['-', '.', '/', '_'].contains c

/-- What is no literal character of a word when it is not quoted. -/
def operators : List Char := ['|', '&', ';', '<', '>', '(', ')', '$', '`', '*', '?', '[']

/-- A shell may take further characters as its own, as braces are. -/
structure Shell where
  expands : Char → Bool
  keeps : ∀ c, isPlain c = true → expands c = false

def Shell.posix : Shell := ⟨fun _ => false, fun _ _ => rfl⟩

/-! ### Reading -/

/-- Before the first word of the command, in the command, and after the end of its line. -/
inductive Place
  | start
  | between
  | after
  deriving DecidableEq

/-- What has been read of the word at hand, and how the next character is quoted. -/
inductive Mode
  | unquoted (place : Place) (word : Option (List Char))
  | escaped (place : Place) (word : Option (List Char))
  | comment (place : Place)
  | single (word : List Char)
  | double (word : List Char)
  | doubleEscaped (word : List Char)

/-- The word at hand, if one has begun. -/
def Mode.current : Mode → Option (List Char)
  | unquoted _ word => word
  | escaped _ word => word
  | comment _ => none
  | single word => some word
  | double word => some word
  | doubleEscaped word => some word

/-- The command has ended and no word can follow. -/
def Mode.Over (mode : Mode) : Prop :=
  mode = unquoted .after none ∨ mode = escaped .after none ∨ mode = comment .after

def emit (word : Option (List Char)) (words : Option (List (List Char))) :
    Option (List (List Char)) :=
  words.map (word.toList ++ ·)

def Mode.finish : Mode → Option (List (List Char))
  | unquoted _ word => some word.toList
  | comment _ => some []
  | escaped _ _ => none
  | single _ => none
  | double _ => none
  | doubleEscaped _ => none

/-- A line that has no word ends no command. -/
def Place.newline : Place → Option (List Char) → Place
  | start, none => start
  | _, _ => after

def Place.blank : Place → Option (List Char) → Place
  | place, none => place
  | _, some _ => between

variable (s : Shell)

def read : Mode → List Char → Option (List (List Char))
  | mode, [] => mode.finish
  | mode, c :: text =>
    if c = '\x00' then none
    else match mode with
    | .unquoted place word =>
      if isBlank c then emit word (read (.unquoted (place.blank word) none) text)
      else if c = '\n' then emit word (read (.unquoted (place.newline word) none) text)
      else if c = '#' && word.isNone then read (.comment place) text
      else if c = '\\' then read (.escaped place word) text
      else if place = .after then none
      else if c = '\'' then read (.single (word.getD [])) text
      else if c = '"' then read (.double (word.getD [])) text
      else if operators.contains c || s.expands c || (c = '~' && word.isNone) then none
      else read (.unquoted place (some (word.getD [] ++ [c]))) text
    | .escaped place word =>
      if c = '\n' then read (.unquoted place word) text
      else if place = .after then none
      else read (.unquoted place (some (word.getD [] ++ [c]))) text
    | .comment place =>
      if c = '\n' then read (.unquoted (place.newline none) none) text
      else read (.comment place) text
    | .single word =>
      if c = '\'' then read (.unquoted .between (some word)) text
      else read (.single (word ++ [c])) text
    | .double word =>
      if c = '"' then read (.unquoted .between (some word)) text
      else if c = '$' || c = '`' then none
      else if c = '\\' then read (.doubleEscaped word) text
      else read (.double (word ++ [c])) text
    | .doubleEscaped word =>
      if c = '\n' then read (.double word) text
      else if ['$', '`', '"', '\\'].contains c then read (.double (word ++ [c])) text
      else read (.double (word ++ ['\\', c])) text

attribute [local simp] read

/-- The words of the one command that the text is. -/
def words (text : List Char) : Option (List (List Char)) := read s (.unquoted .start none) text

/-- The words that are left of a command after a word and a blank. -/
def operands (text : List Char) : Option (List (List Char)) :=
  read s (.unquoted .between none) text

/-! ### Blanks and plain characters -/

variable {s} {c : Char} {text : List Char} {place : Place} {word : Option (List Char)}

lemma ne_of_isPlain (hc : isPlain c = true) {d : Char} (hd : isPlain d = false) : c ≠ d := by
  rintro rfl
  rw [hc] at hd
  cases hd

lemma isBlank_iff : isBlank c = true ↔ c = ' ' ∨ c = '\t' := by simp [isBlank]

lemma isBlank_of_isPlain (hc : isPlain c = true) : isBlank c = false := by
  rw [← Bool.not_eq_true, isBlank_iff, not_or]
  exact ⟨ne_of_isPlain hc rfl, ne_of_isPlain hc rfl⟩

lemma not_mem_operators (hc : isPlain c = true) : c ∉ operators := by
  intro hmem
  have hall : ∀ d ∈ operators, (!isPlain d) = true := List.all_eq_true.mp rfl
  have hnot := hall c hmem
  rw [hc] at hnot
  cases hnot

lemma read_blank (hc : isBlank c = true) : read s (.unquoted place word) (c :: text) =
    emit word (read s (.unquoted (place.blank word) none) text) := by
  have hnul : c ≠ '\x00' := by
    rcases isBlank_iff.mp hc with rfl | rfl <;> decide
  rw [read, if_neg hnul]
  exact if_pos hc

lemma read_newline : read s (.unquoted place word) ('\n' :: text) =
    emit word (read s (.unquoted (place.newline word) none) text) := by
  rw [read, if_neg (by decide)]
  exact (if_neg (by decide)).trans (if_pos rfl)

lemma read_plain (hc : isPlain c = true) (hplace : place ≠ .after) :
    read s (.unquoted place word) (c :: text) =
      read s (.unquoted place (some (word.getD [] ++ [c]))) text := by
  have hne : ∀ d, isPlain d = false → c ≠ d := fun _ => ne_of_isPlain hc
  rw [read, if_neg (hne _ rfl)]
  simp [isBlank_of_isPlain hc, hne '\n' rfl, hne '#' rfl, hne '\\' rfl, hplace, hne '\'' rfl,
    hne '"' rfl, not_mem_operators hc, s.keeps c hc, hne '~' rfl]

/-- A plain text goes on with the word at hand. -/
lemma read_plain_append {xs : List Char} (hxs : ∀ c ∈ xs, isPlain c = true)
    (hplace : place ≠ .after) (w : List Char) :
    read s (.unquoted place (some w)) (xs ++ text) =
      read s (.unquoted place (some (w ++ xs))) text := by
  induction xs generalizing w with
  | nil => simp
  | cons c xs ih =>
    rw [List.forall_mem_cons] at hxs
    rw [List.cons_append, read_plain hxs.1 hplace, ih hxs.2]
    simp

lemma read_plain_word {xs : List Char} (hxs : ∀ c ∈ xs, isPlain c = true) (hne : xs ≠ [])
    (hplace : place ≠ .after) :
    read s (.unquoted place none) (xs ++ text) = read s (.unquoted place (some xs)) text := by
  cases xs with
  | nil => exact absurd rfl hne
  | cons c xs =>
    rw [List.forall_mem_cons] at hxs
    rw [List.cons_append, read_plain hxs.1 hplace, read_plain_append hxs.2 hplace]
    rfl

/-! ### What a character does -/

lemma emit_none (r : Option (List (List Char))) : emit none r = r := by
  cases r <;> rfl

lemma emit_some_eq {w : List Char} {ws : List (List Char)} {r : Option (List (List Char))}
    (h : emit (some w) r = some ws) : ∃ rest, r = some rest ∧ ws = w :: rest := by
  obtain ⟨rest, hr, rfl⟩ := Option.map_eq_some_iff.mp h
  exact ⟨rest, hr, rfl⟩

@[simp] lemma over_unquoted : (Mode.unquoted place word).Over ↔ place = .after ∧ word = none := by
  simp [Mode.Over]

@[simp] lemma over_escaped : (Mode.escaped place word).Over ↔ place = .after ∧ word = none := by
  simp [Mode.Over]

@[simp] lemma over_comment : (Mode.comment place).Over ↔ place = .after := by
  simp [Mode.Over]

@[simp] lemma not_over_single (w : List Char) : ¬(Mode.single w).Over := by simp [Mode.Over]

@[simp] lemma not_over_double (w : List Char) : ¬(Mode.double w).Over := by simp [Mode.Over]

@[simp] lemma not_over_doubleEscaped (w : List Char) : ¬(Mode.doubleEscaped w).Over := by
  simp [Mode.Over]

/-- The word at hand stays and maybe more comes, and a command that has ended stays so. -/
structure Mode.GoesOn (mode mode' : Mode) : Prop where
  current : ∀ w, mode.current = some w → ∃ v, mode'.current = some (w ++ v)
  ended : mode.Over → mode'.Over

/-- In quotes there is a word at hand and the command has not ended. -/
lemma Mode.GoesOn.quoted {mode mode' : Mode} {w : List Char} (v : List Char) (hover : ¬mode.Over)
    (hw : mode.current = some w) (hv : mode'.current = some (w ++ v)) : mode.GoesOn mode' where
  current w' hw' := by
    obtain rfl := Option.some.inj (hw.symm.trans hw')
    exact ⟨v, hv⟩
  ended h := absurd h hover

/-- A character that is taken for itself -/
lemma Mode.GoesOn.taken {mode : Mode} (hword : mode.current = word) (hover : ¬mode.Over)
    (c : Char) : mode.GoesOn (.unquoted place (some (word.getD [] ++ [c]))) where
  current w hw := by
    obtain rfl := hword.symm.trans hw
    exact ⟨[c], rfl⟩
  ended h := absurd h hover

lemma read_cons_unquoted {ws : List (List Char)}
    (h : read s (.unquoted place word) (c :: text) = some ws) :
    (∃ place', (place = .after → word = none → place' = .after) ∧
      emit word (read s (.unquoted place' none) text) = some ws) ∨
    ∃ mode', (Mode.unquoted place word).GoesOn mode' ∧ read s mode' text = some ws := by
  rw [read] at h
  split at h
  · cases h
  split at h
  · refine .inl ⟨_, ?_, h⟩
    rintro rfl rfl
    rfl
  split at h
  · refine .inl ⟨_, ?_, h⟩
    rintro rfl rfl
    rfl
  right
  split at h
  · rename_i hcomment
    have hnone : word = none := by simpa using (Bool.and_eq_true_iff.mp hcomment).2
    subst hnone
    exact ⟨_, ⟨(fun w hw => by cases hw), fun hover => by simpa using hover⟩, h⟩
  split at h
  · exact ⟨_, ⟨fun w hw => ⟨[], by simpa [Mode.current] using hw⟩, by simp⟩, h⟩
  split at h
  · cases h
  rename_i hplace
  have hover : ¬(Mode.unquoted place word).Over := by simp [hplace]
  have hquote : ∀ mode' : Mode, mode'.current = some (word.getD []) →
      (Mode.unquoted place word).GoesOn mode' := fun mode' hmode' =>
    ⟨fun w hw => ⟨[], by rw [hmode', show word = some w from hw]; simp⟩, fun h => absurd h hover⟩
  split at h
  · exact ⟨_, hquote _ rfl, h⟩
  split at h
  · exact ⟨_, hquote _ rfl, h⟩
  split at h
  · cases h
  · exact ⟨_, .taken rfl hover c, h⟩

/-- A character ends the word at hand, or the reading goes on with this word and maybe more. -/
lemma read_cons_eq_some {mode : Mode} {ws : List (List Char)}
    (h : read s mode (c :: text) = some ws) :
    (∃ place word place', mode = .unquoted place word ∧
      (place = .after → word = none → place' = .after) ∧
      emit word (read s (.unquoted place' none) text) = some ws) ∨
    ∃ mode', mode.GoesOn mode' ∧ read s mode' text = some ws := by
  cases mode with
  | unquoted place word =>
    rcases read_cons_unquoted h with ⟨place', hplace', hemit⟩ | hon
    · exact .inl ⟨place, word, place', rfl, hplace', hemit⟩
    · exact .inr hon
  | escaped place word =>
    rw [read] at h
    split at h
    · cases h
    right
    split at h
    · exact ⟨_, ⟨fun w hw => ⟨[], by simpa [Mode.current] using hw⟩, by simp⟩, h⟩
    split at h
    · cases h
    · rename_i hplace
      exact ⟨_, .taken rfl (by simp [hplace]) c, h⟩
  | comment place =>
    rw [read] at h
    split at h
    · cases h
    right
    split at h
    · refine ⟨_, ⟨(fun w hw => by cases hw), fun hover => ?_⟩, h⟩
      rw [over_comment] at hover
      subst hover
      exact over_unquoted.mpr ⟨rfl, rfl⟩
    · exact ⟨_, ⟨(fun w hw => by cases hw), id⟩, h⟩
  | single word =>
    rw [read] at h
    split at h
    · cases h
    right
    split at h
    · exact ⟨_, .quoted [] (by simp) rfl (by simp [Mode.current]), h⟩
    · exact ⟨_, .quoted [c] (by simp) rfl rfl, h⟩
  | double word =>
    rw [read] at h
    split at h
    · cases h
    right
    split at h
    · exact ⟨_, .quoted [] (by simp) rfl (by simp [Mode.current]), h⟩
    split at h
    · cases h
    split at h
    · exact ⟨_, .quoted [] (by simp) rfl (by simp [Mode.current]), h⟩
    · exact ⟨_, .quoted [c] (by simp) rfl rfl, h⟩
  | doubleEscaped word =>
    rw [read] at h
    split at h
    · cases h
    right
    split at h
    · exact ⟨_, .quoted [] (by simp) rfl (by simp [Mode.current]), h⟩
    split at h
    · exact ⟨_, .quoted [c] (by simp) rfl rfl, h⟩
    · exact ⟨_, .quoted ['\\', c] (by simp) rfl rfl, h⟩

/-! ### What a reading begins with -/

/-- The word at hand is what the first word begins with. -/
lemma prefix_of_read {mode : Mode} {w : List Char} {ws : List (List Char)}
    (hmode : mode.current = some w) (h : read s mode text = some ws) :
    ∃ v rest, ws = (w ++ v) :: rest := by
  induction text generalizing mode w with
  | nil =>
    cases mode <;> simp [Mode.current, read, Mode.finish] at hmode h
    subst hmode
    exact ⟨[], [], by simpa using h.symm⟩
  | cons c text ih =>
    rcases read_cons_eq_some h with ⟨place, word, place', rfl, -, hemit⟩ | ⟨mode', hon, hread⟩
    · cases hmode
      obtain ⟨rest, -, rfl⟩ := emit_some_eq hemit
      exact ⟨[], rest, by simp⟩
    · obtain ⟨u, hu⟩ := hon.current w hmode
      obtain ⟨v, rest, rfl⟩ := ih hu hread
      exact ⟨u ++ v, rest, by simp⟩

/-- A character that is no blank and no quotation goes into the word at hand. -/
lemma read_literal {ws : List (List Char)} (hblank : isBlank c = false)
    (hquote : c ∉ ['\n', '#', '\\', '\'', '"'])
    (h : read s (.unquoted place word) (c :: text) = some ws) :
    ∃ v rest, ws = (word.getD [] ++ c :: v) :: rest := by
  simp only [List.mem_cons, List.not_mem_nil, or_false, not_or] at hquote
  obtain ⟨hnewline, hhash, hback, hsingle, hdouble⟩ := hquote
  rw [read] at h
  split at h
  · cases h
  simp only [hblank, Bool.false_eq_true, if_false, hhash, decide_false, Bool.false_and] at h
  split at h
  · cases h
  split at h
  · cases h
  obtain ⟨v, rest, rfl⟩ := prefix_of_read rfl h
  exact ⟨v, rest, by simp⟩

/-- After the end of its line nothing is added to a command. -/
lemma eq_nil_of_read_over {mode : Mode} {ws : List (List Char)} (hmode : mode.Over)
    (h : read s mode text = some ws) : ws = [] := by
  induction text generalizing mode with
  | nil => rcases hmode with rfl | rfl | rfl <;> simp_all [read, Mode.finish]
  | cons c text ih =>
    rcases read_cons_eq_some h with ⟨place, word, place', rfl, hplace, hemit⟩ | ⟨mode', hon, hread⟩
    · obtain ⟨rfl, rfl⟩ := over_unquoted.mp hmode
      rw [hplace rfl rfl, emit_none] at hemit
      exact ih (.inl rfl) hemit
    · exact ih (hon.ended hmode) hread

end ShellWords
