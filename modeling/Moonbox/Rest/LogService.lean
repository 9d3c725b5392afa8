import Moonbox.Lib.JavaStrings
import Moonbox.Lib.ShellWords
import Moonbox.Rest.Routes

/-!
# `LogService`

A request to see a log. Its command, with the name of the file put in, is checked and then given to
the shell of another host. Texts are lists of characters.
-/

namespace Moonbox.Rest

open JavaStrings ShellWords

/-! ### The service -/

namespace LogService

def FILE_PLACEHOLDER : List Char := "LOG_FILE".toList

def supportedCmd : List (List Char) := ["tail".toList, "head".toList]

def defaultCmd : List Char := "tail -n2000".toList

/-- `matches("-n\\d+")` -/
def isLines : List Char → Bool
  | '-' :: 'n' :: digits => digits ≠ [] && digits.all Char.isDigit
  | _ => false

def notSupported (cmd : List Char) : String :=
  String.ofList cmd ++ " not supported, just support tail -n, head -n command"

/-- Of a name in capitals only the letters of ASCII have the letters of a command for small ones. -/
def checkCmd (cmd : List Char) : Except String Unit :=
  match splitSpaces (trim cmd) with
  | [] => .error "java.util.NoSuchElementException: next on empty iterator"
  | headCmd :: rest =>
    if supportedCmd.contains (headCmd.map Char.toLower) then
      match rest with
      | [] => .error "java.lang.ArrayIndexOutOfBoundsException: 1"
      | lines :: _ => if isLines lines then .ok () else .error (notSupported cmd)
    else .error (notSupported cmd)

def finalCmd (file : List Char) (cmd : Option (List Char)) : List Char :=
  replace FILE_PLACEHOLDER file (cmd.getD (defaultCmd ++ ' ' :: file))

def buildViewLogCmd (file : List Char) (cmd : Option (List Char)) : Except String (List Char) := do
  checkCmd (finalCmd file cmd)
  pure (finalCmd file cmd)

def getHost (address : List Char) : Except String (List Char) :=
  match split [':'] address with
  | [] => .error "java.util.NoSuchElementException: next on empty iterator"
  | host :: _ => .ok (trim host)

/-- The answer, and the commands that were executed. -/
def viewLog (execCmd : List Char → List Char → Except String String) (log : LogView) :
    Except String String × List (List Char) :=
  match getHost log.address.toList with
  | .error e => (.error e, [])
  | .ok host =>
    match buildViewLogCmd log.file.toList (log.command.map String.toList) with
    | .error e => (.error e, [])
    | .ok cmd => (execCmd host cmd, [cmd])

/-! ### What may be executed -/

/-- The option that the check looks at. -/
def requestedLines (cmd : List Char) : Option (List Char) := (splitSpaces (trim cmd))[1]?

/-- The file is the only operand, and it is not taken for an option or for the standard input. -/
def IsOperand (file : List Char) (args : List (List Char)) : Prop :=
  args = [file] ∧ file.head? ≠ some '-' ∨ args = [['-', '-'], file] ∧ file ≠ ['-']

/-- The shell reads one invocation of `tail` or `head`, with the number of lines that was checked,
on the file. -/
def Views (shell : Shell) (file cmd : List Char) : Prop :=
  ∃ name ∈ supportedCmd, ∃ lines args, requestedLines cmd = some lines ∧
    words shell cmd = some (name :: lines :: args) ∧ IsOperand file args

/-- Up to the option the command has nothing but the name in small letters and blanks, and the rest
is for the shell the file. -/
def SpellsOut (shell : Shell) (file cmd : List Char) : Prop :=
  ∃ lead name gap lines blank rest, cmd = lead ++ (name ++ (gap ++ (lines ++ blank :: rest))) ∧
    (∀ c ∈ lead, isBlank c = true ∨ c = '\n') ∧ name ∈ supportedCmd ∧ gap ≠ [] ∧
    (∀ c ∈ gap, isBlank c = true) ∧ requestedLines cmd = some lines ∧ isBlank blank = true ∧
    ∃ args, operands shell rest = some args ∧ IsOperand file args

/-! ### Accepted commands -/

lemma checkCmd_eq_ok {cmd : List Char} (h : checkCmd cmd = .ok ()) :
    ∃ name lines ts, splitSpaces (trim cmd) = name :: lines :: ts ∧
      name.map Char.toLower ∈ supportedCmd ∧ isLines lines = true := by
  unfold checkCmd at h
  split at h
  · cases h
  · rename_i headCmd rest htokens
    split at h
    · rename_i hname
      split at h
      · cases h
      · rename_i lines ts
        split at h
        · rename_i hlines
          exact ⟨headCmd, lines, ts, htokens, List.contains_iff_mem.mp hname, hlines⟩
        · cases h
    · cases h

lemma isUpper_iff {c : Char} : c.isUpper = true ↔ c.val ≥ 'A'.val ∧ c.val ≤ 'Z'.val :=
  decide_eq_true_iff

lemma isAlphanum_eq (c : Char) : c.isAlphanum = (c.isUpper || c.isLower || c.isDigit) := rfl

lemma isPlain_of_toLower {c : Char} (h : isPlain c.toLower = true) : isPlain c = true := by
  by_cases hupper : c.isUpper = true
  · simp [isPlain, isAlphanum_eq, hupper]
  · have hself : c.toLower = c := dif_neg fun hrange => hupper (isUpper_iff.mpr hrange)
    rwa [hself] at h

lemma isPlain_of_mem {name : List Char} (h : name ∈ supportedCmd) :
    ∀ c ∈ name, isPlain c = true := by
  have hall : ∀ name ∈ supportedCmd, name.all isPlain = true := List.all_eq_true.mp rfl
  exact List.all_eq_true.mp (hall name h)

lemma isPlain_of_isLines {lines : List Char} (h : isLines lines = true) :
    ∀ c ∈ lines, isPlain c = true := by
  unfold isLines at h
  split at h
  · rename_i digits
    rw [Bool.and_eq_true, List.all_eq_true] at h
    intro c hc
    rcases List.mem_cons.mp hc with rfl | hc
    · rfl
    rcases List.mem_cons.mp hc with rfl | hc
    · rfl
    simp [isPlain, Char.isAlphanum, h.2 c hc]
  · cases h

/-- The parts of a command that was accepted. What stands around them is at most a space. -/
lemma exists_of_checkCmd {cmd : List Char} (h : checkCmd cmd = .ok ()) :
    ∃ lead name gap lines rest, cmd = lead ++ (name ++ (gap ++ (lines ++ rest))) ∧
      (∀ c ∈ lead, isTrimmed c = true) ∧ name.map Char.toLower ∈ supportedCmd ∧ gap ≠ [] ∧
      (∀ c ∈ gap, isTrimmed c = true) ∧ isLines lines = true ∧
      (∀ c ∈ rest.head?, isTrimmed c = true) ∧ requestedLines cmd = some lines := by
  obtain ⟨name, lines, ts, htokens, hname, hlines⟩ := checkCmd_eq_ok h
  have hrequested : requestedLines cmd = some lines := by simp [requestedLines, htokens]
  have hne : trim cmd ≠ [] := by
    intro hnil
    rw [hnil] at htokens
    cases htokens
  rw [splitSpaces, if_neg hne] at htokens
  obtain ⟨pre, post, hcmd, hpre, hpost⟩ := exists_trim cmd
  obtain ⟨lead, rest, htrim, hlead, ⟨-, hnil⟩ | ⟨c, rest, rfl, hc, htokens⟩⟩ :=
    exists_of_tokens htokens
  · cases hnil
  obtain ⟨gap, tail, hrest, hgap, htail⟩ := exists_of_tokens htokens
  refine ⟨pre ++ lead, name, c :: gap, lines, tail ++ post, ?_, ?_, hname, by simp, ?_, hlines, ?_,
    hrequested⟩
  · rw [hcmd, htrim, hrest]
    simp
  · intro d hd
    rcases List.mem_append.mp hd with hd | hd
    · exact hpre d hd
    · exact isTrimmed_of_isSpace (hlead d hd)
  · exact List.forall_mem_cons.mpr
      ⟨isTrimmed_of_isSpace hc, fun d hd => isTrimmed_of_isSpace (hgap d hd)⟩
  · intro d hd
    rcases htail with ⟨rfl, -⟩ | ⟨e, tail, rfl, he, -⟩
    · exact hpost d (List.mem_of_mem_head? hd)
    · cases hd
      exact isTrimmed_of_isSpace he

/-! ### Reading them -/

section Reading

variable {shell : Shell} {c : Char} {text w : List Char} {ws : List (List Char)} {place : Place}
  {word : Option (List Char)}

/-- A character that is trimmed but does not separate is a character of the word. -/
lemma read_control (hc : isTrimmed c = true) (hblank : ¬ isBlank c = true) (hnewline : c ≠ '\n')
    (h : read shell (.unquoted place word) (c :: text) = some ws) :
    ∃ v rest, ws = (word.getD [] ++ c :: v) :: rest := by
  refine read_literal (Bool.eq_false_iff.mpr hblank) ?_ h
  have hne : ∀ d, isTrimmed d = false → c ≠ d := by
    rintro d hd rfl
    rw [hc] at hd
    cases hd
  simp [hnewline, hne '#' rfl, hne '\\' rfl, hne '\'' rfl, hne '"' rfl]

lemma not_isTrimmed_of_isPlain (hc : isPlain c = true) : ¬ isTrimmed c = true := by
  intro htrimmed
  have hle : c.val.toNat ≤ 32 := by simpa [isTrimmed] using htrimmed
  have hlower : c.isLower = (decide (c.val ≥ 'a'.val) && decide (c.val ≤ 'z'.val)) := rfl
  simp only [isPlain, isAlphanum_eq, isUpper_iff, hlower, Char.isDigit, Bool.or_eq_true,
    Bool.and_eq_true, decide_eq_true_eq, UInt32.le_iff_toNat_le, ge_iff_le,
    List.contains_iff_mem, List.mem_cons, List.not_mem_nil, or_false] at hc
  rcases hc with ((hupper | hlower) | hdigit) | rfl | rfl | rfl | rfl
  · have hA : 'A'.val.toNat = 65 := rfl
    omega
  · have ha : 'a'.val.toNat = 97 := rfl
    omega
  · have h0 : '0'.val.toNat = 48 := rfl
    omega
  all_goals exact absurd hle (by decide)

/-- Between words a shell skips blanks, and before the first one line breaks. -/
def IsSkipped (place : Place) (c : Char) : Prop := isBlank c = true ∨ c = '\n' ∧ place = .start

lemma read_skipped {gap : List Char} (hgap : ∀ c ∈ gap, IsSkipped place c) :
    read shell (.unquoted place none) (gap ++ text) = read shell (.unquoted place none) text := by
  induction gap with
  | nil => rfl
  | cons c gap ih =>
    rw [List.forall_mem_cons] at hgap
    rw [List.cons_append]
    rcases hgap.1 with hblank | ⟨rfl, rfl⟩
    · rw [read_blank hblank, emit_none, Place.blank, ih hgap.2]
    · rw [read_newline, emit_none, Place.newline, ih hgap.2]

/-- If a plain word is read first, all that was before it is skipped. -/
lemma isSkipped_of_read {gap : List Char} (hgap : ∀ c ∈ gap, isTrimmed c = true)
    (hw : ∀ c ∈ w, isPlain c = true)
    (h : read shell (.unquoted place none) (gap ++ text) = some (w :: ws)) :
    (∀ c ∈ gap, IsSkipped place c) ∧ read shell (.unquoted place none) text = some (w :: ws) := by
  induction gap with
  | nil => exact ⟨by simp, h⟩
  | cons c gap ih =>
    rw [List.forall_mem_cons] at hgap ⊢
    by_cases hblank : isBlank c = true
    · rw [List.cons_append, read_blank hblank, emit_none, Place.blank] at h
      obtain ⟨hskipped, hread⟩ := ih hgap.2 h
      exact ⟨⟨.inl hblank, hskipped⟩, hread⟩
    by_cases hnewline : c = '\n'
    · subst hnewline
      rw [List.cons_append, read_newline, emit_none] at h
      cases place with
      | start =>
        obtain ⟨hskipped, hread⟩ := ih hgap.2 h
        exact ⟨⟨.inr ⟨rfl, rfl⟩, hskipped⟩, hread⟩
      | between => cases eq_nil_of_read_over (.inl rfl) h
      | after => cases eq_nil_of_read_over (.inl rfl) h
    · obtain ⟨v, rest, heq⟩ := read_control hgap.1 hblank hnewline h
      cases heq
      exact absurd hgap.1 (not_isTrimmed_of_isPlain (hw c (by simp)))

/-- If a plain word is read and it is not the last one, a blank ends it. -/
lemma exists_blank_of_read {w' rest : List Char} (hrest : ∀ c ∈ rest.head?, isTrimmed c = true)
    (hw : ∀ c ∈ w', isPlain c = true) (hws : ws ≠ [])
    (h : read shell (.unquoted place (some w)) rest = some (w' :: ws)) :
    w' = w ∧ ∃ b rest', rest = b :: rest' ∧ isBlank b = true ∧ operands shell rest' = some ws := by
  cases rest with
  | nil =>
    cases h
    exact absurd rfl hws
  | cons c rest =>
    by_cases hblank : isBlank c = true
    · rw [read_blank hblank] at h
      obtain ⟨ws', hread, heq⟩ := emit_some_eq h
      cases heq
      exact ⟨rfl, c, rest, rfl, hblank, hread⟩
    by_cases hnewline : c = '\n'
    · subst hnewline
      rw [read_newline] at h
      obtain ⟨ws', hread, heq⟩ := emit_some_eq h
      cases heq
      have hover : (Mode.unquoted (place.newline (some w)) none).Over := by
        cases place <;> exact .inl rfl
      exact absurd (eq_nil_of_read_over hover hread) hws
    · have htrimmed := hrest c rfl
      obtain ⟨v, rest', heq⟩ := read_control htrimmed hblank hnewline h
      cases heq
      exact absurd htrimmed (not_isTrimmed_of_isPlain (hw c (by simp)))

end Reading

/-! ### The check -/

lemma IsOperand.ne_nil {file : List Char} {args : List (List Char)} (h : IsOperand file args) :
    args ≠ [] := by
  rcases h with ⟨rfl, -⟩ | ⟨rfl, -⟩ <;> simp

lemma ne_nil_of_isLines {lines : List Char} (h : isLines lines = true) : lines ≠ [] := by
  rintro rfl
  cases h

lemma spellsOut_of_views {shell : Shell} {file cmd : List Char} (hcheck : checkCmd cmd = .ok ())
    (h : Views shell file cmd) : SpellsOut shell file cmd := by
  obtain ⟨name, hname, lines, args, hlines, hwords, hargs⟩ := h
  obtain ⟨lead, typed, gap, lines', rest, rfl, hlead, htyped, hgap, htrimmed, hoption, hrest,
    hlines'⟩ := exists_of_checkCmd hcheck
  obtain rfl : lines = lines' := Option.some.inj (hlines.symm.trans hlines')
  have hplainname := isPlain_of_mem hname
  have hplaintyped : ∀ c ∈ typed, isPlain c = true := fun c hc =>
    isPlain_of_toLower (isPlain_of_mem htyped _ (List.mem_map_of_mem hc))
  have hplainlines := isPlain_of_isLines hoption
  obtain ⟨hleadskipped, hread⟩ := isSkipped_of_read hlead hplainname hwords
  have htypedne : typed ≠ [] := by
    rintro rfl
    revert htyped
    decide
  rw [read_plain_word hplaintyped htypedne (by decide)] at hread
  obtain ⟨g, gap, rfl⟩ := List.exists_cons_of_ne_nil hgap
  obtain ⟨rfl, b, rest', heq, hb, hread⟩ :=
    exists_blank_of_read (by simpa using htrimmed g (by simp)) hplainname (by simp) hread
  rw [List.cons_append, List.cons.injEq] at heq
  obtain ⟨rfl, rfl⟩ := heq
  rw [List.forall_mem_cons] at htrimmed
  obtain ⟨hgapskipped, hread⟩ := isSkipped_of_read htrimmed.2 hplainlines hread
  rw [read_plain_word hplainlines (ne_nil_of_isLines hoption) (by decide)] at hread
  obtain ⟨-, blank, operands, rfl, hblank, hoperands⟩ :=
    exists_blank_of_read hrest hplainlines hargs.ne_nil hread
  refine ⟨lead, name, g :: gap, lines, blank, operands, rfl, ?_, hname, by simp, ?_, hlines,
    hblank, args, hoperands, hargs⟩
  · exact fun c hc => (hleadskipped c hc).imp_right And.left
  · refine List.forall_mem_cons.mpr ⟨hb, fun c hc => ?_⟩
    rcases hgapskipped c hc with hc | ⟨-, hc⟩
    · exact hc
    · cases hc

lemma isLines_of_checkCmd {cmd lines : List Char} (hcheck : checkCmd cmd = .ok ())
    (h : requestedLines cmd = some lines) : isLines lines = true := by
  obtain ⟨name, lines', ts, htokens, -, hlines⟩ := checkCmd_eq_ok hcheck
  rw [requestedLines, htokens] at h
  cases h
  exact hlines

lemma views_of_spellsOut {shell : Shell} {file cmd : List Char} (hcheck : checkCmd cmd = .ok ())
    (h : SpellsOut shell file cmd) : Views shell file cmd := by
  obtain ⟨lead, name, gap, lines, blank, rest, hcmd, hlead, hname, hgapne, hgap, hlines, hblank,
    args, hoperands, hargs⟩ := h
  refine ⟨name, hname, lines, args, hlines, ?_, hargs⟩
  have hnamene : name ≠ [] := by
    rintro rfl
    revert hname
    decide
  obtain ⟨g, gap, rfl⟩ := List.exists_cons_of_ne_nil hgapne
  rw [List.forall_mem_cons] at hgap
  have hoption := isLines_of_checkCmd hcheck hlines
  have hafter : read shell (.unquoted .between none) (gap ++ (lines ++ blank :: rest)) =
      some (lines :: args) := by
    rw [read_skipped fun c hc => .inl (hgap.2 c hc), read_plain_word (isPlain_of_isLines hoption)
      (ne_nil_of_isLines hoption) (by decide), read_blank hblank]
    rw [operands] at hoperands
    simp [emit, Place.blank, hoperands]
  rw [hcmd, words, read_skipped fun c hc => (hlead c hc).imp_right fun hc => ⟨hc, rfl⟩,
    read_plain_word (isPlain_of_mem hname) hnamene (by decide), List.cons_append, read_blank hgap.1]
  simp [emit, Place.blank, hafter]

/-- A quoted name is read as the file. -/
example : words .posix "tail -n5 '/tmp/a b' # log".toList =
    some ["tail".toList, "-n5".toList, "/tmp/a b".toList] := rfl

end LogService

end Moonbox.Rest
