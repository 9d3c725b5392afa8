import Moonbox.Lib.JavaStrings
import Moonbox.Lib.Outcomes

/-!
# Scripts

The four places that cut a script into statements: the JDBC driver, the shell and the two batch
applications. A text is the list of its characters.
-/

namespace Moonbox.Jdbc

open JavaStrings Outcome

/-! ### Java -/

def isBlank (text : List Char) : Bool := text.all isTrimmed

/-- `\s` -/
def isSpace (c : Char) : Bool := [' ', '\t', '\n', '\x0b', '\x0c', '\r'].contains c

/-- The parts between delimiters: those that are complete and the one after the last. -/
def pieces (delimiter : Char) (text : List Char) : List (List Char) × List Char :=
  text.foldl
    (fun p c => if c = delimiter then (p.1 ++ [p.2], []) else (p.1, p.2 ++ [c])) ([], [])

/-- `String.split`: empty parts at the end are left out, but for a text without delimiter. -/
def stringSplit (delimiter : Char) (text : List Char) : List (List Char) :=
  if text.contains delimiter then
    ((pieces delimiter text).1 ++ [(pieces delimiter text).2]).rdropWhile List.isEmpty
  else [text]

/-! ### `Utils` -/

def pop : List Char → Except String (List Char)
  | [] => .error "java.util.EmptyStackException"
  | _ :: stack => .ok stack

def parenthesis (c : Char) (stack : List Char) : Except String (List Char) :=
  if c = '(' then .ok ('(' :: stack) else if c = ')' then pop stack else .ok stack

/-- The places of the semicolons outside parentheses, but for one at the end. The stack has the
open parentheses. -/
def splitIndexes (length : Nat) : Nat → List Char → List Char → Except String (List Nat)
  | _, _, [] => .ok []
  | i, stack, c :: chars => do
    let here := if c = ';' ∧ stack = [] ∧ i ≠ length - 1 then [i] else []
    let stack ← parenthesis c stack
    let rest ← splitIndexes length (i + 1) stack chars
    pure (here ++ rest)

def split (sql : List Char) (index : List Nat) : List (List Char) :=
  if index = [] then [sql]
  else
    let (result, begin) := index.foldl
      (fun r point => (r.1 ++ [(sql.drop r.2).take (point - r.2)], point + 1)) ([], 0)
    if begin ≠ sql.length - 1 then
      let lastSql := sql.drop begin
      if lastSql ≠ [] ∧ lastSql.all isSpace then result else result ++ [lastSql]
    else result

def splitSQLs (sql : List Char) : Except String (List (List Char)) := do
  let index ← splitIndexes sql.length 0 [] sql
  pure (split sql index)

/-! ### `MoonboxShell` -/

structure Reader where
  sqls : List (List Char) := []
  sqlBuilder : List Char := []
  braceCount : Int := 0
  deriving DecidableEq, Repr

def Reader.read (r : Reader) (char : Char) : Reader :=
  if char = ';' ∧ r.braceCount = 0 then
    { r with sqls := r.sqls ++ [r.sqlBuilder], sqlBuilder := [] }
  else
    { r with
      sqlBuilder := r.sqlBuilder ++ [char]
      braceCount :=
        if char = '(' then r.braceCount + 1
        else if char = ')' then r.braceCount - 1
        else r.braceCount }

/-- With `none` the shell waits for a line that does not come. -/
def readLine (r : Reader) : List (List Char) → Option (List (List Char))
  | [] => none
  | line :: lines =>
    let r := (trim line).foldl Reader.read r
    if r.sqlBuilder = [] then some r.sqls
    else readLine { r with sqlBuilder := r.sqlBuilder ++ [' '] } lines

def shellSplit (text : List Char) : Option (List (List Char)) :=
  readLine {} ((pieces '\n' text).1 ++ [(pieces '\n' text).2])

/-! ### Batch applications -/

def sparkSplit (text : List Char) : List (List Char) :=
  stringSplit ';' (stripSuffix ';' (trim text))

def hiveSplit (text : List Char) : List (List Char) := stringSplit ';' text

/-! ### Scripts of statements -/

/-- Where the lexer is. -/
inductive Lexing
  | code
  | string (quote : Char)
  | escaped (quote : Char)
  | backquoted
  | comment
  | bracketed

/-- Literals, quoted identifiers and comments are closed, parentheses balanced, and semicolons
outside literals and comments are in parentheses. -/
def lexes : Lexing → Nat → List Char → Bool
  | .code, depth, [] => depth == 0
  | .comment, depth, [] => depth == 0
  | _, _, [] => false
  | .code, depth, '-' :: '-' :: cs => lexes .comment depth cs
  | .code, depth, '/' :: '*' :: cs => lexes .bracketed depth cs
  | .code, depth, c :: cs =>
    if c = '\'' ∨ c = '"' then lexes (.string c) depth cs
    else if c = '`' then lexes .backquoted depth cs
    else if c = '(' then lexes .code (depth + 1) cs
    else if c = ')' then depth ≠ 0 && lexes .code (depth - 1) cs
    else if c = ';' then depth ≠ 0 && lexes .code depth cs
    else lexes .code depth cs
  | .string quote, depth, c :: cs =>
    if c = '\\' then lexes (.escaped quote) depth cs
    else if c = quote then lexes .code depth cs
    else lexes (.string quote) depth cs
  | .escaped quote, depth, _ :: cs => lexes (.string quote) depth cs
  | .backquoted, depth, c :: cs =>
    if c = '`' then lexes .code depth cs else lexes .backquoted depth cs
  | .comment, depth, c :: cs =>
    if c = '\n' then lexes .code depth cs else lexes .comment depth cs
  | .bracketed, depth, '*' :: '/' :: cs => lexes .code depth cs
  | .bracketed, depth, _ :: cs => lexes .bracketed depth cs

def script (statements : List (List Char)) : List Char := [';'].intercalate statements

def nonBlank (statements : List (List Char)) : List (List Char) :=
  statements.filter fun s => !isBlank s

/-- All four get the statements of the list. -/
def SplitAlike (statements : List (List Char)) : Prop :=
  splitSQLs (script statements) = .ok (nonBlank statements) ∧
    shellSplit (script statements) = some (nonBlank statements) ∧
    sparkSplit (script statements) = nonBlank statements ∧
    hiveSplit (script statements) = nonBlank statements

/-! ### Parts of a text -/

section Pieces

variable {delimiter c : Char} {text : List Char}

lemma pieces_concat : pieces delimiter (text ++ [c]) =
    if c = delimiter then ((pieces delimiter text).1 ++ [(pieces delimiter text).2], [])
    else ((pieces delimiter text).1, (pieces delimiter text).2 ++ [c]) := by
  rw [pieces, List.foldl_append]
  rfl

/-- What is after the last delimiter. -/
lemma pieces_last (delimiter : Char) (text : List Char) : delimiter ∉ (pieces delimiter text).2 ∧
    ∃ before, text = before ++ (pieces delimiter text).2 := by
  induction text using List.reverseRecOn with
  | nil => exact ⟨by simp [pieces], [], rfl⟩
  | append_singleton text c ih =>
    obtain ⟨hfree, before, htext⟩ := ih
    rw [pieces_concat]
    split
    · exact ⟨by simp, text ++ [c], by simp⟩
    · rename_i hc
      refine ⟨?_, before, ?_⟩
      · simpa [hfree] using fun h => hc h.symm
      · rw [← List.append_assoc, ← htext]

lemma pieces_of_not_mem (h : delimiter ∉ text) : pieces delimiter text = ([], text) := by
  induction text using List.reverseRecOn with
  | nil => rfl
  | append_singleton text c ih =>
    rw [List.mem_append, not_or, List.mem_singleton] at h
    rw [pieces_concat, if_neg (fun heq => h.2 heq.symm), ih h.1]

/-- Only delimiters are lost. -/
lemma mem_pieces (hc : c ∈ text) (hne : c ≠ delimiter) :
    ∃ p ∈ (pieces delimiter text).1 ++ [(pieces delimiter text).2], c ∈ p := by
  induction text using List.reverseRecOn with
  | nil => simp at hc
  | append_singleton text c' ih =>
    rw [pieces_concat]
    rcases List.mem_append.mp hc with hc | hc
    · obtain ⟨p, hp, hcp⟩ := ih hc
      split
      · exact ⟨p, by simp only [List.mem_append] at hp ⊢; exact .inl hp, hcp⟩
      · rcases List.mem_append.mp hp with hp | hp
        · exact ⟨p, by simp [hp], hcp⟩
        · rw [List.mem_singleton.mp hp] at hcp
          exact ⟨(pieces delimiter text).2 ++ [c'], by simp, by simp [hcp]⟩
    · rw [List.mem_singleton.mp hc] at hne ⊢
      rw [if_neg hne]
      exact ⟨(pieces delimiter text).2 ++ [c'], by simp, by simp⟩

lemma delimiter_not_mem_pieces {p : List Char}
    (hp : p ∈ (pieces delimiter text).1 ++ [(pieces delimiter text).2]) : delimiter ∉ p := by
  induction text using List.reverseRecOn generalizing p with
  | nil =>
    simp only [pieces, List.foldl_nil, List.nil_append, List.mem_singleton] at hp
    simp [hp]
  | append_singleton text c ih =>
    rw [pieces_concat] at hp
    split at hp
    · rcases List.mem_append.mp hp with hp | hp
      · exact ih hp
      · simp [List.mem_singleton.mp hp]
    · rename_i hc
      rcases List.mem_append.mp hp with hp | hp
      · exact ih (by simp [hp])
      · rw [List.mem_singleton.mp hp]
        simpa [(pieces_last delimiter text).1] using fun h => hc h.symm

lemma mem_rdropWhile {α : Type} {p : α → Bool} {a : α} {l : List α} (ha : a ∈ l)
    (hp : p a = false) : a ∈ l.rdropWhile p := by
  rw [List.rdropWhile, List.mem_reverse]
  have hsplit : a ∈ l.reverse.takeWhile p ++ l.reverse.dropWhile p := by
    rw [List.takeWhile_append_dropWhile, List.mem_reverse]
    exact ha
  refine (List.mem_append.mp hsplit).resolve_left fun h => ?_
  rw [List.mem_takeWhile_imp h] at hp
  cases hp

lemma mem_stringSplit (delimiter : Char) (hc : c ∈ text) (hne : c ≠ delimiter) :
    ∃ p ∈ stringSplit delimiter text, c ∈ p := by
  unfold stringSplit
  split
  · obtain ⟨p, hp, hcp⟩ := mem_pieces hc hne
    exact ⟨p, mem_rdropWhile hp (by simpa using List.ne_nil_of_mem hcp), hcp⟩
  · exact ⟨text, by simp, hc⟩

/-- A text that does not end with a delimiter ends with the last of its parts. -/
lemma last_mem_stringSplit (text : List Char) (hc : c ≠ delimiter) :
    ∃ before p, text ++ [c] = before ++ p ∧ delimiter ∉ p ∧
      p ∈ stringSplit delimiter (text ++ [c]) := by
  obtain ⟨hfree, before, htext⟩ := pieces_last delimiter (text ++ [c])
  unfold stringSplit
  split
  · refine ⟨before, _, htext, hfree, mem_rdropWhile (by simp) ?_⟩
    rw [pieces_concat, if_neg hc]
    simp
  · rename_i h
    exact ⟨[], text ++ [c], rfl, by simpa using h, by simp⟩

end Pieces

/-! ### The shell -/

section Shell

variable {c : Char}

def Reader.Free (c : Char) (r : Reader) : Prop := c ∉ r.sqlBuilder ∧ ∀ sql ∈ r.sqls, c ∉ sql

lemma Reader.Free.read {r : Reader} (h : r.Free c) {char : Char} (hne : c ≠ char) :
    (r.read char).Free c := by
  unfold Reader.read
  split
  · refine ⟨by simp, fun sql hsql => ?_⟩
    rcases List.mem_append.mp hsql with hsql | hsql
    · exact h.2 sql hsql
    · rw [List.mem_singleton.mp hsql]
      exact h.1
  · exact ⟨by simpa [h.1] using hne, h.2⟩

lemma Reader.Free.foldl {r : Reader} (h : r.Free c) {line : List Char} (hline : c ∉ line) :
    (line.foldl Reader.read r).Free c := by
  induction line generalizing r with
  | nil => exact h
  | cons char line ih =>
    rw [List.mem_cons, not_or] at hline
    exact ih (h.read hline.1) hline.2

lemma Reader.Free.space {r : Reader} (h : r.Free c) (hc : c ≠ ' ') :
    { r with sqlBuilder := r.sqlBuilder ++ [' '] }.Free c :=
  ⟨by simp [h.1, hc], h.2⟩

lemma mem_of_mem_trim {text : List Char} (h : c ∈ trim text) : c ∈ text :=
  (List.rdropWhile_prefix _ _).subset ((List.dropWhile_suffix _).subset h)

lemma readLine_free {lines sqls : List (List Char)} {r : Reader} (hr : r.Free c) (hc : c ≠ ' ')
    (hlines : ∀ line ∈ lines, c ∉ line) (h : readLine r lines = some sqls) :
    ∀ sql ∈ sqls, c ∉ sql := by
  induction lines generalizing r with
  | nil => cases h
  | cons line lines ih =>
    rw [List.forall_mem_cons] at hlines
    have hfree := hr.foldl fun h => hlines.1 (mem_of_mem_trim h)
    simp only [readLine] at h
    split at h
    · cases h
      exact hfree.2
    · exact ih (hfree.space hc) hlines.2 h

/-- The shell keeps no line break. -/
lemma shellSplit_free {text : List Char} {sqls : List (List Char)}
    (h : shellSplit text = some sqls) : ∀ sql ∈ sqls, '\n' ∉ sql :=
  readLine_free ⟨by simp, by simp⟩ (by decide) (fun _ hp => delimiter_not_mem_pieces hp) h

/-- A text of one line is read if nothing is left of it. -/
lemma shellSplit_line {text : List Char} {sqls : List (List Char)} (hline : '\n' ∉ text)
    (h : shellSplit text = some sqls) :
    ((trim text).foldl Reader.read {}).sqlBuilder = [] ∧
      ((trim text).foldl Reader.read {}).sqls = sqls := by
  simp only [shellSplit, pieces_of_not_mem hline, List.nil_append, readLine] at h
  split at h
  · rename_i hempty
    exact ⟨hempty, Option.some.inj h⟩
  · cases h

lemma read_ne {r : Reader} {char : Char} (h : char ≠ ';') : (r.read char).sqlBuilder ≠ [] := by
  simp [Reader.read, h]

/-- Of two semicolons the second ends an empty statement, or they are in parentheses. -/
lemma read_twice {r : Reader} (h : ((r.read ';').read ';').sqlBuilder = []) :
    [] ∈ ((r.read ';').read ';').sqls := by
  by_cases hbrace : r.braceCount = 0
  · simp [Reader.read, hbrace]
  · simp [Reader.read, hbrace] at h

end Shell

/-! ### The end of a text -/

section Ends

variable {c : Char}

lemma dropWhile_concat (before after : List Char) (h : isTrimmed c = false) :
    ∃ before', (before ++ c :: after).dropWhile isTrimmed = before' ++ c :: after := by
  induction before with
  | nil => exact ⟨[], by simp [h]⟩
  | cons b before ih =>
    rw [List.cons_append, List.dropWhile_cons]
    split
    · exact ih
    · exact ⟨b :: before, rfl⟩

lemma trim_concat (before : List Char) (h : isTrimmed c = false) :
    ∃ before', trim (before ++ [c]) = before' ++ [c] := by
  rw [trim, List.rdropWhile_concat_neg _ _ _ (by simp [h])]
  exact dropWhile_concat before [] h

/-- What is trimmed ends with a character of the last part that is not blank. -/
lemma trim_last (before : List Char) {p : List Char} (h : isBlank p = false) :
    ∃ before', ∃ c ∈ p, trim (before ++ p) = before' ++ [c] := by
  induction p using List.reverseRecOn with
  | nil => cases h
  | append_singleton p c ih =>
    cases hc : isTrimmed c with
    | false =>
      obtain ⟨before', htrim⟩ := trim_concat (before ++ p) hc
      exact ⟨before', c, by simp, by rw [← List.append_assoc, htrim]⟩
    | true =>
      have hp : isBlank p = false := by simpa [isBlank, hc] using h
      obtain ⟨before', c', hc', htrim⟩ := ih hp
      refine ⟨before', c', by simp [hc'], ?_⟩
      rw [← List.append_assoc, trim, List.rdropWhile_concat_pos _ _ _ hc]
      exact htrim

lemma splitIndexes_mem {length i : Nat} {stack chars : List Char} {index : List Nat}
    (h : splitIndexes length i stack chars = .ok index) :
    ∀ point ∈ index, ∃ k, point = i + k ∧ chars[k]? = some ';' ∧ point ≠ length - 1 := by
  induction chars generalizing i stack index with
  | nil =>
    cases h
    simp
  | cons c chars ih =>
    simp only [splitIndexes, bind_eq_ok, pure_eq_ok] at h
    obtain ⟨_, -, rest, hrest, rfl⟩ := h
    intro point hpoint
    rcases List.mem_append.mp hpoint with hpoint | hpoint
    · split at hpoint
      · rename_i hhere
        rw [List.mem_singleton.mp hpoint]
        exact ⟨0, rfl, by simp [hhere.1], hhere.2.2⟩
      · cases hpoint
    · obtain ⟨k, rfl, hk, hne⟩ := ih hrest point hpoint
      exact ⟨k + 1, by omega, by simpa using hk, hne⟩

/-- The last of the statements that `splitSQLs` finds in a text with a semicolon at the end has
that semicolon, but for a text with two. -/
lemma splitSQLs_last {text : List Char} {sqls : List (List Char)}
    (h : splitSQLs (text ++ [';']) = .ok sqls) :
    (∃ sql ∈ sqls, ';' ∈ sql) ∨ ∃ before, text = before ++ [';'] := by
  simp only [splitSQLs, bind_eq_ok, pure_eq_ok] at h
  obtain ⟨index, hindex, rfl⟩ := h
  have hmem := splitIndexes_mem hindex
  cases index using List.reverseRecOn with
  | nil => exact .inl ⟨text ++ [';'], by simp [split], by simp⟩
  | append_singleton index point =>
    obtain ⟨k, hk, hsemicolon, hne⟩ := hmem point (by simp)
    obtain rfl : point = k := by omega
    have hlt : point < text.length + 1 := by
      simpa using (List.getElem?_eq_some_iff.mp hsemicolon).1
    rw [List.length_append, List.length_singleton, Nat.add_sub_cancel] at hne
    by_cases hend : point + 1 = text.length
    · right
      rw [List.getElem?_append_left (by omega)] at hsemicolon
      rw [← List.getLast?_eq_some_iff, List.getLast?_eq_getElem?, ← hsemicolon]
      congr 1
      omega
    · left
      have hdrop : (text ++ [';']).drop (point + 1) = text.drop (point + 1) ++ [';'] :=
        List.drop_append_of_le_length (by omega)
      have hspace : ¬ (text.drop (point + 1) ++ [';']).all isSpace = true := by
        simp [isSpace]
      refine ⟨text.drop (point + 1) ++ [';'], ?_, by simp⟩
      simp [split, List.foldl_append, hdrop, hend, hspace]

end Ends

/-! ### All four -/

lemma mem_of_mem_rdropWhile {α : Type} {p : α → Bool} {a : α} {l : List α}
    (ha : a ∈ l.rdropWhile p) : a ∈ l :=
  (List.rdropWhile_prefix p _).subset ha

lemma not_blank_of_mem {statements : List (List Char)} {s : List Char}
    (h : s ∈ nonBlank statements) : isBlank s = false := by
  simpa using (List.mem_filter.mp h).2

end Moonbox.Jdbc
