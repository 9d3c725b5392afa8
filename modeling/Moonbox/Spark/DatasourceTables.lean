import Moonbox.Parser.StringLiterals
import Moonbox.Spark.SparkEngine

/-!
# Tables of data sources

The engine gives a table to Spark as the text of a `CREATE TABLE`, into which it puts the
properties as they are. Spark reads the text with its own grammar.
-/

namespace Moonbox.Spark

open Catalog Moonbox.Core Moonbox.Parser JavaStrings
open Quotation (double double_cons double_append double_of_not_mem read_double)

/-! ### The text -/

def quoteIdentifier (name : Text) : Text := '`' :: double '`' name ++ ['`']

/-- `TableIdentifier.quotedString` -/
def quotedString (table : TableIdentifier) : Text :=
  match table.database with
  | some db => quoteIdentifier db.toList ++ '.' :: quoteIdentifier table.table.toList
  | none => quoteIdentifier table.table.toList

def schemaText (props : Properties) : Text :=
  match props.lookup "schema" with
  | some s => '(' :: s.toList ++ [')']
  | none => []

def optionText (p : Text × Text) : Text :=
  '\'' :: p.1 ++ '\'' :: ' ' :: '\'' :: p.2 ++ ['\'']

/-- `mkString(",")` -/
def optionsText : List (Text × Text) → Text
  | [] => []
  | [p] => optionText p
  | p :: p' :: ps => optionText p ++ ',' :: optionsText (p' :: ps)

def texts (props : Properties) : List (Text × Text) := props.map fun p => (p.1.toList, p.2.toList)

def partitionText (props : Properties) : Text :=
  match (props.lookup "partitionColumns").orElse fun _ => props.lookup "partitionColumnNames" with
  | some s => "PARTITIONED BY (".toList ++ s.toList ++ [')']
  | none => []

/-- A line break and the margin of the next line. -/
def margin : Text := "\n         \t\t\t   |".toList

/-- The statement, for a data source. -/
def createTableText (source : Text) (table : TableIdentifier) (props : Properties) : Text :=
  stripMargin (
    margin ++ "create table if not exists ".toList ++ quotedString table ++ schemaText props ++
    margin ++ "using ".toList ++ source ++
    margin ++ "options(".toList ++ optionsText (texts props) ++ [')'] ++
    margin ++ partitionText props ++ "\n\t\t\t ".toList)

/-- The statement that is run, where `lookupDataSource` is what is registered with
`DataSystem`. -/
def registerDatasourceTable (lookupDataSource : String → String) (table : TableIdentifier)
    (props : Properties) : Except String Text :=
  match props.lookup "type" with
  | some type => .ok (createTableText (lookupDataSource type).toList table props)
  | none => .error "key not found: type"

/-! ### Its reading -/

/-- What of Spark's grammar stands in the statement where the properties do: its lists of columns,
its names, its keys and values without quotes, and what may follow after the options. -/
structure SparkGrammar where
  colTypeList : Text → Option (ColumnFields × Text)
  qualifiedName : Text → Option (Text × Text)
  bareKey : Text → Option (Text × Text)
  bareValue : Text → Option (Text × Text)
  clauses : Text → Bool

/-- A table as it is declared to Spark. -/
structure TableDefinition where
  columns : Option ColumnFields
  options : List (Text × Text)

def skipBlanks (text : Text) : Text := text.dropWhile isTrimmed

def expect (word text : Text) : Option Text :=
  if word.isPrefixOf text then some (text.drop word.length) else none

def backquoted : Quotation := ⟨'`', true, none⟩

def readIdentifier (text : Text) : Option (Text × Text) := do
  backquoted.read 0 (← expect ['`'] text)

/-- What is after the name of the table. -/
def afterTableIdentifier (text : Text) : Option Text := do
  let (_, rest) ← readIdentifier text
  match rest with
  | '.' :: rest => (readIdentifier rest).map Prod.snd
  | _ => some rest

variable (G : SparkGrammar)

def readColumns (text : Text) : Option (Option ColumnFields × Text) :=
  match text with
  | '(' :: text => do
    let (columns, rest) ← G.colTypeList text
    let rest ← expect [')'] rest
    some (some columns, rest)
  | _ => some (none, text)

def readToken (bare : Text → Option (Text × Text)) (text : Text) : Option (Text × Text) :=
  if text.head? = some '\'' ∨ text.head? = some '"' then readString text else bare text

def skipEq (text : Text) : Text :=
  match skipBlanks text with
  | '=' :: rest => skipBlanks rest
  | rest => rest

def tableProperty (text : Text) : Option ((Text × Text) × Text) := do
  let (key, rest) ← readToken G.bareKey text
  let (value, rest) ← readToken G.bareValue (skipEq rest)
  some ((key, value), skipBlanks rest)

def tablePropertyList : Nat → Text → Option (List (Text × Text) × Text)
  | 0, _ => none
  | fuel + 1, text => do
    let (p, rest) ← tableProperty G (skipBlanks text)
    match rest with
    | ',' :: rest =>
      let (ps, rest) ← tablePropertyList fuel rest
      some (p :: ps, rest)
    | ')' :: rest => some ([p], rest)
    | _ => none

/-- A key is there once. -/
def readOptions (text : Text) : Option (List (Text × Text)) := do
  let (options, rest) ← tablePropertyList G text.length text
  if (options.map Prod.fst).Nodup ∧ G.clauses rest = true then some options else none

def readCreateTable (text : Text) : Option TableDefinition := do
  let text ← expect "create table if not exists ".toList (skipBlanks text)
  let text ← afterTableIdentifier text
  let (columns, text) ← readColumns G text
  let text ← expect "using ".toList (skipBlanks text)
  let (_, text) ← G.qualifiedName text
  let text ← expect "options(".toList (skipBlanks text)
  let options ← readOptions G text
  some ⟨columns, options⟩

variable {G} {text rest after name : Text} {p : Text × Text} {ps : List (Text × Text)}
  {source : Text} {table : TableIdentifier} {props : Properties}

/-! ### Margins in the text -/

def stripped (p : Text × Text) : Text × Text := (stripFrom none p.1, stripFrom none p.2)

lemma stripFrom_margin : stripFrom none (margin ++ rest) = '\n' :: stripFrom none rest := rfl

lemma stripMargin_margin : stripMargin (margin ++ rest) = '\n' :: stripFrom none rest := rfl

lemma stripFrom_optionText (p : Text × Text) :
    stripFrom none (optionText p ++ rest) = optionText (stripped p) ++ stripFrom none rest := by
  have hquote : IsSolid '\'' := by decide
  have hblank : ∀ text, stripFrom none (' ' :: text) = ' ' :: stripFrom none text := fun _ => rfl
  simp only [optionText, stripped, List.cons_append, List.append_assoc, List.nil_append,
    stripFrom_solid hquote, stripFrom_append hquote, hblank]

lemma stripFrom_optionsText (ps : List (Text × Text)) : stripFrom none (optionsText ps ++ rest) =
    optionsText (ps.map stripped) ++ stripFrom none rest := by
  induction ps with
  | nil => rfl
  | cons p ps ih =>
    cases ps with
    | nil => exact stripFrom_optionText p
    | cons p' ps =>
      have hcomma : IsSolid ',' := by decide
      simp only [List.map_cons] at ih
      simp only [optionsText, List.map_cons, List.append_assoc, List.cons_append,
        stripFrom_optionText, stripFrom_solid hcomma, ih]

lemma stripFrom_double {quote : Char} (hquote : IsSolid quote) (name : Text) (state : LineState)
    (hstate : ∀ c ∈ state.getD [], isTrimmed c = true) :
    stripFrom state (double quote name) = double quote (stripFrom state name) := by
  have hblanks : double quote (state.getD []) = state.getD [] :=
    double_of_not_mem fun h => absurd (hstate quote h) (by simp [hquote.1])
  induction name generalizing state with
  | nil =>
    cases state with
    | none => rfl
    | some blanks => exact hblanks.symm
  | cons c name ih =>
    have hnone := ih none (by simp) rfl
    rw [double_cons]
    by_cases hc : c = quote
    · subst hc
      cases state with
      | none => simp [stripFrom_solid hquote, hnone, double_cons]
      | some blanks =>
        simp only [Option.getD_some] at hblanks
        simp [stripFrom, hquote.not_isLineBreak, hquote.1, hquote.2, hnone, double_cons,
          double_append, hblanks]
    · rw [if_neg hc]
      cases state with
      | none =>
        rw [stripFrom, stripFrom, double_cons, if_neg hc]
        split_ifs
        · rw [ih (some []) (by simp) rfl]
        · rw [hnone]
      | some blanks =>
        simp only [Option.getD_some] at hblanks hstate
        simp only [stripFrom]
        split_ifs with hbreak hblank hbar
        · rw [double_append, double_cons, if_neg hc, hblanks, ih (some []) (by simp) rfl]
        · refine ih (some (blanks ++ [c])) ?_ ?_
          · simpa [or_imp, forall_and, hblank] using hstate
          · rw [Option.getD_some, double_append, hblanks, double_cons, if_neg hc]
            rfl
        · exact hnone
        · rw [double_append, double_cons, if_neg hc, hblanks, hnone]

lemma stripFrom_quoteIdentifier (name : Text) : stripFrom none (quoteIdentifier name ++ rest) =
    quoteIdentifier (stripFrom none name) ++ stripFrom none rest := by
  have hquote : IsSolid '`' := by decide
  have hname := stripFrom_double hquote name none (by simp)
  simp only [quoteIdentifier, List.cons_append, List.append_assoc, List.nil_append,
    stripFrom_solid hquote, stripFrom_append hquote, hname]

/-! ### What stands before the options -/

lemma expect_append (word : Text) : expect word (word ++ rest) = some rest := by
  simp [expect]

lemma readIdentifier_quoteIdentifier (hrest : rest.head? ≠ some '`') :
    readIdentifier (quoteIdentifier name ++ rest) = some (name, rest) := by
  have hquoted : quoteIdentifier name ++ rest = ['`'] ++ (double '`' name ++ '`' :: rest) := by
    simp [quoteIdentifier]
  rw [readIdentifier, hquoted, expect_append]
  exact read_double (k := backquoted) rfl (by simp [Quotation.Plain, backquoted]) hrest

/-- The name of the table is read, though perhaps another one. -/
lemma quotedString_read (table : TableIdentifier) : ∃ quoted,
    (∀ rest, stripFrom none (quotedString table ++ rest) = quoted ++ stripFrom none rest) ∧
      ∀ rest : Text, rest.head? ≠ some '`' → rest.head? ≠ some '.' →
        afterTableIdentifier (quoted ++ rest) = some rest := by
  obtain ⟨name, _ | db⟩ := table
  · refine ⟨_, fun rest => stripFrom_quoteIdentifier _, fun rest hquote hdot => ?_⟩
    rw [afterTableIdentifier, readIdentifier_quoteIdentifier hquote]
    cases rest with
    | nil => rfl
    | cons c rest =>
      have hc : c ≠ '.' := by simpa using hdot
      simp only [Option.bind_eq_bind, Option.bind_some]
      split
      · rename_i heq
        exact absurd (List.cons.inj heq).1 hc
      · rfl
  · refine ⟨quoteIdentifier (stripFrom none db.toList) ++
      '.' :: quoteIdentifier (stripFrom none name.toList), fun rest => ?_, fun rest hquote _ => ?_⟩
    · have hdot : IsSolid '.' := by decide
      simp only [quotedString, List.append_assoc, List.cons_append, stripFrom_quoteIdentifier,
        stripFrom_solid hdot]
    · rw [List.append_assoc, afterTableIdentifier,
        readIdentifier_quoteIdentifier (by simp)]
      simp [readIdentifier_quoteIdentifier hquote]

/-- What is printed after the options. -/
def clausesText (props : Properties) : Text :=
  '\n' :: stripFrom none (partitionText props ++ "\n\t\t\t ".toList)

variable (G) in
/-- The name of the data source, the text of the schema and that of the partition columns are read
each in its place, so that the options are read in theirs. -/
structure Stands (source : Text) (props : Properties) : Prop where
  source_line : source.any isLineBreak = false
  source_name : ∃ name, ∀ rest, G.qualifiedName (source ++ '\n' :: rest) = some (name, '\n' :: rest)
  schema : ∀ s, props.lookup "schema" = some s →
    ∃ columns, ∀ rest, G.colTypeList (stripFrom none s.toList ++ ')' :: rest) =
      some (columns, ')' :: rest)
  partition_clause : G.clauses (clausesText props) = true

variable (G) in
/-- The columns that the property `schema` declares. -/
def columnsOf (props : Properties) : Option ColumnFields :=
  (props.lookup "schema").bind fun s =>
    (G.colTypeList (stripFrom none s.toList ++ [')'])).map Prod.fst

lemma readColumns_schemaText (h : Stands G source props) (rest : Text) :
    ∃ printed, (∀ rest, stripFrom none (schemaText props ++ rest) =
      printed ++ stripFrom none rest) ∧
      (printed ++ '\n' :: rest).head? ≠ some '`' ∧ (printed ++ '\n' :: rest).head? ≠ some '.' ∧
      readColumns G (printed ++ '\n' :: rest) = some (columnsOf G props, '\n' :: rest) := by
  cases hs : props.lookup "schema" with
  | none =>
    refine ⟨[], fun rest => ?_, by simp, by simp, ?_⟩
    · simp [schemaText, hs]
    · simp [readColumns, columnsOf, hs]
  | some s =>
    obtain ⟨columns, hread⟩ := h.schema s hs
    have hopen : IsSolid '(' := by decide
    have hclose : IsSolid ')' := by decide
    refine ⟨'(' :: stripFrom none s.toList ++ [')'], fun rest => ?_, by simp, by simp, ?_⟩
    · simp only [schemaText, hs, List.cons_append, List.append_assoc, List.nil_append,
        stripFrom_solid hopen, stripFrom_append hclose]
    · have hrest := hread ('\n' :: rest)
      simp only [List.cons_append, List.append_assoc, List.nil_append, readColumns, hrest,
        columnsOf, hs, hread [], Option.bind_eq_bind, Option.bind_some, Option.map_some]
      rfl

/-- The text is read up to the options. -/
lemma readCreateTable_eq (h : Stands G source props) :
    readCreateTable G (createTableText source table props) =
      (readOptions G (optionsText ((texts props).map stripped) ++ ')' :: clausesText props)).map
        fun options => ⟨columnsOf G props, options⟩ := by
  have hclose : IsSolid ')' := by decide
  obtain ⟨quoted, hquoted, htable⟩ := quotedString_read table
  obtain ⟨name, hname⟩ := h.source_name
  have hskip : ∀ {word text : Text}, (∀ c, word.head? = some c → isTrimmed c = false) → word ≠ [] →
      skipBlanks ('\n' :: (word ++ text)) = word ++ text := by
    intro word text hword hne
    obtain ⟨c, word, rfl⟩ := List.exists_cons_of_ne_nil hne
    simp [skipBlanks, hword c rfl, show isTrimmed '\n' = true from rfl]
  obtain ⟨printed, hprinted, hhead, hdot, hcolumns⟩ := readColumns_schemaText h
    ("using ".toList ++ (source ++ '\n' :: ("options(".toList ++
      (optionsText ((texts props).map stripped) ++ ')' :: clausesText props))))
  have htext : createTableText source table props =
      '\n' :: ("create table if not exists ".toList ++ (quoted ++ (printed ++ '\n' ::
        ("using ".toList ++ (source ++ '\n' :: ("options(".toList ++
          (optionsText ((texts props).map stripped) ++ ')' :: clausesText props))))))) := by
    have hheader : "create table if not exists ".toList.any isLineBreak = false := rfl
    have husing : "using ".toList.any isLineBreak = false := rfl
    have hoptions : "options(".toList.any isLineBreak = false := rfl
    simp only [createTableText, List.append_assoc, stripMargin_margin, stripFrom_line hheader,
      hquoted, hprinted, stripFrom_margin, stripFrom_line husing, stripFrom_line h.source_line,
      stripFrom_line hoptions, stripFrom_optionsText, List.cons_append, List.nil_append,
      stripFrom_solid hclose, clausesText]
  rw [readCreateTable, htext, hskip (by simp [isTrimmed]) (by simp), expect_append]
  simp only [Option.bind_eq_bind, Option.bind_some, htable _ hhead hdot, hcolumns]
  rw [hskip (by simp [isTrimmed]) (by simp), expect_append]
  simp only [Option.bind_some, hname]
  rw [hskip (by simp [isTrimmed]) (by simp), expect_append]
  rw [Option.bind_some]
  cases readOptions G (optionsText ((texts props).map stripped) ++ ')' :: clausesText props) <;> rfl

/-! ### The options -/

/-- It has no margin to lose and stands for itself between single quotes. -/
def Kept (text : Text) : Prop := stripFrom none text = text ∧ Verbatim '\'' text

lemma readToken_quoted (bare : Text → Option (Text × Text)) (text : Text) :
    readToken bare ('\'' :: text) = readString ('\'' :: text) := by
  simp [readToken]

lemma skipEq_quoted : skipEq (' ' :: '\'' :: text) = '\'' :: text := by
  simp [skipEq, skipBlanks, isTrimmed]

lemma tableProperty_kept (h1 : Kept p.1) (h2 : Kept p.2) :
    tableProperty G (optionText (stripped p) ++ rest) = some (p, skipBlanks rest) := by
  have hkey : readString ('\'' :: p.1 ++ '\'' :: (' ' :: '\'' :: p.2 ++ '\'' :: rest)) = _ :=
    readString_verbatim (.inl rfl) h1.2
  have hvalue : readString ('\'' :: p.2 ++ '\'' :: rest) = _ :=
    readString_verbatim (.inl rfl) h2.2
  simp only [List.cons_append] at hkey hvalue
  simp only [tableProperty, optionText, stripped, h1.1, h2.1, List.cons_append, List.append_assoc,
    List.nil_append, readToken_quoted, hkey, Option.bind_eq_bind, Option.bind_some, skipEq_quoted,
    hvalue]

lemma kept_of_tableProperty
    (hafter : ∀ body rest, stringBody '\'' false after = some (body, rest) → body = [','])
    (h : tableProperty G (optionText (stripped p) ++ after) = some (p, rest)) :
    Kept p.1 ∧ Kept p.2 ∧ rest = skipBlanks after := by
  simp only [tableProperty, optionText, stripped, List.cons_append, List.append_assoc,
    List.nil_append, readToken_quoted, Option.bind_eq_bind, Option.bind_eq_some_iff] at h
  obtain ⟨⟨key, rest1⟩, hkey, ⟨value, rest2⟩, hvalue, hp⟩ := h
  obtain ⟨rfl, rfl⟩ : (key, value) = p ∧ skipBlanks rest2 = rest := by simpa using hp
  have hbetween : ∀ body rest,
      stringBody '\'' false (' ' :: '\'' :: (stripFrom none value ++ '\'' :: after)) =
        some (body, rest) → body = [' '] ∨ body = [','] := by
    intro body rest hbody
    obtain ⟨rfl, -⟩ : [' '] = body ∧ _ = rest := by
      simpa [stringBody, Quotation.prepend] using hbody
    exact .inl rfl
  obtain ⟨hkeystrip, hkeyverbatim, rfl⟩ := verbatim_of_readString (.inl rfl) hbetween hkey
  rw [skipEq_quoted, readToken_quoted] at hvalue
  obtain ⟨hvaluestrip, hvalueverbatim, rfl⟩ := verbatim_of_readString (.inl rfl)
    (fun body rest hbody => .inr (hafter body rest hbody)) hvalue
  exact ⟨⟨hkeystrip, hkeyverbatim⟩, ⟨hvaluestrip, hvalueverbatim⟩, rfl⟩

lemma skipBlanks_optionText (p : Text × Text) :
    skipBlanks (optionText p ++ rest) = optionText p ++ rest := by
  simp [skipBlanks, optionText, isTrimmed]

/-- The options that stand for themselves are read as they are. -/
lemma tablePropertyList_kept (hps : ∀ p ∈ ps, Kept p.1 ∧ Kept p.2) (hne : ps ≠ []) {fuel : Nat}
    (hfuel : ps.length ≤ fuel) :
    tablePropertyList G fuel (optionsText (ps.map stripped) ++ ')' :: rest) = some (ps, rest) := by
  induction ps generalizing fuel with
  | nil => exact absurd rfl hne
  | cons p ps ih =>
    obtain ⟨hp1, hp2⟩ := hps p List.mem_cons_self
    obtain ⟨fuel, rfl⟩ : ∃ n, fuel = n + 1 := ⟨fuel - 1, by simp at hfuel; omega⟩
    cases ps with
    | nil =>
      rw [List.map_singleton, optionsText, tablePropertyList, skipBlanks_optionText,
        tableProperty_kept hp1 hp2]
      rfl
    | cons p' ps =>
      have hlength : (p' :: ps).length ≤ fuel := by simpa using hfuel
      have hrest := ih (fun q hq => hps q (List.mem_cons_of_mem p hq)) (List.cons_ne_nil _ _)
        hlength
      rw [List.map_cons, List.map_cons, optionsText, List.append_assoc, List.cons_append,
        ← List.map_cons, tablePropertyList, skipBlanks_optionText, tableProperty_kept hp1 hp2]
      have hcomma : skipBlanks (',' :: (optionsText ((p' :: ps).map stripped) ++ ')' :: rest)) =
          ',' :: (optionsText ((p' :: ps).map stripped) ++ ')' :: rest) := by
        simp [skipBlanks, isTrimmed]
      simp only [Option.bind_eq_bind, Option.bind_some, hcomma, hrest]

lemma tablePropertyList_eq_some {fuel : Nat}
    (h : tablePropertyList G (fuel + 1) text = some (p :: ps, rest)) :
    ∃ rest', tableProperty G (skipBlanks text) = some (p, rest') ∧
      (rest' = ')' :: rest ∨
        ∃ rest1, rest' = ',' :: rest1 ∧ tablePropertyList G fuel rest1 = some (ps, rest)) := by
  rw [tablePropertyList, Option.bind_eq_bind, Option.bind_eq_some_iff] at h
  obtain ⟨⟨q, rest'⟩, hread, h⟩ := h
  dsimp only at h
  split at h
  · rename_i rest1
    obtain ⟨⟨qs, rest2⟩, hlist, h⟩ := Option.bind_eq_some_iff.mp h
    obtain ⟨⟨rfl, rfl⟩, rfl⟩ : (q = p ∧ qs = ps) ∧ rest2 = rest := by simpa using h
    exact ⟨_, hread, .inr ⟨rest1, rfl, hlist⟩⟩
  · obtain ⟨⟨rfl, -⟩, rfl⟩ : (q = p ∧ [] = ps) ∧ _ = rest := by simpa using h
    exact ⟨_, hread, .inl rfl⟩
  · cases h

/-- If the options are read as they are, each stands for itself. -/
lemma kept_of_tablePropertyList (hquote : '\'' ∉ after) {fuel : Nat}
    (h : tablePropertyList G fuel (optionsText (ps.map stripped) ++ ')' :: after) =
      some (ps, rest)) : ∀ p ∈ ps, Kept p.1 ∧ Kept p.2 := by
  induction ps generalizing fuel with
  | nil => simp
  | cons p ps ih =>
    cases fuel with
    | zero => cases h
    | succ fuel =>
      obtain ⟨rest', hread, hnext⟩ := tablePropertyList_eq_some h
      cases ps with
      | nil =>
        rw [List.map_singleton, optionsText, skipBlanks_optionText] at hread
        have hafter : ∀ body rest, stringBody '\'' false (')' :: after) = some (body, rest) →
            body = [','] := by
          intro body rest hbody
          rw [stringBody_of_not_mem (by simpa using hquote)] at hbody
          cases hbody
        obtain ⟨h1, h2, -⟩ := kept_of_tableProperty hafter hread
        simpa using ⟨h1, h2⟩
      | cons p' ps =>
        rw [List.map_cons, List.map_cons, optionsText, List.append_assoc, List.cons_append,
          ← List.map_cons, skipBlanks_optionText] at hread
        obtain ⟨more, hmore⟩ : ∃ more, optionsText ((p' :: ps).map stripped) = '\'' :: more := by
          cases ps <;> exact ⟨_, rfl⟩
        have hafter : ∀ body rest, stringBody '\'' false
            (',' :: (optionsText ((p' :: ps).map stripped) ++ ')' :: after)) = some (body, rest) →
            body = [','] := by
          intro body rest hbody
          rw [hmore] at hbody
          obtain ⟨rfl, -⟩ : [','] = body ∧ _ = rest := by
            simpa [stringBody, Quotation.prepend] using hbody
          rfl
        obtain ⟨h1, h2, rfl⟩ := kept_of_tableProperty hafter hread
        have hcomma : skipBlanks (',' :: (optionsText ((p' :: ps).map stripped) ++ ')' :: after)) =
            ',' :: (optionsText ((p' :: ps).map stripped) ++ ')' :: after) := by
          simp [skipBlanks, isTrimmed]
        rw [hcomma] at hnext
        rcases hnext with hnext | ⟨rest1, hrest1, hlist⟩
        · exact absurd (List.cons.inj hnext).1 (by decide)
        · obtain rfl := (List.cons.inj hrest1).2
          exact List.forall_mem_cons.mpr ⟨⟨h1, h2⟩, ih hlist⟩

lemma length_le_optionsText (ps : List (Text × Text)) : ps.length ≤ (optionsText ps).length := by
  induction ps with
  | nil => simp
  | cons p ps ih =>
    cases ps with
    | nil => simp [optionsText, optionText]
    | cons p' ps =>
      have hlength : (optionsText (p :: p' :: ps)).length =
          (optionText p).length + (optionsText (p' :: ps)).length + 1 := by
        simp [optionsText, Nat.add_assoc]
      simp only [List.length_cons] at ih ⊢
      omega

/-! ### The table that is read -/

variable {declared : Option ColumnFields}

variable (G) in
/-- The table has the declared columns and, in the order in which they are printed, the
properties as its options. -/
def IsDeclared (declared : Option ColumnFields) (props : Properties) (text : Text) : Prop :=
  ∃ d, readCreateTable G text = some d ∧
    (∀ columns, declared = some columns → d.columns = some columns) ∧ d.options = texts props

variable (G) in
/-- The columns are declared again in the property `schema`, and keys and values stand for
themselves. -/
structure KeepsDeclaration (declared : Option ColumnFields) (props : Properties) : Prop where
  columns : ∀ columns, declared = some columns → columnsOf G props = some columns
  options : ∀ p ∈ texts props, Kept p.1 ∧ Kept p.2

lemma nodup_keys_texts (h : (props.map Prod.fst).Nodup) : ((texts props).map Prod.fst).Nodup := by
  have hmap : (texts props).map Prod.fst = (props.map Prod.fst).map String.toList := by
    simp [texts]
  rw [hmap]
  exact h.map fun _ _ => String.toList_injective

lemma isDeclared_of_keeps (h : Stands G source props) (hkeys : (props.map Prod.fst).Nodup)
    (hne : props ≠ []) (hkeeps : KeepsDeclaration G declared props) :
    IsDeclared G declared props (createTableText source table props) := by
  have hlength : (texts props).length ≤
      (optionsText ((texts props).map stripped) ++ ')' :: clausesText props).length := by
    have := length_le_optionsText ((texts props).map stripped)
    rw [List.length_map] at this
    rw [List.length_append]
    omega
  have hread := @tablePropertyList_kept G (clausesText props) (texts props) hkeeps.options
    (by simpa [texts] using hne) _ hlength
  refine ⟨⟨columnsOf G props, texts props⟩, ?_, hkeeps.columns, rfl⟩
  rw [readCreateTable_eq h, readOptions, hread]
  simp [nodup_keys_texts hkeys, h.partition_clause]

lemma keeps_of_isDeclared (h : Stands G source props) (hquote : '\'' ∉ clausesText props)
    (hdeclared : IsDeclared G declared props (createTableText source table props)) :
    KeepsDeclaration G declared props := by
  obtain ⟨d, hread, hcolumns, hoptions⟩ := hdeclared
  rw [readCreateTable_eq h, Option.map_eq_some_iff] at hread
  obtain ⟨options, hread, rfl⟩ := hread
  obtain rfl : options = texts props := hoptions
  rw [readOptions, Option.bind_eq_bind, Option.bind_eq_some_iff] at hread
  obtain ⟨⟨options, rest⟩, hlist, hread⟩ := hread
  obtain ⟨-, rfl⟩ : _ ∧ options = texts props := by simpa using hread
  exact ⟨hcolumns, kept_of_tablePropertyList hquote hlist⟩

end Moonbox.Spark
