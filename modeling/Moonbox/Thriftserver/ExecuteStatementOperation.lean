import Moonbox.Interactive.SparkServerHandler
import Moonbox.Lib.JavaStrings
import Moonbox.Lib.Outcomes

/-!
# `MoonboxExecuteStatementOperation`

A statement of a Hive client. It is run over JDBC, and the rows of its result are handed out in row
sets. A row set is the list of its rows, and rows are lists of values.
-/

namespace Moonbox.Thriftserver

open Interactive

variable {V : Type}

/-! ### Results of JDBC -/

inductive JDBCType
  | null | char | smallint | integer | bigint | float | double | decimal | boolean | varchar | date
  | timestamp | binary | array | struct | javaObject
  deriving DecidableEq

def JDBCType.getName : JDBCType → String
  | null => "NULL"
  | char => "CHAR"
  | smallint => "SMALLINT"
  | integer => "INTEGER"
  | bigint => "BIGINT"
  | float => "FLOAT"
  | double => "DOUBLE"
  | decimal => "DECIMAL"
  | boolean => "BOOLEAN"
  | varchar => "VARCHAR"
  | date => "DATE"
  | timestamp => "TIMESTAMP"
  | binary => "BINARY"
  | array => "ARRAY"
  | struct => "STRUCT"
  | javaObject => "JAVA_OBJECT"

def convertTypeToSQLType : DataTypePB → JDBCType
  | .byteType => .char
  | .shortType => .smallint
  | .integerType => .integer
  | .longType => .bigint
  | .floatType => .float
  | .doubleType => .double
  | .decimalType _ _ => .decimal
  | .booleanType => .boolean
  | .charType => .char
  | .varcharType => .varchar
  | .stringType => .varchar
  | .dateType => .date
  | .timestampType => .timestamp
  | .binaryType => .binary
  | .arrayType _ => .array
  | .mapType _ _ => .javaObject
  | .strucType _ => .struct
  | .objectType => .javaObject
  | .nullType => .null

/-- A result with the rows of its current page that are left and the pages that are still to be
fetched. There is more data as long as there are such pages. -/
structure MoonboxResult (V : Type) where
  fields : List (String × DataTypePB)
  currentData : List (List V)
  later : List (List (List V))

namespace MoonboxResult

def rows (r : MoonboxResult V) : List (List V) := r.currentData ++ r.later.flatten

/-- `fetchMoreData` when there is no row left on the page. -/
def nextFrom (fields : List (String × DataTypePB)) :
    List (List V) → List (List (List V)) → Bool × MoonboxResult V
  | _ :: currentData, later => (true, ⟨fields, currentData, later⟩)
  | [], page :: later => nextFrom fields page later
  | [], [] => (false, ⟨fields, [], []⟩)

def next (r : MoonboxResult V) : Bool × MoonboxResult V :=
  nextFrom r.fields r.currentData r.later

lemma nextFrom_iff (fields : List (String × DataTypePB)) (currentData : List (List V))
    (later : List (List (List V))) :
    (nextFrom fields currentData later).1 = true ↔ currentData ++ later.flatten ≠ [] := by
  induction later generalizing currentData with
  | nil => cases currentData <;> simp [nextFrom]
  | cons page later ih =>
    cases currentData with
    | nil => simpa [nextFrom] using ih page
    | cons row rows => simp [nextFrom]

lemma nextFrom_rows (fields : List (String × DataTypePB)) (currentData : List (List V))
    (later : List (List (List V))) :
    (nextFrom fields currentData later).2.rows = (currentData ++ later.flatten).tail := by
  induction later generalizing currentData with
  | nil => cases currentData <;> simp [nextFrom, rows]
  | cons page later ih =>
    cases currentData with
    | nil => simpa [nextFrom] using ih page
    | cons row rows' => simp [nextFrom, rows]

lemma next_iff (r : MoonboxResult V) : r.next.1 = true ↔ r.rows ≠ [] := nextFrom_iff _ _ _

lemma next_rows (r : MoonboxResult V) : r.next.2.rows = r.rows.tail := nextFrom_rows _ _ _

end MoonboxResult

/-! ### Schemas -/

structure ColumnDescriptor where
  name : String
  type : String
  comment : String

abbrev TableSchema := List ColumnDescriptor

def toHiveType : JDBCType → String
  | .null => "void"
  | .integer => "int"
  | .javaObject => "map"
  | .decimal => "decimal(38,18)"
  | dataType => dataType.getName

def convert2HiveSchema (r : MoonboxResult V) : TableSchema :=
  if r.fields.length = 0 then [⟨"Result", "string", ""⟩]
  else r.fields.map fun f => ⟨f.1, toHiveType (convertTypeToSQLType f.2), ""⟩

def tablesSchema : TableSchema :=
  [⟨"database", "string", "database name"⟩, ⟨"tableName", "string", "table name"⟩,
    ⟨"isTemporary", "boolean", "temporary"⟩]

def descSchema : TableSchema :=
  [⟨"col_name", "string", "column name"⟩, ⟨"data_type", "string", "datatype"⟩,
    ⟨"comment", "string", "comment"⟩]

/-! ### Running a statement -/

/-- What the platform and the connection do. -/
structure Connection (V : Type) where
  toUpperCase : List Char → List Char
  executeQuery : List Char → Except String (MoonboxResult V)

structure Operation (V : Type) where
  moonboxResultSet : Option (MoonboxResult V)
  resultSchema : Option TableSchema

def startsWith (pre : String) (text : List Char) : Bool := pre.toList.isPrefixOf text

def stripPrime (statement : List Char) : List Char := JavaStrings.replace "`".toList [] statement

def schemaToDatabase (statement : List Char) : List Char :=
  let splitter := "DESCRIBE SCHEMA".length
  JavaStrings.replace "SCHEMA".toList "DATABASE".toList (statement.take splitter) ++
    statement.drop splitter

def mbDescStatement (statement : List Char) : List Char :=
  let unChange := ["DESC TABLE", "DESCRIBE TABLE", "DESC DATABASE", "DESCRIBE DATABASE",
    "DESC FUNCTION", "DESCRIBE FUNCTION"]
  let descSchema := ["DESC SCHEMA", "DESCRIBE SCHEMA"]
  let mbDescStatement :=
    if unChange.any (startsWith · statement) then statement
    else if descSchema.any (startsWith · statement) then schemaToDatabase statement
    else if startsWith "DESC" statement then
      "DESC TABLE ".toList ++ JavaStrings.trim (statement.drop "DESC".length)
    else "DESCRIBE TABLE ".toList ++
      JavaStrings.trim (if startsWith "DESCRIBE" statement then statement.drop "DESCRIBE".length
        else statement)
  stripPrime mbDescStatement

variable (connection : Connection V)

def doMoonboxQuery (mbStatement : List Char) : Except String (MoonboxResult V) :=
  match connection.executeQuery mbStatement with
  | .ok r => .ok r
  | .error e => .error ("HiveSQLException: " ++ e)

def handleShowStatement (mbStatement : List Char) (isDatabases : Bool) :
    Except String (Operation V) := do
  let result ← doMoonboxQuery connection mbStatement
  let resultSchema := if isDatabases then convert2HiveSchema result else tablesSchema
  pure ⟨some result, some resultSchema⟩

def handleDescStatement (mbStatement : List Char) : Except String (Operation V) := do
  let result ← doMoonboxQuery connection mbStatement
  pure ⟨some result, some descSchema⟩

def runInternal (statement : List Char) : Except String (Operation V) :=
  let upperStatement := connection.toUpperCase (JavaStrings.trim statement)
  if startsWith "SET" upperStatement then .ok ⟨none, none⟩
  else if startsWith "DESC " upperStatement then
    handleDescStatement connection (mbDescStatement upperStatement)
  else if startsWith "SHOW SCHEMAS" upperStatement || startsWith "SHOW DATABASES" upperStatement then
    handleShowStatement connection "SHOW DATABASES".toList true
  else if startsWith "SHOW TABLES" upperStatement then
    handleShowStatement connection (stripPrime statement) false
  else do
    let result ← doMoonboxQuery connection statement
    pure ⟨some result, some (convert2HiveSchema result)⟩

/-! ### Fetching -/

/-- What a cast meets. -/
inductive JavaObject (V : Type)
  | boolean (b : Bool)
  | array (values : List V)

/-- `asInstanceOf[Array[AnyRef]]` -/
def JavaObject.asArray : JavaObject V → Except String (List V)
  | boolean _ => .error
      "java.lang.ClassCastException: java.lang.Boolean cannot be cast to [Ljava.lang.Object;"
  | array values => .ok values

/-- The row that is added is what `next` returns, and this is called once more for it. -/
def fetchRows (maxRows count : Int) (resultRowSet : List (List V)) (r : MoonboxResult V) :
    Except String (List (List V)) × MoonboxResult V :=
  if count < maxRows then
    if r.next.1 = true then
      match (JavaObject.boolean r.next.2.next.1 : JavaObject V).asArray with
      | .error e => (.error e, r.next.2.next.2)
      | .ok row => fetchRows maxRows (count + 1) (resultRowSet ++ [row]) r.next.2.next.2
    else (.ok resultRowSet, r.next.2)
  else (.ok resultRowSet, r)
termination_by r.rows.length
decreasing_by
  have hne : r.rows ≠ [] := r.next_iff.mp ‹_›
  simp only [MoonboxResult.next_rows, List.length_tail]
  have := List.length_pos_of_ne_nil hne
  omega

namespace Operation

def getNextRowSet (maxRows : Int) (op : Operation V) :
    Except String (List (List V)) × Operation V :=
  match op.moonboxResultSet with
  | none => (.ok [], op)
  | some r =>
    let fetched := fetchRows maxRows 0 [] r
    (fetched.1, { op with moonboxResultSet := some fetched.2 })

/-- One call after the other, until one throws. -/
def getRowSets : List Int → Operation V → Except String (List (List (List V)))
  | [], _ => .ok []
  | maxRows :: sizes, op => do
    let resultRowSet ← (op.getNextRowSet maxRows).1
    let resultRowSets ← getRowSets sizes (op.getNextRowSet maxRows).2
    pure (resultRowSet :: resultRowSets)

end Operation

/-! ### Every row once -/

/-- Whatever the sizes of the row sets, they give the rows in order, all of them once one is empty,
and each with a value for every column of the schema. -/
def HandsOut (op : Operation V) (rows : List (List V)) : Prop :=
  ∀ sizes : List Int, (∀ maxRows ∈ sizes, 0 < maxRows) →
    ∃ sets, op.getRowSets sizes = .ok sets ∧ sets.flatten <+: rows ∧
      ([] ∈ sets → sets.flatten = rows) ∧
      ∀ row ∈ sets.flatten, ∀ schema ∈ op.resultSchema, row.length = schema.length

/-- The result that a statement has, if it is run and has one. -/
def FetchesOnce (connection : Connection V) (statement : List Char) : Prop :=
  ∀ op r, runInternal connection statement = .ok op → op.moonboxResultSet = some r →
    HandsOut op r.rows

def HasNoRows (connection : Connection V) (statement : List Char) : Prop :=
  ∀ op r, runInternal connection statement = .ok op → op.moonboxResultSet = some r → r.rows = []

lemma fetchRows_nil {r : MoonboxResult V} (hrows : r.rows = []) (maxRows count : Int)
    (set : List (List V)) :
    (fetchRows maxRows count set r).1 = .ok set ∧ (fetchRows maxRows count set r).2.rows = [] := by
  rw [fetchRows]
  by_cases hcount : count < maxRows
  · have hnext : ¬ r.next.1 = true := fun h => r.next_iff.mp h hrows
    rw [if_pos hcount, if_neg hnext]
    exact ⟨rfl, by rw [r.next_rows, hrows, List.tail_nil]⟩
  · rw [if_neg hcount]
    exact ⟨rfl, hrows⟩

/-- The first row there is to hand out is not cast. -/
lemma fetchRows_throws {maxRows count : Int} {r : MoonboxResult V} (hcount : count < maxRows)
    (hrows : r.rows ≠ []) (set : List (List V)) :
    ∃ e, (fetchRows maxRows count set r).1 = .error e := by
  rw [fetchRows, if_pos hcount, if_pos (r.next_iff.mpr hrows)]
  exact ⟨_, rfl⟩

lemma getRowSets_nil {sizes : List Int} {op : Operation V} {r : MoonboxResult V}
    (hr : op.moonboxResultSet = some r) (hrows : r.rows = []) :
    op.getRowSets sizes = .ok (sizes.map fun _ => []) := by
  induction sizes generalizing op r with
  | nil => rfl
  | cons maxRows sizes ih =>
    obtain ⟨hset, hleft⟩ := fetchRows_nil hrows maxRows 0 []
    have hget : op.getNextRowSet maxRows =
        ((fetchRows maxRows 0 [] r).1,
          { op with moonboxResultSet := some (fetchRows maxRows 0 [] r).2 }) := by
      simp only [Operation.getNextRowSet, hr]
    rw [Operation.getRowSets, hget, hset, ih rfl hleft]
    rfl

lemma handsOut_iff {op : Operation V} {r : MoonboxResult V} (hr : op.moonboxResultSet = some r) :
    HandsOut op r.rows ↔ r.rows = [] := by
  constructor
  · intro h
    by_contra hne
    obtain ⟨sets, hsets, -⟩ := h [1] (by simp)
    obtain ⟨e, he⟩ := fetchRows_throws Int.one_pos hne []
    simp only [Operation.getRowSets, Operation.getNextRowSet, hr, he] at hsets
    cases hsets
  · intro hnil sizes hsizes
    refine ⟨_, getRowSets_nil hr hnil, ?_⟩
    have hflatten : (sizes.map fun _ => ([] : List (List V))).flatten = [] := by simp
    rw [hflatten, hnil]
    simp

lemma convert2HiveSchema_length (r : MoonboxResult V) :
    (convert2HiveSchema r).length = max 1 r.fields.length := by
  unfold convert2HiveSchema
  split
  · rename_i hzero
    simp [hzero]
  · rename_i hpos
    rw [List.length_map]
    omega

variable {connection : Connection V} {statement : List Char} {op : Operation V}
  {r : MoonboxResult V}

lemma handleDescStatement_eq_ok (h : handleDescStatement connection statement = .ok op) :
    op.resultSchema = some descSchema := by
  obtain ⟨result, -, hop⟩ := Outcome.bind_eq_ok.mp h
  cases hop
  rfl

lemma handleShowStatement_eq_ok {isDatabases : Bool}
    (h : handleShowStatement connection statement isDatabases = .ok op)
    (hr : op.moonboxResultSet = some r) :
    op.resultSchema = some (if isDatabases then convert2HiveSchema r else tablesSchema) := by
  obtain ⟨result, -, hop⟩ := Outcome.bind_eq_ok.mp h
  cases hop
  cases hr
  rfl

/-- A description and a list of tables are given three columns, whatever the result has. -/
theorem runInternal_schema (h : runInternal connection statement = .ok op)
    (hr : op.moonboxResultSet = some r) :
    ∃ schema, op.resultSchema = some schema ∧
      (schema.length = max 1 r.fields.length ∨ schema.length = 3) := by
  dsimp only [runInternal] at h
  split at h
  · cases h
    cases hr
  · split at h
    · exact ⟨_, handleDescStatement_eq_ok h, .inr rfl⟩
    · split at h
      · exact ⟨_, handleShowStatement_eq_ok h hr, .inl (convert2HiveSchema_length r)⟩
      · split at h
        · exact ⟨_, handleShowStatement_eq_ok h hr, .inr rfl⟩
        · obtain ⟨result, -, hop⟩ := Outcome.bind_eq_ok.mp h
          cases hop
          cases hr
          exact ⟨_, rfl, .inl (convert2HiveSchema_length _)⟩

end Moonbox.Thriftserver
