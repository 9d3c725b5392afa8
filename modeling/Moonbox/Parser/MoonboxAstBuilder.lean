import Moonbox.Lib.JavaStrings
import Moonbox.Parser.MqlBase

/-!
# `MoonboxAstBuilder`

The command of a parse tree. Where a visitor takes the text of an identifier as it is, that is
`getText`, and where it takes its quotes off, `tripText`.
-/

namespace Moonbox.Parser

open Catalog Moonbox.Core JavaStrings

/-! ### `ParserUtils` -/

namespace ParserUtils

/-- One quote at each end; no token ends with a line break. -/
def tripQuotes (string : Text) : Text :=
  let string := if (string.head?.map isQuote).getD false then string.tail else string
  if (string.getLast?.map isQuote).getD false then string.dropLast else string

def appendEscapedChar : Char → Text
  | '0' => ['\x00']
  | 'b' => ['\x08']
  | 'n' => ['\n']
  | 'r' => ['\r']
  | 't' => ['\t']
  | 'Z' => ['\x1a']
  | '%' => ['\\', '%']
  | '_' => ['\\', '_']
  | c => [c]

/-- `Character.digit` -/
def hexDigit (c : Char) : Int :=
  if c.isDigit then c.toNat - '0'.toNat
  else if 'a' ≤ c.toLower ∧ c.toLower ≤ 'f' then c.toLower.toNat - 'a'.toNat + 10
  else -1

def octalDigit (most : Char) (c : Char) : Option Nat :=
  if '0' ≤ c ∧ c ≤ most then some (c.toNat - '0'.toNat) else none

/-- After a backslash: what is appended, and how many of the characters are used. -/
def escaped : Text → Text × Nat
  | i1 :: i2 :: rest =>
    if i1 = 'u' ∧ 4 ≤ rest.length then
      let code := ((i2 :: rest).take 4).foldl (fun mid c => mid * 16 + hexDigit c) (0 : Int)
      ([Char.ofNat (code % 65536).toNat], 5)
    else
      match rest with
      | i3 :: _ :: _ =>
        match octalDigit '1' i1, octalDigit '7' i2, octalDigit '7' i3 with
        | some d1, some d2, some d3 => ([Char.ofNat (64 * d1 + 8 * d2 + d3)], 3)
        | _, _, _ => (appendEscapedChar i1, 1)
      | _ => (appendEscapedChar i1, 1)
  | _ => ([], 0)

def unescape (enclosure : Option Char) : Nat → Text → Text
  | _, [] => []
  | skip + 1, _ :: text => unescape enclosure skip text
  | 0, c :: text =>
    match enclosure with
    | none => unescape (if c = '\'' ∨ c = '"' then some c else none) 0 text
    | some quote =>
      if c = quote then unescape none 0 text
      else if c = '\\' then (escaped text).1 ++ unescape enclosure (escaped text).2 text
      else c :: unescape enclosure 0 text

def string (s : Text) : Text := unescape none 0 s

end ParserUtils

/-- The text of a `STRING` without its quotes. -/
def stringText (text : Text) : String := String.ofList (ParserUtils.tripQuotes text)

/-! ### Property lists -/

def put (properties : Properties) (key value : String) : Properties :=
  if properties.any fun p => p.1 == key then
    properties.map fun p => if p.1 == key then (key, value) else p
  else properties ++ [(key, value)]

/-- The last value of a key stays. -/
def toMap (properties : List (String × String)) : Properties :=
  properties.foldl (fun map p => put map p.1 p.2) []

def visitPropertyKey : PropertyKey → String
  | .string text => String.ofList (ParserUtils.string text)
  | .identifiers text => String.ofList text

def visitPropertyList (ctx : PropertyListContext) : Properties :=
  toMap (ctx.map fun (key, value) => (visitPropertyKey key, stringText value))

def visitOptions (ctx : Option PropertyListContext) : Properties :=
  (ctx.map visitPropertyList).getD []

/-! ### Types -/

mutual

inductive ColumnType
  | boolean
  | byte
  | short
  | integer
  | long
  | float
  | double
  | date
  | timestamp
  | string
  | char (length : Nat)
  | varchar (length : Nat)
  | binary
  | decimal (precision scale : Nat)
  | array (elementType : ColumnType)
  | map (keyType valueType : ColumnType)
  | struct (fields : ColumnFields)

inductive ColumnFields
  | nil
  | cons (name : String) (dataType : ColumnType) (fields : ColumnFields)

end

def toInt (digits : Text) : Except String Nat :=
  let n := digits.foldl (fun n c => 10 * n + (c.toNat - '0'.toNat)) 0
  if n < 2147483648 then .ok n
  else .error ("For input string: \"" ++ String.ofList digits ++ "\"")

/-- The constructor of `DecimalType` checks its arguments. -/
def decimalType (precision scale : Nat) : Except String ColumnType :=
  if precision < scale then
    .error (s!"Decimal scale ({scale}) cannot be greater than precision ({precision}).;")
  else if 38 < precision then .error "DecimalType can only support precision up to 38;"
  else .ok (.decimal precision scale)

def visitPrimitiveDataType (identifier : Text) (integerValues : List Text) :
    Except String ColumnType :=
  let dataType := String.ofList (identifier.map Char.toLower)
  match dataType, integerValues with
  | "boolean", [] => .ok .boolean
  | "tinyint", [] | "byte", [] => .ok .byte
  | "smallint", [] | "short", [] => .ok .short
  | "int", [] | "integer", [] => .ok .integer
  | "bigint", [] | "long", [] => .ok .long
  | "float", [] => .ok .float
  | "double", [] => .ok .double
  | "date", [] => .ok .date
  | "timestamp", [] => .ok .timestamp
  | "string", [] => .ok .string
  | "char", [length] => (toInt length).map .char
  | "varchar", [length] => (toInt length).map .varchar
  | "binary", [] => .ok .binary
  | "decimal", [] => .ok (.decimal 38 18)
  | "decimal", [precision] => do decimalType (← toInt precision) 0
  | "decimal", [precision, scale] => do decimalType (← toInt precision) (← toInt scale)
  | dt, params =>
    let dtStr := if params = [] then dt
      else dt ++ "(" ++ ",".intercalate (params.map String.ofList) ++ ")"
    .error ("DataType " ++ dtStr ++ " is not supported.")

section Visitors

variable {ι : Type} (getText tripText : ι → String)

mutual

def visitDataType : DataTypeContext ι → Except String ColumnType
  | .array dataType => do pure (.array (← visitDataType dataType))
  | .map keyType valueType => do pure (.map (← visitDataType keyType) (← visitDataType valueType))
  | .struct fields => do pure (.struct (← visitColTypeList fields))
  | .primitive identifier integerValues => visitPrimitiveDataType identifier integerValues

def visitColTypeList : ColTypeListContext ι → Except String ColumnFields
  | .nil => .ok .nil
  | .cons identifier dataType colTypes => do
    pure (.cons (getText identifier) (← visitDataType dataType) (← visitColTypeList colTypes))

end

/-! ### Parts of statements -/

def visitTableIdentifier (ctx : TableIdentifierContext ι) : TableIdentifier where
  table := tripText ctx.table
  database := ctx.db.map tripText

def visitFuncIdentifier (ctx : FuncIdentifierContext ι) : FunctionIdentifier where
  funcName := getText ctx.func
  database := ctx.db.map getText

def visitTableCollections (ctx : TableCollectionsContext ι) : TableIdentifier where
  table := getText ctx.table
  database := ctx.db.map getText

def visitIdentifierList (ctx : NonemptyList ι) : NonemptyList String :=
  ⟨ctx.val.map getText, by simpa using ctx.property⟩

def visitDefiner (ctx : DefinerContext ι) : Option String := ctx.user.map getText

def visitGrantPrivilege : GrantPrivilegeContext → RolePrivilege
  | .account => .ACCOUNT
  | .ddl => .DDL
  | .dcl => .DCL

def visitGrantPrivilegeList (ctx : NonemptyList GrantPrivilegeContext) :
    NonemptyList RolePrivilege :=
  ⟨ctx.val.map visitGrantPrivilege, by simpa using ctx.property⟩

def visitColumnIdentifiers (ctx : List ι) : List String := ctx.map getText

def visitPrivilege : PrivilegeContext ι → List ResourcePrivilege
  | .select (some columns) => [.columnSelect (visitColumnIdentifiers getText columns)]
  | .select none => [.select]
  | .update (some columns) => [.columnUpdate (visitColumnIdentifiers getText columns)]
  | .update none => [.update]
  | .insert => [.insert]
  | .delete => [.delete]
  | .truncate => [.truncate]
  | .all => ResourcePrivilege.ALL

lemma visitPrivilege_ne_nil (ctx : PrivilegeContext ι) : visitPrivilege getText ctx ≠ [] := by
  rcases ctx with (_ | _) | (_ | _) | _ | _ | _ | _ <;> simp [visitPrivilege, ResourcePrivilege.ALL]

def visitPrivileges (ctx : NonemptyList (PrivilegeContext ι)) : NonemptyList ResourcePrivilege :=
  ⟨ctx.val.flatMap (visitPrivilege getText), by
    obtain ⟨_ | ⟨p, ps⟩, hne⟩ := ctx
    · exact absurd rfl hne
    · simp [visitPrivilege_ne_nil]⟩

def visitResource (ctx : ResourceContext) : FunctionResource :=
  let resourceType := String.ofList (ctx.identifier.map Char.toLower)
  let resource := trim (ParserUtils.tripQuotes ctx.string)
  if resourceType = "java" ∨ resourceType = "scala" then
    ⟨resourceType, String.ofList (stripSuffix ')' (stripPrefix '(' resource))⟩
  else ⟨resourceType, String.ofList resource⟩

/-- Whether functions of users and of the system are meant. -/
def visitScope (scope : Option Text) : Except String (Bool × Bool) :=
  match scope.map fun scope => String.ofList (scope.map Char.toLower) with
  | none => .ok (true, true)
  | some "all" => .ok (true, true)
  | some "system" => .ok (false, true)
  | some "user" => .ok (true, false)
  | some x => .error ("SHOW " ++ x ++ " FUNCTIONS not supported")

/-! ### Statements -/

/-- A command; that of MOUNT TABLE has a schema besides. -/
structure Built where
  command : Command
  schema : Option ColumnFields := none

def visitShowFunctions (scope : Option Text) (db : Option ι) (pattern : Option Text) :
    Except String Built := do
  let (user, system) ← visitScope scope
  pure ⟨.showFunctions (db.map getText) (pattern.map stringText) user system, none⟩

def createSchema (columns : Option (ColTypeListContext ι)) :
    Except String (Option ColumnFields) :=
  match columns with
  | none => .ok none
  | some columns => do pure (some (← visitColTypeList getText columns))

def visitMountTable (stream ifNotExists : Bool) (table : TableIdentifierContext ι)
    (columns : Option (ColTypeListContext ι)) (propertyList : PropertyListContext) :
    Except String Built := do
  let schema ← createSchema getText columns
  pure ⟨.mountTable (visitTableIdentifier tripText table) (visitPropertyList propertyList) stream
    ifNotExists, schema⟩

def built (command : Command) : Except String Built := .ok ⟨command, none⟩

def visit : Mql ι → Except String Built
  | .createOrganization ifNotExists name comment options => built <|
    .createOrganization (getText name) (comment.map stringText) (visitOptions options) ifNotExists
  | .setOrganizationOptions name options => built <|
    .alterOrganizationSetOptions (getText name) (visitPropertyList options)
  | .setOrganizationComment name comment => built <|
    .alterOrganizationSetComment (getText name) (stringText comment)
  | .dropOrganization ifExists name cascade => built <|
    .dropOrganization (getText name) ifExists cascade
  | .createSa ifNotExists name org pwd options => built <|
    .createSa (getText name) (String.ofList pwd) (getText org) (visitOptions options) ifNotExists
  | .setSaPassword name org pwd => built <|
    .alterSaSetPassword (getText name) (String.ofList pwd) (getText org)
  | .setSaOptions name org options => built <|
    .alterSaSetOptions (getText name) (visitPropertyList options) (getText org)
  | .dropSa ifExists name org => built <| .dropSa (getText name) (getText org) ifExists
  | .grantGrantToUser grants user => built <|
    .grantGrantToUser (visitGrantPrivilegeList grants) (getText user)
  | .revokeGrantFromUser grants user => built <|
    .revokeGrantFromUser (visitGrantPrivilegeList grants) (getText user)
  | .grantGrantToGroup grants group => built <|
    .grantGrantToGroup (visitGrantPrivilegeList grants) (getText group)
  | .revokeGrantFromGroup grants group => built <|
    .revokeGrantFromGroup (visitGrantPrivilegeList grants) (getText group)
  | .grantPrivilegeToUsers grants user => built <|
    .grantPrivilegeToUser (visitGrantPrivilegeList grants) (getText user)
  | .revokePrivilegeFromUsers grants user => built <|
    .revokePrivilegeFromUser (visitGrantPrivilegeList grants) (getText user)
  | .grantPrivilegeToGroup grants group => built <|
    .grantPrivilegeToGroup (visitGrantPrivilegeList grants) (getText group)
  | .revokePrivilegeFromGroup grants group => built <|
    .revokePrivilegeFromGroup (visitGrantPrivilegeList grants) (getText group)
  | .grantResourcePrivilegeToUsers privileges tables user => built <|
    .grantResourceToUser (visitPrivileges getText privileges) (visitTableCollections getText tables)
      (getText user)
  | .revokeResourcePrivilegeFromUsers privileges tables user => built <|
    .revokeResourceFromUser (visitPrivileges getText privileges)
      (visitTableCollections getText tables) (getText user)
  | .grantResourcePrivilegeToGroup privileges tables group => built <|
    .grantResourceToGroup (visitPrivileges getText privileges)
      (visitTableCollections getText tables) (getText group)
  | .revokeResourcePrivilegeFromGroup privileges tables group => built <|
    .revokeResourceFromGroup (visitPrivileges getText privileges)
      (visitTableCollections getText tables) (getText group)
  | .createUser ifNotExists name pwd options => built <|
    .createUser (getText name) (String.ofList pwd) (visitOptions options) ifNotExists
  | .setUserPassword name pwd => built <|
    .alterUserSetPassword (getText name) (String.ofList pwd)
  | .setUserOptions name options => built <|
    .alterUserSetOptions (getText name) (visitPropertyList options)
  | .dropUser ifExists name => built <| .dropUser (getText name) ifExists
  | .createGroup ifNotExists name comment => built <|
    .createGroup (getText name) (comment.map stringText) ifNotExists
  | .setGroupComment name comment => built <|
    .alterGroupSetComment (getText name) (stringText comment)
  | .addGroupUser name addUser => built <|
    .alterGroupAddUser (getText name) (visitIdentifierList getText addUser)
  | .removeGroupUser name removeUser => built <|
    .alterGroupRemoveUser (getText name) (visitIdentifierList getText removeUser)
  | .dropGroup ifExists name cascade => built <| .dropGroup (getText name) ifExists cascade
  | .mountTable stream ifNotExists table columns options =>
    visitMountTable getText tripText stream ifNotExists table columns options
  | .setTableProperties name options => built <|
    .alterTableSetOptions (visitTableIdentifier tripText name) (visitPropertyList options)
  | .unmountTable ifExists name => built <|
    .unmountTable (visitTableIdentifier tripText name) ifExists
  | .mountDatabase ifNotExists name options => built <|
    .mountDatabase (getText name) (visitPropertyList options) ifNotExists
  | .unmountDatabase ifExists name cascade => built <|
    .unmountDatabase (getText name) ifExists cascade
  | .setDatabaseProperties name options => built <|
    .alterDatabaseSetOptions (getText name) (visitPropertyList options)
  | .refreshDatabase name => built <| .refreshDatabase (getText name)
  | .createDatabase ifNotExists name comment => built <|
    .createDatabase (getText name) (comment.map stringText) ifNotExists
  | .setDatabaseComment name comment => built <|
    .alterDatabaseSetComment (getText name) (stringText comment)
  | .dropDatabase ifExists name cascade => built <| .dropDatabase (getText name) ifExists cascade
  | .useDatabase db => built <| .useDatabase (getText db)
  | .createFunction temp ifNotExists name className methodName resources => built <|
    if temp then
      .createTempFunction (visitFuncIdentifier getText name) (stringText className)
        (methodName.map stringText) (resources.map visitResource) ifNotExists
    else
      .createFunction (visitFuncIdentifier getText name) (stringText className)
        (methodName.map stringText) (resources.map visitResource) ifNotExists
  | .dropFunction temp ifExists name => built <|
    if temp then .dropTempFunction (visitFuncIdentifier getText name) ifExists
    else .dropFunction (visitFuncIdentifier getText name) ifExists
  | .createView replace name comment query => built <|
    .createView (visitTableIdentifier tripText name) (String.ofList query)
      (comment.map stringText) replace
  | .setViewQuery name query => built <|
    .alterViewSetQuery (visitTableIdentifier tripText name) (String.ofList query)
  | .dropView ifExists name => built <| .dropView (visitTableIdentifier tripText name) ifExists
  | .createProcedure ifNotExists name mql procCmds => built <|
    .createProcedure (getText name) (procCmds.map String.ofList) (if mql then "mql" else "hql")
      ifNotExists
  | .setProcedureQuerys name procCmds => built <|
    .alterProcedureSetQuery (getText name) (procCmds.map String.ofList)
  | .dropProcedure ifExists name => built <| .dropProcedure (getText name) ifExists
  | .createEvent definer ifNotExists name cronExpression enable comment proc => built <|
    .createTimedEvent (getText name) (definer.bind (visitDefiner getText))
      (stringText cronExpression) (comment.map stringText) (getText proc) enable ifNotExists
  | .setDefiner definer name => built <|
    .alterTimedEventSetDefiner (getText name) (visitDefiner getText definer)
  | .setEventSchedule name cronExpression => built <|
    .alterTimedEventSetSchedule (getText name) (stringText cronExpression)
  | .setEventEnable name enable => built <| .alterTimedEventSetEnable (getText name) enable
  | .dropEvent ifExists name => built <| .dropTimedEvent (getText name) ifExists
  | .showSysInfo => built .showSysInfo
  | .showJobs => built .showJobInfo
  | .showRunningEvents => built .showRunningEventInfo
  | .showEvents pattern => built <| .showEvents (pattern.map stringText)
  | .showDatabase pattern => built <| .showDatabases (pattern.map stringText)
  | .showTables db pattern => built <| .showTables (db.map getText) (pattern.map stringText)
  | .showFunctions scope db pattern => visitShowFunctions getText scope db pattern
  | .showOrgs pattern => built <| .showOrganizations (pattern.map stringText)
  | .showSas pattern => built <| .showSas (pattern.map stringText)
  | .showUsers pattern => built <| .showUsers (pattern.map stringText)
  | .showGroups pattern => built <| .showGroups (pattern.map stringText)
  | .showUsersInGroup name pattern => built <|
    .showUsersInGroup (getText name) (pattern.map stringText)
  | .showProcedures pattern => built <| .showProcedures (pattern.map stringText)
  | .showGrants user => built <| .showGrants (getText user)
  | .showCreateTable name => built <| .showCreateTable (visitTableIdentifier tripText name)
  | .showSchema query => built <| .showSchema (String.ofList query)
  | .descEvent name => built <| .descEvent (getText name)
  | .descProcedure name => built <| .descProcedure (getText name)
  | .descDatabase name => built <| .descDatabase (getText name)
  | .descTable extended name => built <| .descTable (visitTableIdentifier tripText name) extended
  | .descFunction extended name => built <|
    .descFunction (visitFuncIdentifier getText name) extended
  | .descUser name => built <| .descUser (getText name)
  | .descOrg name => built <| .descOrganization (getText name)
  | .explain extended query => built <| .explain (String.ofList query) extended
  | .createTemporaryView replace cache name query => built <|
    .createTempView (getText name) (String.ofList query) cache replace
  | .statement text => built <| .statement (String.ofList text)

end Visitors

end Moonbox.Parser
