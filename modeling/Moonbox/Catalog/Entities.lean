import Moonbox.Lib.Relational

/-!
# The catalog database

The entities of the catalog, one table for each kind, and the definitions that callers pass in
and get back. Clusters, applications and variables are left out.
-/

namespace Moonbox.Catalog

open Relational

/-! ### Entities -/

abbrev Properties := List (String × String)

structure OrganizationEntity where
  id : Nat := 0
  name : String
  config : Properties
  description : Option String := none
  createBy : Int
  createTime : Nat
  updateBy : Int
  updateTime : Nat
  deriving DecidableEq, Repr, Inhabited

structure UserEntity where
  id : Nat := 0
  name : String
  password : String
  account : Bool := false
  ddl : Bool := false
  dcl : Bool := false
  grantAccount : Bool := false
  grantDdl : Bool := false
  grantDcl : Bool := false
  isSA : Bool := false
  organizationId : Nat
  configuration : Properties := []
  createBy : Int
  createTime : Nat
  updateBy : Int
  updateTime : Nat
  deriving DecidableEq, Repr, Inhabited

structure GroupEntity where
  id : Nat := 0
  name : String
  organizationId : Nat
  description : Option String
  createBy : Int
  createTime : Nat
  updateBy : Int
  updateTime : Nat
  deriving DecidableEq, Repr, Inhabited

structure GroupUserRelEntity where
  id : Nat := 0
  groupId : Nat
  userId : Nat
  createBy : Int
  createTime : Nat
  updateBy : Int
  updateTime : Nat
  deriving DecidableEq, Repr, Inhabited

structure DatabaseEntity where
  id : Nat := 0
  name : String
  description : Option String := none
  organizationId : Nat
  properties : Properties
  isLogical : Bool
  createBy : Int
  createTime : Nat
  updateBy : Int
  updateTime : Nat
  deriving DecidableEq, Repr, Inhabited

structure TableEntity where
  id : Nat := 0
  name : String
  tableType : String
  description : Option String := none
  databaseId : Nat
  properties : Properties
  viewText : Option String
  isStream : Bool := false
  tableSize : Option Int := none
  createBy : Int
  createTime : Nat
  updateBy : Int
  updateTime : Nat
  deriving DecidableEq, Repr, Inhabited

structure FunctionEntity where
  id : Nat := 0
  name : String
  databaseId : Nat
  description : Option String
  className : String
  methodName : Option String
  createBy : Int
  createTime : Nat
  updateBy : Int
  updateTime : Nat
  deriving DecidableEq, Repr, Inhabited

structure FunctionResourceEntity where
  id : Nat := 0
  funcId : Nat
  resourceType : String
  resource : String
  createBy : Int
  createTime : Nat
  updateBy : Int
  updateTime : Nat
  deriving DecidableEq, Repr, Inhabited

structure ProcedureEntity where
  id : Nat := 0
  name : String
  cmds : List String
  lang : String
  organizationId : Nat
  description : Option String := none
  createBy : Int
  createTime : Nat
  updateBy : Int
  updateTime : Nat
  deriving DecidableEq, Repr, Inhabited

structure TimedEventEntity where
  id : Nat := 0
  name : String
  organizationId : Nat
  definer : Nat
  schedule : String
  enable : Bool
  description : Option String := none
  procedure : Nat
  createBy : Int
  createTime : Nat
  updateBy : Int
  updateTime : Nat
  deriving DecidableEq, Repr, Inhabited

structure QueryEntity where
  id : Nat := 0
  name : String
  text : String
  organizationId : Nat
  description : Option String
  createBy : Int
  createTime : Nat
  updateBy : Int
  updateTime : Nat
  deriving DecidableEq, Repr, Inhabited

structure DatabasePrivilegeEntity where
  id : Nat := 0
  userId : Nat
  databaseId : Nat
  privilegeType : String
  createBy : Int
  createTime : Nat
  updateBy : Int
  updateTime : Nat
  deriving DecidableEq, Repr, Inhabited

structure TablePrivilegeEntity where
  id : Nat := 0
  userId : Nat
  databaseId : Nat
  tableId : Nat
  privilegeType : String
  createBy : Int
  createTime : Nat
  updateBy : Int
  updateTime : Nat
  deriving DecidableEq, Repr, Inhabited

structure ColumnPrivilegeEntity where
  id : Nat := 0
  userId : Nat
  databaseId : Nat
  tableId : Nat
  column : String
  privilegeType : String
  createBy : Int
  createTime : Nat
  updateBy : Int
  updateTime : Nat
  deriving DecidableEq, Repr, Inhabited

/-! ### Tables -/

/-- The tables of the catalog. -/
inductive Kind
  | organizations
  | users
  | groups
  | groupUserRels
  | databases
  | tables
  | functions
  | functionResources
  | procedures
  | timedEvents
  | queries
  | databasePrivileges
  | tablePrivileges
  | columnPrivileges
  deriving DecidableEq, Repr

@[reducible] def Entity : Kind → Type
  | .organizations => OrganizationEntity
  | .users => UserEntity
  | .groups => GroupEntity
  | .groupUserRels => GroupUserRelEntity
  | .databases => DatabaseEntity
  | .tables => TableEntity
  | .functions => FunctionEntity
  | .functionResources => FunctionResourceEntity
  | .procedures => ProcedureEntity
  | .timedEvents => TimedEventEntity
  | .queries => QueryEntity
  | .databasePrivileges => DatabasePrivilegeEntity
  | .tablePrivileges => TablePrivilegeEntity
  | .columnPrivileges => ColumnPrivilegeEntity

instance Entity.row : (k : Kind) → Row (Entity k)
  | .organizations => ⟨OrganizationEntity.id, fun n e => { e with id := n }, fun _ _ => rfl⟩
  | .users => ⟨UserEntity.id, fun n e => { e with id := n }, fun _ _ => rfl⟩
  | .groups => ⟨GroupEntity.id, fun n e => { e with id := n }, fun _ _ => rfl⟩
  | .groupUserRels => ⟨GroupUserRelEntity.id, fun n e => { e with id := n }, fun _ _ => rfl⟩
  | .databases => ⟨DatabaseEntity.id, fun n e => { e with id := n }, fun _ _ => rfl⟩
  | .tables => ⟨TableEntity.id, fun n e => { e with id := n }, fun _ _ => rfl⟩
  | .functions => ⟨FunctionEntity.id, fun n e => { e with id := n }, fun _ _ => rfl⟩
  | .functionResources =>
    ⟨FunctionResourceEntity.id, fun n e => { e with id := n }, fun _ _ => rfl⟩
  | .procedures => ⟨ProcedureEntity.id, fun n e => { e with id := n }, fun _ _ => rfl⟩
  | .timedEvents => ⟨TimedEventEntity.id, fun n e => { e with id := n }, fun _ _ => rfl⟩
  | .queries => ⟨QueryEntity.id, fun n e => { e with id := n }, fun _ _ => rfl⟩
  | .databasePrivileges =>
    ⟨DatabasePrivilegeEntity.id, fun n e => { e with id := n }, fun _ _ => rfl⟩
  | .tablePrivileges => ⟨TablePrivilegeEntity.id, fun n e => { e with id := n }, fun _ _ => rfl⟩
  | .columnPrivileges =>
    ⟨ColumnPrivilegeEntity.id, fun n e => { e with id := n }, fun _ _ => rfl⟩

instance : Row OrganizationEntity := Entity.row .organizations
instance : Row UserEntity := Entity.row .users
instance : Row GroupEntity := Entity.row .groups
instance : Row GroupUserRelEntity := Entity.row .groupUserRels
instance : Row DatabaseEntity := Entity.row .databases
instance : Row TableEntity := Entity.row .tables
instance : Row FunctionEntity := Entity.row .functions
instance : Row FunctionResourceEntity := Entity.row .functionResources
instance : Row ProcedureEntity := Entity.row .procedures
instance : Row TimedEventEntity := Entity.row .timedEvents
instance : Row QueryEntity := Entity.row .queries
instance : Row DatabasePrivilegeEntity := Entity.row .databasePrivileges
instance : Row TablePrivilegeEntity := Entity.row .tablePrivileges
instance : Row ColumnPrivilegeEntity := Entity.row .columnPrivileges

abbrev Store := Database Entity

abbrev DBIO := Action Entity

def Store.empty : Store := fun _ => Table.empty

end Moonbox.Catalog
