import Moonbox.Catalog.Effects
import Moonbox.Lib.Views

/-!
# The tables an operation writes
-/

namespace Moonbox.Catalog

open Relational

variable [Names] {caller : User} {now : Nat} {s : Store}

/-- The tables in which an operation inserts, deletes or updates rows. -/
def Operation.writes : Operation → List Kind
  | .createQuery .. | .dropQuery .. | .alterQuery .. => [.queries]
  | .createOrganization .. => [.organizations, .databases]
  | .dropOrganization .. =>
    [.databases, .users, .timedEvents, .procedures, .queries, .organizations]
  | .renameOrganization .. | .alterOrganization .. => [.organizations]
  | .createUser .. | .renameUser .. | .alterUser .. => [.users]
  | .dropUser .. =>
    [.groupUserRels, .databasePrivileges, .tablePrivileges, .columnPrivileges, .users]
  | .createProcedure .. | .dropProcedure .. | .renameProcedure .. | .alterProcedure .. =>
    [.procedures]
  | .createTimedEvent .. | .renameTimedEvent .. | .alterTimedEvent .. | .dropTimedEvent .. =>
    [.timedEvents]
  | .createDatabase .. | .renameDatabase .. | .alterDatabase .. => [.databases]
  | .dropDatabase .. => [.functions, .tables, .databases]
  | .createTable .. | .renameTable .. | .alterTable .. => [.tables]
  | .dropTable .. => [.tablePrivileges, .columnPrivileges, .tables]
  | .createFunction .. | .dropFunction .. | .renameFunction .. => [.functions, .functionResources]
  | .createDatabasePrivilege .. | .dropDatabasePrivilege .. => [.databasePrivileges]
  | .createTablePrivilege .. | .dropTablePrivilege .. => [.tablePrivileges]
  | .createColumnPrivilege .. | .dropColumnPrivilege .. => [.columnPrivileges]
  | .createGroup .. | .renameGroup .. | .alterGroup .. => [.groups]
  | .dropGroup .. => [.groupUserRels, .groups]
  | .createGroupUserRel .. | .dropGroupUserRel .. => [.groupUserRels]

omit [Names] in
lemma table_mem_inserts {k : Kind} {es : List (Entity k)} {w : Write Entity}
    (h : w ∈ Write.inserts k es) : w.table ∈ [k] := by
  rw [Write.table_of_mem_inserts h]
  exact List.mem_singleton_self k

lemma Effect.table_mem {op : Operation} {ws : List (Write Entity)}
    (h : Effect caller now s op ws) : ∀ w ∈ ws, w.table ∈ op.writes := by
  cases h
  case idle => simp
  case createFunction =>
    intro w hw
    simp only [List.mem_cons] at hw
    rcases hw with rfl | hw
    · simp [Operation.writes, Write.table]
    · rw [Write.table_of_mem_inserts hw]
      simp [Operation.writes]
  case createDatabasePrivilege => exact fun w => table_mem_inserts
  case createTablePrivilege => exact fun w => table_mem_inserts
  case createColumnPrivilege => exact fun w => table_mem_inserts
  case createGroupUserRel => exact fun w => table_mem_inserts
  case dropColumnPrivilege =>
    intro w hw
    obtain ⟨x, _, rfl⟩ := List.mem_map.mp hw
    exact List.mem_singleton_self _
  all_goals simp [Operation.writes, Write.table]

lemma Effect.agree {op : Operation} {ws : List (Write Entity)} (h : Effect caller now s op ws) :
    AgreeOutside (· ∈ op.writes) s (execAll ws s) :=
  (Std.Refl.refl s : AgreeOutside _ s s).execAll h.table_mem

/-- An operation leaves the other tables as they are. -/
theorem Operation.within (op : Operation) (caller : User) (now : Nat) :
    Action.Within op.writes (op.action caller now) := by
  apply Action.Keeps.of_exec
  intro s
  obtain ⟨ws, hws, heq⟩ := op.exec_effect caller now s
  show AgreeOutside _ s (op.exec caller now s)
  rw [heq]
  exact hws.agree

end Moonbox.Catalog
