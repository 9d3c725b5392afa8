import Moonbox.Core.Dcl

/-!
# Changes of a user

The commands that alter a user differ in the fields they touch. A command changes a field by what
the field was and by nothing else, so commands that touch different fields do not see each other.
-/

namespace Moonbox.Core

open Catalog Relational

inductive UserField
  | account
  | ddl
  | dcl
  | grantAccount
  | grantDdl
  | grantDcl
  | password
  | configuration
  deriving DecidableEq, Repr

namespace UserField

@[reducible] def Value : UserField → Type
  | .password => String
  | .configuration => Properties
  | _ => Bool

def get : (f : UserField) → CatalogUser → f.Value
  | .account, d => d.account
  | .ddl, d => d.ddl
  | .dcl, d => d.dcl
  | .grantAccount, d => d.grantAccount
  | .grantDdl, d => d.grantDdl
  | .grantDcl, d => d.grantDcl
  | .password, d => d.password
  | .configuration, d => d.configuration

attribute [local simp] get

def ofPrivilege : RolePrivilege → UserField
  | .ACCOUNT => .account
  | .DDL => .ddl
  | .DCL => .dcl

def ofGrant : RolePrivilege → UserField
  | .ACCOUNT => .grantAccount
  | .DDL => .grantDdl
  | .DCL => .grantDcl

end UserField

/-- `change` touches the fields of `touched` only, each by its own value. -/
structure Touches (touched : List UserField) (change : CatalogUser → CatalogUser) : Prop where
  org : ∀ d, (change d).org = d.org
  name : ∀ d, (change d).name = d.name
  isSA : ∀ d, (change d).isSA = d.isSA
  frame : ∀ d, ∀ f ∉ touched, f.get (change d) = f.get d
  own : ∀ d d' (f : UserField), f.get d = f.get d' → f.get (change d) = f.get (change d')

lemma touches_setPassword (password : String) : Touches [.password] (setPassword password) where
  org _ := rfl
  name _ := rfl
  isSA _ := rfl
  frame d f hf := by cases f <;> simp [UserField.get, setPassword] at hf ⊢
  own d d' f h := by cases f <;> first | exact h | rfl

lemma touches_setOptions (options : Properties) : Touches [.configuration] (setOptions options) where
  org _ := rfl
  name _ := rfl
  isSA _ := rfl
  frame d f hf := by cases f <;> simp [UserField.get, setOptions] at hf ⊢
  own d d' f h := by
    cases f
    case configuration => exact congrArg (addOptions · options) h
    all_goals exact h

lemma touches_setPrivileges (value : Bool) (privileges : List RolePrivilege) :
    Touches (privileges.map UserField.ofPrivilege) (setPrivileges value privileges) where
  org _ := rfl
  name _ := rfl
  isSA _ := rfl
  frame d f hf := by
    cases f <;> simp [UserField.get, setPrivileges] at hf ⊢
    case account => exact fun h => absurd rfl (hf .ACCOUNT h)
    case ddl => exact fun h => absurd rfl (hf .DDL h)
    case dcl => exact fun h => absurd rfl (hf .DCL h)
  own d d' f h := by
    cases f
    case account => exact congrArg (if privileges.contains .ACCOUNT then value else ·) h
    case ddl => exact congrArg (if privileges.contains .DDL then value else ·) h
    case dcl => exact congrArg (if privileges.contains .DCL then value else ·) h
    all_goals exact h

lemma touches_setGrants (value : Bool) (grants : List RolePrivilege) :
    Touches (grants.map UserField.ofGrant) (setGrants value grants) where
  org _ := rfl
  name _ := rfl
  isSA _ := rfl
  frame d f hf := by
    cases f <;> simp [UserField.get, setGrants] at hf ⊢
    case grantAccount => exact fun h => absurd rfl (hf .ACCOUNT h)
    case grantDdl => exact fun h => absurd rfl (hf .DDL h)
    case grantDcl => exact fun h => absurd rfl (hf .DCL h)
  own d d' f h := by
    cases f
    case grantAccount => exact congrArg (if grants.contains .ACCOUNT then value else ·) h
    case grantDdl => exact congrArg (if grants.contains .DDL then value else ·) h
    case grantDcl => exact congrArg (if grants.contains .DCL then value else ·) h
    all_goals exact h

/-! ### The commands -/

/-- The commands that alter a user. -/
inductive UserCommand
  | grantPrivilegeToUser (privileges : NonemptyList RolePrivilege) (user : String)
  | revokePrivilegeFromUser (privileges : NonemptyList RolePrivilege) (user : String)
  | grantGrantToUser (grants : NonemptyList RolePrivilege) (user : String)
  | revokeGrantFromUser (grants : NonemptyList RolePrivilege) (user : String)
  | alterUserSetPassword (name newPassword : String)
  | alterUserSetOptions (name : String) (options : Properties)
  | alterSaSetPassword (name newPassword organization : String)
  | alterSaSetOptions (name : String) (options : Properties) (organization : String)

namespace UserCommand

def run [Names] (env : Env) (catalog : MoonboxCatalog) (now : Nat) : UserCommand → DBIO Unit
  | .grantPrivilegeToUser ps user => GrantPrivilegeToUser.run catalog now ps.1 user
  | .revokePrivilegeFromUser ps user => RevokePrivilegeFromUser.run catalog now ps.1 user
  | .grantGrantToUser gs user => GrantGrantToUser.run catalog now gs.1 user
  | .revokeGrantFromUser gs user => RevokeGrantFromUser.run catalog now gs.1 user
  | .alterUserSetPassword name password => AlterUserSetPassword.run env catalog now name password
  | .alterUserSetOptions name options => AlterUserSetOptions.run catalog now name options
  | .alterSaSetPassword name password org => AlterSaSetPassword.run env catalog now name password org
  | .alterSaSetOptions name options org => AlterSaSetOptions.run catalog now name options org

/-- The organization in which the command looks for its user. -/
def org (catalog : MoonboxCatalog) : UserCommand → String
  | .alterSaSetPassword _ _ organization => organization
  | .alterSaSetOptions _ _ organization => organization
  | _ => catalog.getCurrentOrg

def user : UserCommand → String
  | .grantPrivilegeToUser _ user => user
  | .revokePrivilegeFromUser _ user => user
  | .grantGrantToUser _ user => user
  | .revokeGrantFromUser _ user => user
  | .alterUserSetPassword name _ => name
  | .alterUserSetOptions name _ => name
  | .alterSaSetPassword name _ _ => name
  | .alterSaSetOptions name _ _ => name

def change (env : Env) : UserCommand → CatalogUser → CatalogUser
  | .grantPrivilegeToUser ps _ => setPrivileges true ps.1
  | .revokePrivilegeFromUser ps _ => setPrivileges false ps.1
  | .grantGrantToUser gs _ => setGrants true gs.1
  | .revokeGrantFromUser gs _ => setGrants false gs.1
  | .alterUserSetPassword _ password => setPassword (env.encryptSHA password)
  | .alterUserSetOptions _ options => setOptions options
  | .alterSaSetPassword _ password _ => setPassword (env.encryptSHA password)
  | .alterSaSetOptions _ options _ => setOptions options

/-- The fields the command is there to change. -/
def fields : UserCommand → List UserField
  | .grantPrivilegeToUser ps _ => ps.1.map UserField.ofPrivilege
  | .revokePrivilegeFromUser ps _ => ps.1.map UserField.ofPrivilege
  | .grantGrantToUser gs _ => gs.1.map UserField.ofGrant
  | .revokeGrantFromUser gs _ => gs.1.map UserField.ofGrant
  | .alterUserSetPassword _ _ => [.password]
  | .alterUserSetOptions _ _ => [.configuration]
  | .alterSaSetPassword _ _ _ => [.password]
  | .alterSaSetOptions _ _ _ => [.configuration]

lemma run_eq [Names] (env : Env) (catalog : MoonboxCatalog) (now : Nat) (c : UserCommand) :
    c.run env catalog now =
      changeUser (c.org catalog) c.user (c.change env) catalog.userInSession now := by
  cases c <;> rfl

lemma touches (env : Env) (c : UserCommand) : Touches c.fields (c.change env) := by
  cases c with
  | grantPrivilegeToUser ps user => exact touches_setPrivileges true ps.1
  | revokePrivilegeFromUser ps user => exact touches_setPrivileges false ps.1
  | grantGrantToUser gs user => exact touches_setGrants true gs.1
  | revokeGrantFromUser gs user => exact touches_setGrants false gs.1
  | alterUserSetPassword name password => exact touches_setPassword _
  | alterUserSetOptions name options => exact touches_setOptions options
  | alterSaSetPassword name password org => exact touches_setPassword _
  | alterSaSetOptions name options org => exact touches_setOptions options

end UserCommand

end Moonbox.Core
