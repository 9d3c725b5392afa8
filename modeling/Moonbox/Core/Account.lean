import Moonbox.Core.MoonboxCatalog

/-!
# Account and organization commands

The commands of `account.scala` and `organizations.scala` that write. A command that alters a user
reads him, changes the copy and writes the whole row back.
-/

namespace Moonbox.Core

open Catalog Relational

variable [Names] (env : Env) (catalog : MoonboxCatalog) (now : Nat)

/-- Read a user, change the copy and write it back. -/
def changeUser (org user : String) (change : CatalogUser → CatalogUser) (caller : User)
    (now : Nat) : DBIO Unit := do
  let catalogUser ← JdbcCatalog.getUser org user
  JdbcCatalog.alterUser (change catalogUser) caller now

def setPassword (password : String) (d : CatalogUser) : CatalogUser :=
  { d with password := password }

def setOptions (options : Properties) (d : CatalogUser) : CatalogUser :=
  { d with configuration := addOptions d.configuration options }

/-! ### Account -/

def CreateUser.run (name password : String) (configuration : Properties) (ignoreIfExists : Bool) :
    DBIO Unit :=
  JdbcCatalog.createUser
    { org := catalog.getCurrentOrg
      name := name
      password := env.encryptSHA password
      configuration := configuration }
    ignoreIfExists catalog.userInSession now

def AlterUserSetName.run (name newName : String) : DBIO Unit :=
  JdbcCatalog.renameUser catalog.getCurrentOrg name newName catalog.userInSession now

def AlterUserSetPassword.run (name newPassword : String) : DBIO Unit :=
  changeUser catalog.getCurrentOrg name (setPassword (env.encryptSHA newPassword))
    catalog.userInSession now

def AlterUserSetOptions.run (name : String) (options : Properties) : DBIO Unit :=
  changeUser catalog.getCurrentOrg name (setOptions options) catalog.userInSession now

def DropUser.run (name : String) (ignoreIfNotExists : Bool) : DBIO Unit :=
  JdbcCatalog.dropUser catalog.getCurrentOrg name ignoreIfNotExists

/-! ### Organizations -/

def CreateOrganization.run (name : String) (comment : Option String) (config : Properties)
    (ignoreIfExists : Bool) : DBIO Unit :=
  JdbcCatalog.createOrganization { name := name, config := config, description := comment }
    ignoreIfExists catalog.userInSession now

def AlterOrganizationSetName.run (name newName : String) : DBIO Unit :=
  JdbcCatalog.renameOrganization name newName catalog.userInSession now

def AlterOrganizationSetComment.run (name comment : String) : DBIO Unit := do
  let existOrganization ← JdbcCatalog.getOrganization name
  JdbcCatalog.alterOrganization { existOrganization with description := some comment }
    catalog.userInSession now

def AlterOrganizationSetOptions.run (name : String) (options : Properties) : DBIO Unit := do
  let existOrganization ← JdbcCatalog.getOrganization name
  JdbcCatalog.alterOrganization
    { existOrganization with config := addOptions existOrganization.config options }
    catalog.userInSession now

def DropOrganization.run (name : String) (ignoreIfNotExists cascade : Bool) : DBIO Unit :=
  JdbcCatalog.dropOrganization name ignoreIfNotExists cascade

def CreateSa.run (name password organization : String) (configuration : Properties)
    (ignoreIfExists : Bool) : DBIO Unit :=
  JdbcCatalog.createUser
    { org := organization
      name := name
      password := env.encryptSHA password
      account := true
      ddl := true
      dcl := true
      grantAccount := true
      grantDdl := true
      grantDcl := true
      isSA := true
      configuration := configuration }
    ignoreIfExists catalog.userInSession now

def AlterSaSetName.run (name newName organization : String) : DBIO Unit :=
  JdbcCatalog.renameUser organization name newName catalog.userInSession now

def AlterSaSetPassword.run (name newPassword organization : String) : DBIO Unit :=
  changeUser organization name (setPassword (env.encryptSHA newPassword)) catalog.userInSession now

def AlterSaSetOptions.run (name : String) (options : Properties) (organization : String) :
    DBIO Unit :=
  changeUser organization name (setOptions options) catalog.userInSession now

def DropSa.run (name organization : String) (ignoreIfNotExists : Bool) : DBIO Unit :=
  JdbcCatalog.dropUser organization name ignoreIfNotExists

end Moonbox.Core
