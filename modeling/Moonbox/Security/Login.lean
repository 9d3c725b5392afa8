import Mathlib.Data.List.DropRight
import Moonbox.Core.MoonboxCatalog

/-!
# Login

`CatalogLogin`: a user name and a password against the catalog.
-/

namespace Moonbox.Security

open Catalog Moonbox.Core Relational

inductive RoleType where
  | ROOT | SA | NORMAL
  deriving DecidableEq, Repr, Inhabited

def RoleType.toString : RoleType → String
  | ROOT => "ROOT"
  | SA => "SA"
  | NORMAL => "NORMAL"

/-- What a login puts into the session, which is a map of strings; the entry that lists its keys
is left out. -/
structure Session where
  org : String
  orgId : Nat
  user : String
  userId : Nat
  roleType : RoleType
  password : String
  deriving DecidableEq, Repr, Inhabited

abbrev SessionMap := List (String × String)

def Session.toMap (session : Session) : SessionMap :=
  [("org", session.org), ("orgId", toString session.orgId), ("user", session.user),
    ("userId", toString session.userId), ("roleType", session.roleType.toString),
    ("password", session.password)]

/-- `split` of the platform drops the empty strings at the end. -/
def split (s : String) (separator : Char) : List String :=
  ((s.toList.splitOn separator).map String.ofList).rdropWhile fun part => part == ""

namespace CatalogLogin

variable (env : Env)

def parseUsername (username : String) : Except String (String × String) :=
  if env.equalsIgnoreCase username "root" then .ok ("SYSTEM", username)
  else
    match split username '@' with
    | [org, user] => .ok (org, user)
    | _ => .error ("UsernameFormatException: " ++ username)

def getRoleType (user : CatalogUser) : RoleType :=
  if user.org = "SYSTEM" ∧ user.name = "ROOT" then .ROOT
  else if user.isSA then .SA
  else .NORMAL

variable [Names]

def getUserOption (org user : String) : DBIO (Option CatalogUser) := do
  let orgId ← JdbcCatalog.organizationId org
  match ← JdbcDao.getUser orgId user with
  | some userEntity =>
    let createBy ← JdbcCatalog.userName userEntity.createBy
    pure (some (toCatalogUser org createBy userEntity))
  | none => pure none

def doLogin (username password : String) : DBIO Session := do
  let (org, user) ← liftExcept (parseUsername env username)
  match ← getUserOption org user with
  | some catalogUser =>
    if catalogUser.password = env.encryptSHA password then
      let orgId ← JdbcCatalog.organizationId org
      let userId ← JdbcCatalog.userId orgId user
      pure
        { org := org
          orgId := orgId
          user := user
          userId := userId
          roleType := getRoleType catalogUser
          password := password }
    else .throw "PasswordNotMatchException"
  | none => .throw ("UserNotFoundException: " ++ username)

/-- A login that succeeds has found the user and his password. -/
lemma wp_doLogin (username password : String) (s : Store) :
    (doLogin env username password).wp
      (fun session s' => s' = s ∧ session.password = password ∧
        ∃ o u, Store.organization s session.org = some o ∧ Store.user s o.id session.user = some u ∧
          session.orgId = o.id ∧ session.userId = u.id ∧ u.password = env.encryptSHA password)
      (fun s' => s' = s) s := by
  unfold doLogin
  cases parseUsername env username with
  | error e => exact rfl
  | ok names =>
    obtain ⟨org, user⟩ := names
    show (getUserOption org user >>= _).wp _ _ s
    simp only [getUserOption, Action.wp_bind, wp_organizationId]
    cases ho : Store.organization s org with
    | none => trivial
    | some o =>
      simp only [wp_getUser]
      cases hu : Store.user s o.id user with
      | none => trivial
      | some u =>
        simp only [Action.wp_bind, wp_userName]
        cases creatorName s u.createBy with
        | none => trivial
        | some createBy =>
          show (if u.password = env.encryptSHA password then _ else _ : DBIO Session).wp _ _ s
          rw [Action.wp_ite]
          split
          · rename_i hpassword
            simp only [Action.wp_bind, wp_organizationId, ho, wp_userId, hu]
            exact ⟨rfl, rfl, o, u, ho, hu, rfl, rfl, hpassword⟩
          · rfl

end CatalogLogin

end Moonbox.Security
