import Mathlib.Data.List.AList
import Moonbox.Interactive.Runner
import Moonbox.Lib.Runs
import Moonbox.Security.Login

/-!
# Opening and using interactive sessions

`TcpServerHandler`, which the clients log in to, and `SparkServerHandler`, which opens sessions and
runs what is asked of them. What a client sends is what the handlers see of it; who sends is
recorded for the proofs. The answer of the master on where an application runs, the ids that
`newSessionId` draws and the start of the engine come from outside.
-/

namespace Moonbox.Interactive

open Actor Catalog Moonbox.Core Relational Security

variable {S R : Type} [Inhabited S]

abbrev Client := String

structure OpenedRunner (S R : Type) where
  catalog : MoonboxCatalog
  runner : Runner S R := {}
  opener : Client

/-- A request that acted on a runner. -/
structure Act where
  client : Client
  opener : Client
  deriving DecidableEq, Repr

/-- A login that succeeded, with the password that the catalog had for its user. -/
structure Login where
  session : Session
  stored : Option String
  deriving DecidableEq, Repr

/-- The catalog, the sessions of an application and, for the proofs, who has logged in and what
has acted on a session. -/
structure Servers (S R : Type) where
  store : Store
  sessionIdToRunner : AList fun _ : String => OpenedRunner S R := ∅
  logins : List Login := []
  acts : List Act := []

inductive AppRequest (S R : Type) : Type
  | openSession (session config : SessionMap)
  | execute (sessionId : String) (sqls : List (Except String (Executed S R)))
      (fetchSize maxRows : Int)
  | executeResult (sessionId : String)
  | executeCancel (sessionId : String)
  | closeSession (sessionId : String)
  | unsupported

inductive Reply (S R : Type) : Type
  | access (host : String) (port : Nat) (session : SessionMap)
  | opened (sessionId : String)
  | result (q : QueryResult S R)
  | closed

inductive Event (S R : Type) : Type
  | access (client : Client) (username password : String) (address : Option (String × Nat))
  | request (client : Client) (request : AppRequest S R) (newSessionId : String)
      (engineStarts : Bool)
  /-- Somebody else changes the catalog. -/
  | catalog (store : Store)

namespace Servers

def onStore {α : Type} (m : DBIO α) : Handler (Servers S R) α := fun s =>
  ((m.run s.store).1, { s with store := (m.run s.store).2 })

def recordLogin [Names] (session : Session) (s : Servers S R) : Servers S R :=
  { s with
    logins := s.logins ++
      [⟨session, (Store.user s.store session.orgId session.user).map UserEntity.password⟩] }

def record (client opener : Client) (s : Servers S R) : Servers S R :=
  { s with acts := s.acts ++ [⟨client, opener⟩] }

/-- A method of the runner of a session. -/
def onRunner (client : Client) (sessionId : String) (opened : OpenedRunner S R)
    (f : Handler (Runner S R) (QueryResult S R)) : Handler (Servers S R) (QueryResult S R) :=
  fun s =>
    ((f opened.runner).1,
      { s.record client opened.opener with
        sessionIdToRunner :=
          s.sessionIdToRunner.insert sessionId { opened with runner := (f opened.runner).2 } })

section Handlers

variable [Names] (env : Env) (client : Client)

/-- `TcpServerHandler.receive`. -/
def access (username password : String) (address : Option (String × Nat)) :
    Handler (Servers S R) (Reply S R) := do
  let session ← onStore (CatalogLogin.doLogin env username password)
  Handler.modify (recordLogin session)
  match address with
  | some (host, port) => pure (.access host port session.toMap)
  | none => Handler.throw "there is no available application"

/-- `new Runner`, with the organization and the user of the map that the client sends. -/
def newRunner (session config : SessionMap) (engineStarts : Bool) : DBIO MoonboxCatalog :=
  match session.lookup "org", session.lookup "user" with
  | some org, some user => do
    let catalog ← MoonboxCatalog.setCurrentUser org user
    if engineStarts then
      match config.lookup "database" with
      | some database => catalog.setCurrentDb database
      | none => pure catalog
    else .throw "SparkContext is uninitialized."
  | _, _ => .throw (noSuchOrganizationException "null")

def handleOpenSession (session config : SessionMap) (newSessionId : String) (engineStarts : Bool) :
    Handler (Servers S R) (Reply S R) := do
  let catalog ← onStore (newRunner session config engineStarts)
  Handler.modify fun s => { s with
    sessionIdToRunner := s.sessionIdToRunner.insert newSessionId
      { catalog := catalog, opener := client } }
  pure (.opened newSessionId)

omit [Names] in
def handleCloseSession (sessionId : String) : Handler (Servers S R) (Reply S R) := do
  let s ← Handler.get
  match s.sessionIdToRunner.lookup sessionId with
  | some opened => do
    Handler.modify fun s => { s with sessionIdToRunner := s.sessionIdToRunner.erase sessionId }
    Handler.modify (record client opened.opener)
    pure .closed
  | none => pure .closed

omit [Names] in
/-- What the handlers of queries, results and cancels do. -/
def onSession (sessionId : String) (f : Handler (Runner S R) (QueryResult S R)) :
    Handler (Servers S R) (Reply S R) := do
  let s ← Handler.get
  match s.sessionIdToRunner.lookup sessionId with
  | some opened => do
    let result ← onRunner client sessionId opened f
    pure (.result result)
  | none => Handler.throw "session lost, please reconnect."

omit [Names] in
/-- The jobs of a runner are cancelled in the engine. -/
def cancel : Handler (Runner S R) (QueryResult S R) :=
  pure { schema := default, data := [], hasMore := false }

def receive (newSessionId : String) (engineStarts : Bool) :
    AppRequest S R → Handler (Servers S R) (Reply S R)
  | .openSession session config =>
    handleOpenSession client session config newSessionId engineStarts
  | .execute sessionId sqls fetchSize maxRows =>
    onSession client sessionId (Runner.query sqls fetchSize maxRows)
  | .executeResult sessionId => onSession client sessionId Runner.fetchResultData
  | .executeCancel sessionId => onSession client sessionId cancel
  | .closeSession sessionId => handleCloseSession client sessionId
  | .unsupported => Handler.throw "Unsupport app request"

def step (s : Servers S R) : Event S R → Servers S R
  | .access _ username password address => (access env username password address).exec s
  | .request client request newSessionId engineStarts =>
    (receive client newSessionId engineStarts request).exec s
  | .catalog store => { s with store := store }

end Handlers

/-! ### Who may act -/

/-- Every session was opened for a user who has logged in with his password, and only its opener has used it. -/
structure Authenticated (env : Env) (s : Servers S R) : Prop where
  passwords : ∀ login ∈ s.logins, login.stored = some (env.encryptSHA login.session.password)
  opened : ∀ sessionId runner, s.sessionIdToRunner.lookup sessionId = some runner →
    ∃ login ∈ s.logins, login.session.orgId = runner.catalog.userInSession.orgId ∧
      login.session.userId = runner.catalog.userInSession.userId
  own : ∀ act ∈ s.acts, act.client = act.opener

variable [Names]

def databaseFound (s : Store) (o : OrganizationEntity) (config : SessionMap) : Bool :=
  match config.lookup "database" with
  | some database => (Store.database s o.id (JdbcCatalog.formatDatabaseName database)).isSome
  | none => true

/-- The user that the map of a request names, if a session can be opened for him: his organization
and his creator are there, the database that is asked for too, and the engine starts. -/
def opens (s : Store) (session config : SessionMap) (engineStarts : Bool) :
    Option (OrganizationEntity × UserEntity) :=
  match session.lookup "org", session.lookup "user" with
  | some org, some user =>
    match Store.organization s org with
    | some o =>
      match Store.user s o.id user with
      | some u =>
        if (creatorName s u.createBy).isSome && engineStarts && databaseFound s o config then
          some (o, u)
        else none
      | none => none
    | none => none
  | _, _ => none

/-- A session that can be opened is asked for only after its user has logged in. The other requests
name a session of their sender, if they name any. -/
def Honest (s : Servers S R) : Event S R → Prop
  | .request _ (.openSession session config) _ engineStarts =>
    ∀ o u, opens s.store session config engineStarts = some (o, u) →
      ∃ login ∈ s.logins, login.session.orgId = o.id ∧ login.session.userId = u.id
  | .request client (.execute sessionId _ _ _) _ _
  | .request client (.executeResult sessionId) _ _
  | .request client (.executeCancel sessionId) _ _
  | .request client (.closeSession sessionId) _ _ =>
    ∀ opened, s.sessionIdToRunner.lookup sessionId = some opened → opened.opener = client
  | _ => True

lemma wp_setCurrentDb (catalog : MoonboxCatalog) (db : String) {s : Store}
    {Q : MoonboxCatalog → Store → Prop} {X : Store → Prop} :
    (catalog.setCurrentDb db).wp Q X s ↔
      if (Store.database s catalog.userInSession.orgId
          (JdbcCatalog.formatDatabaseName db)).isSome then
        Q { catalog with currentDb := JdbcCatalog.formatDatabaseName db } s
      else X s := by
  simp only [MoonboxCatalog.setCurrentDb, JdbcCatalog.databaseExists, Action.wp_bind,
    wp_databaseExists]
  cases (Store.database s catalog.userInSession.orgId
    (JdbcCatalog.formatDatabaseName db)).isSome <;> rfl

lemma wp_newRunner (session config : SessionMap) (engineStarts : Bool) (s : Store) :
    (newRunner session config engineStarts).wp
      (fun catalog s' => s' = s ∧ ∃ o u, opens s session config engineStarts = some (o, u) ∧
        catalog.userInSession.orgId = o.id ∧ catalog.userInSession.userId = u.id)
      (fun s' => s' = s ∧ opens s session config engineStarts = none) s := by
  unfold newRunner opens
  cases session.lookup "org" with
  | none => simp
  | some org =>
    cases session.lookup "user" with
    | none => simp
    | some user =>
      simp only [Action.wp_bind, wp_setCurrentUser]
      cases Store.organization s org with
      | none => simp
      | some o =>
        cases hu : Store.user s o.id user with
        | none => simp [hu]
        | some u =>
          cases hcreator : creatorName s u.createBy with
          | none => simp [hu, hcreator]
          | some createBy =>
            cases engineStarts with
            | false => simp [hu, hcreator]
            | true =>
              cases hdb : config.lookup "database" with
              | none =>
                simp only [hu, hcreator, hdb, databaseFound, if_true]
                exact ⟨rfl, o, u, rfl, rfl, rfl⟩
              | some database =>
                simp only [hu, hcreator, hdb, databaseFound, if_true, wp_setCurrentDb]
                split <;> rename_i hfound <;> simp [hfound]

/-! ### Runs -/

section Steps

variable {env : Env} {s : Servers S R}

lemma Authenticated.access (h : s.Authenticated env) (client : Client)
    (username password : String) (address : Option (String × Nat)) :
    (s.step env (.access client username password address)).Authenticated env := by
  have hlogin := CatalogLogin.wp_doLogin env username password s.store
  rw [Action.wp, Handler.wp] at hlogin
  simp only [step, Servers.access, onStore, Handler.exec, bind]
  cases hrun : (CatalogLogin.doLogin env username password).run s.store with
  | mk answer store =>
    rw [hrun] at hlogin
    cases answer with
    | error e => exact ⟨h.passwords, h.opened, h.own⟩
    | ok session =>
      obtain ⟨rfl, hpassword, o, u, -, huser, horg, -, hmatch⟩ := hlogin
      have hrecorded : ((recordLogin session s).Authenticated env) := by
        refine ⟨fun login hmem => ?_, fun sessionId runner hlookup => ?_, h.own⟩
        · rcases List.mem_append.mp hmem with hmem | hmem
          · exact h.passwords login hmem
          · rw [List.mem_singleton.mp hmem]
            simp [horg, huser, hpassword, hmatch]
        · obtain ⟨login, hmem, hids⟩ := h.opened sessionId runner hlookup
          exact ⟨login, List.mem_append_left _ hmem, hids⟩
      cases address with
      | none => exact hrecorded
      | some address => exact hrecorded

/-- A session is opened for whom the map of the request names. -/
lemma authenticated_openSession_iff (h : s.Authenticated env) (client : Client)
    (session config : SessionMap) (newSessionId : String) (engineStarts : Bool) :
    (s.step env (.request client (.openSession session config) newSessionId
      engineStarts)).Authenticated env ↔
      ∀ o u, opens s.store session config engineStarts = some (o, u) →
        ∃ login ∈ s.logins, login.session.orgId = o.id ∧ login.session.userId = u.id := by
  have hrunner := wp_newRunner session config engineStarts s.store
  rw [Action.wp, Handler.wp] at hrunner
  simp only [step, receive, handleOpenSession, onStore, Handler.exec, bind]
  cases hrun : (newRunner session config engineStarts).run s.store with
  | mk answer store =>
    rw [hrun] at hrunner
    cases answer with
    | error e =>
      obtain ⟨rfl, hnone⟩ := hrunner
      simp [hnone, h]
    | ok catalog =>
      obtain ⟨rfl, o, u, hopens, horg, huser⟩ := hrunner
      simp only [hopens, Handler.modify, Option.some.injEq, Prod.mk.injEq, pure]
      constructor
      · rintro hauth o' u' ⟨rfl, rfl⟩
        obtain ⟨login, hlogin, hids⟩ := hauth.opened newSessionId _ (AList.lookup_insert _)
        exact ⟨login, hlogin, hids.1.trans horg, hids.2.trans huser⟩
      · intro hlogin
        obtain ⟨login, hmem, hids⟩ := hlogin o u ⟨rfl, rfl⟩
        refine ⟨h.passwords, fun sessionId runner hlookup => ?_, h.own⟩
        by_cases hid : sessionId = newSessionId
        · subst hid
          rw [AList.lookup_insert] at hlookup
          cases hlookup
          exact ⟨login, hmem, hids.1.trans horg.symm, hids.2.trans huser.symm⟩
        · rw [AList.lookup_insert_ne hid] at hlookup
          exact h.opened sessionId runner hlookup

omit [Inhabited S] [Names] in
/-- The sessions keep their users while a request on one of them is recorded. -/
lemma authenticated_record_iff (h : s.Authenticated env) (client : Client) (opened : OpenedRunner S R)
    {sessions : AList fun _ : String => OpenedRunner S R}
    (hsessions : ∀ sessionId runner, sessions.lookup sessionId = some runner →
      ∃ runner', s.sessionIdToRunner.lookup sessionId = some runner' ∧
        runner.catalog = runner'.catalog) :
    ({ s.record client opened.opener with sessionIdToRunner := sessions } :
      Servers S R).Authenticated env ↔ opened.opener = client := by
  constructor
  · intro hauth
    have hact := hauth.own ⟨client, opened.opener⟩ (by simp [record])
    exact hact.symm
  · intro hown
    refine ⟨h.passwords, fun sessionId runner hlookup => ?_, fun act hact => ?_⟩
    · obtain ⟨runner', hlookup', hcatalog⟩ := hsessions sessionId runner hlookup
      rw [hcatalog]
      exact h.opened sessionId runner' hlookup'
    · rcases List.mem_append.mp hact with hact | hact
      · exact h.own act hact
      · rw [List.mem_singleton.mp hact]
        exact hown.symm

omit [Inhabited S] [Names] in
/-- A request that names a session acts on it, whoever sends it. -/
lemma authenticated_onSession_iff (h : s.Authenticated env) (client : Client) (sessionId : String)
    (f : Handler (Runner S R) (QueryResult S R)) :
    ((onSession client sessionId f).exec s).Authenticated env ↔
      ∀ opened, s.sessionIdToRunner.lookup sessionId = some opened → opened.opener = client := by
  simp only [onSession, Handler.exec, bind, Handler.get]
  cases hlookup : s.sessionIdToRunner.lookup sessionId with
  | none => exact iff_of_true h (by simp)
  | some opened =>
    have hsessions : ∀ sessionId' runner,
        (s.sessionIdToRunner.insert sessionId
          { opened with runner := (f opened.runner).2 }).lookup sessionId' = some runner →
        ∃ runner', s.sessionIdToRunner.lookup sessionId' = some runner' ∧
          runner.catalog = runner'.catalog := by
      intro sessionId' runner hrunner
      by_cases hid : sessionId' = sessionId
      · subst hid
        rw [AList.lookup_insert] at hrunner
        cases hrunner
        exact ⟨opened, hlookup, rfl⟩
      · rw [AList.lookup_insert_ne hid] at hrunner
        exact ⟨runner, hrunner, rfl⟩
    have hiff := authenticated_record_iff h client opened hsessions
    simp only [onRunner, Option.some.injEq, forall_eq']
    cases (f opened.runner).1 with
    | ok q => exact hiff
    | error e => exact hiff

omit [Inhabited S] [Names] in
lemma authenticated_closeSession_iff (h : s.Authenticated env) (client : Client) (sessionId : String) :
    ((handleCloseSession client sessionId).exec s).Authenticated env ↔
      ∀ opened, s.sessionIdToRunner.lookup sessionId = some opened → opened.opener = client := by
  simp only [handleCloseSession, Handler.exec, bind, Handler.get]
  cases hlookup : s.sessionIdToRunner.lookup sessionId with
  | none => exact iff_of_true h (by simp)
  | some opened =>
    have hsessions : ∀ sessionId' runner,
        (s.sessionIdToRunner.erase sessionId).lookup sessionId' = some runner →
        ∃ runner', s.sessionIdToRunner.lookup sessionId' = some runner' ∧
          runner.catalog = runner'.catalog := by
      intro sessionId' runner hrunner
      by_cases hid : sessionId' = sessionId
      · subst hid
        rw [AList.lookup_erase] at hrunner
        cases hrunner
      · rw [AList.lookup_erase_ne hid] at hrunner
        exact ⟨runner, hrunner, rfl⟩
    have hiff := authenticated_record_iff h client opened hsessions
    simp only [Option.some.injEq, forall_eq']
    exact hiff

lemma authenticated_step_iff (h : s.Authenticated env) (event : Event S R) :
    (s.step env event).Authenticated env ↔ s.Honest event := by
  cases event with
  | access client username password address =>
    exact iff_of_true (h.access client username password address) trivial
  | catalog store => exact iff_of_true ⟨h.passwords, h.opened, h.own⟩ trivial
  | request client request newSessionId engineStarts =>
    cases request with
    | openSession session config =>
      exact authenticated_openSession_iff h client session config newSessionId engineStarts
    | execute sessionId sqls fetchSize maxRows =>
      exact authenticated_onSession_iff h client sessionId _
    | executeResult sessionId => exact authenticated_onSession_iff h client sessionId _
    | executeCancel sessionId => exact authenticated_onSession_iff h client sessionId _
    | closeSession sessionId => exact authenticated_closeSession_iff h client sessionId
    | unsupported => exact iff_of_true h trivial

end Steps

/-- The sessions of a run are those of users who have logged in, each used by its opener only,
just if the clients ask for nothing else. -/
theorem sessions_authenticated (env : Env) (store : Store) (events : List (Event S R)) :
    EachStep (step env) (fun s event => (s.step env event).Authenticated env) ⟨store, ∅, [], []⟩ events
      ↔ EachStep (step env) Honest ⟨store, ∅, [], []⟩ events := by
  apply eachStep_iff (I := Authenticated env)
  · intro s event h
    exact authenticated_step_iff h event
  · intro s event h hhonest
    exact (authenticated_step_iff h event).mpr hhonest
  · constructor <;> simp

omit [Names] in
/-- A client that has never logged in opens a session with a map of its own making. -/
theorem sessions_authenticated_fails :
    let _ := exactNames
    ¬ EachStep (step plainEnv) (fun s event => (s.step plainEnv event).Authenticated plainEnv)
      (⟨saAndBob, ∅, [], []⟩ : Servers String Nat)
      [.request "mallory" (.openSession [("org", "a"), ("user", "sa")] []) "s1" true] := by
  let _ := exactNames
  intro _ hrun
  have hstart : Authenticated plainEnv (⟨saAndBob, ∅, [], []⟩ : Servers String Nat) := by
    constructor <;> simp
  have hhonest := (authenticated_step_iff hstart _).mp hrun.1
  obtain ⟨login, hlogin, -⟩ := hhonest rowOfA rowOfSa (by decide +kernel)
  cases hlogin

end Servers

end Moonbox.Interactive
