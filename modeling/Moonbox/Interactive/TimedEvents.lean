import Moonbox.Core.Writes

/-!
# Timed events

An event that is enabled has a job in the scheduler of the master. The runner of a session first has
the job made or deleted, by a request to the master, and then writes the catalog: `Runner`, what
`MoonboxMaster` does with the requests, and `TimedEventServiceImpl` over the scheduler of Quartz.
-/

namespace Moonbox.Interactive

open Actor Relational Catalog Core

structure JobKey where
  name : String
  group : String
  deriving DecidableEq, Repr

/-- The `config` is always empty, and neither a start nor an end is ever set. -/
structure EventEntity where
  group : String
  name : String
  lang : String
  sqls : List String
  cronExpr : String
  org : String
  definer : String
  desc : Option String
  deriving DecidableEq, Repr

/-- The key of the job and of its trigger -/
def EventEntity.key (e : EventEntity) : JobKey := ⟨e.name, e.group⟩

/-! ### The scheduler -/

/-- The scheduler of Quartz with the parser and the descriptor of cron expressions, as they are
documented: a trigger belongs to a job; a job that is there is not scheduled again, nor one that
would never fire; a job is deleted with its triggers. Jobs are held in memory: a scheduler that is
started has none. -/
structure Quartz where
  Scheduler : Type
  started : Scheduler
  hasJob : Scheduler → JobKey → Bool
  hasTrigger : Scheduler → JobKey → Bool
  describe : String → Except String String
  fires : EventEntity → Nat → Bool
  addJob : EventEntity → Scheduler → Scheduler
  scheduleJob : EventEntity → Nat → Scheduler → Except String Scheduler
  rescheduleJob : EventEntity → Nat → Scheduler → Except String Scheduler
  deleteJob : JobKey → Scheduler → Scheduler
  hasJob_started : ∀ k, hasJob started k = false
  hasJob_of_hasTrigger : ∀ σ k, hasTrigger σ k = true → hasJob σ k = true
  hasJob_addJob : ∀ e σ k, hasJob (addJob e σ) k = (decide (k = e.key) || hasJob σ k)
  scheduleJob_ok_iff : ∀ e now σ, (∃ σ', scheduleJob e now σ = .ok σ') ↔
    hasJob σ e.key = false ∧ fires e now = true
  hasJob_scheduleJob : ∀ e now σ σ', scheduleJob e now σ = .ok σ' →
    ∀ k, hasJob σ' k = (decide (k = e.key) || hasJob σ k)
  hasJob_deleteJob : ∀ key σ k, hasJob (deleteJob key σ) k = (decide (k ≠ key) && hasJob σ k)

namespace TimedEventServiceImpl

variable (q : Quartz)

/-- The exception of a method of the scheduler, or its new state -/
def attempt (f : q.Scheduler → Except String q.Scheduler) : Handler q.Scheduler Unit := do
  let σ ← Handler.get
  match f σ with
  | .ok σ' => Handler.modify fun _ => σ'
  | .error e => Handler.throw e

def timedEventExists (key : JobKey) (σ : q.Scheduler) : Bool := q.hasJob σ key && q.hasTrigger σ key

def addTimedEvent (event : EventEntity) (now : Nat) : Handler q.Scheduler Unit := do
  match q.describe event.cronExpr with
  | .error e => Handler.throw e
  | .ok _ =>
    let σ ← Handler.get
    let jobExists := q.hasJob σ event.key
    let triggerExists := q.hasTrigger σ event.key
    if jobExists then Handler.modify (q.addJob event) else pure ()
    if triggerExists then attempt q (q.rescheduleJob event now)
    else attempt q (q.scheduleJob event now)

def deleteTimedEvent (key : JobKey) : Handler q.Scheduler Unit := Handler.modify (q.deleteJob key)

end TimedEventServiceImpl

/-! ### The requests to the master -/

section Master

open TimedEventServiceImpl

variable (q : Quartz)

/-- `RegisterTimedEvent`; an exception is what the master answers when the registration fails. -/
def registerTimedEvent (checkTimedService : Bool) (event : EventEntity) (now : Nat) :
    Handler q.Scheduler Unit := do
  if checkTimedService then
    let σ ← Handler.get
    if timedEventExists q event.key σ then
      Handler.throw s!"Timed event {event.name} is running already."
    else addTimedEvent q event now
  else Handler.throw "Timer is out of service."

/-- `UnregisterTimedEvent` -/
def unregisterTimedEvent (checkTimedService : Bool) (group name : String) :
    Handler q.Scheduler Unit :=
  if checkTimedService then deleteTimedEvent q ⟨name, group⟩
  else Handler.throw "Timer is out of service."

end Master

/-! ### The runner -/

/-- The catalog and the scheduler -/
structure Timer (q : Quartz) where
  store : Store
  scheduler : q.Scheduler

/-- What becomes of a request to the master: it is lost on its way, or no master is known; its
answer comes too late; or it is answered. -/
inductive Exchange
  | lost
  | late
  | answered
  deriving DecidableEq, Repr

/-- A command of a session. Whether the timer is in service, and what becomes of a request to the
master, is not up to the runner. -/
structure Query where
  session : MoonboxCatalog
  cmd : Command
  env : Env
  now : Nat
  checkTimedService : Bool
  exchange : Exchange

namespace Runner

variable [Names] {q : Quartz}

def onCatalog {α : Type} (m : DBIO α) : Handler (Timer q) α := fun t =>
  ((m.run t.store).1, { t with store := (m.run t.store).2 })

def onScheduler (m : Handler q.Scheduler Unit) : Handler (Timer q) Unit := fun t =>
  ((m t.scheduler).1, { t with scheduler := (m t.scheduler).2 })

/-- `target.ask(...)` and the wait for its answer -/
def ask (exchange : Exchange) (m : Handler q.Scheduler Unit) : Handler (Timer q) Unit :=
  match exchange with
  | .lost => Handler.throw "Ask timed out."
  | .late => do
    onScheduler m
    Handler.throw "Ask timed out."
  | .answered => onScheduler m

section Request

variable (catalog : MoonboxCatalog)

def createEventEntity (name org definer expr : String) (cmds : List String) (lang : String)
    (desc : Option String) : EventEntity :=
  { group := catalog.getCurrentOrg, name := name, lang := lang, sqls := cmds, cronExpr := expr,
    org := org, definer := definer, desc := desc }

/-- What `createTimedEvent` reads of the catalog to make the entity -/
def createRequest (name : String) (definer : Option String) (schedule : String)
    (description : Option String) (proc : String) : DBIO EventEntity := do
  let procedure ← JdbcCatalog.getProcedure proc catalog.userInSession
  pure (createEventEntity catalog name catalog.getCurrentOrg (definer.getD catalog.getCurrentUser)
    schedule procedure.sqls procedure.lang description)

/-- What `alterTimedEvent` reads of the catalog to make the entity -/
def alterRequest (name : String) : DBIO EventEntity := do
  let existsEvent ← JdbcCatalog.getTimedEvent name catalog.userInSession
  let catalogUser ← JdbcCatalog.getUser catalog.getCurrentOrg existsEvent.definer
  let procedure ← JdbcCatalog.getProcedure existsEvent.procedure catalog.userInSession
  pure (createEventEntity catalog name catalog.getCurrentOrg catalogUser.name existsEvent.schedule
    procedure.sqls procedure.lang existsEvent.description)

end Request

/-- Registration, and then the command itself -/
def registering (query : Query) (request : DBIO EventEntity) : Handler (Timer q) Unit := do
  let eventEntity ← onCatalog request
  ask query.exchange (registerTimedEvent q query.checkTimedService eventEntity query.now)
  let _ ← onCatalog (query.cmd.run query.env query.session query.now)

def alterTimedEvent (query : Query) (name : String) (enable : Bool) : Handler (Timer q) Unit := do
  if enable then registering query (alterRequest query.session name)
  else
    ask query.exchange
      (unregisterTimedEvent q query.checkTimedService query.session.getCurrentOrg name)
    let _ ← onCatalog (query.cmd.run query.env query.session query.now)

def createTimedEvent (query : Query) (name : String) (definer : Option String) (schedule : String)
    (description : Option String) (proc : String) (enable : Bool) : Handler (Timer q) Unit := do
  if enable then
    registering query (createRequest query.session name definer schedule description proc)
  else
    let _ ← onCatalog (query.cmd.run query.env query.session query.now)

/-- The commands of `query` -/
def run (query : Query) : Handler (Timer q) Unit :=
  match query.cmd with
  | .createTimedEvent name definer schedule description proc enable _ =>
    createTimedEvent query name definer schedule description proc enable
  | .alterTimedEventSetEnable name enable => alterTimedEvent query name enable
  | _ => do
    let _ ← onCatalog (query.cmd.run query.env query.session query.now)

end Runner

/-- A session sends a command, or a master starts its timer. -/
inductive TimerEvent
  | query (query : Query)
  | startTimer

def Timer.step [Names] {q : Quartz} (t : Timer q) : TimerEvent → Timer q
  | .query query => (Runner.run query).exec t
  | .startTimer => { t with scheduler := q.started }

end Moonbox.Interactive
