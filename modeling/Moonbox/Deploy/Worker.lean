import Moonbox.Deploy.Persistence
import Moonbox.Lib.Runs

/-!
# The worker

`MoonboxWorker` and its `DriverRunner`s. A runner has a thread of its own that starts the Spark
application and a listener that tells the worker of each change, through the mailbox of the worker.
The timers, the threads and the masters are the environment: what they do is an event.
-/

namespace Moonbox.Deploy

open Actor

abbrev RunnerRef := Nat
abbrev TimerRef := Nat

/-! ### `DriverRunner` -/

/-- `SparkAppHandle.State` -/
inductive SparkAppState where
  | unknown | connected | submitted | running | finished | failed | killed | lost
  deriving DecidableEq, Repr

/-- `stateChanged` of the listener -/
def SparkAppState.driverState : SparkAppState → DriverState
  | unknown => .unknown
  | lost => .lost
  | connected => .connected
  | submitted => .submitted
  | running => .running
  | failed => .failed
  | killed => .killed
  | finished => .finished

/-- What a runner is created with, whether its thread has assigned `sparkAppHandle` and `process`,
and, as a record, what was asked of it: `kill()`, and by it `stop()` and `destroy()`. `ended` says
that it has told its worker of a final state. -/
structure DriverRunner where
  driverId : String
  desc : DriverDesc
  master : ActorRef
  submitDate : Nat
  sparkAppHandle : Bool := false
  process : Bool := false
  killed : Bool := false
  stopped : Bool := false
  destroyed : Bool := false
  ended : Bool := false
  deriving DecidableEq, Inhabited

/-- A handle and a process that are not there yet are left alone: nothing is remembered of the
request. -/
def DriverRunner.kill (r : DriverRunner) : DriverRunner :=
  { r with
    killed := true
    stopped := r.stopped || r.sparkAppHandle
    destroyed := r.destroyed || r.process }

/-- The application masters; `onWorkerExit` is overridden by those of Spark applications that are
served, and does nothing for batches. -/
inductive AppMasterType where
  | sparklocal | sparkcluster | sparkbatch
  deriving DecidableEq

namespace AppMasterType

def typeName : AppMasterType → String
  | sparklocal => "sparklocal"
  | sparkcluster => "sparkcluster"
  | sparkbatch => "sparkbatch"

def onWorkerExit : AppMasterType → DriverRunner → DriverRunner
  | sparklocal, r => r.kill
  | sparkcluster, r => r.kill
  | sparkbatch, r => r

end AppMasterType

/-- `AppMasterManager.getAppMaster`, of the application masters registered in this process -/
def getAppMaster (registered : List AppMasterType) (typeName : String) : Option AppMasterType :=
  registered.find? fun a => a.typeName = typeName

/-! ### The state -/

/-- What a worker is created with; `appMasters` are those registered in its process. -/
structure WorkerParam where
  workerId : String
  host : String
  port : Nat
  self : ActorRef
  address : Address
  masterAddresses : List ActorRef
  appMasters : List AppMasterType
  deriving Inhabited

/-- The fields of the worker, the heap of its runners, its mailbox of reports (each with the runner
it is from, as a record), the number of timers that send `SendHeartbeat`, none of which is ever
cancelled, and the messages it has sent. -/
structure MoonboxWorker extends WorkerParam where
  master : Option ActorRef := none
  masterAddressToConnect : Option Address := none
  registered : Bool := false
  connected : Bool := false
  connectionAttemptCount : Nat := 0
  drivers : AList fun _ : String => RunnerRef := ∅
  finishedDrivers : AList fun _ : String => RunnerRef := ∅
  registerToMasterScheduler : Option TimerRef := none
  nextTimer : TimerRef := 0
  heartbeats : Nat := 0
  terminated : Bool := false
  runner : RunnerRef → DriverRunner := default
  nextRunner : RunnerRef := 0
  mailbox : List (RunnerRef × DriverStateChanged) := []
  sent : List (ActorRef × Message) := []

namespace MoonboxWorker

variable (pathAddress : ActorRef → Address)

def updateRunner (r : RunnerRef) (f : DriverRunner → DriverRunner) (s : MoonboxWorker) :
    MoonboxWorker :=
  { s with runner := Function.update s.runner r (f (s.runner r)) }

def send (receiver : ActorRef) (message : Message) (s : MoonboxWorker) : MoonboxWorker :=
  { s with sent := s.sent ++ [(receiver, message)] }

/-- Without a master the message is dropped. -/
def sendToMaster (message : Message) (s : MoonboxWorker) : MoonboxWorker :=
  match s.master with
  | some masterRef => s.send masterRef message
  | none => s

/-! ### Registration -/

def cancelRegistrationScheduler (s : MoonboxWorker) : MoonboxWorker :=
  { s with registerToMasterScheduler := none }

def registerWithMaster (s : MoonboxWorker) : MoonboxWorker :=
  match s.registerToMasterScheduler with
  | none =>
    { s with
      registered := false
      connectionAttemptCount := 0
      registerToMasterScheduler := some s.nextTimer
      nextTimer := s.nextTimer + 1 }
  | some _ => s

def changeMaster (masterRef : ActorRef) (s : MoonboxWorker) : MoonboxWorker :=
  cancelRegistrationScheduler
    { s with
      masterAddressToConnect := some (pathAddress masterRef)
      master := some masterRef
      connected := true }

def onWorkerExit (s : MoonboxWorker) (r : RunnerRef) : MoonboxWorker :=
  match getAppMaster s.appMasters (s.runner r).desc.name with
  | some am => s.updateRunner r am.onWorkerExit
  | none => s

/-- `gracefullyShutdown` ends the process, whose shutdown hook looks at `drivers`. -/
def gracefullyShutdown (s : MoonboxWorker) : MoonboxWorker :=
  { (s.drivers.entries.map Sigma.snd).foldl onWorkerExit s with terminated := true }

def sendRegisterMessageToMaster (s : MoonboxWorker) (masterAddress : ActorRef) : MoonboxWorker :=
  s.send masterAddress (.registerWorker s.workerId s.host s.port s.self s.address)

def tryRegisterAllMasters (s : MoonboxWorker) : MoonboxWorker :=
  let s := { s with connectionAttemptCount := s.connectionAttemptCount + 1 }
  if s.registered then s.cancelRegistrationScheduler
  else if s.connectionAttemptCount ≤ 15 then
    s.masterAddresses.foldl sendRegisterMessageToMaster s
  else s.gracefullyShutdown

def masterDisconnected (s : MoonboxWorker) : MoonboxWorker :=
  registerWithMaster { s with connected := false }

def onDisconnected (remoteAddress : Address) (s : MoonboxWorker) : MoonboxWorker :=
  if s.master.any (pathAddress · = remoteAddress) ∨
      s.masterAddressToConnect = some remoteAddress then
    s.masterDisconnected
  else s

/-! ### Drivers -/

def launchDriver (masterRef : ActorRef) (driverId : String) (desc : DriverDesc) (now : Nat)
    (s : MoonboxWorker) : MoonboxWorker :=
  { s with
    runner := Function.update s.runner s.nextRunner
      { driverId := driverId, desc := desc, master := masterRef, submitDate := now }
    nextRunner := s.nextRunner + 1
    drivers := s.drivers.insert driverId s.nextRunner }

def killDriver (driverId : String) (s : MoonboxWorker) : MoonboxWorker :=
  match s.drivers.lookup driverId with
  | some r => s.updateRunner r DriverRunner.kill
  | none => s

def finishDriver (driverId : String) (s : MoonboxWorker) : MoonboxWorker :=
  match s.drivers.lookup driverId with
  | some r =>
    { s with
      drivers := s.drivers.erase driverId
      finishedDrivers := s.finishedDrivers.insert driverId r }
  | none => s

def handleDriverStateChanged (change : DriverStateChanged) (s : MoonboxWorker) : MoonboxWorker :=
  let s := if change.state.isFinished then s.finishDriver change.driverId else s
  s.sendToMaster (.driverStateChanged change)

/-! ### Messages of a master -/

/-- A message that the worker does not know is only printed. -/
def handleMessage (masterRef : ActorRef) (now : Nat) (s : MoonboxWorker) :
    Outgoing → MoonboxWorker
  | .registeredWorker =>
    let s := changeMaster pathAddress masterRef { s with registered := true }
    let s := { s with heartbeats := s.heartbeats + 1 }
    s.send masterRef (.workerLatestState s.workerId s.drivers.keys)
  | .registerWorkerFailed _ => if s.registered then s else s.gracefullyShutdown
  | .masterInStandby => s
  | .masterChanged =>
    let s := changeMaster pathAddress masterRef s
    s.send masterRef (.workerSchedulerStateResponse s.workerId s.drivers.keys)
  | .reconnectWorker => s.registerWithMaster
  | .launchDriver driverId desc => s.launchDriver masterRef driverId desc now
  | .killDriver driverId => s.killDriver driverId
  | _ => s

/-! ### Runs -/

/-- What happens to a worker: a message arrives, one of its timers fires, an association is lost, the
next report in its mailbox is handled, or the thread or the listener of a runner gets on. -/
inductive Event where
  | receive (masterRef : ActorRef) (message : Outgoing) (now : Nat)
  | sendHeartbeat
  | tryRegister (timer : TimerRef)
  | disassociated (localAddress remoteAddress : Address)
  | driverStateChanged
  | assignHandle (r : RunnerRef)
  | assignProcess (r : RunnerRef)
  | stateChanged (r : RunnerRef) (state : SparkAppState) (appId : Option String) (now : Nat)
  | launchFailed (r : RunnerRef) (exception : String) (now : Nat)

/-- What a runner tells its worker -/
def report (r : RunnerRef) (state : DriverState) (appId exception : Option String) (now : Nat)
    (s : MoonboxWorker) : MoonboxWorker :=
  let change : DriverStateChanged :=
    { driverId := (s.runner r).driverId, state := state, appId := appId, exception := exception,
      time := now }
  { s.updateRunner r (fun runner => { runner with ended := runner.ended || state.isFinished }) with
    mailbox := s.mailbox ++ [(r, change)] }

/-- The events of a process that is there -/
def handle (s : MoonboxWorker) : Event → MoonboxWorker
  | .receive masterRef message now => handleMessage pathAddress masterRef now s message
  | .sendHeartbeat => if s.connected then s.sendToMaster (.heartbeat s.workerId s.self) else s
  | .tryRegister _ => s.tryRegisterAllMasters
  | .disassociated localAddress remoteAddress =>
    if localAddress = s.address then s.onDisconnected pathAddress remoteAddress else s
  | .driverStateChanged =>
    match s.mailbox with
    | [] => s
    | (_, change) :: rest => handleDriverStateChanged change { s with mailbox := rest }
  | .assignHandle r => s.updateRunner r ({ · with sparkAppHandle := true })
  | .assignProcess r => s.updateRunner r ({ · with process := true })
  | .stateChanged r state appId now => s.report r state.driverState appId none now
  | .launchFailed r exception now => s.report r .error none (some exception) now

def step (s : MoonboxWorker) (event : Event) : MoonboxWorker :=
  if s.terminated then s else handle pathAddress s event

def run (s : MoonboxWorker) (events : List Event) : MoonboxWorker :=
  events.foldl (step pathAddress) s

/-- A new worker after `preStart` -/
def start (param : WorkerParam) : MoonboxWorker := registerWithMaster { param with }

/-- What the environment does: a timer fires while it is not cancelled, a thread works on a runner
there is, and no application changes its state after a final one. -/
def Possible (s : MoonboxWorker) : Event → Prop
  | .tryRegister timer => s.registerToMasterScheduler = some timer
  | .sendHeartbeat => 0 < s.heartbeats
  | .assignHandle r => r < s.nextRunner
  | .assignProcess r => r < s.nextRunner
  | .stateChanged r _ _ _ => r < s.nextRunner ∧ (s.runner r).ended = false
  | .launchFailed r _ _ => r < s.nextRunner ∧ (s.runner r).ended = false
  | _ => True

end MoonboxWorker

end Moonbox.Deploy
