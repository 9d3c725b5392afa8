import Moonbox.Lib.Handler
import Moonbox.Deploy.Persistence

/-!
# The master

`MoonboxMaster`: its collections and the handler of every message that touches them. Workers,
drivers and applications are mutable objects compared by identity, so the collections hold
references and the objects live in a heap. Hash sets are lists without repetition whose traversal
order is drawn from `Env.random`; `HashMap`s that are only looked up are functions.
-/

namespace Moonbox.Deploy

open Actor

abbrev WorkerRef := Nat
abbrev DriverRef := Nat
abbrev AppRef := Nat

/-! ### The objects -/

structure WorkerInfo extends WorkerRecord where
  state : WorkerState
  drivers : AList fun _ : String => DriverRef
  lastHeartbeat : Nat

/-- `init()`, run by the constructor and after deserialization. -/
def WorkerInfo.init (record : WorkerRecord) (now : Nat) : WorkerInfo :=
  { record with state := .alive, drivers := ∅, lastHeartbeat := now }

instance : Inhabited WorkerInfo := ⟨.init default 0⟩

def WorkerInfo.setState (state : WorkerState) (w : WorkerInfo) : WorkerInfo :=
  { w with state := state }

def WorkerInfo.addDriver (driverId : String) (driver : DriverRef) (w : WorkerInfo) : WorkerInfo :=
  { w with drivers := w.drivers.insert driverId driver }

def WorkerInfo.removeDriver (driverId : String) (w : WorkerInfo) : WorkerInfo :=
  { w with drivers := w.drivers.erase driverId }

structure DriverInfo extends DriverRecord where
  state : DriverState
  updateTime : Nat
  exception : Option String
  worker : Option WorkerRef
  appId : Option String
  deriving Inhabited

def DriverInfo.init (record : DriverRecord) (now : Nat) : DriverInfo :=
  { record with
    state := .waiting, updateTime := now, exception := none, worker := none, appId := none }

structure AppInfo extends AppRecord where
  state : AppState
  deriving Inhabited

def AppInfo.init (record : AppRecord) : AppInfo := { record with state := .running }

/-! ### The state -/

/-- The fields of the master, the heap of its objects, the messages it has sent (`sent`) and, as
a record for the proofs, which submission each `LaunchDriver` was sent for (`launches`). -/
structure MasterState where
  state : RecoveryState := .standby
  idToWorker : String → Option WorkerRef := fun _ => none
  addressToWorker : Address → Option WorkerRef := fun _ => none
  workers : List WorkerRef := []
  drivers : List DriverRef := []
  waitingDrivers : List DriverRef := []
  completedDrivers : List DriverRef := []
  apps : List AppRef := []
  idToApp : String → Option AppRef := fun _ => none
  addressToApp : Address → Option AppRef := fun _ => none
  persistenceEngine : PersistenceEngine
  worker : WorkerRef → WorkerInfo := default
  driver : DriverRef → DriverInfo := default
  app : AppRef → AppInfo := default
  nextWorker : WorkerRef := 0
  nextDriver : DriverRef := 0
  nextApp : AppRef := 0
  sent : List Envelope := []
  launches : List (DriverRef × WorkerRef) := []
  draws : Nat := 0

/-- What a handler reads besides the state: the clock, the sender, its own reference, the
configured time-out and the source of random and hash orders. -/
structure Env where
  now : Nat
  sender : ActorRef
  self : ActorRef
  workerTimeoutMs : Nat
  random : Nat → Shuffle
  deriving Inhabited

namespace MasterState

def updateWorker (w : WorkerRef) (f : WorkerInfo → WorkerInfo) (s : MasterState) : MasterState :=
  { s with worker := Function.update s.worker w (f (s.worker w)) }

def updateDriver (d : DriverRef) (f : DriverInfo → DriverInfo) (s : MasterState) : MasterState :=
  { s with driver := Function.update s.driver d (f (s.driver d)) }

def updateApp (a : AppRef) (f : AppInfo → AppInfo) (s : MasterState) : MasterState :=
  { s with app := Function.update s.app a (f (s.app a)) }

def send (receiver : ActorRef) (message : Outgoing) (s : MasterState) : MasterState :=
  { s with sent := s.sent ++ [⟨receiver, message⟩] }

/-- A new instance after a restart: it starts again in `STANDBY` over the same store, and the
objects it creates are new ones. -/
def restart (s : MasterState) : MasterState :=
  { persistenceEngine := s.persistenceEngine
    worker := s.worker, driver := s.driver, app := s.app
    nextWorker := s.nextWorker, nextDriver := s.nextDriver, nextApp := s.nextApp
    sent := s.sent, launches := s.launches, draws := s.draws }

end MasterState

/-! ### The functions of the master -/

namespace Master

open Handler MasterState

variable (env : Env)

/-- Traverse or shuffle a collection. -/
def draw {α : Type} (xs : List α) : Handler MasterState (List α) := fun s =>
  (.ok ((env.random s.draws).apply xs), { s with draws := s.draws + 1 })

/-- `drivers.find(_.id == driverId)`. -/
def findDriver (driverId : String) : Handler MasterState (Option DriverRef) := do
  let s ← get
  let drivers ← draw env s.drivers
  pure (drivers.find? fun d => (s.driver d).id = driverId)

def launchDriver (worker : WorkerRef) (driver : DriverRef) (s : MasterState) : MasterState :=
  let d := s.driver driver
  let s := s.updateWorker worker (·.addDriver d.id driver)
  let s := s.updateDriver driver ({ · with worker := some worker })
  let s := s.send (s.worker worker).endpoint (.launchDriver d.id d.desc)
  let s := { s with launches := s.launches ++ [(driver, worker)] }
  s.updateDriver driver ({ · with state := .submitting })

/-- One turn of the loop of `schedule`. -/
def launchNext (worker : WorkerRef) (driver : DriverRef) (s : MasterState) : MasterState :=
  let s := launchDriver worker driver s
  { s with waitingDrivers := s.waitingDrivers.erase driver }

/-- The loop of `schedule`: `curPos` goes round the shuffled alive workers. -/
def launchWaiting (workers : List WorkerRef) :
    Fin workers.length → List DriverRef → MasterState → MasterState
  | _, [], s => s
  | curPos, driver :: rest, s =>
    launchWaiting workers ⟨(curPos + 1) % workers.length, Nat.mod_lt _ curPos.pos⟩ rest
      (launchNext (workers.get curPos) driver s)

def schedule : Handler MasterState Unit := do
  let s ← get
  if s.state = .active then
    let shuffledAliveWorkers ← draw env (s.workers.filter fun w => (s.worker w).state = .alive)
    if h : 0 < shuffledAliveWorkers.length then
      modify (launchWaiting shuffledAliveWorkers ⟨0, h⟩ s.waitingDrivers)
    else pure ()
  else pure ()

/-- Run a persistence operation, whose exception ends the handler. -/
def persisting (op : PersistenceEngine → Except String PersistenceEngine) :
    Handler MasterState Unit := do
  let s ← get
  match op s.persistenceEngine with
  | .ok engine => modify ({ · with persistenceEngine := engine })
  | .error e => throw e

/-- `drivers -= driver` and `completedDrivers += driver`. -/
def completeDriver (driver : DriverRef) (s : MasterState) : MasterState :=
  { s with
    drivers := s.drivers.filter (· ≠ driver)
    completedDrivers := s.completedDrivers ++ [driver] }

/-- The assignments of `removeDriver` to the driver it takes out, and its `removeDriver` on the
worker. -/
def finishDriver (driver : DriverRef) (change : DriverStateChanged) (s : MasterState) :
    MasterState :=
  let s := s.updateDriver driver ({ · with
    state := change.state, updateTime := change.time, exception := change.exception,
    appId := change.appId })
  match (s.driver driver).worker with
  | some w => s.updateWorker w (·.removeDriver (s.driver driver).id)
  | none => s

def removeDriver (change : DriverStateChanged) : Handler MasterState Unit := do
  let found ← findDriver env change.driverId
  match found with
  | some driver =>
    modify (completeDriver driver)
    let s ← get
    persisting (·.removeDriver (s.driver driver).toDriverRecord)
    modify (finishDriver driver change)
    schedule env
  | none => pure ()

/-- The first part of `removeWorker`. -/
def forgetWorker (worker : WorkerRef) (s : MasterState) : MasterState :=
  let s := s.updateWorker worker (·.setState .dead)
  { s with
    idToWorker := Function.update s.idToWorker (s.worker worker).id none
    addressToWorker := Function.update s.addressToWorker (s.worker worker).address none }

def removeWorker (worker : WorkerRef) : Handler MasterState Unit := do
  modify (forgetWorker worker)
  let s ← get
  let drivers ← draw env ((s.worker worker).drivers.entries.map Sigma.snd)
  forEach (fun driver => do
    let s ← get
    let d := s.driver driver
    removeDriver env
      { driverId := d.id, state := .error, appId := d.appId, exception := none,
        time := d.updateTime }) drivers
  persisting (·.removeWorker (s.worker worker).toWorkerRecord)

def removeApplication (app : AppRef) : Handler MasterState Unit := do
  modify fun s => { s with
    apps := s.apps.filter (· ≠ app)
    idToApp := Function.update s.idToApp (s.app app).id none
    addressToApp := Function.update s.addressToApp (s.app app).address none }
  let s ← get
  persisting (·.removeApplication (s.app app).toAppRecord)

/-- `workers -= _` for the dead workers at the host and port of `worker`. -/
def dropDeadWorkers (worker : WorkerRef) (s : MasterState) : MasterState :=
  { s with workers := s.workers.filter fun w =>
      ¬ ((s.worker w).host = (s.worker worker).host ∧ (s.worker w).port = (s.worker worker).port ∧
        (s.worker w).state = .dead) }

/-- The last part of `registerWorker`. -/
def enterWorker (worker : WorkerRef) (s : MasterState) : MasterState :=
  { s with
    workers := s.workers.insert worker
    idToWorker := Function.update s.idToWorker (s.worker worker).id (some worker)
    addressToWorker := Function.update s.addressToWorker (s.worker worker).address (some worker) }

def registerWorker (worker : WorkerRef) : Handler MasterState Bool := do
  modify (dropDeadWorkers worker)
  let s ← get
  match s.addressToWorker (s.worker worker).address with
  | some oldWorker =>
    if (s.worker oldWorker).state = .unknown then
      removeWorker env oldWorker
      modify (enterWorker worker)
      pure true
    else pure false
  | none =>
    modify (enterWorker worker)
    pure true

def registerApplication (app : AppRef) : Handler MasterState Bool := do
  let s ← get
  if (s.addressToApp (s.app app).address).isSome then pure false
  else
    modify fun s => { s with
      apps := s.apps.insert app
      idToApp := Function.update s.idToApp (s.app app).id (some app)
      addressToApp := Function.update s.addressToApp (s.app app).address (some app) }
    pure true

/-! Objects are created at the next free reference. -/

def allocWorker (info : WorkerInfo) (s : MasterState) : MasterState :=
  { s with
    worker := Function.update s.worker s.nextWorker info
    nextWorker := s.nextWorker + 1 }

def newWorker (record : WorkerRecord) : Handler MasterState WorkerRef := do
  let s ← get
  modify (allocWorker (.init record env.now))
  pure s.nextWorker

def allocDriver (info : DriverInfo) (s : MasterState) : MasterState :=
  { s with
    driver := Function.update s.driver s.nextDriver info
    nextDriver := s.nextDriver + 1 }

def newDriver (record : DriverRecord) : Handler MasterState DriverRef := do
  let s ← get
  modify (allocDriver (.init record env.now))
  pure s.nextDriver

def newApp (record : AppRecord) : Handler MasterState AppRef := do
  let s ← get
  modify fun s => { s with
    app := Function.update s.app s.nextApp (.init record)
    nextApp := s.nextApp + 1 }
  pure s.nextApp

def createDriver (driverId : String) (desc : DriverDesc) : Handler MasterState DriverRef :=
  newDriver env { startTime := env.now, id := driverId, desc := desc, submitDate := env.now }

/-! ### Recovery -/

def recoverWorker (record : WorkerRecord) : Handler MasterState Unit := do
  let worker ← newWorker env record
  tryCatch
    (do
      let _ ← registerWorker env worker
      modify (updateWorker worker (·.setState .unknown))
      modify (send record.endpoint .masterChanged))
    fun _ => pure ()

def recoverApplication (record : AppRecord) : Handler MasterState Unit := do
  let app ← newApp record
  let _ ← registerApplication app
  modify (updateApp app ({ · with state := .unknown }))
  modify (send record.endpoint .masterChanged)

def enterDriver (driver : DriverRef) (s : MasterState) : MasterState :=
  { s with drivers := s.drivers.insert driver }

def recoverDriver (record : DriverRecord) : Handler MasterState Unit := do
  let driver ← newDriver env record
  modify (enterDriver driver)

def beginRecovery (storedDrivers : List DriverRecord) (storedWorkers : List WorkerRecord)
    (storedApps : List AppRecord) : Handler MasterState Unit := do
  forEach (recoverWorker env) storedWorkers
  forEach recoverApplication storedApps
  forEach (recoverDriver env) storedDrivers

def canCompleteRecovery (s : MasterState) : Bool :=
  (s.workers.countP fun w => (s.worker w).state = .unknown) = 0 ∧
    (s.apps.countP fun a => (s.app a).state = .unknown) = 0

def completeRecovery : Handler MasterState Unit := do
  let s ← get
  if s.state = .recovering then
    modify ({ · with state := .completingRecovery })
    let workers ← draw env (s.workers.filter fun w => (s.worker w).state = .unknown)
    forEach (removeWorker env) workers
    let s ← get
    let apps ← draw env (s.apps.filter fun a => (s.app a).state = .unknown)
    forEach removeApplication apps
    modify ({ · with state := .active })
    schedule env
  else pure ()

/-! ### The message handlers -/

def electedLeader (startOnBoot : List (String × DriverDesc)) : Handler MasterState Unit := do
  let s ← get
  let storedDrivers ← draw env s.persistenceEngine.readDrivers
  let storedWorkers ← draw env s.persistenceEngine.readWorkers
  let storedApps ← draw env s.persistenceEngine.readApplication
  if storedDrivers.isEmpty && storedWorkers.isEmpty && storedApps.isEmpty then
    modify ({ · with state := .active })
    forEach (fun app => modify (send env.self (.requestSubmitDriver app.1 app.2))) startOnBoot
  else
    modify ({ · with state := .recovering })
    beginRecovery env storedDrivers storedWorkers storedApps

def handleRegisterWorker (record : WorkerRecord) : Handler MasterState Unit := do
  let s ← get
  if s.state = .standby then modify (send record.endpoint .masterInStandby)
  else if (s.idToWorker record.id).isSome then
    modify (send record.endpoint (.registerWorkerFailed "Duplicate worker ID"))
  else
    let worker ← newWorker env record
    if ← registerWorker env worker then
      modify fun s => { s with persistenceEngine := s.persistenceEngine.addWorker record }
      modify (send record.endpoint .registeredWorker)
      schedule env
    else
      modify (send record.endpoint (.registerWorkerFailed
        ("Worker registration failed. Attempted to re-register worker at same address: " ++
          record.address)))

def handleHeartbeat (workerId : String) (worker : ActorRef) (s : MasterState) : MasterState :=
  match s.idToWorker workerId with
  | some w => s.updateWorker w ({ · with lastHeartbeat := env.now })
  | none =>
    if (s.workers.map fun w => (s.worker w).id).contains workerId then s.send worker .reconnectWorker
    else s

def assignDriver (worker : WorkerRef) (driver : DriverRef) (s : MasterState) : MasterState :=
  let s := s.updateDriver driver ({ · with worker := some worker, state := .running })
  s.updateWorker worker (·.addDriver (s.driver driver).id driver)

/-- One driver id of a `WorkerSchedulerStateResponse`. -/
def claimDriver (worker : WorkerRef) (driverId : String) : Handler MasterState Unit := do
  let found ← findDriver env driverId
  match found with
  | some driver => modify (assignDriver worker driver)
  | none => pure ()

def answeringWorker (workerId : String) (driverIds : List String) : Handler MasterState Unit := do
  let s ← get
  match s.idToWorker workerId with
  | some worker =>
    modify (updateWorker worker (·.setState .alive))
    forEach (claimDriver env worker) driverIds
  | none => pure ()

def completeIfPossible : Handler MasterState Unit := do
  let s ← get
  if canCompleteRecovery s then completeRecovery env else pure ()

def handleWorkerSchedulerStateResponse (workerId : String) (driverIds : List String) :
    Handler MasterState Unit := do
  answeringWorker env workerId driverIds
  completeIfPossible env

def handleWorkerLatestState (workerId : String) (driverIds : List String) (s : MasterState) :
    MasterState :=
  match s.idToWorker workerId with
  | some worker =>
    driverIds.foldl (fun s driverId =>
      if ((s.worker worker).drivers.lookup driverId).isSome then s
      else s.send (s.worker worker).endpoint (.killDriver driverId)) s
  | none => s

def handleRegisterApplication (record : AppRecord) : Handler MasterState Unit := do
  let s ← get
  if s.state = .standby then modify (send record.endpoint .masterInStandby)
  else if (s.idToApp record.id).isSome then
    modify (send record.endpoint
      (.registerApplicationFailed ("Duplicate application ID " ++ record.id)))
  else
    let app ← newApp record
    if ← registerApplication app then
      modify fun s => { s with persistenceEngine := s.persistenceEngine.addApplication record }
      modify (send record.endpoint .registeredApplication)
    else
      modify (send record.endpoint (.registerApplicationFailed
        ("Application " ++ record.id ++ " registration failed. Attempted to re-register " ++
          "application at same address: " ++ record.address)))

def answeringApplication (driverId : String) (s : MasterState) : MasterState :=
  match s.idToApp driverId with
  | some app => s.updateApp app ({ · with state := .running })
  | none => s

def handleApplicationStateResponse (driverId : String) : Handler MasterState Unit := do
  modify (answeringApplication driverId)
  completeIfPossible env

def expireWorker (worker : WorkerRef) (s : MasterState) : MasterState :=
  { s with workers := s.workers.filter (· ≠ worker) }

/-- `timeOutDeadWorkers`; a comparison with `currentTime - t` is written as a sum. -/
def timeOutDeadWorkers : Handler MasterState Unit := do
  let s ← get
  let toRemove ← draw env (s.workers.filter fun w =>
    (s.worker w).lastHeartbeat + env.workerTimeoutMs < env.now)
  forEach (fun worker => do
    let s ← get
    if (s.worker worker).state ≠ .dead then removeWorker env worker
    else if (s.worker worker).lastHeartbeat + 15 * env.workerTimeoutMs < env.now then
      modify (expireWorker worker)
    else pure ()) toRemove

def changeDriver (driver : DriverRef) (change : DriverStateChanged) (s : MasterState) :
    MasterState :=
  s.updateDriver driver ({ · with
    state := change.state, updateTime := change.time, appId := change.appId })

def handleDriverStateChanged (change : DriverStateChanged) : Handler MasterState Unit := do
  if change.state.isFinished then removeDriver env change
  else
    let found ← findDriver env change.driverId
    match found with
    | some d => modify (changeDriver d change)
    | none => pure ()

/-- `waitingDrivers += driver` and `drivers.add(driver)`. -/
def enqueueDriver (driver : DriverRef) (s : MasterState) : MasterState :=
  { s with
    waitingDrivers := s.waitingDrivers ++ [driver]
    drivers := s.drivers.insert driver }

def handleRequestSubmitDriver (driverName : String) (desc : DriverDesc) :
    Handler MasterState Unit := do
  let s ← get
  if s.state ≠ .active then
    modify (send env.sender (.submitDriverResponse false none
      ("Current state is not active: " ++ s.state.toString ++
        ". Can only accept driver submission in ALIVE state.")))
  else
    let driver ← createDriver env driverName desc
    let s ← get
    let record := (s.driver driver).toDriverRecord
    modify fun s => { s with persistenceEngine := s.persistenceEngine.addDriver record }
    modify (enqueueDriver driver)
    schedule env
    modify (send env.sender (.submitDriverResponse true (some record.id)
      ("Driver Successfully submitted as " ++ record.id)))

def dequeueDriver (d : DriverRef) (s : MasterState) : MasterState :=
  { s with waitingDrivers := s.waitingDrivers.erase d }

/-- A waiting driver leaves the queue and is removed by a message of the master to itself; a
launched one is killed by its worker. -/
def killDriver (driverId : String) (d : DriverRef) : Handler MasterState Unit := do
  let s ← get
  if s.waitingDrivers.contains d then
    modify (dequeueDriver d)
    modify (send env.self (.driverStateChanged
      { driverId := driverId, state := .killed, appId := none, exception := none,
        time := env.now }))
  else
    match (s.driver d).worker with
    | some w => modify (send (s.worker w).endpoint (.killDriver driverId))
    | none => pure ()

def handleRequestKillDriver (driverId : String) : Handler MasterState Unit := do
  let s ← get
  if s.state ≠ .active then
    modify (send env.sender (.killDriverResponse driverId false
      ("Current state is not active: " ++ s.state.toString ++
        ". Can only kill drivers status in ALIVE state.")))
  else
    let found ← findDriver env driverId
    match found with
    | some d =>
      killDriver env driverId d
      modify (send env.sender (.killDriverResponse driverId true
        ("Kill request for " ++ driverId ++ " submitted.")))
    | none =>
      modify (send env.sender (.killDriverResponse driverId false
        ("Driver " ++ driverId ++ " not found or it is competed.")))

def driverStatus (s : MasterState) (driverId : String) (driver : DriverRef) :
    DriverStatusResponse :=
  let d := s.driver driver
  let worker := d.worker.map s.worker
  { found := true, driverId := driverId, driverType := some d.desc.name,
    startTime := some d.startTime, state := some d.state, updateTime := some d.updateTime,
    workerId := worker.map (·.id),
    workerHostPort := worker.map fun w => w.host ++ ":" ++ toString w.port,
    exception := d.exception }

def DriverStatusResponse.notFound (driverId : String) (exception : Option String) :
    DriverStatusResponse :=
  { found := false, driverId := driverId, driverType := none, startTime := none, state := none,
    updateTime := none, workerId := none, workerHostPort := none, exception := exception }

def notActiveStatus (s : MasterState) : String :=
  "Current state is not active: " ++ s.state.toString ++
    ". Can only request driver status in ALIVE state."

def handleRequestDriverStatus (driverId : String) : Handler MasterState Unit := do
  let s ← get
  if s.state ≠ .active then
    modify (send env.sender (.driverStatusResponse
      (DriverStatusResponse.notFound driverId (some (notActiveStatus s)))))
  else
    let all ← draw env (s.drivers ∪ s.completedDrivers)
    match all.find? fun d => (s.driver d).id = driverId with
    | some driver =>
      modify (send env.sender (.driverStatusResponse (driverStatus s driverId driver)))
    | none =>
      modify (send env.sender (.driverStatusResponse (DriverStatusResponse.notFound driverId none)))

def handleRequestAllDriverStatus (pattern : Option String) : Handler MasterState Unit := do
  let s ← get
  if s.state ≠ .active then
    modify (send env.sender (.allDriverStatusResponse [] (some (notActiveStatus s))))
  else
    let all ← draw env (s.drivers ∪ s.completedDrivers)
    let allDrivers := match pattern with
      | some p => all.filter fun d => (s.driver d).id.startsWith p
      | none => all
    modify (send env.sender (.allDriverStatusResponse
      (allDrivers.map fun d => driverStatus s (s.driver d).id d) none))

def disconnectWorker (remoteAddress : Address) : Handler MasterState Unit := do
  let s ← get
  match s.addressToWorker remoteAddress with
  | some worker => removeWorker env worker
  | none => pure ()

def disconnectApplication (remoteAddress : Address) : Handler MasterState Unit := do
  let s ← get
  match s.addressToApp remoteAddress with
  | some app => removeApplication app
  | none => pure ()

def onDisconnected (remoteAddress : Address) : Handler MasterState Unit := do
  disconnectWorker env remoteAddress
  disconnectApplication remoteAddress
  let s ← get
  if s.state = .recovering then completeIfPossible env else pure ()

def handleMessage : Message → Handler MasterState Unit
  | .electedLeader startOnBoot => electedLeader env startOnBoot
  | .registerWorker id host port worker address =>
    handleRegisterWorker env
      { id := id, host := host, port := port, address := address, endpoint := worker }
  | .heartbeat workerId worker => modify (handleHeartbeat env workerId worker)
  | .workerSchedulerStateResponse workerId driverIds =>
    handleWorkerSchedulerStateResponse env workerId driverIds
  | .workerLatestState workerId driverIds => modify (handleWorkerLatestState workerId driverIds)
  | .registerApplication driverId host port endpoint address dataPort appType =>
    handleRegisterApplication
      { startTime := env.now, id := driverId, host := host, port := port, address := address,
        dataPort := dataPort, endpoint := endpoint, appType := appType }
  | .applicationStateResponse driverId => handleApplicationStateResponse env driverId
  | .completeRecovery => completeRecovery env
  | .checkForWorkerTimeOut => timeOutDeadWorkers env
  | .driverStateChanged change => handleDriverStateChanged env change
  | .requestSubmitDriver driverName desc => handleRequestSubmitDriver env driverName desc
  | .requestKillDriver driverId => handleRequestKillDriver env driverId
  | .requestDriverStatus driverId => handleRequestDriverStatus env driverId
  | .requestAllDriverStatus pattern => handleRequestAllDriverStatus env pattern
  | .disconnected remoteAddress => onDisconnected env remoteAddress

/-! ### Runs -/

/-- The election agent tells a master only once that it leads: it then is in `STANDBY`. -/
def Deliverable (s : MasterState) : Message → Prop
  | .electedLeader _ => s.state = .standby
  | _ => True

/-- One message handled. An exception makes the supervisor restart the actor. -/
def step (m : Message) (s : MasterState) : MasterState :=
  if (handleMessage env m).succeeds s then (handleMessage env m).exec s
  else ((handleMessage env m).exec s).restart

end Master

end Moonbox.Deploy
