import Mathlib.Data.List.Perm.Basic
import Mathlib.Tactic.Lemma

/-!
# Deploy messages

The enumerations, addresses and messages that the master, the workers and the interactive
applications exchange (`DeployMessages`, `DriverState`, `WorkerState`, `AppState`,
`RecoveryState`). Actor references and addresses are compared only for equality.
-/

namespace Moonbox.Deploy

abbrev ActorRef := String
abbrev Address := String

inductive DriverState where
  | waiting | submitting | connected | submitted | running | finished | unknown | lost | killed
  | failed | error
  deriving DecidableEq, Repr, Inhabited

def DriverState.isFinished (state : DriverState) : Bool :=
  [finished, killed, lost, failed, error].contains state

inductive WorkerState where
  | alive | dead | unknown
  deriving DecidableEq, Repr, Inhabited

inductive AppState where
  | running | failed | killed | dead | unknown
  deriving DecidableEq, Repr, Inhabited

inductive RecoveryState where
  | standby | active | recovering | completingRecovery
  deriving DecidableEq, Repr, Inhabited

def RecoveryState.toString : RecoveryState → String
  | standby => "STANDBY"
  | active => "ACTIVE"
  | recovering => "RECOVERING"
  | completingRecovery => "COMPLETING_RECOVERY"

/-- What the master reads of a driver description; the rest goes to the launcher untouched. -/
structure DriverDesc where
  name : String
  config : List (String × String)
  deriving DecidableEq, Repr, Inhabited

/-- `DriverStateChanged`. -/
structure DriverStateChanged where
  driverId : String
  state : DriverState
  appId : Option String
  exception : Option String
  time : Nat
  deriving DecidableEq, Repr, Inhabited

/-- `DriverStatusResponse`. -/
structure DriverStatusResponse where
  found : Bool
  driverId : String
  driverType : Option String
  startTime : Option Nat
  state : Option DriverState
  updateTime : Option Nat
  workerId : Option String
  workerHostPort : Option String
  exception : Option String
  deriving DecidableEq, Repr, Inhabited

/-- The messages the master handles. `disconnected` is the `DisassociatedEvent` of a remote
address; `electedLeader` carries what the catalog lists as applications to start on boot. -/
inductive Message where
  | electedLeader (startOnBoot : List (String × DriverDesc))
  | registerWorker (id host : String) (port : Nat) (worker : ActorRef) (address : Address)
  | heartbeat (workerId : String) (worker : ActorRef)
  | workerSchedulerStateResponse (workerId : String) (driverIds : List String)
  | workerLatestState (workerId : String) (driverIds : List String)
  | registerApplication (driverId host : String) (port : Nat) (endpoint : ActorRef)
      (address : Address) (dataPort : Nat) (appType : String)
  | applicationStateResponse (driverId : String)
  | completeRecovery
  | checkForWorkerTimeOut
  | driverStateChanged (change : DriverStateChanged)
  | requestSubmitDriver (driverName : String) (desc : DriverDesc)
  | requestKillDriver (driverId : String)
  | requestDriverStatus (driverId : String)
  | requestAllDriverStatus (pattern : Option String)
  | disconnected (remoteAddress : Address)
  deriving DecidableEq, Repr

/-- The messages the master sends. -/
inductive Outgoing where
  | masterInStandby
  | registeredWorker
  | registerWorkerFailed (message : String)
  | reconnectWorker
  | masterChanged
  | registeredApplication
  | registerApplicationFailed (message : String)
  | launchDriver (driverId : String) (desc : DriverDesc)
  | killDriver (driverId : String)
  | driverStateChanged (change : DriverStateChanged)
  | requestSubmitDriver (driverName : String) (desc : DriverDesc)
  | submitDriverResponse (success : Bool) (driverId : Option String) (message : String)
  | killDriverResponse (driverId : String) (success : Bool) (message : String)
  | driverStatusResponse (response : DriverStatusResponse)
  | allDriverStatusResponse (driverStatus : List DriverStatusResponse) (exception : Option String)
  deriving DecidableEq, Repr

structure Envelope where
  receiver : ActorRef
  message : Outgoing
  deriving DecidableEq, Repr

/-- The driver a `LaunchDriver` message is about. -/
def Envelope.launchedId (e : Envelope) : Option String :=
  match e.message with
  | .launchDriver driverId _ => some driverId
  | _ => none

/-- An order in which a collection is traversed or shuffled: it depends on hash codes or on a
random source, and only that it is a permutation is known. -/
structure Shuffle where
  apply : {α : Type} → List α → List α
  perm : ∀ {α : Type} (xs : List α), (apply xs).Perm xs

instance : Inhabited Shuffle := ⟨⟨id, fun _ => .rfl⟩⟩

@[simp] lemma Shuffle.mem_apply (r : Shuffle) {α : Type} (xs : List α) (x : α) :
    x ∈ r.apply xs ↔ x ∈ xs := (r.perm xs).mem_iff

end Moonbox.Deploy
