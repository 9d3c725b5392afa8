import Moonbox.Deploy.DriverSteps
import Moonbox.Lib.Runs

/-!
# Applications

`ApplicationService`: a call to start or to delete an application asks the master for the status
of the driver with the application's id, and on the answer submits the driver or drops the
application from the catalog, each in a message or a transaction of its own. Calls of any clients
and messages of others to the master interleave.
-/

namespace Moonbox.Rest

open Actor Handler Deploy Master MasterState

/-! ### The service -/

/-- The calls of `ApplicationService` that reach the master. -/
inductive ApplicationCall where
  | startApplication | stopApplication | deleteApplication
  deriving DecidableEq, Repr

/-- The test that `startApplication` and `deleteApplication` make of the status. -/
def notStarted (status : DriverStatusResponse) : Bool :=
  !status.found || (status.found && status.state.any DriverState.isFinished)

/-- How far a call has come. For the proofs, `asOf` records which drivers were created before the
master answered, and `live` whether one of them carried the id and was not finished. -/
inductive Progress where
  | idle
  | asked (call : ApplicationCall)
  | answered (call : ApplicationCall) (status : DriverStatusResponse) (asOf : DriverRef)
      (live : Bool)
  | submitting (desc : DriverDesc) (asOf : DriverRef)
  deriving DecidableEq, Repr

/-- The master, whether the catalog has the application, and the calls on it by number. -/
structure Deployment where
  master : MasterState
  inCatalog : Bool
  calls : Nat → Progress

inductive ApplicationEvent where
  /-- A client makes a call: `getApplication`, and the request that the call begins with. -/
  | call (c : Nat) (call : ApplicationCall)
  /-- The master handles the request of the call. -/
  | handled (c : Nat) (env : Env)
  /-- The service reads the status. `desc` is what the application master of the type makes of
  the configuration; without one there is nothing to submit. -/
  | read (c : Nat) (desc : Option DriverDesc)
  /-- The master handles a message of someone else. -/
  | message (env : Env) (m : Message)

/-- The messages of others: of the four kinds, with submissions only of other drivers. -/
def FromOthers (id : String) : Message → Prop
  | .requestDriverStatus _ | .requestKillDriver _ | .driverStateChanged _ => True
  | .requestSubmitDriver driverName _ => driverName ≠ id
  | _ => False

instance (id : String) : DecidablePred (FromOthers id) := fun m => by
  cases m <;> simp only [FromOthers] <;> infer_instance

/-- What a call asks of the master. -/
def Progress.request (id : String) : Progress → Option Message
  | .asked .stopApplication => some (.requestKillDriver id)
  | .asked _ => some (.requestDriverStatus id)
  | .submitting desc _ => some (.requestSubmitDriver id desc)
  | _ => none

/-- The status sent in the step from `s` to `s'`. -/
def statusSent (s s' : MasterState) : Option DriverStatusResponse :=
  (s'.sent.drop s.sent.length).findSome? fun e =>
    match e.message with
    | .driverStatusResponse status => some status
    | _ => none

namespace Deployment

variable (id : String)

def setCall (c : Nat) (p : Progress) (s : Deployment) : Deployment :=
  { s with calls := Function.update s.calls c p }

/-- The master handles `m`. -/
def deliver (env : Env) (m : Message) (s : Deployment) : Deployment :=
  { s with master := Master.step env m s.master }

/-- What the answer of the master makes of a call. -/
def afterAnswer (s s' : MasterState) : Progress → Progress
  | .asked .stopApplication => .idle
  | .asked call =>
    match statusSent s s' with
    | some status =>
      .answered call status s.nextDriver (s.drivers.any fun d => (s.driver d).id = id)
    | none => .idle
  | _ => .idle

def handleCall (c : Nat) (env : Env) (s : Deployment) : Deployment :=
  match (s.calls c).request id with
  | some m =>
    let s' := s.deliver env m
    s'.setCall c (afterAnswer id s.master s'.master (s.calls c))
  | none => s

/-- The continuations of the status in `startApplication` and in `deleteApplication`. -/
def readStatus (c : Nat) (desc : Option DriverDesc) (s : Deployment) : Deployment :=
  match s.calls c with
  | .answered .startApplication status asOf _ =>
    match notStarted status, desc with
    | true, some desc => s.setCall c (.submitting desc asOf)
    | _, _ => s.setCall c .idle
  | .answered .deleteApplication status _ _ =>
    if notStarted status then { s.setCall c .idle with inCatalog := false }
    else s.setCall c .idle
  | _ => s

def step (s : Deployment) : ApplicationEvent → Deployment
  | .call c call =>
    if s.inCatalog ∧ s.calls c = .idle then s.setCall c (.asked call) else s
  | .handled c env => s.handleCall id c env
  | .read c desc => s.readStatus c desc
  | .message env m => if FromOthers id m then s.deliver env m else s

end Deployment

/-! ### Running at most once -/

/-- The drivers in `drivers` that carry the id. -/
def Live (id : String) (s : MasterState) (d : DriverRef) : Prop :=
  d ∈ s.drivers ∧ (s.driver d).id = id

def RunsAtMostOnce (id : String) (s : MasterState) : Prop :=
  ∀ d e, Live id s d → Live id s e → d = e

/-- The last driver of the id that was completed. -/
def lastCompleted (id : String) (s : MasterState) : Option DriverRef :=
  (s.completedDrivers.filter fun d => (s.driver d).id = id).getLast?

/-- The status of the live driver, else of the last completed one, else that there is none. -/
def Reports (id : String) (s : MasterState) (status : DriverStatusResponse) : Prop :=
  (∃ d, Live id s d ∧ status = driverStatus s id d) ∨
    (∀ d, ¬ Live id s d) ∧
      match lastCompleted id s with
      | some d => status = driverStatus s id d
      | none => status.found = false

/-- The environment in which an event makes the master answer what the status of the id is. -/
def Deployment.statusEnv (id : String) (s : Deployment) : ApplicationEvent → Option Env
  | .handled c env => if (s.calls c).request id = some (.requestDriverStatus id) then some env else none
  | .message env m => if m = .requestDriverStatus id then some env else none
  | _ => none

/-- What the application is promised of an event: at most one of its drivers is live before it; a
status tells how things are; a start goes on if and only if no driver was live when the master
answered; a driver is submitted, and the application dropped, only when none is live. -/
structure KeepsPromise (id : String) (s : Deployment) (e : ApplicationEvent) : Prop where
  once : RunsAtMostOnce id s.master
  status : ∀ env, s.statusEnv id e = some env →
    ∃ status, statusSent s.master (s.step id e).master = some status ∧ Reports id s.master status
  refused : ∀ c desc status asOf live, e = .read c (some desc) →
    s.calls c = .answered .startApplication status asOf live →
    ((s.step id e).calls c = .idle ↔ live = true)
  submit : ∀ c env desc asOf, e = .handled c env → s.calls c = .submitting desc asOf →
    s.master.state = .active → ∀ d, ¬ Live id s.master d
  drop : s.inCatalog = true → (s.step id e).inCatalog = false → ∀ d, ¬ Live id s.master d

/-! ### When it holds -/

/-- A status is asked of an active master, unless it has no driver of the id, and the driver that
it comes upon first is the live one or, if none is live, the last completed one, which nothing
has touched since. -/
def Answerable (id : String) (env : Env) (s : MasterState) : Prop :=
  ∀ d, ((env.random s.draws).apply (s.drivers ∪ s.completedDrivers)).find?
      (fun d => (s.driver d).id = id) = some d →
    s.state = .active ∧ (d ∈ s.drivers ∨ (∀ e, ¬ Live id s e) ∧ lastCompleted id s = some d ∧
      (s.driver d).state.isFinished)

/-- No driver that was submitted after the answer is live. -/
def Uncontested (id : String) (asOf : DriverRef) (s : MasterState) : Prop :=
  ∀ d, Live id s d → d < asOf

structure ApplicationSafe (id : String) (s : Deployment) (e : ApplicationEvent) : Prop where
  answer : ∀ env, s.statusEnv id e = some env → Answerable id env s.master
  submit : ∀ c env desc asOf, e = .handled c env → s.calls c = .submitting desc asOf →
    s.master.state = .active → Uncontested id asOf s.master
  drop : ∀ c desc status asOf live, e = .read c desc →
    s.calls c = .answered .deleteApplication status asOf live → notStarted status = true →
    Uncontested id asOf s.master

/-! ### The answer to a status request -/

/-- The status that the master sends. -/
def statusAnswer (id : String) (env : Env) (s : MasterState) : DriverStatusResponse :=
  if s.state ≠ .active then DriverStatusResponse.notFound id (some (notActiveStatus s))
  else
    match ((env.random s.draws).apply (s.drivers ∪ s.completedDrivers)).find?
        fun d => (s.driver d).id = id with
    | some d => driverStatus s id d
    | none => DriverStatusResponse.notFound id none

lemma statusSent_requestDriverStatus (id : String) (env : Env) (s : MasterState) :
    statusSent s (Master.step env (.requestDriverStatus id) s) = some (statusAnswer id env s) := by
  refine step_of_wp env (P := fun s' => statusSent s s' = some (statusAnswer id env s)) ?_
  simp only [handleMessage, handleRequestDriverStatus, wp_bind, wp_get, wp_ite, wp_modify, draw_wp]
  split
  · rename_i hs
    simp [statusSent, MasterState.send, statusAnswer, hs]
  · rename_i hs
    split
    · rename_i d hd
      simp [statusSent, MasterState.send, statusAnswer, hs, hd]
    · rename_i hd
      simp [statusSent, MasterState.send, statusAnswer, hs, hd]

/-- What the collections of the master promise of the id between messages. -/
structure DriverKept (id : String) (s : MasterState) : Prop where
  lt : ∀ d ∈ s.drivers, d < s.nextDriver
  once : RunsAtMostOnce id s
  unfinished : ∀ d, Live id s d → (s.driver d).state.isFinished = false

/-- An answerable request is answered by how things are. -/
lemma DriverKept.answer {id : String} {env : Env} {s : MasterState} (h : DriverKept id s)
    (ha : Answerable id env s) : Reports id s (statusAnswer id env s) ∧
      notStarted (statusAnswer id env s) = !(s.drivers.any fun d => (s.driver d).id = id) := by
  cases hfind : ((env.random s.draws).apply (s.drivers ∪ s.completedDrivers)).find?
      fun d => (s.driver d).id = id with
  | none =>
    have hfound : (statusAnswer id env s).found = false := by
      simp only [statusAnswer, hfind]
      split <;> rfl
    simp only [List.find?_eq_none, Shuffle.mem_apply, List.mem_union_iff, decide_eq_true_eq]
      at hfind
    have hlive : ∀ d, ¬ Live id s d := fun d hd => hfind d (Or.inl hd.1) hd.2
    have hlast : lastCompleted id s = none := by
      simp only [lastCompleted, List.getLast?_eq_none_iff, List.filter_eq_nil_iff,
        decide_eq_true_eq]
      exact fun d hd => hfind d (Or.inr hd)
    refine ⟨Or.inr ⟨hlive, by rw [hlast]; exact hfound⟩, ?_⟩
    have hany : (s.drivers.any fun d => (s.driver d).id = id) = false := by
      simp only [List.any_eq_false, decide_eq_true_eq]
      exact fun d hd hid => hlive d ⟨hd, hid⟩
    simp [notStarted, hfound, hany]
  | some d =>
    obtain ⟨hactive, hd⟩ := ha d hfind
    have hid : (s.driver d).id = id := by simpa using List.find?_some hfind
    have hanswer : statusAnswer id env s = driverStatus s id d := by
      simp [statusAnswer, hactive, hfind]
    rw [hanswer]
    rcases hd with hd | ⟨hlive, hlast, hfinished⟩
    · have hlive : Live id s d := ⟨hd, hid⟩
      have hany : (s.drivers.any fun d => (s.driver d).id = id) = true :=
        List.any_eq_true.mpr ⟨d, hd, by simpa using hid⟩
      exact ⟨Or.inl ⟨d, hlive, rfl⟩, by
        simp [notStarted, driverStatus, h.unfinished d hlive, hany]⟩
    · have hany : (s.drivers.any fun d => (s.driver d).id = id) = false := by
        simp only [List.any_eq_false, decide_eq_true_eq]
        exact fun d hd hid => hlive d ⟨hd, hid⟩
      exact ⟨Or.inr ⟨hlive, by rw [hlast]⟩, by simp [notStarted, driverStatus, hfinished, hany]⟩

/-! ### What the master does to drivers that are not finished -/

/-- No driver enters and none that stays is finished. -/
structure Fewer (s s' : MasterState) : Prop extends OnlyRemoves s s' where
  nextDriver : s'.nextDriver = s.nextDriver
  unfinished : ∀ d ∈ s'.drivers, (s.driver d).state.isFinished = false →
    (s'.driver d).state.isFinished = false

namespace Fewer

variable {s s' : MasterState} (env : Env)

lemma of_eq (hd : s'.drivers = s.drivers) (he : s'.driver = s.driver)
    (hn : s'.nextDriver = s.nextDriver) : Fewer s s' where
  toOnlyRemoves := .of_eq hd he
  nextDriver := hn
  unfinished d _ h := by rwa [he]

instance : Std.Refl Fewer where
  refl _ := of_eq rfl rfl rfl

instance : IsTrans MasterState Fewer where
  trans _ _ _ h h' :=
    { toOnlyRemoves := h.toOnlyRemoves.trans h'.toOnlyRemoves
      nextDriver := h'.nextDriver.trans h.nextDriver
      unfinished := fun d hd hs => h'.unfinished d hd (h.unfinished d (h'.drivers hd) hs) }

lemma refl (s : MasterState) : Fewer s s := Std.Refl.refl s

lemma trans {s'' : MasterState} (h : Fewer s s') (h' : Fewer s' s'') : Fewer s s'' :=
  IsTrans.trans _ _ _ h h'

lemma live (h : Fewer s s') {id : String} {d : DriverRef} (hd : Live id s' d) : Live id s d :=
  ⟨h.drivers hd.1, (h.id d).symm.trans hd.2⟩

lemma kept (k : DriversKept s s') : Fewer s s' := of_eq k.drivers k.driver k.nextDriver

lemma send (receiver : ActorRef) (message : Outgoing) (s : MasterState) :
    Fewer s (s.send receiver message) := of_eq rfl rfl rfl

lemma launchNext (w : WorkerRef) (d : DriverRef) (s : MasterState) : Fewer s (launchNext w d s) where
  toOnlyRemoves := .launchNext w d s
  nextDriver := launchNext_nextDriver w d s
  unfinished e _ h := by
    rw [launchNext_driver]
    split
    · rfl
    · exact h

lemma launchWaiting (workers : List WorkerRef) (ds : List DriverRef) :
    ∀ (curPos : Fin workers.length) (s : MasterState),
      Fewer s (launchWaiting workers curPos ds s) := by
  induction ds with
  | nil => exact fun _ s => refl s
  | cons d ds ih => exact fun curPos s => (launchNext _ d s).trans (ih _ _)

lemma schedule : Keeps Fewer (schedule env) := by
  refine Keeps.get.bind fun s => Keeps.ite ?_ (Keeps.pure _)
  refine Keeps.bind (fun _ => of_eq rfl rfl rfl) fun workers => ?_
  split
  · exact Keeps.modify fun s' => launchWaiting _ _ _ _
  · exact Keeps.pure _

lemma completeDriver (d : DriverRef) (s : MasterState) : Fewer s (completeDriver d s) where
  drivers := List.filter_subset_self _
  record _ := rfl
  worker _ h := h
  nextDriver := rfl
  unfinished _ _ h := h

/-- The assignments of `removeDriver` are to a driver that has left. -/
lemma finishDriver {d : DriverRef} (hd : d ∉ s.drivers) (change : DriverStateChanged) :
    Fewer s (finishDriver d change s) where
  toOnlyRemoves := .finishDriver d change s
  nextDriver := finishDriver_nextDriver d change s
  unfinished e he h := by
    rw [finishDriver_drivers] at he
    have hed : e ≠ d := fun hed => hd (hed ▸ he)
    rw [finishDriver_driver, if_neg hed]
    exact h

lemma changeDriver (d : DriverRef) {change : DriverStateChanged}
    (hc : change.state.isFinished = false) (s : MasterState) :
    Fewer s (changeDriver d change s) where
  drivers := List.Subset.refl _
  record e := by
    rw [Master.changeDriver, updateDriver_driver]
    split
    · rename_i he
      rw [he]
    · rfl
  worker e he := by
    rw [Master.changeDriver, updateDriver_driver]
    split
    · rename_i hed
      exact hed ▸ he
    · exact he
  nextDriver := rfl
  unfinished e _ h := by
    rw [Master.changeDriver, updateDriver_driver]
    split
    · exact hc
    · exact h

lemma findDriver (driverId : String) : Keeps Fewer (findDriver env driverId) :=
  Keeps.get.bind fun _ => Keeps.bind (fun _ => of_eq rfl rfl rfl) fun _ => Keeps.pure _

lemma removeDriver (change : DriverStateChanged) : Keeps Fewer (removeDriver env change) := by
  refine (findDriver env _).bind fun found => ?_
  cases found with
  | none => exact Keeps.pure _
  | some d =>
    intro s
    have h1 := completeDriver d s
    have hd : d ∉ (Master.completeDriver d s).drivers := by simp [Master.completeDriver]
    refine (wp_exec _ (Fewer s)).mp ?_
    simp only [wp_bind, wp_modify, wp_get]
    refine wp_mono ((persisting_drivers _).wp _) (fun _ s2 k => ?_) fun s2 k => h1.trans (kept k)
    have h3 := finishDriver (s := s2) (k.drivers ▸ hd) change
    exact wp_mono ((schedule env).wp _) (fun _ s4 h4 => (h1.trans (kept k)).trans (h3.trans h4))
      fun s4 h4 => (h1.trans (kept k)).trans (h3.trans h4)

lemma handleDriverStateChanged (change : DriverStateChanged) :
    Keeps Fewer (handleDriverStateChanged env change) := by
  unfold Master.handleDriverStateChanged
  split
  · exact removeDriver env change
  · rename_i hc
    refine (findDriver env _).bind fun found => ?_
    cases found with
    | none => exact Keeps.pure _
    | some d => exact Keeps.modify (changeDriver d (Bool.eq_false_iff.mpr hc))

lemma handleRequestKillDriver (driverId : String) :
    Keeps Fewer (handleRequestKillDriver env driverId) := by
  refine Keeps.get.bind fun s => Keeps.ite (Keeps.modify (send _ _)) ?_
  refine (findDriver env _).bind fun found => ?_
  cases found with
  | none => exact Keeps.modify (send _ _)
  | some d =>
    refine Keeps.bind (Keeps.get.bind fun s' => Keeps.ite ?_ ?_) fun _ => Keeps.modify (send _ _)
    · exact Keeps.bind (Keeps.modify fun _ => of_eq rfl rfl rfl) fun _ => Keeps.modify (send _ _)
    · split
      · exact Keeps.modify (send _ _)
      · exact Keeps.pure _

lemma handleRequestDriverStatus (driverId : String) :
    Keeps Fewer (handleRequestDriverStatus env driverId) := by
  refine Keeps.get.bind fun s => Keeps.ite (Keeps.modify (send _ _)) ?_
  refine Keeps.bind (fun _ => of_eq rfl rfl rfl) fun all => ?_
  split
  · exact Keeps.modify (send _ _)
  · exact Keeps.modify (send _ _)

lemma restart (s : MasterState) : Fewer s s.restart where
  drivers := List.nil_subset _
  record _ := rfl
  worker _ h := h
  nextDriver := rfl
  unfinished _ _ h := h

lemma step {m : Message} (h : Keeps Fewer (handleMessage env m)) (s : MasterState) :
    Fewer s (Master.step env m s) :=
  step_of_wp env (wp_mono (h.wp s) (fun _ _ h' => h') fun s' h' => h'.trans (restart s'))

lemma message {id : String} {m : Message} (hm : FromOthers id m)
    (hsubmit : ∀ driverName desc, m ≠ .requestSubmitDriver driverName desc) (s : MasterState) :
    Fewer s (Master.step env m s) := by
  refine step env ?_ s
  cases m with
  | requestDriverStatus driverId => exact handleRequestDriverStatus env driverId
  | requestKillDriver driverId => exact handleRequestKillDriver env driverId
  | driverStateChanged change => exact handleDriverStateChanged env change
  | requestSubmitDriver driverName desc => exact absurd rfl (hsubmit driverName desc)
  | _ => exact hm.elim

/-- A submission to an active master adds one driver. -/
lemma submit {driverName : String} {desc : DriverDesc} (hs : s.state = .active) :
    Fewer (enqueueDriver s.nextDriver
        (allocDriver (.init ⟨env.now, driverName, desc, env.now⟩ env.now) s))
      (Master.step env (.requestSubmitDriver driverName desc) s) := by
  refine step_of_wp env ?_
  simp only [handleMessage, handleRequestSubmitDriver, createDriver, newDriver, wp_bind, wp_get,
    wp_ite, wp_modify, wp_pure, hs, ne_eq, not_true_eq_false, if_false]
  refine wp_mono ((schedule env).wp _) (fun _ s' h => ?_) fun s' h => ?_
  · refine (Fewer.trans ?_ h).trans (send _ _ _)
    exact of_eq rfl rfl rfl
  · refine (Fewer.trans ?_ h).trans (restart _)
    exact of_eq rfl rfl rfl

lemma refusedSubmit {driverName : String} {desc : DriverDesc} (hs : s.state ≠ .active) :
    Fewer s (Master.step env (.requestSubmitDriver driverName desc) s) := by
  refine step_of_wp env ?_
  simp only [handleMessage, handleRequestSubmitDriver, wp_bind, wp_get, wp_ite, hs, ne_eq,
    not_false_eq_true, if_true, wp_modify]
  exact send _ _ _

end Fewer

/-! ### What holds between messages -/

variable {id : String} {s s' : MasterState} {env : Env}

lemma DriverKept.fewer (h : DriverKept id s) (k : Fewer s s') : DriverKept id s' where
  lt d hd := k.nextDriver ▸ h.lt d (k.drivers hd)
  once d e hd he := h.once d e (k.live hd) (k.live he)
  unfinished d hd := k.unfinished d hd.1 (h.unfinished d (k.live hd))

/-- What a submission by `driverName` does to the collections. -/
abbrev submitted (env : Env) (driverName : String) (desc : DriverDesc) (s : MasterState) :
    MasterState :=
  enqueueDriver s.nextDriver
    (allocDriver (.init ⟨env.now, driverName, desc, env.now⟩ env.now) s)

lemma live_submitted (h : DriverKept id s) {driverName : String} {desc : DriverDesc}
    {d : DriverRef} (hd : Live id (submitted env driverName desc s) d) :
    Live id s d ∧ (submitted env driverName desc s).driver d = s.driver d ∨
      d = s.nextDriver ∧ driverName = id := by
  obtain ⟨hmem, hid⟩ := hd
  rcases List.mem_insert_iff.mp hmem with rfl | hmem
  · refine Or.inr ⟨rfl, ?_⟩
    simpa [enqueueDriver, allocDriver, DriverInfo.init] using hid
  · have hne : d ≠ s.nextDriver := Nat.ne_of_lt (h.lt d hmem)
    have hsame : (submitted env driverName desc s).driver d = s.driver d :=
      Function.update_of_ne hne _ _
    exact Or.inl ⟨⟨hmem, hsame ▸ hid⟩, hsame⟩

lemma DriverKept.submitted (h : DriverKept id s) {driverName : String} {desc : DriverDesc}
    (hlive : driverName = id → ∀ d, ¬ Live id s d) :
    DriverKept id (submitted env driverName desc s) where
  lt d hd := by
    rcases List.mem_insert_iff.mp hd with rfl | hd
    · exact Nat.lt_succ_self _
    · exact Nat.lt_succ_of_lt (h.lt d hd)
  once d e hd he := by
    rcases live_submitted h hd with ⟨hd, -⟩ | ⟨rfl, hname⟩
    · rcases live_submitted h he with ⟨he, -⟩ | ⟨-, hname⟩
      · exact h.once d e hd he
      · exact absurd hd (hlive hname d)
    · rcases live_submitted h he with ⟨he, -⟩ | ⟨rfl, -⟩
      · exact absurd he (hlive hname e)
      · rfl
  unfinished d hd := by
    rcases live_submitted h hd with ⟨hd, hsame⟩ | ⟨rfl, -⟩
    · rw [hsame]
      exact h.unfinished d hd
    · simp [enqueueDriver, allocDriver, DriverInfo.init, DriverState.isFinished]

/-- The live drivers of a call that may go on were submitted after its answer. -/
def CallKept (id : String) (s : MasterState) : Progress → Prop
  | .answered _ status asOf live => (notStarted status = !live) ∧
      (live = false → asOf ≤ s.nextDriver ∧ ∀ d, Live id s d → asOf ≤ d)
  | .submitting _ asOf => asOf ≤ s.nextDriver ∧ ∀ d, Live id s d → asOf ≤ d
  | _ => True

lemma CallKept.idle : CallKept id s .idle := trivial

lemma CallKept.mono {p : Progress} (h : CallKept id s p) (hn : s.nextDriver ≤ s'.nextDriver)
    (hlive : ∀ d, Live id s' d → Live id s d ∨ s.nextDriver ≤ d) : CallKept id s' p := by
  have hlater : ∀ asOf, (asOf ≤ s.nextDriver ∧ ∀ d, Live id s d → asOf ≤ d) →
      asOf ≤ s'.nextDriver ∧ ∀ d, Live id s' d → asOf ≤ d := by
    rintro asOf ⟨hle, hd⟩
    exact ⟨hle.trans hn, fun d hd' => (hlive d hd').elim (hd d) hle.trans⟩
  cases p with
  | answered call status asOf live => exact ⟨h.1, fun hl => hlater asOf (h.2 hl)⟩
  | submitting desc asOf => exact hlater asOf h
  | _ => trivial

namespace Deployment

structure Kept (id : String) (s : Deployment) : Prop where
  driver : DriverKept id s.master
  calls : ∀ c, CallKept id s.master (s.calls c)

namespace Kept

variable {s : Deployment}

lemma setCall (h : Kept id s) {p : Progress} (hp : CallKept id s.master p) (c : Nat) :
    Kept id (s.setCall c p) where
  driver := h.driver
  calls c' := by
    simp only [Deployment.setCall, Function.update_apply]
    split
    · exact hp
    · exact h.calls c'

lemma deliver_fewer {m : Message} (h : Kept id s)
    (k : Fewer s.master (Master.step env m s.master)) : Kept id (s.deliver env m) where
  driver := h.driver.fewer k
  calls c := (h.calls c).mono k.nextDriver.ge fun _ hd => Or.inl (k.live hd)

lemma deliver_submit {driverName : String} {desc : DriverDesc} (h : Kept id s)
    (hlive : driverName = id → s.master.state = .active → ∀ d, ¬ Live id s.master d) :
    Kept id (s.deliver env (.requestSubmitDriver driverName desc)) := by
  by_cases hs : s.master.state = .active
  · have k : Fewer (submitted env driverName desc s.master)
        (Master.step env (.requestSubmitDriver driverName desc) s.master) := Fewer.submit env hs
    have hsub : Kept id { s with master := submitted env driverName desc s.master } := by
      refine ⟨h.driver.submitted fun hname => hlive hname hs, fun c => ?_⟩
      refine (h.calls c).mono (Nat.le_succ _) fun d hd => ?_
      rcases live_submitted h.driver hd with ⟨hd, -⟩ | ⟨rfl, -⟩
      · exact Or.inl hd
      · exact Or.inr le_rfl
    exact ⟨hsub.driver.fewer k, fun c => (hsub.calls c).mono k.nextDriver.ge fun _ hd =>
      Or.inl (k.live hd)⟩
  · exact h.deliver_fewer (Fewer.refusedSubmit env hs)

/-- A call may submit when nothing else was submitted after its answer and still runs. -/
lemma none_live (h : Kept id s) {c : Nat} {desc : DriverDesc} {asOf : DriverRef}
    (hc : s.calls c = .submitting desc asOf) (hs : Uncontested id asOf s.master) (d : DriverRef) :
    ¬ Live id s.master d := by
  have hk := h.calls c
  rw [hc] at hk
  exact fun hd => Nat.not_le_of_lt (hs d hd) (hk.2 d hd)

lemma handleCall {c : Nat} (h : Kept id s) (hsafe : ApplicationSafe id s (.handled c env)) :
    Kept id (s.handleCall id c env) := by
  unfold Deployment.handleCall
  cases hc : s.calls c with
  | idle => exact h
  | answered call status asOf live => exact h
  | submitting desc asOf =>
    have hlive := fun hs => h.none_live hc (hsafe.submit c env desc asOf rfl hc hs)
    exact (h.deliver_submit fun _ => hlive).setCall .idle c
  | asked call =>
    have hstatus : (call = .startApplication ∨ call = .deleteApplication) →
        Kept id ((s.deliver env (.requestDriverStatus id)).setCall c
          (afterAnswer id s.master (s.deliver env (.requestDriverStatus id)).master
            (.asked call))) := by
      intro hcall
      have hreq : (s.calls c).request id = some (.requestDriverStatus id) := by
        rcases hcall with rfl | rfl <;> rw [hc] <;> rfl
      have hanswer := h.driver.answer
        (hsafe.answer env (by simp only [statusEnv, hreq, if_true]))
      have k : Fewer s.master (Master.step env (.requestDriverStatus id) s.master) :=
        Fewer.step env (m := .requestDriverStatus id) (Fewer.handleRequestDriverStatus env id) s.master
      have hafter : afterAnswer id s.master (s.deliver env (.requestDriverStatus id)).master
          (.asked call) = .answered call (statusAnswer id env s.master) s.master.nextDriver
            (s.master.drivers.any fun d => (s.master.driver d).id = id) := by
        have hsent := statusSent_requestDriverStatus id env s.master
        rcases hcall with rfl | rfl <;> simp only [afterAnswer, Deployment.deliver, hsent]
      rw [hafter]
      refine (h.deliver_fewer k).setCall ?_ c
      refine ⟨hanswer.2, fun hlive => ⟨k.nextDriver.ge, fun d hd => ?_⟩⟩
      have hd' := k.live hd
      simp only [List.any_eq_false, decide_eq_true_eq] at hlive
      exact absurd hd'.2 (hlive d hd'.1)
    cases call with
    | startApplication => exact hstatus (Or.inl rfl)
    | deleteApplication => exact hstatus (Or.inr rfl)
    | stopApplication =>
      have k : Fewer s.master (Master.step env (.requestKillDriver id) s.master) :=
        Fewer.step env (m := .requestKillDriver id) (Fewer.handleRequestKillDriver env id) s.master
      exact (h.deliver_fewer k).setCall .idle c

lemma readStatus (h : Kept id s) (c : Nat) (desc : Option DriverDesc) :
    Kept id (s.readStatus c desc) := by
  unfold Deployment.readStatus
  have hk := h.calls c
  split
  · rename_i status asOf live hc
    rw [hc] at hk
    split
    · rename_i desc hstatus
      refine h.setCall (p := .submitting desc asOf) (hk.2 ?_) c
      simpa [hstatus] using hk.1
    · exact h.setCall .idle c
  · have h' := h.setCall .idle c
    split
    · exact ⟨h'.driver, h'.calls⟩
    · exact h'
  · exact h

lemma step (h : Kept id s) (e : ApplicationEvent) (hsafe : ApplicationSafe id s e) :
    Kept id (s.step id e) := by
  cases e with
  | call c call =>
    simp only [Deployment.step]
    split
    · exact h.setCall (p := .asked call) trivial c
    · exact h
  | handled c env => exact h.handleCall hsafe
  | read c desc => exact h.readStatus c desc
  | message env m =>
    simp only [Deployment.step]
    split
    · rename_i hm
      by_cases hsub : ∃ driverName desc, m = .requestSubmitDriver driverName desc
      · obtain ⟨driverName, desc, rfl⟩ := hsub
        exact h.deliver_submit fun hname => absurd hname hm
      · push Not at hsub
        exact h.deliver_fewer (Fewer.message env hm hsub s.master)
    · exact h

lemma keepsPromise (h : Kept id s) (e : ApplicationEvent) (hsafe : ApplicationSafe id s e) :
    KeepsPromise id s e where
  once := h.driver.once
  status env he := by
    refine ⟨statusAnswer id env s.master, ?_, (h.driver.answer (hsafe.answer env he)).1⟩
    cases e with
    | handled c env' =>
      simp only [statusEnv] at he
      split at he
      · rename_i hreq
        cases he
        simp only [Deployment.step, Deployment.handleCall, hreq]
        exact statusSent_requestDriverStatus id env s.master
      · cases he
    | message env' m =>
      simp only [statusEnv] at he
      split at he
      · rename_i hm
        cases he
        simp only [Deployment.step, hm, FromOthers, if_true]
        exact statusSent_requestDriverStatus id env s.master
      · cases he
    | call c call => cases he
    | read c desc => cases he
  refused c desc status asOf live he hc := by
    subst he
    have hk := h.calls c
    rw [hc] at hk
    simp only [Deployment.step, Deployment.readStatus, hc, hk.1]
    cases live <;> simp [Deployment.setCall]
  submit c env desc asOf he hc hs := h.none_live hc (hsafe.submit c env desc asOf he hc hs)
  drop hin hout := by
    cases e with
    | call c call =>
      simp only [Deployment.step] at hout
      split at hout <;> simp [Deployment.setCall, hin] at hout
    | handled c env =>
      simp only [Deployment.step, Deployment.handleCall] at hout
      split at hout <;> simp [Deployment.setCall, Deployment.deliver, hin] at hout
    | message env m =>
      simp only [Deployment.step] at hout
      split at hout <;> simp [Deployment.deliver, hin] at hout
    | read c desc =>
      simp only [Deployment.step, Deployment.readStatus] at hout
      split at hout
      · split at hout <;> simp [Deployment.setCall, hin] at hout
      · rename_i status asOf live hc
        have hk := h.calls c
        rw [hc] at hk
        split at hout
        · rename_i hstatus
          have hun := hsafe.drop c desc status asOf live rfl hc hstatus
          have hlive : live = false := by simpa [hstatus] using hk.1
          exact fun d hd => Nat.not_le_of_lt (hun d hd) ((hk.2 hlive).2 d hd)
        · simp [Deployment.setCall, hin] at hout
      · rw [hin] at hout
        cases hout

end Kept

/-- An active master without drivers, and an application that nobody calls. -/
def fresh : Deployment where
  master := { persistenceEngine := .blackHole, state := .active }
  inCatalog := true
  calls _ := .idle

lemma fresh_kept (id : String) : DriverKept id fresh.master where
  lt := by simp [fresh]
  once d _ hd := by simp [Live, fresh] at hd
  unfinished d hd := by simp [Live, fresh] at hd

lemma safe_call {s : Deployment} (c : Nat) (call : ApplicationCall) :
    ApplicationSafe id s (.call c call) where
  answer _ h := by cases h
  submit _ _ _ _ h := by cases h
  drop _ _ _ _ _ h := by cases h

lemma safe_status {s : Deployment} {c : Nat} {call : ApplicationCall} (hc : s.calls c = .asked call)
    (ha : Answerable id env s.master) : ApplicationSafe id s (.handled c env) where
  answer env' h := by
    simp only [statusEnv] at h
    split at h
    · cases h
      exact ha
    · cases h
  submit c' env' desc asOf h hc' := by
    cases h
    rw [hc] at hc'
    cases hc'
  drop _ _ _ _ _ h := by cases h

lemma safe_read {s : Deployment} {c : Nat} {desc : Option DriverDesc} {call : ApplicationCall}
    {status : DriverStatusResponse} {asOf : DriverRef} {live : Bool}
    (hc : s.calls c = .answered call status asOf live)
    (h : call = .deleteApplication → notStarted status = false) :
    ApplicationSafe id s (.read c desc) where
  answer _ h := by cases h
  submit _ _ _ _ h := by cases h
  drop c' desc' status' asOf' live' he hc' hs := by
    cases he
    rw [hc] at hc'
    cases hc'
    rw [h rfl] at hs
    cases hs

lemma safe_submit {s : Deployment} {c : Nat} {desc : DriverDesc} {asOf : DriverRef}
    (hc : s.calls c = .submitting desc asOf) (h : s.master.drivers = []) :
    ApplicationSafe id s (.handled c env) where
  answer env' he := by simp [statusEnv, hc, Progress.request] at he
  submit c' env' desc' asOf' he hc' _ d hd := by simp [Live, h] at hd
  drop _ _ _ _ _ h := by cases h

end Deployment

end Moonbox.Rest
