import Moonbox.Lib.Index
import Moonbox.Lib.Reachable
import Moonbox.Deploy.Master

/-!
# The membership indexes

`idToWorker`, `addressToWorker` and `workers`, and the three collections of applications, always
describe the same members. Everything the master does to drivers leaves the members alone
(`MembersKept`), so the proof only has to look at registration and removal.
-/

namespace Moonbox.Deploy

open Actor Handler

/-! ### What the updates leave unchanged -/

namespace MasterState

variable (s : MasterState)

@[simp] lemma updateWorker_worker (w : WorkerRef) (f : WorkerInfo → WorkerInfo) (v : WorkerRef) :
    (s.updateWorker w f).worker v = if v = w then f (s.worker w) else s.worker v := by
  simp [updateWorker, Function.update_apply]

@[simp] lemma updateDriver_driver (d : DriverRef) (f : DriverInfo → DriverInfo) (e : DriverRef) :
    (s.updateDriver d f).driver e = if e = d then f (s.driver d) else s.driver e := by
  simp [updateDriver, Function.update_apply]

@[simp] lemma updateApp_app (a : AppRef) (f : AppInfo → AppInfo) (b : AppRef) :
    (s.updateApp a f).app b = if b = a then f (s.app a) else s.app b := by
  simp [updateApp, Function.update_apply]

end MasterState

/-- What `MembersKept` compares besides the workers themselves. -/
def MasterState.registry (s : MasterState) :=
  (s.state, s.idToWorker, s.addressToWorker, s.workers, s.apps, s.idToApp, s.addressToApp, s.app,
    s.nextWorker, s.nextApp)

/-- The state, the members and their indexes are the same; a worker may have gained or lost
drivers or sent a heartbeat. -/
structure MembersKept (s s' : MasterState) : Prop where
  state : s'.state = s.state
  idToWorker : s'.idToWorker = s.idToWorker
  addressToWorker : s'.addressToWorker = s.addressToWorker
  workers : s'.workers = s.workers
  apps : s'.apps = s.apps
  idToApp : s'.idToApp = s.idToApp
  addressToApp : s'.addressToApp = s.addressToApp
  app : s'.app = s.app
  nextWorker : s'.nextWorker = s.nextWorker
  nextApp : s'.nextApp = s.nextApp
  record : ∀ w, (s'.worker w).toWorkerRecord = (s.worker w).toWorkerRecord
  workerState : ∀ w, (s'.worker w).state = (s.worker w).state

namespace MembersKept

lemma mk_registry {s s' : MasterState} (h : s'.registry = s.registry)
    (hr : ∀ w, (s'.worker w).toWorkerRecord = (s.worker w).toWorkerRecord)
    (hs : ∀ w, (s'.worker w).state = (s.worker w).state) : MembersKept s s' := by
  simp only [MasterState.registry, Prod.mk.injEq] at h
  obtain ⟨h₁, h₂, h₃, h₄, h₅, h₆, h₇, h₈, h₉, h₁₀⟩ := h
  exact ⟨h₁, h₂, h₃, h₄, h₅, h₆, h₇, h₈, h₉, h₁₀, hr, hs⟩

lemma of_eq {s s' : MasterState} (h : s'.registry = s.registry) (hw : s'.worker = s.worker) :
    MembersKept s s' := mk_registry h (fun _ => by rw [hw]) fun _ => by rw [hw]

instance : Std.Refl MembersKept where
  refl _ := of_eq rfl rfl

instance : IsTrans MasterState MembersKept where
  trans _ _ _ h h' :=
    ⟨h'.state.trans h.state, h'.idToWorker.trans h.idToWorker,
      h'.addressToWorker.trans h.addressToWorker, h'.workers.trans h.workers, h'.apps.trans h.apps,
      h'.idToApp.trans h.idToApp, h'.addressToApp.trans h.addressToApp, h'.app.trans h.app,
      h'.nextWorker.trans h.nextWorker, h'.nextApp.trans h.nextApp,
      fun w => (h'.record w).trans (h.record w),
      fun w => (h'.workerState w).trans (h.workerState w)⟩

lemma refl (s : MasterState) : MembersKept s s := Std.Refl.refl s

lemma trans {s s' s'' : MasterState} (h : MembersKept s s') (h' : MembersKept s' s'') :
    MembersKept s s'' := IsTrans.trans _ _ _ h h'

/-- An update that keeps the record and the state of the worker it touches. -/
lemma updateWorker (s : MasterState) (w : WorkerRef) {f : WorkerInfo → WorkerInfo}
    (hr : ∀ i, (f i).toWorkerRecord = i.toWorkerRecord) (hs : ∀ i, (f i).state = i.state) :
    MembersKept s (s.updateWorker w f) := by
  refine mk_registry rfl (fun v => ?_) fun v => ?_
  · by_cases hv : v = w
    · subst hv
      simp [hr]
    · simp [hv]
  · by_cases hv : v = w
    · subst hv
      simp [hs]
    · simp [hv]

lemma updateDriver (s : MasterState) (d : DriverRef) (f : DriverInfo → DriverInfo) :
    MembersKept s (s.updateDriver d f) := of_eq rfl rfl

lemma send (s : MasterState) (receiver : ActorRef) (message : Outgoing) :
    MembersKept s (s.send receiver message) := of_eq rfl rfl

end MembersKept

namespace Master

variable (env : Env)

/-! ### The driver functions keep the members -/

lemma draw_keeps {α : Type} (xs : List α) : Keeps MembersKept (draw env xs) :=
  fun _ => .of_eq rfl rfl

lemma findDriver_keeps (driverId : String) : Keeps MembersKept (findDriver env driverId) :=
  Keeps.get.bind fun _ => (draw_keeps env _).bind fun _ => Keeps.pure _

lemma launchDriver_members (w : WorkerRef) (d : DriverRef) (s : MasterState) :
    MembersKept s (launchDriver w d s) := by
  have h : MembersKept s (s.updateWorker w (·.addDriver (s.driver d).id d)) :=
    .updateWorker s w (fun _ => rfl) (fun _ => rfl)
  have hw : (launchDriver w d s).worker =
      (s.updateWorker w (·.addDriver (s.driver d).id d)).worker := by
    simp only [launchDriver, MasterState.updateDriver, MasterState.updateWorker, MasterState.send]
  constructor
  case record =>
    intro v
    rw [hw]
    exact h.record v
  case workerState =>
    intro v
    rw [hw]
    exact h.workerState v
  all_goals
    simp only [launchDriver, MasterState.updateDriver, MasterState.updateWorker, MasterState.send]

lemma launchWaiting_members (workers : List WorkerRef) (ds : List DriverRef) :
    ∀ (curPos : Fin workers.length) (s : MasterState),
      MembersKept s (launchWaiting workers curPos ds s) := by
  induction ds with
  | nil => exact fun _ s => MembersKept.refl s
  | cons d ds ih =>
    intro curPos s
    have h := launchDriver_members (workers.get curPos) d s
    have h' : MembersKept (launchDriver (workers.get curPos) d s)
        (launchNext (workers.get curPos) d s) := .of_eq rfl rfl
    exact (h.trans h').trans (ih _ _)

lemma schedule_keeps : Keeps MembersKept (schedule env) := by
  refine Keeps.get.bind fun s => Keeps.ite ?_ (Keeps.pure _)
  refine (draw_keeps env _).bind fun workers => ?_
  split
  · exact Keeps.modify fun s' => launchWaiting_members _ _ _ _
  · exact Keeps.pure _

lemma persisting_keeps (op : PersistenceEngine → Except String PersistenceEngine) :
    Keeps MembersKept (persisting op) := by
  refine Keeps.get.bind fun s => ?_
  split
  · exact Keeps.modify fun _ => .of_eq rfl rfl
  · exact Keeps.throw _

lemma finishDriver_members (d : DriverRef) (change : DriverStateChanged) (s : MasterState) :
    MembersKept s (finishDriver d change s) := by
  simp only [finishDriver]
  split
  · rename_i w _
    refine (MembersKept.updateDriver s d _).trans (.updateWorker _ w ?_ ?_)
    · exact fun _ => rfl
    · exact fun _ => rfl
  · exact MembersKept.updateDriver s d _

lemma removeDriver_keeps (change : DriverStateChanged) :
    Keeps MembersKept (removeDriver env change) := by
  refine (findDriver_keeps env _).bind fun found => ?_
  cases found with
  | none => exact Keeps.pure _
  | some d =>
    refine Keeps.bind (Keeps.modify fun _ => .of_eq rfl rfl) fun _ => ?_
    refine Keeps.get.bind fun s => (persisting_keeps _).bind fun _ => ?_
    exact (Keeps.modify fun s => finishDriver_members d change s).bind fun _ => schedule_keeps env

lemma assignDriver_members (w : WorkerRef) (d : DriverRef) (s : MasterState) :
    MembersKept s (assignDriver w d s) :=
  (MembersKept.updateDriver s d _).trans (.updateWorker _ w (fun _ => rfl) fun _ => rfl)

lemma claimDriver_keeps (worker : WorkerRef) (driverId : String) :
    Keeps MembersKept (claimDriver env worker driverId) := by
  refine (findDriver_keeps env _).bind fun found => ?_
  cases found with
  | none => exact Keeps.pure _
  | some d => exact Keeps.modify (assignDriver_members worker d)

/-- Apart from its first part, `removeWorker` only deals with drivers and the store. -/
lemma removeWorker_members (w : WorkerRef) (s : MasterState) :
    MembersKept (forgetWorker w s) ((removeWorker env w).exec s) := by
  have hrest : Keeps MembersKept (do
      let s ← get
      let drivers ← draw env ((s.worker w).drivers.entries.map Sigma.snd)
      forEach (fun driver => do
        let s ← get
        let d := s.driver driver
        removeDriver env
          { driverId := d.id, state := .error, appId := d.appId, exception := none,
            time := d.updateTime }) drivers
      persisting (·.removeWorker (s.worker w).toWorkerRecord)) := by
    refine Keeps.get.bind fun s => (draw_keeps env _).bind fun ds => ?_
    refine Keeps.bind (Keeps.forEach (fun d => ?_) ds) fun _ => persisting_keeps _
    exact Keeps.get.bind fun s => removeDriver_keeps env _
  exact hrest (forgetWorker w s)

end Master

/-! ### The invariant -/

/-- The registered workers: the elements of `workers` that are not dead. -/
def MasterState.IsMember (s : MasterState) (w : WorkerRef) : Prop :=
  w ∈ s.workers ∧ (s.worker w).state ≠ .dead

/-- Each index sends a key to the member with that key, and to nothing else. -/
structure Membership (s : MasterState) : Prop where
  idToWorker : Indexes s.idToWorker s.IsMember fun w => (s.worker w).id
  addressToWorker : Indexes s.addressToWorker s.IsMember fun w => (s.worker w).address
  idToApp : Indexes s.idToApp (· ∈ s.apps) fun a => (s.app a).id
  addressToApp : Indexes s.addressToApp (· ∈ s.apps) fun a => (s.app a).address
  workers_nodup : s.workers.Nodup
  apps_nodup : s.apps.Nodup
  worker_lt : ∀ w ∈ s.workers, w < s.nextWorker
  app_lt : ∀ a ∈ s.apps, a < s.nextApp
  standby : s.state = .standby → s.workers = [] ∧ s.apps = []

namespace MembersKept

variable {s s' : MasterState}

lemma isMember (k : MembersKept s s') (w : WorkerRef) : s'.IsMember w ↔ s.IsMember w := by
  simp only [MasterState.IsMember, k.workers, k.workerState]

lemma membership (k : MembersKept s s') (h : Membership s) : Membership s' where
  idToWorker := k.idToWorker ▸ h.idToWorker.congr k.isMember fun w _ => by rw [k.record w]
  addressToWorker :=
    k.addressToWorker ▸ h.addressToWorker.congr k.isMember fun w _ => by rw [k.record w]
  idToApp := by
    rw [k.idToApp, k.apps, k.app]
    exact h.idToApp
  addressToApp := by
    rw [k.addressToApp, k.apps, k.app]
    exact h.addressToApp
  workers_nodup := k.workers ▸ h.workers_nodup
  apps_nodup := k.apps ▸ h.apps_nodup
  worker_lt w hw := by
    rw [k.nextWorker]
    exact h.worker_lt w (k.workers ▸ hw)
  app_lt a ha := by
    rw [k.nextApp]
    exact h.app_lt a (k.apps ▸ ha)
  standby hs := by
    rw [k.workers, k.apps]
    exact h.standby (k.state ▸ hs)

end MembersKept

lemma isMember_forgetWorker (w : WorkerRef) (s : MasterState) (v : WorkerRef) :
    (Master.forgetWorker w s).IsMember v ↔ s.IsMember v ∧ v ≠ w := by
  by_cases hv : v = w
  · subst hv
    simp [MasterState.IsMember, Master.forgetWorker, WorkerInfo.setState]
  · simp [MasterState.IsMember, Master.forgetWorker, hv, MasterState.updateWorker]

lemma forgetWorker_idToWorker (w : WorkerRef) (s : MasterState) :
    (Master.forgetWorker w s).idToWorker =
      Function.update s.idToWorker (s.worker w).id none := by
  simp [Master.forgetWorker, WorkerInfo.setState, MasterState.updateWorker]

lemma forgetWorker_addressToWorker (w : WorkerRef) (s : MasterState) :
    (Master.forgetWorker w s).addressToWorker =
      Function.update s.addressToWorker (s.worker w).address none := by
  simp [Master.forgetWorker, WorkerInfo.setState, MasterState.updateWorker]

lemma forgetWorker_record (w : WorkerRef) (s : MasterState) (v : WorkerRef) :
    ((Master.forgetWorker w s).worker v).toWorkerRecord = (s.worker v).toWorkerRecord := by
  by_cases hv : v = w
  · subst hv
    simp [Master.forgetWorker, WorkerInfo.setState]
  · simp [Master.forgetWorker, hv]

lemma isMember_enterWorker (s : MasterState) {w : WorkerRef} (hd : (s.worker w).state ≠ .dead)
    (v : WorkerRef) : (Master.enterWorker w s).IsMember v ↔ s.IsMember v ∨ v = w := by
  simp only [MasterState.IsMember, Master.enterWorker, List.mem_insert_iff]
  constructor
  · rintro ⟨rfl | hv, hvd⟩
    · exact Or.inr rfl
    · exact Or.inl ⟨hv, hvd⟩
  · rintro (⟨hv, hvd⟩ | rfl)
    · exact ⟨Or.inr hv, hvd⟩
    · exact ⟨Or.inl rfl, hd⟩

namespace Membership

variable {s s' : MasterState}

lemma congr (h : Membership s) (he : s'.registry = s.registry) (hw : s'.worker = s.worker) :
    Membership s' := (MembersKept.of_eq he hw).membership h

lemma init (engine : PersistenceEngine) : Membership { persistenceEngine := engine } where
  idToWorker := .empty fun _ h => by cases h.1
  addressToWorker := .empty fun _ h => by cases h.1
  idToApp := .empty fun _ h => by cases h
  addressToApp := .empty fun _ h => by cases h
  workers_nodup := .nil
  apps_nodup := .nil
  worker_lt _ h := by cases h
  app_lt _ h := by cases h
  standby _ := ⟨rfl, rfl⟩

lemma restart (s : MasterState) : Membership s.restart where
  idToWorker := .empty fun _ h => by cases h.1
  addressToWorker := .empty fun _ h => by cases h.1
  idToApp := .empty fun _ h => by cases h
  addressToApp := .empty fun _ h => by cases h
  workers_nodup := .nil
  apps_nodup := .nil
  worker_lt _ h := by cases h
  app_lt _ h := by cases h
  standby _ := ⟨rfl, rfl⟩

lemma forgetWorker (h : Membership s) {w : WorkerRef} (hw : s.IsMember w) :
    Membership (Master.forgetWorker w s) where
  idToWorker := by
    rw [forgetWorker_idToWorker]
    refine (h.idToWorker.erase hw).congr (isMember_forgetWorker w s) fun v _ => ?_
    rw [forgetWorker_record w s v]
  addressToWorker := by
    rw [forgetWorker_addressToWorker]
    refine (h.addressToWorker.erase hw).congr (isMember_forgetWorker w s) fun v _ => ?_
    rw [forgetWorker_record w s v]
  idToApp := h.idToApp
  addressToApp := h.addressToApp
  workers_nodup := h.workers_nodup
  apps_nodup := h.apps_nodup
  worker_lt := h.worker_lt
  app_lt := h.app_lt
  standby := h.standby

/-- Dead workers may leave `workers`: they are in no index. -/
lemma filter_workers (h : Membership s) (p : WorkerRef → Bool)
    (hp : ∀ w, s.IsMember w → p w = true) :
    Membership { s with workers := s.workers.filter p } where
  idToWorker := h.idToWorker.congr (fun w => by
    simp only [MasterState.IsMember, List.mem_filter]
    exact ⟨fun hw => ⟨hw.1.1, hw.2⟩, fun hw => ⟨⟨hw.1, hp w hw⟩, hw.2⟩⟩) fun _ _ => rfl
  addressToWorker := h.addressToWorker.congr (fun w => by
    simp only [MasterState.IsMember, List.mem_filter]
    exact ⟨fun hw => ⟨hw.1.1, hw.2⟩, fun hw => ⟨⟨hw.1, hp w hw⟩, hw.2⟩⟩) fun _ _ => rfl
  idToApp := h.idToApp
  addressToApp := h.addressToApp
  workers_nodup := h.workers_nodup.filter _
  apps_nodup := h.apps_nodup
  worker_lt w hw := h.worker_lt w (List.mem_filter.mp hw).1
  app_lt := h.app_lt
  standby hs := by
    obtain ⟨hw, ha⟩ := h.standby hs
    exact ⟨by simp [hw], ha⟩

lemma dropDeadWorkers (h : Membership s) (w : WorkerRef) :
    Membership (Master.dropDeadWorkers w s) := by
  refine h.filter_workers _ fun v hv => ?_
  simp [hv.2]

/-- The indexes only depend on the records of the workers and on which of them are dead. -/
lemma reheap (h : Membership s) {heap : WorkerRef → WorkerInfo} {next : WorkerRef}
    (hd : ∀ w ∈ s.workers, (heap w).state ≠ .dead ↔ (s.worker w).state ≠ .dead)
    (hr : ∀ w ∈ s.workers, (heap w).toWorkerRecord = (s.worker w).toWorkerRecord)
    (hn : s.nextWorker ≤ next) : Membership { s with worker := heap, nextWorker := next } where
  idToWorker := h.idToWorker.congr (fun w => and_congr_right (hd w)) fun w hw => by
    simp only [hr w hw.1]
  addressToWorker := h.addressToWorker.congr (fun w => and_congr_right (hd w)) fun w hw => by
    simp only [hr w hw.1]
  idToApp := h.idToApp
  addressToApp := h.addressToApp
  workers_nodup := h.workers_nodup
  apps_nodup := h.apps_nodup
  worker_lt w hw := Nat.lt_of_lt_of_le (h.worker_lt w hw) hn
  app_lt := h.app_lt
  standby := h.standby

lemma newWorker (h : Membership s) (info : WorkerInfo) :
    Membership { s with
      worker := Function.update s.worker s.nextWorker info
      nextWorker := s.nextWorker + 1 } := by
  have hne : ∀ w ∈ s.workers, w ≠ s.nextWorker := fun w hw => Nat.ne_of_lt (h.worker_lt w hw)
  refine h.reheap (fun w hw => ?_) (fun w hw => ?_) (Nat.le_succ _)
  · rw [Function.update_of_ne (hne w hw)]
  · rw [Function.update_of_ne (hne w hw)]

lemma enterWorker (h : Membership s) {w : WorkerRef} (hs : s.state ≠ .standby)
    (hlt : w < s.nextWorker) (hd : (s.worker w).state ≠ .dead)
    (hid : s.idToWorker (s.worker w).id = none)
    (haddr : s.addressToWorker (s.worker w).address = none) :
    Membership (Master.enterWorker w s) where
  idToWorker := (h.idToWorker.insert hid).congr (isMember_enterWorker s hd) fun _ _ => rfl
  addressToWorker :=
    (h.addressToWorker.insert haddr).congr (isMember_enterWorker s hd) fun _ _ => rfl
  idToApp := h.idToApp
  addressToApp := h.addressToApp
  workers_nodup := h.workers_nodup.insert
  apps_nodup := h.apps_nodup
  worker_lt v hv := by
    rcases List.mem_insert_iff.mp hv with rfl | hv
    · exact hlt
    · exact h.worker_lt v hv
  app_lt := h.app_lt
  standby hs' := absurd hs' hs

/-- A member stays one as long as it does not become dead. -/
lemma setState (h : Membership s) {w : WorkerRef} {state : WorkerState} (hd : state ≠ .dead)
    (hw : w ∈ s.workers → (s.worker w).state ≠ .dead) :
    Membership (s.updateWorker w (·.setState state)) := by
  refine h.reheap (fun v hv => ?_) (fun v _ => ?_) le_rfl
  · by_cases he : v = w
    · subst he
      simp [WorkerInfo.setState, hd, hw hv]
    · simp [he]
  · by_cases he : v = w
    · subst he
      simp [WorkerInfo.setState]
    · simp [he]

end Membership

end Moonbox.Deploy
