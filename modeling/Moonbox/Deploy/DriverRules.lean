import Mathlib.Data.Set.Insert
import Moonbox.Deploy.MembershipSteps

/-!
# Rules for invariants of the drivers

What the handlers do to drivers is made of a few changes: a waiting driver is launched, a driver
is completed and its worker told, a worker is forgotten, a driver is claimed, submitted or taken
from the store. A predicate that is kept by each of them (`DriverRule`, `MemberRule`) is kept by
every handler. It is relative to a set of driver ids, those whose drivers are about to be
removed: `removeWorker` forgets the worker first and removes its drivers one by one.
-/

namespace Moonbox.Deploy

open Actor Handler Master MasterState

/-! ### What each change does to the objects -/

lemma WorkerInfo.lookup_addDriver (w : WorkerInfo) (i j : String) (d : DriverRef) :
    (w.addDriver i d).drivers.lookup j = if j = i then some d else w.drivers.lookup j := by
  simp only [WorkerInfo.addDriver]
  split
  · rename_i h
    rw [h, AList.lookup_insert]
  · rename_i h
    rw [AList.lookup_insert_ne h]

lemma WorkerInfo.lookup_removeDriver (w : WorkerInfo) (i j : String) :
    (w.removeDriver i).drivers.lookup j = if j = i then none else w.drivers.lookup j := by
  simp only [WorkerInfo.removeDriver]
  split
  · rename_i h
    rw [h, AList.lookup_erase]
  · rename_i h
    rw [AList.lookup_erase_ne h]

namespace Master
variable (w v : WorkerRef) (d e : DriverRef) (change : DriverStateChanged) (s : MasterState)

lemma setState_drivers (state : WorkerState) :
    ((s.updateWorker w (·.setState state)).worker v).drivers = (s.worker v).drivers := by
  rw [updateWorker_worker]
  split
  · rename_i h
    rw [h]
    rfl
  · rfl

lemma forgetWorker_drivers :
    ((forgetWorker w s).worker v).drivers = (s.worker v).drivers := setState_drivers w v s .dead

@[simp] lemma launchNext_driver : (launchNext w d s).driver e =
    if e = d then { s.driver d with worker := some w, state := .submitting } else s.driver e := by
  simp only [launchNext, launchDriver, updateDriver, updateWorker, send, Function.update_apply]
  split <;> rfl

@[simp] lemma launchNext_worker : (launchNext w d s).worker v =
    if v = w then (s.worker w).addDriver (s.driver d).id d else s.worker v := by
  simp only [launchNext, launchDriver, updateDriver, updateWorker, send, Function.update_apply]

@[simp] lemma launchNext_state : (launchNext w d s).state = s.state := by
  simp only [launchNext, launchDriver, updateDriver, updateWorker, send]

@[simp] lemma launchNext_idToWorker : (launchNext w d s).idToWorker = s.idToWorker := by
  simp only [launchNext, launchDriver, updateDriver, updateWorker, send]

@[simp] lemma launchNext_addressToWorker :
    (launchNext w d s).addressToWorker = s.addressToWorker := by
  simp only [launchNext, launchDriver, updateDriver, updateWorker, send]

@[simp] lemma launchNext_workers : (launchNext w d s).workers = s.workers := by
  simp only [launchNext, launchDriver, updateDriver, updateWorker, send]

@[simp] lemma launchNext_nextWorker : (launchNext w d s).nextWorker = s.nextWorker := by
  simp only [launchNext, launchDriver, updateDriver, updateWorker, send]

@[simp] lemma launchNext_drivers : (launchNext w d s).drivers = s.drivers := by
  simp only [launchNext, launchDriver, updateDriver, updateWorker, send]

@[simp] lemma launchNext_completedDrivers :
    (launchNext w d s).completedDrivers = s.completedDrivers := by
  simp only [launchNext, launchDriver, updateDriver, updateWorker, send]

@[simp] lemma launchNext_nextDriver : (launchNext w d s).nextDriver = s.nextDriver := by
  simp only [launchNext, launchDriver, updateDriver, updateWorker, send]

@[simp] lemma launchNext_waitingDrivers :
    (launchNext w d s).waitingDrivers = s.waitingDrivers.erase d := by
  simp only [launchNext, launchDriver, updateDriver, updateWorker, send]

@[simp] lemma launchNext_launches : (launchNext w d s).launches = s.launches ++ [(d, w)] := by
  simp only [launchNext, launchDriver, updateDriver, updateWorker, send]

@[simp] lemma launchNext_sent : (launchNext w d s).sent = s.sent ++
    [⟨(s.worker w).endpoint, .launchDriver (s.driver d).id (s.driver d).desc⟩] := by
  simp [launchNext, launchDriver, updateDriver, updateWorker, send, WorkerInfo.addDriver]

@[simp] lemma finishDriver_driver : (finishDriver d change s).driver e =
    if e = d then { s.driver d with
      state := change.state, updateTime := change.time, exception := change.exception,
      appId := change.appId } else s.driver e := by
  simp only [finishDriver]
  split
  · simp only [updateWorker, updateDriver_driver]
  · simp only [updateDriver_driver]

@[simp] lemma finishDriver_worker : (finishDriver d change s).worker v =
    if (s.driver d).worker = some v then (s.worker v).removeDriver (s.driver d).id
    else s.worker v := by
  simp only [finishDriver, updateDriver_driver, if_true]
  split
  · rename_i w hw
    simp only [hw, Option.some.injEq, updateWorker_worker]
    by_cases h : v = w
    · subst h
      simp [updateDriver]
    · rw [if_neg h, if_neg (Ne.symm h)]
      rfl
  · rename_i hw
    simp [hw, updateDriver]

/-- `finishDriver` touches no collection of the master. -/
lemma finishDriver_eq : finishDriver d change s = { s with
    driver := (finishDriver d change s).driver, worker := (finishDriver d change s).worker } := by
  simp only [finishDriver]
  split <;> rfl

@[simp] lemma finishDriver_state : (finishDriver d change s).state = s.state := by
  rw [finishDriver_eq]

@[simp] lemma finishDriver_idToWorker : (finishDriver d change s).idToWorker = s.idToWorker := by
  rw [finishDriver_eq]

@[simp] lemma finishDriver_addressToWorker :
    (finishDriver d change s).addressToWorker = s.addressToWorker := by
  rw [finishDriver_eq]

@[simp] lemma finishDriver_sent : (finishDriver d change s).sent = s.sent := by
  rw [finishDriver_eq]

@[simp] lemma finishDriver_workers : (finishDriver d change s).workers = s.workers := by
  rw [finishDriver_eq]

@[simp] lemma finishDriver_drivers : (finishDriver d change s).drivers = s.drivers := by
  rw [finishDriver_eq]

@[simp] lemma finishDriver_waitingDrivers :
    (finishDriver d change s).waitingDrivers = s.waitingDrivers := by
  rw [finishDriver_eq]

@[simp] lemma finishDriver_completedDrivers :
    (finishDriver d change s).completedDrivers = s.completedDrivers := by
  rw [finishDriver_eq]

@[simp] lemma finishDriver_nextWorker : (finishDriver d change s).nextWorker = s.nextWorker := by
  rw [finishDriver_eq]

@[simp] lemma finishDriver_nextDriver : (finishDriver d change s).nextDriver = s.nextDriver := by
  rw [finishDriver_eq]

@[simp] lemma finishDriver_launches : (finishDriver d change s).launches = s.launches := by
  rw [finishDriver_eq]

@[simp] lemma assignDriver_driver : (assignDriver w d s).driver e =
    if e = d then { s.driver d with worker := some w, state := .running } else s.driver e := by
  simp only [assignDriver, updateWorker, updateDriver_driver]

@[simp] lemma assignDriver_worker : (assignDriver w d s).worker v =
    if v = w then (s.worker w).addDriver (s.driver d).id d else s.worker v := by
  simp [assignDriver, updateWorker_worker, updateDriver]
end Master

/-! ### What is left unchanged -/

/-- What `DriversKept` compares besides the workers themselves. -/
def MasterState.book (s : MasterState) :=
  (s.state, s.idToWorker, s.addressToWorker, s.workers, s.nextWorker, s.drivers, s.waitingDrivers,
    s.completedDrivers, s.driver, s.nextDriver, s.sent, s.launches)

/-- Only the applications, the store, the heartbeats and the random source may differ. -/
structure DriversKept (s s' : MasterState) : Prop where
  state : s'.state = s.state
  idToWorker : s'.idToWorker = s.idToWorker
  addressToWorker : s'.addressToWorker = s.addressToWorker
  workers : s'.workers = s.workers
  nextWorker : s'.nextWorker = s.nextWorker
  record : ∀ w, (s'.worker w).toWorkerRecord = (s.worker w).toWorkerRecord
  workerState : ∀ w, (s'.worker w).state = (s.worker w).state
  workerDrivers : ∀ w, (s'.worker w).drivers = (s.worker w).drivers
  drivers : s'.drivers = s.drivers
  waitingDrivers : s'.waitingDrivers = s.waitingDrivers
  completedDrivers : s'.completedDrivers = s.completedDrivers
  driver : s'.driver = s.driver
  nextDriver : s'.nextDriver = s.nextDriver
  sent : s'.sent = s.sent
  launches : s'.launches = s.launches

namespace DriversKept

lemma mk_book {s s' : MasterState} (h : s'.book = s.book)
    (hr : ∀ w, (s'.worker w).toWorkerRecord = (s.worker w).toWorkerRecord)
    (hs : ∀ w, (s'.worker w).state = (s.worker w).state)
    (hd : ∀ w, (s'.worker w).drivers = (s.worker w).drivers) : DriversKept s s' := by
  simp only [MasterState.book, Prod.mk.injEq] at h
  obtain ⟨h₁, h₂, h₃, h₄, h₅, h₆, h₇, h₈, h₉, h₁₀, h₁₁, h₁₂⟩ := h
  exact ⟨h₁, h₂, h₃, h₄, h₅, hr, hs, hd, h₆, h₇, h₈, h₉, h₁₀, h₁₁, h₁₂⟩

lemma of_eq {s s' : MasterState} (h : s'.book = s.book) (hw : s'.worker = s.worker) :
    DriversKept s s' :=
  mk_book h (fun _ => by rw [hw]) (fun _ => by rw [hw]) fun _ => by rw [hw]

instance : Std.Refl DriversKept where
  refl _ := of_eq rfl rfl

instance : IsTrans MasterState DriversKept where
  trans _ _ _ h h' :=
    { state := h'.state.trans h.state
      idToWorker := h'.idToWorker.trans h.idToWorker
      addressToWorker := h'.addressToWorker.trans h.addressToWorker
      workers := h'.workers.trans h.workers
      nextWorker := h'.nextWorker.trans h.nextWorker
      record := fun w => (h'.record w).trans (h.record w)
      workerState := fun w => (h'.workerState w).trans (h.workerState w)
      workerDrivers := fun w => (h'.workerDrivers w).trans (h.workerDrivers w)
      drivers := h'.drivers.trans h.drivers
      waitingDrivers := h'.waitingDrivers.trans h.waitingDrivers
      completedDrivers := h'.completedDrivers.trans h.completedDrivers
      driver := h'.driver.trans h.driver
      nextDriver := h'.nextDriver.trans h.nextDriver
      sent := h'.sent.trans h.sent
      launches := h'.launches.trans h.launches }

lemma finishDriver {s s' : MasterState} (h : DriversKept s s') (d : DriverRef)
    (change : DriverStateChanged) :
    DriversKept (finishDriver d change s) (finishDriver d change s') := by
  have hw : ∀ v, ((Master.finishDriver d change s').worker v).toWorkerRecord =
      ((Master.finishDriver d change s).worker v).toWorkerRecord ∧
      ((Master.finishDriver d change s').worker v).state =
        ((Master.finishDriver d change s).worker v).state ∧
      ((Master.finishDriver d change s').worker v).drivers =
        ((Master.finishDriver d change s).worker v).drivers := by
    intro v
    rw [finishDriver_worker, finishDriver_worker, h.driver]
    split
    · exact ⟨h.record v, h.workerState v, by
        simp only [WorkerInfo.removeDriver, h.workerDrivers v]⟩
    · exact ⟨h.record v, h.workerState v, h.workerDrivers v⟩
  have hd : (Master.finishDriver d change s').driver = (Master.finishDriver d change s).driver := by
    funext e
    rw [finishDriver_driver, finishDriver_driver, h.driver]
  exact
    { state := by simpa using h.state
      idToWorker := by simpa using h.idToWorker
      addressToWorker := by simpa using h.addressToWorker
      workers := by simpa using h.workers
      nextWorker := by simpa using h.nextWorker
      record := fun v => (hw v).1
      workerState := fun v => (hw v).2.1
      workerDrivers := fun v => (hw v).2.2
      drivers := by simpa using h.drivers
      waitingDrivers := by simpa using h.waitingDrivers
      completedDrivers := by simpa using h.completedDrivers
      driver := hd
      nextDriver := by simpa using h.nextDriver
      sent := by simpa using h.sent
      launches := by simpa using h.launches }

end DriversKept

/-- Drivers are only taken away, what describes them stays, and none loses its worker. -/
structure OnlyRemoves (s s' : MasterState) : Prop where
  drivers : s'.drivers ⊆ s.drivers
  record : ∀ d, (s'.driver d).toDriverRecord = (s.driver d).toDriverRecord
  worker : ∀ d, (s.driver d).worker ≠ none → (s'.driver d).worker ≠ none

namespace OnlyRemoves

lemma of_eq {s s' : MasterState} (hd : s'.drivers = s.drivers) (he : s'.driver = s.driver) :
    OnlyRemoves s s' where
  drivers := hd ▸ List.Subset.refl _
  record d := by rw [he]
  worker d := by rw [he]; exact fun h => h

instance : Std.Refl OnlyRemoves where
  refl _ := of_eq rfl rfl

instance : IsTrans MasterState OnlyRemoves where
  trans _ _ _ h h' :=
    { drivers := fun _ hd => h.drivers (h'.drivers hd)
      record := fun d => (h'.record d).trans (h.record d)
      worker := fun d hd => h'.worker d (h.worker d hd) }

lemma refl (s : MasterState) : OnlyRemoves s s := Std.Refl.refl s

lemma trans {s s' s'' : MasterState} (h : OnlyRemoves s s') (h' : OnlyRemoves s' s'') :
    OnlyRemoves s s'' := IsTrans.trans _ _ _ h h'

lemma id {s s' : MasterState} (h : OnlyRemoves s s') (d : DriverRef) :
    (s'.driver d).id = (s.driver d).id := congrArg DriverRecord.id (h.record d)

lemma launchNext (w : WorkerRef) (d : DriverRef) (s : MasterState) :
    OnlyRemoves s (launchNext w d s) where
  drivers := by
    rw [launchNext_drivers]
    exact List.Subset.refl _
  record e := by
    rw [launchNext_driver]
    split
    · rename_i he
      rw [he]
    · rfl
  worker e he := by
    rw [launchNext_driver]
    split
    · simp
    · exact he

lemma launchWaiting (workers : List WorkerRef) (ds : List DriverRef) :
    ∀ (curPos : Fin workers.length) (s : MasterState),
      OnlyRemoves s (launchWaiting workers curPos ds s) := by
  induction ds with
  | nil => exact fun _ s => refl s
  | cons d ds ih => exact fun curPos s => (launchNext _ d s).trans (ih _ _)

lemma schedule (env : Env) : Keeps OnlyRemoves (schedule env) := by
  refine Keeps.get.bind fun s => Keeps.ite ?_ (Keeps.pure _)
  refine Keeps.bind (fun _ => of_eq rfl rfl) fun workers => ?_
  split
  · exact Keeps.modify fun s' => launchWaiting _ _ _ _
  · exact Keeps.pure _

lemma persisting (op : PersistenceEngine → Except String PersistenceEngine) :
    Keeps OnlyRemoves (persisting op) := by
  refine Keeps.get.bind fun s => ?_
  split
  · exact Keeps.modify fun _ => of_eq rfl rfl
  · exact Keeps.throw _

lemma finishDriver (d : DriverRef) (change : DriverStateChanged) (s : MasterState) :
    OnlyRemoves s (finishDriver d change s) where
  drivers := by
    rw [finishDriver_drivers]
    exact List.Subset.refl _
  record e := by
    rw [finishDriver_driver]
    split
    · rename_i he
      rw [he]
    · rfl
  worker e he := by
    rw [finishDriver_driver]
    split
    · rename_i hed
      exact hed ▸ he
    · exact he

lemma removeDriver (env : Env) (change : DriverStateChanged) :
    Keeps OnlyRemoves (removeDriver env change) := by
  refine Keeps.bind (Keeps.get.bind fun _ => Keeps.bind (fun _ => of_eq rfl rfl) fun _ => Keeps.pure _)
    fun found => ?_
  cases found with
  | none => exact Keeps.pure _
  | some d =>
    refine Keeps.bind (Keeps.modify fun s => ?_) fun _ => Keeps.get.bind fun s => ?_
    · exact ⟨List.filter_subset_self _, fun _ => rfl, fun _ h => h⟩
    · refine (persisting _).bind fun _ => Keeps.bind (Keeps.modify fun s => ?_) fun _ => schedule env
      exact finishDriver d change s

lemma removeWorker (env : Env) (w : WorkerRef) : Keeps OnlyRemoves (removeWorker env w) := by
  refine Keeps.bind (Keeps.modify fun _ => of_eq rfl rfl) fun _ => Keeps.get.bind fun s => ?_
  refine Keeps.bind (fun _ => of_eq rfl rfl) fun ds => Keeps.bind (Keeps.forEach (fun d => ?_) ds) fun _ =>
    persisting _
  exact Keeps.get.bind fun _ => removeDriver env _

end OnlyRemoves

namespace Master

lemma persisting_drivers (op : PersistenceEngine → Except String PersistenceEngine) :
    Keeps DriversKept (persisting op) := by
  refine Keeps.get.bind fun s => ?_
  split
  · exact Keeps.modify fun _ => .of_eq rfl rfl
  · exact Keeps.throw _

lemma removeApplication_drivers (a : AppRef) : Keeps DriversKept (removeApplication a) :=
  Keeps.bind (Keeps.modify fun _ => .of_eq rfl rfl) fun _ => Keeps.get.bind fun _ => persisting_drivers _

/-! ### Launching and removing -/

end Master

/-- The ids of the drivers in the map of a worker. -/
def heldIds (s : MasterState) (w : WorkerRef) : Set String :=
  {i | ∃ e ∈ (s.worker w).drivers.entries, (s.driver e.2).id = i}

lemma mem_heldIds {s : MasterState} {w : WorkerRef} {i : String} :
    i ∈ heldIds s w ↔
      ∃ name d, (s.worker w).drivers.lookup name = some d ∧ (s.driver d).id = i := by
  simp only [heldIds, Set.mem_ofPred_eq]
  constructor
  · rintro ⟨⟨name, d⟩, he, hi⟩
    exact ⟨name, d, AList.mem_lookup_iff.mpr he, hi⟩
  · rintro ⟨name, d, hl, hi⟩
    exact ⟨⟨name, d⟩, AList.mem_lookup_iff.mp hl, hi⟩

/-- `I due s` is kept by what `schedule`, `removeDriver` and `removeWorker` do. Only the workers
in `Lost` are ever forgotten. -/
structure DriverRule (Lost : WorkerRef → Prop) (I : Set String → MasterState → Prop) : Prop where
  frame {due s s'} : I due s → DriversKept s s' → I due s'
  send {due s} (receiver message) : I due s →
    (∀ driverId desc, message ≠ .launchDriver driverId desc) → I due (s.send receiver message)
  launch {due s w d rest} : I due s → s.state = .active → w ∈ s.workers →
    (s.worker w).state = .alive → s.waitingDrivers = d :: rest → I due (launchNext w d s)
  absent {due s driverId} : I (insert driverId due) s →
    (∀ d ∈ s.drivers, (s.driver d).id ≠ driverId) → I due s
  complete {due s d} : I (insert (s.driver d).id due) s → d ∈ s.drivers → I due (completeDriver d s)
  remove {due s d} (change) : I (insert (s.driver d).id due) s → d ∈ s.drivers →
    I due (finishDriver d change (completeDriver d s))
  forget {due s w} : I due s → Lost w → I (heldIds s w ∪ due) (forgetWorker w s)

namespace DriverRule

variable {Lost : WorkerRef → Prop} {I : Set String → MasterState → Prop} {due : Set String}
  {s : MasterState} (env : Env)

lemma launchWaiting (rule : DriverRule Lost I) (workers : List WorkerRef) (ds : List DriverRef) :
    ∀ (curPos : Fin workers.length) (s : MasterState), I due s → s.state = .active →
      (∀ w ∈ workers, w ∈ s.workers ∧ (s.worker w).state = .alive) → s.waitingDrivers = ds →
      I due (launchWaiting workers curPos ds s) := by
  induction ds with
  | nil => exact fun _ s h _ _ _ => h
  | cons d ds ih =>
    intro curPos s h hs hws hds
    obtain ⟨hw, ha⟩ := hws _ (workers.get_mem curPos)
    refine ih _ _ (rule.launch h hs hw ha hds) ?_ (fun v hv => ?_) ?_
    · rw [launchNext_state, hs]
    · obtain ⟨hm, ha'⟩ := hws v hv
      have k := launchDriver_members (workers.get curPos) d s
      rw [launchNext_workers]
      exact ⟨hm, (k.workerState v).trans ha'⟩
    · rw [launchNext_waitingDrivers, hds, List.erase_cons_head]

lemma schedule (rule : DriverRule Lost I) (h : I due s) :
    wp (schedule env) (fun _ => I due) (fun _ => False) s := by
  simp only [Master.schedule, wp_bind, wp_get, wp_ite, wp_pure]
  split
  · rename_i hs
    simp only [draw_wp]
    split
    · refine rule.launchWaiting _ _ _ _ (rule.frame h (.of_eq rfl rfl)) hs (fun w hw => ?_) rfl
      simpa using hw
    · exact rule.frame h (.of_eq rfl rfl)
  · exact h

/-- The driver with the id of `change` is taken out, if there is one. -/
lemma removeDriver (rule : DriverRule Lost I) {change : DriverStateChanged}
    (h : I (insert change.driverId due) s) :
    wp (removeDriver env change) (fun _ => I due) (I due) s := by
  simp only [Master.removeDriver, findDriver, wp_bind, wp_get, draw_wp, wp_pure]
  have h0 : I (insert change.driverId due) { s with draws := s.draws + 1 } := rule.frame h (.of_eq rfl rfl)
  cases hfind : ((env.random s.draws).apply s.drivers).find?
      fun d => (s.driver d).id = change.driverId with
  | none =>
    refine rule.absent h0 fun d hd => ?_
    simp only [List.find?_eq_none, Shuffle.mem_apply, decide_eq_true_eq] at hfind
    exact hfind d hd
  | some d =>
    have hd : d ∈ s.drivers := by simpa using List.mem_of_find?_eq_some hfind
    have hid : (s.driver d).id = change.driverId := by simpa using List.find?_some hfind
    simp only [wp_bind, wp_modify, wp_get]
    rw [← hid] at h0
    have h1 := rule.complete (s := { s with draws := s.draws + 1 }) h0 hd
    refine wp_mono ((persisting_drivers _).wp _) (fun _ s1 k => ?_) fun s1 k => rule.frame h1 k
    have h2 := rule.remove (s := { s with draws := s.draws + 1 }) change h0 hd
    exact wp_mono (rule.schedule env (rule.frame h2 (k.finishDriver d change)))
      (fun _ _ h' => h') fun _ hf => hf.elim

/-- On an exception some of the drivers are still to be removed. -/
lemma removeWorker (rule : DriverRule Lost I) {w : WorkerRef} (h : I due s) (hw : Lost w) :
    wp (removeWorker env w) (fun _ => I due) (fun s' => ∃ due', I due' s') s := by
  simp only [Master.removeWorker, wp_bind, wp_modify, wp_get, draw_wp]
  have h1 := rule.forget h hw
  have hloop := wp_forEach
    (I := fun ds s' => I ({i | i ∈ ds.map fun d => (s.driver d).id} ∪ due) s' ∧ OnlyRemoves s s')
    (E := fun s' => ∃ due', I due' s') (Q := fun _ => I due)
    (f := fun driver => do
      let s ← get
      let d := s.driver driver
      Master.removeDriver env
        { driverId := d.id, state := .error, appId := d.appId, exception := none,
          time := d.updateTime })
    (fun d ds s' hI => by
      obtain ⟨hI, k⟩ := hI
      rw [wp_bind, wp_get]
      have hset : {i | i ∈ (d :: ds).map fun d => (s.driver d).id} ∪ due =
          insert (s'.driver d).id ({i | i ∈ ds.map fun d => (s.driver d).id} ∪ due) := by
        rw [k.id d]
        ext i
        simp only [List.map_cons, List.mem_cons, Set.mem_union, Set.mem_ofPred_eq, Set.mem_insert_iff,
          or_assoc]
      rw [hset] at hI
      refine wp_mono (wp_and (rule.removeDriver env hI) ((OnlyRemoves.removeDriver env _).wp s'))
        ?_ ?_
      · exact fun _ s'' hs => ⟨hs.1, k.trans hs.2⟩
      · exact fun s'' hs => ⟨_, hs.1⟩)
    (fun s' hI => by
      simpa only [List.map_nil, List.not_mem_nil, Set.ofPred_false, Set.empty_union] using hI.1)
  refine wp_mono (hloop _ _ ⟨?_, .of_eq rfl rfl⟩) (fun _ s' h' => ?_) fun _ h' => h'
  · refine rule.frame (s := forgetWorker w s) ?_ (.of_eq rfl rfl)
    convert h1 using 2
    ext i
    simp only [heldIds, List.mem_map, Shuffle.mem_apply, Set.mem_ofPred_eq,
      exists_exists_and_eq_and]
    simp [forgetWorker, WorkerInfo.setState]
  · refine wp_mono ((persisting_drivers _).wp _) (fun _ s'' k => rule.frame h' k) fun s'' k => ?_
    exact ⟨due, rule.frame h' k⟩

end DriverRule

end Moonbox.Deploy
