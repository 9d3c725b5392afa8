import Moonbox.Deploy.Ledger

/-!
# The life of a driver

A driver waits, is launched once, and is completed for good. This needs that no submission reuses
the id of a driver that is not yet completed, and that no driver is removed while it still waits:
`removeDriver` does not take it out of `waitingDrivers`.
-/

namespace Moonbox.Deploy

open Actor Handler Relation Master MasterState

/-! ### The invariant -/

/-- The master is through with the driver. -/
structure Settled (s : MasterState) (d : DriverRef) : Prop where
  lt : d < s.nextDriver
  not_mem : d ∉ s.drivers
  not_waiting : d ∉ s.waitingDrivers

/-- Inside a step from `s₀`, with the drivers in `due` and those of the workers in `Lost` about to be
removed: none of them waits, and drivers settled in `s₀` are left alone. -/
structure Lifecycle (s₀ : MasterState) (Lost : WorkerRef → Prop) (due : Set String)
    (s : MasterState) : Prop where
  ledger : Ledger s
  waiting_mem : ∀ d ∈ s.waitingDrivers, d ∈ s.drivers
  held : ∀ d w, (d, w) ∈ s.launches → d ∈ s.drivers →
    (s.worker w).drivers.lookup (s.driver d).id = some d
  completed : ∀ d ∈ s.completedDrivers, Settled s d
  due_not_waiting : ∀ d ∈ s.waitingDrivers, (s.driver d).id ∉ due
  lost_not_waiting : ∀ w, Lost w → ∀ d ∈ s.waitingDrivers, (s.driver d).id ∉ heldIds s w
  next_le : s₀.nextDriver ≤ s.nextDriver
  settled : ∀ d, Settled s₀ d → Settled s d
  settled_state : ∀ d, Settled s₀ d → (s.driver d).state = (s₀.driver d).state
  settled_launches : ∀ d w, Settled s₀ d → (d, w) ∈ s.launches → (d, w) ∈ s₀.launches

namespace Lifecycle

variable {s₀ s s' : MasterState} {Lost : WorkerRef → Prop} {due : Set String}

/-- Changes that leave the drivers and what is known about them alone. -/
lemma keep (h : Lifecycle s₀ Lost due s) (hl : Ledger s') (hdrivers : s'.drivers = s.drivers)
    (hwaiting : s'.waitingDrivers = s.waitingDrivers)
    (hcompleted : s'.completedDrivers = s.completedDrivers) (hdriver : s'.driver = s.driver)
    (hnext : s'.nextDriver = s.nextDriver) (hlaunches : s'.launches = s.launches)
    (hmap : ∀ w < s.nextWorker, (s'.worker w).drivers = (s.worker w).drivers)
    (hsub : ∀ w i d, (s'.worker w).drivers.lookup i = some d →
      (s.worker w).drivers.lookup i = some d) : Lifecycle s₀ Lost due s' := by
  have hsettled : ∀ d, Settled s d → Settled s' d := fun d hd =>
    ⟨hnext ▸ hd.lt, hdrivers ▸ hd.not_mem, hwaiting ▸ hd.not_waiting⟩
  constructor
  · exact hl
  · rw [hwaiting, hdrivers]
    exact h.waiting_mem
  · intro d w hdw hd
    rw [hlaunches] at hdw
    rw [hdriver, hmap w (h.ledger.launch_lt d w hdw).2]
    exact h.held d w hdw (hdrivers ▸ hd)
  · rw [hcompleted]
    exact fun d hd => hsettled d (h.completed d hd)
  · rw [hwaiting, hdriver]
    exact h.due_not_waiting
  · rw [hwaiting, hdriver]
    intro w hw d hd hheld
    obtain ⟨i, e, hlookup, he⟩ := mem_heldIds.mp hheld
    rw [hdriver] at he
    exact h.lost_not_waiting w hw d hd (mem_heldIds.mpr ⟨i, e, hsub w i e hlookup, he⟩)
  · rw [hnext]
    exact h.next_le
  · exact fun d hd => hsettled d (h.settled d hd)
  · rw [hdriver]
    exact h.settled_state
  · rw [hlaunches]
    exact h.settled_launches

lemma mono_due (h : Lifecycle s₀ Lost due s) {due' : Set String} (hdue : due' ⊆ due) :
    Lifecycle s₀ Lost due' s :=
  { h with due_not_waiting := fun d hd hc => h.due_not_waiting d hd (hdue hc) }

/-- Launching the head of the queue. -/
lemma launch (h : Lifecycle s₀ Lost due s) {w : WorkerRef} {d : DriverRef} {rest : List DriverRef}
    (hs : s.state = .active) (hw : w ∈ s.workers) (hd : s.waitingDrivers = d :: rest) :
    Lifecycle s₀ Lost due (launchNext w d s) := by
  have hwait : (launchNext w d s).waitingDrivers = rest := by
    rw [launchNext_waitingDrivers, hd, List.erase_cons_head]
  have hrest : ∀ e ∈ rest, e ∈ s.waitingDrivers := fun e he => hd ▸ List.mem_cons_of_mem _ he
  have hdw : d ∈ s.waitingDrivers := hd ▸ List.mem_cons_self
  have hid : ∀ e, ((launchNext w d s).driver e).id = (s.driver e).id :=
    (OnlyRemoves.launchNext w d s).id
  have hnotrest : d ∉ rest := by
    have hn := h.ledger.waiting_nodup
    rw [hd, List.nodup_cons] at hn
    exact hn.1
  have hsettled : ∀ e, Settled s e → Settled (launchNext w d s) e := fun e he =>
    ⟨by simpa using he.lt, by simpa using he.not_mem, by
      rw [hwait]
      exact fun hc => he.not_waiting (hrest e hc)⟩
  have hlookup : ∀ v i, ((launchNext w d s).worker v).drivers.lookup i =
      if v = w ∧ i = (s.driver d).id then some d else (s.worker v).drivers.lookup i := by
    intro v i
    rw [launchNext_worker]
    by_cases hv : v = w
    · subst hv
      simp [WorkerInfo.lookup_addDriver]
    · simp [hv]
  constructor
  · exact h.ledger.launch hw hd hs
  · rw [hwait, launchNext_drivers]
    exact fun e he => h.waiting_mem e (hrest e he)
  · intro e v hl he
    rw [launchNext_drivers] at he
    rw [launchNext_launches, List.mem_append, List.mem_singleton, Prod.mk.injEq] at hl
    rw [hid, hlookup]
    split
    · rename_i hc
      rw [h.ledger.id_injective e he d (h.waiting_mem d hdw) hc.2]
    · rename_i hc
      rcases hl with hl | ⟨rfl, rfl⟩
      · exact h.held e v hl he
      · exact absurd ⟨rfl, rfl⟩ hc
  · rw [launchNext_completedDrivers]
    exact fun e he => hsettled e (h.completed e he)
  · rw [hwait]
    intro e he
    rw [hid]
    exact h.due_not_waiting e (hrest e he)
  · rw [hwait]
    intro v hv e he hheld
    obtain ⟨i, e', hl, he'⟩ := mem_heldIds.mp hheld
    rw [hlookup] at hl
    rw [hid, hid] at he'
    split at hl
    · cases hl
      refine hnotrest (h.ledger.id_injective d (h.waiting_mem d hdw) e ?_ he' ▸ he)
      exact h.waiting_mem e (hrest e he)
    · exact h.lost_not_waiting v hv e (hrest e he) (mem_heldIds.mpr ⟨i, e', hl, he'⟩)
  · rw [launchNext_nextDriver]
    exact h.next_le
  · exact fun e he => hsettled e (h.settled e he)
  · intro e he
    rw [launchNext_driver, if_neg, h.settled_state e he]
    exact fun hc => (h.settled e he).not_waiting (hc ▸ hdw)
  · intro e v he hl
    rw [launchNext_launches, List.mem_append, List.mem_singleton, Prod.mk.injEq] at hl
    rcases hl with hl | ⟨rfl, rfl⟩
    · exact h.settled_launches e v he hl
    · exact absurd hdw (h.settled e he).not_waiting

/-- A driver that does not wait is completed. -/
lemma complete (h : Lifecycle s₀ Lost due s) {d : DriverRef} (hl : Ledger (completeDriver d s))
    (hd : d ∈ s.drivers) (hwait : d ∉ s.waitingDrivers) :
    Lifecycle s₀ Lost due (completeDriver d s) := by
  have hsettled : ∀ e, Settled s e → Settled (completeDriver d s) e := fun e he =>
    ⟨he.lt, fun hc => he.not_mem (List.mem_filter.mp hc).1, he.not_waiting⟩
  constructor
  · exact hl
  · intro e he
    refine List.mem_filter.mpr ⟨h.waiting_mem e he, ?_⟩
    simpa using fun hc : e = d => hwait (hc ▸ he)
  · exact fun e w hw he => h.held e w hw (List.mem_filter.mp he).1
  · intro e he
    rcases List.mem_append.mp he with he | he
    · exact hsettled e (h.completed e he)
    · rw [List.mem_singleton.mp he]
      exact ⟨h.ledger.driver_lt d hd, by simp [completeDriver], hwait⟩
  · exact h.due_not_waiting
  · exact h.lost_not_waiting
  · exact h.next_le
  · exact fun e he => hsettled e (h.settled e he)
  · exact h.settled_state
  · exact h.settled_launches

/-- The assignments to a driver that is completed, and the erasure from its worker's map. -/
lemma finish (h : Lifecycle s₀ Lost due s) {d : DriverRef} (change : DriverStateChanged)
    (hl : Ledger (finishDriver d change s)) (hd : ∀ e ∈ s.drivers, (s.driver e).id ≠ (s.driver d).id)
    (hnot : ¬ Settled s₀ d) : Lifecycle s₀ Lost due (finishDriver d change s) := by
  have hid : ∀ e, ((finishDriver d change s).driver e).id = (s.driver e).id :=
    (OnlyRemoves.finishDriver d change s).id
  have hlookup : ∀ v i, ((finishDriver d change s).worker v).drivers.lookup i =
      if (s.driver d).worker = some v ∧ i = (s.driver d).id then none
      else (s.worker v).drivers.lookup i := by
    intro v i
    rw [finishDriver_worker]
    by_cases hv : (s.driver d).worker = some v
    · simp [hv, WorkerInfo.lookup_removeDriver]
    · simp [hv]
  have hsettled : ∀ e, Settled s e → Settled (finishDriver d change s) e := fun e he =>
    ⟨by simpa using he.lt, by simpa using he.not_mem, by simpa using he.not_waiting⟩
  constructor
  · exact hl
  · rw [finishDriver_waitingDrivers, finishDriver_drivers]
    exact h.waiting_mem
  · intro e w hw he
    rw [finishDriver_launches] at hw
    rw [finishDriver_drivers] at he
    rw [hid, hlookup, if_neg, h.held e w hw he]
    exact fun hc => hd e he hc.2
  · rw [finishDriver_completedDrivers]
    exact fun e he => hsettled e (h.completed e he)
  · rw [finishDriver_waitingDrivers]
    intro e he
    rw [hid]
    exact h.due_not_waiting e he
  · rw [finishDriver_waitingDrivers]
    intro v hv e he hheld
    obtain ⟨i, e', hl', he'⟩ := mem_heldIds.mp hheld
    rw [hlookup] at hl'
    rw [hid, hid] at he'
    split at hl'
    · cases hl'
    · exact h.lost_not_waiting v hv e he (mem_heldIds.mpr ⟨i, e', hl', he'⟩)
  · rw [finishDriver_nextDriver]
    exact h.next_le
  · exact fun e he => hsettled e (h.settled e he)
  · intro e he
    rw [finishDriver_driver, if_neg, h.settled_state e he]
    exact fun hc => hnot (hc ▸ he)
  · rw [finishDriver_launches]
    exact h.settled_launches

/-- A worker claims a driver the master holds. -/
lemma assign (h : Lifecycle s₀ Lost due s) {w : WorkerRef} {d : DriverRef}
    (hl : Ledger (assignDriver w d s)) (hd : d ∈ s.drivers)
    (hlost : Lost w → s.waitingDrivers = []) : Lifecycle s₀ Lost due (assignDriver w d s) := by
  have hid : ∀ e, ((assignDriver w d s).driver e).id = (s.driver e).id := by
    intro e
    rw [assignDriver_driver]
    split
    · rename_i he
      rw [he]
    · rfl
  have hlookup : ∀ v i, ((assignDriver w d s).worker v).drivers.lookup i =
      if v = w ∧ i = (s.driver d).id then some d else (s.worker v).drivers.lookup i := by
    intro v i
    rw [assignDriver_worker]
    by_cases hv : v = w
    · subst hv
      simp [WorkerInfo.lookup_addDriver]
    · simp [hv]
  have hsettled : ∀ e, Settled s e → Settled (assignDriver w d s) e := fun e he =>
    ⟨he.lt, he.not_mem, he.not_waiting⟩
  constructor
  · exact hl
  · exact h.waiting_mem
  · intro e v hw he
    rw [hid, hlookup]
    split
    · rename_i hc
      rw [h.ledger.id_injective e he d hd hc.2]
    · exact h.held e v hw he
  · exact fun e he => hsettled e (h.completed e he)
  · intro e he
    rw [hid]
    exact h.due_not_waiting e he
  · intro v hv e he hheld
    obtain ⟨i, e', hl', he'⟩ := mem_heldIds.mp hheld
    rw [hlookup] at hl'
    rw [hid, hid] at he'
    split at hl'
    · rename_i hc
      have hwait : s.waitingDrivers = [] := hlost (hc.1 ▸ hv)
      have he'' : e ∈ s.waitingDrivers := he
      rw [hwait] at he''
      cases he''
    · exact h.lost_not_waiting v hv e he (mem_heldIds.mpr ⟨i, e', hl', he'⟩)
  · exact h.next_le
  · exact fun e he => hsettled e (h.settled e he)
  · intro e he
    rw [assignDriver_driver, if_neg, h.settled_state e he]
    exact fun hc => (h.settled e he).not_mem (hc ▸ hd)
  · exact h.settled_launches

lemma change (h : Lifecycle s₀ Lost due s) {d : DriverRef} (change : DriverStateChanged)
    (hl : Ledger (changeDriver d change s)) (hd : d ∈ s.drivers) :
    Lifecycle s₀ Lost due (changeDriver d change s) := by
  have hdriver : ∀ e, (changeDriver d change s).driver e = if e = d then { s.driver d with
      state := change.state, updateTime := change.time, appId := change.appId }
      else s.driver e := fun e => updateDriver_driver s d _ e
  have hid : ∀ e, ((changeDriver d change s).driver e).id = (s.driver e).id := by
    intro e
    rw [hdriver]
    split
    · rename_i he
      rw [he]
    · rfl
  constructor
  · exact hl
  · exact h.waiting_mem
  · intro e w hw he
    rw [hid]
    exact h.held e w hw he
  · exact fun e he => ⟨(h.completed e he).lt, (h.completed e he).not_mem,
      (h.completed e he).not_waiting⟩
  · intro e he
    rw [hid]
    exact h.due_not_waiting e he
  · intro v hv e he hheld
    obtain ⟨i, e', hl', he'⟩ := mem_heldIds.mp hheld
    rw [hid, hid] at he'
    exact h.lost_not_waiting v hv e he (mem_heldIds.mpr ⟨i, e', hl', he'⟩)
  · exact h.next_le
  · exact fun e he => ⟨(h.settled e he).lt, (h.settled e he).not_mem, (h.settled e he).not_waiting⟩
  · intro e he
    rw [hdriver, if_neg, h.settled_state e he]
    exact fun hc => (h.settled e he).not_mem (hc ▸ hd)
  · exact h.settled_launches

/-- A new driver enters, waiting or not. -/
lemma enter (h : Lifecycle s₀ Lost due s) {record : DriverRecord} {now : Nat}
    {waiting : List DriverRef}
    (hl : Ledger { enterDriver s.nextDriver (allocDriver (.init record now) s) with
      waitingDrivers := waiting })
    (hwaiting : ∀ d ∈ waiting, d ∈ s.waitingDrivers ∨ d = s.nextDriver ∧ record.id ∉ due)
    (hlost : ∀ w, Lost w → waiting = []) :
    Lifecycle s₀ Lost due { enterDriver s.nextDriver (allocDriver (.init record now) s) with
      waitingDrivers := waiting } := by
  have hold : ∀ d, d < s.nextDriver →
      Function.update s.driver s.nextDriver (DriverInfo.init record now) d = s.driver d :=
    fun d hd => Function.update_of_ne (Nat.ne_of_lt hd) _ _
  have hnew : Function.update s.driver s.nextDriver (DriverInfo.init record now) s.nextDriver =
      .init record now := Function.update_self _ _ _
  have hsettled : ∀ d, Settled s d →
      Settled { enterDriver s.nextDriver (allocDriver (.init record now) s) with
        waitingDrivers := waiting } d := by
    intro d hd
    refine ⟨Nat.lt_succ_of_lt hd.lt, fun hc => ?_, fun hc => ?_⟩
    · rcases List.mem_insert_iff.mp hc with rfl | hc
      · exact Nat.lt_irrefl _ hd.lt
      · exact hd.not_mem hc
    · rcases hwaiting d hc with hc | ⟨rfl, -⟩
      · exact hd.not_waiting hc
      · exact Nat.lt_irrefl _ hd.lt
  constructor
  · exact hl
  · intro d hd
    rcases hwaiting d hd with hd | ⟨rfl, -⟩
    · exact List.mem_insert_of_mem (h.waiting_mem d hd)
    · exact List.mem_insert_self
  · intro d w hw hd
    have hlt := (h.ledger.launch_lt d w hw).1
    change (s.worker w).drivers.lookup
      (Function.update s.driver s.nextDriver (DriverInfo.init record now) d).id = some d
    rw [hold d hlt]
    refine h.held d w hw ((List.mem_insert_iff.mp hd).resolve_left ?_)
    exact Nat.ne_of_lt hlt
  · exact fun d hd => hsettled d (h.completed d hd)
  · intro d hd
    change (Function.update s.driver s.nextDriver (DriverInfo.init record now) d).id ∉ due
    rcases hwaiting d hd with hd | ⟨rfl, hdue⟩
    · rw [hold d (h.ledger.waiting_lt d hd)]
      exact h.due_not_waiting d hd
    · rw [hnew]
      exact hdue
  · intro w hw d hd
    have hnil : d ∈ waiting := hd
    rw [hlost w hw] at hnil
    cases hnil
  · exact Nat.le_succ_of_le h.next_le
  · exact fun d hd => hsettled d (h.settled d hd)
  · intro d hd
    change (Function.update s.driver s.nextDriver (DriverInfo.init record now) d).state = _
    rw [hold d (h.settled d hd).lt]
    exact h.settled_state d hd
  · exact h.settled_launches

/-- A driver taken out of the queue does not wait any more. -/
lemma dequeue (h : Lifecycle s₀ Lost due s) {d : DriverRef} (hl : Ledger (dequeueDriver d s))
    (hd : d ∈ s.drivers) : Lifecycle s₀ Lost (insert (s.driver d).id due) (dequeueDriver d s) := by
  have hmem : ∀ e ∈ s.waitingDrivers.erase d, e ∈ s.waitingDrivers := fun _ => List.mem_of_mem_erase
  have hsettled : ∀ e, Settled s e → Settled (dequeueDriver d s) e := fun e he =>
    ⟨he.lt, he.not_mem, fun hc => he.not_waiting (hmem e hc)⟩
  constructor
  · exact hl
  · exact fun e he => h.waiting_mem e (hmem e he)
  · exact h.held
  · exact fun e he => hsettled e (h.completed e he)
  · intro e he hc
    rcases hc with hc | hc
    · have hed := h.ledger.id_injective e (h.waiting_mem e (hmem e he)) d hd hc
      exact h.ledger.waiting_nodup.not_mem_erase (hed ▸ he)
    · exact h.due_not_waiting e (hmem e he) hc
  · exact fun w hw e he => h.lost_not_waiting w hw e (hmem e he)
  · exact h.next_le
  · exact fun e he => hsettled e (h.settled e he)
  · exact h.settled_state
  · exact h.settled_launches

lemma restart (h : Lifecycle s₀ Lost due s) : Lifecycle s₀ Lost ∅ s.restart where
  ledger := h.ledger.restart
  waiting_mem := by simp [MasterState.restart]
  held := by simp [MasterState.restart]
  completed := by simp [MasterState.restart]
  due_not_waiting := by simp [MasterState.restart]
  lost_not_waiting := by simp [MasterState.restart]
  next_le := h.next_le
  settled d hd := ⟨(h.settled d hd).lt, by simp [MasterState.restart], by simp [MasterState.restart]⟩
  settled_state := h.settled_state
  settled_launches := h.settled_launches

/-- What is due between messages is nothing. -/
lemma rule (s₀ : MasterState) (Lost : WorkerRef → Prop) :
    MemberRule Lost (fun _ => True) ∅ (Lifecycle s₀ Lost) := by
  have ledger := Ledger.rule Lost (fun _ => True) ∅
  constructor
  case toDriverRule =>
    constructor
    case frame =>
      intro due s s' h k
      exact h.keep (h.ledger.frame k) k.drivers k.waitingDrivers k.completedDrivers k.driver
        k.nextDriver k.launches (fun w _ => k.workerDrivers w) fun w i d hl =>
          k.workerDrivers w ▸ hl
    case send =>
      intro due s receiver message h hm
      exact h.keep (h.ledger.send receiver hm) rfl rfl rfl rfl rfl rfl
        (fun _ _ => rfl) fun _ _ _ hl => hl
    case launch => exact fun h hs hw _ hd => h.launch hs hw hd
    case absent => exact fun h _ => h.mono_due (Set.subset_insert _ _)
    case complete =>
      intro due s d h hd
      have hwait : d ∉ s.waitingDrivers := fun hc => h.due_not_waiting d hc (Set.mem_insert _ _)
      exact (h.mono_due (Set.subset_insert _ _)).complete (h.ledger.complete d) hd hwait
    case remove =>
      intro due s d change h hd
      have hwait : d ∉ s.waitingDrivers := fun hc => h.due_not_waiting d hc (Set.mem_insert _ _)
      have h' := (h.mono_due (Set.subset_insert _ _)).complete (h.ledger.complete d) hd hwait
      refine h'.finish change (h'.ledger.finish d change) (fun e he hc => ?_) ?_
      · obtain ⟨he, hne⟩ := List.mem_filter.mp he
        simp [h.ledger.id_injective e he d hd hc] at hne
      · exact fun hc => (h.settled d hc).not_mem hd
    case forget =>
      intro due s w h hw
      have h' : Lifecycle s₀ Lost (heldIds s w ∪ due) s :=
        { h with due_not_waiting := fun d hd hc =>
            hc.elim (h.lost_not_waiting w hw d hd) (h.due_not_waiting d hd) }
      exact h'.keep (h.ledger.forget w) rfl rfl rfl rfl rfl rfl (fun v _ => forgetWorker_drivers w v s)
        fun v _ _ hl => forgetWorker_drivers w v s ▸ hl
  case standby => exact fun h => h.ledger.standby
  case idle => exact fun h _ _ => h.mono_due (Set.empty_subset _)
  case allocWorker =>
    intro s record now h
    refine h.keep (ledger.allocWorker record now h.ledger) rfl rfl rfl rfl rfl rfl
      (fun v hv => ?_) fun v i d hl => ?_
    · simp only [Master.allocWorker, Function.update_of_ne (Nat.ne_of_lt hv)]
    · simp only [Master.allocWorker, Function.update_apply] at hl
      split at hl
      · simp [WorkerInfo.init] at hl
      · exact hl
  case dropDead =>
    intro s w h
    exact h.keep (ledger.dropDead w h.ledger) rfl rfl rfl rfl rfl rfl (fun _ _ => rfl)
      fun _ _ _ hl => hl
  case enter =>
    intro s w h hw
    exact h.keep (ledger.enter h.ledger hw) rfl rfl rfl rfl rfl rfl (fun _ _ => rfl)
      fun _ _ _ hl => hl
  case setState =>
    intro s w state h hstate
    exact h.keep (ledger.setState w h.ledger hstate) rfl rfl rfl rfl rfl rfl
      (fun v _ => setState_drivers w v s state) fun v _ _ hl => setState_drivers w v s state ▸ hl
  case expire =>
    intro s w h hw
    exact h.keep (ledger.expire h.ledger hw) rfl rfl rfl rfl rfl rfl (fun _ _ => rfl)
      fun _ _ _ hl => hl
  case claim =>
    intro s w d h hw hd hlost
    exact h.assign (ledger.claim h.ledger hw hd hlost) hd fun hl => h.ledger.idle (hlost hl)
  case change => exact fun change h hd => h.change change (ledger.change change h.ledger hd) hd
  case recover =>
    intro s record now h hs hid
    have hnil := h.ledger.idle (s := s) (by simp [hs])
    exact h.enter (ledger.recover record now h.ledger hs hid) (fun d hd => Or.inl hd)
      fun _ _ => hnil
  case submit =>
    intro s record now h hs hid hlost
    refine h.enter (ledger.submit record now h.ledger hs hid hlost) (fun d hd => ?_) fun w hw =>
      absurd hw (hlost w)
    rcases List.mem_append.mp hd with hd | hd
    · exact Or.inl hd
    · exact Or.inr ⟨List.mem_singleton.mp hd, Set.notMem_empty _⟩
  case dequeue =>
    intro s d h hd hwait
    exact h.dequeue (ledger.dequeue h.ledger hd hwait) hd
  case lead =>
    intro s state h hs hstate
    exact h.keep (ledger.lead h.ledger hs hstate) rfl rfl rfl rfl rfl rfl (fun _ _ => rfl)
      fun _ _ _ hl => hl
  case begin =>
    intro s h hs _
    exact h.keep (ledger.begin h.ledger hs trivial) rfl rfl rfl rfl rfl rfl (fun _ _ => rfl)
      fun _ _ _ hl => hl
  case activate =>
    intro s h hs
    exact h.keep (ledger.activate h.ledger hs) rfl rfl rfl rfl rfl rfl (fun _ _ => rfl)
      fun _ _ _ hl => hl
  case restart =>
    intro due s h
    exact h.restart

end Lifecycle

/-! ### Runs -/

/-- The ids whose drivers a message makes the master remove. -/
def removedBy (env : Env) (s : MasterState) (m : Message) : Set String :=
  removedIds m ∪ {i | ∃ w, Loses env s m w ∧ i ∈ heldIds s w}

/-- A submission uses a new id, and what is removed does not wait. -/
structure LifecycleSafe (env : Env) (s : MasterState) (m : Message) : Prop where
  fresh : SubmitsFresh s m
  removed_not_waiting : ∀ d ∈ s.waitingDrivers, (s.driver d).id ∉ removedBy env s m

def Master.LifecycleStep (s s' : MasterState) : Prop :=
  ∃ env m, Deliverable s m ∧ LifecycleSafe env s m ∧ s' = step env m s

/-- What a later state `s'` of a run says about the drivers, and about those that were already
completed in `s`. -/
structure DriverLifecycle (s s' : MasterState) : Prop where
  waiting : ∀ d ∈ s'.waitingDrivers, d ∈ s'.drivers
  held : ∀ d w, (d, w) ∈ s'.launches → d ∈ s'.drivers →
    (s'.worker w).drivers.lookup (s'.driver d).id = some d
  final_not_waiting : ∀ d ∈ s.completedDrivers, d ∉ s'.waitingDrivers
  final_not_launched : ∀ d ∈ s.completedDrivers, ∀ w, (d, w) ∈ s'.launches → (d, w) ∈ s.launches
  final_state : ∀ d ∈ s.completedDrivers, (s'.driver d).state = (s.driver d).state
  launched_once : (s'.launches.map Prod.fst).Nodup
  launch_messages :
    s'.sent.filterMap Envelope.launchedId = s'.launches.map fun p => (s'.driver p.1).id

namespace Lifecycle

variable {s₀ s₁ s : MasterState} {Lost Lost' : WorkerRef → Prop} {due : Set String}

lemma init (engine : PersistenceEngine) :
    Lifecycle { persistenceEngine := engine } (fun _ => False) ∅ { persistenceEngine := engine } where
  ledger := Ledger.init engine
  waiting_mem := by simp
  held := by simp
  completed := by simp
  due_not_waiting := by simp
  lost_not_waiting := by simp
  next_le := le_rfl
  settled _ h := h
  settled_state _ _ := rfl
  settled_launches _ _ _ h := h

/-- A step may be looked at from its own first state. -/
lemma rebase (h : Lifecycle s₀ Lost ∅ s)
    (hdue : ∀ d ∈ s.waitingDrivers, (s.driver d).id ∉ due)
    (hlost : ∀ w, Lost' w → ∀ d ∈ s.waitingDrivers, (s.driver d).id ∉ heldIds s w) :
    Lifecycle s Lost' due s where
  ledger := h.ledger
  waiting_mem := h.waiting_mem
  held := h.held
  completed := h.completed
  due_not_waiting := hdue
  lost_not_waiting := hlost
  next_le := le_rfl
  settled _ hd := hd
  settled_state _ _ := rfl
  settled_launches _ _ _ hl := hl

lemma trans (h : Lifecycle s₀ Lost ∅ s₁) (h' : Lifecycle s₁ Lost' ∅ s) :
    Lifecycle s₀ (fun _ => False) ∅ s where
  ledger := h'.ledger
  waiting_mem := h'.waiting_mem
  held := h'.held
  completed := h'.completed
  due_not_waiting := h'.due_not_waiting
  lost_not_waiting _ hf := hf.elim
  next_le := h.next_le.trans h'.next_le
  settled d hd := h'.settled d (h.settled d hd)
  settled_state d hd := (h'.settled_state d (h.settled d hd)).trans (h.settled_state d hd)
  settled_launches d w hd hl :=
    h.settled_launches d w hd (h'.settled_launches d w (h.settled d hd) hl)

lemma step {env : Env} {m : Message} (h : Lifecycle s₀ (fun _ => False) ∅ s) (hM : Membership s)
    (hd : Deliverable s m) (hsafe : LifecycleSafe env s m) :
    Lifecycle s₀ (fun _ => False) ∅ (step env m s) := by
  have hdue : ∀ d ∈ s.waitingDrivers, (s.driver d).id ∉ removedIds m ∪ (∅ : Set String) := by
    rw [Set.union_empty]
    exact fun d hd hc => hsafe.removed_not_waiting d hd (Or.inl hc)
  have hlost : ∀ w, Loses env s m w → ∀ d ∈ s.waitingDrivers, (s.driver d).id ∉ heldIds s w :=
    fun w hw d hd hc => hsafe.removed_not_waiting d hd (Or.inr ⟨w, hw, hc⟩)
  have hnext : Lifecycle s (Loses env s m) ∅ (Master.step env m s) := by
    rcases (rule s (Loses env s m)).step env (h.rebase hdue hlost) hM hd (fun _ => Iff.rfl)
      hsafe.fresh (completesIn_true env s m) with h' | ⟨change, -, -, -, h'⟩
    · exact h'
    · exact h'.mono_due (Set.empty_subset _)
  exact h.trans hnext

end Lifecycle

/-- In a run whose steps are safe every driver waits, runs and is completed once and for all. -/
theorem Master.driver_lifecycle {engine : PersistenceEngine} {s s' : MasterState}
    (h : ReflTransGen LifecycleStep { persistenceEngine := engine } s)
    (h' : ReflTransGen LifecycleStep s s') : DriverLifecycle s s' := by
  have step : ∀ s₀ s₁ s₂, LifecycleStep s₁ s₂ →
      Membership s₁ ∧ Lifecycle s₀ (fun _ => False) ∅ s₁ →
      Membership s₂ ∧ Lifecycle s₀ (fun _ => False) ∅ s₂ := by
    rintro s₀ s₁ s₂ ⟨env, m, hd, hsafe, rfl⟩ ⟨hM, hL⟩
    exact ⟨step_membership env hM hd, hL.step hM hd hsafe⟩
  obtain ⟨hM, hL⟩ := invariant_of_run h (step _) ⟨Membership.init engine, Lifecycle.init engine⟩
  have hself : Lifecycle s (fun _ => False) ∅ s :=
    hL.rebase (fun _ _ => Set.notMem_empty _) fun _ hf => hf.elim
  obtain ⟨-, hL'⟩ := invariant_of_run h' (step s) ⟨hM, hself⟩
  exact
    { waiting := hL'.waiting_mem
      held := hL'.held
      final_not_waiting := fun d hd => (hL'.settled d (hL.completed d hd)).not_waiting
      final_not_launched := fun d hd w => hL'.settled_launches d w (hL.completed d hd)
      final_state := fun d hd => hL'.settled_state d (hL.completed d hd)
      launched_once := hL'.ledger.launches_nodup
      launch_messages := hL'.ledger.launch_sent }

/-- A driver is submitted and launched on the one worker. -/
theorem Master.driver_lifecycle_launched :
    ∃ s : MasterState, s.launches = [(0, 0)] ∧ DriverLifecycle s s := by
  have safe : ∀ {s : MasterState} {m : Message}, SubmitsFresh s m → s.waitingDrivers = [] →
      LifecycleSafe default s m := fun hfresh hw => ⟨hfresh, by simp [hw]⟩
  have h1 : ReflTransGen LifecycleStep { persistenceEngine := .blackHole }
      (afterMessages .blackHole []) :=
    .single ⟨default, .electedLeader [], rfl, safe trivial rfl, rfl⟩
  have h2 := h1.tail ⟨default, .registerWorker "w1" "host" 1 "host:1" "moonbox@host:1", trivial,
    safe trivial (by decide), rfl⟩
  have h3 := h2.tail ⟨default, .requestSubmitDriver "a" default, trivial,
    safe (fun _ => by decide) (by decide), rfl⟩
  exact ⟨_, by decide, Master.driver_lifecycle h3 .refl⟩

/-- Not so in every run: a second submission of an id that is in use takes the place of the first
driver in the map of the worker, and a driver that is removed while it waits stays in the queue. -/
theorem Master.driver_lifecycle_fails :
    (∃ s, Reachable .blackHole s ∧ ¬ DriverLifecycle s s) ∧
      ∃ s, Reachable .blackHole s ∧ ∃ d ∈ s.completedDrivers, d ∈ s.waitingDrivers := by
  constructor
  · refine ⟨_, reachable_afterMessages .blackHole
      [.registerWorker "w1" "host" 1 "host:1" "moonbox@host:1", .requestSubmitDriver "a" default,
        .requestSubmitDriver "a" default] (by simp), fun h => ?_⟩
    exact absurd (h.held 0 0 (by decide) (by decide)) (by decide)
  · refine ⟨_, reachable_afterMessages .blackHole
      [.requestSubmitDriver "a" default, .driverStateChanged ⟨"a", .finished, none, none, 0⟩]
      (by simp), 0, by decide, by decide⟩

end Moonbox.Deploy
