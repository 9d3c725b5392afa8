import Moonbox.Deploy.Ledger

/-!
# Drivers the master can reach

A driver that is not completed waits in the queue or is known to the registered worker it was
given to. While the master recovers it may also be unclaimed, and completing the recovery is the one
place where nobody looks after such a driver. A driver whose removal is due, because its worker is
being forgotten or because a kill request took it out of the queue, is not looked at.
-/

namespace Moonbox.Deploy

open Actor Handler Relation Master MasterState

/-! ### The invariant -/

/-- The driver has a worker that is registered and has it in its map. -/
def Located (s : MasterState) (d : DriverRef) : Prop :=
  ∃ w, (s.driver d).worker = some w ∧ s.IsMember w ∧
    (s.worker w).drivers.lookup (s.driver d).id = some d

/-- Every driver in `drivers` has been claimed by some worker. -/
def Claimed (s : MasterState) : Prop := ∀ d ∈ s.drivers, (s.driver d).worker ≠ none

structure Placement (due : Set String) (s : MasterState) : Prop where
  ledger : Ledger s
  placed : ∀ d ∈ s.drivers, d ∈ s.waitingDrivers ∨ (s.driver d).id ∈ due ∨ Located s d ∨
    s.state ≠ .active ∧ (s.driver d).worker = none
  /-- What waits under the id of a driver is launched before it. -/
  queue : ∀ d ∈ s.drivers, ∀ e ∈ s.waitingDrivers, (s.driver e).id = (s.driver d).id → e ≠ d →
    [e, d].Sublist s.waitingDrivers ∨ (s.driver d).id ∈ due
  claimed : s.state = .completingRecovery → Claimed s

lemma Located.transfer {s s' : MasterState} {d : DriverRef} (h : Located s d)
    (hid : (s'.driver d).id = (s.driver d).id)
    (hworker : (s'.driver d).worker = (s.driver d).worker)
    (hmember : ∀ w, s.IsMember w → s'.IsMember w)
    (hmap : ∀ w, s.IsMember w → (s.worker w).drivers.lookup (s.driver d).id = some d →
      (s'.worker w).drivers.lookup (s.driver d).id = some d) : Located s' d := by
  obtain ⟨w, hw, hm, hl⟩ := h
  exact ⟨w, hworker.trans hw, hmember w hm, by rw [hid, hmap w hm hl]⟩

namespace Placement

variable {s s' : MasterState} {due due' : Set String}

/-- Changes that leave the queue alone. -/
lemma keep (h : Placement due s) (hl : Ledger s') (hstate : s'.state = s.state)
    (hdrivers : s'.drivers ⊆ s.drivers) (hwaiting : s'.waitingDrivers = s.waitingDrivers)
    (hid : ∀ d, (s'.driver d).id = (s.driver d).id)
    (hdue : ∀ d ∈ s'.drivers, (s.driver d).id ∈ due → (s.driver d).id ∈ due')
    (hloc : ∀ d ∈ s'.drivers, Located s d → Located s' d ∨ (s.driver d).id ∈ due')
    (hnone : ∀ d ∈ s'.drivers, (s.driver d).worker = none →
      (s'.driver d).worker = none ∨ Located s' d)
    (hsome : ∀ d ∈ s'.drivers, (s.driver d).worker ≠ none → (s'.driver d).worker ≠ none) :
    Placement due' s' where
  ledger := hl
  placed d hd := by
    rw [hwaiting, hid, hstate]
    rcases h.placed d (hdrivers hd) with hw | hw | hw | ⟨hs, hw⟩
    · exact Or.inl hw
    · exact Or.inr (Or.inl (hdue d hd hw))
    · exact Or.inr ((hloc d hd hw).elim (fun hc => Or.inr (Or.inl hc)) Or.inl)
    · exact Or.inr (Or.inr ((hnone d hd hw).elim (fun hc => Or.inr ⟨hs, hc⟩) Or.inl))
  queue d hd e he hde hne := by
    rw [hid, hid] at hde
    rw [hwaiting] at he ⊢
    rw [hid]
    exact (h.queue d (hdrivers hd) e he hde hne).imp_right (hdue d hd)
  claimed hs d hd := hsome d hd (h.claimed (hstate ▸ hs) d (hdrivers hd))

/-- Changes that leave the drivers and their ids alone. -/
lemma keep_drivers (h : Placement due s) (hl : Ledger s') (hstate : s'.state = s.state)
    (hdrivers : s'.drivers = s.drivers) (hwaiting : s'.waitingDrivers = s.waitingDrivers)
    (hid : ∀ d, (s'.driver d).id = (s.driver d).id)
    (hworker : ∀ d, (s'.driver d).worker = (s.driver d).worker)
    (hmember : ∀ w, s.IsMember w → s'.IsMember w)
    (hmap : ∀ w, s.IsMember w → (s'.worker w).drivers = (s.worker w).drivers) :
    Placement due s' := by
  refine h.keep hl hstate (hdrivers ▸ List.Subset.refl _) hwaiting hid (fun _ _ hd => hd)
    (fun d _ hd => Or.inl ?_) (fun d _ hd => Or.inl ?_) fun d _ hd => ?_
  · exact hd.transfer (hid d) (hworker d) hmember fun w hm hl => hmap w hm ▸ hl
  · rw [hworker, hd]
  · rwa [hworker]

/-- Launching the head of the queue. -/
lemma launch (h : Placement due s) {w : WorkerRef} {d : DriverRef} {rest : List DriverRef}
    (hs : s.state = .active) (hw : w ∈ s.workers) (ha : (s.worker w).state = .alive)
    (hd : s.waitingDrivers = d :: rest) : Placement due (launchNext w d s) := by
  have hwait : (launchNext w d s).waitingDrivers = rest := by
    rw [launchNext_waitingDrivers, hd, List.erase_cons_head]
  have hid : ∀ e, ((launchNext w d s).driver e).id = (s.driver e).id :=
    (OnlyRemoves.launchNext w d s).id
  have hn := h.ledger.waiting_nodup
  rw [hd, List.nodup_cons] at hn
  have hmember : ∀ v, s.IsMember v → (launchNext w d s).IsMember v := by
    intro v hv
    refine ⟨by simpa using hv.1, ?_⟩
    rw [launchNext_worker]
    split
    · rename_i hvw
      rw [← hvw]
      exact hv.2
    · exact hv.2
  have hlookup : ∀ v i, ((launchNext w d s).worker v).drivers.lookup i =
      if v = w ∧ i = (s.driver d).id then some d else (s.worker v).drivers.lookup i := by
    intro v i
    rw [launchNext_worker]
    by_cases hv : v = w
    · subst hv
      simp [WorkerInfo.lookup_addDriver]
    · simp [hv]
  constructor
  · exact h.ledger.launch hw hd hs
  · intro x hx
    rw [launchNext_drivers] at hx
    rw [hwait, hid, launchNext_state]
    by_cases hxd : x = d
    · subst hxd
      refine Or.inr (Or.inr (Or.inl ⟨w, ?_, hmember w ⟨hw, by simp [ha]⟩, ?_⟩))
      · simp
      · rw [hid, hlookup, if_pos ⟨rfl, rfl⟩]
    rcases h.placed x hx with hw' | hw' | hw' | ⟨hs', -⟩
    · rw [hd, List.mem_cons] at hw'
      exact Or.inl (hw'.resolve_left hxd)
    · exact Or.inr (Or.inl hw')
    · -- a driver that shares the id of the head waits or is due
      by_cases hix : (s.driver d).id = (s.driver x).id
      · rcases h.queue x hx d (hd ▸ List.mem_cons_self) hix (Ne.symm hxd) with hq | hq
        · rw [hd, List.cons_sublist_cons, List.singleton_sublist] at hq
          exact Or.inl hq
        · exact Or.inr (Or.inl hq)
      · refine Or.inr (Or.inr (Or.inl (hw'.transfer (hid x) ?_ hmember fun v _ hl => ?_)))
        · rw [launchNext_driver, if_neg hxd]
        · rw [hlookup, if_neg, hl]
          exact fun hc => hix hc.2.symm
    · exact absurd hs hs'
  · intro x hx e he hex hne
    rw [launchNext_drivers] at hx
    rw [hid, hid] at hex
    rw [hwait] at he ⊢
    rw [hid]
    rcases h.queue x hx e (hd ▸ List.mem_cons_of_mem _ he) hex hne with hq | hq
    · rw [hd] at hq
      refine Or.inl ((List.sublist_cons_iff.mp hq).resolve_right ?_)
      rintro ⟨r, hr, -⟩
      rw [List.cons.injEq] at hr
      exact hn.1 (hr.1 ▸ he)
    · exact Or.inr hq
  · rw [launchNext_state]
    exact fun hc => by simp [hs] at hc

/-- A driver leaves `drivers`. -/
lemma complete {d : DriverRef} (h : Placement (insert (s.driver d).id due) s) (hd : d ∈ s.drivers) :
    Placement due (completeDriver d s) := by
  refine h.keep (h.ledger.complete d) rfl (List.filter_subset_self _) rfl (fun _ => rfl)
    (fun e he hdue => hdue.resolve_left fun hc => ?_) (fun _ _ hl => Or.inl hl)
    (fun _ _ hn => Or.inl hn) fun _ _ hn => hn
  obtain ⟨he, hne⟩ := List.mem_filter.mp he
  simp [h.ledger.id_injective e he d hd hc] at hne

lemma finish (h : Placement due s) {d : DriverRef} (change : DriverStateChanged)
    (hd : ∀ e ∈ s.drivers, (s.driver e).id ≠ (s.driver d).id) :
    Placement due (finishDriver d change s) := by
  have hid : ∀ e, ((finishDriver d change s).driver e).id = (s.driver e).id :=
    (OnlyRemoves.finishDriver d change s).id
  have hworker : ∀ e, ((finishDriver d change s).driver e).worker = (s.driver e).worker := by
    intro e
    rw [finishDriver_driver]
    split
    · rename_i he
      rw [he]
    · rfl
  have hmember : ∀ v, s.IsMember v → (finishDriver d change s).IsMember v := fun v hv =>
    ((finishDriver_members d change s).isMember v).mpr hv
  refine h.keep (h.ledger.finish d change) (finishDriver_state d change s) ?_
    (finishDriver_waitingDrivers d change s) hid (fun _ _ hdue => hdue) (fun e he hl => ?_)
    (fun e _ hn => Or.inl ((hworker e).trans hn)) fun e _ hn => (hworker e).symm ▸ hn
  · rw [finishDriver_drivers]
    exact List.Subset.refl _
  · rw [finishDriver_drivers] at he
    refine Or.inl (hl.transfer (hid e) (hworker e) hmember fun w _ hlookup => ?_)
    rw [finishDriver_worker]
    split
    · rw [WorkerInfo.lookup_removeDriver, if_neg (hd e he), hlookup]
    · exact hlookup

/-- A forgotten worker's drivers are due. -/
lemma forget (h : Placement due s) (w : WorkerRef) :
    Placement (heldIds s w ∪ due) (forgetWorker w s) := by
  refine h.keep (h.ledger.forget w) rfl (List.Subset.refl _) rfl (fun _ => rfl)
    (fun _ _ hd => Or.inr hd) (fun d _ hl => ?_) (fun _ _ hn => Or.inl hn) fun _ _ hn => hn
  obtain ⟨v, hv, hm, hlookup⟩ := hl
  by_cases hvw : v = w
  · subst hvw
    exact Or.inr (Or.inl (mem_heldIds.mpr ⟨_, d, hlookup, rfl⟩))
  · refine Or.inl ⟨v, hv, (isMember_forgetWorker w s v).mpr ⟨hm, hvw⟩, ?_⟩
    rw [forgetWorker_drivers]
    exact hlookup

lemma assign (h : Placement due s) {w : WorkerRef} {d : DriverRef}
    (hl : Ledger (assignDriver w d s)) (hw : s.IsMember w) (hd : d ∈ s.drivers) :
    Placement due (assignDriver w d s) := by
  have hid : ∀ e, ((assignDriver w d s).driver e).id = (s.driver e).id := by
    intro e
    rw [assignDriver_driver]
    split
    · rename_i he
      rw [he]
    · rfl
  have hmember : ∀ v, s.IsMember v → (assignDriver w d s).IsMember v := fun v hv =>
    ((assignDriver_members w d s).isMember v).mpr hv
  have hself : Located (assignDriver w d s) d := by
    refine ⟨w, ?_, hmember w hw, ?_⟩
    · simp
    · rw [hid, assignDriver_worker, if_pos rfl, WorkerInfo.lookup_addDriver, if_pos rfl]
  have hworker : ∀ e, e ≠ d → ((assignDriver w d s).driver e).worker = (s.driver e).worker := by
    intro e he
    rw [assignDriver_driver, if_neg he]
  refine h.keep hl rfl (List.Subset.refl _) rfl hid (fun _ _ hdue => hdue) (fun e he hloc => ?_)
    (fun e _ hn => ?_) fun e _ hn => ?_
  · refine Or.inl ?_
    by_cases hed : e = d
    · exact hed ▸ hself
    · refine hloc.transfer (hid e) (hworker e hed) hmember fun v _ hlookup => ?_
      rw [assignDriver_worker]
      split
      · rename_i hv
        rw [WorkerInfo.lookup_addDriver, if_neg, ← hv, hlookup]
        exact fun hc => hed (h.ledger.id_injective e he d hd hc)
      · exact hlookup
  · by_cases hed : e = d
    · exact Or.inr (hed ▸ hself)
    · exact Or.inl ((hworker e hed).trans hn)
  · by_cases hed : e = d
    · simp [hed]
    · rwa [hworker e hed]

/-- Nothing to look after. -/
lemma of_nil (hl : Ledger s) (hd : s.drivers = []) : Placement due s where
  ledger := hl
  placed d hmem := by
    rw [hd] at hmem
    cases hmem
  queue d hmem := by
    rw [hd] at hmem
    cases hmem
  claimed _ d hmem := by
    rw [hd] at hmem
    cases hmem

/-- A new driver enters, at the end of the queue or, during recovery, unclaimed. -/
lemma enter (h : Placement due s) {record : DriverRecord} {now : Nat} {waiting : List DriverRef}
    (hl : Ledger { enterDriver s.nextDriver (allocDriver (.init record now) s) with
      waitingDrivers := waiting })
    (hwaiting : waiting = s.waitingDrivers ++ [s.nextDriver] ∨
      waiting = s.waitingDrivers ∧ s.waitingDrivers = [] ∧ s.state = .recovering)
    (hs : s.state ≠ .completingRecovery)
    (hfresh : ∀ d ∈ s.drivers, (s.driver d).id ≠ record.id) :
    Placement due { enterDriver s.nextDriver (allocDriver (.init record now) s) with
      waitingDrivers := waiting } := by
  have hold : ∀ d, d < s.nextDriver →
      Function.update s.driver s.nextDriver (DriverInfo.init record now) d = s.driver d :=
    fun d hd => Function.update_of_ne (Nat.ne_of_lt hd) _ _
  have hnew : Function.update s.driver s.nextDriver (DriverInfo.init record now) s.nextDriver =
      .init record now := Function.update_self _ _ _
  have hsub : ∀ d ∈ s.waitingDrivers, d ∈ waiting := by
    intro d hd
    rcases hwaiting with rfl | ⟨rfl, -⟩
    · exact List.mem_append_left _ hd
    · exact hd
  constructor
  · exact hl
  · intro d hd
    change d ∈ waiting ∨ (Function.update s.driver s.nextDriver (.init record now) d).id ∈ due ∨
      Located _ d ∨ s.state ≠ .active ∧
        (Function.update s.driver s.nextDriver (.init record now) d).worker = none
    rcases List.mem_insert_iff.mp hd with rfl | hd
    · rcases hwaiting with rfl | ⟨-, -, hrec⟩
      · exact Or.inl (List.mem_append_right _ (List.mem_singleton_self _))
      · refine Or.inr (Or.inr (Or.inr ⟨by simp [hrec], ?_⟩))
        rw [hnew]
        rfl
    · have hlt := h.ledger.driver_lt d hd
      rw [hold d hlt]
      rcases h.placed d hd with hw | hw | hw | hw
      · exact Or.inl (hsub d hw)
      · exact Or.inr (Or.inl hw)
      · refine Or.inr (Or.inr (Or.inl (hw.transfer ?_ ?_ (fun _ hm => hm) fun _ _ hl => hl)))
        · exact congrArg (fun i : DriverInfo => i.id) (hold d hlt)
        · exact congrArg DriverInfo.worker (hold d hlt)
      · exact Or.inr (Or.inr (Or.inr hw))
  · intro d hd e he hde hne
    change (Function.update s.driver s.nextDriver (DriverInfo.init record now) e).id =
      (Function.update s.driver s.nextDriver (DriverInfo.init record now) d).id at hde
    change [e, d].Sublist waiting ∨
      (Function.update s.driver s.nextDriver (DriverInfo.init record now) d).id ∈ due
    have he' : e ∈ waiting := he
    rcases hwaiting with rfl | ⟨rfl, hnil, -⟩
    · rcases List.mem_append.mp he' with he' | he'
      · rcases List.mem_insert_iff.mp hd with rfl | hd
        · refine Or.inl ?_
          rw [show [e, s.nextDriver] = [e] ++ [s.nextDriver] from rfl]
          exact (List.singleton_sublist.mpr he').append (List.Sublist.refl _)
        · rw [hold d (h.ledger.driver_lt d hd)] at hde ⊢
          rw [hold e (h.ledger.waiting_lt e he')] at hde
          exact (h.queue d hd e he' hde hne).imp_left fun hq =>
            hq.trans (List.sublist_append_left _ _)
      · rw [List.mem_singleton] at he'
        subst he'
        rcases List.mem_insert_iff.mp hd with rfl | hd
        · exact absurd rfl hne
        · rw [hnew, hold d (h.ledger.driver_lt d hd)] at hde
          exact absurd hde.symm (hfresh d hd)
    · rw [hnil] at he'
      cases he'
  · exact fun hc => absurd hc hs

lemma dequeue (h : Placement due s) {d : DriverRef} (hl : Ledger (dequeueDriver d s)) :
    Placement (insert (s.driver d).id due) (dequeueDriver d s) := by
  constructor
  · exact hl
  · intro e he
    change e ∈ s.waitingDrivers.erase d ∨ _
    by_cases hed : e = d
    · exact Or.inr (Or.inl (hed ▸ Set.mem_insert _ _))
    rcases h.placed e he with hw | hw | hw | hw
    · exact Or.inl ((List.mem_erase_of_ne hed).mpr hw)
    · exact Or.inr (Or.inl (Or.inr hw))
    · exact Or.inr (Or.inr (Or.inl hw))
    · exact Or.inr (Or.inr (Or.inr hw))
  · intro x hx e he hex hne
    change [e, x].Sublist (s.waitingDrivers.erase d) ∨ _
    have hemem : e ∈ s.waitingDrivers.erase d := he
    by_cases hxd : x = d
    · exact Or.inr (Or.inl (hxd ▸ rfl))
    have hed : e ≠ d := fun hc => h.ledger.waiting_nodup.not_mem_erase (hc ▸ hemem)
    rcases h.queue x hx e (List.mem_of_mem_erase hemem) hex hne with hq | hq
    · have herase := hq.erase d
      rw [List.erase_of_not_mem] at herase
      · exact Or.inl herase
      · simp [Ne.symm hed, Ne.symm hxd]
    · exact Or.inr (Or.inr hq)
  · exact h.claimed

lemma setState (h : Placement due s) {state : RecoveryState}
    (hl : Ledger { s with state := state })
    (hactive : state = .active → s.state ≠ .active → Claimed s)
    (hclaimed : state = .completingRecovery → Claimed s) :
    Placement due { s with state := state } where
  ledger := hl
  placed d hd := by
    rcases h.placed d hd with hw | hw | hw | ⟨hs, hw⟩
    · exact Or.inl hw
    · exact Or.inr (Or.inl hw)
    · exact Or.inr (Or.inr (Or.inl hw))
    · exact Or.inr (Or.inr (Or.inr ⟨fun hc => hactive hc hs d hd hw, hw⟩))
  queue := h.queue
  claimed := hclaimed

/-- Completing the recovery is safe once every driver has been claimed. -/
lemma rule (Lost : WorkerRef → Prop) (base : Set String) :
    MemberRule Lost Claimed base Placement := by
  have ledger := Ledger.rule Lost Claimed base
  constructor
  case toDriverRule =>
    constructor
    case frame =>
      intro due s s' h k
      refine h.keep_drivers (h.ledger.frame k) k.state k.drivers k.waitingDrivers
        (fun d => by rw [k.driver]) (fun d => by rw [k.driver]) (fun w hw => ?_)
        fun w _ => k.workerDrivers w
      exact ⟨k.workers ▸ hw.1, k.workerState w ▸ hw.2⟩
    case send =>
      intro due s receiver message h hm
      exact h.keep_drivers (h.ledger.send receiver hm) rfl rfl rfl (fun _ => rfl) (fun _ => rfl)
        (fun _ hw => hw) fun _ _ => rfl
    case launch => exact fun h hs hw ha hd => h.launch hs hw ha hd
    case absent =>
      intro due s driverId h hd
      exact h.keep h.ledger rfl (List.Subset.refl _) rfl (fun _ => rfl)
        (fun d hmem hdue => hdue.resolve_left (hd d hmem)) (fun _ _ hl => Or.inl hl)
        (fun _ _ hn => Or.inl hn) fun _ _ hn => hn
    case complete => exact fun h hd => h.complete hd
    case remove =>
      intro due s d change h hd
      refine (h.complete hd).finish change fun e he hc => ?_
      obtain ⟨he, hne⟩ := List.mem_filter.mp he
      simp [h.ledger.id_injective e he d hd hc] at hne
    case forget => exact fun h _ => h.forget _
  case standby => exact fun h => h.ledger.standby
  case idle => exact fun h _ hd => of_nil h.ledger hd
  case allocWorker =>
    intro s record now h
    have hne : ∀ w, s.IsMember w → w ≠ s.nextWorker := fun w hw =>
      Nat.ne_of_lt (h.ledger.worker_lt w hw.1)
    refine h.keep_drivers (ledger.allocWorker record now h.ledger) rfl rfl rfl (fun _ => rfl)
      (fun _ => rfl) (fun w hw => ⟨hw.1, ?_⟩) fun w hw => ?_
    · simp only [Master.allocWorker, Function.update_of_ne (hne w hw)]
      exact hw.2
    · simp only [Master.allocWorker, Function.update_of_ne (hne w hw)]
  case dropDead =>
    intro s w h
    refine h.keep_drivers (ledger.dropDead w h.ledger) rfl rfl rfl (fun _ => rfl) (fun _ => rfl)
      (fun v hv => ⟨List.mem_filter.mpr ⟨hv.1, ?_⟩, hv.2⟩) fun _ _ => rfl
    simp [hv.2]
  case enter =>
    intro s w h hw
    exact h.keep_drivers (ledger.enter h.ledger hw) rfl rfl rfl (fun _ => rfl) (fun _ => rfl)
      (fun v hv => ⟨List.mem_insert_of_mem hv.1, hv.2⟩) fun _ _ => rfl
  case setState =>
    intro s w state h hstate
    refine h.keep_drivers (ledger.setState w h.ledger hstate) rfl rfl rfl (fun _ => rfl)
      (fun _ => rfl) (fun v hv => ⟨hv.1, ?_⟩) fun v _ => setState_drivers w v s state
    rw [updateWorker_worker]
    split
    · exact hstate
    · exact hv.2
  case expire =>
    intro s w h hw
    refine h.keep_drivers (ledger.expire h.ledger hw) rfl rfl rfl (fun _ => rfl) (fun _ => rfl)
      (fun v hv => ⟨List.mem_filter.mpr ⟨hv.1, ?_⟩, hv.2⟩) fun _ _ => rfl
    simpa using fun hc : v = w => hv.2 (hc ▸ hw)
  case claim => exact fun h hw hd hlost => h.assign (ledger.claim h.ledger hw hd hlost) hw hd
  case change =>
    intro s d change h hd
    have hdriver : ∀ e, (changeDriver d change s).driver e = if e = d then { s.driver d with
        state := change.state, updateTime := change.time, appId := change.appId }
        else s.driver e := fun e => updateDriver_driver s d _ e
    refine h.keep_drivers (ledger.change change h.ledger hd) rfl rfl rfl (fun e => ?_) (fun e => ?_)
      (fun _ hw => hw) fun _ _ => rfl
    · rw [hdriver]
      split
      · rename_i he
        rw [he]
      · rfl
    · rw [hdriver]
      split
      · rename_i he
        rw [he]
      · rfl
  case recover =>
    intro s record now h hs hfresh
    exact h.enter (ledger.recover record now h.ledger hs hfresh)
      (Or.inr ⟨rfl, h.ledger.idle (by simp [hs]), hs⟩) (by simp [hs]) hfresh
  case submit =>
    intro s record now h hs hfresh hlost
    exact h.enter (ledger.submit record now h.ledger hs hfresh hlost) (Or.inl rfl) (by simp [hs])
      hfresh
  case dequeue =>
    exact fun h hd hwait => h.dequeue (ledger.dequeue h.ledger hd hwait)
  case lead =>
    intro s state h hs hstate
    exact of_nil (ledger.lead h.ledger hs hstate) (h.ledger.standby hs)
  case begin =>
    intro s h hs hC
    exact h.setState (ledger.begin h.ledger hs hC) (fun hc => by cases hc) fun _ => hC
  case activate =>
    intro s h hs
    exact h.setState (ledger.activate h.ledger hs) (fun _ _ => h.claimed hs) fun hc => by cases hc
  case restart => exact fun h => of_nil h.ledger.restart rfl

end Placement

end Moonbox.Deploy
