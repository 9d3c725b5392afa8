import Moonbox.Deploy.DriverSteps

/-!
# The collections of drivers

What holds of `drivers`, `waitingDrivers` and the launches as long as no submission reuses the id
of a driver that is not yet completed.
-/

namespace Moonbox.Deploy

open Master MasterState

/-- References are old ones, ids are not shared, only an active master has drivers waiting, and no
driver is launched twice. -/
structure Ledger (s : MasterState) : Prop where
  worker_lt : ∀ w ∈ s.workers, w < s.nextWorker
  driver_lt : ∀ d ∈ s.drivers, d < s.nextDriver
  drivers_nodup : s.drivers.Nodup
  waiting_lt : ∀ d ∈ s.waitingDrivers, d < s.nextDriver
  waiting_nodup : s.waitingDrivers.Nodup
  id_injective : ∀ d ∈ s.drivers, ∀ e ∈ s.drivers, (s.driver d).id = (s.driver e).id → d = e
  idle : s.state ≠ .active → s.waitingDrivers = []
  standby : s.state = .standby → s.drivers = []
  launch_lt : ∀ d w, (d, w) ∈ s.launches → d < s.nextDriver ∧ w < s.nextWorker
  launched : ∀ d w, (d, w) ∈ s.launches → d ∉ s.waitingDrivers
  launches_nodup : (s.launches.map Prod.fst).Nodup
  launch_sent : s.sent.filterMap Envelope.launchedId = s.launches.map fun p => (s.driver p.1).id

namespace Ledger

variable {s s' : MasterState}

lemma init (engine : PersistenceEngine) : Ledger { persistenceEngine := engine } where
  worker_lt := by simp
  driver_lt := by simp
  drivers_nodup := by simp
  waiting_lt := by simp
  waiting_nodup := by simp
  id_injective := by simp
  idle := by simp
  standby := by simp
  launch_lt := by simp
  launched := by simp
  launches_nodup := by simp
  launch_sent := by simp

/-- The ledger survives what only takes drivers and workers out. -/
lemma mono (h : Ledger s) (hstate : s'.state = s.state) (hworkers : s'.workers ⊆ s.workers)
    (hnextWorker : s.nextWorker ≤ s'.nextWorker) (hdrivers : s'.drivers.Sublist s.drivers)
    (hwaiting : s'.waitingDrivers.Sublist s.waitingDrivers)
    (hnextDriver : s'.nextDriver = s.nextDriver)
    (hid : ∀ d, (s'.driver d).id = (s.driver d).id) (hlaunches : s'.launches = s.launches)
    (hsent : s'.sent.filterMap Envelope.launchedId = s.sent.filterMap Envelope.launchedId) :
    Ledger s' where
  worker_lt w hw := Nat.lt_of_lt_of_le (h.worker_lt w (hworkers hw)) hnextWorker
  driver_lt d hd := hnextDriver ▸ h.driver_lt d (hdrivers.subset hd)
  drivers_nodup := h.drivers_nodup.sublist hdrivers
  waiting_lt d hd := hnextDriver ▸ h.waiting_lt d (hwaiting.subset hd)
  waiting_nodup := h.waiting_nodup.sublist hwaiting
  id_injective d hd e he hde :=
    h.id_injective d (hdrivers.subset hd) e (hdrivers.subset he) (by rw [← hid, ← hid, hde])
  idle hs := by
    have hw := h.idle (hstate ▸ hs)
    rw [hw] at hwaiting
    exact List.sublist_nil.mp hwaiting
  standby hs := by
    have hd := h.standby (hstate ▸ hs)
    exact List.eq_nil_of_subset_nil (hd ▸ hdrivers.subset)
  launch_lt d w hl := by
    obtain ⟨hd, hw⟩ := h.launch_lt d w (hlaunches ▸ hl)
    exact ⟨hnextDriver ▸ hd, Nat.lt_of_lt_of_le hw hnextWorker⟩
  launched d w hl hw := h.launched d w (hlaunches ▸ hl) (hwaiting.subset hw)
  launches_nodup := hlaunches ▸ h.launches_nodup
  launch_sent := by
    rw [hsent, h.launch_sent, hlaunches]
    exact List.map_congr_left fun p _ => (hid p.1).symm

lemma launch (h : Ledger s) {w : WorkerRef} {d : DriverRef} {rest : List DriverRef}
    (hw : w ∈ s.workers) (hd : s.waitingDrivers = d :: rest) (hs : s.state = .active) :
    Ledger (launchNext w d s) := by
  have hwait : (launchNext w d s).waitingDrivers = rest := by
    rw [launchNext_waitingDrivers, hd, List.erase_cons_head]
  have hn := h.waiting_nodup
  rw [hd, List.nodup_cons] at hn
  have hrest : ∀ e ∈ rest, e ∈ s.waitingDrivers := fun e he => hd ▸ List.mem_cons_of_mem _ he
  have hdw : d ∈ s.waitingDrivers := hd ▸ List.mem_cons_self
  have hid : ∀ e, ((launchNext w d s).driver e).id = (s.driver e).id :=
    (OnlyRemoves.launchNext w d s).id
  constructor
  · simpa using h.worker_lt
  · simpa using h.driver_lt
  · simpa using h.drivers_nodup
  · rw [hwait, launchNext_nextDriver]
    exact fun e he => h.waiting_lt e (hrest e he)
  · rw [hwait]
    exact hn.2
  · intro e he e' he' hee
    rw [launchNext_drivers] at he he'
    rw [hid, hid] at hee
    exact h.id_injective e he e' he' hee
  · rw [launchNext_state]
    exact fun hc => absurd hs hc
  · rw [launchNext_state, launchNext_drivers]
    exact h.standby
  · intro e v hl
    rw [launchNext_launches, List.mem_append, List.mem_singleton, Prod.mk.injEq] at hl
    rw [launchNext_nextDriver, launchNext_nextWorker]
    rcases hl with hl | ⟨rfl, rfl⟩
    · exact h.launch_lt e v hl
    · exact ⟨h.waiting_lt e hdw, h.worker_lt v hw⟩
  · intro e v hl
    rw [launchNext_launches, List.mem_append, List.mem_singleton, Prod.mk.injEq] at hl
    rw [hwait]
    rcases hl with hl | ⟨rfl, rfl⟩
    · exact fun he => h.launched e v hl (hrest e he)
    · exact hn.1
  · rw [launchNext_launches, List.map_append, List.nodup_append]
    refine ⟨h.launches_nodup, by simp, fun e he e' he' hee => ?_⟩
    obtain ⟨⟨e, v⟩, hl, rfl⟩ := List.mem_map.mp he
    simp only [List.map_cons, List.map_nil, List.mem_singleton] at he'
    have hed : e = d := hee.trans he'
    exact h.launched e v hl (hed ▸ hdw)
  · rw [launchNext_sent, launchNext_launches, List.filterMap_append, h.launch_sent, List.map_append]
    simp only [hid]
    rfl

/-- A new driver with an id of its own enters. -/
lemma enterDriver (h : Ledger s) {record : DriverRecord} (now : Nat)
    (hs : s.state ≠ .standby) (hid : ∀ d ∈ s.drivers, (s.driver d).id ≠ record.id) :
    Ledger (enterDriver s.nextDriver (allocDriver (.init record now) s)) := by
  have hne : ∀ d, d < s.nextDriver → d ≠ s.nextDriver := fun d hd => Nat.ne_of_lt hd
  have hold : ∀ d, d < s.nextDriver →
      (Function.update s.driver s.nextDriver (DriverInfo.init record now) d).id =
        (s.driver d).id := fun d hd => by rw [Function.update_of_ne (hne d hd)]
  have hnew : (Function.update s.driver s.nextDriver (DriverInfo.init record now)
      s.nextDriver).id = record.id := by
    rw [Function.update_self]
    rfl
  constructor
  · exact h.worker_lt
  · intro d hd
    rcases List.mem_insert_iff.mp hd with rfl | hd
    · exact Nat.lt_succ_self _
    · exact Nat.lt_succ_of_lt (h.driver_lt d hd)
  · exact h.drivers_nodup.insert
  · exact fun d hd => Nat.lt_succ_of_lt (h.waiting_lt d hd)
  · exact h.waiting_nodup
  · intro d hd e he hde
    change (Function.update s.driver s.nextDriver (DriverInfo.init record now) d).id =
      (Function.update s.driver s.nextDriver (DriverInfo.init record now) e).id at hde
    rcases List.mem_insert_iff.mp hd with rfl | hd
    · rcases List.mem_insert_iff.mp he with rfl | he
      · rfl
      · rw [hnew, hold e (h.driver_lt e he)] at hde
        exact absurd hde.symm (hid e he)
    · rcases List.mem_insert_iff.mp he with rfl | he
      · rw [hnew, hold d (h.driver_lt d hd)] at hde
        exact absurd hde (hid d hd)
      · rw [hold d (h.driver_lt d hd), hold e (h.driver_lt e he)] at hde
        exact h.id_injective d hd e he hde
  · exact h.idle
  · exact fun hc => absurd hc hs
  · exact fun d w hl => ⟨Nat.lt_succ_of_lt (h.launch_lt d w hl).1, (h.launch_lt d w hl).2⟩
  · exact h.launched
  · exact h.launches_nodup
  · refine h.launch_sent.trans (List.map_congr_left fun p hp => ?_)
    exact (hold p.1 (h.launch_lt p.1 p.2 hp).1).symm

lemma submit (h : Ledger s) {record : DriverRecord} {now : Nat} (hs : s.state = .active)
    (hid : ∀ d ∈ s.drivers, (s.driver d).id ≠ record.id) :
    Ledger (enqueueDriver s.nextDriver (allocDriver (.init record now) s)) := by
  have h' := h.enterDriver now (by simp [hs]) hid
  exact
    { worker_lt := h'.worker_lt
      driver_lt := h'.driver_lt
      drivers_nodup := h'.drivers_nodup
      waiting_lt := fun d hd => by
        rcases List.mem_append.mp hd with hd | hd
        · exact h'.waiting_lt d hd
        · rw [List.mem_singleton.mp hd]
          exact Nat.lt_succ_self _
      waiting_nodup := by
        refine List.nodup_append.mpr ⟨h.waiting_nodup, by simp, fun d hd e he => ?_⟩
        rw [List.mem_singleton.mp he]
        exact Nat.ne_of_lt (h.waiting_lt d hd)
      id_injective := h'.id_injective
      idle := fun hc => absurd hs hc
      standby := h'.standby
      launch_lt := h'.launch_lt
      launched := fun d w hl hd => by
        rcases List.mem_append.mp hd with hd | hd
        · exact h.launched d w hl hd
        · rw [List.mem_singleton.mp hd] at hl
          exact Nat.lt_irrefl _ (h.launch_lt _ w hl).1
      launches_nodup := h.launches_nodup
      launch_sent := h'.launch_sent }

lemma setState (h : Ledger s) {state : RecoveryState}
    (hidle : state ≠ .active → s.waitingDrivers = [])
    (hstandby : state = .standby → s.drivers = []) : Ledger { s with state := state } :=
  ⟨h.worker_lt, h.driver_lt, h.drivers_nodup, h.waiting_lt, h.waiting_nodup, h.id_injective, hidle, hstandby,
    h.launch_lt, h.launched, h.launches_nodup, h.launch_sent⟩

lemma restart (h : Ledger s) : Ledger s.restart where
  worker_lt := by simp [MasterState.restart]
  driver_lt := by simp [MasterState.restart]
  drivers_nodup := by simp [MasterState.restart]
  waiting_lt := by simp [MasterState.restart]
  waiting_nodup := by simp [MasterState.restart]
  id_injective := by simp [MasterState.restart]
  idle := by simp [MasterState.restart]
  standby := by simp [MasterState.restart]
  launch_lt := h.launch_lt
  launched := by simp [MasterState.restart]
  launches_nodup := h.launches_nodup
  launch_sent := h.launch_sent

lemma frame (h : Ledger s) (k : DriversKept s s') : Ledger s' :=
  h.mono k.state (k.workers ▸ List.Subset.refl _) (Nat.le_of_eq k.nextWorker.symm)
    (k.drivers ▸ List.Sublist.refl _) (k.waitingDrivers ▸ List.Sublist.refl _) k.nextDriver
    (fun d => by rw [k.driver]) k.launches (by rw [k.sent])

lemma send (h : Ledger s) (receiver : ActorRef) {message : Outgoing}
    (hm : ∀ driverId desc, message ≠ .launchDriver driverId desc) :
    Ledger (s.send receiver message) := by
  refine h.mono rfl (List.Subset.refl _) le_rfl (List.Sublist.refl _) (List.Sublist.refl _) rfl
    (fun _ => rfl) rfl ?_
  have hnone : Envelope.launchedId ⟨receiver, message⟩ = none := by
    cases message <;> simp_all [Envelope.launchedId]
  simp [MasterState.send, hnone]

lemma complete (h : Ledger s) (d : DriverRef) : Ledger (completeDriver d s) :=
  h.mono rfl (List.Subset.refl _) le_rfl List.filter_sublist (List.Sublist.refl _) rfl
    (fun _ => rfl) rfl rfl

lemma finish (h : Ledger s) (d : DriverRef) (change : DriverStateChanged) :
    Ledger (finishDriver d change s) := by
  refine h.mono (by simp) ?_ (by simp) ?_ ?_ (by simp) (fun e => ?_) (by simp) (by simp)
  · rw [finishDriver_workers]
    exact List.Subset.refl _
  · rw [finishDriver_drivers]
  · rw [finishDriver_waitingDrivers]
  · exact (OnlyRemoves.finishDriver d change s).id e

lemma forget (h : Ledger s) (w : WorkerRef) : Ledger (forgetWorker w s) :=
  h.mono rfl (List.Subset.refl _) le_rfl (List.Sublist.refl _) (List.Sublist.refl _) rfl
    (fun _ => rfl) rfl rfl

/-- The ledger is kept by every change. -/
lemma rule (Lost : WorkerRef → Prop) (Complete : MasterState → Prop) (base : Set String) :
    MemberRule Lost Complete base fun _ => Ledger where
  frame h k := h.frame k
  send receiver _ h hm := h.send receiver hm
  launch h hs hw _ hd := h.launch hw hd hs
  absent h _ := h
  complete h _ := h.complete _
  remove change h _ := (h.complete _).finish _ change
  forget h _ := h.forget _
  standby h := h.standby
  idle h _ _ := h
  allocWorker _ _ h := h.mono rfl (List.Subset.refl _) (Nat.le_succ _) (List.Sublist.refl _)
    (List.Sublist.refl _) rfl (fun _ => rfl) rfl rfl
  dropDead _ h := h.mono rfl (List.filter_subset_self _) le_rfl (List.Sublist.refl _)
    (List.Sublist.refl _) rfl (fun _ => rfl) rfl rfl
  enter {_ w} h hw :=
    ⟨fun v hv => (List.mem_insert_iff.mp hv).elim (fun he => he ▸ hw) (h.worker_lt v),
      h.driver_lt, h.drivers_nodup, h.waiting_lt, h.waiting_nodup, h.id_injective, h.idle, h.standby, h.launch_lt,
      h.launched, h.launches_nodup, h.launch_sent⟩
  setState _ _ h _ := h.mono rfl (List.Subset.refl _) le_rfl (List.Sublist.refl _)
    (List.Sublist.refl _) rfl (fun _ => rfl) rfl rfl
  expire h _ := h.mono rfl (List.filter_subset_self _) le_rfl (List.Sublist.refl _)
    (List.Sublist.refl _) rfl (fun _ => rfl) rfl rfl
  claim {s w d} h _ _ _ := by
    refine h.mono rfl (List.Subset.refl _) le_rfl (List.Sublist.refl _) (List.Sublist.refl _) rfl
      (fun e => ?_) rfl rfl
    rw [assignDriver_driver]
    split
    · rename_i he
      rw [he]
    · rfl
  change {s d} change h _ := by
    refine h.mono rfl (List.Subset.refl _) le_rfl (List.Sublist.refl _) (List.Sublist.refl _) rfl
      (fun e => ?_) rfl rfl
    rw [changeDriver, updateDriver_driver]
    split
    · rename_i he
      rw [he]
    · rfl
  recover _ now h hs hid := h.enterDriver now (by simp [hs]) hid
  submit _ _ h hs hid _ := h.submit hs hid
  dequeue h _ _ := h.mono rfl (List.Subset.refl _) le_rfl (List.Sublist.refl _) List.erase_sublist
    rfl (fun _ => rfl) rfl rfl
  lead {_ state} h hs hstate := by
    refine h.setState (fun _ => h.idle (by simp [hs])) fun hc => ?_
    rcases hstate with rfl | rfl <;> cases hc
  begin h hs _ := h.setState (fun _ => h.idle (by simp [hs])) fun hc => by cases hc
  activate h hs := h.setState (fun hc => absurd rfl hc) fun hc => by cases hc
  restart h := h.restart

end Ledger

end Moonbox.Deploy
