import Moonbox.Deploy.Orphans

/-!
# Runs without orphans

A driver is orphaned when the recovery is completed before a worker has claimed it, or when another
driver with its id is submitted. In a run without such steps every driver stays within reach of
the master, and so of a kill request. The notice by which a kill request removes a waiting driver is
a message of the master to itself: a run keeps the notices that are still on their way.
-/

namespace Moonbox.Deploy

open Actor Handler Relation Master MasterState

/-! ### Completing the recovery -/

lemma canCompleteRecovery_iff {s : MasterState} : canCompleteRecovery s ↔
    (∀ w ∈ s.workers, (s.worker w).state ≠ .unknown) ∧
      ∀ a ∈ s.apps, (s.app a).state ≠ .unknown := by
  simp [canCompleteRecovery, List.countP_eq_zero]

/-- The state with the answering worker alive. -/
def answered (workerId : String) (s : MasterState) : MasterState :=
  match s.idToWorker workerId with
  | some w => s.updateWorker w (·.setState .alive)
  | none => s

/-- The state without the members at an address. -/
def withoutAddress (remoteAddress : Address) (s : MasterState) : MasterState :=
  { s with
    workers := s.workers.filter fun w => s.addressToWorker remoteAddress ≠ some w
    apps := s.apps.filter fun a => s.addressToApp remoteAddress ≠ some a }

/-- A message that completes the recovery finds every driver claimed, or claims the last ones. -/
def ClaimsAll (s : MasterState) : Message → Prop
  | .completeRecovery => s.state = .recovering → Claimed s
  | .workerSchedulerStateResponse workerId driverIds =>
    s.state = .recovering → canCompleteRecovery (answered workerId s) →
      ∀ d ∈ s.drivers, (s.driver d).worker = none →
        (s.idToWorker workerId).isSome ∧ (s.driver d).id ∈ driverIds
  | .applicationStateResponse driverId =>
    s.state = .recovering → canCompleteRecovery (answeringApplication driverId s) → Claimed s
  | .disconnected remoteAddress =>
    s.state = .recovering → canCompleteRecovery (withoutAddress remoteAddress s) → Claimed s
  | _ => True

section

variable (env : Env) {s : MasterState}

lemma Claimed.of_onlyRemoves {s' : MasterState} (h : Claimed s) (k : OnlyRemoves s s') :
    Claimed s' := fun d hd => k.worker d (h d (k.drivers hd))

/-- After the claims of a worker what is still unclaimed was so before and is not in its list. -/
lemma claimDrivers_wp (hl : Ledger s) (w : WorkerRef) (driverIds : List String) :
    wp (forEach (claimDriver env w) driverIds)
      (fun _ s' => s'.drivers = s.drivers ∧ ∀ d ∈ s.drivers, (s'.driver d).worker = none →
        (s.driver d).worker = none ∧ (s.driver d).id ∉ driverIds) (fun _ => False) s := by
  refine wp_forEach (I := fun rest s' => s'.drivers = s.drivers ∧
    (∀ d, (s'.driver d).id = (s.driver d).id) ∧ ∀ d ∈ s.drivers, (s'.driver d).worker = none →
      (s.driver d).worker = none ∧ ((s.driver d).id ∈ driverIds → (s.driver d).id ∈ rest))
    ?_ (fun s' hI => ⟨hI.1, fun d hd hn => ?_⟩) driverIds s
    ⟨rfl, fun _ => rfl, fun _ _ hn => ⟨hn, fun hi => hi⟩⟩
  · rintro driverId rest s' ⟨hdrivers, hid, hn⟩
    rw [claimDriver, wp_bind]
    refine findDriver_wp env (fun hnot => ?_) fun d hd hdid => ?_
    · refine ⟨hdrivers, hid, fun d hd hnone => ⟨(hn d hd hnone).1, fun hi => ?_⟩⟩
      refine (List.mem_cons.mp ((hn d hd hnone).2 hi)).resolve_left fun hc => ?_
      exact hnot d (hdrivers.symm ▸ hd) ((hid d).trans hc)
    · have hdriver : ∀ e, (assignDriver w d { s' with draws := s'.draws + 1 }).driver e =
          if e = d then { s'.driver d with worker := some w, state := .running }
          else s'.driver e := fun e => assignDriver_driver w d e _
      refine ⟨hdrivers, fun e => ?_, fun e he hnone => ?_⟩
      · rw [hdriver]
        split
        · rename_i hed
          rw [hed, ← hid]
        · exact hid e
      · rw [hdriver] at hnone
        split at hnone
        · cases hnone
        · rename_i hed
          refine ⟨(hn e he hnone).1, fun hi => ?_⟩
          refine (List.mem_cons.mp ((hn e he hnone).2 hi)).resolve_left fun hc => hed ?_
          rw [hid] at hdid
          exact hl.id_injective e he d (hdrivers ▸ hd) (hc.trans hdid.symm)
  · obtain ⟨hnone, hi⟩ := hI.2.2 d hd hn
    exact ⟨hnone, fun hc => by simpa using hi hc⟩

lemma claimsAll_response (hl : Ledger s) {workerId : String} {driverIds : List String}
    (h : ClaimsAll s (.workerSchedulerStateResponse workerId driverIds)) :
    CompletesIn Claimed env s (.workerSchedulerStateResponse workerId driverIds) := by
  simp only [CompletesIn, answeringWorker, wp_bind, wp_get]
  simp only [ClaimsAll, answered] at h
  split
  · rename_i w hw
    simp only [hw, Option.isSome_some, true_and] at h
    simp only [wp_bind, wp_modify]
    have hl' : Ledger (s.updateWorker w (·.setState .alive)) :=
      (Ledger.rule (fun _ => True) (fun _ => True) ∅).setState w hl (by simp)
    refine wp_mono (wp_and (claimDrivers_wp env hl' w driverIds)
      ((Keeps.forEach (claimDriver_keeps env w) driverIds).wp _)) ?_ fun _ _ => trivial
    rintro _ s' ⟨⟨hdrivers, hn⟩, k⟩ hs hcan d hd hnone
    obtain ⟨hnone', hi⟩ := hn d (hdrivers ▸ hd) hnone
    refine hi (h (k.state ▸ hs) ?_ d (hdrivers ▸ hd) hnone')
    rw [canCompleteRecovery_iff] at hcan ⊢
    rw [k.workers, k.apps, k.app] at hcan
    exact ⟨fun v hv => k.workerState v ▸ hcan.1 v hv, hcan.2⟩
  · rename_i hw
    simp only [hw, Option.isSome_none, Bool.false_eq_true, false_and] at h
    exact fun hs hcan d hd hnone => h hs hcan d hd hnone

lemma claimsAll_disconnected {remoteAddress : Address}
    (h : ClaimsAll s (.disconnected remoteAddress)) :
    CompletesIn Claimed env s (.disconnected remoteAddress) := by
  have hworker : wp (disconnectWorker env remoteAddress)
      (fun _ s' => OnlyRemoves s s' ∧ s'.state = s.state ∧ s'.apps = s.apps ∧ s'.app = s.app ∧
        s'.addressToApp = s.addressToApp ∧ s'.workers = s.workers ∧
        ∀ w, s.addressToWorker remoteAddress ≠ some w →
          (s'.worker w).state = (s.worker w).state) (fun _ => True) s := by
    simp only [disconnectWorker, wp_bind, wp_get]
    split
    · rename_i w hw
      refine wp_mono (wp_and (removeWorker_wp env) ((OnlyRemoves.removeWorker env w).wp s)) ?_
        fun _ _ => trivial
      rintro _ s' ⟨k, k'⟩
      refine ⟨k', k.state, k.apps, k.app, k.addressToApp, k.workers, fun v hv => ?_⟩
      rw [k.workerState v]
      simp only [forgetWorker, updateWorker_worker]
      rw [if_neg]
      rintro rfl
      exact hv hw
    · exact ⟨.refl s, rfl, rfl, rfl, rfl, rfl, fun _ _ => rfl⟩
  simp only [CompletesIn, wp_bind]
  refine wp_mono hworker ?_ fun _ _ => trivial
  rintro _ s1 ⟨k1, hs1, happs1, happ1, haddr1, hworkers1, hstate1⟩
  have happ : wp (disconnectApplication remoteAddress)
      (fun _ s' => DriversKept s1 s' ∧ s'.app = s.app ∧
        ∀ a ∈ s.apps, s.addressToApp remoteAddress ≠ some a → a ∈ s'.apps) (fun _ => True) s1 := by
    simp only [disconnectApplication, wp_bind, wp_get]
    split
    · rename_i a ha
      refine wp_mono (wp_and ((removeApplication_drivers a).wp s1) (removeApplication_apps a)) ?_
        fun _ _ => trivial
      rintro _ s' ⟨k, happs, happ⟩
      refine ⟨k, happ.trans happ1, fun b hb hne => ?_⟩
      rw [happs, happs1, List.mem_filter]
      refine ⟨hb, ?_⟩
      simpa using fun hc : b = a => hne (by rw [hc, ← haddr1, ha])
    · exact ⟨.of_eq rfl rfl, happ1, fun b hb _ => happs1 ▸ hb⟩
  refine wp_mono happ ?_ fun _ _ => trivial
  rintro _ s2 ⟨k2, happ2, happs2⟩ hs hcan
  have hclaimed : Claimed s := by
    refine h ?_ ?_
    · rw [← hs1, ← k2.state, hs]
    · rw [canCompleteRecovery_iff] at hcan ⊢
      constructor
      · intro w hw
        obtain ⟨hw, hne⟩ := List.mem_filter.mp hw
        have h2 := hcan.1 w (by rw [k2.workers, hworkers1]; exact hw)
        rwa [k2.workerState, hstate1 w (by simpa using hne)] at h2
      · intro a ha
        obtain ⟨ha, hne⟩ := List.mem_filter.mp ha
        have h2 := hcan.2 a (happs2 a ha (by simpa using hne))
        rwa [happ2] at h2
  have hclaimed1 := hclaimed.of_onlyRemoves k1
  intro d hd
  rw [k2.driver]
  exact hclaimed1 d (k2.drivers ▸ hd)

lemma claimsAll (hl : Ledger s) {m : Message} (h : ClaimsAll s m) :
    CompletesIn Claimed env s m := by
  cases m with
  | completeRecovery => exact h
  | workerSchedulerStateResponse workerId driverIds => exact claimsAll_response env hl h
  | applicationStateResponse driverId =>
    intro hs hcan d hd
    have k := MemberRule.answeringApplication_drivers driverId s
    rw [k.driver]
    exact h hs hcan d (k.drivers ▸ hd)
  | disconnected remoteAddress => exact claimsAll_disconnected env h
  | _ => trivial

end

/-! ### Runs of a master with its own notices -/

/-- A master and the `DriverStateChanged` it has sent itself and not handled yet. -/
structure NotifiedMaster where
  master : MasterState
  notices : List DriverStateChanged

/-- What a step from `s` to `s'` adds to the notices. -/
def newNotices (s s' : MasterState) : List DriverStateChanged :=
  (s'.sent.drop s.sent.length).filterMap fun e =>
    match e.message with
    | .driverStateChanged change => some change
    | _ => none

lemma mem_newNotices {s s' : MasterState} (receiver : ActorRef) {change : DriverStateChanged}
    (h : ⟨receiver, .driverStateChanged change⟩ ∈ s'.sent.drop s.sent.length) :
    change ∈ newNotices s s' :=
  List.mem_filterMap.mpr ⟨_, h, rfl⟩

/-- A submission uses a new id, and the recovery is completed when all drivers are claimed. -/
structure OrphanSafe (s : MasterState) (m : Message) : Prop where
  fresh : SubmitsFresh s m
  claims : ClaimsAll s m

namespace NotifiedMaster

/-- The ids of the drivers a notice on its way will remove. -/
def due (s : NotifiedMaster) : Set String :=
  {i | ∃ change ∈ s.notices, change.state.isFinished ∧ change.driverId = i}

/-- A message from elsewhere, or one of the master's own notices. -/
inductive Step : NotifiedMaster → NotifiedMaster → Prop
  | receive {s : NotifiedMaster} (env : Env) (m : Message) : Deliverable s.master m →
    OrphanSafe s.master m →
    Step s ⟨step env m s.master, s.notices ++ newNotices s.master (step env m s.master)⟩
  | notice {s : NotifiedMaster} (env : Env) (change : DriverStateChanged) : change ∈ s.notices →
    Step s ⟨step env (.driverStateChanged change) s.master, s.notices.erase change ++
      newNotices s.master (step env (.driverStateChanged change) s.master)⟩

end NotifiedMaster

lemma Placement.weaken {s : MasterState} {due due' : Set String} (h : Placement due s)
    (hdue : due ⊆ due') : Placement due' s where
  ledger := h.ledger
  placed d hd := by
    rcases h.placed d hd with hw | hw | hw
    · exact Or.inl hw
    · exact Or.inr (Or.inl (hdue hw))
    · exact Or.inr (Or.inr hw)
  queue d hd e he hde hne := (h.queue d hd e he hde hne).imp_right fun hc => hdue hc
  claimed := h.claimed

lemma NotifiedMaster.Step.placement {s s' : NotifiedMaster} (h : Step s s')
    (hM : Membership s.master) (hP : Placement s.due s.master) : Placement s'.due s'.master := by
  cases h with
  | receive env m hd hsafe =>
    have hafter := (Placement.rule (Loses env s.master m) s.due).step env
      (hP.weaken (Set.subset_union_right (s := removedIds m))) hM hd (fun _ => Iff.rfl) hsafe.fresh
      (claimsAll env hP.ledger hsafe.claims)
    rcases hafter with h' | ⟨change, -, hfin, hsent, h'⟩
    · refine h'.weaken ?_
      rintro i ⟨change, hc, hi⟩
      exact ⟨change, List.mem_append_left _ hc, hi⟩
    · refine h'.weaken ?_
      rintro i (rfl | ⟨c, hc, hi⟩)
      · exact ⟨change, List.mem_append_right _ (mem_newNotices _ hsent), hfin, rfl⟩
      · exact ⟨c, List.mem_append_left _ hc, hi⟩
  | notice env change hmem =>
    have hdue : s.due ⊆ removedIds (.driverStateChanged change) ∪
        (⟨s.master, s.notices.erase change⟩ : NotifiedMaster).due := by
      rintro i ⟨c, hc, hfin, rfl⟩
      by_cases hcc : c = change
      · exact Or.inl ⟨hcc ▸ hfin, by rw [hcc]⟩
      · exact Or.inr ⟨c, (List.mem_erase_of_ne hcc).mpr hc, hfin, rfl⟩
    have hafter := (Placement.rule (Loses env s.master (.driverStateChanged change)) _).step env
      (hP.weaken hdue) hM trivial (fun _ => Iff.rfl) trivial trivial
    rcases hafter with h' | ⟨c, hc, -⟩
    · refine h'.weaken ?_
      rintro i ⟨c, hc, hi⟩
      exact ⟨c, List.mem_append_left _ hc, hi⟩
    · cases hc

/-- A driver the master can still do something about. -/
def WithinReach (s : MasterState) (d : DriverRef) : Prop := d ∈ s.waitingDrivers ∨ Located s d

/-- What the master does with a kill request it answers with success: the driver leaves the queue
and is about to be removed, or its worker is told. -/
def KillReaches (s s' : MasterState) (driverId : String) (d : DriverRef) : Prop :=
  (d ∈ s.waitingDrivers ∧ d ∉ s'.waitingDrivers ∧
    ∃ change ∈ newNotices s s', change.driverId = driverId ∧ change.state = .killed) ∨
  ∃ w, (s.driver d).worker = some w ∧ s.IsMember w ∧
    (s.worker w).drivers.lookup driverId = some d ∧
    ⟨(s.worker w).endpoint, .killDriver driverId⟩ ∈ s'.sent.drop s.sent.length

lemma handleRequestKillDriver_reaches (env : Env) {s : MasterState} (hl : Ledger s)
    (hs : s.state = .active) (driverId : String) :
    wp (handleRequestKillDriver env driverId)
      (fun _ s' => ∀ message,
        ⟨env.sender, .killDriverResponse driverId true message⟩ ∈ s'.sent.drop s.sent.length →
        ∃ d ∈ s.drivers, (s.driver d).id = driverId ∧
          (WithinReach s d → KillReaches s s' driverId d)) (fun _ => False) s := by
  simp only [handleRequestKillDriver, wp_bind, wp_get, wp_ite, hs, ne_eq, not_true_eq_false,
    if_false]
  refine findDriver_wp env (fun _ => ?_) fun d hd hid => ?_
  · intro message hsent
    simp [MasterState.send] at hsent
  · simp only [killDriver, wp_bind, wp_get, wp_ite, wp_modify, List.contains_iff_mem]
    split
    · rename_i hwait
      refine fun message _ => ⟨d, hd, hid, fun _ => Or.inl ⟨hwait, ?_, ?_⟩⟩
      · exact hl.waiting_nodup.not_mem_erase
      · refine ⟨⟨driverId, .killed, none, none, env.now⟩, ?_, rfl, rfl⟩
        refine mem_newNotices env.self ?_
        simp [MasterState.send, dequeueDriver]
    · rename_i hwait
      split
      · rename_i w hw
        refine fun message _ => ⟨d, hd, hid, fun hreach => Or.inr ?_⟩
        obtain ⟨v, hv, hm, hlookup⟩ := hreach.resolve_left hwait
        have hvw : v = w := Option.some.inj (hv.symm.trans hw)
        subst hvw
        exact ⟨v, hv, hm, hid ▸ hlookup, by simp [MasterState.send]⟩
      · rename_i hw
        refine fun message _ => ⟨d, hd, hid, fun hreach => ?_⟩
        obtain ⟨v, hv, -⟩ := hreach.resolve_left hwait
        exact absurd (hv.symm.trans hw) (by simp)

/-- In a run in which submissions use new ids and the recovery waits for every driver to be claimed, an
active master has every driver within reach that is not already due, and a kill request it
answers with success gets there. -/
theorem Master.no_driver_orphaned {engine : PersistenceEngine} {s : NotifiedMaster}
    (h : ReflTransGen NotifiedMaster.Step ⟨{ persistenceEngine := engine }, []⟩ s)
    (hs : s.master.state = .active) :
    (∀ d ∈ s.master.drivers, (s.master.driver d).id ∉ s.due → WithinReach s.master d) ∧
    ∀ (env : Env) (driverId message : String),
      ⟨env.sender, .killDriverResponse driverId true message⟩ ∈
        (step env (.requestKillDriver driverId) s.master).sent.drop s.master.sent.length →
      driverId ∉ s.due → ∃ d ∈ s.master.drivers, (s.master.driver d).id = driverId ∧
        KillReaches s.master (step env (.requestKillDriver driverId) s.master) driverId d := by
  have hinv : Membership s.master ∧ Placement s.due s.master := by
    refine invariant_of_run (I := fun s => Membership s.master ∧ Placement s.due s.master) h
      (fun s₁ s₂ hstep hI => ⟨?_, hstep.placement hI.1 hI.2⟩)
      ⟨Membership.init engine, .of_nil (Ledger.init engine) rfl⟩
    cases hstep with
    | receive env m hd _ => exact step_membership env hI.1 hd
    | notice env change _ => exact step_membership env hI.1 trivial
  have hreach : ∀ d ∈ s.master.drivers, (s.master.driver d).id ∉ s.due →
      WithinReach s.master d := by
    intro d hd hdue
    rcases hinv.2.placed d hd with hw | hw | hw | hw
    · exact Or.inl hw
    · exact absurd hw hdue
    · exact Or.inr hw
    · exact absurd hs hw.1
  refine ⟨hreach, fun env driverId message hsent hdue => ?_⟩
  have hwp := handleRequestKillDriver_reaches env hinv.2.ledger hs driverId
  have hok : (handleMessage env (.requestKillDriver driverId)).succeeds s.master :=
    succeeds_of_wp hwp
  have hstep : step env (.requestKillDriver driverId) s.master =
      (handleMessage env (.requestKillDriver driverId)).exec s.master := if_pos hok
  rw [hstep] at hsent ⊢
  obtain ⟨d, hd, hid, hkill⟩ := of_wp_of_succeeds hwp hok message hsent
  exact ⟨d, hd, hid, hkill (hreach d hd (hid.symm ▸ hdue))⟩

/-- A driver waits for a first worker. -/
theorem Master.no_driver_orphaned_waiting :
    ∃ s : MasterState, s.drivers = [0] ∧ WithinReach s 0 := by
  have h1 : ReflTransGen NotifiedMaster.Step ⟨{ persistenceEngine := .blackHole }, []⟩ _ :=
    .single (.receive default (.electedLeader []) rfl ⟨trivial, trivial⟩)
  have h2 := h1.tail (.receive default (.requestSubmitDriver "a" default) trivial
    ⟨fun _ => by decide, trivial⟩)
  refine ⟨_, by decide, (Master.no_driver_orphaned h2 (by decide)).1 0 (by decide) ?_⟩
  rintro ⟨change, hc, -⟩
  revert hc
  decide +revert

/-- The store of a leader that is gone, with one driver. -/
def storedDriver : PersistenceEngine := PersistenceEngine.zookeeper {} |>.addDriver ⟨0, "a", default, 0⟩

/-- Not so in every run: a driver that comes back from the store and that no worker claims is out of
reach when the recovery is completed, and a kill request for it is answered with success. -/
theorem Master.driver_orphaned :
    ∃ s, Master.Reachable storedDriver s ∧ s.state = .active ∧ 0 ∈ s.drivers ∧
      ¬ WithinReach s 0 ∧ ⟨"", .killDriverResponse "a" true "Kill request for a submitted."⟩ ∈
        (step default (.requestKillDriver "a") s).sent.drop s.sent.length := by
  refine ⟨_, reachable_afterMessages storedDriver [.completeRecovery] (by simp), by decide, by decide,
    ?_, by decide⟩
  rintro (hw | ⟨w, hw, -⟩)
  · exact absurd hw (by decide)
  · have hnone : ((afterMessages storedDriver [.completeRecovery]).driver 0).worker = none := by
      decide
    rw [hnone] at hw
    cases hw

end Moonbox.Deploy
