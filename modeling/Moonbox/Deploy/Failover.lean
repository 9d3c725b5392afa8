import Moonbox.Deploy.MirrorRuns

/-!
# What a new leader reads

A run of masters over one store: messages, and at any time the master is replaced by a new one that
starts in `STANDBY` until it is elected.
-/

namespace Moonbox.Deploy

open Actor Handler Relation Master MasterState

/-! ### Standby -/

/-- A standby master has registered nobody. -/
structure Idle (s : MasterState) : Prop where
  state : s.state = .standby
  idToWorker : ∀ i, s.idToWorker i = none
  addressToWorker : ∀ i, s.addressToWorker i = none
  idToApp : ∀ i, s.idToApp i = none
  addressToApp : ∀ i, s.addressToApp i = none
  workers : s.workers = []
  apps : s.apps = []
  drivers : s.drivers = []

namespace Idle

variable {s : MasterState} (env : Env)

lemma of_standby (hM : Membership s) (hL : Ledger s) (hs : s.state = .standby) : Idle s := by
  obtain ⟨hw, ha⟩ := hM.standby hs
  have hmember : ∀ w, ¬ s.IsMember w := fun w hm => by simpa [hw] using hm.1
  have happ : ∀ a, a ∉ s.apps := fun a hm => by simp [ha] at hm
  refine ⟨hs, fun i => ?_, fun i => ?_, fun i => ?_, fun i => ?_, hw, ha, hL.standby hs⟩
  · rw [Option.eq_none_iff_forall_ne_some]
    exact fun w h => hmember w ((hM.idToWorker i w).mp h).1
  · rw [Option.eq_none_iff_forall_ne_some]
    exact fun w h => hmember w ((hM.addressToWorker i w).mp h).1
  · rw [Option.eq_none_iff_forall_ne_some]
    exact fun a h => happ a ((hM.idToApp i a).mp h).1
  · rw [Option.eq_none_iff_forall_ne_some]
    exact fun a h => happ a ((hM.addressToApp i a).mp h).1

/-- What a standby master does not change. -/
def Kept (s s' : MasterState) : Prop :=
  s'.state = .standby ∧ s'.persistenceEngine = s.persistenceEngine

lemma completeIfPossible (h : s.state = .standby) :
    wp (completeIfPossible env) (fun _ => Kept s) (fun _ => False) s := by
  simp only [Master.completeIfPossible, completeRecovery, wp_bind, wp_get, wp_ite, wp_pure, h,
    reduceCtorEq, if_false]
  split
  · exact ⟨h, rfl⟩
  · exact ⟨h, rfl⟩

lemma findDriver (h : Idle s) (driverId : String) {Q : Option DriverRef → MasterState → Prop}
    {E : MasterState → Prop} (hQ : Q none { s with draws := s.draws + 1 }) :
    wp (findDriver env driverId) Q E s := by
  refine findDriver_wp env (fun _ => hQ) fun d hd _ => ?_
  rw [h.drivers] at hd
  cases hd

/-- Before the election the store is not touched and nothing fails. -/
lemma handleMessage (h : Idle s) {m : Message} (hm : ∀ startOnBoot, m ≠ .electedLeader startOnBoot) :
    wp (handleMessage env m) (fun _ => Kept s) (fun _ => False) s := by
  have hs := h.state
  have hsend : ∀ receiver message, Kept s (s.send receiver message) := fun _ _ => ⟨hs, rfl⟩
  cases m with
  | electedLeader startOnBoot => exact absurd rfl (hm startOnBoot)
  | registerWorker id host port worker address =>
    simp only [Master.handleMessage, handleRegisterWorker, wp_bind, wp_get, wp_ite, hs, if_true,
      wp_modify]
    exact hsend _ _
  | heartbeat workerId worker =>
    simp only [Master.handleMessage, handleHeartbeat, wp_modify, h.idToWorker, h.workers]
    exact ⟨hs, rfl⟩
  | workerSchedulerStateResponse workerId driverIds =>
    simp only [Master.handleMessage, handleWorkerSchedulerStateResponse, answeringWorker, wp_bind,
      wp_get, h.idToWorker, wp_pure]
    exact completeIfPossible env hs
  | workerLatestState workerId driverIds =>
    simp only [Master.handleMessage, handleWorkerLatestState, wp_modify, h.idToWorker]
    exact ⟨hs, rfl⟩
  | registerApplication driverId host port endpoint address dataPort appType =>
    simp only [Master.handleMessage, handleRegisterApplication, wp_bind, wp_get, wp_ite, hs,
      if_true, wp_modify]
    exact hsend _ _
  | applicationStateResponse driverId =>
    simp only [Master.handleMessage, handleApplicationStateResponse, wp_bind, wp_modify,
      answeringApplication, h.idToApp]
    exact completeIfPossible env hs
  | completeRecovery =>
    simp only [Master.handleMessage, completeRecovery, wp_bind, wp_get, wp_ite, hs, reduceCtorEq,
      if_false, wp_pure]
    exact ⟨hs, rfl⟩
  | checkForWorkerTimeOut =>
    have hnil : (env.random s.draws).apply ([] : List WorkerRef) = [] :=
      List.eq_nil_iff_forall_not_mem.mpr fun w hw => by simp at hw
    simp only [Master.handleMessage, timeOutDeadWorkers, wp_bind, wp_get, draw_wp, h.workers,
      List.filter_nil, hnil, forEach, wp_pure]
    exact ⟨hs, rfl⟩
  | driverStateChanged change =>
    simp only [Master.handleMessage, handleDriverStateChanged, removeDriver, wp_ite, wp_bind]
    split
    · exact h.findDriver env _ ⟨hs, rfl⟩
    · exact h.findDriver env _ ⟨hs, rfl⟩
  | requestSubmitDriver driverName desc =>
    simp only [Master.handleMessage, handleRequestSubmitDriver, wp_bind, wp_get, wp_ite, hs, ne_eq,
      reduceCtorEq, not_false_eq_true, if_true, wp_modify]
    exact hsend _ _
  | requestKillDriver driverId =>
    simp only [Master.handleMessage, handleRequestKillDriver, wp_bind, wp_get, wp_ite, hs, ne_eq,
      reduceCtorEq, not_false_eq_true, if_true, wp_modify]
    exact hsend _ _
  | requestDriverStatus driverId =>
    simp only [Master.handleMessage, handleRequestDriverStatus, wp_bind, wp_get, wp_ite, hs, ne_eq,
      reduceCtorEq, not_false_eq_true, if_true, wp_modify]
    exact hsend _ _
  | requestAllDriverStatus pattern =>
    simp only [Master.handleMessage, handleRequestAllDriverStatus, wp_bind, wp_get, wp_ite, hs,
      ne_eq, reduceCtorEq, not_false_eq_true, if_true, wp_modify]
    exact hsend _ _
  | disconnected remoteAddress =>
    simp only [Master.handleMessage, onDisconnected, disconnectWorker, disconnectApplication,
      wp_bind, wp_get, h.addressToWorker, h.addressToApp, wp_pure, wp_ite, hs, reduceCtorEq, if_false]
    exact ⟨hs, rfl⟩

end Idle

/-! ### Election -/

/-- What is invariant: the store is there, different applications in it have different addresses,
and a leader has read all of it. -/
structure Mirrored (s : MasterState) : Prop where
  membership : Membership s
  ledger : Ledger s
  stored : ∃ zk, s.persistenceEngine = .zookeeper zk ∧ (zk.apps.read.map AppRecord.address).Nodup
  mirror : s.state ≠ .standby → Mirror ∅ ∅ ∅ s

/-- The records of the applications of a master have different addresses. -/
lemma Mirror.addresses {s : MasterState} (h : Mirror ∅ ∅ ∅ s) (hM : Membership s) :
    ∃ zk, s.persistenceEngine = .zookeeper zk ∧ (zk.apps.read.map AppRecord.address).Nodup := by
  obtain ⟨zk, hp, -, -, happs⟩ := h.stored.holds
  refine ⟨zk, hp, List.Nodup.map_on (fun r hr r' hr' he => ?_) zk.apps.nodup_read⟩
  rw [happs, Set.union_empty] at hr hr'
  obtain ⟨a, ha, rfl⟩ := hr
  obtain ⟨b, hb, rfl⟩ := hr'
  rw [hM.addressToApp.key_injective ha hb he]

namespace Mirrored

variable {s : MasterState} (env : Env)

lemma init {zk : ZkStore} (h : (zk.apps.read.map AppRecord.address).Nodup) :
    Mirrored { persistenceEngine := .zookeeper zk } :=
  ⟨.init _, .init _, ⟨zk, rfl, h⟩, fun hs => absurd rfl hs⟩

lemma restart (h : Mirrored s) : Mirrored s.restart :=
  ⟨.restart s, h.ledger.restart, h.stored, fun hs => absurd rfl hs⟩

lemma electedLeader (h : Mirrored s) (hs : s.state = .standby)
    (startOnBoot : List (String × DriverDesc)) :
    wp (electedLeader env startOnBoot) (fun _ => Mirror ∅ ∅ ∅) (fun _ => False) s := by
  obtain ⟨zk, hp, haddr⟩ := h.stored
  have hidle := Idle.of_standby h.membership h.ledger hs
  have hds := (env.random s.draws).perm s.persistenceEngine.readDrivers
  have hws := (env.random (s.draws + 1)).perm s.persistenceEngine.readWorkers
  have has := (env.random (s.draws + 1 + 1)).perm s.persistenceEngine.readApplication
  have hmirror : ∀ state n, Mirror
      {r | r ∈ (env.random s.draws).apply s.persistenceEngine.readDrivers}
      {r | r ∈ (env.random (s.draws + 1)).apply s.persistenceEngine.readWorkers}
      {r | r ∈ (env.random (s.draws + 1 + 1)).apply s.persistenceEngine.readApplication}
      { s with state := state, draws := n } := by
    intro state n
    have h0 := Mirror.of_standby hp hidle.drivers hidle.workers hidle.apps hds hws has
    exact (h0.setMasterState state).keep_members (.of_eq rfl rfl rfl) (.of_eq rfl rfl)
  simp only [Master.electedLeader, wp_bind, wp_get, draw_wp, wp_ite, wp_modify]
  split
  · rename_i hempty
    simp only [Bool.and_eq_true, List.isEmpty_iff] at hempty
    have h1 := hmirror .active (s.draws + 1 + 1 + 1)
    rw [hempty.1.1, hempty.1.2, hempty.2] at h1
    refine wp_forEach (I := fun _ => Mirror ∅ ∅ ∅) ?_ (fun _ h' => h') _ _ (by simpa using h1)
    exact fun _ _ _ h' => h'.send _ _
  · have hM : Membership { s with state := .recovering, draws := s.draws + 1 + 1 + 1 } :=
      { idToWorker := h.membership.idToWorker, addressToWorker := h.membership.addressToWorker
        idToApp := h.membership.idToApp, addressToApp := h.membership.addressToApp
        workers_nodup := h.membership.workers_nodup, apps_nodup := h.membership.apps_nodup
        worker_lt := h.membership.worker_lt, app_lt := h.membership.app_lt
        standby := fun hc => by cases hc }
    have hL0 : Ledger { s with state := .recovering } :=
      h.ledger.setState (fun _ => h.ledger.idle (by simp [hs])) fun hc => by cases hc
    have hL : Ledger { s with state := .recovering, draws := s.draws + 1 + 1 + 1 } :=
      hL0.frame (.of_eq rfl rfl)
    refine Reading.beginRecovery env ⟨hmirror _ _, hM, hL, rfl, ?_, ?_, ?_, ?_⟩ hidle.drivers
      hidle.workers hidle.apps
    · exact (hds.map _).nodup_iff.mpr s.persistenceEngine.nodup_readDrivers
    · exact (hws.map _).nodup_iff.mpr s.persistenceEngine.nodup_readWorkers
    · exact (has.map _).nodup_iff.mpr s.persistenceEngine.nodup_readApplication
    · refine (has.map _).nodup_iff.mpr ?_
      rw [hp]
      exact haddr

/-- Handling a message does not fail, and it leaves a master that mirrors the store or one that is
still in standby over the same store. -/
lemma handleMessage {m : Message} (h : Mirrored s) (hd : Deliverable s m) (hfresh : SubmitsFresh s m) :
    wp (Master.handleMessage env m) (fun _ s' => Mirror ∅ ∅ ∅ s' ∨ Idle.Kept s s') (fun _ => False) s := by
  have lead : ∀ startOnBoot, m = .electedLeader startOnBoot →
      wp (Master.handleMessage env m) (fun _ s' => Mirror ∅ ∅ ∅ s' ∨ Idle.Kept s s') (fun _ => False) s := by
    rintro startOnBoot rfl
    exact wp_mono (h.electedLeader env hd startOnBoot) (fun _ _ h' => Or.inl h') fun _ hf => hf
  by_cases hm : ∃ startOnBoot, m = .electedLeader startOnBoot
  · obtain ⟨startOnBoot, he⟩ := hm
    exact lead startOnBoot he
  · have hm : ∀ startOnBoot, m ≠ .electedLeader startOnBoot := fun b hb => hm ⟨b, hb⟩
    by_cases hs : s.state = .standby
    · exact wp_mono ((Idle.of_standby h.membership h.ledger hs).handleMessage env hm)
        (fun _ _ h' => Or.inr h') fun _ hf => hf
    · exact wp_mono ((h.mirror hs).handleMessage env h.membership h.ledger hm hfresh)
        (fun _ _ h' => Or.inl h') fun _ hf => hf

lemma step {m : Message} (h : Mirrored s) (hd : Deliverable s m) (hfresh : SubmitsFresh s m) :
    Mirrored (step env m s) := by
  have hwp := h.handleMessage env hd hfresh
  have hok := succeeds_of_wp hwp
  have hM := step_membership env h.membership hd
  have hL : Ledger (Master.step env m s) := by
    rcases (Ledger.rule (Loses env s m) (fun _ => True) ∅).step env h.ledger h.membership hd
      (fun _ => Iff.rfl) hfresh (completesIn_true env s m) with h' | ⟨_, -, -, -, h'⟩
    · exact h'
    · exact h'
  have hkept := of_wp_of_succeeds (P := fun s' => Mirror ∅ ∅ ∅ s' ∨ Idle.Kept s s') hwp hok
  have hstep : Master.step env m s = (Master.handleMessage env m).exec s := if_pos hok
  rw [hstep] at hM hL ⊢
  rcases hkept with hmirror | ⟨hstandby, hengine⟩
  · exact ⟨hM, hL, hmirror.addresses hM, fun _ => hmirror⟩
  · exact ⟨hM, hL, hengine ▸ h.stored, fun hs => absurd hstandby hs⟩

end Mirrored

/-! ### Runs -/

/-- A step of the masters over one store: a message whose submissions use new ids, or a new master
takes the place of the old one. -/
inductive Master.StoreStep (s : MasterState) : MasterState → Prop
  | receive (env : Env) {m : Message} : Deliverable s m → SubmitsFresh s m →
    StoreStep s (step env m s)
  | replace : StoreStep s s.restart

/-- The store has exactly the drivers, the workers that are not dead, and the applications. -/
structure StoreMirrors (s : MasterState) : Prop where
  drivers : s.persistenceEngine.readDrivers.Perm
    (s.drivers.map fun d => (s.driver d).toDriverRecord)
  workers : s.persistenceEngine.readWorkers.Perm
    ((s.workers.filter fun w => (s.worker w).state ≠ .dead).map fun w => (s.worker w).toWorkerRecord)
  apps : s.persistenceEngine.readApplication.Perm (s.apps.map fun a => (s.app a).toAppRecord)

lemma Mirrored.storeMirrors {s : MasterState} (h : Mirrored s) (hs : s.state ≠ .standby) :
    StoreMirrors s := by
  obtain ⟨zk, hp, hdrivers, hworkers, happs⟩ := (h.mirror hs).stored.holds
  have hmem : ∀ w, w ∈ (s.workers.filter fun w => (s.worker w).state ≠ .dead) ↔ s.IsMember w := by
    simp [IsMember]
  constructor
  · rw [hp]
    refine (List.perm_ext_iff_of_nodup zk.drivers.nodup_read ?_).mpr fun r => ?_
    · exact h.ledger.drivers_nodup.map_on fun d hd e he hde =>
        h.ledger.id_injective d hd e he (congrArg DriverRecord.id hde)
    · rw [hdrivers, Set.union_empty, List.mem_map]
      rfl
  · rw [hp]
    refine (List.perm_ext_iff_of_nodup zk.workers.nodup_read ?_).mpr fun r => ?_
    · exact (h.membership.workers_nodup.filter _).map_on fun w hw v hv he =>
        h.membership.idToWorker.key_injective ((hmem w).mp hw) ((hmem v).mp hv)
          (congrArg WorkerRecord.id he)
    · rw [hworkers, Set.union_empty, List.mem_map]
      simp only [hmem]
      rfl
  · rw [hp]
    refine (List.perm_ext_iff_of_nodup zk.apps.nodup_read ?_).mpr fun r => ?_
    · exact h.membership.apps_nodup.map_on fun a ha b hb he =>
        h.membership.idToApp.key_injective ha hb (congrArg AppRecord.id he)
    · rw [happs, Set.union_empty, List.mem_map]
      rfl

/-- In a run in which submissions use new ids, the store mirrors every leader and no handler is cut
short by the store. -/
theorem Master.store_mirrors_leader {zk : ZkStore} (hzk : (zk.apps.read.map AppRecord.address).Nodup)
    {s : MasterState} (h : ReflTransGen StoreStep { persistenceEngine := .zookeeper zk } s) :
    (s.state ≠ .standby → StoreMirrors s) ∧
      ∀ (env : Env) (m : Message), Deliverable s m → SubmitsFresh s m →
        (handleMessage env m).succeeds s := by
  have hinv : Mirrored s := by
    refine invariant_of_run h (fun s₁ s₂ hstep hI => ?_) (Mirrored.init hzk)
    cases hstep with
    | receive env hd hfresh => exact hI.step env hd hfresh
    | replace => exact hI.restart
  exact ⟨hinv.storeMirrors, fun env m hd hfresh => succeeds_of_wp (hinv.handleMessage env hd hfresh)⟩

/-- A worker registers and a driver is submitted. -/
theorem Master.store_mirrors_leader_submitted :
    ∃ s : MasterState, s.drivers = [0] ∧ s.workers = [0] ∧ StoreMirrors s := by
  have h1 : ReflTransGen StoreStep { persistenceEngine := .zookeeper {} } _ :=
    .single (.receive default (m := .electedLeader []) rfl trivial)
  have h2 := h1.tail (.receive default (m := .registerWorker "w1" "host" 1 "host:1" "moonbox@host:1")
    trivial trivial)
  have h3 := h2.tail (.receive default (m := .requestSubmitDriver "a" default) trivial
    fun _ => by decide)
  exact ⟨_, by decide, by decide, (Master.store_mirrors_leader (by decide) h3).1 (by decide)⟩

/-- Not so in every run: two drivers with one id share a node, and the second of them that is removed
does not find it any more. -/
theorem Master.store_mirror_fails :
    (∃ s, Reachable (.zookeeper {}) s ∧ s.state = .active ∧ ¬ StoreMirrors s) ∧
      ∃ s, Reachable (.zookeeper {}) s ∧
        (handleMessage default (.driverStateChanged ⟨"a", .finished, none, none, 0⟩)).succeeds s =
          false := by
  constructor
  · refine ⟨_, reachable_afterMessages (.zookeeper {}) [.requestSubmitDriver "a" default,
      .requestSubmitDriver "a" default] (by simp), by decide, fun h => ?_⟩
    exact absurd h.drivers.length_eq (by decide)
  · exact ⟨_, reachable_afterMessages (.zookeeper {}) [.requestSubmitDriver "a" default,
      .requestSubmitDriver "a" default, .driverStateChanged ⟨"a", .finished, none, none, 0⟩]
      (by simp), by decide⟩

end Moonbox.Deploy
