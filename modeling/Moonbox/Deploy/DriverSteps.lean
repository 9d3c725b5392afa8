import Moonbox.Deploy.DriverRules

/-!
# Invariants of the drivers along a step

`MemberRule` adds to `DriverRule` the changes made outside `schedule` and `removeWorker`. An
invariant that satisfies it is kept by the handler of every message; what a kill request and a
removal do to the set of ids that are due is said by the lemmas about these two messages.
-/

namespace Moonbox.Deploy

open Actor Handler Master MasterState

/-- The changes outside `schedule` and `removeWorker`, for an invariant with the ids in `base` due
between messages. `Lost` are the workers the message may make the master forget, and the recovery
may only be completed in a state that satisfies `Complete`. -/
structure MemberRule (Lost : WorkerRef → Prop) (Complete : MasterState → Prop) (base : Set String)
    (I : Set String → MasterState → Prop) : Prop extends DriverRule Lost I where
  standby {s} : I base s → s.state = .standby → s.drivers = []
  idle {due s} : I due s → s.state ≠ .active → s.drivers = [] → I base s
  allocWorker {s} (record now) : I base s → I base (allocWorker (.init record now) s)
  dropDead {s} (w) : I base s → I base (dropDeadWorkers w s)
  enter {s w} : I base s → w < s.nextWorker → I base (enterWorker w s)
  setState {s} (w) {state} : I base s → state ≠ .dead → I base (s.updateWorker w (·.setState state))
  expire {s w} : I base s → (s.worker w).state = .dead → I base (expireWorker w s)
  claim {s w d} : I base s → s.IsMember w → d ∈ s.drivers → (Lost w → s.state ≠ .active) →
    I base (assignDriver w d s)
  change {s d} (change) : I base s → d ∈ s.drivers → I base (changeDriver d change s)
  recover {s} (record now) : I base s → s.state = .recovering →
    (∀ d ∈ s.drivers, (s.driver d).id ≠ record.id) →
    I base (enterDriver s.nextDriver (allocDriver (.init record now) s))
  submit {s} (record now) : I base s → s.state = .active →
    (∀ d ∈ s.drivers, (s.driver d).id ≠ record.id) → (∀ w, ¬ Lost w) →
    I base (enqueueDriver s.nextDriver (allocDriver (.init record now) s))
  dequeue {s d} : I base s → d ∈ s.drivers → d ∈ s.waitingDrivers →
    I (insert (s.driver d).id base) (dequeueDriver d s)
  lead {s state} : I base s → s.state = .standby → state = .active ∨ state = .recovering →
    I base { s with state := state }
  begin {s} : I base s → s.state = .recovering → Complete s →
    I base { s with state := .completingRecovery }
  activate {s} : I base s → s.state = .completingRecovery → I base { s with state := .active }
  restart {due s} : I due s → I base s.restart

/-- The workers a message may make the master forget: those it disconnects or that are timed out,
those a registration replaces, and any worker while the recovery goes on. -/
def Loses (env : Env) (s : MasterState) (m : Message) (w : WorkerRef) : Prop :=
  s.state ≠ .active ∨
    match m with
    | .registerWorker _ _ _ _ address =>
      s.addressToWorker address = some w ∧ (s.worker w).state = .unknown
    | .disconnected remoteAddress => s.addressToWorker remoteAddress = some w
    | .checkForWorkerTimeOut => w ∈ s.workers ∧ (s.worker w).state ≠ .dead ∧
        (s.worker w).lastHeartbeat + env.workerTimeoutMs < env.now
    | _ => False

/-- If the message completes the recovery, it does so in a state that satisfies `Complete`. -/
def CompletesIn (Complete : MasterState → Prop) (env : Env) (s : MasterState) : Message → Prop
  | .completeRecovery => s.state = .recovering → Complete s
  | .workerSchedulerStateResponse workerId driverIds =>
    wp (answeringWorker env workerId driverIds)
      (fun _ s' => s'.state = .recovering → canCompleteRecovery s' → Complete s') (fun _ => True) s
  | .applicationStateResponse driverId =>
    s.state = .recovering → canCompleteRecovery (answeringApplication driverId s) →
      Complete (answeringApplication driverId s)
  | .disconnected remoteAddress =>
    wp (do
      disconnectWorker env remoteAddress
      disconnectApplication remoteAddress)
      (fun _ s' => s'.state = .recovering → canCompleteRecovery s' → Complete s') (fun _ => True) s
  | _ => True

lemma completesIn_true (env : Env) (s : MasterState) (m : Message) :
    CompletesIn (fun _ => True) env s m := by
  cases m <;> simp [CompletesIn, Handler.wp_true, -wp_bind]

/-- The ids of the drivers a message asks to submit are not in use. -/
def SubmitsFresh (s : MasterState) : Message → Prop
  | .requestSubmitDriver driverName _ =>
    s.state = .active → ∀ d ∈ s.drivers, (s.driver d).id ≠ driverName
  | _ => True

/-- The ids whose drivers a message takes out by itself. -/
def removedIds : Message → Set String
  | .driverStateChanged change => {i | change.state.isFinished ∧ i = change.driverId}
  | _ => ∅

/-- What a message leaves behind: the invariant, or, after a kill request for a waiting driver, the
invariant up to that driver and a notice of the master to itself. -/
def AfterMessage (I : Set String → MasterState → Prop) (env : Env) (due : Set String)
    (s : MasterState) (m : Message) (s' : MasterState) : Prop :=
  I due s' ∨ ∃ change : DriverStateChanged, m = .requestKillDriver change.driverId ∧
    change.state.isFinished ∧
    ⟨env.self, .driverStateChanged change⟩ ∈ s'.sent.drop s.sent.length ∧
    I (insert change.driverId due) s'

/-- The state is the same and no driver is new. -/
structure Shrinks (s s' : MasterState) : Prop where
  state : s'.state = s.state
  drivers : s'.drivers ⊆ s.drivers

namespace Shrinks

instance : Std.Refl Shrinks where
  refl _ := ⟨rfl, List.Subset.refl _⟩

instance : IsTrans MasterState Shrinks where
  trans _ _ _ h h' := ⟨h'.state.trans h.state, fun _ hd => h.drivers (h'.drivers hd)⟩

lemma of_eq {s s' : MasterState} (hs : s'.state = s.state) (hd : s'.drivers = s.drivers) :
    Shrinks s s' := ⟨hs, hd ▸ List.Subset.refl _⟩

lemma removeWorker (env : Env) (w : WorkerRef) : Keeps Shrinks (removeWorker env w) := fun s =>
  ⟨(removeWorker_members env w s).state, (OnlyRemoves.removeWorker env w s).drivers⟩

lemma registerWorker (env : Env) (w : WorkerRef) : Keeps Shrinks (registerWorker env w) := by
  have henter : Keeps Shrinks (do
      modify (enterWorker w)
      pure true) := Keeps.bind (Keeps.modify fun _ => of_eq rfl rfl) fun _ => Keeps.pure _
  refine Keeps.bind (Keeps.modify fun _ => of_eq rfl rfl) fun _ => Keeps.get.bind fun s => ?_
  split
  · exact Keeps.ite (Keeps.bind (removeWorker env _) fun _ => henter) (Keeps.pure _)
  · exact henter

end Shrinks

namespace MemberRule

variable {Lost : WorkerRef → Prop} {Complete : MasterState → Prop}
  {I : Set String → MasterState → Prop} {base : Set String} {s : MasterState} (env : Env)

/-! ### Registration and recovery -/

lemma registerWorker (rule : MemberRule Lost Complete base I) {w : WorkerRef} (h : I base s)
    (hlt : w < s.nextWorker)
    (hold : ∀ old, s.addressToWorker (s.worker w).address = some old →
      (s.worker old).state = .unknown → Lost old) :
    wp (registerWorker env w) (fun _ => I base) (fun s' => ∃ due, I due s') s := by
  simp only [Master.registerWorker, wp_bind, wp_modify, wp_get]
  have h1 := rule.dropDead w h
  split
  · rename_i old haddr
    rw [wp_ite]
    split
    · rename_i hunknown
      rw [wp_bind]
      have hlost := hold old haddr hunknown
      refine wp_mono (wp_and (rule.removeWorker env h1 hlost) (Master.removeWorker_wp env)) ?_
        fun _ h' => h'.1
      rintro _ s' ⟨h', k⟩
      refine rule.enter h' ?_
      rw [k.nextWorker]
      exact hlt
    · exact h1
  · exact rule.enter h1 hlt

lemma newWorker (rule : MemberRule Lost Complete base I) (h : I base s) (record : WorkerRecord) :
    wp (newWorker env record) (fun w s' => I base s' ∧ w < s'.nextWorker ∧
      s' = Master.allocWorker (WorkerInfo.init record env.now) s ∧
        w = s.nextWorker) (fun _ => False) s := by
  simp only [Master.newWorker, wp_bind, wp_get, wp_modify, wp_pure]
  exact ⟨rule.allocWorker _ _ h, Nat.lt_succ_self _, trivial, trivial⟩

/-- While there are no drivers it does not matter which exceptions the recovery of a worker
swallows. -/
lemma recoverWorker (rule : MemberRule Lost Complete base I) (h : I base s) (hs : s.state = .recovering)
    (hd : s.drivers = []) (hLost : ∀ w, Lost w) (record : WorkerRecord) :
    wp (recoverWorker env record)
      (fun _ s' => I base s' ∧ s'.state = .recovering ∧ s'.drivers = []) (fun _ => False) s := by
  rw [Master.recoverWorker, wp_bind]
  refine wp_mono (rule.newWorker env h record) ?_ fun _ hf => hf
  rintro w s1 ⟨h1, hlt, rfl, -⟩
  refine wp_tryCatch_of _ _ ?_
  rw [wp_bind]
  refine wp_mono (wp_and (rule.registerWorker env h1 hlt fun _ _ _ => hLost _)
    ((Shrinks.registerWorker env w).wp _)) ?_ ?_
  · rintro _ s2 ⟨h2, k⟩
    refine ⟨?_, k.state.trans hs, List.eq_nil_of_subset_nil (hd ▸ k.drivers)⟩
    refine rule.send _ _ (rule.setState w h2 (by simp)) fun _ _ hc => ?_
    cases hc
  · rintro s2 ⟨⟨due, h2⟩, k⟩ _
    have hs2 : s2.state = .recovering := k.state.trans hs
    have hd2 : s2.drivers = [] := List.eq_nil_of_subset_nil (hd ▸ k.drivers)
    exact ⟨rule.idle h2 (by simp [hs2]) hd2, hs2, hd2⟩

lemma recoverApplication (rule : MemberRule Lost Complete base I) (h : I base s) (record : AppRecord) :
    wp (recoverApplication record)
      (fun _ s' => I base s' ∧ s'.state = s.state ∧ s'.drivers = s.drivers) (fun _ => False) s := by
  simp only [Master.recoverApplication, wp_bind, wp_modify]
  have hnew : wp (newApp record) (fun _ => DriversKept s) (fun _ => False) s := by
    simp only [newApp, wp_bind, wp_get, wp_modify, wp_pure]
    exact .of_eq rfl rfl
  refine wp_mono hnew (fun a s1 k1 => ?_) fun _ hf => hf
  have hreg : wp (registerApplication a) (fun _ => DriversKept s1) (fun _ => False) s1 := by
    simp only [registerApplication, wp_bind, wp_get, wp_ite, wp_modify, wp_pure]
    split
    · exact .of_eq rfl rfl
    · exact .of_eq rfl rfl
  refine wp_mono hreg (fun _ s2 k2 => ⟨?_, ?_, ?_⟩) fun _ hf => hf
  · refine rule.send _ _ (rule.frame (rule.frame (rule.frame h k1) k2) (.of_eq rfl rfl)) fun _ _ hc => ?_
    cases hc
  · exact k2.state.trans k1.state
  · exact k2.drivers.trans k1.drivers

lemma recoverDriver (rule : MemberRule Lost Complete base I) (h : I base s) (hs : s.state = .recovering)
    {record : DriverRecord} (hid : ∀ d ∈ s.drivers, (s.driver d).id ≠ record.id) :
    wp (recoverDriver env record) (fun _ s' => I base s' ∧ s'.state = .recovering ∧
      ∀ i, i ≠ record.id → (∀ d ∈ s.drivers, (s.driver d).id ≠ i) →
        ∀ d ∈ s'.drivers, (s'.driver d).id ≠ i) (fun _ => False) s := by
  simp only [Master.recoverDriver, newDriver, wp_bind, wp_get, wp_modify, wp_pure]
  refine ⟨rule.recover _ _ h hs hid, hs, fun i hi hs d hd => ?_⟩
  simp only [enterDriver, Master.allocDriver, List.mem_insert_iff] at hd
  simp only [enterDriver, Master.allocDriver, Function.update_apply]
  split
  · exact Ne.symm hi
  · rename_i hne
    exact hs d (hd.resolve_left hne)

lemma beginRecovery (rule : MemberRule Lost Complete base I) (h : I base s) (hs : s.state = .recovering)
    (hd : s.drivers = []) (hLost : ∀ w, Lost w) {storedDrivers : List DriverRecord}
    (hnodup : (storedDrivers.map DriverRecord.id).Nodup) (storedWorkers : List WorkerRecord)
    (storedApps : List AppRecord) :
    wp (beginRecovery env storedDrivers storedWorkers storedApps) (fun _ => I base)
      (fun _ => False) s := by
  simp only [Master.beginRecovery, wp_bind]
  have hworkers := wp_forEach (f := Master.recoverWorker env) (E := fun _ => False)
    (I := fun _ s' => I base s' ∧ s'.state = .recovering ∧ s'.drivers = [])
    (Q := fun _ s' => I base s' ∧ s'.state = .recovering ∧ s'.drivers = [])
    (fun r _ s1 hI => rule.recoverWorker env hI.1 hI.2.1 hI.2.2 hLost r) fun _ hI => hI
  refine wp_mono (hworkers storedWorkers s ⟨h, hs, hd⟩) (fun _ s1 h1 => ?_) fun _ hf => hf
  have happs := wp_forEach (f := Master.recoverApplication) (E := fun _ => False)
    (I := fun _ s' => I base s' ∧ s'.state = .recovering ∧ s'.drivers = [])
    (Q := fun _ s' => I base s' ∧ s'.state = .recovering ∧ s'.drivers = [])
    (fun r _ s2 hI => wp_mono (rule.recoverApplication hI.1 r)
      (fun _ s3 h3 => ⟨h3.1, h3.2.1.trans hI.2.1, h3.2.2.trans hI.2.2⟩) fun _ hf => hf)
    fun _ hI => hI
  refine wp_mono (happs storedApps s1 h1) (fun _ s2 h2 => ?_) fun _ hf => hf
  have hdrivers := wp_forEach (f := Master.recoverDriver env) (E := fun _ => False)
    (I := fun rs s' => (I base s' ∧ s'.state = .recovering) ∧
      (rs.map DriverRecord.id).Nodup ∧ ∀ r ∈ rs, ∀ d ∈ s'.drivers, (s'.driver d).id ≠ r.id)
    (Q := fun _ => I base)
    (fun r rs s3 hI => by
      obtain ⟨⟨h3, hs3⟩, hn, hr⟩ := hI
      rw [List.map_cons, List.nodup_cons] at hn
      refine wp_mono (rule.recoverDriver env h3 hs3 (hr r List.mem_cons_self)) ?_ fun _ hf => hf
      rintro _ s4 ⟨h4, hs4, hid⟩
      refine ⟨⟨h4, hs4⟩, hn.2, fun r' hr' => hid _ (fun he => hn.1 ?_) ?_⟩
      · exact he ▸ List.mem_map_of_mem hr'
      · exact hr r' (List.mem_cons_of_mem _ hr'))
    fun _ hI => hI.1.1
  refine hdrivers storedDrivers s2 ⟨⟨h2.1, h2.2.1⟩, hnodup, fun r _ d hd => ?_⟩
  rw [h2.2.2] at hd
  cases hd

lemma completeRecovery (rule : MemberRule Lost Complete base I) (h : I base s)
    (hLost : s.state ≠ .active → ∀ w, Lost w) (hC : s.state = .recovering → Complete s) :
    wp (completeRecovery env) (fun _ => I base) (fun s' => ∃ due, I due s') s := by
  simp only [Master.completeRecovery, wp_bind, wp_get, wp_ite, wp_modify, wp_pure, draw_wp]
  split
  · rename_i hs
    have hlost := hLost (by simp [hs])
    have h1 := rule.begin h hs (hC hs)
    have hworkers := wp_forEach (f := Master.removeWorker env) (E := fun s' => ∃ due, I due s')
      (I := fun _ s' => I base s' ∧ s'.state = .completingRecovery)
      (Q := fun _ s' => I base s' ∧ s'.state = .completingRecovery)
      (fun w _ s2 hI => wp_mono
        (wp_and (rule.removeWorker env hI.1 (hlost w)) ((Shrinks.removeWorker env w).wp s2))
        (fun _ s3 h3 => ⟨h3.1, h3.2.state.trans hI.2⟩) fun _ h3 => h3.1)
      fun _ hI => hI
    refine wp_mono (hworkers _ _ ⟨rule.frame h1 (.of_eq rfl rfl), rfl⟩) (fun _ s2 h2 => ?_) fun _ h' => h'
    have happs := wp_forEach (f := Master.removeApplication) (E := fun s' => ∃ due, I due s')
      (I := fun _ s' => I base s' ∧ s'.state = .completingRecovery)
      (Q := fun _ s' => I base s' ∧ s'.state = .completingRecovery)
      (fun a _ s3 hI => wp_mono ((removeApplication_drivers a).wp s3)
        (fun _ s4 k => ⟨rule.frame hI.1 k, k.state.trans hI.2⟩)
        fun _ k => ⟨base, rule.frame hI.1 k⟩)
      fun _ hI => hI
    refine wp_mono (happs _ _ ⟨rule.frame h2.1 (.of_eq rfl rfl), h2.2⟩) (fun _ s3 h3 => ?_) fun _ h' => h'
    exact wp_mono (rule.schedule env (rule.activate h3.1 h3.2)) (fun _ _ h' => h')
      fun _ hf => hf.elim
  · exact h

lemma completeIfPossible (rule : MemberRule Lost Complete base I) (h : I base s)
    (hLost : s.state ≠ .active → ∀ w, Lost w)
    (hC : s.state = .recovering → canCompleteRecovery s → Complete s) :
    wp (completeIfPossible env) (fun _ => I base) (fun s' => ∃ due, I due s') s := by
  simp only [Master.completeIfPossible, wp_bind, wp_get, wp_ite, wp_pure]
  split
  · rename_i hcan
    exact rule.completeRecovery env h hLost fun hs => hC hs hcan
  · exact h

/-! ### The message handlers -/

lemma electedLeader (rule : MemberRule Lost Complete base I) (h : I base s) (hs : s.state = .standby)
    (hLost : s.state ≠ .active → ∀ w, Lost w) (startOnBoot : List (String × DriverDesc)) :
    wp (electedLeader env startOnBoot) (fun _ => I base) (fun s' => ∃ due, I due s') s := by
  simp only [Master.electedLeader, wp_bind, wp_get, draw_wp, wp_ite, wp_modify]
  have h1 : I base { s with draws := s.draws + 1 + 1 + 1 } := rule.frame h (.of_eq rfl rfl)
  have hd := rule.standby h hs
  split
  · refine wp_forEach (I := fun _ => I base) (fun app _ s' h' => ?_) (fun _ h' => h') _ _
      (rule.lead h1 hs (Or.inl rfl))
    refine rule.send _ _ h' fun _ _ hc => ?_
    cases hc
  · refine wp_mono (rule.beginRecovery env (rule.lead h1 hs (Or.inr rfl)) rfl
      hd (hLost (by simp [hs])) ?_ _ _) (fun _ _ h' => h') fun _ hf => hf.elim
    refine (((env.random _).perm _).map _).nodup_iff.mpr ?_
    exact s.persistenceEngine.nodup_readDrivers

lemma handleRegisterWorker (rule : MemberRule Lost Complete base I) (h : I base s) (hM : Membership s)
    (record : WorkerRecord)
    (hLost : ∀ w, s.addressToWorker record.address = some w → (s.worker w).state = .unknown →
      Lost w) :
    wp (handleRegisterWorker env record) (fun _ => I base) (fun s' => ∃ due, I due s') s := by
  simp only [Master.handleRegisterWorker, wp_bind, wp_get, wp_ite, wp_modify]
  split
  · refine rule.send _ _ h fun _ _ hc => ?_
    cases hc
  split
  · refine rule.send _ _ h fun _ _ hc => ?_
    cases hc
  refine wp_mono (rule.newWorker env h record) ?_ fun _ hf => hf.elim
  rintro w s1 ⟨h1, hlt, rfl, rfl⟩
  refine wp_mono (rule.registerWorker env h1 hlt fun old haddr hunknown => ?_) ?_ fun _ h' => h'
  · have haddr' : s.addressToWorker record.address = some old := by
      simpa [Master.allocWorker, WorkerInfo.init] using haddr
    have hne : old ≠ s.nextWorker :=
      Nat.ne_of_lt (hM.worker_lt _ ((hM.addressToWorker _ _).mp haddr').1.1)
    refine hLost old haddr' ?_
    simpa [Master.allocWorker, hne] using hunknown
  · rintro registered s2 h2
    cases registered with
    | true =>
      refine wp_mono (rule.schedule env (rule.send _ _ (rule.frame h2 (.of_eq rfl rfl)) fun _ _ hc => ?_))
        (fun _ _ h' => h') fun _ hf => hf.elim
      cases hc
    | false =>
      refine rule.send _ _ h2 fun _ _ hc => ?_
      cases hc

lemma handleHeartbeat (rule : MemberRule Lost Complete base I) (h : I base s) (workerId : String)
    (worker : ActorRef) : I base (handleHeartbeat env workerId worker s) := by
  simp only [Master.handleHeartbeat]
  split
  · rename_i w _
    have hw : ∀ v, (s.updateWorker w ({ · with lastHeartbeat := env.now })).worker v =
        { s.worker v with
          lastHeartbeat := if v = w then env.now else (s.worker v).lastHeartbeat } := by
      intro v
      rw [updateWorker_worker]
      split
      · rename_i hv
        rw [hv]
      · rfl
    exact rule.frame h (.mk_book rfl (fun v => by rw [hw]) (fun v => by rw [hw])
      fun v => by rw [hw])
  · split
    · refine rule.send _ _ h fun _ _ hc => ?_
      cases hc
    · exact h

lemma claimDriver (rule : MemberRule Lost Complete base I) {w : WorkerRef} (h : I base s)
    (hw : s.IsMember w) (hLost : Lost w → s.state ≠ .active) (driverId : String) :
    wp (claimDriver env w driverId)
      (fun _ s' => I base s' ∧ s'.IsMember w ∧ s'.state = s.state) (fun _ => False) s := by
  simp only [Master.claimDriver, findDriver, wp_bind, wp_get, draw_wp, wp_pure]
  have h0 : I base { s with draws := s.draws + 1 } := rule.frame h (.of_eq rfl rfl)
  cases hfind : ((env.random s.draws).apply s.drivers).find? fun d => (s.driver d).id = driverId with
  | none => exact ⟨h0, hw, rfl⟩
  | some d =>
    have hd : d ∈ s.drivers := by simpa using List.mem_of_find?_eq_some hfind
    have k := assignDriver_members w d { s with draws := s.draws + 1 }
    rw [wp_modify]
    exact ⟨rule.claim h0 hw hd hLost, (k.isMember w).mpr hw, k.state⟩

lemma answeringWorker (rule : MemberRule Lost Complete base I) (h : I base s) (hM : Membership s)
    (hLost : ∀ w, Lost w → s.state ≠ .active) (workerId : String) (driverIds : List String) :
    wp (answeringWorker env workerId driverIds) (fun _ => I base) (fun _ => False) s := by
  simp only [Master.answeringWorker, wp_bind, wp_get]
  split
  · rename_i w hid
    have hw := ((hM.idToWorker _ _).mp hid).1
    simp only [wp_bind, wp_modify]
    refine wp_forEach (I := fun _ s' => I base s' ∧ s'.IsMember w ∧ s'.state = s.state)
      (fun driverId _ s' hI => ?_) (fun _ hI => hI.1) _ _ ⟨rule.setState w h (by simp), ?_, rfl⟩
    · refine wp_mono (rule.claimDriver env hI.1 hI.2.1 (hI.2.2 ▸ hLost w) driverId) ?_
        fun _ hf => hf
      exact fun _ s'' h'' => ⟨h''.1, h''.2.1, h''.2.2.trans hI.2.2⟩
    · exact ⟨hw.1, by simp [WorkerInfo.setState]⟩
  · exact h

lemma handleWorkerSchedulerStateResponse (rule : MemberRule Lost Complete base I) (h : I base s)
    (hM : Membership s) (hLost : ∀ w, Lost w ↔ s.state ≠ .active) {workerId : String}
    {driverIds : List String}
    (hC : CompletesIn Complete env s (.workerSchedulerStateResponse workerId driverIds)) :
    wp (handleWorkerSchedulerStateResponse env workerId driverIds) (fun _ => I base)
      (fun s' => ∃ due, I due s') s := by
  rw [Master.handleWorkerSchedulerStateResponse, wp_bind]
  have hstate : wp (Master.answeringWorker env workerId driverIds)
      (fun _ s' => s'.state = s.state) (fun _ => True) s := by
    simp only [Master.answeringWorker, wp_bind, wp_get]
    split
    · simp only [wp_bind, wp_modify]
      exact wp_mono ((Keeps.forEach (claimDriver_keeps env _) driverIds).wp _)
        (fun _ s' k => k.state) fun _ _ => trivial
    · exact rfl
  have hanswer := rule.answeringWorker env h hM (fun w => (hLost w).mp) workerId driverIds
  refine wp_mono (wp_and (wp_and hanswer hstate) hC) ?_ fun _ hf => hf.1.1.elim
  rintro _ s1 ⟨⟨h1, hs1⟩, hC1⟩
  exact rule.completeIfPossible env h1 (fun hs w => (hLost w).mpr (hs1 ▸ hs)) hC1

lemma handleWorkerLatestState (rule : MemberRule Lost Complete base I) (h : I base s)
    (workerId : String) (driverIds : List String) :
    I base (handleWorkerLatestState workerId driverIds s) := by
  simp only [Master.handleWorkerLatestState]
  split
  · refine List.foldlRecOn driverIds _ h fun s' h' d _ => ?_
    split
    · exact h'
    · refine rule.send _ _ h' fun _ _ hc => ?_
      cases hc
  · exact h

lemma handleRegisterApplication (rule : MemberRule Lost Complete base I) (h : I base s)
    (record : AppRecord) :
    wp (handleRegisterApplication record) (fun _ => I base) (fun _ => False) s := by
  simp only [Master.handleRegisterApplication, newApp, registerApplication, wp_bind, wp_get, wp_ite,
    wp_modify, wp_pure]
  have hsend : ∀ {s' : MasterState} (receiver) (message), I base s' →
      (∀ i desc, message ≠ .launchDriver i desc) → I base (s'.send receiver message) :=
    fun receiver message h' hm => rule.send receiver message h' hm
  split
  · exact hsend _ _ h fun _ _ hc => by cases hc
  split
  · exact hsend _ _ h fun _ _ hc => by cases hc
  split
  · exact hsend _ _ (rule.frame h (.of_eq rfl rfl)) fun _ _ hc => by cases hc
  · exact hsend _ _ (rule.frame h (.of_eq rfl rfl)) fun _ _ hc => by cases hc

lemma answeringApplication_drivers (driverId : String) (s : MasterState) :
    DriversKept s (answeringApplication driverId s) := by
  simp only [Master.answeringApplication]
  split
  · exact .of_eq rfl rfl
  · exact .of_eq rfl rfl

lemma handleApplicationStateResponse (rule : MemberRule Lost Complete base I) (h : I base s)
    (hLost : s.state ≠ .active → ∀ w, Lost w) {driverId : String}
    (hC : CompletesIn Complete env s (.applicationStateResponse driverId)) :
    wp (handleApplicationStateResponse env driverId) (fun _ => I base)
      (fun s' => ∃ due, I due s') s := by
  rw [Master.handleApplicationStateResponse, wp_bind, wp_modify]
  have k := answeringApplication_drivers driverId s
  refine rule.completeIfPossible env (rule.frame h k) (k.state ▸ hLost) fun hs hcan => ?_
  exact hC (k.state ▸ hs) hcan

lemma timeOutDeadWorkers (rule : MemberRule Lost Complete base I) (h : I base s)
    (hLost : ∀ w ∈ s.workers, (s.worker w).state ≠ .dead →
      (s.worker w).lastHeartbeat + env.workerTimeoutMs < env.now → Lost w) :
    wp (timeOutDeadWorkers env) (fun _ => I base) (fun s' => ∃ due, I due s') s := by
  simp only [Master.timeOutDeadWorkers, wp_bind, wp_get, draw_wp]
  -- no worker comes back to life while the loop goes on
  refine wp_forEach (I := fun ws s' => I base s' ∧ ∀ w ∈ ws, (s'.worker w).state ≠ .dead → Lost w)
    ?_ (fun _ hI => hI.1) _ _ ⟨rule.frame h (.of_eq rfl rfl), fun w hw hd => ?_⟩
  · rintro w ws s' ⟨h', hl⟩
    have hl' : ∀ v ∈ ws, (s'.worker v).state ≠ .dead → Lost v := fun v hv =>
      hl v (List.mem_cons_of_mem _ hv)
    simp only [wp_bind, wp_get, wp_ite, wp_modify, wp_pure]
    split
    · rename_i hd
      refine wp_mono (wp_and (rule.removeWorker env h' (hl w List.mem_cons_self hd))
        (Master.removeWorker_wp env)) ?_ fun _ h'' => h''.1
      rintro _ s'' ⟨h'', k⟩
      refine ⟨h'', fun v hv hdv => hl' v hv fun hc => hdv ?_⟩
      rw [k.workerState v]
      simp only [forgetWorker, updateWorker_worker]
      split
      · rfl
      · exact hc
    · rename_i hd
      split
      · exact ⟨rule.expire h' (not_not.mp hd), hl'⟩
      · exact ⟨h', hl'⟩
  · simp only [Shuffle.mem_apply, List.mem_filter, decide_eq_true_eq] at hw
    exact hLost w hw.1 hd hw.2

lemma handleDriverStateChanged (rule : MemberRule Lost Complete base I) {change : DriverStateChanged}
    (h : I (removedIds (.driverStateChanged change) ∪ base) s) :
    wp (handleDriverStateChanged env change) (fun _ => I base) (I base) s := by
  simp only [Master.handleDriverStateChanged, wp_ite]
  split
  · rename_i hf
    refine rule.removeDriver env ?_
    simpa [removedIds, hf, Set.insert_def, Set.union_def] using h
  · rename_i hf
    have h0 : I base { s with draws := s.draws + 1 } := by
      refine rule.frame ?_ (s := s) (.of_eq rfl rfl)
      simpa [removedIds, hf] using h
    simp only [findDriver, wp_bind, wp_get, draw_wp, wp_pure]
    cases hfind : ((env.random s.draws).apply s.drivers).find?
        fun d => (s.driver d).id = change.driverId with
    | none => exact h0
    | some d =>
      have hd : d ∈ s.drivers := by simpa using List.mem_of_find?_eq_some hfind
      exact rule.change change h0 hd

lemma handleRequestSubmitDriver (rule : MemberRule Lost Complete base I) (h : I base s)
    {driverName : String} {desc : DriverDesc} (hLost : ∀ w, Lost w → s.state ≠ .active)
    (hfresh : SubmitsFresh s (.requestSubmitDriver driverName desc)) :
    wp (handleRequestSubmitDriver env driverName desc) (fun _ => I base) (fun _ => False) s := by
  simp only [Master.handleRequestSubmitDriver, createDriver, newDriver, wp_bind, wp_get, wp_ite,
    wp_modify, wp_pure]
  split
  · refine rule.send _ _ h fun _ _ hc => ?_
    cases hc
  · rename_i hs
    rw [not_not] at hs
    have h1 := rule.submit ⟨env.now, driverName, desc, env.now⟩ env.now h hs (hfresh hs)
      fun w hw => hLost w hw hs
    refine wp_mono (rule.schedule env (rule.frame h1 ?_)) (fun _ s' h' => ?_) fun _ hf => hf
    · exact .of_eq rfl rfl
    · refine rule.send _ _ h' fun _ _ hc => ?_
      cases hc

/-- A kill request leaves the drivers as they are, or it takes one out of the queue and notifies
the master itself, so that the driver is due. -/
lemma handleRequestKillDriver (rule : MemberRule Lost Complete base I) (h : I base s)
    (driverId : String) :
    wp (handleRequestKillDriver env driverId)
      (fun _ s' => AfterMessage I env base s (.requestKillDriver driverId) s') (fun _ => False) s := by
  have h0 : I base { s with draws := s.draws + 1 } := rule.frame h (.of_eq rfl rfl)
  simp only [Master.handleRequestKillDriver, findDriver, wp_bind, wp_get, wp_ite, wp_modify,
    draw_wp, wp_pure]
  split
  · refine Or.inl (rule.send _ _ h fun _ _ hc => ?_)
    cases hc
  cases hfind : ((env.random s.draws).apply s.drivers).find?
      fun d => (s.driver d).id = driverId with
  | none =>
    refine Or.inl (rule.send _ _ h0 fun _ _ hc => ?_)
    cases hc
  | some d =>
    have hd : d ∈ s.drivers := by simpa using List.mem_of_find?_eq_some hfind
    have hid : (s.driver d).id = driverId := by simpa using List.find?_some hfind
    simp only [killDriver, wp_bind, wp_get, wp_ite, wp_modify, List.contains_iff_mem]
    split
    · rename_i hwait
      have h1 := rule.dequeue h0 hd hwait
      rw [show ({ s with draws := s.draws + 1 } : MasterState).driver d = s.driver d from rfl,
        hid] at h1
      refine Or.inr ⟨⟨driverId, .killed, none, none, env.now⟩, rfl, rfl, ?_, ?_⟩
      · simp [MasterState.send, dequeueDriver]
      · refine rule.send _ _ (rule.send _ _ h1 fun _ _ hc => ?_) fun _ _ hc => ?_
        · cases hc
        · cases hc
    · split
      · refine Or.inl (rule.send _ _ (rule.send _ _ h0 fun _ _ hc => ?_) fun _ _ hc => ?_)
        · cases hc
        · cases hc
      · refine Or.inl (rule.send _ _ h0 fun _ _ hc => ?_)
        cases hc

lemma handleRequestDriverStatus (rule : MemberRule Lost Complete base I) (h : I base s)
    (driverId : String) :
    wp (handleRequestDriverStatus env driverId) (fun _ => I base) (fun _ => False) s := by
  have h0 : I base { s with draws := s.draws + 1 } := rule.frame h (.of_eq rfl rfl)
  simp only [Master.handleRequestDriverStatus, wp_bind, wp_get, wp_ite, wp_modify, draw_wp]
  split
  · refine rule.send _ _ h fun _ _ hc => ?_
    cases hc
  · split
    · refine rule.send _ _ h0 fun _ _ hc => ?_
      cases hc
    · refine rule.send _ _ h0 fun _ _ hc => ?_
      cases hc

lemma handleRequestAllDriverStatus (rule : MemberRule Lost Complete base I) (h : I base s)
    (pattern : Option String) :
    wp (handleRequestAllDriverStatus env pattern) (fun _ => I base) (fun _ => False) s := by
  simp only [Master.handleRequestAllDriverStatus, wp_bind, wp_get, wp_ite, wp_modify, draw_wp]
  split
  · refine rule.send _ _ h fun _ _ hc => ?_
    cases hc
  · refine rule.send _ _ (rule.frame h ?_) fun _ _ hc => ?_
    · exact .of_eq rfl rfl
    · cases hc

lemma onDisconnected (rule : MemberRule Lost Complete base I) (h : I base s)
    {remoteAddress : Address} (hLost : ∀ w, Loses env s (.disconnected remoteAddress) w → Lost w)
    (hC : CompletesIn Complete env s (.disconnected remoteAddress)) :
    wp (onDisconnected env remoteAddress) (fun _ => I base) (fun s' => ∃ due, I due s') s := by
  have hworker : wp (disconnectWorker env remoteAddress)
      (fun _ s' => I base s' ∧ s'.state = s.state) (fun s' => ∃ due, I due s') s := by
    simp only [disconnectWorker, wp_bind, wp_get]
    split
    · rename_i w hw
      refine wp_mono (wp_and (rule.removeWorker env h (hLost w (Or.inr hw)))
        ((Shrinks.removeWorker env w).wp s)) ?_ fun _ h' => h'.1
      exact fun _ s' h' => ⟨h'.1, h'.2.state⟩
    · exact ⟨h, rfl⟩
  have happ : Keeps DriversKept (disconnectApplication remoteAddress) := by
    refine Keeps.get.bind fun s => ?_
    split
    · exact removeApplication_drivers _
    · exact Keeps.pure _
  simp only [CompletesIn, wp_bind] at hC
  simp only [Master.onDisconnected, wp_bind, wp_get, wp_ite, wp_pure]
  refine wp_mono (wp_and hworker hC) ?_ fun _ h' => h'.1
  rintro _ s1 ⟨⟨h1, hs1⟩, hC1⟩
  refine wp_mono (wp_and (happ.wp s1) hC1) ?_ fun s2 h2 => ⟨base, rule.frame h1 h2.1⟩
  rintro _ s2 ⟨k, hC2⟩
  split
  · refine rule.completeIfPossible env (rule.frame h1 k) (fun hs => ?_) hC2
    rw [k.state, hs1] at hs
    exact fun w => hLost w (Or.inl hs)
  · exact rule.frame h1 k

/-! ### Every message -/

lemma handleMessage (rule : MemberRule Lost Complete base I) {m : Message}
    (h : I (removedIds m ∪ base) s) (hM : Membership s) (hd : Deliverable s m)
    (hLost : ∀ w, Lost w ↔ Loses env s m w) (hfresh : SubmitsFresh s m)
    (hC : CompletesIn Complete env s m) :
    wp (handleMessage env m) (fun _ => AfterMessage I env base s m) (fun s' => ∃ due, I due s')
      s := by
  have hidle : s.state ≠ .active → ∀ w, Lost w := fun hs w => (hLost w).mpr (Or.inl hs)
  have keep : ∀ {M : Handler MasterState Unit} {E : MasterState → Prop},
      wp M (fun _ => I base) E s → (∀ s', E s' → ∃ due, I due s') →
      wp M (fun _ => AfterMessage I env base s m) (fun s' => ∃ due, I due s') s :=
    fun hw hE => wp_mono hw (fun _ _ h' => Or.inl h') hE
  have hdue : (∀ change, m ≠ .driverStateChanged change) → I base s := by
    intro hne
    cases m <;> simp_all [removedIds]
  cases m with
  | driverStateChanged change =>
    exact keep (rule.handleDriverStateChanged env h) fun _ h' => ⟨base, h'⟩
  | electedLeader startOnBoot =>
    have h := hdue (by simp)
    exact keep (rule.electedLeader env h hd hidle startOnBoot) fun _ h' => h'
  | registerWorker id host port worker address =>
    have h := hdue (by simp)
    exact keep (rule.handleRegisterWorker env h hM _ fun w ha hs =>
      (hLost w).mpr (Or.inr ⟨ha, hs⟩))
      fun _ h' => h'
  | heartbeat workerId worker =>
    have h := hdue (by simp)
    exact Or.inl (rule.handleHeartbeat env h workerId worker)
  | workerSchedulerStateResponse workerId driverIds =>
    have h := hdue (by simp)
    have hl : ∀ w, Lost w ↔ s.state ≠ .active := fun w => (hLost w).trans (or_iff_left id)
    exact keep (rule.handleWorkerSchedulerStateResponse env h hM hl hC) fun _ h' => h'
  | workerLatestState workerId driverIds =>
    have h := hdue (by simp)
    exact Or.inl (rule.handleWorkerLatestState h workerId driverIds)
  | registerApplication driverId host port endpoint address dataPort appType =>
    have h := hdue (by simp)
    exact keep (rule.handleRegisterApplication h _) fun _ hf => hf.elim
  | applicationStateResponse driverId =>
    have h := hdue (by simp)
    exact keep (rule.handleApplicationStateResponse env h hidle hC) fun _ h' => h'
  | completeRecovery =>
    have h := hdue (by simp)
    exact keep (rule.completeRecovery env h hidle hC) fun _ h' => h'
  | checkForWorkerTimeOut =>
    have h := hdue (by simp)
    exact keep (rule.timeOutDeadWorkers env h fun w hw hs ht =>
      (hLost w).mpr (Or.inr ⟨hw, hs, ht⟩))
      fun _ h' => h'
  | requestSubmitDriver driverName desc =>
    have h := hdue (by simp)
    have hl : ∀ w, Lost w ↔ s.state ≠ .active := fun w => (hLost w).trans (or_iff_left id)
    exact keep (rule.handleRequestSubmitDriver env h (fun w => (hl w).mp) hfresh)
      fun _ hf => hf.elim
  | requestKillDriver driverId =>
    have h := hdue (by simp)
    exact wp_mono (rule.handleRequestKillDriver env h driverId) (fun _ _ h' => h')
      fun _ hf => hf.elim
  | requestDriverStatus driverId =>
    have h := hdue (by simp)
    exact keep (rule.handleRequestDriverStatus env h driverId) fun _ hf => hf.elim
  | requestAllDriverStatus pattern =>
    have h := hdue (by simp)
    exact keep (rule.handleRequestAllDriverStatus env h pattern) fun _ hf => hf.elim
  | disconnected remoteAddress =>
    have h := hdue (by simp)
    exact keep (rule.onDisconnected env h (fun w => (hLost w).mpr) hC) fun _ h' => h'

/-- A step keeps the invariant; an exception makes the master start again. -/
theorem step (rule : MemberRule Lost Complete base I) {m : Message}
    (h : I (removedIds m ∪ base) s) (hM : Membership s) (hd : Deliverable s m)
    (hLost : ∀ w, Lost w ↔ Loses env s m w) (hfresh : SubmitsFresh s m)
    (hC : CompletesIn Complete env s m) : AfterMessage I env base s m (step env m s) := by
  refine step_of_wp env (wp_mono (rule.handleMessage env h hM hd hLost hfresh hC)
    (fun _ _ h' => h') ?_)
  rintro s' ⟨due, h'⟩
  exact Or.inl (rule.restart h')

end MemberRule

end Moonbox.Deploy
