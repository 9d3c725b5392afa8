import Moonbox.Deploy.Ledger

/-!
# What has been dispatched

Whatever ids the submissions use, a driver is launched once at most, and each `LaunchDriver` that was
sent is the launch of one of them at the worker it was given to.
-/

namespace Moonbox.Deploy

open Actor Handler Master MasterState

/-- The receiver of a `LaunchDriver` message and what is to be launched. -/
def Envelope.launch (e : Envelope) : Option (ActorRef × String × DriverDesc) :=
  match e.message with
  | .launchDriver driverId desc => some (e.receiver, driverId, desc)
  | _ => none

/-- What the message of a launch says. -/
def MasterState.launchOf (s : MasterState) (launch : DriverRef × WorkerRef) :
    ActorRef × String × DriverDesc :=
  ((s.worker launch.2).endpoint, (s.driver launch.1).id, (s.driver launch.1).desc)

/-- References are old ones, no driver is launched twice, and the launches are what was sent. The
messages in `old` are the first of those sent. -/
structure Dispatch (old : List Envelope) (s : MasterState) : Prop where
  worker_lt : ∀ w ∈ s.workers, w < s.nextWorker
  waiting_lt : ∀ d ∈ s.waitingDrivers, d < s.nextDriver
  waiting_nodup : s.waitingDrivers.Nodup
  standby : s.state = .standby → s.drivers = []
  launch_lt : ∀ d w, (d, w) ∈ s.launches → d < s.nextDriver ∧ w < s.nextWorker
  launched : ∀ d w, (d, w) ∈ s.launches → d ∉ s.waitingDrivers
  launches_nodup : (s.launches.map Prod.fst).Nodup
  launch_sent : s.sent.filterMap Envelope.launch = s.launches.map s.launchOf
  sent : old <+: s.sent

namespace Dispatch

variable {old : List Envelope} {s s' : MasterState}

lemma init (engine : PersistenceEngine) : Dispatch [] { persistenceEngine := engine } where
  worker_lt := by simp
  waiting_lt := by simp
  waiting_nodup := by simp
  standby := by simp
  launch_lt := by simp
  launched := by simp
  launches_nodup := by simp
  launch_sent := by simp
  sent := by simp

lemma rebase (h : Dispatch old s) : Dispatch s.sent s := { h with sent := List.prefix_refl s.sent }

/-- What describes the drivers and workers there are stays. -/
structure Describes (s s' : MasterState) : Prop where
  nextDriver : s.nextDriver ≤ s'.nextDriver
  nextWorker : s.nextWorker ≤ s'.nextWorker
  driver : ∀ d < s.nextDriver, (s'.driver d).toDriverRecord = (s.driver d).toDriverRecord
  endpoint : ∀ w < s.nextWorker, (s'.worker w).endpoint = (s.worker w).endpoint

lemma launchOf_congr (h : Dispatch old s) (hdescribes : Describes s s') :
    s.launches.map s'.launchOf = s.launches.map s.launchOf := by
  refine List.map_congr_left fun p hp => ?_
  obtain ⟨hd, hw⟩ := h.launch_lt p.1 p.2 hp
  rw [launchOf, hdescribes.driver p.1 hd, hdescribes.endpoint p.2 hw, launchOf]

/-- The dispatch survives what launches nothing and lets nothing wait. -/
lemma mono (h : Dispatch old s) (hdescribes : Describes s s')
    (hworkers : ∀ w ∈ s'.workers, w < s'.nextWorker)
    (hwaiting : s'.waitingDrivers.Sublist s.waitingDrivers)
    (hstandby : s'.state = .standby → s'.drivers = []) (hlaunches : s'.launches = s.launches)
    (hsent : s.sent <+: s'.sent)
    (hlaunch : s'.sent.filterMap Envelope.launch = s.sent.filterMap Envelope.launch) :
    Dispatch old s' where
  worker_lt := hworkers
  waiting_lt d hd := Nat.lt_of_lt_of_le (h.waiting_lt d (hwaiting.subset hd)) hdescribes.nextDriver
  waiting_nodup := h.waiting_nodup.sublist hwaiting
  standby := hstandby
  launch_lt d w hl := by
    obtain ⟨hd, hw⟩ := h.launch_lt d w (hlaunches ▸ hl)
    exact ⟨Nat.lt_of_lt_of_le hd hdescribes.nextDriver,
      Nat.lt_of_lt_of_le hw hdescribes.nextWorker⟩
  launched d w hl hw := h.launched d w (hlaunches ▸ hl) (hwaiting.subset hw)
  launches_nodup := hlaunches ▸ h.launches_nodup
  launch_sent := by
    rw [hlaunch, h.launch_sent, hlaunches, h.launchOf_congr hdescribes]
  sent := h.sent.trans hsent

lemma describes_of_eq (hdriver : ∀ d, (s'.driver d).toDriverRecord = (s.driver d).toDriverRecord)
    (hworker : ∀ w, (s'.worker w).endpoint = (s.worker w).endpoint)
    (hnextDriver : s'.nextDriver = s.nextDriver) (hnextWorker : s'.nextWorker = s.nextWorker) :
    Describes s s' :=
  ⟨Nat.le_of_eq hnextDriver.symm, Nat.le_of_eq hnextWorker.symm, fun d _ => hdriver d,
    fun w _ => hworker w⟩

/-- Neither the collections nor the messages change. -/
lemma same (h : Dispatch old s) (hdescribes : Describes s s') (hworkers : s'.workers ⊆ s.workers)
    (hwaiting : s'.waitingDrivers.Sublist s.waitingDrivers) (hstate : s'.state = s.state)
    (hdrivers : s'.drivers ⊆ s.drivers) (hlaunches : s'.launches = s.launches)
    (hsent : s'.sent = s.sent) : Dispatch old s' := by
  refine h.mono hdescribes (fun w hw => ?_) hwaiting (fun hs => ?_) hlaunches
    (hsent ▸ List.prefix_refl s'.sent) (by rw [hsent])
  · exact Nat.lt_of_lt_of_le (h.worker_lt w (hworkers hw)) hdescribes.nextWorker
  · exact List.eq_nil_of_subset_nil (h.standby (hstate ▸ hs) ▸ hdrivers)

lemma frame (h : Dispatch old s) (k : DriversKept s s') : Dispatch old s' :=
  h.same (describes_of_eq (fun d => by rw [k.driver]) (fun w => congrArg WorkerRecord.endpoint (k.record w))
    k.nextDriver k.nextWorker) (k.workers ▸ List.Subset.refl _)
    (k.waitingDrivers ▸ List.Sublist.refl _) k.state (k.drivers ▸ List.Subset.refl _) k.launches
    k.sent

lemma send (h : Dispatch old s) (receiver : ActorRef) {message : Outgoing}
    (hm : ∀ driverId desc, message ≠ .launchDriver driverId desc) :
    Dispatch old (s.send receiver message) := by
  have hnone : Envelope.launch ⟨receiver, message⟩ = none := by
    cases message <;> simp_all [Envelope.launch]
  exact h.mono (describes_of_eq (fun _ => rfl) (fun _ => rfl) rfl rfl) h.worker_lt
    (List.Sublist.refl _) h.standby rfl (List.prefix_append _ _)
    (by simp [MasterState.send, hnone])

lemma launch (h : Dispatch old s) {w : WorkerRef} {d : DriverRef} {rest : List DriverRef}
    (hw : w ∈ s.workers) (hd : s.waitingDrivers = d :: rest) :
    Dispatch old (launchNext w d s) := by
  have hwait : (launchNext w d s).waitingDrivers = rest := by
    rw [launchNext_waitingDrivers, hd, List.erase_cons_head]
  have hn := h.waiting_nodup
  rw [hd, List.nodup_cons] at hn
  have hrest : ∀ e ∈ rest, e ∈ s.waitingDrivers := fun e he => hd ▸ List.mem_cons_of_mem d he
  have hdw : d ∈ s.waitingDrivers := hd ▸ List.mem_cons_self
  have hdescribes : Describes s (launchNext w d s) := by
    refine describes_of_eq (OnlyRemoves.launchNext w d s).record (fun v => ?_)
      (launchNext_nextDriver ..) (launchNext_nextWorker ..)
    exact congrArg WorkerRecord.endpoint ((launchDriver_members w d s).record v)
  have hold : ∀ e v, (e, v) ∈ (launchNext w d s).launches → (e, v) ∈ s.launches ∨ e = d ∧ v = w := by
    intro e v hl
    rw [launchNext_launches, List.mem_append, List.mem_singleton, Prod.mk.injEq] at hl
    exact hl
  constructor
  · simpa using h.worker_lt
  · rw [hwait, launchNext_nextDriver]
    exact fun e he => h.waiting_lt e (hrest e he)
  · rw [hwait]
    exact hn.2
  · rw [launchNext_state, launchNext_drivers]
    exact h.standby
  · intro e v hl
    rw [launchNext_nextDriver, launchNext_nextWorker]
    rcases hold e v hl with hl | ⟨rfl, rfl⟩
    · exact h.launch_lt e v hl
    · exact ⟨h.waiting_lt e hdw, h.worker_lt v hw⟩
  · intro e v hl
    rw [hwait]
    rcases hold e v hl with hl | ⟨rfl, -⟩
    · exact fun he => h.launched e v hl (hrest e he)
    · exact hn.1
  · rw [launchNext_launches, List.map_append, List.nodup_append]
    refine ⟨h.launches_nodup, by simp, fun e he e' he' hee => ?_⟩
    obtain ⟨⟨e, v⟩, hl, rfl⟩ := List.mem_map.mp he
    simp only [List.map_cons, List.map_nil, List.mem_singleton] at he'
    have hed : e = d := hee.trans he'
    exact h.launched e v hl (hed ▸ hdw)
  · rw [launchNext_sent, launchNext_launches, List.filterMap_append, h.launch_sent, List.map_append,
      h.launchOf_congr hdescribes]
    have hwlt := h.worker_lt w hw
    have hdlt := h.waiting_lt d hdw
    rw [List.map_singleton, launchOf, hdescribes.driver d hdlt, hdescribes.endpoint w hwlt]
    rfl
  · rw [launchNext_sent]
    exact h.sent.trans (List.prefix_append _ _)

/-- A new driver enters, whatever its id. -/
lemma enterDriver (h : Dispatch old s) (record : DriverRecord) (now : Nat) (hs : s.state ≠ .standby) :
    Dispatch old (enterDriver s.nextDriver (allocDriver (.init record now) s)) := by
  have hdescribes : Describes s
      (Master.enterDriver s.nextDriver (allocDriver (.init record now) s)) := by
    refine ⟨Nat.le_succ _, le_rfl, fun d hd => ?_, fun _ _ => rfl⟩
    change (Function.update s.driver s.nextDriver _ d).toDriverRecord = _
    rw [Function.update_of_ne (Nat.ne_of_lt hd)]
  exact h.mono hdescribes h.worker_lt (List.Sublist.refl _) (fun hc => absurd hc hs) rfl
    (List.prefix_refl _) rfl

lemma submit (h : Dispatch old s) (record : DriverRecord) (now : Nat) (hs : s.state = .active) :
    Dispatch old (enqueueDriver s.nextDriver (allocDriver (.init record now) s)) := by
  have h' := h.enterDriver record now (by simp [hs])
  exact
    { worker_lt := h'.worker_lt
      waiting_lt := fun d hd => by
        rcases List.mem_append.mp hd with hd | hd
        · exact h'.waiting_lt d hd
        · rw [List.mem_singleton.mp hd]
          exact Nat.lt_succ_self _
      waiting_nodup := by
        refine List.nodup_append.mpr ⟨h.waiting_nodup, by simp, fun d hd e he => ?_⟩
        rw [List.mem_singleton.mp he]
        exact Nat.ne_of_lt (h.waiting_lt d hd)
      standby := h'.standby
      launch_lt := h'.launch_lt
      launched := fun d w hl hd => by
        rcases List.mem_append.mp hd with hd | hd
        · exact h.launched d w hl hd
        · rw [List.mem_singleton.mp hd] at hl
          exact Nat.lt_irrefl _ (h.launch_lt _ w hl).1
      launches_nodup := h.launches_nodup
      launch_sent := h'.launch_sent
      sent := h.sent }

lemma finish (h : Dispatch old s) (d : DriverRef) (change : DriverStateChanged) :
    Dispatch old (finishDriver d change s) := by
  refine h.same (describes_of_eq (OnlyRemoves.finishDriver d change s).record (fun v => ?_)
    (by simp) (by simp)) (by simp) ?_ (by simp) (by simp) (by simp) (by simp)
  · rw [finishDriver_worker]
    split <;> rfl
  · rw [finishDriver_waitingDrivers]

lemma complete (h : Dispatch old s) (d : DriverRef) : Dispatch old (completeDriver d s) :=
  h.same (describes_of_eq (fun _ => rfl) (fun _ => rfl) rfl rfl) (List.Subset.refl _)
    (List.Sublist.refl _) rfl (List.filter_subset_self _) rfl rfl

lemma updateWorker (h : Dispatch old s) (w : WorkerRef) {f : WorkerInfo → WorkerInfo}
    (hf : (f (s.worker w)).endpoint = (s.worker w).endpoint) : Dispatch old (s.updateWorker w f) := by
  refine h.same (describes_of_eq (fun _ => rfl) (fun v => ?_) rfl rfl) (List.Subset.refl _)
    (List.Sublist.refl _) rfl (List.Subset.refl _) rfl rfl
  rw [updateWorker_worker]
  split
  · rename_i hv
    rw [hv, hf]
  · rfl

lemma updateDriver (h : Dispatch old s) (d : DriverRef) {f : DriverInfo → DriverInfo}
    (hf : (f (s.driver d)).toDriverRecord = (s.driver d).toDriverRecord) :
    Dispatch old (s.updateDriver d f) := by
  refine h.same (describes_of_eq (fun e => ?_) (fun _ => rfl) rfl rfl) (List.Subset.refl _)
    (List.Sublist.refl _) rfl (List.Subset.refl _) rfl rfl
  rw [updateDriver_driver]
  split
  · rename_i he
    rw [he, hf]
  · rfl

/-- The dispatch is kept by every change. -/
lemma rule (old : List Envelope) (Lost : WorkerRef → Prop) (Complete : MasterState → Prop) :
    MemberRule Lost Complete ∅ fun _ => Dispatch old where
  frame h k := h.frame k
  send receiver _ h hm := h.send receiver hm
  launch h _ hw _ hd := h.launch hw hd
  absent h _ := h
  complete h _ := h.complete _
  remove change h _ := (h.complete _).finish _ change
  forget {_ s w} h _ := (h.updateWorker w (f := (·.setState .dead)) rfl).same
    (describes_of_eq (fun _ => rfl) (fun _ => rfl) rfl rfl) (List.Subset.refl _)
    (List.Sublist.refl _) rfl (List.Subset.refl _) rfl rfl
  standby h := h.standby
  idle h _ _ := h
  allocWorker {s} record now h := by
    refine h.mono ⟨le_rfl, Nat.le_succ _, fun _ _ => rfl, fun w hw => ?_⟩
      (fun w hw => Nat.lt_succ_of_lt (h.worker_lt w hw)) (List.Sublist.refl _) h.standby rfl
      (List.prefix_refl _) rfl
    change (Function.update s.worker s.nextWorker _ w).endpoint = _
    rw [Function.update_of_ne (Nat.ne_of_lt hw)]
  dropDead _ h := h.same (describes_of_eq (fun _ => rfl) (fun _ => rfl) rfl rfl)
    (List.filter_subset_self _) (List.Sublist.refl _) rfl (List.Subset.refl _) rfl rfl
  enter h hw := h.mono (describes_of_eq (fun _ => rfl) (fun _ => rfl) rfl rfl)
    (fun v hv => (List.mem_insert_iff.mp hv).elim (fun he => he ▸ hw) (h.worker_lt v))
    (List.Sublist.refl _) h.standby rfl (List.prefix_refl _) rfl
  setState w _ h _ := h.updateWorker w rfl
  expire h _ := h.same (describes_of_eq (fun _ => rfl) (fun _ => rfl) rfl rfl)
    (List.filter_subset_self _) (List.Sublist.refl _) rfl (List.Subset.refl _) rfl rfl
  claim {s w d} h _ _ _ :=
    (h.updateDriver d (f := ({ · with worker := some w, state := .running })) rfl).updateWorker w rfl
  change {s d} change h _ := h.updateDriver d rfl
  recover record now h hs _ := h.enterDriver record now (by simp [hs])
  submit record now h hs _ _ := h.submit record now hs
  dequeue h _ _ := h.same (describes_of_eq (fun _ => rfl) (fun _ => rfl) rfl rfl)
    (List.Subset.refl _) List.erase_sublist rfl (List.Subset.refl _) rfl rfl
  lead h hs hstate := h.mono (describes_of_eq (fun _ => rfl) (fun _ => rfl) rfl rfl) h.worker_lt
    (List.Sublist.refl _) (fun hc => by rcases hstate with rfl | rfl <;> cases hc) rfl
    (List.prefix_refl _) rfl
  begin h _ _ := h.mono (describes_of_eq (fun _ => rfl) (fun _ => rfl) rfl rfl) h.worker_lt
    (List.Sublist.refl _) (fun hc => by cases hc) rfl (List.prefix_refl _) rfl
  activate h _ := h.mono (describes_of_eq (fun _ => rfl) (fun _ => rfl) rfl rfl) h.worker_lt
    (List.Sublist.refl _) (fun hc => by cases hc) rfl (List.prefix_refl _) rfl
  restart h := h.mono (describes_of_eq (fun _ => rfl) (fun _ => rfl) rfl rfl)
    (fun _ hw => absurd hw List.not_mem_nil) (List.nil_sublist _) (fun _ => rfl) rfl
    (List.prefix_refl _) rfl

/-- A submission may use any id. -/
lemma handleRequestSubmitDriver (env : Env) (h : Dispatch old s) (driverName : String)
    (desc : DriverDesc) :
    wp (handleRequestSubmitDriver env driverName desc) (fun _ => Dispatch old) (fun _ => False) s := by
  have hrule := (rule old (fun _ => False) fun _ => True).toDriverRule
  simp only [Master.handleRequestSubmitDriver, createDriver, newDriver, wp_bind, wp_get, wp_ite,
    wp_modify, wp_pure]
  split
  · refine h.send _ fun _ _ hc => ?_
    cases hc
  · rename_i hs
    rw [not_not] at hs
    have h1 := h.submit ⟨env.now, driverName, desc, env.now⟩ env.now hs
    refine wp_mono (@DriverRule.schedule _ _ ∅ _ env hrule (h1.frame (.of_eq rfl rfl)))
      (fun _ s' h' => ?_) fun _ hf => hf
    refine h'.send _ fun _ _ hc => ?_
    cases hc

lemma step (env : Env) {m : Message} (h : Dispatch old s) (hM : Membership s) (hd : Deliverable s m) :
    Dispatch old (step env m s) := by
  have hfresh : (∀ driverName desc, m ≠ .requestSubmitDriver driverName desc) →
      Dispatch old (Master.step env m s) := by
    intro hm
    have hsubmit : SubmitsFresh s m := by
      cases m
      case requestSubmitDriver driverName desc => exact absurd rfl (hm driverName desc)
      all_goals trivial
    rcases (rule old (Loses env s m) fun _ => True).step env h hM hd (fun _ => Iff.rfl) hsubmit
      (completesIn_true env s m) with h' | ⟨-, -, -, -, h'⟩ <;> exact h'
  cases m
  case requestSubmitDriver driverName desc =>
    exact step_of_wp env (wp_mono (h.handleRequestSubmitDriver env driverName desc)
      (fun _ _ h' => h') fun _ hf => hf.elim)
  all_goals exact hfresh fun _ _ hc => Message.noConfusion hc

lemma restart (h : Dispatch old s) : Dispatch old s.restart :=
  @MemberRule.restart _ _ _ _ (rule old (fun _ => False) fun _ => True) ∅ s h

end Dispatch

end Moonbox.Deploy
