import Moonbox.Deploy.Membership

/-!
# The membership indexes along a run

Every handler keeps `Membership`, also when it stops with an exception, and so the indexes agree
in every reachable state.
-/

namespace Moonbox.Deploy

open Actor Handler Relation

namespace Master

variable (env : Env) {s : MasterState}

@[simp] lemma draw_wp {α : Type} (xs : List α) {Q : List α → MasterState → Prop}
    {E : MasterState → Prop} :
    wp (draw env xs) Q E s ↔
      Q ((env.random s.draws).apply xs) { s with draws := s.draws + 1 } := Iff.rfl

/-- The driver found is one of `drivers`, and only if there is none is nothing found. -/
lemma findDriver_wp {driverId : String} {Q : Option DriverRef → MasterState → Prop}
    {E : MasterState → Prop}
    (hnone : (∀ d ∈ s.drivers, (s.driver d).id ≠ driverId) →
      Q none { s with draws := s.draws + 1 })
    (hsome : ∀ d ∈ s.drivers, (s.driver d).id = driverId →
      Q (some d) { s with draws := s.draws + 1 }) : wp (findDriver env driverId) Q E s := by
  simp only [findDriver, wp_bind, wp_get, draw_wp, wp_pure]
  cases hfind : ((env.random s.draws).apply s.drivers).find? fun d => (s.driver d).id = driverId with
  | none =>
    refine hnone fun d hd => ?_
    simp only [List.find?_eq_none, Shuffle.mem_apply, decide_eq_true_eq] at hfind
    exact hfind d hd
  | some d =>
    refine hsome d ?_ ?_
    · simpa using List.mem_of_find?_eq_some hfind
    · simpa using List.find?_some hfind

/-! ### Removal -/

lemma removeWorker_wp {w : WorkerRef} :
    wp (removeWorker env w) (fun _ => MembersKept (forgetWorker w s))
      (MembersKept (forgetWorker w s)) s :=
  (wp_exec _ _).mpr (removeWorker_members env w s)

/-- Removing, one by one, distinct members. -/
lemma removeWorkers_wp {ws : List WorkerRef} (h : Membership s) (hws : ∀ w ∈ ws, s.IsMember w)
    (hn : ws.Nodup) :
    wp (forEach (removeWorker env) ws)
      (fun _ s' => Membership s' ∧ s'.state = s.state ∧ s'.apps = s.apps ∧ s'.app = s.app)
      Membership s := by
  refine wp_forEach (I := fun ws s' => (Membership s' ∧ (∀ w ∈ ws, s'.IsMember w) ∧ ws.Nodup) ∧
    s'.state = s.state ∧ s'.apps = s.apps ∧ s'.app = s.app) ?_ ?_ ws s ⟨⟨h, hws, hn⟩, rfl, rfl, rfl⟩
  · rintro w ws s' ⟨⟨h', hw, hn'⟩, hs, happs, happ⟩
    rw [List.nodup_cons] at hn'
    have hf := h'.forgetWorker (hw w List.mem_cons_self)
    refine wp_mono (removeWorker_wp env) (fun _ s'' k => ⟨⟨k.membership hf, ?_, hn'.2⟩, ?_⟩)
      fun _ k => k.membership hf
    · intro v hv
      rw [k.isMember, isMember_forgetWorker]
      exact ⟨hw v (List.mem_cons_of_mem _ hv), fun he => hn'.1 (he ▸ hv)⟩
    · exact ⟨k.state.trans hs, k.apps.trans happs, k.app.trans happ⟩
  · exact fun _ hI => ⟨hI.1.1, hI.2⟩

lemma removeApplication_wp {a : AppRef} (h : Membership s) (ha : a ∈ s.apps) :
    wp (removeApplication a)
      (fun _ s' => Membership s' ∧ s'.apps = s.apps.filter (· ≠ a) ∧ s'.state = s.state ∧
        s'.workers = s.workers)
      (fun _ => True) s := by
  simp only [removeApplication, wp_bind, wp_modify, wp_get]
  refine wp_mono ((persisting_keeps _).wp _) (fun _ s' k => ?_) fun _ _ => trivial
  have hf : Membership { s with
      apps := s.apps.filter (· ≠ a)
      idToApp := Function.update s.idToApp (s.app a).id none
      addressToApp := Function.update s.addressToApp (s.app a).address none } :=
    { idToWorker := h.idToWorker
      addressToWorker := h.addressToWorker
      idToApp := (h.idToApp.erase ha).congr (fun b => by simp) fun _ _ => rfl
      addressToApp := (h.addressToApp.erase ha).congr (fun b => by simp) fun _ _ => rfl
      workers_nodup := h.workers_nodup
      apps_nodup := h.apps_nodup.filter _
      worker_lt := h.worker_lt
      app_lt := fun b hb => h.app_lt b (List.mem_filter.mp hb).1
      standby := fun hs => by
        obtain ⟨hw, happs⟩ := h.standby hs
        exact ⟨hw, by simp [happs]⟩ }
  exact ⟨k.membership hf, k.apps, k.state, k.workers⟩

lemma removeApplication_apps (a : AppRef) :
    wp (removeApplication a) (fun _ s' => s'.apps = s.apps.filter (· ≠ a) ∧ s'.app = s.app)
      (fun _ => True) s := by
  simp only [removeApplication, wp_bind, wp_modify, wp_get]
  exact wp_mono ((persisting_keeps _).wp _) (fun _ s' k => ⟨k.apps, k.app⟩) fun _ _ => trivial

lemma removeApplications_wp {as : List AppRef} (h : Membership s) (has : ∀ a ∈ as, a ∈ s.apps)
    (hn : as.Nodup) :
    wp (forEach removeApplication as) (fun _ s' => Membership s' ∧ s'.state = s.state)
      (fun _ => True) s := by
  refine wp_forEach (I := fun as s' => (Membership s' ∧ (∀ a ∈ as, a ∈ s'.apps) ∧ as.Nodup) ∧
    s'.state = s.state) ?_ ?_ as s ⟨⟨h, has, hn⟩, rfl⟩
  · rintro a as s' ⟨⟨h', ha, hn'⟩, hs⟩
    rw [List.nodup_cons] at hn'
    refine wp_mono (removeApplication_wp h' (ha a List.mem_cons_self)) ?_ fun _ _ => trivial
    rintro _ s'' ⟨h'', happs, hs', _⟩
    refine ⟨⟨h'', fun b hb => ?_, hn'.2⟩, hs'.trans hs⟩
    rw [happs, List.mem_filter]
    refine ⟨ha b (List.mem_cons_of_mem _ hb), ?_⟩
    simp only [ne_eq, decide_not, Bool.not_eq_eq_eq_not, Bool.not_true, decide_eq_false_iff_not]
    exact fun he => hn'.1 (he ▸ hb)
  · exact fun _ hI => ⟨hI.1.1, hI.2⟩

/-! ### Registration -/

/-- Both exits of `registerWorker`, for a new worker whose id is not in use: only the id of the
worker can enter `idToWorker`. -/
lemma registerWorker_wp {w : WorkerRef} (h : Membership s) (hs : s.state ≠ .standby)
    (hlt : w < s.nextWorker) (hw : w ∉ s.workers) (hd : (s.worker w).state = .alive)
    (hid : s.idToWorker (s.worker w).id = none) :
    wp (registerWorker env w)
      (fun _ s' => Membership s' ∧ s'.state = s.state ∧ s'.idToApp = s.idToApp ∧
        (w ∈ s'.workers → (s'.worker w).state ≠ .dead) ∧
        ∀ i, i ≠ (s.worker w).id → s.idToWorker i = none → s'.idToWorker i = none)
      (fun s' => Membership s' ∧ s'.state = s.state ∧ s'.idToApp = s.idToApp ∧
        ∀ i, s.idToWorker i = none → s'.idToWorker i = none) s := by
  simp only [registerWorker, wp_bind, wp_modify, wp_get]
  have h1 := h.dropDeadWorkers w
  split
  · rename_i oldWorker hold
    rw [wp_ite]
    split
    · -- an `UNKNOWN` worker at the same address gives way
      have hm : (dropDeadWorkers w s).IsMember oldWorker :=
        ((h1.addressToWorker _ _).mp hold).1
      have h2 := h1.forgetWorker hm
      have hne : oldWorker ≠ w := fun he => hw (he ▸ (List.mem_filter.mp hm.1).1)
      rw [wp_bind]
      refine wp_mono (removeWorker_wp env) (fun _ s' k => ?_) fun s' k => ?_
      · have hrec : (s'.worker w).toWorkerRecord = (s.worker w).toWorkerRecord := by
          rw [k.record w, forgetWorker_record]
          rfl
        have hstate : (s'.worker w).state ≠ .dead := by
          rw [k.workerState w]
          simp [forgetWorker, hne.symm, dropDeadWorkers, hd]
        have hidx : ∀ i, s.idToWorker i = none → s'.idToWorker i = none := by
          intro i hi
          rw [k.idToWorker, forgetWorker_idToWorker, Function.update_apply]
          split
          · rfl
          · exact hi
        have haddr : s'.addressToWorker (s'.worker w).address = none := by
          have hold' : ((dropDeadWorkers w s).worker oldWorker).address = (s.worker w).address :=
            ((h1.addressToWorker _ _).mp hold).2
          rw [k.addressToWorker, forgetWorker_addressToWorker, hrec, hold', Function.update_self]
        have hid' : s'.idToWorker (s'.worker w).id = none := by
          rw [hrec]
          exact hidx _ hid
        have hlt' : w < s'.nextWorker := by
          rw [k.nextWorker]
          exact hlt
        have hs' : s'.state ≠ .standby := by
          rw [k.state]
          exact hs
        refine ⟨(k.membership h2).enterWorker hs' hlt' hstate hid' haddr, k.state, k.idToApp,
          fun _ => hstate, fun i hi hn => ?_⟩
        simp only [enterWorker, hrec]
        rw [Function.update_of_ne hi]
        exact hidx i hn
      · refine ⟨k.membership h2, k.state, k.idToApp, fun i hi => ?_⟩
        rw [k.idToWorker, forgetWorker_idToWorker, Function.update_apply]
        split
        · rfl
        · exact hi
    · exact ⟨h1, rfl, rfl, fun hm => absurd (List.mem_filter.mp hm).1 hw, fun i _ hi => hi⟩
  · rename_i hold
    have hd' : (s.worker w).state ≠ .dead := by simp [hd]
    refine ⟨h1.enterWorker hs hlt hd' hid hold, rfl, rfl, fun _ => hd', fun i hi hn => ?_⟩
    have hi' : i ≠ ((dropDeadWorkers w s).worker w).id := hi
    simp only [enterWorker, Function.update_of_ne hi']
    exact hn

lemma newWorker_wp (h : Membership s) (record : WorkerRecord) :
    wp (newWorker env record)
      (fun w s' => Membership s' ∧ s'.state = s.state ∧ s'.idToWorker = s.idToWorker ∧
        s'.idToApp = s.idToApp ∧ w < s'.nextWorker ∧ w ∉ s'.workers ∧
        s'.worker w = .init record env.now)
      (fun _ => False) s := by
  simp only [newWorker, wp_bind, wp_get, wp_modify, wp_pure]
  refine ⟨h.newWorker _, rfl, rfl, rfl, Nat.lt_succ_self _, fun hw => ?_, by simp [allocWorker]⟩
  exact Nat.lt_irrefl _ (h.worker_lt _ hw)

lemma recoverWorker_wp (h : Membership s) (hs : s.state ≠ .standby) (record : WorkerRecord)
    (hid : s.idToWorker record.id = none) :
    wp (recoverWorker env record)
      (fun _ s' => Membership s' ∧ s'.state = s.state ∧ s'.idToApp = s.idToApp ∧
        ∀ i, i ≠ record.id → s.idToWorker i = none → s'.idToWorker i = none)
      (fun _ => False) s := by
  rw [recoverWorker, wp_bind]
  refine wp_mono (newWorker_wp env h record) ?_ fun _ hf => hf
  rintro w s1 ⟨h1, hs1, hid1, happ1, hlt, hw, hinfo⟩
  have hrec : (s1.worker w).id = record.id := by
    rw [hinfo]
    rfl
  refine wp_tryCatch_of _ _ ?_
  simp only [wp_bind, wp_modify]
  refine wp_mono (registerWorker_wp env h1 (hs1 ▸ hs) hlt hw (by simp [hinfo, WorkerInfo.init])
    (by rw [hrec, hid1, hid])) ?_ ?_
  · rintro _ s2 ⟨h2, hs2, happ2, hd2, hidx⟩
    have h3 : Membership (s2.updateWorker w (·.setState .unknown)) :=
      h2.setState (by simp) hd2
    refine ⟨(MembersKept.send _ _ _).membership h3, hs2.trans hs1, happ2.trans happ1, ?_⟩
    intro i hi hn
    exact hidx i (hrec ▸ hi) (hid1 ▸ hn)
  · rintro s2 ⟨h2, hs2, happ2, hidx⟩ _
    exact ⟨h2, hs2.trans hs1, happ2.trans happ1, fun i _ hn => hidx i (hid1 ▸ hn)⟩

lemma newApp_wp (h : Membership s) (record : AppRecord) :
    wp (newApp record)
      (fun a s' => Membership s' ∧ s'.state = s.state ∧ s'.idToApp = s.idToApp ∧
        a < s'.nextApp ∧ a ∉ s'.apps ∧ s'.app a = .init record)
      (fun _ => False) s := by
  simp only [newApp, wp_bind, wp_get, wp_modify, wp_pure]
  have hne : ∀ a ∈ s.apps, a ≠ s.nextApp := fun a ha => Nat.ne_of_lt (h.app_lt a ha)
  refine ⟨?_, trivial, trivial, Nat.lt_succ_self _, fun ha => Nat.lt_irrefl _ (h.app_lt _ ha),
    by simp⟩
  exact
    { idToWorker := h.idToWorker
      addressToWorker := h.addressToWorker
      idToApp := h.idToApp.congr (fun _ => Iff.rfl) fun a ha => by
        simp only [Function.update_of_ne (hne a ha)]
      addressToApp := h.addressToApp.congr (fun _ => Iff.rfl) fun a ha => by
        simp only [Function.update_of_ne (hne a ha)]
      workers_nodup := h.workers_nodup
      apps_nodup := h.apps_nodup
      worker_lt := h.worker_lt
      app_lt := fun a ha => Nat.lt_succ_of_lt (h.app_lt a ha)
      standby := h.standby }

lemma registerApplication_wp {a : AppRef} (h : Membership s) (hs : s.state ≠ .standby)
    (hlt : a < s.nextApp) (hid : s.idToApp (s.app a).id = none) :
    wp (registerApplication a)
      (fun _ s' => Membership s' ∧ s'.state = s.state ∧
        ∀ i, i ≠ (s.app a).id → s.idToApp i = none → s'.idToApp i = none)
      (fun _ => False) s := by
  simp only [registerApplication, wp_bind, wp_get, wp_ite, wp_pure, wp_modify]
  split
  · exact ⟨h, trivial, fun _ _ hn => hn⟩
  · rename_i haddr
    rw [Option.not_isSome_iff_eq_none] at haddr
    refine ⟨?_, trivial, fun i hi hn => ?_⟩
    · exact
        { idToWorker := h.idToWorker
          addressToWorker := h.addressToWorker
          idToApp := (h.idToApp.insert hid).congr
            (fun b => by rw [List.mem_insert_iff, or_comm]) fun _ _ => rfl
          addressToApp := (h.addressToApp.insert haddr).congr
            (fun b => by rw [List.mem_insert_iff, or_comm]) fun _ _ => rfl
          workers_nodup := h.workers_nodup
          apps_nodup := h.apps_nodup.insert
          worker_lt := h.worker_lt
          app_lt := fun b hb => by
            rcases List.mem_insert_iff.mp hb with rfl | hb
            · exact hlt
            · exact h.app_lt b hb
          standby := fun hs' => absurd hs' hs }
    · simp only [Function.update_of_ne hi]
      exact hn

lemma updateApp_membership (h : Membership s) (a : AppRef) {f : AppInfo → AppInfo}
    (hf : ∀ i, (f i).toAppRecord = i.toAppRecord) : Membership (s.updateApp a f) := by
  have hr : ∀ b, ((s.updateApp a f).app b).toAppRecord = (s.app b).toAppRecord := by
    intro b
    by_cases hb : b = a
    · subst hb
      simp [hf]
    · simp [hb]
  exact
    { idToWorker := h.idToWorker
      addressToWorker := h.addressToWorker
      idToApp := h.idToApp.congr (fun _ => Iff.rfl) fun b _ => by rw [hr b]
      addressToApp := h.addressToApp.congr (fun _ => Iff.rfl) fun b _ => by rw [hr b]
      workers_nodup := h.workers_nodup
      apps_nodup := h.apps_nodup
      worker_lt := h.worker_lt
      app_lt := h.app_lt
      standby := h.standby }

lemma recoverApplication_wp (h : Membership s) (hs : s.state ≠ .standby) (record : AppRecord)
    (hid : s.idToApp record.id = none) :
    wp (recoverApplication record)
      (fun _ s' => Membership s' ∧ s'.state = s.state ∧
        ∀ i, i ≠ record.id → s.idToApp i = none → s'.idToApp i = none)
      (fun _ => False) s := by
  simp only [recoverApplication, wp_bind, wp_modify]
  refine wp_mono (newApp_wp h record) ?_ fun _ hf => hf
  rintro a s1 ⟨h1, hs1, hid1, hlt, _, hinfo⟩
  have hrec : (s1.app a).id = record.id := by
    rw [hinfo]
    rfl
  refine wp_mono (registerApplication_wp h1 (hs1 ▸ hs) hlt (by rw [hrec, hid1, hid])) ?_
    fun _ hf => hf
  rintro _ s2 ⟨h2, hs2, hidx⟩
  have h3 := updateApp_membership h2 a (f := ({ · with state := .unknown })) fun _ => rfl
  refine ⟨(MembersKept.send _ _ _).membership h3, hs2.trans hs1, fun i hi hn => ?_⟩
  exact hidx i (hrec ▸ hi) (hid1 ▸ hn)

/-! ### Recovery -/

/-- Recovery starts from empty indexes, and stored members have different ids. -/
lemma beginRecovery_wp (h : Membership s) (hs : s.state ≠ .standby)
    (hworkers : ∀ i, s.idToWorker i = none) (happs : ∀ i, s.idToApp i = none)
    {storedDrivers : List DriverRecord} {storedWorkers : List WorkerRecord}
    {storedApps : List AppRecord} (hnw : (storedWorkers.map WorkerRecord.id).Nodup)
    (hna : (storedApps.map AppRecord.id).Nodup) :
    wp (beginRecovery env storedDrivers storedWorkers storedApps) (fun _ => Membership)
      (fun _ => False) s := by
  simp only [beginRecovery, wp_bind]
  have hloop := wp_forEach (f := recoverWorker env) (E := fun _ => False)
    (I := fun rs s' => (Membership s' ∧ s'.state ≠ .standby ∧ ∀ i, s'.idToApp i = none) ∧
      (rs.map WorkerRecord.id).Nodup ∧ ∀ r ∈ rs, s'.idToWorker r.id = none)
    (Q := fun _ s' => Membership s' ∧ s'.state ≠ .standby ∧ ∀ i, s'.idToApp i = none)
    (fun r rs s1 hI => by
      obtain ⟨⟨h1, hs1, ha1⟩, hn1, hr1⟩ := hI
      rw [List.map_cons, List.nodup_cons] at hn1
      refine wp_mono (recoverWorker_wp env h1 hs1 r (hr1 r List.mem_cons_self)) ?_ fun _ hf => hf
      rintro _ s2 ⟨h2, hs2, ha2, hidx⟩
      refine ⟨⟨h2, hs2 ▸ hs1, fun i => by rw [ha2, ha1]⟩, hn1.2, fun r' hr' => ?_⟩
      refine hidx r'.id (fun he => hn1.1 ?_) (hr1 r' (List.mem_cons_of_mem _ hr'))
      exact he ▸ List.mem_map_of_mem hr')
    (fun _ hI => hI.1)
  refine wp_mono (hloop storedWorkers s ⟨⟨h, hs, happs⟩, hnw, fun r _ => hworkers _⟩) ?_
    fun _ hf => hf
  rintro _ s1 ⟨h1, hs1, ha1⟩
  have hloop' := wp_forEach (f := recoverApplication) (E := fun _ => False)
    (I := fun rs s' => (Membership s' ∧ s'.state ≠ .standby) ∧
      (rs.map AppRecord.id).Nodup ∧ ∀ r ∈ rs, s'.idToApp r.id = none)
    (Q := fun _ s' => Membership s')
    (fun r rs s2 hI => by
      obtain ⟨⟨h2, hs2⟩, hn2, hr2⟩ := hI
      rw [List.map_cons, List.nodup_cons] at hn2
      refine wp_mono (recoverApplication_wp h2 hs2 r (hr2 r List.mem_cons_self)) ?_ fun _ hf => hf
      rintro _ s3 ⟨h3, hs3, hidx⟩
      refine ⟨⟨h3, hs3 ▸ hs2⟩, hn2.2, fun r' hr' => ?_⟩
      refine hidx r'.id (fun he => hn2.1 ?_) (hr2 r' (List.mem_cons_of_mem _ hr'))
      exact he ▸ List.mem_map_of_mem hr')
    (fun _ hI => hI.1.1)
  refine wp_mono (hloop' storedApps s1 ⟨⟨h1, hs1⟩, hna, fun r _ => ha1 _⟩) ?_ fun _ hf => hf
  intro _ s2 h2
  refine wp_forEach (I := fun _ => Membership) (fun r _ s3 h3 => ?_) (fun _ h3 => h3) _ _ h2
  simp only [recoverDriver, newDriver, wp_bind, wp_get, wp_modify, wp_pure]
  exact h3.congr rfl rfl

lemma completeRecovery_wp (h : Membership s) :
    wp (completeRecovery env) (fun _ => Membership) (fun _ => True) s := by
  simp only [completeRecovery, wp_bind, wp_get, wp_ite, wp_modify, wp_pure]
  split
  · rename_i hs
    have h1 : Membership { s with state := .completingRecovery } :=
      { idToWorker := h.idToWorker, addressToWorker := h.addressToWorker, idToApp := h.idToApp
        addressToApp := h.addressToApp, workers_nodup := h.workers_nodup
        apps_nodup := h.apps_nodup, worker_lt := h.worker_lt, app_lt := h.app_lt
        standby := fun hc => by cases hc }
    rw [draw_wp]
    have h2 : Membership { s with state := .completingRecovery, draws := s.draws + 1 } :=
      h1.congr rfl rfl
    refine wp_mono (removeWorkers_wp env h2 (fun w hw => ?_) ?_) ?_ fun _ _ => trivial
    · simp only [Shuffle.mem_apply, List.mem_filter, decide_eq_true_eq] at hw
      exact ⟨hw.1, by simp [hw.2]⟩
    · exact ((env.random s.draws).perm _).nodup_iff.mpr (h.workers_nodup.filter _)
    · rintro _ s1 ⟨h3, -, -, -⟩
      rw [draw_wp]
      have h4 : Membership { s1 with draws := s1.draws + 1 } := h3.congr rfl rfl
      refine wp_mono (removeApplications_wp h4 (fun a ha => ?_) ?_) ?_ fun _ _ => trivial
      · simp only [Shuffle.mem_apply, List.mem_filter] at ha
        exact ha.1
      · exact ((env.random s1.draws).perm _).nodup_iff.mpr (h3.apps_nodup.filter _)
      · rintro _ s2 ⟨h5, -⟩
        have h6 : Membership { s2 with state := .active } :=
          { idToWorker := h5.idToWorker, addressToWorker := h5.addressToWorker
            idToApp := h5.idToApp, addressToApp := h5.addressToApp
            workers_nodup := h5.workers_nodup, apps_nodup := h5.apps_nodup
            worker_lt := h5.worker_lt, app_lt := h5.app_lt
            standby := fun hc => by cases hc }
        exact wp_mono ((schedule_keeps env).wp _) (fun _ _ k => k.membership h6) fun _ _ => trivial
  · exact h

/-! ### The handlers -/

lemma electedLeader_wp (h : Membership s) (hs : s.state = .standby)
    (startOnBoot : List (String × DriverDesc)) :
    wp (electedLeader env startOnBoot) (fun _ => Membership) (fun _ => True) s := by
  obtain ⟨hw, ha⟩ := h.standby hs
  have hworkers : ∀ i, s.idToWorker i = none := by
    intro i
    rw [Option.eq_none_iff_forall_ne_some]
    intro w hi
    have hm := ((h.idToWorker i w).mp hi).1.1
    rw [hw] at hm
    cases hm
  have happs : ∀ i, s.idToApp i = none := by
    intro i
    rw [Option.eq_none_iff_forall_ne_some]
    intro a hi
    have hm := ((h.idToApp i a).mp hi).1
    rw [ha] at hm
    cases hm
  have hstate : ∀ state n, state ≠ .standby → Membership { s with state := state, draws := n } :=
    fun state n hne =>
      { idToWorker := h.idToWorker, addressToWorker := h.addressToWorker, idToApp := h.idToApp
        addressToApp := h.addressToApp, workers_nodup := h.workers_nodup
        apps_nodup := h.apps_nodup, worker_lt := h.worker_lt, app_lt := h.app_lt
        standby := fun hc => absurd hc hne }
  simp only [electedLeader, wp_bind, wp_get, draw_wp, wp_ite, wp_modify]
  split
  · refine wp_forEach (I := fun _ => Membership) ?_ (fun _ h' => h') _ _ (hstate _ _ (by simp))
    exact fun _ _ s' h' => (MembersKept.send s' _ _).membership h'
  · refine wp_mono (beginRecovery_wp env (hstate .recovering _ (by simp)) (by simp) hworkers happs ?_ ?_)
      (fun _ _ h' => h') fun _ _ => trivial
    · refine (((env.random _).perm _).map _).nodup_iff.mpr ?_
      exact s.persistenceEngine.nodup_readWorkers
    · refine (((env.random _).perm _).map _).nodup_iff.mpr ?_
      exact s.persistenceEngine.nodup_readApplication

lemma handleRegisterWorker_wp (h : Membership s) (record : WorkerRecord) :
    wp (handleRegisterWorker env record) (fun _ => Membership) (fun _ => True) s := by
  simp only [handleRegisterWorker, wp_bind, wp_get, wp_ite, wp_modify]
  split
  · exact (MembersKept.send s _ _).membership h
  rename_i hs
  split
  · exact (MembersKept.send s _ _).membership h
  rename_i hid
  rw [Option.not_isSome_iff_eq_none] at hid
  refine wp_mono (newWorker_wp env h record) ?_ fun _ hf => hf.elim
  rintro w s1 ⟨h1, hs1, hid1, -, hlt, hw, hinfo⟩
  have hrec : (s1.worker w).id = record.id := by
    rw [hinfo]
    rfl
  refine wp_mono (registerWorker_wp env h1 (hs1 ▸ hs) hlt hw (by simp [hinfo, WorkerInfo.init])
    (by rw [hrec, hid1, hid])) ?_ fun _ _ => trivial
  rintro registered s2 ⟨h2, -⟩
  cases registered with
  | true =>
    refine wp_mono ((schedule_keeps env).wp _) (fun _ _ k => k.membership ?_) fun _ _ => trivial
    exact h2.congr rfl rfl
  | false => exact (MembersKept.send s2 _ _).membership h2

lemma handleHeartbeat_members (workerId : String) (worker : ActorRef) (s : MasterState) :
    MembersKept s (handleHeartbeat env workerId worker s) := by
  simp only [handleHeartbeat]
  split
  · exact .updateWorker s _ (fun _ => rfl) fun _ => rfl
  · split
    · exact MembersKept.send s _ _
    · exact MembersKept.refl s

lemma completeIfPossible_wp (h : Membership s) :
    wp (completeIfPossible env) (fun _ => Membership) (fun _ => True) s := by
  simp only [completeIfPossible, wp_bind, wp_get, wp_ite, wp_pure]
  split
  · exact completeRecovery_wp env h
  · exact h

lemma answeringWorker_wp (h : Membership s) (workerId : String) (driverIds : List String) :
    wp (answeringWorker env workerId driverIds) (fun _ => Membership) (fun _ => True) s := by
  simp only [answeringWorker, wp_bind, wp_get]
  split
  · rename_i w hi
    have hm := ((h.idToWorker _ _).mp hi).1
    have h1 : Membership (s.updateWorker w (·.setState .alive)) := h.setState (by simp) fun _ => hm.2
    simp only [wp_bind, wp_modify]
    refine wp_mono ((Keeps.forEach (claimDriver_keeps env w) driverIds).wp _) ?_ fun _ _ => trivial
    exact fun _ s' k => k.membership h1
  · exact h

lemma handleWorkerSchedulerStateResponse_wp (h : Membership s) (workerId : String)
    (driverIds : List String) :
    wp (handleWorkerSchedulerStateResponse env workerId driverIds) (fun _ => Membership)
      (fun _ => True) s := by
  rw [handleWorkerSchedulerStateResponse, wp_bind]
  exact wp_mono (answeringWorker_wp env h workerId driverIds)
    (fun _ _ h' => completeIfPossible_wp env h') fun _ _ => trivial

lemma handleWorkerLatestState_members (workerId : String) (driverIds : List String)
    (s : MasterState) : MembersKept s (handleWorkerLatestState workerId driverIds s) := by
  simp only [handleWorkerLatestState]
  split
  · refine List.foldlRecOn driverIds _ (MembersKept.refl s) fun s' k d _ => ?_
    split
    · exact k
    · exact k.trans (MembersKept.send s' _ _)
  · exact MembersKept.refl s

lemma handleRegisterApplication_wp (h : Membership s) (record : AppRecord) :
    wp (handleRegisterApplication record) (fun _ => Membership) (fun _ => True) s := by
  simp only [handleRegisterApplication, wp_bind, wp_get, wp_ite, wp_modify]
  split
  · exact (MembersKept.send s _ _).membership h
  rename_i hs
  split
  · exact (MembersKept.send s _ _).membership h
  rename_i hid
  rw [Option.not_isSome_iff_eq_none] at hid
  refine wp_mono (newApp_wp h record) ?_ fun _ hf => hf.elim
  rintro a s1 ⟨h1, hs1, hid1, hlt, -, hinfo⟩
  have hrec : (s1.app a).id = record.id := by
    rw [hinfo]
    rfl
  refine wp_mono (registerApplication_wp h1 (hs1 ▸ hs) hlt (by rw [hrec, hid1, hid])) ?_
    fun _ hf => hf.elim
  rintro registered s2 ⟨h2, -⟩
  cases registered with
  | true => exact h2.congr rfl rfl
  | false => exact (MembersKept.send s2 _ _).membership h2

lemma answeringApplication_membership (h : Membership s) (driverId : String) :
    Membership (answeringApplication driverId s) := by
  simp only [answeringApplication]
  split
  · exact updateApp_membership h _ fun _ => rfl
  · exact h

lemma handleApplicationStateResponse_wp (h : Membership s) (driverId : String) :
    wp (handleApplicationStateResponse env driverId) (fun _ => Membership) (fun _ => True) s := by
  rw [handleApplicationStateResponse, wp_bind, wp_modify]
  exact completeIfPossible_wp env (answeringApplication_membership h driverId)

lemma timeOutDeadWorkers_wp (h : Membership s) :
    wp (timeOutDeadWorkers env) (fun _ => Membership) (fun _ => True) s := by
  simp only [timeOutDeadWorkers, wp_bind, wp_get, draw_wp]
  refine wp_forEach (I := fun ws s' => Membership s' ∧ (∀ w ∈ ws, w ∈ s'.workers) ∧ ws.Nodup)
    ?_ (fun _ hI => hI.1) _ _ ⟨h.congr rfl rfl, fun w hw => ?_, ?_⟩
  · rintro w ws s' ⟨h', hw, hn⟩
    rw [List.nodup_cons] at hn
    have hrest : ∀ v ∈ ws, v ≠ w := fun v hv he => hn.1 (he ▸ hv)
    simp only [wp_bind, wp_get, wp_ite, wp_modify, wp_pure]
    split
    · rename_i hd
      have hf := h'.forgetWorker ⟨hw w List.mem_cons_self, hd⟩
      refine wp_mono (removeWorker_wp env) (fun _ s'' k => ?_) fun _ _ => trivial
      refine ⟨k.membership hf, fun v hv => ?_, hn.2⟩
      rw [k.workers]
      exact hw v (List.mem_cons_of_mem _ hv)
    · rename_i hd
      split
      · refine ⟨h'.filter_workers _ fun v hv => ?_, fun v hv => ?_, hn.2⟩
        · simp only [decide_eq_true_eq]
          exact fun he => hd (he ▸ hv.2)
        · refine List.mem_filter.mpr ⟨hw v (List.mem_cons_of_mem _ hv), ?_⟩
          simpa using hrest v hv
      · exact ⟨h', fun v hv => hw v (List.mem_cons_of_mem _ hv), hn.2⟩
  · simp only [Shuffle.mem_apply, List.mem_filter] at hw
    exact hw.1
  · exact ((env.random s.draws).perm _).nodup_iff.mpr (h.workers_nodup.filter _)

lemma handleDriverStateChanged_keeps (change : DriverStateChanged) :
    Keeps MembersKept (handleDriverStateChanged env change) := by
  refine Keeps.ite (removeDriver_keeps env change) ((findDriver_keeps env _).bind fun found => ?_)
  cases found with
  | none => exact Keeps.pure _
  | some d => exact Keeps.modify fun s => MembersKept.updateDriver s d _

lemma handleRequestSubmitDriver_keeps (driverName : String) (desc : DriverDesc) :
    Keeps MembersKept (handleRequestSubmitDriver env driverName desc) := by
  refine Keeps.get.bind fun s => Keeps.ite (Keeps.modify fun s => MembersKept.send s _ _) ?_
  refine Keeps.bind (Keeps.get.bind fun _ => Keeps.bind (Keeps.modify fun _ => .of_eq rfl rfl) fun _ =>
    Keeps.pure _) fun d => Keeps.get.bind fun _ => ?_
  refine Keeps.bind (Keeps.modify fun _ => .of_eq rfl rfl) fun _ => ?_
  refine Keeps.bind (Keeps.modify fun _ => .of_eq rfl rfl) fun _ => ?_
  exact (schedule_keeps env).bind fun _ => Keeps.modify fun s => MembersKept.send s _ _

lemma send_keeps (receiver : ActorRef) (message : Outgoing) :
    Keeps MembersKept (Handler.modify (MasterState.send receiver message)) :=
  Keeps.modify fun s => MembersKept.send s _ _

lemma killDriver_keeps (driverId : String) (d : DriverRef) :
    Keeps MembersKept (killDriver env driverId d) := by
  refine Keeps.get.bind fun s => Keeps.ite ?_ ?_
  · exact Keeps.bind (Keeps.modify fun _ => .of_eq rfl rfl) fun _ => send_keeps _ _
  · split
    · exact send_keeps _ _
    · exact Keeps.pure _

lemma handleRequestKillDriver_keeps (driverId : String) :
    Keeps MembersKept (handleRequestKillDriver env driverId) := by
  refine Keeps.get.bind fun s => Keeps.ite (send_keeps _ _) ?_
  refine (findDriver_keeps env _).bind fun found => ?_
  cases found with
  | none => exact send_keeps _ _
  | some d => exact (killDriver_keeps env _ d).bind fun _ => send_keeps _ _

lemma handleRequestDriverStatus_keeps (driverId : String) :
    Keeps MembersKept (handleRequestDriverStatus env driverId) := by
  refine Keeps.get.bind fun s => Keeps.ite (send_keeps _ _) ?_
  refine (draw_keeps env _).bind fun all => ?_
  split
  · exact send_keeps _ _
  · exact send_keeps _ _

lemma handleRequestAllDriverStatus_keeps (pattern : Option String) :
    Keeps MembersKept (handleRequestAllDriverStatus env pattern) :=
  Keeps.get.bind fun _ => Keeps.ite (send_keeps _ _) <|
    (draw_keeps env _).bind fun _ => send_keeps _ _

lemma disconnectWorker_wp (h : Membership s) (remoteAddress : Address) :
    wp (disconnectWorker env remoteAddress) (fun _ => Membership) (fun _ => True) s := by
  simp only [disconnectWorker, wp_bind, wp_get]
  split
  · rename_i w hw
    have hf := h.forgetWorker ((h.addressToWorker _ _).mp hw).1
    exact wp_mono (removeWorker_wp env) (fun _ s' k => k.membership hf) fun _ _ => trivial
  · exact h

lemma disconnectApplication_wp (h : Membership s) (remoteAddress : Address) :
    wp (disconnectApplication remoteAddress) (fun _ => Membership) (fun _ => True) s := by
  simp only [disconnectApplication, wp_bind, wp_get]
  split
  · rename_i a ha
    exact wp_mono (removeApplication_wp h ((h.addressToApp _ _).mp ha).1)
      (fun _ s' h' => h'.1) fun _ _ => trivial
  · exact h

lemma onDisconnected_wp (h : Membership s) (remoteAddress : Address) :
    wp (onDisconnected env remoteAddress) (fun _ => Membership) (fun _ => True) s := by
  rw [onDisconnected, wp_bind]
  refine wp_mono (disconnectWorker_wp env h remoteAddress) (fun _ s1 h1 => ?_) fun _ _ => trivial
  rw [wp_bind]
  refine wp_mono (disconnectApplication_wp h1 remoteAddress) (fun _ s2 h2 => ?_) fun _ _ => trivial
  simp only [wp_bind, wp_get, wp_ite, wp_pure]
  split
  · exact completeIfPossible_wp env h2
  · exact h2

/-! ### Every message -/

lemma handleMessage_wp {m : Message} (h : Membership s) (hm : Deliverable s m) :
    wp (handleMessage env m) (fun _ => Membership) (fun _ => True) s := by
  have keeps : ∀ {m : Handler MasterState Unit}, Keeps MembersKept m →
      wp m (fun _ => Membership) (fun _ => True) s := fun hk =>
    wp_mono (hk.wp s) (fun _ _ k => k.membership h) fun _ _ => trivial
  cases m with
  | electedLeader startOnBoot => exact electedLeader_wp env h hm startOnBoot
  | registerWorker id host port worker address => exact handleRegisterWorker_wp env h _
  | heartbeat workerId worker =>
    exact keeps (Keeps.modify (handleHeartbeat_members env workerId worker))
  | workerSchedulerStateResponse workerId driverIds =>
    exact handleWorkerSchedulerStateResponse_wp env h workerId driverIds
  | workerLatestState workerId driverIds =>
    exact keeps (Keeps.modify (handleWorkerLatestState_members workerId driverIds))
  | registerApplication driverId host port endpoint address dataPort appType =>
    exact handleRegisterApplication_wp h _
  | applicationStateResponse driverId => exact handleApplicationStateResponse_wp env h driverId
  | completeRecovery => exact completeRecovery_wp env h
  | checkForWorkerTimeOut => exact timeOutDeadWorkers_wp env h
  | driverStateChanged change => exact keeps (handleDriverStateChanged_keeps env change)
  | requestSubmitDriver driverName desc =>
    exact keeps (handleRequestSubmitDriver_keeps env driverName desc)
  | requestKillDriver driverId => exact keeps (handleRequestKillDriver_keeps env driverId)
  | requestDriverStatus driverId => exact keeps (handleRequestDriverStatus_keeps env driverId)
  | requestAllDriverStatus pattern => exact keeps (handleRequestAllDriverStatus_keeps env pattern)
  | disconnected remoteAddress => exact onDisconnected_wp env h remoteAddress

/-- A step ends as the handler does, up to the restart that an exception brings. -/
lemma step_of_wp {m : Message} {P : MasterState → Prop}
    (h : wp (handleMessage env m) (fun _ => P) (fun s' => P s'.restart) s) : P (step env m s) := by
  simp only [step]
  split
  · rename_i hok
    exact of_wp_of_succeeds h hok
  · rename_i hfail
    exact of_wp_of_fails (P := fun s' : MasterState => P s'.restart) h (by simpa using hfail)

lemma step_membership {m : Message} (h : Membership s) (hm : Deliverable s m) :
    Membership (step env m s) :=
  step_of_wp env (wp_mono (handleMessage_wp env h hm) (fun _ _ h' => h')
    fun s' _ => Membership.restart s')

end Master

/-! ### Every reachable state -/

/-- One message, handled under any clock, sender, hash order and random choice. -/
def Master.Step (s s' : MasterState) : Prop :=
  ∃ env m, Master.Deliverable s m ∧ s' = Master.step env m s

/-- A master started over `engine` can get into `s`. -/
def Master.Reachable (engine : PersistenceEngine) (s : MasterState) : Prop :=
  ReflTransGen Master.Step { persistenceEngine := engine } s

/-- The state of a master over `engine` that was elected and then handled `ms`. -/
def Master.afterMessages (engine : PersistenceEngine) (ms : List Message) : MasterState :=
  ms.foldl (fun s m => Master.step default m s)
    (Master.step default (.electedLeader []) { persistenceEngine := engine })

lemma Master.reachable_afterMessages (engine : PersistenceEngine) (ms : List Message)
    (h : ∀ m ∈ ms, ∀ startOnBoot, m ≠ .electedLeader startOnBoot) :
    Master.Reachable engine (Master.afterMessages engine ms) := by
  have hrun : ∀ (ms : List Message) (s : MasterState),
      (∀ m ∈ ms, ∀ startOnBoot, m ≠ .electedLeader startOnBoot) →
      ReflTransGen Master.Step s (ms.foldl (fun s m => Master.step default m s) s) := by
    intro ms
    induction ms with
    | nil => exact fun s _ => .refl
    | cons m ms ih =>
      intro s h
      have hm : Master.Deliverable s m := by
        cases m <;> first | trivial | exact absurd rfl (h _ List.mem_cons_self _)
      refine .head ⟨default, m, hm, rfl⟩ (ih _ fun m' hm' => h m' (List.mem_cons_of_mem _ hm'))
  exact .head ⟨default, .electedLeader [], rfl, rfl⟩ (hrun ms _ h)

lemma Master.Reachable.membership {engine : PersistenceEngine} {s : MasterState}
    (h : Master.Reachable engine s) : Membership s :=
  invariant_of_run h (fun _ _ ⟨env, _, hm, he⟩ hs => he ▸ Master.step_membership env hs hm)
    (.init engine)

/-- The indexes describe the same members. -/
structure MembershipIndexesAgree (s : MasterState) : Prop where
  idToWorker_injective : ∀ i j w, s.idToWorker i = some w → s.idToWorker j = some w → i = j
  addressToWorker_injective : ∀ i j w,
    s.addressToWorker i = some w → s.addressToWorker j = some w → i = j
  same_range : ∀ w, (∃ i, s.idToWorker i = some w) ↔ ∃ i, s.addressToWorker i = some w
  range : ∀ w, (∃ i, s.idToWorker i = some w) ↔ w ∈ s.workers ∧ (s.worker w).state ≠ .dead
  idToApp_injective : ∀ i j a, s.idToApp i = some a → s.idToApp j = some a → i = j
  addressToApp_injective : ∀ i j a, s.addressToApp i = some a → s.addressToApp j = some a → i = j
  idToApp_range : ∀ a, (∃ i, s.idToApp i = some a) ↔ a ∈ s.apps
  addressToApp_range : ∀ a, (∃ i, s.addressToApp i = some a) ↔ a ∈ s.apps

/-- In every reachable state the indexes of workers and applications agree. -/
theorem Master.membership_indexes_agree {engine : PersistenceEngine} {s : MasterState}
    (h : Master.Reachable engine s) : MembershipIndexesAgree s := by
  have hm := h.membership
  exact
    { idToWorker_injective := fun _ _ _ => hm.idToWorker.injective
      addressToWorker_injective := fun _ _ _ => hm.addressToWorker.injective
      same_range := fun w => (hm.idToWorker.range w).trans (hm.addressToWorker.range w).symm
      range := hm.idToWorker.range
      idToApp_injective := fun _ _ _ => hm.idToApp.injective
      addressToApp_injective := fun _ _ _ => hm.addressToApp.injective
      idToApp_range := hm.idToApp.range
      addressToApp_range := hm.addressToApp.range }

/-- A worker has registered with a new leader. -/
theorem Master.membership_indexes_agree_registered :
    ∃ s : MasterState, s.workers = [0] ∧ s.idToWorker "w1" = some 0 ∧ MembershipIndexesAgree s := by
  refine ⟨_, ?_, ?_, Master.membership_indexes_agree (Master.reachable_afterMessages .blackHole
    [.registerWorker "w1" "host" 1 "host:1" "moonbox@host:1"] (by simp))⟩
  · decide
  · decide

end Moonbox.Deploy
