import Moonbox.Deploy.Mirror

/-!
# The store along a run

A leader starts with what it reads: each record read becomes one of the collections, and the rest
of the store waits to be read. From then on every handler changes the store together with the
collections, and none of its operations fails.
-/

namespace Moonbox.Deploy

open Actor Handler Relation Master MasterState

namespace Mirror

variable {D : Set DriverRecord} {W : Set WorkerRecord} {A : Set AppRecord} {s s' : MasterState}
  (env : Env)

lemma send (h : Mirror D W A s) (receiver : ActorRef) (message : Outgoing) :
    Mirror D W A (s.send receiver message) :=
  h.keep_members (.of_eq rfl rfl rfl) (.send s receiver message)

/-! ### Reading the store -/

/-- New objects are not yet in any collection. -/
lemma allocWorker (h : Mirror D W A s) (hM : Membership s) (info : WorkerInfo) :
    Mirror D W A (allocWorker info s) := by
  have hold : ∀ v, s.IsMember v → (Master.allocWorker info s).worker v = s.worker v := fun v hv =>
    Function.update_of_ne (Nat.ne_of_lt (hM.worker_lt v hv.1)) _ _
  refine h.keep (.of_eq rfl rfl rfl) (fun v => ?_) (fun v hv => by rw [hold v hv]) rfl fun _ _ => rfl
  refine and_congr_right fun hv => ?_
  simp [Master.allocWorker, Function.update_of_ne (Nat.ne_of_lt (hM.worker_lt v hv))]

lemma setState (h : Mirror D W A s) {w : WorkerRef} {state : WorkerState} (hd : state ≠ .dead)
    (hw : s.IsMember w) : Mirror D W A (s.updateWorker w (·.setState state)) := by
  refine h.keep (.of_eq rfl rfl rfl) (fun v => and_congr_right fun hv => ?_) (fun v hv => ?_) rfl
    fun _ _ => rfl
  · rw [updateWorker_worker]
    split
    · rename_i he
      subst he
      exact iff_of_true hd hw.2
    · rfl
  · rw [updateWorker_worker]
    split
    · rename_i he
      rw [he]
      rfl
    · rfl

/-- While all members are `UNKNOWN`, a stored worker always enters. -/
lemma recoverWorker {record : WorkerRecord} (h : Mirror D (insert record W) A s)
    (hM : Membership s) (hfresh : ∀ r ∈ W, r.id ≠ record.id)
    (hunknown : ∀ v, s.IsMember v → (s.worker v).state = .unknown) :
    wp (recoverWorker env record)
      (fun _ s' => Mirror D W A s' ∧ ∀ v, s'.IsMember v → (s'.worker v).state = .unknown)
      (fun _ => False) s := by
  have hM1 : Membership (Master.allocWorker (.init record env.now) s) := hM.newWorker _
  have h1 := h.allocWorker hM (.init record env.now)
  have hw : s.nextWorker ∉ s.workers := fun hc => Nat.lt_irrefl _ (hM.worker_lt _ hc)
  have hnew : (Master.allocWorker (.init record env.now) s).worker s.nextWorker =
      .init record env.now := Function.update_self _ _ _
  have hunknown1 : ∀ v, (Master.allocWorker (.init record env.now) s).IsMember v →
      ((Master.allocWorker (.init record env.now) s).worker v).state = .unknown := by
    rintro v ⟨hv, hd⟩
    have hold : (Master.allocWorker (.init record env.now) s).worker v = s.worker v :=
      Function.update_of_ne (Nat.ne_of_lt (hM.worker_lt v hv)) _ _
    rw [hold] at hd ⊢
    exact hunknown v ⟨hv, hd⟩
  simp only [Master.recoverWorker, newWorker, wp_bind, wp_get, wp_modify, wp_pure]
  refine wp_tryCatch_of _ _ ?_
  simp only [wp_bind, wp_modify]
  refine wp_mono (h1.registerWorker env hM1 hw) ?_ fun _ hf => hf.elim
  rintro registered s2 ⟨s1, room, hres⟩
  cases registered with
  | false =>
    obtain ⟨-, old, hold, hne⟩ := hres
    exact absurd (hunknown1 old ((hM1.addressToWorker _ _).mp hold).1) hne
  | true =>
    obtain rfl : s2 = Master.enterWorker s.nextWorker s1 := hres
    have hrecord : (s1.worker s.nextWorker).toWorkerRecord = record := by
      rw [room.record, hnew]
      rfl
    have hstate : (s1.worker s.nextWorker).state ≠ .dead := by
      rw [room.workerState _ (Or.inr rfl), hnew]
      simp [WorkerInfo.init]
    have hm := isMember_enterWorker s1 hstate
    have h2 : Mirror D W A (Master.enterWorker s.nextWorker s1) := by
      refine Mirror.enterWorker hstate (hrecord ▸ room.mirror) fun r hr => ?_
      rw [hrecord]
      exact hfresh r hr
    have hmw := (hm s.nextWorker).mpr (Or.inr rfl)
    refine ⟨(h2.setState (by simp) hmw).send _ _, ?_⟩
    rintro v ⟨hv, hd⟩
    simp only [MasterState.send, updateWorker_worker] at hd ⊢
    split
    · rfl
    · rename_i hne
      rw [if_neg hne] at hd
      have hv1 : s1.IsMember v := ((hm v).mp ⟨hv, hd⟩).resolve_right hne
      change (s1.worker v).state = .unknown
      rw [room.workerState v (Or.inl hv1)]
      exact hunknown1 v (room.isMember v hv1)

/-- An application enters whose record is in the store. -/
lemma enterApplication {a : AppRef} (h : Mirror D W (insert (s.app a).toAppRecord A) s)
    (hA : ∀ r ∈ A, r.id ≠ (s.app a).id) (idToApp : String → Option AppRef)
    (addressToApp : Address → Option AppRef) :
    Mirror D W A { s with
      apps := s.apps.insert a, idToApp := idToApp, addressToApp := addressToApp } := by
  have hrecords : {r | ∃ b ∈ s.apps.insert a, (s.app b).toAppRecord = r} ∪ A =
      appRecords s ∪ insert (s.app a).toAppRecord A := by
    ext r
    constructor
    · rintro (⟨b, hb, rfl⟩ | hr)
      · rcases List.mem_insert_iff.mp hb with rfl | hb
        · exact Or.inr (Or.inl rfl)
        · exact Or.inl ⟨b, hb, rfl⟩
      · exact Or.inr (Or.inr hr)
    · rintro (⟨b, hb, rfl⟩ | rfl | hr)
      · exact Or.inl ⟨b, List.mem_insert_of_mem hb, rfl⟩
      · exact Or.inl ⟨a, List.mem_insert_self, rfl⟩
      · exact Or.inr hr
  refine ⟨?_, h.unread_workers, fun r hr b hb => ?_⟩
  · have hstored := h.stored
    rw [← hrecords] at hstored
    exact hstored.keep (.of_eq rfl rfl rfl)
  · rcases List.mem_insert_iff.mp hb with rfl | hb
    · exact (hA r hr).symm
    · exact h.unread_apps r (Or.inr hr) b hb

lemma newApp (h : Mirror D W A s) (hM : Membership s) (record : AppRecord) :
    wp (newApp record)
      (fun a s' => Mirror D W A s' ∧ s'.addressToApp = s.addressToApp ∧ s'.idToApp = s.idToApp ∧
        s'.app a = .init record) (fun _ => False) s := by
  simp only [Master.newApp, wp_bind, wp_get, wp_modify, wp_pure]
  refine ⟨?_, trivial, trivial, Function.update_self _ _ _⟩
  refine h.keep (.of_eq rfl rfl rfl) (fun _ => Iff.rfl) (fun _ _ => rfl) rfl fun a ha => ?_
  simp only [Function.update_of_ne (Nat.ne_of_lt (hM.app_lt a ha))]

lemma updateApp (h : Mirror D W A s) (a : AppRef) {f : AppInfo → AppInfo}
    (hf : ∀ i, (f i).toAppRecord = i.toAppRecord) : Mirror D W A (s.updateApp a f) := by
  refine h.keep (.of_eq rfl rfl rfl) (fun _ => Iff.rfl) (fun _ _ => rfl) rfl fun b _ => ?_
  rw [updateApp_app]
  split
  · rename_i he
    rw [hf, he]
  · rfl

/-- The addresses of the applications in the store are different, so each of them enters. -/
lemma recoverApplication {record : AppRecord} (h : Mirror D W (insert record A) s)
    (hM : Membership s) (hfresh : ∀ r ∈ A, r.id ≠ record.id)
    (haddr : s.addressToApp record.address = none) :
    wp (recoverApplication record)
      (fun _ s' => Mirror D W A s' ∧
        ∀ address, address ≠ record.address → s.addressToApp address = none →
          s'.addressToApp address = none)
      (fun _ => False) s := by
  simp only [Master.recoverApplication, wp_bind, wp_modify]
  refine wp_mono (h.newApp hM record) ?_ fun _ hf => hf
  rintro a s1 ⟨h1, haddr1, -, hinfo⟩
  have hrecord : (s1.app a).toAppRecord = record := by
    rw [hinfo]
    rfl
  have hnone : s1.addressToApp (s1.app a).address = none := by
    rw [haddr1, hrecord, haddr]
  simp only [registerApplication, wp_bind, wp_get, wp_ite, wp_modify, wp_pure, hnone,
    Option.isSome_none, Bool.false_eq_true, if_false]
  refine ⟨?_, fun address hne hn => ?_⟩
  · rw [← hrecord] at h1 hfresh
    have h2 := (h1.enterApplication hfresh
      (Function.update s1.idToApp (s1.app a).id (some a))
      (Function.update s1.addressToApp (s1.app a).address (some a))).updateApp a
      (f := ({ · with state := .unknown })) fun _ => rfl
    exact h2.send _ _
  · change Function.update s1.addressToApp (s1.app a).address (some a) address = none
    rw [hrecord, Function.update_of_ne hne, haddr1, hn]

/-- A driver enters whose record is in the store. -/
lemma enterDriver {record : DriverRecord} (h : Mirror (insert record D) W A s)
    (hL : Ledger s) (hfresh : ∀ r ∈ D, r.id ≠ record.id) (now : Nat) :
    Mirror D W A (enterDriver s.nextDriver (allocDriver (.init record now) s)) := by
  have hnew : ((allocDriver (.init record now) s).driver s.nextDriver).toDriverRecord = record := by
    simp [allocDriver, DriverInfo.init]
  have hold : ∀ d ∈ s.drivers, (allocDriver (.init record now) s).driver d = s.driver d :=
    fun d hd => Function.update_of_ne (Nat.ne_of_lt (hL.driver_lt d hd)) _ _
  have hmem : ∀ d, d ∈ (Master.enterDriver s.nextDriver (allocDriver (.init record now) s)).drivers ↔
      d = s.nextDriver ∨ d ∈ s.drivers := fun d => List.mem_insert_iff
  have hrecords : driverRecords (Master.enterDriver s.nextDriver (allocDriver (.init record now) s)) ∪
      D = driverRecords s ∪ insert record D := by
    ext r
    constructor
    · rintro (⟨d, hd, rfl⟩ | hr)
      · rcases (hmem d).mp hd with rfl | hd
        · exact Or.inr (Or.inl hnew)
        · exact Or.inl ⟨d, hd, congrArg DriverInfo.toDriverRecord (hold d hd).symm⟩
      · exact Or.inr (Or.inr hr)
    · rintro (⟨d, hd, rfl⟩ | rfl | hr)
      · exact Or.inl ⟨d, (hmem d).mpr (Or.inr hd), congrArg DriverInfo.toDriverRecord (hold d hd)⟩
      · exact Or.inl ⟨_, (hmem _).mpr (Or.inl rfl), hnew⟩
      · exact Or.inr hr
  have hid : ∀ d ∈ s.drivers, ((allocDriver (.init record now) s).driver d).id = (s.driver d).id :=
    fun d hd => by rw [hold d hd]
  have hidnew : ((allocDriver (.init record now) s).driver s.nextDriver).id = record.id :=
    congrArg DriverRecord.id hnew
  have hother : ∀ d ∈ s.drivers, (s.driver d).id ≠ record.id :=
    h.stored.unread record (Set.mem_insert _ _)
  refine ⟨⟨?_, fun d hd e he hde => ?_, fun r hr d hd => ?_⟩, h.unread_workers, h.unread_apps⟩
  · rw [hrecords]
    exact h.stored.holds
  · change ((allocDriver (.init record now) s).driver d).id =
      ((allocDriver (.init record now) s).driver e).id at hde
    rcases (hmem d).mp hd with rfl | hd
    · rcases (hmem e).mp he with rfl | he
      · rfl
      · rw [hidnew, hid e he] at hde
        exact absurd hde.symm (hother e he)
    · rcases (hmem e).mp he with rfl | he
      · rw [hidnew, hid d hd] at hde
        exact absurd hde (hother d hd)
      · rw [hid d hd, hid e he] at hde
        exact h.stored.id_injective d hd e he hde
  · change ((allocDriver (.init record now) s).driver d).id ≠ r.id
    rcases (hmem d).mp hd with rfl | hd
    · rw [hidnew]
      exact (hfresh r hr).symm
    · rw [hid d hd]
      exact h.stored.unread r (Set.mem_insert_of_mem _ hr) d hd

lemma recoverDriver {record : DriverRecord} (h : Mirror (insert record D) W A s)
    (hL : Ledger s) (hfresh : ∀ r ∈ D, r.id ≠ record.id) :
    wp (recoverDriver env record) (fun _ => Mirror D W A) (fun _ => False) s := by
  simp only [Master.recoverDriver, newDriver, wp_bind, wp_get, wp_modify, wp_pure]
  exact h.enterDriver hL hfresh env.now

end Mirror

/-- While the master recovers, these records of the store are still to be read. -/
structure Reading (storedDrivers : List DriverRecord) (storedWorkers : List WorkerRecord)
    (storedApps : List AppRecord) (s : MasterState) : Prop where
  mirror : Mirror {r | r ∈ storedDrivers} {r | r ∈ storedWorkers} {r | r ∈ storedApps} s
  membership : Membership s
  ledger : Ledger s
  state : s.state = .recovering
  drivers_nodup : (storedDrivers.map DriverRecord.id).Nodup
  workers_nodup : (storedWorkers.map WorkerRecord.id).Nodup
  apps_nodup : (storedApps.map AppRecord.id).Nodup
  addresses_nodup : (storedApps.map AppRecord.address).Nodup

namespace Reading

variable {ds : List DriverRecord} {ws : List WorkerRecord} {as : List AppRecord} {s : MasterState}
  (env : Env)

lemma setOf_mem_cons {α : Type} (a : α) (l : List α) : {x | x ∈ a :: l} = insert a {x | x ∈ l} := by
  ext x
  exact List.mem_cons

lemma ne_of_nodup_map {α β : Type} {f : α → β} {a : α} {l : List α} (h : ((a :: l).map f).Nodup) :
    ∀ b ∈ l, f b ≠ f a := by
  rw [List.map_cons, List.nodup_cons] at h
  exact fun b hb he => h.1 (he ▸ List.mem_map_of_mem hb)

/-- Recovery does not touch drivers or applications while it reads the workers. -/
lemma recoverWorkers (h : Reading ds ws as s) (hd : s.drivers = [])
    (hunknown : ∀ w, s.IsMember w → (s.worker w).state = .unknown)
    (happs : ∀ i, s.idToApp i = none) :
    wp (forEach (recoverWorker env) ws)
      (fun _ s' => Reading ds [] as s' ∧ s'.drivers = [] ∧ ∀ i, s'.idToApp i = none)
      (fun _ => False) s := by
  refine wp_forEach (I := fun ws s' => Reading ds ws as s' ∧ s'.drivers = [] ∧
    (∀ w, s'.IsMember w → (s'.worker w).state = .unknown) ∧ ∀ i, s'.idToApp i = none)
    ?_ (fun s' hI => ⟨hI.1, hI.2.1, hI.2.2.2⟩) ws s ⟨h, hd, hunknown, happs⟩
  rintro r ws s1 ⟨h1, hd1, hunknown1, happs1⟩
  have hmirror := h1.mirror
  rw [setOf_mem_cons] at hmirror
  have hne := ne_of_nodup_map h1.workers_nodup
  have hid : s1.idToWorker r.id = none := by
    rw [Option.eq_none_iff_forall_ne_some]
    intro w hw
    obtain ⟨hm, hrid⟩ := (h1.membership.idToWorker _ _).mp hw
    exact hmirror.unread_workers r (Set.mem_insert _ _) w hm hrid
  have hrule := (Ledger.rule (fun _ => True) (fun _ => True) ∅).recoverWorker env h1.ledger h1.state
    hd1 (fun _ => trivial) r
  have hmembers := recoverWorker_wp env h1.membership (by simp [h1.state]) r hid
  refine wp_mono (wp_and (hmirror.recoverWorker env h1.membership hne hunknown1)
    (wp_and hrule hmembers)) ?_ fun _ hf => hf.1
  rintro _ s2 ⟨⟨hmirror2, hunknown2⟩, ⟨hL2, hs2, hd2⟩, hM2, -, happs2, -⟩
  refine ⟨?_, hd2, hunknown2, fun i => by rw [happs2, happs1]⟩
  exact ⟨hmirror2, hM2, hL2, hs2, h1.drivers_nodup, h1.workers_nodup.of_cons, h1.apps_nodup,
    h1.addresses_nodup⟩

lemma recoverApplications (h : Reading ds [] as s) (hd : s.drivers = [])
    (happs : ∀ i, s.idToApp i = none) :
    wp (forEach recoverApplication as) (fun _ s' => Reading ds [] [] s' ∧ s'.drivers = [])
      (fun _ => False) s := by
  have haddr : ∀ r ∈ as, s.addressToApp r.address = none := by
    intro r _
    rw [Option.eq_none_iff_forall_ne_some]
    intro a ha
    have hlookup := h.membership.idToApp.lookup ((h.membership.addressToApp _ _).mp ha).1
    rw [happs] at hlookup
    cases hlookup
  refine wp_forEach (I := fun as s' => Reading ds [] as s' ∧ s'.drivers = [] ∧
    ∀ r ∈ as, s'.addressToApp r.address = none) ?_ (fun s' hI => ⟨hI.1, hI.2.1⟩) as s ⟨h, hd, haddr⟩
  rintro r as s1 ⟨h1, hd1, haddr1⟩
  have hmirror := h1.mirror
  rw [setOf_mem_cons] at hmirror
  have hne := ne_of_nodup_map h1.apps_nodup
  have hid : s1.idToApp r.id = none := by
    rw [Option.eq_none_iff_forall_ne_some]
    intro a ha
    obtain ⟨hm, hrid⟩ := (h1.membership.idToApp _ _).mp ha
    exact hmirror.unread_apps r (Set.mem_insert _ _) a hm hrid
  have hrule := (Ledger.rule (fun _ => True) (fun _ => True) ∅).recoverApplication h1.ledger r
  have hmembers := recoverApplication_wp h1.membership (by simp [h1.state]) r hid
  refine wp_mono (wp_and (hmirror.recoverApplication h1.membership hne
    (haddr1 r List.mem_cons_self)) (wp_and hrule hmembers)) ?_ fun _ hf => hf.1
  rintro _ s2 ⟨⟨hmirror2, haddr2⟩, ⟨hL2, hs2, hd2⟩, hM2, -⟩
  refine ⟨?_, hd2.trans hd1, fun r' hr' => ?_⟩
  · exact ⟨hmirror2, hM2, hL2, hs2.trans h1.state, h1.drivers_nodup, h1.workers_nodup,
      h1.apps_nodup.of_cons, h1.addresses_nodup.of_cons⟩
  · exact haddr2 _ (ne_of_nodup_map h1.addresses_nodup r' hr')
      (haddr1 r' (List.mem_cons_of_mem _ hr'))

lemma recoverDrivers (h : Reading ds [] [] s) :
    wp (forEach (recoverDriver env) ds) (fun _ => Reading [] [] []) (fun _ => False) s := by
  refine wp_forEach (I := fun ds => Reading ds [] []) ?_ (fun s' hI => hI) ds s h
  intro r ds s1 h1
  have hmirror := h1.mirror
  rw [setOf_mem_cons] at hmirror
  have hrule := (Ledger.rule (fun _ => True) (fun _ => True) ∅).recoverDriver env h1.ledger h1.state
    (hmirror.stored.unread r (Set.mem_insert _ _))
  have hmembers : wp (recoverDriver env r) (fun _ => MembersKept s1) (fun _ => False) s1 := by
    simp only [recoverDriver, newDriver, wp_bind, wp_get, wp_modify, wp_pure]
    exact .of_eq rfl rfl
  refine wp_mono (wp_and (hmirror.recoverDriver env h1.ledger (ne_of_nodup_map h1.drivers_nodup))
    (wp_and hrule hmembers)) ?_ fun _ hf => hf.1
  rintro _ s2 ⟨hmirror2, ⟨hL2, hs2, -⟩, k⟩
  exact ⟨hmirror2, k.membership h1.membership, hL2, hs2, h1.drivers_nodup.of_cons, h1.workers_nodup,
    h1.apps_nodup, h1.addresses_nodup⟩

/-- After the recovery nothing is left to be read. -/
lemma beginRecovery (h : Reading ds ws as s) (hd : s.drivers = []) (hworkers : s.workers = [])
    (happs : s.apps = []) :
    wp (beginRecovery env ds ws as) (fun _ => Mirror ∅ ∅ ∅) (fun _ => False) s := by
  simp only [Master.beginRecovery, wp_bind]
  have hidToApp : ∀ i, s.idToApp i = none := by
    intro i
    rw [Option.eq_none_iff_forall_ne_some]
    intro a ha
    have hm := ((h.membership.idToApp _ _).mp ha).1
    rw [happs] at hm
    cases hm
  have hnone : ∀ w, s.IsMember w → (s.worker w).state = .unknown := by
    intro w hw
    have hm := hw.1
    rw [hworkers] at hm
    cases hm
  refine wp_mono (h.recoverWorkers env hd hnone hidToApp) ?_ fun _ hf => hf
  rintro _ s1 ⟨h1, hd1, happs1⟩
  refine wp_mono (h1.recoverApplications hd1 happs1) ?_ fun _ hf => hf
  rintro _ s2 ⟨h2, -⟩
  refine wp_mono (h2.recoverDrivers env) (fun _ s3 h3 => ?_) fun _ hf => hf
  simpa using h3.mirror

end Reading

namespace Mirror

variable {D : Set DriverRecord} {W : Set WorkerRecord} {A : Set AppRecord} {s s' : MasterState}
  (env : Env)

/-! ### Removals -/

lemma setMasterState (h : Mirror D W A s) (state : RecoveryState) :
    Mirror D W A { s with state := state } :=
  h.keep (.of_eq rfl rfl rfl) (fun _ => Iff.rfl) (fun _ _ => rfl) rfl fun _ _ => rfl

lemma removeDriver (h : Mirror D W A s) (change : DriverStateChanged) :
    wp (removeDriver env change) (fun _ => Mirror D W A) (fun _ => False) s := by
  refine wp_mono (wp_and (h.stored.removeDriver env change) ((removeDriver_keeps env change).wp s))
    (fun _ s' hs => ?_) fun _ hf => hf.1
  obtain ⟨h', k⟩ := hs
  have hworkers : workerRecords s' = workerRecords s :=
    workerRecords_congr k.isMember fun w _ => k.record w
  have happs : appRecords s' = appRecords s := by
    simp only [appRecords, k.apps, k.app]
  refine ⟨by rwa [hworkers, happs], fun r hW w hw => ?_, fun r hA a ha => ?_⟩
  · rw [k.record]
    exact h.unread_workers r hW w ((k.isMember w).mp hw)
  · rw [k.apps] at ha
    rw [k.app]
    exact h.unread_apps r hA a ha

/-- Removing, one by one, distinct members. -/
lemma removeWorkers {ws : List WorkerRef} (h : Mirror D W A s) (hM : Membership s)
    (hws : ∀ w ∈ ws, s.IsMember w) (hn : ws.Nodup) :
    wp (forEach (Master.removeWorker env) ws) (fun _ s' => Mirror D W A s' ∧ Membership s')
      (fun _ => False) s := by
  refine wp_forEach (I := fun ws s' => Mirror D W A s' ∧ Membership s' ∧
    (∀ w ∈ ws, s'.IsMember w) ∧ ws.Nodup) ?_ (fun s' hI => ⟨hI.1, hI.2.1⟩) ws s ⟨h, hM, hws, hn⟩
  rintro w ws s1 ⟨h1, hM1, hws1, hn1⟩
  rw [List.nodup_cons] at hn1
  have hw := hws1 w List.mem_cons_self
  refine wp_mono (h1.removeWorker env hM1 hw) ?_ fun _ hf => hf
  rintro _ s2 ⟨h2, k⟩
  refine ⟨h2, k.membership (hM1.forgetWorker hw), fun v hv => ?_, hn1.2⟩
  rw [k.isMember, isMember_forgetWorker]
  exact ⟨hws1 v (List.mem_cons_of_mem _ hv), fun he => hn1.1 (he ▸ hv)⟩

lemma removeApplications {as : List AppRef} (h : Mirror D W A s) (hM : Membership s)
    (has : ∀ a ∈ as, a ∈ s.apps) (hn : as.Nodup) :
    wp (forEach Master.removeApplication as) (fun _ => Mirror D W A) (fun _ => False) s := by
  refine wp_forEach (I := fun as s' => Mirror D W A s' ∧ Membership s' ∧
    (∀ a ∈ as, a ∈ s'.apps) ∧ as.Nodup) ?_ (fun s' hI => hI.1) as s ⟨h, hM, has, hn⟩
  rintro a as s1 ⟨h1, hM1, has1, hn1⟩
  rw [List.nodup_cons] at hn1
  have ha := has1 a List.mem_cons_self
  refine wp_mono (wp_and (h1.removeApplication hM1 ha) (removeApplication_wp hM1 ha)) ?_
    fun _ hf => hf.1
  rintro _ s2 ⟨⟨h2, -, happs⟩, hM2, -⟩
  refine ⟨h2, hM2, fun b hb => ?_, hn1.2⟩
  rw [happs, List.mem_filter]
  refine ⟨has1 b (List.mem_cons_of_mem _ hb), ?_⟩
  simpa using fun he : b = a => hn1.1 (he ▸ hb)

lemma completeRecovery (h : Mirror D W A s) (hM : Membership s) :
    wp (completeRecovery env) (fun _ => Mirror D W A) (fun _ => False) s := by
  simp only [Master.completeRecovery, wp_bind, wp_get, wp_ite, wp_modify, wp_pure, draw_wp]
  split
  · rename_i hs
    have h1 : Mirror D W A { s with state := .completingRecovery, draws := s.draws + 1 } :=
      (h.setMasterState .completingRecovery).keep_members (.of_eq rfl rfl rfl) (.of_eq rfl rfl)
    have hM1 : Membership { s with state := .completingRecovery, draws := s.draws + 1 } :=
      { idToWorker := hM.idToWorker, addressToWorker := hM.addressToWorker, idToApp := hM.idToApp
        addressToApp := hM.addressToApp, workers_nodup := hM.workers_nodup
        apps_nodup := hM.apps_nodup, worker_lt := hM.worker_lt, app_lt := hM.app_lt
        standby := fun hc => by cases hc }
    refine wp_mono (h1.removeWorkers env hM1 (fun w hw => ?_) ?_) ?_ fun _ hf => hf
    · simp only [Shuffle.mem_apply, List.mem_filter, decide_eq_true_eq] at hw
      exact ⟨hw.1, by simp [hw.2]⟩
    · exact ((env.random s.draws).perm _).nodup_iff.mpr (hM.workers_nodup.filter _)
    · rintro _ s2 ⟨h2, hM2⟩
      have h3 : Mirror D W A { s2 with draws := s2.draws + 1 } :=
        h2.keep_members (.of_eq rfl rfl rfl) (.of_eq rfl rfl)
      have hM3 : Membership { s2 with draws := s2.draws + 1 } := hM2.congr rfl rfl
      refine wp_mono (h3.removeApplications hM3 (fun a ha => ?_) ?_) ?_ fun _ hf => hf
      · simp only [Shuffle.mem_apply, List.mem_filter] at ha
        exact ha.1
      · exact ((env.random s2.draws).perm _).nodup_iff.mpr (hM2.apps_nodup.filter _)
      · exact fun _ s4 h4 => (h4.setMasterState .active).schedule env
  · exact h

lemma completeIfPossible (h : Mirror D W A s) (hM : Membership s) :
    wp (completeIfPossible env) (fun _ => Mirror D W A) (fun _ => False) s := by
  simp only [Master.completeIfPossible, wp_bind, wp_get, wp_ite, wp_pure]
  split
  · exact h.completeRecovery env hM
  · exact h

/-! ### The message handlers -/

lemma storeWorker (h : Mirror D W A s) {r : WorkerRecord}
    (hmember : ∀ v, s.IsMember v → (s.worker v).id ≠ r.id) (hW : ∀ r' ∈ W, r'.id ≠ r.id) :
    Mirror D (insert r W) A { s with persistenceEngine := s.persistenceEngine.addWorker r } := by
  have hfresh : ∀ r' ∈ workerRecords s ∪ W, r'.id ≠ r.id := by
    rintro r' (⟨v, hv, rfl⟩ | hr')
    · exact hmember v hv
    · exact hW r' hr'
  have hholds := h.stored.holds.addWorker hfresh
  rw [← Set.union_insert] at hholds
  refine ⟨⟨hholds, h.stored.id_injective, h.stored.unread⟩, fun r' hr' v hv => ?_, h.unread_apps⟩
  rcases hr' with rfl | hr'
  · exact hmember v hv
  · exact h.unread_workers r' hr' v hv

lemma storeApplication (h : Mirror D W A s) {r : AppRecord}
    (happ : ∀ a ∈ s.apps, (s.app a).id ≠ r.id) (hA : ∀ r' ∈ A, r'.id ≠ r.id) :
    Mirror D W (insert r A) { s with
      persistenceEngine := s.persistenceEngine.addApplication r } := by
  have hfresh : ∀ r' ∈ appRecords s ∪ A, r'.id ≠ r.id := by
    rintro r' (⟨a, ha, rfl⟩ | hr')
    · exact happ a ha
    · exact hA r' hr'
  have hholds := h.stored.holds.addApplication hfresh
  rw [← Set.union_insert] at hholds
  refine ⟨⟨hholds, h.stored.id_injective, h.stored.unread⟩, h.unread_workers, fun r' hr' a ha => ?_⟩
  rcases hr' with rfl | hr'
  · exact happ a ha
  · exact h.unread_apps r' hr' a ha

lemma storeDriver (h : Mirror D W A s) {r : DriverRecord}
    (hdriver : ∀ d ∈ s.drivers, (s.driver d).id ≠ r.id) (hD : ∀ r' ∈ D, r'.id ≠ r.id) :
    Mirror (insert r D) W A { s with persistenceEngine := s.persistenceEngine.addDriver r } := by
  have hfresh : ∀ r' ∈ driverRecords s ∪ D, r'.id ≠ r.id := by
    rintro r' (⟨d, hd, rfl⟩ | hr')
    · exact hdriver d hd
    · exact hD r' hr'
  have hholds := h.stored.holds.addDriver hfresh
  rw [← Set.union_insert] at hholds
  refine ⟨⟨hholds, h.stored.id_injective, fun r' hr' d hd => ?_⟩, h.unread_workers, h.unread_apps⟩
  rcases hr' with rfl | hr'
  · exact hdriver d hd
  · exact h.stored.unread r' hr' d hd

lemma handleRegisterWorker (h : Mirror ∅ ∅ ∅ s) (hM : Membership s) (record : WorkerRecord) :
    wp (handleRegisterWorker env record) (fun _ => Mirror ∅ ∅ ∅) (fun _ => False) s := by
  simp only [Master.handleRegisterWorker, newWorker, wp_bind, wp_get, wp_ite, wp_modify, wp_pure]
  split
  · exact h.send _ _
  split
  · exact h.send _ _
  rename_i hid
  rw [Option.not_isSome_iff_eq_none] at hid
  have hM1 : Membership (Master.allocWorker (.init record env.now) s) := hM.newWorker _
  have h1 := h.allocWorker hM (.init record env.now)
  have hw : s.nextWorker ∉ s.workers := fun hc => Nat.lt_irrefl _ (hM.worker_lt _ hc)
  have hnew : (Master.allocWorker (.init record env.now) s).worker s.nextWorker =
      .init record env.now := Function.update_self _ _ _
  refine wp_mono (h1.registerWorker env hM1 hw) ?_ fun _ hf => hf
  rintro registered s2 ⟨s1, room, hres⟩
  cases registered with
  | false =>
    obtain ⟨rfl, -⟩ := hres
    exact room.mirror.send _ _
  | true =>
    obtain rfl : s2 = Master.enterWorker s.nextWorker s1 := hres
    have hrecord : (s1.worker s.nextWorker).toWorkerRecord = record := by
      rw [room.record, hnew]
      rfl
    have hstate : (s1.worker s.nextWorker).state ≠ .dead := by
      rw [room.workerState _ (Or.inr rfl), hnew]
      simp [WorkerInfo.init]
    have hfresh : ∀ v, s1.IsMember v → (s1.worker v).id ≠ record.id := by
      intro v hv he
      rw [room.record] at he
      have hlookup := hM1.idToWorker.lookup (room.isMember v hv)
      rw [he] at hlookup
      exact absurd (hid.symm.trans hlookup) (by simp)
    have h2 := room.mirror.storeWorker hfresh fun _ hr => absurd hr (Set.notMem_empty _)
    have h3 : Mirror ∅ ∅ ∅ (Master.enterWorker s.nextWorker
        { s1 with persistenceEngine := s1.persistenceEngine.addWorker record }) :=
      Mirror.enterWorker hstate (hrecord.symm ▸ h2) fun _ hr => absurd hr (Set.notMem_empty _)
    exact (h3.send _ _).schedule env

lemma handleRegisterApplication (h : Mirror ∅ ∅ ∅ s) (hM : Membership s) (record : AppRecord) :
    wp (handleRegisterApplication record) (fun _ => Mirror ∅ ∅ ∅) (fun _ => False) s := by
  simp only [Master.handleRegisterApplication, wp_bind, wp_get, wp_ite, wp_modify]
  split
  · exact h.send _ _
  split
  · exact h.send _ _
  rename_i hid
  rw [Option.not_isSome_iff_eq_none] at hid
  refine wp_mono (wp_and (h.newApp hM record) (newApp_wp hM record)) ?_ fun _ hf => hf.1
  rintro a s1 ⟨⟨h1, -, hid1, hinfo⟩, hM1, -⟩
  have hrecord : (s1.app a).toAppRecord = record := by
    rw [hinfo]
    rfl
  have hfresh : ∀ b ∈ s1.apps, (s1.app b).id ≠ record.id := by
    intro b hb he
    have hlookup := hM1.idToApp.lookup hb
    rw [he, hid1, hid] at hlookup
    cases hlookup
  simp only [registerApplication, wp_bind, wp_get, wp_ite, wp_modify, wp_pure]
  split
  · exact h1.send _ _
  · have h2 : Mirror ∅ ∅ (insert (s1.app a).toAppRecord ∅) { s1 with
        persistenceEngine := s1.persistenceEngine.addApplication record } := by
      rw [hrecord]
      exact h1.storeApplication hfresh fun _ hr => absurd hr (Set.notMem_empty _)
    have h3 := Mirror.enterApplication (a := a)
      (s := { s1 with persistenceEngine := s1.persistenceEngine.addApplication record })
      h2 (fun _ hr => absurd hr (Set.notMem_empty _))
      (Function.update s1.idToApp (s1.app a).id (some a))
      (Function.update s1.addressToApp (s1.app a).address (some a))
    exact h3.keep_members (.of_eq rfl rfl rfl) (.of_eq rfl rfl)

lemma disconnectWorker (h : Mirror D W A s) (hM : Membership s) (remoteAddress : Address) :
    wp (disconnectWorker env remoteAddress) (fun _ s' => Mirror D W A s' ∧ Membership s')
      (fun _ => False) s := by
  simp only [Master.disconnectWorker, wp_bind, wp_get]
  split
  · rename_i w hw
    have hmember := ((hM.addressToWorker _ _).mp hw).1
    refine wp_mono (h.removeWorker env hM hmember) (fun _ s1 h1 => ?_) fun _ hf => hf
    exact ⟨h1.1, h1.2.membership (hM.forgetWorker hmember)⟩
  · exact ⟨h, hM⟩

lemma disconnectApplication (h : Mirror D W A s) (hM : Membership s) (remoteAddress : Address) :
    wp (disconnectApplication remoteAddress) (fun _ s' => Mirror D W A s' ∧ Membership s')
      (fun _ => False) s := by
  simp only [Master.disconnectApplication, wp_bind, wp_get]
  split
  · rename_i a ha
    have hmem := ((hM.addressToApp _ _).mp ha).1
    exact wp_mono (wp_and (h.removeApplication hM hmem) (removeApplication_wp hM hmem))
      (fun _ s1 h1 => ⟨h1.1.1, h1.2.1⟩) fun _ hf => hf.1
  · exact ⟨h, hM⟩

lemma onDisconnected (h : Mirror D W A s) (hM : Membership s) (remoteAddress : Address) :
    wp (onDisconnected env remoteAddress) (fun _ => Mirror D W A) (fun _ => False) s := by
  rw [Master.onDisconnected, wp_bind]
  refine wp_mono (h.disconnectWorker env hM remoteAddress) ?_ fun _ hf => hf
  rintro _ s1 ⟨h1, hM1⟩
  rw [wp_bind]
  refine wp_mono (h1.disconnectApplication hM1 remoteAddress) ?_ fun _ hf => hf
  rintro _ s2 ⟨h2, hM2⟩
  simp only [wp_bind, wp_get, wp_ite, wp_pure]
  split
  · exact h2.completeIfPossible env hM2
  · exact h2

lemma timeOutDeadWorkers (h : Mirror D W A s) (hM : Membership s) :
    wp (timeOutDeadWorkers env) (fun _ => Mirror D W A) (fun _ => False) s := by
  simp only [Master.timeOutDeadWorkers, wp_bind, wp_get, draw_wp]
  have h0 := h.draw
  refine wp_forEach (I := fun ws s' => Mirror D W A s' ∧ Membership s' ∧
    (∀ w ∈ ws, w ∈ s'.workers) ∧ ws.Nodup) ?_ (fun _ hI => hI.1) _ _
    ⟨h0, hM.congr rfl rfl, fun w hw => ?_, ?_⟩
  · rintro w ws s1 ⟨h1, hM1, hws1, hn1⟩
    rw [List.nodup_cons] at hn1
    have hrest : ∀ v ∈ ws, v ∈ s1.workers := fun v hv => hws1 v (List.mem_cons_of_mem _ hv)
    simp only [wp_bind, wp_get, wp_ite, wp_modify, wp_pure]
    split
    · rename_i hd
      have hw : s1.IsMember w := ⟨hws1 w List.mem_cons_self, hd⟩
      refine wp_mono (h1.removeWorker env hM1 hw) ?_ fun _ hf => hf
      rintro _ s2 ⟨h2, k⟩
      refine ⟨h2, k.membership (hM1.forgetWorker hw), fun v hv => ?_, hn1.2⟩
      rw [k.workers]
      exact hrest v hv
    · rename_i hd
      rw [not_not] at hd
      split
      · have hkept : ∀ v, s1.IsMember v → v ≠ w := fun v hv he => hv.2 (he ▸ hd)
        refine ⟨?_, hM1.filter_workers _ fun v hv => by simpa using hkept v hv,
          fun v hv => ?_, hn1.2⟩
        · refine h1.keep (.of_eq rfl rfl rfl) (fun v => ?_) (fun _ _ => rfl) rfl fun _ _ => rfl
          simp only [IsMember, expireWorker, List.mem_filter]
          constructor
          · exact fun hv => ⟨hv.1.1, hv.2⟩
          · exact fun hv => ⟨⟨hv.1, by simpa using hkept v hv⟩, hv.2⟩
        · refine List.mem_filter.mpr ⟨hrest v hv, ?_⟩
          simpa using fun he : v = w => hn1.1 (he ▸ hv)
      · exact ⟨h1, hM1, hrest, hn1.2⟩
  · simp only [Shuffle.mem_apply, List.mem_filter] at hw
    exact hw.1
  · exact ((env.random s.draws).perm _).nodup_iff.mpr (hM.workers_nodup.filter _)

lemma handleDriverStateChanged (h : Mirror D W A s) (change : DriverStateChanged) :
    wp (handleDriverStateChanged env change) (fun _ => Mirror D W A) (fun _ => False) s := by
  have h0 := h.draw
  simp only [Master.handleDriverStateChanged, wp_ite, wp_bind]
  split
  · exact h.removeDriver env change
  · refine findDriver_wp env (fun _ => h0) fun d _ _ => ?_
    exact h0.keep_members (.updateDriver _ d fun _ => rfl) (.updateDriver _ d _)

lemma handleRequestSubmitDriver (h : Mirror ∅ ∅ ∅ s) (hL : Ledger s) {driverName : String}
    {desc : DriverDesc} (hfresh : SubmitsFresh s (.requestSubmitDriver driverName desc)) :
    wp (handleRequestSubmitDriver env driverName desc) (fun _ => Mirror ∅ ∅ ∅) (fun _ => False)
      s := by
  simp only [Master.handleRequestSubmitDriver, createDriver, newDriver, wp_bind, wp_get, wp_ite,
    wp_modify, wp_pure]
  split
  · exact h.send _ _
  · rename_i hs
    rw [not_not] at hs
    have hnone : ∀ r ∈ (∅ : Set DriverRecord), r.id ≠ driverName :=
      fun _ hr => absurd hr (Set.notMem_empty _)
    have hrecord : ((allocDriver (.init ⟨env.now, driverName, desc, env.now⟩ env.now) s).driver
        s.nextDriver).toDriverRecord = ⟨env.now, driverName, desc, env.now⟩ := by
      simp [allocDriver, DriverInfo.init]
    have h1 := h.storeDriver (r := ⟨env.now, driverName, desc, env.now⟩) (hfresh hs) hnone
    have h2 := h1.enterDriver (hL.frame (.of_eq rfl rfl)) hnone env.now
    rw [hrecord]
    refine wp_mono (Mirror.schedule env (h2.keep_members ?_ ?_)) (fun _ s1 h3 => h3.send _ _)
      fun _ hf => hf
    · exact .of_eq rfl rfl rfl
    · exact .of_eq rfl rfl

lemma answeringWorker (h : Mirror D W A s) (hM : Membership s) (workerId : String)
    (driverIds : List String) :
    wp (answeringWorker env workerId driverIds) (fun _ s' => Mirror D W A s' ∧ Membership s')
      (fun _ => False) s := by
  simp only [Master.answeringWorker, wp_bind, wp_get]
  split
  · rename_i w hw
    have hmember := ((hM.idToWorker _ _).mp hw).1
    simp only [wp_bind, wp_modify]
    have h1 : Mirror D W A (s.updateWorker w (·.setState .alive)) := h.setState (by simp) hmember
    have hM1 : Membership (s.updateWorker w (·.setState .alive)) :=
      hM.setState (by simp) fun _ => hmember.2
    refine wp_forEach (I := fun _ s' => Mirror D W A s' ∧ Membership s') ?_ (fun _ hI => hI) _ _
      ⟨h1, hM1⟩
    rintro driverId _ s1 ⟨h2, hM2⟩
    have hok : wp (claimDriver env w driverId) (fun _ _ => True) (fun _ => False) s1 := by
      simp only [claimDriver, wp_bind]
      exact findDriver_wp env (fun _ => trivial) fun _ _ _ => trivial
    refine wp_mono (wp_and hok (wp_and ((claimDriver_keeps env w driverId).wp s1)
      ((StoreKept.claimDriver env w driverId).wp s1))) ?_ fun _ hf => hf.1
    exact fun _ s2 h3 => ⟨h2.keep_members h3.2.2 h3.2.1, h3.2.1.membership hM2⟩
  · exact ⟨h, hM⟩

lemma handleHeartbeat (h : Mirror D W A s) (workerId : String) (worker : ActorRef) :
    Mirror D W A (handleHeartbeat env workerId worker s) := by
  refine h.keep_members ?_ (handleHeartbeat_members env workerId worker s)
  simp only [Master.handleHeartbeat]
  split
  · exact .of_eq rfl rfl rfl
  · split
    · exact .of_eq rfl rfl rfl
    · exact .of_eq rfl rfl rfl

lemma handleWorkerLatestState (h : Mirror D W A s) (workerId : String) (driverIds : List String) :
    Mirror D W A (handleWorkerLatestState workerId driverIds s) := by
  simp only [Master.handleWorkerLatestState]
  split
  · refine List.foldlRecOn driverIds _ h fun s' h' d _ => ?_
    split
    · exact h'
    · exact h'.send _ _
  · exact h

lemma answeringApplication (h : Mirror D W A s) (driverId : String) :
    Mirror D W A (answeringApplication driverId s) := by
  simp only [Master.answeringApplication]
  split
  · exact h.updateApp _ fun _ => rfl
  · exact h

lemma handleRequestKillDriver (h : Mirror D W A s) (driverId : String) :
    wp (handleRequestKillDriver env driverId) (fun _ => Mirror D W A) (fun _ => False) s := by
  have h0 := h.draw
  simp only [Master.handleRequestKillDriver, wp_bind, wp_get, wp_ite, wp_modify]
  split
  · exact h.send _ _
  · refine findDriver_wp env (fun _ => h0.send _ _) fun d _ _ => ?_
    simp only [killDriver, wp_bind, wp_get, wp_ite, wp_modify]
    split
    · have h1 : Mirror D W A (dequeueDriver d { s with draws := s.draws + 1 }) :=
        h0.keep_members (.of_eq rfl rfl rfl) (.of_eq rfl rfl)
      exact (h1.send _ _).send _ _
    · split
      · exact (h0.send _ _).send _ _
      · exact h0.send _ _

lemma handleRequestDriverStatus (h : Mirror D W A s) (driverId : String) :
    wp (handleRequestDriverStatus env driverId) (fun _ => Mirror D W A) (fun _ => False) s := by
  have h0 := h.draw
  simp only [Master.handleRequestDriverStatus, wp_bind, wp_get, wp_ite, wp_modify, draw_wp]
  split
  · exact h.send _ _
  · split
    · exact h0.send _ _
    · exact h0.send _ _

lemma handleRequestAllDriverStatus (h : Mirror D W A s) (pattern : Option String) :
    wp (handleRequestAllDriverStatus env pattern) (fun _ => Mirror D W A) (fun _ => False) s := by
  have h0 := h.draw
  simp only [Master.handleRequestAllDriverStatus, wp_bind, wp_get, wp_ite, wp_modify, draw_wp]
  split
  · exact h.send _ _
  · exact h0.send _ _

/-- Whatever a leader handles, no operation of the store fails and the mirror is kept. -/
lemma handleMessage {m : Message} (h : Mirror ∅ ∅ ∅ s) (hM : Membership s) (hL : Ledger s)
    (hm : ∀ startOnBoot, m ≠ .electedLeader startOnBoot) (hfresh : SubmitsFresh s m) :
    wp (handleMessage env m) (fun _ => Mirror ∅ ∅ ∅) (fun _ => False) s := by
  cases m with
  | electedLeader startOnBoot => exact absurd rfl (hm startOnBoot)
  | registerWorker id host port worker address => exact h.handleRegisterWorker env hM _
  | heartbeat workerId worker => exact h.handleHeartbeat env workerId worker
  | workerSchedulerStateResponse workerId driverIds =>
    simp only [Master.handleMessage, handleWorkerSchedulerStateResponse, wp_bind]
    exact wp_mono (h.answeringWorker env hM workerId driverIds)
      (fun _ _ h' => h'.1.completeIfPossible env h'.2) fun _ hf => hf
  | workerLatestState workerId driverIds => exact h.handleWorkerLatestState workerId driverIds
  | registerApplication driverId host port endpoint address dataPort appType =>
    exact h.handleRegisterApplication hM _
  | applicationStateResponse driverId =>
    simp only [Master.handleMessage, handleApplicationStateResponse, wp_bind, wp_modify]
    exact (h.answeringApplication driverId).completeIfPossible env
      (answeringApplication_membership hM driverId)
  | completeRecovery => exact h.completeRecovery env hM
  | checkForWorkerTimeOut => exact h.timeOutDeadWorkers env hM
  | driverStateChanged change => exact h.handleDriverStateChanged env change
  | requestSubmitDriver driverName desc => exact h.handleRequestSubmitDriver env hL hfresh
  | requestKillDriver driverId => exact h.handleRequestKillDriver env driverId
  | requestDriverStatus driverId => exact h.handleRequestDriverStatus env driverId
  | requestAllDriverStatus pattern => exact h.handleRequestAllDriverStatus env pattern
  | disconnected remoteAddress => exact h.onDisconnected env hM remoteAddress

/-! ### Standby and election -/

/-- The collections of a standby master are empty, so all of the store is still to be read. -/
lemma of_standby {zk : ZkStore} (hp : s.persistenceEngine = .zookeeper zk) (hd : s.drivers = [])
    (hw : s.workers = []) (ha : s.apps = []) {ds : List DriverRecord} {ws : List WorkerRecord}
    {as : List AppRecord} (hds : ds.Perm s.persistenceEngine.readDrivers)
    (hws : ws.Perm s.persistenceEngine.readWorkers)
    (has : as.Perm s.persistenceEngine.readApplication) :
    Mirror {r | r ∈ ds} {r | r ∈ ws} {r | r ∈ as} s := by
  rw [hp] at hds hws has
  have hdrivers : driverRecords s = ∅ := by simp [driverRecords, hd]
  have hworkers : workerRecords s = ∅ := by simp [workerRecords, IsMember, hw]
  have happs : appRecords s = ∅ := by simp [appRecords, ha]
  refine ⟨⟨⟨zk, hp, ?_, ?_, ?_⟩, by simp [hd], by simp [hd]⟩, by simp [IsMember, hw], by simp [ha]⟩
  · simp [hdrivers, hds.mem_iff, PersistenceEngine.readDrivers]
  · simp [hworkers, hws.mem_iff, PersistenceEngine.readWorkers]
  · simp [happs, has.mem_iff, PersistenceEngine.readApplication]

end Mirror

end Moonbox.Deploy
