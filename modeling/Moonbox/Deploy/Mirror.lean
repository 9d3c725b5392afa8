import Mathlib.Data.Set.Insert
import Moonbox.Deploy.Ledger

/-!
# The store mirrors the master

The store of the `ZookeeperPersistenceEngine` holds a record for every driver, worker and
application of the leader. Each handler first changes the collections and then the store, or the
other way round, so the lemmas say what the store holds as sets of records; the removals succeed
because what they remove is there.
-/

namespace Moonbox.Deploy

open Actor Handler Relation Master MasterState

/-! ### What the store holds -/

/-- The store is there and holds exactly these records. -/
def PersistenceEngine.Holds (engine : PersistenceEngine) (drivers : Set DriverRecord)
    (workers : Set WorkerRecord) (apps : Set AppRecord) : Prop :=
  ∃ zk, engine = .zookeeper zk ∧ (∀ r, r ∈ zk.drivers.read ↔ r ∈ drivers) ∧
    (∀ r, r ∈ zk.workers.read ↔ r ∈ workers) ∧ ∀ r, r ∈ zk.apps.read ↔ r ∈ apps

namespace Directory

variable {ρ : Type} {idOf : ρ → String} {dir : Directory ρ idOf} {records : Set ρ} {r : ρ}

lemma mem_read_persist (h : ∀ r, r ∈ dir.read ↔ r ∈ records)
    (hfresh : ∀ r' ∈ records, idOf r' ≠ idOf r) (r' : ρ) :
    r' ∈ (dir.persist r).read ↔ r' ∈ insert r records := by
  rw [mem_read, lookup_persist, Set.mem_insert_iff]
  split
  · rename_i he
    constructor
    · intro hr
      exact Or.inl (Option.some.inj hr).symm
    · rintro (rfl | hr)
      · rfl
      · exact absurd he (hfresh r' hr)
  · rename_i he
    rw [← mem_read, h]
    constructor
    · exact Or.inr
    · rintro (rfl | hr)
      · exact absurd rfl he
      · exact hr

lemma mem_read_unpersist (h : ∀ r, r ∈ dir.read ↔ r ∈ records) (hr : r ∈ records) :
    ∃ dir', dir.unpersist (idOf r) = .ok dir' ∧
      ∀ r', r' ∈ dir'.read ↔ r' ∈ {r' ∈ records | idOf r' ≠ idOf r} := by
  obtain ⟨dir', hdir⟩ := exists_unpersist (mem_read.mp ((h r).mpr hr))
  refine ⟨dir', hdir, fun r' => ?_⟩
  rw [mem_read, lookup_unpersist hdir]
  split
  · rename_i he
    simp [he]
  · rename_i he
    rw [← mem_read, h]
    simp [he]

end Directory

namespace PersistenceEngine

variable {engine : PersistenceEngine} {D : Set DriverRecord} {W : Set WorkerRecord}
  {A : Set AppRecord}

lemma Holds.addDriver (h : engine.Holds D W A) {r : DriverRecord} (hfresh : ∀ r' ∈ D, r'.id ≠ r.id) :
    (engine.addDriver r).Holds (insert r D) W A := by
  obtain ⟨zk, rfl, hd, hw, ha⟩ := h
  exact ⟨_, rfl, Directory.mem_read_persist hd hfresh, hw, ha⟩

lemma Holds.addWorker (h : engine.Holds D W A) {r : WorkerRecord} (hfresh : ∀ r' ∈ W, r'.id ≠ r.id) :
    (engine.addWorker r).Holds D (insert r W) A := by
  obtain ⟨zk, rfl, hd, hw, ha⟩ := h
  exact ⟨_, rfl, hd, Directory.mem_read_persist hw hfresh, ha⟩

lemma Holds.addApplication (h : engine.Holds D W A) {r : AppRecord}
    (hfresh : ∀ r' ∈ A, r'.id ≠ r.id) : (engine.addApplication r).Holds D W (insert r A) := by
  obtain ⟨zk, rfl, hd, hw, ha⟩ := h
  exact ⟨_, rfl, hd, hw, Directory.mem_read_persist ha hfresh⟩

lemma Holds.removeDriver (h : engine.Holds D W A) {r : DriverRecord} (hr : r ∈ D) :
    ∃ engine', engine.removeDriver r = .ok engine' ∧
      engine'.Holds {r' ∈ D | r'.id ≠ r.id} W A := by
  obtain ⟨zk, rfl, hd, hw, ha⟩ := h
  obtain ⟨dir, hdir, hd'⟩ := Directory.mem_read_unpersist hd hr
  refine ⟨.zookeeper { zk with drivers := dir }, ?_, _, rfl, hd', hw, ha⟩
  simp [PersistenceEngine.removeDriver, hdir, bind, Except.bind]

lemma Holds.removeWorker (h : engine.Holds D W A) {r : WorkerRecord} (hr : r ∈ W) :
    ∃ engine', engine.removeWorker r = .ok engine' ∧
      engine'.Holds D {r' ∈ W | r'.id ≠ r.id} A := by
  obtain ⟨zk, rfl, hd, hw, ha⟩ := h
  obtain ⟨dir, hdir, hw'⟩ := Directory.mem_read_unpersist hw hr
  refine ⟨.zookeeper { zk with workers := dir }, ?_, _, rfl, hd, hw', ha⟩
  simp [PersistenceEngine.removeWorker, hdir, bind, Except.bind]

lemma Holds.removeApplication (h : engine.Holds D W A) {r : AppRecord} (hr : r ∈ A) :
    ∃ engine', engine.removeApplication r = .ok engine' ∧
      engine'.Holds D W {r' ∈ A | r'.id ≠ r.id} := by
  obtain ⟨zk, rfl, hd, hw, ha⟩ := h
  obtain ⟨dir, hdir, ha'⟩ := Directory.mem_read_unpersist ha hr
  refine ⟨.zookeeper { zk with apps := dir }, ?_, _, rfl, hd, hw, ha'⟩
  simp [PersistenceEngine.removeApplication, hdir, bind, Except.bind]

end PersistenceEngine

/-! ### The drivers -/

def driverRecords (s : MasterState) : Set DriverRecord :=
  {r | ∃ d ∈ s.drivers, (s.driver d).toDriverRecord = r}

/-- The store has the drivers of the master, each under an id of its own, and those of `D`, which
the master has not read yet. -/
structure DriversStored (D : Set DriverRecord) (W : Set WorkerRecord) (A : Set AppRecord)
    (s : MasterState) : Prop where
  holds : s.persistenceEngine.Holds (driverRecords s ∪ D) W A
  id_injective : ∀ d ∈ s.drivers, ∀ e ∈ s.drivers, (s.driver d).id = (s.driver e).id → d = e
  unread : ∀ r ∈ D, ∀ d ∈ s.drivers, (s.driver d).id ≠ r.id

/-- Nothing that is stored has changed, nor the store. -/
structure StoreKept (s s' : MasterState) : Prop where
  persistenceEngine : s'.persistenceEngine = s.persistenceEngine
  drivers : s'.drivers = s.drivers
  record : ∀ d, (s'.driver d).toDriverRecord = (s.driver d).toDriverRecord

namespace StoreKept

instance : Std.Refl StoreKept where
  refl _ := ⟨rfl, rfl, fun _ => rfl⟩

instance : IsTrans MasterState StoreKept where
  trans _ _ _ h h' := ⟨h'.persistenceEngine.trans h.persistenceEngine, h'.drivers.trans h.drivers,
    fun d => (h'.record d).trans (h.record d)⟩

lemma of_eq {s s' : MasterState} (hp : s'.persistenceEngine = s.persistenceEngine)
    (hd : s'.drivers = s.drivers) (he : s'.driver = s.driver) : StoreKept s s' :=
  ⟨hp, hd, fun d => by rw [he]⟩

lemma launchNext_persistenceEngine (w : WorkerRef) (d : DriverRef) (s : MasterState) :
    (launchNext w d s).persistenceEngine = s.persistenceEngine := by
  simp only [launchNext, launchDriver, updateDriver, updateWorker, send]

lemma launchWaiting (workers : List WorkerRef) (ds : List DriverRef) :
    ∀ (curPos : Fin workers.length) (s : MasterState),
      StoreKept s (launchWaiting workers curPos ds s) := by
  induction ds with
  | nil => exact fun _ s => Std.Refl.refl s
  | cons d ds ih =>
    intro curPos s
    have h : StoreKept s (launchNext (workers.get curPos) d s) :=
      ⟨launchNext_persistenceEngine _ d s, launchNext_drivers _ d s,
        (OnlyRemoves.launchNext _ d s).record⟩
    exact IsTrans.trans _ _ _ h (ih _ _)

lemma schedule (env : Env) : Keeps StoreKept (schedule env) := by
  refine Keeps.get.bind fun s => Keeps.ite ?_ (Keeps.pure _)
  refine Keeps.bind (fun _ => of_eq rfl rfl rfl) fun workers => ?_
  split
  · exact Keeps.modify fun s' => launchWaiting _ _ _ _
  · exact Keeps.pure _

lemma schedule_wp (env : Env) (s : MasterState) :
    wp (Master.schedule env) (fun _ => StoreKept s) (fun _ => False) s := by
  have hok : wp (Master.schedule env) (fun _ _ => True) (fun _ => False) s := by
    simp only [Master.schedule, wp_bind, wp_get, wp_ite, wp_pure, draw_wp]
    split
    · split
      · trivial
      · trivial
    · trivial
  exact wp_mono (wp_and ((schedule env).wp s) hok) (fun _ _ h => h.1) fun _ h => h.2

lemma findDriver (env : Env) (driverId : String) : Keeps StoreKept (findDriver env driverId) :=
  Keeps.get.bind fun _ => Keeps.bind (fun _ => of_eq rfl rfl rfl) fun _ => Keeps.pure _

lemma updateDriver (s : MasterState) (d : DriverRef) {f : DriverInfo → DriverInfo}
    (hf : ∀ i, (f i).toDriverRecord = i.toDriverRecord) : StoreKept s (s.updateDriver d f) := by
  refine ⟨rfl, rfl, fun e => ?_⟩
  rw [updateDriver_driver]
  split
  · rename_i he
    rw [hf, he]
  · rfl

lemma claimDriver (env : Env) (w : WorkerRef) (driverId : String) :
    Keeps StoreKept (claimDriver env w driverId) := by
  refine (findDriver env _).bind fun found => ?_
  cases found with
  | none => exact Keeps.pure _
  | some d =>
    refine Keeps.modify fun s => ⟨rfl, rfl, fun e => ?_⟩
    rw [assignDriver_driver]
    split
    · rename_i he
      rw [he]
    · rfl

end StoreKept

namespace DriversStored

variable {D : Set DriverRecord} {W : Set WorkerRecord} {A : Set AppRecord} {s s' : MasterState}
  (env : Env)

lemma keep (h : DriversStored D W A s) (k : StoreKept s s') : DriversStored D W A s' := by
  have hid : ∀ d, (s'.driver d).id = (s.driver d).id := fun d => congrArg DriverRecord.id (k.record d)
  refine ⟨?_, fun d hd e he hde => ?_, fun r hr d hd => ?_⟩
  · rw [k.persistenceEngine]
    simpa only [driverRecords, k.drivers, k.record] using h.holds
  · rw [k.drivers] at hd he
    rw [hid, hid] at hde
    exact h.id_injective d hd e he hde
  · rw [hid]
    exact h.unread r hr d (k.drivers ▸ hd)

/-- A driver that is found is in the store, so its removal succeeds. -/
lemma removeDriver (h : DriversStored D W A s) (change : DriverStateChanged) :
    wp (removeDriver env change) (fun _ => DriversStored D W A) (fun _ => False) s := by
  rw [Master.removeDriver, wp_bind]
  refine findDriver_wp env (fun _ => h.keep (.of_eq rfl rfl rfl)) fun d hd _ => ?_
  obtain ⟨engine', hengine, hholds⟩ := h.holds.removeDriver (Or.inl ⟨d, hd, rfl⟩)
  have hfind : (completeDriver d { s with draws := s.draws + 1 }).persistenceEngine.removeDriver
      ((completeDriver d { s with draws := s.draws + 1 }).driver d).toDriverRecord = .ok engine' :=
    hengine
  simp only [wp_bind, wp_modify, wp_get, persisting, hfind]
  have h1 : DriversStored D W A { completeDriver d { s with draws := s.draws + 1 } with
      persistenceEngine := engine' } := by
    refine ⟨?_, fun e he e' he' => ?_, fun r hr e he => ?_⟩
    · convert hholds using 1
      ext r
      simp only [driverRecords, completeDriver, List.mem_filter, Set.mem_ofPred_eq, Set.mem_union]
      constructor
      · rintro (⟨e, ⟨he, hne⟩, rfl⟩ | hr)
        · refine ⟨Or.inl ⟨e, he, rfl⟩, fun hc => ?_⟩
          simp [h.id_injective e he d hd hc] at hne
        · exact ⟨Or.inr hr, (h.unread r hr d hd).symm⟩
      · rintro ⟨⟨e, he, rfl⟩ | hr, hne⟩
        · exact Or.inl ⟨e, ⟨he, by simpa using fun hc : e = d => hne (by rw [hc])⟩, rfl⟩
        · exact Or.inr hr
    · exact h.id_injective e (List.mem_filter.mp he).1 e' (List.mem_filter.mp he').1
    · exact h.unread r hr e (List.mem_filter.mp he).1
  have h2 : DriversStored D W A (finishDriver d change
      { completeDriver d { s with draws := s.draws + 1 } with persistenceEngine := engine' }) := by
    refine h1.keep ⟨?_, finishDriver_drivers _ _ _, (OnlyRemoves.finishDriver d change _).record⟩
    rw [finishDriver_eq]
  exact wp_mono (StoreKept.schedule_wp env _) (fun _ s' k => h2.keep k) fun _ hf => hf

lemma removeWorker (h : DriversStored D W A s) {w : WorkerRef}
    (hw : (s.worker w).toWorkerRecord ∈ W) :
    wp (removeWorker env w) (fun _ => DriversStored D {r ∈ W | r.id ≠ (s.worker w).id} A)
      (fun _ => False) s := by
  simp only [Master.removeWorker, wp_bind, wp_modify, wp_get, draw_wp]
  have hrecord : ((forgetWorker w s).worker w).toWorkerRecord = (s.worker w).toWorkerRecord :=
    forgetWorker_record w s w
  have hloop := wp_forEach
    (I := fun _ s' => DriversStored D W A s') (E := fun _ => False)
    (Q := fun _ => DriversStored D W A)
    (f := fun driver => do
      let s ← get
      let d := s.driver driver
      Master.removeDriver env
        { driverId := d.id, state := .error, appId := d.appId, exception := none,
          time := d.updateTime })
    (fun d ds s' hI => hI.removeDriver env _) fun _ hI => hI
  refine wp_mono (hloop _ _ (h.keep (.of_eq rfl rfl rfl))) (fun _ s1 h1 => ?_) fun _ hf => hf
  obtain ⟨engine', hengine, hholds⟩ := h1.holds.removeWorker hw
  simp only [persisting, wp_bind, wp_get, hrecord, hengine, wp_modify]
  exact ⟨hholds, h1.id_injective, h1.unread⟩

lemma removeApplication (h : DriversStored D W A s) {a : AppRef} (ha : (s.app a).toAppRecord ∈ A) :
    wp (removeApplication a) (fun _ => DriversStored D W {r ∈ A | r.id ≠ (s.app a).id})
      (fun _ => False) s := by
  obtain ⟨engine', hengine, hholds⟩ := h.holds.removeApplication ha
  simp only [Master.removeApplication, persisting, wp_bind, wp_get, wp_modify, hengine]
  exact ⟨hholds, h.id_injective, h.unread⟩

end DriversStored

/-! ### The members -/

def workerRecords (s : MasterState) : Set WorkerRecord :=
  {r | ∃ w, s.IsMember w ∧ (s.worker w).toWorkerRecord = r}

def appRecords (s : MasterState) : Set AppRecord :=
  {r | ∃ a ∈ s.apps, (s.app a).toAppRecord = r}

/-- The store has what the master has and, while it recovers, the records it has not read yet. -/
structure Mirror (D : Set DriverRecord) (W : Set WorkerRecord) (A : Set AppRecord)
    (s : MasterState) : Prop where
  stored : DriversStored D (workerRecords s ∪ W) (appRecords s ∪ A) s
  unread_workers : ∀ r ∈ W, ∀ w, s.IsMember w → (s.worker w).id ≠ r.id
  unread_apps : ∀ r ∈ A, ∀ a ∈ s.apps, (s.app a).id ≠ r.id

namespace Mirror

variable {D : Set DriverRecord} {W : Set WorkerRecord} {A : Set AppRecord} {s s' : MasterState}
  (env : Env)

lemma workerRecords_congr (hm : ∀ w, s'.IsMember w ↔ s.IsMember w)
    (hr : ∀ w, s.IsMember w → (s'.worker w).toWorkerRecord = (s.worker w).toWorkerRecord) :
    workerRecords s' = workerRecords s := by
  ext r
  constructor
  · rintro ⟨w, hw, rfl⟩
    exact ⟨w, (hm w).mp hw, (hr w ((hm w).mp hw)).symm⟩
  · rintro ⟨w, hw, rfl⟩
    exact ⟨w, (hm w).mpr hw, hr w hw⟩

/-- Changes that leave the members, their records and the drivers alone. -/
lemma keep (h : Mirror D W A s) (k : StoreKept s s') (hm : ∀ w, s'.IsMember w ↔ s.IsMember w)
    (hr : ∀ w, s.IsMember w → (s'.worker w).toWorkerRecord = (s.worker w).toWorkerRecord)
    (happs : s'.apps = s.apps)
    (happ : ∀ a ∈ s.apps, (s'.app a).toAppRecord = (s.app a).toAppRecord) :
    Mirror D W A s' := by
  have happRecords : appRecords s' = appRecords s := by
    ext r
    simp only [appRecords, happs]
    constructor
    · rintro ⟨a, ha, rfl⟩
      exact ⟨a, ha, (happ a ha).symm⟩
    · rintro ⟨a, ha, rfl⟩
      exact ⟨a, ha, happ a ha⟩
  refine ⟨?_, fun r hW w hw => ?_, fun r hA a ha => ?_⟩
  · rw [workerRecords_congr hm hr, happRecords]
    exact h.stored.keep k
  · rw [hr w ((hm w).mp hw)]
    exact h.unread_workers r hW w ((hm w).mp hw)
  · rw [happs] at ha
    rw [happ a ha]
    exact h.unread_apps r hA a ha

lemma keep_members (h : Mirror D W A s) (k : StoreKept s s') (k' : MembersKept s s') :
    Mirror D W A s' :=
  h.keep k k'.isMember (fun w _ => k'.record w) k'.apps fun a _ => by rw [k'.app]

/-- An order is drawn. -/
lemma draw (h : Mirror D W A s) : Mirror D W A { s with draws := s.draws + 1 } :=
  h.keep_members (.of_eq rfl rfl rfl) (.of_eq rfl rfl)

lemma schedule (h : Mirror D W A s) :
    wp (schedule env) (fun _ => Mirror D W A) (fun _ => False) s :=
  wp_mono (wp_and (StoreKept.schedule_wp env s) ((schedule_keeps env).wp s))
    (fun _ _ k => h.keep_members k.1 k.2) fun _ hf => hf.1

lemma removeWorker (h : Mirror D W A s) (hM : Membership s) {w : WorkerRef} (hw : s.IsMember w) :
    wp (removeWorker env w) (fun _ s' => Mirror D W A s' ∧ MembersKept (forgetWorker w s) s')
      (fun _ => False) s := by
  have hmem : (s.worker w).toWorkerRecord ∈ workerRecords s ∪ W := Or.inl ⟨w, hw, rfl⟩
  refine wp_mono (wp_and (h.stored.removeWorker env hmem) (removeWorker_wp env))
    (fun _ s' hs => ⟨?_, hs.2⟩) fun _ hf => hf.1
  obtain ⟨h', k⟩ := hs
  have hm : ∀ v, s'.IsMember v ↔ s.IsMember v ∧ v ≠ w := fun v => by
    rw [k.isMember, isMember_forgetWorker]
  have hr : ∀ v, (s'.worker v).toWorkerRecord = (s.worker v).toWorkerRecord := fun v => by
    rw [k.record, forgetWorker_record]
  have happs : appRecords s' = appRecords s := by
    simp only [appRecords, k.apps, k.app]
    rfl
  refine ⟨?_, fun r hW v hv => ?_, fun r hA a ha => ?_⟩
  · rw [happs]
    convert h' using 1
    ext r
    constructor
    · rintro (⟨v, hv, rfl⟩ | hr')
      · refine ⟨Or.inl ⟨v, ((hm v).mp hv).1, (hr v).symm⟩, fun hc => ((hm v).mp hv).2 ?_⟩
        rw [hr v] at hc
        exact hM.idToWorker.key_injective ((hm v).mp hv).1 hw hc
      · exact ⟨Or.inr hr', (h.unread_workers r hr' w hw).symm⟩
    · rintro ⟨⟨v, hv, rfl⟩ | hr', hne⟩
      · refine Or.inl ⟨v, (hm v).mpr ⟨hv, ?_⟩, hr v⟩
        rintro rfl
        exact hne rfl
      · exact Or.inr hr'
  · rw [hr]
    exact h.unread_workers r hW v ((hm v).mp hv).1
  · rw [k.apps] at ha
    rw [k.app]
    exact h.unread_apps r hA a ha

lemma removeApplication (h : Mirror D W A s) (hM : Membership s) {a : AppRef} (ha : a ∈ s.apps) :
    wp (removeApplication a) (fun _ s' => Mirror D W A s' ∧ DriversKept s s' ∧
      s'.apps = s.apps.filter (· ≠ a)) (fun _ => False) s := by
  have hmem : (s.app a).toAppRecord ∈ appRecords s ∪ A := Or.inl ⟨a, ha, rfl⟩
  refine wp_mono (wp_and (h.stored.removeApplication hmem)
    (wp_and ((removeApplication_drivers a).wp s) (removeApplication_apps a)))
    (fun _ s' hs => ⟨?_, hs.2.1, hs.2.2.1⟩) fun _ hf => hf.1
  obtain ⟨h', k, happs, happ⟩ := hs
  have hm : ∀ v, s'.IsMember v ↔ s.IsMember v := fun v => by
    simp only [IsMember, k.workers, k.workerState]
  have hworkers := workerRecords_congr hm fun v _ => k.record v
  refine ⟨?_, fun r hW v hv => ?_, fun r hA b hb => ?_⟩
  · rw [hworkers]
    convert h' using 1
    ext r
    simp only [appRecords, happs, happ, List.mem_filter]
    constructor
    · rintro (⟨b, ⟨hb, hne⟩, rfl⟩ | hr')
      · refine ⟨Or.inl ⟨b, hb, rfl⟩, fun hc => ?_⟩
        simp [hM.idToApp.key_injective hb ha hc] at hne
      · exact ⟨Or.inr hr', (h.unread_apps r hr' a ha).symm⟩
    · rintro ⟨⟨b, hb, rfl⟩ | hr', hne⟩
      · exact Or.inl ⟨b, ⟨hb, by simpa using fun hc : b = a => hne (by rw [hc])⟩, rfl⟩
      · exact Or.inr hr'
  · rw [k.record]
    exact h.unread_workers r hW v ((hm v).mp hv)
  · rw [happs, List.mem_filter] at hb
    rw [happ]
    exact h.unread_apps r hA b hb.1

/-! ### Registration -/

/-- A worker enters whose record is in the store. -/
lemma enterWorker {w : WorkerRef} (hlive : (s.worker w).state ≠ .dead)
    (h : Mirror D (insert (s.worker w).toWorkerRecord W) A s)
    (hW : ∀ r ∈ W, r.id ≠ (s.worker w).id) : Mirror D W A (enterWorker w s) := by
  have hm := isMember_enterWorker s hlive
  have hrecords : workerRecords (Master.enterWorker w s) ∪ W =
      workerRecords s ∪ insert (s.worker w).toWorkerRecord W := by
    ext r
    constructor
    · rintro (⟨v, hv, rfl⟩ | hr)
      · rcases (hm v).mp hv with hv | rfl
        · exact Or.inl ⟨v, hv, rfl⟩
        · exact Or.inr (Or.inl rfl)
      · exact Or.inr (Or.inr hr)
    · rintro (⟨v, hv, rfl⟩ | rfl | hr)
      · exact Or.inl ⟨v, (hm v).mpr (Or.inl hv), rfl⟩
      · exact Or.inl ⟨w, (hm w).mpr (Or.inr rfl), rfl⟩
      · exact Or.inr hr
  refine ⟨?_, fun r hr v hv => ?_, h.unread_apps⟩
  · rw [hrecords]
    exact h.stored.keep (.of_eq rfl rfl rfl)
  · rcases (hm v).mp hv with hv | rfl
    · exact h.unread_workers r (Or.inr hr) v hv
    · exact (hW r hr).symm

lemma dropDeadWorkers (h : Mirror D W A s) (w : WorkerRef) :
    Mirror D W A (dropDeadWorkers w s) := by
  refine h.keep (.of_eq rfl rfl rfl) (fun v => ?_) (fun _ _ => rfl) rfl fun _ _ => rfl
  simp only [IsMember, Master.dropDeadWorkers, List.mem_filter, decide_eq_true_eq]
  constructor
  · exact fun hv => ⟨hv.1.1, hv.2⟩
  · exact fun hv => ⟨⟨hv.1, fun hc => hv.2 hc.2.2⟩, hv.2⟩

/-- What `registerWorker` does before the new worker enters: dead workers leave and an `UNKNOWN`
one at the same address is removed. -/
structure MadeRoom (D : Set DriverRecord) (W : Set WorkerRecord) (A : Set AppRecord)
    (w : WorkerRef) (s s' : MasterState) : Prop where
  mirror : Mirror D W A s'
  state : s'.state = s.state
  isMember : ∀ v, s'.IsMember v → s.IsMember v
  workerState : ∀ v, s'.IsMember v ∨ v = w → (s'.worker v).state = (s.worker v).state
  record : ∀ v, (s'.worker v).toWorkerRecord = (s.worker v).toWorkerRecord

lemma registerWorker (h : Mirror D W A s) (hM : Membership s) {w : WorkerRef} (hw : w ∉ s.workers) :
    wp (registerWorker env w)
      (fun registered s' => ∃ s₁, MadeRoom D W A w s s₁ ∧
        if registered then s' = Master.enterWorker w s₁
        else s' = s₁ ∧ ∃ old, s.addressToWorker (s.worker w).address = some old ∧
          (s.worker old).state ≠ .unknown)
      (fun _ => False) s := by
  have hroom : MadeRoom D W A w s (Master.dropDeadWorkers w s) :=
    ⟨h.dropDeadWorkers w, rfl, fun v hv => ⟨(List.mem_filter.mp hv.1).1, hv.2⟩, fun _ _ => rfl,
      fun _ => rfl⟩
  have hM' := hM.dropDeadWorkers w
  simp only [Master.registerWorker, wp_bind, wp_modify, wp_get]
  split
  · rename_i old hold
    rw [wp_ite]
    split
    · have hmember := ((hM'.addressToWorker _ _).mp hold).1
      have hne : w ≠ old := fun hc => hw (hc ▸ (List.mem_filter.mp hmember.1).1)
      rw [wp_bind]
      refine wp_mono (hroom.mirror.removeWorker env hM' hmember) ?_ fun _ hf => hf
      rintro _ s₁ ⟨h₁, k⟩
      refine ⟨s₁, ⟨h₁, k.state, fun v hv => ?_, fun v hv => ?_, fun v => ?_⟩, rfl⟩
      · rw [k.isMember, isMember_forgetWorker] at hv
        exact hroom.isMember v hv.1
      · have hv : v ≠ old := by
          rcases hv with hv | rfl
          · rw [k.isMember, isMember_forgetWorker] at hv
            exact hv.2
          · exact hne
        rw [k.workerState]
        simp [forgetWorker, hv, Master.dropDeadWorkers]
      · rw [k.record, forgetWorker_record]
        rfl
    · rename_i hstate
      exact ⟨_, hroom, rfl, old, hold, hstate⟩
  · exact ⟨_, hroom, rfl⟩

end Mirror

end Moonbox.Deploy
