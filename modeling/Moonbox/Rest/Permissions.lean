import Moonbox.Rest.Authorization

/-!
# When a request is authorized

For each route, the condition on what the request names and on what the platform has under which
a session that is not root's does nothing that it may not do. Most routes have one, and it is the
routes that fail to ask that have the strong ones.
-/

namespace Moonbox.Rest

open Actor Handler Deploy Catalog Relational Master MasterState

variable [Names]

/-! ### The condition -/

/-- What must hold before the request for it to be authorized. -/
@[simp] def Permitted (env : RestEnv) (user : User) (g : Grid) : Request → Prop
  | .createCluster _ => False
  | .updateCluster cluster =>
    ∀ e, g.cluster cluster.name = some e → e.altered cluster user env.now = e
  | .deleteCluster cluster =>
    ∀ e, g.cluster cluster = some e → ∃ app ∈ g.applications.rows, app.clusterId = some e.id
  | .applicationInfos =>
    g.master.state = .active → ∀ d ∈ g.master.drivers ∪ g.master.completedDrivers,
      (g.master.driver d).id.startsWith user.org = true →
        ¬ Foreign user.orgId g (g.master.driver d).id
  | .createApplication app =>
    g.application app.appName = none →
      (∀ cluster, app.cluster = some cluster → g.cluster cluster ≠ none) →
        ∀ o, Store.organization g.catalog app.org = some o → o.id = user.orgId
  | .deleteApplication appName =>
    ∀ app, g.namedApplication appName = some app →
      notStarted (statusAnswer (fullName app.org app.name) env.deploy g.master) = true →
        app.organizationId = user.orgId
  | .getApplication appName =>
    ∀ app, g.namedApplication appName = some app → app.organizationId = user.orgId
  | .startApplication appName =>
    ∀ app, g.namedApplication appName = some app →
      notStarted (statusAnswer (fullName app.org app.name) env.deploy g.master) = true →
        (∀ cluster, app.cluster = some cluster → g.cluster cluster ≠ none) →
          env.createDriverDesc app.appType ≠ none → g.master.state = .active →
            ¬ Foreign user.orgId g (fullName app.org app.name)
  | .stopApplication appName =>
    ∀ app, g.namedApplication appName = some app → g.master.state = .active →
      (∃ d, Live (fullName app.org app.name) g.master d) →
        ¬ Foreign user.orgId g (fullName app.org app.name)
  | .createOrganization org => (Store.organization g.catalog org.name).isSome = true
  | .updateOrganization org =>
    ∀ o, Store.organization g.catalog org.name = some o →
      o.altered { name := org.name, config := org.config, description := org.description } user
        env.now = o
  | .deleteOrganization org => Store.organization g.catalog org = none
  | .deleteOrganizations batchOp =>
    KeepsOrganizations g.catalog (batchOp.cascade.getD false) batchOp.names
  | .getOrganization org =>
    ∀ o, Store.organization g.catalog org = some o → o.id = user.orgId
  | .listOrganizations => ∀ o ∈ OrganizationService.listed g, o.id = user.orgId
  | .createSa sa =>
    sa.password.isSome = true → ∀ o, Store.organization g.catalog sa.org = some o →
      o.id = user.orgId ∨ (Store.user g.catalog o.id sa.name).isSome = true
  | .updateName rename =>
    ∀ o, Store.organization g.catalog rename.org = some o →
      ∀ u, Store.user g.catalog o.id rename.user = some u →
        Store.user g.catalog o.id rename.newUser = none →
          ∀ v ∈ (g.catalog .users).rows, sameName v.name rename.user = true →
            ¬ Protected user.orgId v
  | .updatePassword orgSa =>
    ∀ password, orgSa.password = some password →
      ∀ o, Store.organization g.catalog orgSa.org = some o →
        ∀ u, Store.user g.catalog o.id orgSa.name = some u → ¬ Protected user.orgId u ∨
          u.altered { org := orgSa.org, name := orgSa.name,
                      password := env.core.encryptSHA password } user env.now = u
  | .deleteSas sas => DropsOwn user.orgId g.catalog sas
  | .getSa orgName saName =>
    ∀ o, Store.organization g.catalog orgName = some o →
      ∀ u, Store.user g.catalog o.id saName = some u →
        (Core.creatorName g.catalog u.createBy).isSome = true → o.id = user.orgId
  | .listSas =>
    (∀ u ∈ (g.catalog .users).rows, u.isSA = true → OrganizationSaService.named g u = true) →
      ∀ u ∈ (g.catalog .users).rows, u.isSA = true → u.name ≠ "ROOT" →
        u.organizationId = user.orgId
  | .listRolePrivileges =>
    ∀ o, Store.organization g.catalog user.org = some o →
      ∀ row ∈ Store.listUsers g.catalog o.id, row.1.organizationId = user.orgId
  | .listDatabasePrivileges =>
    ∀ u ∈ PrivilegeService.grantees g user,
      ∀ p ∈ (g.catalog .databasePrivileges).rows, p.userId = u.id →
        ∀ d ∈ PrivilegeService.databasesOf g p.databaseId, d.organizationId = user.orgId
  | .listTablePrivileges =>
    ∀ u ∈ PrivilegeService.grantees g user,
      ∀ p ∈ (g.catalog .tablePrivileges).rows, p.userId = u.id →
        ∀ td ∈ PrivilegeService.tablesOf g p.tableId, td.2.organizationId = user.orgId
  | .listColumnPrivileges =>
    ∀ u ∈ PrivilegeService.grantees g user,
      ∀ p ∈ (g.catalog .columnPrivileges).rows, p.userId = u.id →
        ∀ td ∈ PrivilegeService.tablesOf g p.tableId, td.2.organizationId = user.orgId
  | .listResourceStats =>
    (∀ t ∈ OrganizationService.listed g, env.like t.name user.org = true →
      StatsService.summarized env t = true) →
    (∀ app ∈ g.joined (g.applications.rows.filter fun app =>
        app.organizationId == user.orgId && env.like app.name user.org),
      StatsService.running env app = true →
        (env.getAppResourceStat app.toApplicationEntity).toBool = true) →
    ∀ t ∈ OrganizationService.listed g, env.like t.name user.org = true → t.id = user.orgId
  | _ => True

/-! ### Rules for the services -/

/-- The platform after `m` was sent to the master. -/
def Grid.told (env : RestEnv) (m : Message) (g : Grid) : Grid :=
  { g with master := Master.step env.deploy m g.master, asked := g.asked ++ [m] }

section Rules

variable {α : Type} {env : RestEnv} {user : User} {own : Nat} {g : Grid}
  {Q : α → Grid → Prop} {E : Grid → Prop}

omit [Names] in
lemma wp_orThrow (e : String) (o : Option α) :
    wp (orThrow e o : Service α) Q E g ↔ (∀ a, o = some a → Q a g) ∧ (o = none → E g) := by
  cases o with
  | none => simp [orThrow]
  | some a => simp [orThrow]

omit [Names] in
lemma wp_onCatalog (m : DBIO α) :
    wp (onCatalog m) Q E g ↔ m.wp (fun a s => Q a { g with catalog := s })
      (fun s => E { g with catalog := s }) g.catalog := by
  simp only [wp, onCatalog, Action.wp]
  cases h : m.run g.catalog with
  | mk r s => cases r <;> rfl

omit [Names] in
lemma wp_tell (m : Message) {Q : Unit → Grid → Prop} :
    wp (tell env m) Q E g ↔ Q () (g.told env m) :=
  Iff.rfl

omit [Names] in
/-- The master always answers. -/
lemma wp_askStatus (driverId : String) {Q : DriverStatusResponse → Grid → Prop} :
    wp (askStatus env driverId) Q E g ↔
      Q (statusAnswer driverId env.deploy g.master)
        (g.told env (.requestDriverStatus driverId)) := by
  simp only [askStatus, wp_bind, wp_get, wp_tell, wp_orThrow, Grid.told,
    statusSent_requestDriverStatus]
  simp

omit [Names] in
lemma wp_forEach_onCatalog {β : Type} (f : β → DBIO Unit) (bs : List β)
    {Q : Unit → Grid → Prop} :
    wp (forEach (fun b => onCatalog (f b)) bs) Q E g ↔
      (Action.forEach f bs).wp (fun _ s => Q () { g with catalog := s })
        (fun s => E { g with catalog := s }) g.catalog := by
  induction bs generalizing g with
  | nil => rfl
  | cons b bs ih =>
    simp only [forEach, Action.forEach, wp_bind, Action.wp_bind, wp_onCatalog, ih]

omit [Names] in
lemma Spares.refl (g : Grid) : Spares own g g where
  catalog := .refl _
  clusters := rfl
  applications _ _ := rfl
  started _ _ _ _ := by simp
  stopped _ _ _ _ := by simp

omit [Names] in
lemma spares_catalog {s' : Store} :
    Spares own g { g with catalog := s' } ↔ CatalogSpares own g.catalog s' := by
  constructor
  · exact fun h => h.catalog
  · intro h
    exact { Spares.refl g with catalog := h }

end Rules

/-! ### Reads -/

section Reads

variable {env : RestEnv} {user : User} {g : Grid}

lemma authorized_getOrganization (org : String) :
    Authorized env user g (.getOrganization org) ↔ Permitted env user g (.getOrganization org) := by
  simp [Authorized, handle, OrganizationService.getOrganization, wp_orThrow, Spares.refl,
    Answer.Shows, Permitted]

lemma authorized_listOrganizations :
    Authorized env user g .listOrganizations ↔ Permitted env user g .listOrganizations := by
  simp [Authorized, handle, OrganizationService.listOrganizations, Spares.refl, Answer.Shows,
    Permitted]

lemma authorized_getSa (orgName saName : String) :
    Authorized env user g (.getSa orgName saName) ↔
      Permitted env user g (.getSa orgName saName) := by
  simp only [Authorized, handle, OrganizationSaService.getSa, wp_bind, wp_get, wp_orThrow,
    wp_pure, Permitted, Answer.Shows, Spares.refl, List.mem_singleton, exists_eq_left, not_not,
    true_and, implies_true, and_true, Option.isSome_iff_exists, forall_exists_index]
  refine forall₂_congr fun o ho => forall₂_congr fun u hu => ?_
  rw [(Store.user_some hu).2.1]

lemma authorized_listSas :
    Authorized env user g .listSas ↔ Permitted env user g .listSas := by
  simp only [Authorized, handle, OrganizationSaService.listSas, wp_bind, wp_get, wp_ite, wp_pure,
    wp_throw, Permitted, Answer.Shows, Spares.refl, true_and]
  simp only [List.all_eq_true, List.mem_filter, and_imp]
  split
  · rename_i hnamed
    rw [imp_iff_right hnamed]
    simp
  · rename_i hnamed
    exact iff_of_true trivial fun h => absurd h hnamed

lemma authorized_listRolePrivileges :
    Authorized env user g .listRolePrivileges ↔ Permitted env user g .listRolePrivileges := by
  simp only [Authorized, handle, PrivilegeService.listRolePrivileges, wp_bind, wp_get, wp_orThrow,
    wp_pure, Permitted, Answer.Shows, Spares.refl, true_and, implies_true, and_true]
  simp

omit [Names] in
lemma mem_grantees {u : UserEntity} (hu : u ∈ PrivilegeService.grantees g user) :
    u.organizationId = user.orgId := by
  simp only [PrivilegeService.grantees, List.mem_filter, Bool.and_eq_true, beq_iff_eq] at hu
  exact hu.2.1

omit [Names] in
/-- The users in the list are of the own organization, so what matters is what is granted on. -/
lemma shows_granted_iff {P D : Type} {rows : List P} {on : P → List D} (userId : P → Nat)
    (organizationId : D → Nat) :
    (¬∃ r, (r ∈ (PrivilegeService.grantees g user).flatMap fun u =>
        (rows.filter fun p => u.id == userId p).flatMap fun p => (on p).map fun d => (u, p, d)) ∧
      (r.1.organizationId ≠ user.orgId ∨ organizationId r.2.2 ≠ user.orgId)) ↔
    ∀ u ∈ PrivilegeService.grantees g user, ∀ p ∈ rows, userId p = u.id →
      ∀ d ∈ on p, organizationId d = user.orgId := by
  simp only [List.mem_flatMap, List.mem_map, List.mem_filter, beq_iff_eq]
  constructor
  · intro h u hu p hp hid d hd
    by_contra hd'
    exact h ⟨_, ⟨u, hu, p, ⟨hp, hid.symm⟩, d, hd, rfl⟩, .inr hd'⟩
  · rintro h ⟨_, ⟨u, hu, p, ⟨hp, hid⟩, d, hd, rfl⟩, hu' | hd'⟩
    · exact hu' (mem_grantees hu)
    · exact hd' (h u hu p hp hid.symm d hd)

lemma authorized_listDatabasePrivileges :
    Authorized env user g .listDatabasePrivileges ↔
      Permitted env user g .listDatabasePrivileges := by
  simp only [Authorized, handle, PrivilegeService.listDatabasePrivileges, wp_bind, wp_get, wp_pure,
    Permitted, Answer.Shows, Spares.refl, true_and]
  exact shows_granted_iff DatabasePrivilegeEntity.userId DatabaseEntity.organizationId

lemma authorized_listTablePrivileges :
    Authorized env user g .listTablePrivileges ↔ Permitted env user g .listTablePrivileges := by
  simp only [Authorized, handle, PrivilegeService.listTablePrivileges, wp_bind, wp_get, wp_pure,
    Permitted, Answer.Shows, Spares.refl, true_and]
  exact shows_granted_iff TablePrivilegeEntity.userId
    fun td : TableEntity × DatabaseEntity => td.2.organizationId

lemma authorized_listColumnPrivileges :
    Authorized env user g .listColumnPrivileges ↔
      Permitted env user g .listColumnPrivileges := by
  simp only [Authorized, handle, PrivilegeService.listColumnPrivileges, wp_bind, wp_get, wp_pure,
    Permitted, Answer.Shows, Spares.refl, true_and]
  exact shows_granted_iff ColumnPrivilegeEntity.userId
    fun td : TableEntity × DatabaseEntity => td.2.organizationId

lemma authorized_getApplication (appName : String) :
    Authorized env user g (.getApplication appName) ↔
      Permitted env user g (.getApplication appName) := by
  simp [Authorized, handle, ApplicationService.getApplication, getApplication, wp_orThrow,
    Spares.refl, Answer.Shows, Permitted]

lemma authorized_getQuery (queryName : String) :
    Authorized env user g (.getQuery queryName) := by
  simp only [Authorized, handle, WorkbenchService.getQuery, wp_bind, wp_get, wp_orThrow, wp_pure,
    Answer.Shows, Spares.refl, List.mem_singleton, exists_eq_left, not_not, true_and,
    implies_true, and_true]
  exact fun q hq _ _ => (Store.query_some hq).2.1

lemma authorized_listQueries : Authorized env user g .listQueries := by
  simp only [Authorized, handle, WorkbenchService.listQueries, wp_bind, wp_get, wp_ite, wp_pure,
    wp_throw, Answer.Shows, Spares.refl, true_and]
  split
  · simp
  · trivial

omit [Names] in
lemma mem_joined {apps : List ApplicationEntity} {app : CatalogApplication}
    (happ : app ∈ g.joined apps) : app.toApplicationEntity ∈ apps := by
  simp only [Grid.joined, List.mem_filterMap, Option.map_eq_some_iff] at happ
  obtain ⟨a, ha, -, -, rfl⟩ := happ
  exact ha

lemma authorized_listApplications (hroot : isRoot env user = false) :
    Authorized env user g .listApplications := by
  simp only [Authorized, handle, ApplicationService.listApplications, wp_bind, wp_get, hroot,
    Bool.false_eq_true, if_false, wp_pure, Answer.Shows, Spares.refl, true_and]
  rintro ⟨app, happ, hne⟩
  have hmem := mem_joined happ
  simp only [List.mem_filter, beq_iff_eq] at hmem
  exact hne hmem.2

end Reads

/-! ### Questions to the master -/

section Master

variable {env : RestEnv} {user : User} {g : Grid}

/-- The statuses that the master sends, or why it sends none. -/
def allStatusAnswer (pattern : Option String) (env : Deploy.Env) (s : MasterState) :
    List DriverStatusResponse × Option String :=
  if s.state ≠ .active then ([], some (notActiveStatus s))
  else
    let allDrivers := match pattern with
      | some p => ((env.random s.draws).apply (s.drivers ∪ s.completedDrivers)).filter
          fun d => (s.driver d).id.startsWith p
      | none => (env.random s.draws).apply (s.drivers ∪ s.completedDrivers)
    (allDrivers.map fun d => driverStatus s (s.driver d).id d, none)

omit [Names] in
lemma allStatusSent_requestAllDriverStatus (pattern : Option String) (env : Deploy.Env)
    (s : MasterState) :
    allStatusSent s (Master.step env (.requestAllDriverStatus pattern) s) =
      some (allStatusAnswer pattern env s) := by
  refine step_of_wp env
    (P := fun s' => allStatusSent s s' = some (allStatusAnswer pattern env s)) ?_
  simp only [handleMessage, handleRequestAllDriverStatus, wp_bind, wp_get, wp_ite, wp_modify,
    draw_wp]
  split
  · rename_i hs
    simp [allStatusSent, MasterState.send, allStatusAnswer, hs]
  · rename_i hs
    cases pattern <;> simp [allStatusSent, MasterState.send, allStatusAnswer, hs]

omit [Names] in
/-- Besides the catalog, only the requests sent to the master matter. -/
lemma spares_asked (g g' : Grid) (ms : List Message) (hcatalog : g'.catalog = g.catalog)
    (happs : g'.applications = g.applications) (hclusters : g'.clusters = g.clusters)
    (hasked : g'.asked = g.asked ++ ms) :
    Spares user.orgId g g' ↔
      (∀ id desc, Message.requestSubmitDriver id desc ∈ ms → g.master.state = .active →
        ¬ Foreign user.orgId g id) ∧
      ∀ id, Message.requestKillDriver id ∈ ms → g.master.state = .active →
        (∃ d, Live id g.master d) → ¬ Foreign user.orgId g id := by
  constructor
  · intro h
    refine ⟨fun id desc hm hactive hf => ?_, fun id hm hactive hlive hf => ?_⟩
    · exact h.started id desc hf hactive (by simpa [hasked] using hm)
    · exact h.stopped id hf hactive hlive (by simpa [hasked] using hm)
  · rintro ⟨hstart, hstop⟩
    refine ⟨hcatalog ▸ .refl _, by rw [hclusters], fun _ _ => by rw [happs],
      fun id desc hf hactive hm => ?_, fun id hf hactive hlive hm => ?_⟩
    · exact hstart id desc (by simpa [hasked] using hm) hactive hf
    · exact hstop id (by simpa [hasked] using hm) hactive hlive hf

omit [Names] in
lemma wp_askAllStatus (pattern : Option String)
    {Q : List DriverStatusResponse × Option String → Grid → Prop} {E : Grid → Prop} :
    wp (askAllStatus env pattern) Q E g ↔
      Q (allStatusAnswer pattern env.deploy g.master)
        (g.told env (.requestAllDriverStatus pattern)) := by
  simp only [askAllStatus, wp_bind, wp_get, wp_tell, wp_orThrow, Grid.told,
    allStatusSent_requestAllDriverStatus]
  simp

omit [Names] in
/-- A question changes nothing. -/
lemma spares_question {m : Message} (h : (∀ id desc, m ≠ .requestSubmitDriver id desc) ∧
    ∀ id, m ≠ .requestKillDriver id) :
    Spares user.orgId g (g.told env m) := by
  rw [spares_asked g (g.told env m) [m] rfl rfl rfl rfl]
  refine ⟨fun id desc hm => ?_, fun id hm => ?_⟩
  · exact absurd (List.mem_singleton.mp hm).symm (h.1 id desc)
  · exact absurd (List.mem_singleton.mp hm).symm (h.2 id)

lemma authorized_applicationInfos (hroot : isRoot env user = false) :
    Authorized env user g .applicationInfos ↔ Permitted env user g .applicationInfos := by
  have hspares : Spares user.orgId g (g.told env (.requestAllDriverStatus (some user.org))) :=
    spares_question ⟨fun _ _ => by simp, fun _ => by simp⟩
  simp only [Authorized, handle, ApplicationService.getApplicationInfos, wp_bind, hroot,
    Bool.false_eq_true, if_false, wp_askAllStatus, Permitted]
  by_cases hactive : g.master.state = .active
  · simp only [allStatusAnswer, ne_eq, hactive, not_true_eq_false, if_false, wp_pure, hspares,
      true_and, forall_true_left, Answer.Shows, List.mem_map, List.mem_filter, Shuffle.mem_apply]
    constructor
    · intro h d hd hstarts hf
      exact h ⟨_, ⟨d, ⟨hd, hstarts⟩, rfl⟩, hf⟩
    · rintro h ⟨_, ⟨d, ⟨hd, hstarts⟩, rfl⟩, hf⟩
      exact h d hd hstarts hf
  · simp [allStatusAnswer, hactive, hspares]

omit [Names] in
/-- The applications of others are the same once those of an id are deleted, exactly if the one
of that id is the own organization's. -/
lemma spares_dropApplication {g' : Grid} {app : ApplicationEntity}
    (happ : app ∈ g.applications.rows) (hspares : Spares user.orgId g g')
    (hsame : g'.applications = g.applications) :
    Spares user.orgId g
        { g' with applications := g'.applications.delete fun t => t.id == app.id } ↔
      app.organizationId = user.orgId := by
  constructor
  · intro h
    by_contra hne
    have hrows := h.applications _ hne
    have hmem : app ∈ g.applications.rows.filter
        fun t => t.organizationId == app.organizationId := by
      simp [happ]
    rw [← hrows, hsame] at hmem
    simp [Table.delete] at hmem
  · intro hown
    refine { hspares with applications := fun B hB => ?_ }
    rw [hsame]
    refine filter_delete fun r hr hid => ?_
    have heq : r = app := g.applications.eq_of_id hr happ (beq_iff_eq.mp hid)
    rw [heq, hown]
    exact beq_false_of_ne hB.symm

/-- What `getApplication` finds is the application of the name. -/
lemma namedApplication_some {appName : String} {app : CatalogApplication}
    (h : g.namedApplication appName = some app) :
    g.application appName = some app.toApplicationEntity := by
  simp only [Grid.namedApplication, Option.bind_eq_bind, Option.bind_eq_some_iff] at h
  obtain ⟨a, ha, org, -, h⟩ := h
  rw [ha]
  cases hcluster : a.clusterId with
  | none =>
    simp only [hcluster, Option.some.injEq] at h
    rw [← h]
  | some clusterId =>
    simp only [hcluster, Option.bind_eq_some_iff, Option.some.injEq] at h
    obtain ⟨-, -, rfl⟩ := h
    rfl

lemma wp_dropApplication (app : String) {Q : Unit → Grid → Prop} {E : Grid → Prop} :
    wp (dropApplication app) Q E g ↔
      (∀ e, g.application app = some e →
        Q () { g with applications := g.applications.delete fun t => t.id == e.id }) ∧
      (g.application app = none → E g) := by
  simp only [dropApplication, wp_bind, wp_get, wp_orThrow, wp_modify]

lemma authorized_deleteApplication (appName : String) :
    Authorized env user g (.deleteApplication appName) ↔
      Permitted env user g (.deleteApplication appName) := by
  simp only [Authorized, handle, ApplicationService.deleteApplication, getApplication, wp_bind,
    wp_get, wp_orThrow, wp_askStatus, Permitted, Spares.refl, implies_true, and_true]
  refine forall₂_congr fun app happ => ?_
  have hspares : Spares user.orgId g
      (g.told env (.requestDriverStatus (fullName app.org app.name))) :=
    spares_question ⟨fun _ _ => by simp, fun _ => by simp⟩
  split
  · rename_i hnot
    have hfound : (g.told env (.requestDriverStatus (fullName app.org app.name))).application
        appName = some app.toApplicationEntity := namedApplication_some happ
    have hmem : app.toApplicationEntity ∈ g.applications.rows :=
      List.mem_of_find?_eq_some (namedApplication_some happ)
    have hdrop := spares_dropApplication hmem hspares rfl
    simp only [wp_bind, wp_dropApplication, wp_pure, hfound, hnot, forall_true_left,
      Option.some.injEq, forall_eq', Answer.Shows, not_false_eq_true, and_true, reduceCtorEq,
      false_implies]
    exact hdrop
  · rename_i hstarted
    simp [hspares, hstarted]

omit [Names] in
/-- The two requests that a start consists of. -/
lemma spares_start {id : String} {desc : DriverDesc} :
    Spares user.orgId g
        ((g.told env (.requestDriverStatus id)).told env (.requestSubmitDriver id desc)) ↔
      (g.master.state = .active → ¬ Foreign user.orgId g id) := by
  have hasked : Spares user.orgId g _ ↔ _ := spares_asked g
    ((g.told env (.requestDriverStatus id)).told env (.requestSubmitDriver id desc))
    [.requestDriverStatus id, .requestSubmitDriver id desc] rfl rfl rfl (List.append_assoc _ _ _)
  rw [hasked]
  simp

lemma authorized_stopApplication (appName : String) :
    Authorized env user g (.stopApplication appName) ↔
      Permitted env user g (.stopApplication appName) := by
  simp only [Authorized, handle, ApplicationService.stopApplication, getApplication, wp_bind,
    wp_get, wp_orThrow, wp_tell, wp_pure, Permitted, Spares.refl, implies_true, and_true,
    Answer.Shows, not_false_eq_true]
  refine forall₂_congr fun app happ => ?_
  rw [spares_asked g (g.told env (.requestKillDriver (fullName app.org app.name)))
    [.requestKillDriver (fullName app.org app.name)] rfl rfl rfl rfl]
  simp

lemma authorized_startApplication (appName : String) :
    Authorized env user g (.startApplication appName) ↔
      Permitted env user g (.startApplication appName) := by
  simp only [Authorized, handle, ApplicationService.startApplication, getApplication, wp_bind,
    wp_get, wp_orThrow, wp_askStatus, Permitted, Spares.refl, implies_true, and_true]
  refine forall₂_congr fun app happ => ?_
  have hspares : Spares user.orgId g
      (g.told env (.requestDriverStatus (fullName app.org app.name))) :=
    spares_question ⟨fun _ _ => by simp, fun _ => by simp⟩
  split
  · rename_i hnot
    rw [imp_iff_right hnot]
    cases hdesc : env.createDriverDesc app.appType with
    | none =>
      refine iff_of_true ?_ fun _ h => absurd rfl h
      cases app.cluster <;> simp [wp_orThrow, hspares]
    | some desc =>
      cases hcluster : app.cluster with
      | none => simp [wp_orThrow, wp_tell, spares_start, Answer.Shows]
      | some cluster =>
        have hsame : (g.told env (.requestDriverStatus (fullName app.org app.name))).cluster
            cluster = g.cluster cluster := rfl
        cases hfound : g.cluster cluster with
        | none => simp [wp_orThrow, hsame, hfound, hspares]
        | some e => simp [wp_orThrow, hsame, hfound, wp_tell, spares_start, Answer.Shows]
  · rename_i hstarted
    simp [hspares, hstarted]

lemma authorized_listResourceStats
    (hroot : (user.org == "SYSTEM" && user.user == "ROOT") = false) :
    Authorized env user g .listResourceStats ↔ Permitted env user g .listResourceStats := by
  have hspares : Spares user.orgId g (g.told env (.requestAllDriverStatus (some user.org))) :=
    spares_question ⟨fun _ _ => by simp, fun _ => by simp⟩
  simp only [Authorized, handle, StatsService.listResourceStats, wp_bind, wp_get, hroot,
    Bool.false_or, Bool.false_eq_true, if_false, wp_tell, wp_ite, wp_pure, wp_throw, hspares,
    true_and, Permitted]
  have hown : ∀ app ∈ g.joined (g.applications.rows.filter fun app =>
      app.organizationId == user.orgId && env.like app.name user.org),
      app.organizationId = user.orgId := by
    intro app happ
    have hmem := mem_joined happ
    simp only [List.mem_filter, Bool.and_eq_true, beq_iff_eq] at hmem
    exact hmem.2.1
  simp only [Bool.and_eq_true, List.all_eq_true, List.mem_filter, and_imp]
  split
  · rename_i hreads
    rw [imp_iff_right hreads.2, imp_iff_right hreads.1]
    simp only [Answer.Shows, List.mem_map, List.mem_filter]
    constructor
    · intro h t ht hlike
      by_contra hne
      exact h (.inl ⟨t, ⟨ht, hlike⟩, hne⟩)
    · rintro h (⟨t, ⟨ht, hlike⟩, hne⟩ | ⟨_, ⟨app, ⟨happ, -⟩, rfl⟩, hne⟩)
      · exact hne (h t ht hlike)
      · exact hne (hown app happ)
  · rename_i hreads
    exact iff_of_true trivial fun h h' => absurd ⟨h', h⟩ hreads

end Master

/-! ### Changes -/

section Changes

variable {env : RestEnv} {user : User} {g : Grid}

lemma authorized_onCatalog {request : Request} {m : DBIO Unit}
    (h : handle env user request = (do onCatalog m; pure .done)) :
    Authorized env user g request ↔
      m.wp (fun _ => CatalogSpares user.orgId g.catalog) (CatalogSpares user.orgId g.catalog)
        g.catalog := by
  simp only [Authorized, h, wp_bind, wp_onCatalog, wp_pure, Answer.Shows, spares_catalog,
    not_false_eq_true, and_true]

lemma authorized_createOrganization (org : Organization) :
    Authorized env user g (.createOrganization org) ↔
      Permitted env user g (.createOrganization org) := by
  rw [authorized_onCatalog rfl, Action.wp_run]
  exact spares_createOrganization _

lemma authorized_updateOrganization (org : Organization) :
    Authorized env user g (.updateOrganization org) ↔
      Permitted env user g (.updateOrganization org) := by
  rw [authorized_onCatalog rfl, Action.wp_run]
  exact spares_alterOrganization _

lemma authorized_deleteOrganization (org : String) :
    Authorized env user g (.deleteOrganization org) ↔
      Permitted env user g (.deleteOrganization org) := by
  rw [authorized_onCatalog rfl]
  exact spares_dropOrganization org

lemma authorized_deleteOrganizations (batchOp : BatchOpSeq) :
    Authorized env user g (.deleteOrganizations batchOp) ↔
      Permitted env user g (.deleteOrganizations batchOp) := by
  simp only [Authorized, handle, OrganizationService.deleteOrganizations, wp_bind,
    wp_forEach_onCatalog, wp_pure, Answer.Shows, spares_catalog, not_false_eq_true, and_true]
  exact spares_dropOrganizations _ _

lemma authorized_updateName (rename : OrgSaRename) :
    Authorized env user g (.updateName rename) ↔ Permitted env user g (.updateName rename) := by
  rw [authorized_onCatalog rfl, Action.wp_run]
  exact spares_renameUser _ _ _

lemma authorized_deleteSas (sas : List OrgSa) :
    Authorized env user g (.deleteSas sas) ↔ Permitted env user g (.deleteSas sas) := by
  simp only [Authorized, handle, OrganizationSaService.deleteSas, wp_bind,
    wp_forEach_onCatalog, wp_pure, Answer.Shows, spares_catalog, not_false_eq_true, and_true]
  exact spares_dropUsers sas (.refl _)

lemma authorized_createSa (sa : OrgSa) :
    Authorized env user g (.createSa sa) ↔ Permitted env user g (.createSa sa) := by
  simp only [Authorized, handle, OrganizationSaService.createSa, OrganizationSaService.catalogUser,
    wp_bind, wp_orThrow, wp_onCatalog, wp_pure, Answer.Shows, spares_catalog, Spares.refl,
    not_false_eq_true, implies_true, and_true, Permitted]
  cases hpassword : sa.password with
  | none => simp
  | some password =>
    simp only [Option.some.injEq, forall_eq', Option.isSome_some, forall_true_left]
    rw [Action.wp_run]
    exact spares_createUser rfl

lemma authorized_updatePassword (orgSa : OrgSa) :
    Authorized env user g (.updatePassword orgSa) ↔
      Permitted env user g (.updatePassword orgSa) := by
  simp only [Authorized, handle, OrganizationSaService.updatePassword,
    OrganizationSaService.catalogUser, wp_bind, wp_orThrow, wp_onCatalog, wp_pure, Answer.Shows,
    spares_catalog, Spares.refl, not_false_eq_true, implies_true, and_true, Permitted]
  refine forall₂_congr fun password _ => ?_
  rw [Action.wp_run]
  exact spares_alterUser rfl

/-- The requests on the queries of the own organization. -/
lemma authorized_query {request : Request} (op : Operation)
    (h : handle env user request = (do onCatalog (op.action user env.now); pure .done))
    (horg : op.organization user g.catalog = some user.orgId) (hwrites : op.writes = [.queries])
    (hren : ∀ B, ¬ op.RenamesIn B g.catalog) : Authorized env user g request := by
  rw [authorized_onCatalog h, Action.wp_run]
  exact spares_query horg hwrites hren

lemma authorized_createCluster (cluster : Cluster) :
    ¬ Authorized env user g (.createCluster cluster) := by
  simp only [Authorized, handle, ClusterService.createCluster, insertCluster, wp_bind, wp_modify,
    wp_pure]
  rintro ⟨h, -⟩
  have hlength := congrArg List.length h.clusters
  simp [Table.insert] at hlength

lemma authorized_updateCluster (cluster : Cluster) :
    Authorized env user g (.updateCluster cluster) ↔
      Permitted env user g (.updateCluster cluster) := by
  simp only [Authorized, handle, ClusterService.updateCluster, writeCluster, wp_bind, wp_get,
    wp_orThrow, wp_modify, wp_pure, Permitted, Spares.refl, Answer.Shows, not_false_eq_true,
    implies_true, and_true]
  refine forall₂_congr fun e he => ?_
  have hmem : e ∈ g.clusters.rows := List.mem_of_find?_eq_some he
  have hrows := Table.rows_update_eq_iff (r := e.altered cluster user env.now) hmem rfl
  constructor
  · exact fun h => hrows.mp h.clusters
  · exact fun h => { Spares.refl g with clusters := hrows.mpr h }

lemma authorized_deleteCluster (cluster : String) :
    Authorized env user g (.deleteCluster cluster) ↔
      Permitted env user g (.deleteCluster cluster) := by
  simp only [Authorized, handle, ClusterService.deleteCluster, wp_bind, wp_get, wp_orThrow,
    wp_ite, wp_modify, wp_throw, wp_pure, Permitted, Spares.refl, Answer.Shows, not_false_eq_true,
    implies_true, and_true]
  refine forall₂_congr fun e he => ?_
  have hmem : e ∈ g.clusters.rows := List.mem_of_find?_eq_some he
  simp only [List.any_eq_true, beq_iff_eq]
  split
  · rename_i hused
    exact iff_of_true trivial hused
  · rename_i hfree
    refine iff_of_false (fun h => ?_) hfree
    have hrows := h.clusters
    rw [← hrows] at hmem
    simp at hmem

omit [Names] in
lemma spares_insertApplication (app : ApplicationEntity) :
    Spares user.orgId g { g with applications := g.applications.insert app } ↔
      app.organizationId = user.orgId := by
  constructor
  · intro h
    by_contra hne
    have hlength := congrArg List.length (h.applications _ hne)
    simp [Table.insert, Row.withId] at hlength
  · intro hown
    refine { Spares.refl g with applications := fun B hB => filter_insert ?_ }
    exact beq_false_of_ne (hown.trans_ne hB.symm)

lemma authorized_createApplication (app : ApplicationIn) :
    Authorized env user g (.createApplication app) ↔
      Permitted env user g (.createApplication app) := by
  simp only [Authorized, handle, ApplicationService.createApplication, createApplication,
    insertApplication, wp_bind, wp_get, wp_ite, wp_throw, wp_pure, Permitted, Answer.Shows,
    not_false_eq_true, and_true]
  cases hfree : g.application app.appName with
  | some a => simp [Spares.refl]
  | none =>
    cases hcluster : app.cluster with
    | none => simp [wp_orThrow, Spares.refl, spares_insertApplication]
    | some cluster =>
      cases hfound : g.cluster cluster with
      | none => simp [wp_orThrow, hfound, Spares.refl]
      | some e => simp [wp_orThrow, hfound, Spares.refl, spares_insertApplication]

end Changes

/-! ### Every request -/

/-- A session that is not root's: both ways to tell say so. -/
def NotRoot (env : RestEnv) (user : User) : Prop :=
  isRoot env user = false ∧ (user.org == "SYSTEM" && user.user == "ROOT") = false

/-- No request is authorized but by what it finds: exactly the permitted ones are. -/
theorem authorized_iff_permitted (env : RestEnv) (user : User) (hroot : NotRoot env user)
    (g : Grid) (request : Request) :
    Authorized env user g request ↔ Permitted env user g request := by
  have hread : ∀ answer : Answer, ¬ answer.Shows user.orgId g →
      (Spares user.orgId g g ∧ ¬ answer.Shows user.orgId g) := fun _ h => ⟨.refl g, h⟩
  cases request with
  | swagger | logout | listNodes | applicationTemplate => exact iff_of_true (hread .done id) trivial
  | login | viewLog | executeConsole | cancelConsole | reconnectConnection | closeConnection =>
    exact iff_of_true (hread .done id) trivial
  | createCluster cluster => exact iff_of_false (authorized_createCluster cluster) id
  | updateCluster cluster => exact authorized_updateCluster cluster
  | deleteCluster cluster => exact authorized_deleteCluster cluster
  | getCluster cluster =>
    refine iff_of_true ?_ trivial
    simp [Authorized, handle, ClusterService.getCluster, wp_orThrow, Answer.Shows, Spares.refl]
  | listClusters => exact iff_of_true (hread (.clusters g.clusters.rows) id) trivial
  | applicationInfos => exact authorized_applicationInfos hroot.1
  | createApplication app => exact authorized_createApplication app
  | deleteApplication appName => exact authorized_deleteApplication appName
  | getApplication appName => exact authorized_getApplication appName
  | listApplications => exact iff_of_true (authorized_listApplications hroot.1) trivial
  | startApplication appName => exact authorized_startApplication appName
  | stopApplication appName => exact authorized_stopApplication appName
  | createQuery query =>
    refine iff_of_true (authorized_query (.createQuery _ false) rfl rfl rfl ?_) trivial
    exact fun _ => id
  | updateQuery query =>
    refine iff_of_true (authorized_query (.alterQuery _) rfl rfl rfl ?_) trivial
    exact fun _ => id
  | deleteQuery queryName =>
    refine iff_of_true (authorized_query (.dropQuery _ false) rfl rfl rfl ?_) trivial
    exact fun _ => id
  | getQuery queryName => exact iff_of_true (authorized_getQuery queryName) trivial
  | listQueries => exact iff_of_true authorized_listQueries trivial
  | createOrganization org => exact authorized_createOrganization org
  | updateOrganization org => exact authorized_updateOrganization org
  | deleteOrganization org => exact authorized_deleteOrganization org
  | deleteOrganizations batchOp => exact authorized_deleteOrganizations batchOp
  | getOrganization org => exact authorized_getOrganization org
  | listOrganizations => exact authorized_listOrganizations
  | createSa sa => exact authorized_createSa sa
  | updateName rename => exact authorized_updateName rename
  | updatePassword orgSa => exact authorized_updatePassword orgSa
  | deleteSas sas => exact authorized_deleteSas sas
  | getSa orgName saName => exact authorized_getSa orgName saName
  | listSas => exact authorized_listSas
  | listRolePrivileges => exact authorized_listRolePrivileges
  | listDatabasePrivileges => exact authorized_listDatabasePrivileges
  | listTablePrivileges => exact authorized_listTablePrivileges
  | listColumnPrivileges => exact authorized_listColumnPrivileges
  | listResourceStats => exact authorized_listResourceStats hroot.2

/-- The platform of two organizations without applications and clusters. -/
def twoTenantGrid : Grid where
  catalog := twoTenants
  applications := .empty
  clusters := .empty
  master := Deployment.fresh.master

def plainRest : RestEnv where
  core := Core.plainEnv
  deploy := default
  now := 2
  createDriverDesc _ := none
  like name pattern := name == pattern
  toLong _ := none
  toInt _ := none
  runningAppNames := []
  getAppResourceStat _ := .ok ()

omit [Names] in
/-- Bob may look at his own organization. -/
theorem authorized_iff_permitted_own :
    let _ := exactNames
    Authorized plainRest { orgId := 1, org := "a", userId := 1, user := "bob" } twoTenantGrid
      (.getOrganization "a") := by
  intro _
  refine (authorized_iff_permitted plainRest _ ⟨by decide, by decide⟩ _ _).mpr fun o ho => ?_
  have hid : (Store.organization twoTenants "a").map OrganizationEntity.id = some 1 := by decide
  rw [show Store.organization twoTenants "a" = some o from ho] at hid
  exact Option.some.inj hid

omit [Names] in
/-- Bob deletes the other organization. -/
theorem authorized_iff_permitted_fails :
    let _ := exactNames
    ¬ Authorized plainRest { orgId := 1, org := "a", userId := 1, user := "bob" } twoTenantGrid
      (.deleteOrganization "b") := by
  intro _ h
  have hnone : (Store.organization twoTenants "b").isNone = true := by
    rw [authorized_deleteOrganization] at h
    rw [show Store.organization twoTenants "b" = none from h]
    rfl
  revert hnone
  decide

end Moonbox.Rest
