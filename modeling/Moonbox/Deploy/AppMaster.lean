import Mathlib.Data.List.Rotate
import Moonbox.Rest.Permissions
import Moonbox.Security.Login

/-!
# Which applications are an organization's own

The master knows an application and its driver by their id, the name of the organization and the
name of the application with a `-` between them. Queries are given the address of an application
and drivers are listed by what their ids begin with.
-/

namespace Moonbox.Deploy

open Actor Handler Master MasterState Relational Security

/-! ### `AppMaster` -/

namespace AppMaster

def selectApp (env : Env) (typeName : String) (session : Session) (appName : Option String) :
    Handler MasterState (Option AppRef) := do
  let s ← get
  let appsInOrg := s.apps.filter fun app =>
    (s.app app).id.startsWith session.org && (s.app app).appType == typeName
  let shuffled ← draw env appsInOrg
  match appName with
  | some name => pure (shuffled.find? fun app => (s.app app).id == name)
  | none => pure shuffled.head?

end AppMaster

/-! ### Owners -/

/-- Whose applications and drivers a master has: the organization and the name there. -/
structure Owners (s : MasterState) where
  app : AppRef → String × String
  driver : DriverRef → String × String
  app_id : ∀ a ∈ s.apps, (s.app a).id = Rest.fullName (app a).1 (app a).2
  driver_id : ∀ d ∈ s.drivers ∪ s.completedDrivers,
    (s.driver d).id = Rest.fullName (driver d).1 (driver d).2

/-- What a session may name an application by. -/
inductive Naming
  | name
  | fullName
  deriving DecidableEq

variable {s : MasterState}

def Owners.IsNamed (owners : Owners s) (a : AppRef) (n : String) : Naming → Prop
  | .name => (owners.app a).2 = n
  | .fullName => (s.app a).id = n

/-- An application that a session of the organization is to be given. -/
structure Suitable (owners : Owners s) (naming : Naming) (typeName org : String)
    (appName : Option String) (a : AppRef) : Prop where
  mem : a ∈ s.apps
  running : (s.app a).state = .running
  appType : (s.app a).appType = typeName
  org : (owners.app a).1 = org
  named : ∀ n ∈ appName, owners.IsNamed a n naming

/-- However applications are shuffled, a suitable one is selected if there is one. -/
def SelectsSuitable (owners : Owners s) (naming : Naming) (typeName : String) (session : Session)
    (appName : Option String) : Prop :=
  ∀ env, wp (AppMaster.selectApp env typeName session appName)
    (fun selected _ =>
      (∀ a ∈ selected, Suitable owners naming typeName session.org appName a) ∧
        ((∃ a, Suitable owners naming typeName session.org appName a) → selected.isSome = true))
    (fun _ => False) s

/-- An active master lists the drivers of the applications of an organization. -/
def ListsOwn (owners : Owners s) (org : String) : Prop :=
  s.state = .active → ∀ env, ∃ rows,
    Rest.allStatusSent s (Master.step env (.requestAllDriverStatus (some org)) s) =
      some (rows, none) ∧
    rows.Perm (((s.drivers ∪ s.completedDrivers).filter fun d => (owners.driver d).1 == org).map
      fun d => driverStatus s (s.driver d).id d)

/-! ### When the applications are its own -/

/-- Of the applications whose ids begin with the name of the organization, and are the given name,
all run and are the organization's. One that is named otherwise than by its id is never found. -/
structure Unrivalled (owners : Owners s) (naming : Naming) (typeName org : String)
    (appName : Option String) : Prop where
  rival : ∀ a ∈ s.apps, (s.app a).appType = typeName → (s.app a).id.startsWith org = true →
    (∀ n ∈ appName, (s.app a).id = n) → (s.app a).state = .running ∧ (owners.app a).1 = org
  named : naming = .name → ∀ n ∈ appName, ∀ a ∈ s.apps, (s.app a).appType = typeName →
    (s.app a).state = .running → (owners.app a).1 = org →
      (s.app a).id ≠ n ∧ (owners.app a).2 ≠ n

def NoForeignDriver (owners : Owners s) (org : String) : Prop :=
  s.state = .active → ∀ d ∈ s.drivers ∪ s.completedDrivers,
    (s.driver d).id.startsWith org = true → (owners.driver d).1 = org

/-! ### Ids -/

lemma startsWith_fullName (org name : String) : (Rest.fullName org name).startsWith org = true := by
  rw [String.startsWith_string_iff]
  simp [Rest.fullName, List.append_assoc]

/-- An id begins with the name of its organization, with what this name begins with, and with the
name of an organization that goes on after a `-` as the application does. -/
theorem startsWith_fullName_iff {org other name : String} :
    (Rest.fullName other name).startsWith org = true ↔
      org.toList <+: other.toList ∨
        ∃ t, org.toList = other.toList ++ t ∧ t <+: '-' :: name.toList := by
  have happ : (Rest.fullName other name).toList = other.toList ++ '-' :: name.toList := by
    simp [Rest.fullName]
  rw [String.startsWith_string_iff, happ]
  constructor
  · intro h
    rcases List.prefix_or_prefix_of_prefix h (List.prefix_append _ _) with hle | ⟨t, ht⟩
    · exact .inl hle
    · rw [← ht, List.prefix_append_right_inj] at h
      exact .inr ⟨t, ht.symm, h⟩
  · rintro (h | ⟨t, ht, hpre⟩)
    · exact h.trans (List.prefix_append _ _)
    · rw [ht, List.prefix_append_right_inj]
      exact hpre

lemma fullName_ne (org name : String) : Rest.fullName org name ≠ name := by
  intro h
  have hlen : (Rest.fullName org name).length = name.length := congrArg String.length h
  rw [Rest.fullName, String.length_append, String.length_append] at hlen
  have hdash : "-".length = 1 := rfl
  omega

/-! ### What is selected -/

variable {owners : Owners s} {naming : Naming} {typeName : String} {session : Session}
  {appName : Option String}

/-- The applications that may be selected, if the shuffle has one of them first. -/
def Visible (s : MasterState) (typeName org : String) (appName : Option String) (a : AppRef) :
    Prop :=
  a ∈ s.apps ∧ (s.app a).appType = typeName ∧ (s.app a).id.startsWith org = true ∧
    ∀ n ∈ appName, (s.app a).id = n

lemma selectApp_wp (env : Env) {Q : Option AppRef → MasterState → Prop} {E : MasterState → Prop} :
    wp (AppMaster.selectApp env typeName session appName) Q E s ↔
      Q (((env.random s.draws).apply (s.apps.filter fun app =>
          (s.app app).id.startsWith session.org && (s.app app).appType == typeName)).find?
            fun app => appName.all fun n => (s.app app).id == n)
        { s with draws := s.draws + 1 } := by
  cases appName with
  | none =>
    have hhead : ∀ xs : List AppRef, xs.find? (fun _ => true) = xs.head? := fun xs => by
      cases xs <;> rfl
    simp only [AppMaster.selectApp, wp_bind, wp_get, wp_pure, draw_wp, Option.all_none, hhead]
  | some name =>
    simp only [AppMaster.selectApp, wp_bind, wp_get, wp_pure, draw_wp, Option.all_some]

/-- A shuffle may have any element first. -/
lemma exists_shuffle_head {α : Type} {xs : List α} {x : α} (hx : x ∈ xs) :
    ∃ r : Shuffle, (r.apply xs).head? = some x := by
  obtain ⟨n, hn, rfl⟩ := List.getElem_of_mem hx
  refine ⟨⟨fun ys => ys.rotate n, fun ys => List.rotate_perm ys n⟩, ?_⟩
  rw [List.head?_rotate hn, List.getElem?_eq_getElem hn]

lemma visible_iff {a : AppRef} : Visible s typeName session.org appName a ↔
    a ∈ s.apps.filter (fun app =>
      (s.app app).id.startsWith session.org && (s.app app).appType == typeName) ∧
      (appName.all fun n => (s.app a).id == n) = true := by
  simp only [Visible, List.mem_filter, Bool.and_eq_true, beq_iff_eq, Option.all_eq_true,
    Option.mem_def]
  constructor
  · rintro ⟨hmem, htype, horg, hname⟩
    exact ⟨⟨hmem, horg, htype⟩, hname⟩
  · rintro ⟨⟨hmem, horg, htype⟩, hname⟩
    exact ⟨hmem, htype, horg, hname⟩

/-- What is visible is suitable, and something is visible if something is suitable. -/
lemma selectsSuitable_iff : SelectsSuitable owners naming typeName session appName ↔
    (∀ a, Visible s typeName session.org appName a →
      Suitable owners naming typeName session.org appName a) ∧
    ((∃ a, Suitable owners naming typeName session.org appName a) →
      ∃ a, Visible s typeName session.org appName a) := by
  simp only [SelectsSuitable, selectApp_wp]
  constructor
  · intro h
    constructor
    · intro a ha
      obtain ⟨hmem, hall⟩ := visible_iff.mp ha
      obtain ⟨r, hr⟩ := exists_shuffle_head hmem
      obtain ⟨rest, hrest⟩ := List.head?_eq_some_iff.mp hr
      refine (h { (default : Env) with random := fun _ => r }).1 a ?_
      simp [hrest, hall]
    · intro hex
      obtain ⟨a, ha⟩ := Option.isSome_iff_exists.mp ((h default).2 hex)
      have hall := List.find?_some ha
      refine ⟨a, visible_iff.mpr ⟨?_, hall⟩⟩
      exact (Shuffle.mem_apply _ _ _).mp (List.mem_of_find?_eq_some ha)
  · rintro ⟨hsuitable, hvisible⟩ env
    constructor
    · intro a ha
      have hall := List.find?_some ha
      refine hsuitable a (visible_iff.mpr ⟨?_, hall⟩)
      exact (Shuffle.mem_apply _ _ _).mp (List.mem_of_find?_eq_some ha)
    · intro hex
      obtain ⟨a, ha⟩ := hvisible hex
      obtain ⟨hmem, hall⟩ := visible_iff.mp ha
      rw [List.find?_isSome]
      exact ⟨a, (Shuffle.mem_apply _ _ _).mpr hmem, hall⟩

lemma Suitable.visible {a : AppRef}
    (h : Suitable owners naming typeName session.org appName a)
    (hname : ∀ n ∈ appName, (s.app a).id = n) : Visible s typeName session.org appName a := by
  refine ⟨h.mem, h.appType, ?_, hname⟩
  rw [owners.app_id a h.mem, h.org]
  exact startsWith_fullName _ _

/-- No application has its name for an id. -/
lemma Suitable.id_ne {a : AppRef} {n : String}
    (h : Suitable owners .name typeName session.org appName a) (hn : n ∈ appName) :
    (s.app a).id ≠ n := by
  have hname : (owners.app a).2 = n := h.named n hn
  rw [owners.app_id a h.mem, ← hname]
  exact fullName_ne _ _

/-- The selection is right exactly if nothing of others, and nothing that does not run, is seen. -/
lemma selectsSuitable_iff_unrivalled : SelectsSuitable owners naming typeName session appName ↔
    Unrivalled owners naming typeName session.org appName := by
  rw [selectsSuitable_iff]
  constructor
  · rintro ⟨hsuitable, hvisible⟩
    constructor
    · intro a ha htype hstarts hname
      have h := hsuitable a ⟨ha, htype, hstarts, hname⟩
      exact ⟨h.running, h.org⟩
    · rintro rfl n hn a ha htype hrunning horg
      have hnone : ∀ b, ¬ Visible s typeName session.org appName b := fun b hb =>
        (hsuitable b hb).id_ne hn (hb.2.2.2 n hn)
      have hname : ∀ m ∈ appName, m = n := fun m hm => Option.mem_unique hm hn
      constructor
      · intro hid
        refine hnone a ⟨ha, htype, ?_, fun m hm => hid.trans (hname m hm).symm⟩
        rw [owners.app_id a ha, horg]
        exact startsWith_fullName _ _
      · intro hown
        obtain ⟨b, hb⟩ := hvisible
          ⟨a, ha, hrunning, htype, horg, fun m hm => hown.trans (hname m hm).symm⟩
        exact hnone b hb
  · intro h
    constructor
    · rintro a ⟨ha, htype, hstarts, hname⟩
      obtain ⟨hrunning, horg⟩ := h.rival a ha htype hstarts hname
      refine ⟨ha, hrunning, htype, horg, fun n hn => ?_⟩
      cases naming with
      | fullName => exact hname n hn
      | name => exact absurd (hname n hn) (h.named rfl n hn a ha htype hrunning horg).1
    · rintro ⟨a, ha⟩
      refine ⟨a, ha.visible fun n hn => ?_⟩
      cases naming with
      | fullName => exact ha.named n hn
      | name =>
        exact absurd (ha.named n hn) (h.named rfl n hn a ha.mem ha.appType ha.running ha.org).2

/-! ### What is listed -/

lemma perm_filter_iff {α β : Type} {xs : List α} {p q : α → Bool} {f : α → β}
    (hqp : ∀ x ∈ xs, q x = true → p x = true) :
    ((xs.filter p).map f).Perm ((xs.filter q).map f) ↔ ∀ x ∈ xs, p x = true → q x = true := by
  constructor
  · intro h x hx hpx
    have hfilter : (xs.filter p).filter q = xs.filter q := by
      rw [List.filter_filter]
      refine List.filter_congr fun y hy => Bool.eq_iff_iff.mpr ?_
      rw [Bool.and_eq_true]
      exact ⟨fun hboth => hboth.1, fun hqy => ⟨hqy, hqp y hy hqy⟩⟩
    have hlen : ((xs.filter p).filter q).length = (xs.filter p).length := by
      simpa [hfilter] using h.length_eq.symm
    have hself := List.filter_sublist.eq_of_length hlen
    exact List.filter_eq_self.mp hself x (List.mem_filter.mpr ⟨hx, hpx⟩)
  · intro h
    rw [List.filter_congr fun x hx => Bool.eq_iff_iff.mpr ⟨h x hx, hqp x hx⟩]

/-- The rows are those of the drivers whose ids begin with the name of the organization. -/
lemma listsOwn_iff {org : String} : ListsOwn owners org ↔ NoForeignDriver owners org := by
  refine forall_congr' fun hactive => ?_
  have hown : ∀ d ∈ s.drivers ∪ s.completedDrivers, ((owners.driver d).1 == org) = true →
      (s.driver d).id.startsWith org = true := by
    intro d hd horg
    rw [owners.driver_id d hd, eq_of_beq horg]
    exact startsWith_fullName _ _
  have hrows : ∀ env : Env, Rest.allStatusAnswer (some org) env s =
      ((((env.random s.draws).apply (s.drivers ∪ s.completedDrivers)).filter
        fun d => (s.driver d).id.startsWith org).map
          fun d => driverStatus s (s.driver d).id d, none) := by
    intro env
    simp [Rest.allStatusAnswer, hactive]
  have hperm : ∀ env : Env,
      ((((env.random s.draws).apply (s.drivers ∪ s.completedDrivers)).filter
        fun d => (s.driver d).id.startsWith org).map
          fun d => driverStatus s (s.driver d).id d).Perm
      (((s.drivers ∪ s.completedDrivers).filter fun d => (s.driver d).id.startsWith org).map
        fun d => driverStatus s (s.driver d).id d) :=
    fun env => (((env.random s.draws).perm _).filter _).map _
  simp only [← beq_iff_eq (a := (owners.driver _).1), ← perm_filter_iff hown
    (f := fun d => driverStatus s (s.driver d).id d)]
  constructor
  · intro h
    obtain ⟨rows, hsent, hrowsperm⟩ := h default
    rw [Rest.allStatusSent_requestAllDriverStatus, hrows, Option.some_inj, Prod.mk.injEq] at hsent
    rw [← hsent.1] at hrowsperm
    exact (hperm default).symm.trans hrowsperm
  · intro h env
    refine ⟨_, ?_, (hperm env).trans h⟩
    rw [Rest.allStatusSent_requestAllDriverStatus, hrows]

/-- Queries go to an organization's own applications, and its own drivers are listed, exactly if
what is looked for by names meets no other. -/
theorem routing_iff (owners : Owners s) (naming : Naming) (typeName : String) (session : Session)
    (appName : Option String) :
    SelectsSuitable owners naming typeName session appName ∧ ListsOwn owners session.org ↔
      Unrivalled owners naming typeName session.org appName ∧
        NoForeignDriver owners session.org :=
  and_congr selectsSuitable_iff_unrivalled listsOwn_iff

/-- A session of the organization `a` where the one application registered is that of `ab`. -/
theorem routing_fails :
    ∃ s : MasterState, ∃ owners : Owners s, ∃ session : Session, ∀ naming,
      ¬ (SelectsSuitable owners naming "sparkcluster" session none ∧
        ListsOwn owners session.org) := by
  let info : AppInfo :=
    { (default : AppInfo) with
      id := "ab-spark", appType := "sparkcluster", state := .running }
  let s : MasterState := { persistenceEngine := .blackHole, apps := [0], app := fun _ => info }
  let owners : Owners s :=
    { app := fun _ => ("ab", "spark")
      driver := fun _ => ("ab", "spark")
      app_id := fun _ _ => rfl
      driver_id := by simp [s] }
  refine ⟨s, owners, { (default : Session) with org := "a" }, fun naming hroutes => ?_⟩
  have hrival := (selectsSuitable_iff_unrivalled.mp hroutes.1).rival 0 (by simp [s]) rfl
    (by simp [s, info]) (by simp)
  simp [owners] at hrival

end Moonbox.Deploy
