import Moonbox.Core.DropIfExists
import Moonbox.Core.Unprivileged

/-!
# The commands on timed events

An event that is enabled is changed in nothing but its being enabled: the other commands on events
give up when they find it running. What is said of the rows that are enabled is thus said of two
commands only.
-/

namespace Moonbox.Core

open Catalog Relational

/-- The same events are enabled, and the organizations are the same. -/
structure SameEnabled (s s' : Store) : Prop where
  organizations : s' .organizations = s .organizations
  enabled : ∀ e : TimedEventEntity, e.enable = true →
    (e ∈ (s' .timedEvents).rows ↔ e ∈ (s .timedEvents).rows)

namespace SameEnabled

variable {s : Store}

lemma refl (s : Store) : SameEnabled s s := ⟨rfl, fun _ _ => Iff.rfl⟩

lemma of_eq {s' : Store} (organizations : s' .organizations = s .organizations)
    (events : s' .timedEvents = s .timedEvents) : SameEnabled s s' :=
  ⟨organizations, fun _ _ => by rw [events]⟩

lemma insert {e : TimedEventEntity} (he : e.enable = false) :
    SameEnabled s (execAll [.insert .timedEvents e] s) := by
  refine ⟨by simp, fun r hr => ?_⟩
  rw [execAll_cons, execAll_nil, exec_insert, Table.mem_insert]
  constructor
  · rintro (hmem | rfl)
    · exact hmem
    · exact absurd (hr.symm.trans he) (by decide)
  · exact Or.inl

lemma delete {cond : TimedEventEntity → Bool}
    (h : ∀ e ∈ (s .timedEvents).rows, cond e = true → TimedEventEntity.enable e = false) :
    SameEnabled s (execAll [.delete .timedEvents cond] s) := by
  refine ⟨by simp, fun r hr => ?_⟩
  rw [execAll_cons, execAll_nil, exec_delete, Table.mem_delete]
  refine ⟨And.left, fun hmem => ⟨hmem, Bool.eq_false_iff.mpr fun hc => ?_⟩⟩
  exact absurd (hr.symm.trans (h r hmem hc)) (by decide)

lemma update {cond : TimedEventEntity → Bool} {set : TimedEventEntity → TimedEventEntity}
    (h : ∀ e ∈ (s .timedEvents).rows, cond e = true →
      TimedEventEntity.enable e = false ∧ (set e).enable = false) :
    SameEnabled s (execAll [.update .timedEvents cond set] s) := by
  refine ⟨by simp, fun r hr => ?_⟩
  rw [execAll_cons, execAll_nil, exec_update, Table.mem_update]
  constructor
  · rintro ⟨e, he, heq⟩
    by_cases hc : cond e = true
    · rw [if_pos hc] at heq
      subst heq
      exact absurd (hr.symm.trans (h e he hc).2) (by decide)
    · rw [if_neg hc] at heq
      exact heq ▸ he
  · intro hmem
    refine ⟨r, hmem, if_neg fun hc => ?_⟩
    exact absurd (hr.symm.trans (h r hmem hc).1) (by decide)

end SameEnabled

section Commands

variable [Names] {s : Store} {caller : User} {catalog : MoonboxCatalog} {now : Nat} {name : String}
  {d : CatalogTimedEvent} {ign : Bool} {e : TimedEventEntity}

/-- What an event is read as. -/
lemma getTimedEvent_answers (h : (JdbcCatalog.getTimedEvent name caller).Answers s d) :
    ∃ e, s.timedEvent caller.orgId name = some e ∧ d.name = e.name ∧ d.enable = e.enable := by
  have hwp : (JdbcCatalog.getTimedEvent name caller).wp
      (fun d _ => ∃ e, s.timedEvent caller.orgId name = some e ∧ d.name = e.name ∧
        d.enable = e.enable) (fun _ => True) s := by
    simp only [JdbcCatalog.getTimedEvent, Action.wp_bind, wp_getTimedEvent]
    cases he : s.timedEvent caller.orgId name with
    | none => trivial
    | some e =>
      simp only [Action.wp_bind, wp_userName, wp_procedureName]
      split
      · split
        · split
          · exact ⟨e, rfl, rfl, rfl⟩
          · trivial
        · trivial
      · trivial
  exact h.of_wp hwp

/-- The event is the only one of its name. -/
lemma eq_of_timedEvent (hs : UniqueIn .timedEvents s)
    (found : s.timedEvent caller.orgId name = some e) {r : TimedEventEntity}
    (hr : r ∈ (s .timedEvents).rows) (horg : r.organizationId = caller.orgId)
    (hname : sameName r.name name = true) : r = e := by
  obtain ⟨he, heorg, hename⟩ := Store.timedEvent_some found
  exact hs r hr e he (caller.orgId, Names.collate name) (key_eq horg hname) (key_eq heorg hename)

/-- An event is found again by the name it has. -/
lemma timedEvent_name (found : s.timedEvent caller.orgId name = some e) :
    s.timedEvent caller.orgId e.name = some e := by
  have hname := sameName_iff.mp (Store.timedEvent_some found).2.2
  simpa only [Store.timedEvent, sameName, hname] using found

/-! ### Commands that leave the enabled events alone -/

lemma sameEnabled_createTimedEvent (hd : d.enable = false) :
    (JdbcCatalog.createTimedEvent d ign caller now).wp (fun _ => SameEnabled s) (SameEnabled s)
      s := by
  refine Action.wp_mono (does_createTimedEvent s ign d) ?_ fun s' h => h ▸ .refl s
  rintro _ _ ⟨ws, heffect, rfl⟩
  cases heffect with
  | idle => exact .refl s
  | createTimedEvent => exact .insert hd

lemma sameEnabled_renameTimedEvent (hs : UniqueIn .timedEvents s)
    (found : s.timedEvent caller.orgId name = some e) (he : e.enable = false) (newName : String) :
    (JdbcCatalog.renameTimedEvent name newName caller now).wp (fun _ => SameEnabled s)
      (SameEnabled s) s := by
  refine Action.wp_mono (does_renameTimedEvent s name newName) ?_ fun s' h => h ▸ .refl s
  rintro _ _ ⟨ws, heffect, rfl⟩
  cases heffect with
  | idle => exact .refl s
  | renameTimedEvent =>
    refine .update fun r hr hc => ?_
    rw [Bool.and_eq_true, beq_iff_eq] at hc
    obtain rfl := eq_of_timedEvent hs found hr hc.1 hc.2
    exact ⟨he, he⟩

lemma sameEnabled_alterTimedEvent (found : s.timedEvent caller.orgId d.name = some e)
    (he : e.enable = false) (hd : d.enable = false) :
    (JdbcCatalog.alterTimedEvent d caller now).wp (fun _ => SameEnabled s) (SameEnabled s) s := by
  refine Action.wp_mono (does_alterTimedEvent s d) ?_ fun s' h => h ▸ .refl s
  rintro _ _ ⟨ws, heffect, rfl⟩
  cases heffect with
  | idle => exact .refl s
  | alterTimedEvent found' =>
    obtain rfl := Option.some.inj (found'.symm.trans found)
    refine .update fun r hr hc => ⟨?_, hd⟩
    have hmem := (Store.timedEvent_some found).1
    rw [(s .timedEvents).eq_of_id hr hmem (beq_iff_eq.mp hc)]
    exact he

lemma sameEnabled_dropTimedEvent (hs : UniqueIn .timedEvents s)
    (found : s.timedEvent caller.orgId name = some e) (he : e.enable = false) :
    (JdbcCatalog.dropTimedEvent name ign caller).wp (fun _ => SameEnabled s) (SameEnabled s)
      s := by
  have hdoes : Does caller 0 s (.dropTimedEvent name ign) _ := does_dropTimedEvent s ign name
  refine Action.wp_mono hdoes ?_ fun s' h => h ▸ .refl s
  rintro _ _ ⟨ws, heffect, rfl⟩
  cases heffect with
  | idle => exact .refl s
  | dropTimedEvent =>
    refine .delete fun r hr hc => ?_
    rw [Bool.and_eq_true, beq_iff_eq] at hc
    rw [eq_of_timedEvent hs found hr hc.1 hc.2]
    exact he

lemma wp_whileNotRunning_of {running : String} {m : CatalogTimedEvent → DBIO Unit}
    {P : Store → Prop} (hs : P s)
    (h : ∀ d e, s.timedEvent catalog.userInSession.orgId name = some e → e.enable = false →
      d.name = e.name → d.enable = false → (m d).wp (fun _ => P) P s) :
    (whileNotRunning catalog name running m).wp (fun _ => P) P s := by
  have hread : Action.Within [] (JdbcCatalog.getTimedEvent name catalog.userInSession) :=
    keeps_getTimedEvent name
  rw [whileNotRunning, Action.wp_bind]
  by_cases hd : ∃ d, (JdbcCatalog.getTimedEvent name catalog.userInSession).Answers s d
  · obtain ⟨d, hd⟩ := hd
    obtain ⟨e, found, hname, henable⟩ := getTimedEvent_answers hd
    rw [hread.wp_of_answers hd]
    cases hrunning : d.enable with
    | true => exact hs
    | false => exact h d e found (henable.symm.trans hrunning) hname hrunning
  · exact (hread.wp_of_not_answers (not_exists.mp hd)).mpr hs

/-- The event is read, and the names of its procedure and its definer are found again. -/
def Alterable (s : Store) (caller : User) (name : String) : Prop :=
  ∃ d p u, (JdbcCatalog.getTimedEvent name caller).Answers s d ∧
    s.procedure caller.orgId d.procedure = some p ∧ s.user caller.orgId d.definer = some u

lemma wp_alterTimedEvent_found {Q X : Store → Prop} {p : ProcedureEntity} {u : UserEntity}
    (found : s.timedEvent caller.orgId d.name = some e)
    (procedure : s.procedure caller.orgId d.procedure = some p)
    (definer : s.user caller.orgId d.definer = some u) :
    (JdbcCatalog.alterTimedEvent d caller now).wp (fun _ => Q) X s ↔
      Q (execAll [.update .timedEvents (fun t => t.id == e.id) fun _ =>
        .altered e d u.id p.id caller now] s) := by
  simp only [JdbcCatalog.alterTimedEvent, Action.wp_bind, wp_getTimedEvent, found,
    wp_getProcedure, procedure, wp_userId, definer]
  exact Action.wp_update _ _ _

lemma wp_alterTimedEvent_missing {Q : Unit → Store → Prop} {X : Store → Prop}
    (h : ∀ p u, s.procedure caller.orgId d.procedure = some p →
      s.user caller.orgId d.definer ≠ some u) :
    (JdbcCatalog.alterTimedEvent d caller now).wp Q X s ↔ X s := by
  simp only [JdbcCatalog.alterTimedEvent, Action.wp_bind, wp_getTimedEvent]
  cases s.timedEvent caller.orgId d.name with
  | none => rfl
  | some e =>
    simp only [Action.wp_bind, wp_getProcedure]
    cases hp : s.procedure caller.orgId d.procedure with
    | none => rfl
    | some p =>
      simp only [Action.wp_bind, wp_userId]
      cases hu : s.user caller.orgId d.definer with
      | none => rfl
      | some u => exact absurd hu (h p u hp)

lemma wp_alterTimedEventSetEnable_of {P : Store → Prop} {enable : Bool} (hs : P s)
    (h : ∀ d, (JdbcCatalog.getTimedEvent name catalog.userInSession).Answers s d →
      (JdbcCatalog.alterTimedEvent { d with enable := enable } catalog.userInSession now).wp
        (fun _ => P) P s) :
    (AlterTimedEventSetEnable.run catalog now name enable).wp (fun _ => P) P s := by
  have hread : Action.Within [] (JdbcCatalog.getTimedEvent name catalog.userInSession) :=
    keeps_getTimedEvent name
  rw [AlterTimedEventSetEnable.run, Action.wp_bind]
  by_cases hd : ∃ d, (JdbcCatalog.getTimedEvent name catalog.userInSession).Answers s d
  · obtain ⟨d, hd⟩ := hd
    exact (hread.wp_of_answers hd).mpr (h d hd)
  · exact (hread.wp_of_not_answers (not_exists.mp hd)).mpr hs

/-- The row of the event is written anew, with its name. -/
lemma Alterable.exec_alterTimedEventSetEnable (h : Alterable s catalog.userInSession name)
    (found : s.timedEvent catalog.userInSession.orgId name = some e) (enable : Bool) :
    ∃ e' : TimedEventEntity, e'.name = e.name ∧
      e'.organizationId = catalog.userInSession.orgId ∧ e'.enable = enable ∧
      (AlterTimedEventSetEnable.run catalog now name enable).run.exec s =
        execAll [.update .timedEvents (fun t => t.id == e.id) fun _ => e'] s := by
  obtain ⟨d, p, u, hd, procedure, definer⟩ := h
  obtain ⟨e₁, found₁, hname, _⟩ := getTimedEvent_answers hd
  obtain rfl := Option.some.inj (found.symm.trans found₁)
  have hread : Action.Within [] (JdbcCatalog.getTimedEvent name catalog.userInSession) :=
    keeps_getTimedEvent name
  refine ⟨.altered e { d with enable := enable } u.id p.id catalog.userInSession now, hname, rfl,
    rfl, ?_⟩
  rw [← Action.wp_run _ fun s' => s' = execAll _ s, AlterTimedEventSetEnable.run, Action.wp_bind,
    hread.wp_of_answers hd]
  have found' : s.timedEvent catalog.userInSession.orgId d.name = some e :=
    hname ▸ timedEvent_name found
  rw [wp_alterTimedEvent_found (d := { d with enable := enable }) found' procedure definer]

lemma exec_of_not_alterable (h : ¬Alterable s catalog.userInSession name) (enable : Bool) :
    (AlterTimedEventSetEnable.run catalog now name enable).run.exec s = s := by
  rw [← Action.wp_run _ fun s' => s' = s]
  refine wp_alterTimedEventSetEnable_of rfl fun d hd => ?_
  rw [wp_alterTimedEvent_missing (d := { d with enable := enable }) fun p u hp hu =>
    h ⟨d, p, u, hd, hp, hu⟩]

lemma exec_createTimedEvent (d : CatalogTimedEvent) (ign : Bool) (now : Nat)
    {p : ProcedureEntity} {u : UserEntity}
    (free : s.timedEvent caller.orgId d.name = none)
    (procedure : s.procedure caller.orgId d.procedure = some p)
    (definer : s.user caller.orgId d.definer = some u) :
    ∃ e : TimedEventEntity, e.name = d.name ∧ e.organizationId = caller.orgId ∧
      e.enable = d.enable ∧ (JdbcCatalog.createTimedEvent d ign caller now).run.exec s =
        execAll [.insert .timedEvents e] s := by
  refine ⟨.ofDefinition d u.id p.id caller now, rfl, rfl, rfl, ?_⟩
  rw [← Action.wp_run _ fun s' => s' = execAll _ s]
  simp only [JdbcCatalog.createTimedEvent, Action.wp_bind, wp_timedEventExists, free,
    Option.isSome_none, wp_getProcedure, procedure, wp_userId, definer]
  rfl

/-- A name that is taken or a definer that is not found, and nothing is made. -/
lemma exec_createTimedEvent_refused
    (h : ¬(s.timedEvent caller.orgId d.name = none ∧ (s.user caller.orgId d.definer).isSome)) :
    (JdbcCatalog.createTimedEvent d ign caller now).run.exec s = s := by
  rw [← Action.wp_run _ fun s' => s' = s]
  refine Action.wp_mono (does_createTimedEvent s ign d) ?_ fun s' h => h
  rintro _ _ ⟨ws, heffect, rfl⟩
  cases heffect with
  | idle => rfl
  | createTimedEvent free procedure definer => exact absurd ⟨free, by simp [definer]⟩ h

/-! ### Names -/

lemma unique_operation (hs : UniqueIn .timedEvents s) {op : Operation} {m : DBIO Unit}
    (h : Does caller now s op m) (hnew : ∀ d ign, op ≠ .createOrganization d ign) :
    m.wp (fun _ => UniqueIn .timedEvents) (UniqueIn .timedEvents) s := by
  refine Action.wp_mono h ?_ fun s' h => h ▸ hs
  rintro _ _ ⟨ws, heffect, rfl⟩
  exact hs.execAll (heffect.free hs nofun fun d ign he => absurd he (hnew d ign))

/-! ### Whether an event is enabled -/

omit [Names] in
lemma of_wp_keeping {α : Type} {m : DBIO α} {P : Store → Prop} (h : m.wp (fun _ => P) P s) :
    P ((keeping catalog m).run.exec s) := by
  rw [exec_keeping]
  exact (Action.wp_run m P).mp h

namespace Command

/-- A command on an event -/
def OnEvents : Command → Prop
  | createTimedEvent .. | alterTimedEventSetName .. | alterTimedEventSetDefiner ..
  | alterTimedEventSetSchedule .. | alterTimedEventSetEnable .. | dropTimedEvent .. => True
  | _ => False

/-- Neither makes an enabled event nor enables or disables one. -/
def Plain : Command → Prop
  | createTimedEvent _ _ _ _ _ enable _ => enable = false
  | alterTimedEventSetEnable .. => False
  | _ => True

variable {cmd : Command} {env : Env}

omit [Names] in
/-- Events are otherwise written only when their organization is dropped. -/
lemma onEvents_of_writes (hevents : Kind.timedEvents ∈ cmd.writes)
    (horg : Kind.organizations ∉ cmd.writes) : cmd.OnEvents := by
  cases cmd with
  | createTimedEvent => trivial
  | alterTimedEventSetName => trivial
  | alterTimedEventSetDefiner => trivial
  | alterTimedEventSetSchedule => trivial
  | alterTimedEventSetEnable => trivial
  | dropTimedEvent => trivial
  | dropOrganization => exact absurd (by simp [writes]) horg
  | _ => exact absurd hevents (by simp [writes])

/-- Only the creation of an enabled event and the change of its being enabled count. -/
lemma Plain.sameEnabled (hplain : cmd.Plain) (horg : Kind.organizations ∉ cmd.writes)
    (hs : UniqueIn .timedEvents s) : SameEnabled s ((cmd.run env catalog now).run.exec s) := by
  by_cases hevents : Kind.timedEvents ∈ cmd.writes
  · have hon := onEvents_of_writes hevents horg
    cases cmd with
    | createTimedEvent name definer schedule description proc enable ign =>
      exact of_wp_keeping (sameEnabled_createTimedEvent hplain)
    | alterTimedEventSetName name newName =>
      refine of_wp_keeping (wp_whileNotRunning_of (.refl s) fun d e found he _ _ => ?_)
      exact sameEnabled_renameTimedEvent hs found he newName
    | alterTimedEventSetDefiner name definer =>
      refine of_wp_keeping (wp_whileNotRunning_of (.refl s) fun d e found he hname hd => ?_)
      exact sameEnabled_alterTimedEvent (hname ▸ timedEvent_name found) he hd
    | alterTimedEventSetSchedule name schedule =>
      refine of_wp_keeping (wp_whileNotRunning_of (.refl s) fun d e found he hname hd => ?_)
      exact sameEnabled_alterTimedEvent (hname ▸ timedEvent_name found) he hd
    | dropTimedEvent name ign =>
      refine of_wp_keeping (wp_whileNotRunning_of (.refl s) fun d e found he _ _ => ?_)
      exact sameEnabled_dropTimedEvent hs found he
    | alterTimedEventSetEnable name enable => exact hplain.elim
    | _ => exact hon.elim
  · have hwithin := (cmd.run_within env catalog now).exec s
    exact .of_eq (hwithin _ horg) (hwithin _ hevents)

/-- The names of events stay unique. -/
lemma uniqueEvents (horg : Kind.organizations ∉ cmd.writes) (hs : UniqueIn .timedEvents s) :
    UniqueIn .timedEvents ((cmd.run env catalog now).run.exec s) := by
  by_cases hevents : Kind.timedEvents ∈ cmd.writes
  · have hon := onEvents_of_writes hevents horg
    cases cmd with
    | createTimedEvent name definer schedule description proc enable ign =>
      exact of_wp_keeping (unique_operation hs (does_createTimedEvent s ign _) fun _ _ => nofun)
    | alterTimedEventSetName name newName =>
      refine of_wp_keeping (wp_whileNotRunning_of hs fun d e _ _ _ _ => ?_)
      exact unique_operation hs (does_renameTimedEvent s name newName) fun _ _ => nofun
    | alterTimedEventSetDefiner name definer =>
      refine of_wp_keeping (wp_whileNotRunning_of hs fun d e _ _ _ _ => ?_)
      exact unique_operation hs (does_alterTimedEvent s _) fun _ _ => nofun
    | alterTimedEventSetSchedule name schedule =>
      refine of_wp_keeping (wp_whileNotRunning_of hs fun d e _ _ _ _ => ?_)
      exact unique_operation hs (does_alterTimedEvent s _) fun _ _ => nofun
    | alterTimedEventSetEnable name enable =>
      refine of_wp_keeping (wp_alterTimedEventSetEnable_of hs fun d _ => ?_)
      exact unique_operation hs (does_alterTimedEvent s _) fun _ _ => nofun
    | dropTimedEvent name ign =>
      refine of_wp_keeping (wp_whileNotRunning_of hs fun d e _ _ _ _ => ?_)
      have hdoes : Does catalog.userInSession 0 s (.dropTimedEvent name ign) _ :=
        does_dropTimedEvent s ign name
      exact unique_operation hs hdoes fun _ _ => nofun
    | _ => exact hon.elim
  · exact hs.of_eq ((cmd.run_within env catalog now).exec s _ hevents)

end Command

end Commands

end Moonbox.Core
