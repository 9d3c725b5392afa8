import Moonbox.Core.EnabledEvents
import Moonbox.Interactive.TimedEvents
import Moonbox.Lib.Runs

/-!
# Enabled events and their jobs

The scheduler is changed first and the catalog after it, by another process, and neither change is
undone when the other one fails. `Orderly` says of a command, in the state that it finds, that it
does not end between the two: just the runs of orderly steps never part the events that are enabled
from those that have a job.
-/

namespace Moonbox.Interactive

open Actor Relational Catalog Core

variable {q : Quartz}

/-! ### The scheduler -/

section Scheduler

open TimedEventServiceImpl

variable {σ : q.Scheduler} {event : EventEntity} {now : Nat} {checkTimedService : Bool}

/-- The master makes a job of the event. -/
structure Registers (checkTimedService : Bool) (σ : q.Scheduler) (event : EventEntity) (now : Nat) :
    Prop where
  inService : checkTimedService = true
  free : q.hasJob σ event.key = false
  described : ∃ description, q.describe event.cronExpr = .ok description
  fires : q.fires event now = true

lemma wp_attempt {f : q.Scheduler → Except String q.Scheduler} {Q : q.Scheduler → Prop}
    {E : q.Scheduler → Prop} :
    (attempt q f).wp (fun _ => Q) E σ ↔
      match f σ with
      | .ok σ' => Q σ'
      | .error _ => E σ := by
  rw [attempt, Handler.wp_bind, Handler.wp_get]
  cases f σ <;> rfl

lemma hasTrigger_eq_false {k : JobKey} (h : q.hasJob σ k = false) : q.hasTrigger σ k = false := by
  apply Bool.eq_false_iff.mpr
  intro htrigger
  exact absurd (h.symm.trans (q.hasJob_of_hasTrigger σ k htrigger)) (by decide)

/-- A job of the same key, and no other is made of the event. -/
lemma wp_addTimedEvent_of_hasJob (hjob : q.hasJob σ event.key = true)
    (htrigger : q.hasTrigger σ event.key = false) :
    (addTimedEvent q event now).wp (fun _ _ => False)
      (fun σ' => ∀ k, q.hasJob σ' k = q.hasJob σ k) σ := by
  rw [addTimedEvent]
  cases q.describe event.cronExpr with
  | error e => exact fun _ => rfl
  | ok description =>
    have hadd : ∀ k, q.hasJob (q.addJob event σ) k = q.hasJob σ k := by
      intro k
      rw [q.hasJob_addJob]
      by_cases hk : k = event.key
      · rw [hk, hjob, Bool.or_true]
      · simp [hk]
    simp only [Handler.wp_bind, Handler.wp_get, hjob, htrigger, if_true, Handler.wp_modify,
      Bool.false_eq_true, if_false, wp_attempt]
    cases hschedule : q.scheduleJob event now (q.addJob event σ) with
    | error e => exact hadd
    | ok σ' =>
      have hfree := ((q.scheduleJob_ok_iff event now _).mp ⟨σ', hschedule⟩).1
      exact absurd (hfree.symm.trans ((hadd event.key).trans hjob)) (by decide)

lemma wp_addTimedEvent_of_free (hfree : q.hasJob σ event.key = false) :
    (addTimedEvent q event now).wp
      (fun _ σ' => ((∃ description, q.describe event.cronExpr = .ok description) ∧
        q.fires event now = true) ∧ ∀ k, q.hasJob σ' k = true ↔ k = event.key ∨ q.hasJob σ k = true)
      (fun σ' => ¬((∃ description, q.describe event.cronExpr = .ok description) ∧
        q.fires event now = true) ∧ ∀ k, q.hasJob σ' k = q.hasJob σ k) σ := by
  rw [addTimedEvent]
  cases hdescribe : q.describe event.cronExpr with
  | error e => exact ⟨by simp, fun _ => rfl⟩
  | ok description =>
    simp only [Handler.wp_bind, Handler.wp_get, hfree, hasTrigger_eq_false hfree,
      Bool.false_eq_true, if_false, wp_attempt]
    cases hschedule : q.scheduleJob event now σ with
    | error e =>
      refine ⟨fun h => ?_, fun _ => trivial⟩
      obtain ⟨σ', hok⟩ := (q.scheduleJob_ok_iff event now σ).mpr ⟨hfree, h.2⟩
      cases hschedule.symm.trans hok
    | ok σ' =>
      have hfires := ((q.scheduleJob_ok_iff event now σ).mp ⟨σ', hschedule⟩).2
      refine ⟨⟨⟨description, rfl⟩, hfires⟩, fun k => ?_⟩
      rw [q.hasJob_scheduleJob event now σ σ' hschedule, Bool.or_eq_true, decide_eq_true_eq]

/-- A job is made or an exception is raised. -/
lemma wp_registerTimedEvent :
    (registerTimedEvent q checkTimedService event now).wp
      (fun _ σ' => Registers checkTimedService σ event now ∧
        ∀ k, q.hasJob σ' k = true ↔ k = event.key ∨ q.hasJob σ k = true)
      (fun σ' => ¬Registers checkTimedService σ event now ∧ ∀ k, q.hasJob σ' k = q.hasJob σ k)
      σ := by
  rw [registerTimedEvent]
  cases checkTimedService with
  | false => exact ⟨fun h => Bool.false_ne_true h.inService, fun _ => rfl⟩
  | true =>
    simp only [if_true, Handler.wp_bind, Handler.wp_get, Handler.wp_ite]
    cases hjob : q.hasJob σ event.key with
    | false =>
      rw [timedEventExists, hjob, Bool.false_and, if_neg Bool.false_ne_true]
      refine Handler.wp_mono (wp_addTimedEvent_of_free hjob) ?_ ?_
      · rintro _ σ' ⟨⟨hdescribe, hfires⟩, hjobs⟩
        exact ⟨⟨rfl, hjob, hdescribe, hfires⟩, hjobs⟩
      · rintro σ' ⟨hno, hjobs⟩
        exact ⟨fun h => hno ⟨h.described, h.fires⟩, hjobs⟩
    | true =>
      have hno : ¬Registers true σ event now := fun h =>
        absurd (h.free.symm.trans hjob) (by decide)
      rw [timedEventExists, hjob, Bool.true_and]
      cases htrigger : q.hasTrigger σ event.key with
      | true => exact ⟨hno, fun _ => rfl⟩
      | false =>
        rw [if_neg Bool.false_ne_true]
        exact Handler.wp_mono (wp_addTimedEvent_of_hasJob hjob htrigger) (fun _ _ => False.elim)
          fun σ' hjobs => ⟨hno, hjobs⟩

lemma wp_unregisterTimedEvent {group name : String} :
    (unregisterTimedEvent q checkTimedService group name).wp
      (fun _ σ' => checkTimedService = true ∧
        ∀ k, q.hasJob σ' k = true ↔ k ≠ ⟨name, group⟩ ∧ q.hasJob σ k = true)
      (fun σ' => checkTimedService = false ∧ σ' = σ) σ := by
  cases checkTimedService with
  | false => exact ⟨rfl, rfl⟩
  | true =>
    refine ⟨rfl, fun k => ?_⟩
    rw [q.hasJob_deleteJob, Bool.and_eq_true, decide_eq_true_eq]

end Scheduler

/-! ### The catalog -/

section Catalog

/-- The job belongs to an event that is enabled. -/
def Enabled (s : Store) (k : JobKey) : Prop :=
  ∃ o ∈ (s .organizations).rows, ∃ e ∈ (s .timedEvents).rows, e.organizationId = o.id ∧
    e.enable = true ∧ k = ⟨e.name, o.name⟩

variable {s s' : Store} {k : JobKey} {o : OrganizationEntity} {e e' : TimedEventEntity}

lemma enabled_iff_of_sameEnabled (h : SameEnabled s s') : Enabled s' k ↔ Enabled s k := by
  simp only [Enabled, h.organizations]
  constructor
  · rintro ⟨o, ho, e, he, horg, henable, hk⟩
    exact ⟨o, ho, e, (h.enabled e henable).mp he, horg, henable, hk⟩
  · rintro ⟨o, ho, e, he, horg, henable, hk⟩
    exact ⟨o, ho, e, (h.enabled e henable).mpr he, horg, henable, hk⟩

lemma enabled_insert_iff (ho : o ∈ (s .organizations).rows) (horg : e.organizationId = o.id)
    (henable : e.enable = true) :
    Enabled (execAll [.insert .timedEvents e] s) k ↔ k = ⟨e.name, o.name⟩ ∨ Enabled s k := by
  have horgs : execAll [.insert .timedEvents e] s .organizations = s .organizations := by simp
  simp only [Enabled, horgs]
  rw [execAll_cons, execAll_nil, exec_insert]
  constructor
  · rintro ⟨o', ho', r, hr, hrorg, hrenable, hk⟩
    rcases Table.mem_insert.mp hr with hr | rfl
    · exact .inr ⟨o', ho', r, hr, hrorg, hrenable, hk⟩
    · rw [(s .organizations).eq_of_id ho' ho (hrorg.symm.trans horg)] at hk
      exact .inl hk
  · rintro (rfl | ⟨o', ho', r, hr, hrorg, hrenable, hk⟩)
    · exact ⟨o, ho, _, Table.mem_insert.mpr (.inr rfl), horg, henable, rfl⟩
    · exact ⟨o', ho', r, Table.mem_insert.mpr (.inl hr), hrorg, hrenable, hk⟩

variable [Names]

/-- Organizations, and the events of each, are told apart by their names. -/
structure Tidy (s : Store) : Prop where
  organizations : UniqueIn .organizations s
  events : UniqueIn .timedEvents s

namespace Tidy

variable (hs : Tidy s)

include hs

lemma organization_eq {o' : OrganizationEntity} (ho : o ∈ (s .organizations).rows)
    (ho' : o' ∈ (s .organizations).rows) (hname : o'.name = o.name) : o' = o :=
  hs.organizations o' ho' o ho (0, Names.collate o.name) (by rw [nameKey, hname]) rfl

lemma event_eq (he : e ∈ (s .timedEvents).rows) (he' : e' ∈ (s .timedEvents).rows)
    (horg : e'.organizationId = e.organizationId) (hname : e'.name = e.name) : e' = e :=
  hs.events e' he' e he (e.organizationId, Names.collate e.name) (by rw [nameKey, horg, hname]) rfl

/-- The event of an enabled key is the one of its name. -/
lemma enabled_key_iff (ho : o ∈ (s .organizations).rows) (he : e ∈ (s .timedEvents).rows)
    (horg : e.organizationId = o.id) : Enabled s ⟨e.name, o.name⟩ ↔ e.enable = true := by
  constructor
  · rintro ⟨o', ho', r, hr, hrorg, hrenable, hk⟩
    obtain ⟨hname, horgname⟩ := JobKey.mk.inj hk
    obtain rfl := hs.organization_eq ho ho' horgname.symm
    rwa [hs.event_eq he hr (hrorg.trans horg.symm) hname.symm] at hrenable
  · intro henable
    exact ⟨o, ho, e, he, horg, henable, rfl⟩

lemma enabled_overwrite_iff (ho : o ∈ (s .organizations).rows)
    (he : e ∈ (s .timedEvents).rows) (horg : e.organizationId = o.id) (hname : e'.name = e.name)
    (horg' : e'.organizationId = o.id) :
    Enabled (execAll [.update .timedEvents (fun t => t.id == e.id) fun _ => e'] s) k ↔
      k = ⟨e.name, o.name⟩ ∧ e'.enable = true ∨ k ≠ ⟨e.name, o.name⟩ ∧ Enabled s k := by
  have horgs : execAll [.update .timedEvents (fun t => t.id == e.id) fun _ => e'] s .organizations =
      s .organizations := by simp
  simp only [Enabled, horgs]
  rw [execAll_cons, execAll_nil, exec_update]
  constructor
  · rintro ⟨o', ho', r, hr, hrorg, hrenable, hk⟩
    obtain ⟨r', hr', heq⟩ := Table.mem_update.mp hr
    by_cases hid : r'.id = e.id
    · rw [if_pos (beq_iff_eq.mpr hid)] at heq
      subst heq
      rw [(s .organizations).eq_of_id ho' ho (hrorg.symm.trans horg')] at hk
      exact .inl ⟨hk.trans (congrArg (JobKey.mk · o.name) hname), hrenable⟩
    · rw [if_neg fun h => hid (beq_iff_eq.mp h)] at heq
      subst heq
      refine .inr ⟨fun h => hid ?_, o', ho', r', hr', hrorg, hrenable, hk⟩
      obtain ⟨hrname, horgname⟩ := JobKey.mk.inj (h.symm.trans hk)
      obtain rfl := hs.organization_eq ho ho' horgname.symm
      rw [hs.event_eq he hr' (hrorg.trans horg.symm) hrname.symm]
  · rintro (⟨rfl, henable⟩ | ⟨hne, o', ho', r, hr, hrorg, hrenable, hk⟩)
    · refine ⟨o, ho, _, Table.mem_update.mpr ⟨e, he, if_pos (beq_iff_eq.mpr rfl)⟩, horg', henable, ?_⟩
      exact congrArg (JobKey.mk · o.name) hname.symm
    · refine ⟨o', ho', r, Table.mem_update.mpr ⟨r, hr, if_neg fun h => hne ?_⟩, hrorg, hrenable, hk⟩
      obtain rfl := (s .timedEvents).eq_of_id hr he (beq_iff_eq.mp h)
      rw [hk, (s .organizations).eq_of_id ho' ho (hrorg.symm.trans horg)]

end Tidy

end Catalog

/-! ### The runner -/

section Runner

variable {t : Timer q} {query : Query} {request : DBIO EventEntity} {name : String}

lemma wp_onCatalog {α : Type} {m : DBIO α} {Q : α → Timer q → Prop} {E : Timer q → Prop} :
    (Runner.onCatalog m).wp Q E t ↔
      m.wp (fun a s => Q a { t with store := s }) (fun s => E { t with store := s }) t.store := by
  simp only [Handler.wp, Action.wp, Runner.onCatalog]
  cases m.run t.store with
  | mk r s => cases r <;> rfl

lemma wp_onScheduler {m : Handler q.Scheduler Unit} {Q : Unit → Timer q → Prop}
    {E : Timer q → Prop} :
    (Runner.onScheduler m).wp Q E t ↔
      m.wp (fun a σ => Q a { t with scheduler := σ }) (fun σ => E { t with scheduler := σ })
        t.scheduler := by
  simp only [Handler.wp, Runner.onScheduler]
  cases m t.scheduler with
  | mk r σ => cases r <;> rfl

lemma wp_ask {m : Handler q.Scheduler Unit} {exchange : Exchange} {Q : Unit → Timer q → Prop}
    {E : Timer q → Prop} :
    (Runner.ask exchange m).wp Q E t ↔
      match exchange with
      | .lost => E t
      | .late =>
        m.wp (fun _ σ => E { t with scheduler := σ }) (fun σ => E { t with scheduler := σ })
          t.scheduler
      | .answered =>
        m.wp (fun a σ => Q a { t with scheduler := σ }) (fun σ => E { t with scheduler := σ })
          t.scheduler := by
  cases exchange with
  | lost => rfl
  | late => exact (Handler.wp_bind _ _).trans wp_onScheduler
  | answered => exact wp_onScheduler

/-- The job of an event of the session -/
def Query.key (query : Query) (name : String) : JobKey := ⟨name, query.session.getCurrentOrg⟩

/-- The event is read and the master makes a job of it. -/
structure Registering (query : Query) (request : DBIO EventEntity) (t : Timer q)
    (event : EventEntity) : Prop where
  read : request.Answers t.store event
  sent : query.exchange ≠ .lost
  registers : Registers query.checkTimedService t.scheduler event query.now

variable [Names]

/-- The catalog after the command alone -/
def Query.store (query : Query) (s : Store) : Store :=
  (query.cmd.run query.env query.session query.now).run.exec s

/-- The catalog after the command, if the master has answered that it may be run. -/
def Query.storeAfter (query : Query) (s : Store) : Store :=
  if query.exchange = .answered then query.store s else s

lemma wp_command {P : Timer q → Prop} :
    (Runner.onCatalog (query.cmd.run query.env query.session query.now) >>= fun _ => pure ()).wp
      (fun _ => P) P t ↔ P { t with store := query.store t.store } := by
  rw [Handler.wp_bind, wp_onCatalog]
  exact Action.wp_run _ fun s => P { t with store := s }

/-- A registration leaves all as it was or makes a job, and then the command is run if the answer
comes in time. -/
inductive Registered (query : Query) (request : DBIO EventEntity) (t t' : Timer q) : Prop
  | refused (refused : ∀ event, ¬Registering query request t event) (store : t'.store = t.store)
    (jobs : ∀ k, q.hasJob t'.scheduler k = q.hasJob t.scheduler k)
  | made (event : EventEntity) (registering : Registering query request t event)
    (store : t'.store = query.storeAfter t.store)
    (jobs : ∀ k, q.hasJob t'.scheduler k = true ↔
      k = event.key ∨ q.hasJob t.scheduler k = true)

lemma registering_exec (hread : Action.Within [] request) :
    Registered query request t ((Runner.registering query request).exec t) := by
  apply (Handler.wp_exec _ (Registered query request t)).mp
  rw [Runner.registering, Handler.wp_bind, wp_onCatalog]
  by_cases hevent : ∃ event, request.Answers t.store event
  · obtain ⟨event, hevent⟩ := hevent
    have huniq : ∀ event', request.Answers t.store event' → event' = event := fun event' h =>
      Except.ok.inj (h.symm.trans hevent)
    rw [hread.wp_of_answers hevent, Handler.wp_bind, wp_ask]
    cases hexchange : query.exchange with
    | lost => exact .refused (fun _ h => h.sent hexchange) rfl fun _ => rfl
    | late =>
      refine Handler.wp_mono wp_registerTimedEvent ?_ ?_
      · rintro _ σ' ⟨hregisters, hjobs⟩
        have hstore : query.storeAfter t.store = t.store := by simp [Query.storeAfter, hexchange]
        exact .made event ⟨hevent, by simp [hexchange], hregisters⟩ hstore.symm hjobs
      · rintro σ' ⟨hno, hjobs⟩
        exact .refused (fun event' h => hno (huniq event' h.read ▸ h.registers)) rfl hjobs
    | answered =>
      refine Handler.wp_mono wp_registerTimedEvent ?_ ?_
      · rintro _ σ' ⟨hregisters, hjobs⟩
        have hstore : query.storeAfter t.store = query.store t.store := by
          simp [Query.storeAfter, hexchange]
        exact wp_command.mpr
          (.made event ⟨hevent, by simp [hexchange], hregisters⟩ hstore.symm hjobs)
      · rintro σ' ⟨hno, hjobs⟩
        exact .refused (fun event' h => hno (huniq event' h.read ▸ h.registers)) rfl hjobs
  · rw [hread.wp_of_not_answers (not_exists.mp hevent)]
    exact .refused (fun event h => hevent ⟨event, h.read⟩) rfl fun _ => rfl

/-- To disable an event, its job is deleted first. -/
inductive Unregistered (query : Query) (name : String) (t t' : Timer q) : Prop
  | refused (refused : ¬(query.checkTimedService = true ∧ query.exchange ≠ .lost)) (same : t' = t)
  | deleted (inService : query.checkTimedService = true) (sent : query.exchange ≠ .lost)
    (store : t'.store = query.storeAfter t.store)
    (jobs : ∀ k, q.hasJob t'.scheduler k = true ↔
      k ≠ query.key name ∧ q.hasJob t.scheduler k = true)

lemma disabling_exec :
    Unregistered query name t ((Runner.alterTimedEvent query name false).exec t) := by
  apply (Handler.wp_exec _ (Unregistered query name t)).mp
  rw [Runner.alterTimedEvent, if_neg Bool.false_ne_true, Handler.wp_bind, wp_ask]
  cases hexchange : query.exchange with
  | lost => exact .refused (fun h => h.2 hexchange) rfl
  | late =>
    refine Handler.wp_mono wp_unregisterTimedEvent ?_ ?_
    · rintro _ σ' ⟨hservice, hjobs⟩
      have hstore : query.storeAfter t.store = t.store := by simp [Query.storeAfter, hexchange]
      exact .deleted hservice (by simp [hexchange]) hstore.symm hjobs
    · rintro σ' ⟨hservice, rfl⟩
      exact .refused (by simp [hservice]) rfl
  | answered =>
    refine Handler.wp_mono wp_unregisterTimedEvent ?_ ?_
    · rintro _ σ' ⟨hservice, hjobs⟩
      have hstore : query.storeAfter t.store = query.store t.store := by
        simp [Query.storeAfter, hexchange]
      exact wp_command.mpr (.deleted hservice (by simp [hexchange]) hstore.symm hjobs)
    · rintro σ' ⟨hservice, rfl⟩
      exact .refused (by simp [hservice]) rfl

variable {s : Store} {catalog : MoonboxCatalog} {event : EventEntity}

lemma within_createRequest (definer : Option String) (schedule : String)
    (description : Option String) (proc : String) :
    Action.Within [] (Runner.createRequest catalog name definer schedule description proc) :=
  (keeps_getProcedure _).bind fun _ => .pure _

lemma within_alterRequest : Action.Within [] (Runner.alterRequest catalog name) :=
  (keeps_getTimedEvent _).bind fun _ => (keeps_getUser _ _).bind fun _ =>
    (keeps_getProcedure _).bind fun _ => .pure _

lemma wp_getProcedure_of {caller : User} {proc : String} {Q : CatalogProcedure → Store → Prop}
    (h : ∀ d p, s.procedure caller.orgId proc = some p → Q d s) :
    (JdbcCatalog.getProcedure proc caller).wp Q (fun _ => True) s := by
  simp only [JdbcCatalog.getProcedure, Action.wp_bind, wp_getProcedure]
  cases hp : s.procedure caller.orgId proc with
  | none => trivial
  | some p =>
    simp only [Action.wp_bind, wp_userName]
    split
    · exact h _ p hp
    · trivial

lemma wp_getUser_of {org user : String} {Q : CatalogUser → Store → Prop}
    (h : ∀ d o u, s.organization org = some o → s.user o.id user = some u → Q d s) :
    (JdbcCatalog.getUser org user).wp Q (fun _ => True) s := by
  simp only [JdbcCatalog.getUser, Action.wp_bind, wp_organizationId]
  cases ho : s.organization org with
  | none => trivial
  | some o =>
    simp only [wp_getUser]
    cases hu : s.user o.id user with
    | none => trivial
    | some u =>
      simp only [Action.wp_bind, wp_userName]
      split
      · exact h _ o u ho hu
      · trivial

/-- The request to make a job of a new event carries its name, and its procedure is there. -/
lemma createRequest_answers {definer : Option String} {schedule : String}
    {description : Option String} {proc : String}
    (h : (Runner.createRequest catalog name definer schedule description proc).Answers s event) :
    event.key = ⟨name, catalog.getCurrentOrg⟩ ∧
      ∃ p, s.procedure catalog.userInSession.orgId proc = some p := by
  refine h.of_wp (Q := fun event _ => event.key = ⟨name, catalog.getCurrentOrg⟩ ∧
    ∃ p, s.procedure catalog.userInSession.orgId proc = some p) (X := fun _ => True) ?_
  rw [Runner.createRequest, Action.wp_bind]
  exact wp_getProcedure_of fun d p hp => ⟨rfl, p, hp⟩

/-- An event of which a job is requested can be altered. -/
lemma alterRequest_answers (hs : UniqueIn .organizations s) {o : OrganizationEntity}
    (ho : o ∈ (s .organizations).rows) (horg : o.id = catalog.userInSession.orgId)
    (hname : o.name = catalog.getCurrentOrg)
    (h : (Runner.alterRequest catalog name).Answers s event) :
    event.key = ⟨name, catalog.getCurrentOrg⟩ ∧ Alterable s catalog.userInSession name := by
  refine h.of_wp (Q := fun event _ => event.key = ⟨name, catalog.getCurrentOrg⟩ ∧
    Alterable s catalog.userInSession name) (X := fun _ => True) ?_
  have hread : Action.Within [] (JdbcCatalog.getTimedEvent name catalog.userInSession) :=
    keeps_getTimedEvent name
  rw [Runner.alterRequest, Action.wp_bind]
  by_cases hd : ∃ d, (JdbcCatalog.getTimedEvent name catalog.userInSession).Answers s d
  · obtain ⟨d, hd⟩ := hd
    rw [hread.wp_of_answers hd, Action.wp_bind]
    refine wp_getUser_of fun _ o' u ho' hu => ?_
    rw [Action.wp_bind]
    refine wp_getProcedure_of fun _ p hp => ⟨rfl, d, p, u, hd, hp, ?_⟩
    obtain ⟨hmem, hname'⟩ := Store.organization_some ho'
    have heq : o' = o := hs o' hmem o ho (0, Names.collate o.name)
      (key_eq rfl (hname ▸ hname')) rfl
    rwa [heq, horg] at hu
  · exact (hread.wp_of_not_answers (not_exists.mp hd)).mpr trivial

end Runner

/-! ### Agreement -/

section Agreement

/-- Just the events that are enabled have a job. -/
def Agree (t : Timer q) : Prop := ∀ k, q.hasJob t.scheduler k = true ↔ Enabled t.store k

/-- The session is one of an organization of the catalog, and its command leaves the organizations
as they are. -/
structure Query.Possible (query : Query) (s : Store) : Prop where
  organization : ∃ o ∈ (s .organizations).rows, o.id = query.session.userInSession.orgId ∧
    o.name = query.session.getCurrentOrg
  sameOrganizations : Kind.organizations ∉ query.cmd.writes

def TimerEvent.Possible (t : Timer q) : TimerEvent → Prop
  | .query sent => sent.Possible t.store
  | .startTimer => True

variable [Names] {t t' : Timer q} {query : Query} {request : DBIO EventEntity} {name : String}

/-- Whenever a job is made, the answer comes in time and the event is made or enabled under just the
name of the job; when one is deleted, the event is disabled, or there was no job. -/
def Query.Orderly (query : Query) (t : Timer q) : Prop :=
  match query.cmd with
  | .createTimedEvent name definer schedule description proc true _ =>
    ∀ event, Registering query
        (Runner.createRequest query.session name definer schedule description proc) t event →
      query.exchange = .answered ∧
        t.store.timedEvent query.session.userInSession.orgId name = none ∧
        (t.store.user query.session.userInSession.orgId
          (definer.getD query.session.getCurrentUser)).isSome
  | .alterTimedEventSetEnable name true =>
    ∀ event, Registering query (Runner.alterRequest query.session name) t event →
      query.exchange = .answered ∧
        ∃ e, t.store.timedEvent query.session.userInSession.orgId name = some e ∧ e.name = name
  | .alterTimedEventSetEnable name false =>
    query.checkTimedService = true → query.exchange ≠ .lost →
      (query.exchange = .answered ∧ Alterable t.store query.session.userInSession name →
        ∀ e, t.store.timedEvent query.session.userInSession.orgId name = some e →
          e.name = name ∨ e.enable = false) ∧
      (¬(query.exchange = .answered ∧ Alterable t.store query.session.userInSession name) →
        q.hasJob t.scheduler (query.key name) = false)
  | _ => True

/-- A timer that is started has no jobs, so there were none before. -/
def TimerEvent.Orderly (t : Timer q) : TimerEvent → Prop
  | .query sent => sent.Orderly t
  | .startTimer => ∀ k, q.hasJob t.scheduler k = false

omit [Names] in
lemma agree_of_same (hagree : Agree t) (hstore : ∀ k, Enabled t'.store k ↔ Enabled t.store k)
    (hjobs : ∀ k, q.hasJob t'.scheduler k = q.hasJob t.scheduler k) : Agree t' := by
  intro k
  rw [hjobs, hstore]
  exact hagree k

omit [Names] in
lemma not_agree_of_job {k : JobKey} (hjob : q.hasJob t'.scheduler k = true)
    (hno : ¬Enabled t'.store k) : ¬Agree t' := fun h => hno ((h k).mp hjob)

lemma Query.storeAfter_late {s : Store} (h : query.exchange ≠ .answered) :
    query.storeAfter s = s := if_neg h

lemma Query.storeAfter_answered {s : Store} (h : query.exchange = .answered) :
    query.storeAfter s = query.store s := if_pos h

/-! #### Creation -/

section Creation

variable {definer : Option String} {schedule : String} {description : Option String}
  {proc : String} {ign : Bool}

/-- What becomes of the catalog when an enabled event is created. -/
lemma store_create
    (hcmd : query.cmd = .createTimedEvent name definer schedule description proc true ign)
    {s : Store} {p : ProcedureEntity} {u : UserEntity}
    (free : s.timedEvent query.session.userInSession.orgId name = none)
    (procedure : s.procedure query.session.userInSession.orgId proc = some p)
    (found : s.user query.session.userInSession.orgId
      (definer.getD query.session.getCurrentUser) = some u) :
    ∃ e : TimedEventEntity, e.name = name ∧
      e.organizationId = query.session.userInSession.orgId ∧ e.enable = true ∧
      query.store s = execAll [.insert .timedEvents e] s := by
  obtain ⟨e, hname, horg, henable, hexec⟩ := exec_createTimedEvent
    { name := name
      definer := definer.getD query.session.getCurrentUser
      schedule := schedule
      enable := true
      description := description
      procedure := proc }
    ign query.now free procedure found
  refine ⟨e, hname, horg, henable, ?_⟩
  rw [Query.store, hcmd]
  exact exec_keeping.trans hexec

lemma agree_create_iff (hposs : query.Possible t.store)
    (hagree : Agree t)
    (hcmd : query.cmd = .createTimedEvent name definer schedule description proc true ign)
    (ht' : Registered query
      (Runner.createRequest query.session name definer schedule description proc) t t') :
    Agree t' ↔ query.Orderly t := by
  obtain ⟨o, ho, horg, hname⟩ := hposs.organization
  simp only [Query.Orderly, hcmd]
  cases ht' with
  | refused hrefused hstore hjobs =>
    refine iff_of_true (agree_of_same hagree (fun k => by rw [hstore]) hjobs) fun event h => ?_
    exact absurd h (hrefused event)
  | made event hevent hstore hjobs =>
    obtain ⟨hkey, p, hp⟩ := createRequest_answers hevent.read
    have hnew : ¬Enabled t.store event.key := fun h =>
      Bool.false_ne_true (hevent.registers.free.symm.trans ((hagree _).mpr h))
    constructor
    · intro h event' _
      by_contra hno
      refine not_agree_of_job ((hjobs event.key).mpr (.inl rfl)) ?_ h
      by_cases hanswered : query.exchange = .answered
      · have hrun : query.store t.store = t.store := by
          rw [Query.store, hcmd]
          exact exec_keeping.trans (exec_createTimedEvent_refused fun h => hno ⟨hanswered, h⟩)
        rwa [hstore, Query.storeAfter_answered hanswered, hrun]
      · rwa [hstore, Query.storeAfter_late hanswered]
    · intro h k
      obtain ⟨hanswered, hfree, hdefiner⟩ := h event hevent
      obtain ⟨u, hu⟩ := Option.isSome_iff_exists.mp hdefiner
      obtain ⟨e, hename, heorg, henable, hrun⟩ := store_create hcmd hfree hp hu
      rw [hjobs, hagree, hstore, Query.storeAfter_answered hanswered, hrun,
        enabled_insert_iff ho (heorg.trans horg.symm) henable, hkey, hename, hname]

end Creation

/-! #### Enabling and disabling -/

/-- What becomes of the catalog when the flag of the event is set. -/
lemma store_setEnable {enable : Bool} (hcmd : query.cmd = .alterTimedEventSetEnable name enable)
    {s : Store} (halterable : Alterable s query.session.userInSession name) :
    ∃ e, s.timedEvent query.session.userInSession.orgId name = some e ∧
      ∃ e' : TimedEventEntity, e'.name = e.name ∧
        e'.organizationId = query.session.userInSession.orgId ∧ e'.enable = enable ∧
        query.store s = execAll [.update .timedEvents (fun t => t.id == e.id) fun _ => e'] s := by
  obtain ⟨d, p, u, hd, hp, hu⟩ := halterable
  obtain ⟨e, found, _, _⟩ := getTimedEvent_answers hd
  obtain ⟨e', hname, horg, henable, hexec⟩ :=
    Alterable.exec_alterTimedEventSetEnable ⟨d, p, u, hd, hp, hu⟩ found enable
  refine ⟨e, found, e', hname, horg, henable, ?_⟩
  rw [Query.store, hcmd]
  exact exec_keeping.trans hexec

lemma store_setEnable_refused {enable : Bool}
    (hcmd : query.cmd = .alterTimedEventSetEnable name enable) {s : Store}
    (h : ¬Alterable s query.session.userInSession name) : query.store s = s := by
  rw [Query.store, hcmd]
  exact exec_keeping.trans (exec_of_not_alterable h enable)

lemma agree_enable_iff (hs : Tidy t.store) (hposs : query.Possible t.store) (hagree : Agree t)
    (hcmd : query.cmd = .alterTimedEventSetEnable name true)
    (ht' : Registered query (Runner.alterRequest query.session name) t t') :
    Agree t' ↔ query.Orderly t := by
  obtain ⟨o, ho, horg, hname⟩ := hposs.organization
  simp only [Query.Orderly, hcmd]
  cases ht' with
  | refused hrefused hstore hjobs =>
    refine iff_of_true (agree_of_same hagree (fun k => by rw [hstore]) hjobs) fun event h => ?_
    exact absurd h (hrefused event)
  | made event hevent hstore hjobs =>
    obtain ⟨hkey, halterable⟩ := alterRequest_answers hs.organizations ho horg hname hevent.read
    obtain ⟨e, found, e', hename, heorg, henable, hrun⟩ := store_setEnable hcmd halterable
    have hnew : ¬Enabled t.store event.key := fun h =>
      Bool.false_ne_true (hevent.registers.free.symm.trans ((hagree _).mpr h))
    obtain ⟨hmem, hmemorg, _⟩ := Store.timedEvent_some found
    have hoverwrite (k : JobKey) := hs.enabled_overwrite_iff (k := k) ho hmem
      (hmemorg.trans horg.symm) hename (heorg.trans horg.symm)
    constructor
    · intro h event' _
      by_contra hno
      refine not_agree_of_job ((hjobs event.key).mpr (.inl rfl)) ?_ h
      by_cases hanswered : query.exchange = .answered
      · rw [hstore, Query.storeAfter_answered hanswered, hrun, hoverwrite]
        rintro (⟨hk, _⟩ | ⟨_, hk⟩)
        · refine hno ⟨hanswered, e, found, ?_⟩
          exact (JobKey.mk.inj (hkey.symm.trans hk)).1.symm
        · exact hnew hk
      · rwa [hstore, Query.storeAfter_late hanswered]
    · intro h k
      obtain ⟨hanswered, e₁, found₁, hename₁⟩ := h event hevent
      obtain rfl := Option.some.inj (found.symm.trans found₁)
      have hkey' : event.key = ⟨e.name, o.name⟩ := by rw [hkey, hename₁, hname]
      rw [hjobs, hagree, hstore, Query.storeAfter_answered hanswered, hrun, hoverwrite, hkey',
        henable]
      by_cases hk : k = ⟨e.name, o.name⟩ <;> simp [hk]

/-- Only the event that is found can have the job of its name. -/
lemma name_eq_of_enabled (hs : Tidy t.store) (hposs : query.Possible t.store)
    {e : TimedEventEntity}
    (found : t.store.timedEvent query.session.userInSession.orgId name = some e)
    (h : Enabled t.store (query.key name)) : e.name = name := by
  obtain ⟨o, ho, horg, hname⟩ := hposs.organization
  obtain ⟨o', ho', r, hr, hrorg, _, hk⟩ := h
  obtain ⟨hrname, horgname⟩ := JobKey.mk.inj hk
  obtain rfl := hs.organization_eq ho ho' (horgname.symm.trans hname.symm)
  have hre := eq_of_timedEvent hs.events found hr (hrorg.trans horg) (hrname ▸ sameName_self name)
  rw [← hre, hrname]

/-- The job of a name and the flag of an event go together just if they are of one event or the
event is not enabled. -/
lemma without_key_iff (hs : Tidy t.store) (hposs : query.Possible t.store) {e : TimedEventEntity}
    {o : OrganizationEntity} (ho : o ∈ (t.store .organizations).rows)
    (horg : o.id = query.session.userInSession.orgId) (hname : o.name = query.session.getCurrentOrg)
    (found : t.store.timedEvent query.session.userInSession.orgId name = some e) :
    (∀ k, (k ≠ query.key name ∧ Enabled t.store k ↔ k ≠ ⟨e.name, o.name⟩ ∧ Enabled t.store k)) ↔
      e.name = name ∨ e.enable = false := by
  obtain ⟨hmem, hmemorg, _⟩ := Store.timedEvent_some found
  have hkeyed := hs.enabled_key_iff ho hmem (hmemorg.trans horg.symm)
  constructor
  · intro h
    by_contra hno
    obtain ⟨hne, henabled⟩ := not_or.mp hno
    have hk : (⟨e.name, o.name⟩ : JobKey) ≠ query.key name := fun h => hne (JobKey.mk.inj h).1
    exact ((h _).mp ⟨hk, hkeyed.mpr (Bool.not_eq_false _ ▸ henabled)⟩).1 rfl
  · rintro (hsame | hdisabled) k
    · rw [Query.key, ← hname, hsame]
    · have hnot : ¬Enabled t.store ⟨e.name, o.name⟩ := fun h =>
        Bool.false_ne_true (hdisabled.symm.trans (hkeyed.mp h))
      have hkey : ¬Enabled t.store (query.key name) := fun h => by
        rw [Query.key, ← name_eq_of_enabled hs hposs found h, ← hname] at h
        exact hnot h
      constructor
      · exact fun ⟨_, hk⟩ => ⟨fun he => hnot (he ▸ hk), hk⟩
      · exact fun ⟨_, hk⟩ => ⟨fun he => hkey (he ▸ hk), hk⟩

lemma agree_disable_iff (hs : Tidy t.store) (hposs : query.Possible t.store) (hagree : Agree t)
    (hcmd : query.cmd = .alterTimedEventSetEnable name false)
    (ht' : Unregistered query name t t') : Agree t' ↔ query.Orderly t := by
  obtain ⟨o, ho, horg, hname⟩ := hposs.organization
  simp only [Query.Orderly, hcmd]
  cases ht' with
  | refused hrefused hsame =>
    subst hsame
    exact iff_of_true hagree fun hservice hsent => absurd ⟨hservice, hsent⟩ hrefused
  | deleted hservice hsent hstore hjobs =>
    simp only [hservice, hsent, ne_eq, not_false_eq_true, forall_const]
    by_cases hdone : query.exchange = .answered ∧
        Alterable t.store query.session.userInSession name
    · obtain ⟨e, found, e', hename, heorg, henable, hrun⟩ := store_setEnable hcmd hdone.2
      obtain ⟨hmem, hmemorg, _⟩ := Store.timedEvent_some found
      have hafter : Agree t' ↔ ∀ k, (k ≠ query.key name ∧ Enabled t.store k ↔
          k ≠ ⟨e.name, o.name⟩ ∧ Enabled t.store k) := by
        refine forall_congr' fun k => ?_
        rw [hjobs, hagree, hstore, Query.storeAfter_answered hdone.1, hrun,
          hs.enabled_overwrite_iff ho hmem (hmemorg.trans horg.symm) hename (heorg.trans horg.symm),
          henable]
        simp
      rw [hafter, without_key_iff hs hposs ho horg hname found]
      simp [hdone, found]
    · have hsame : t'.store = t.store := by
        rw [hstore]
        by_cases hanswered : query.exchange = .answered
        · rw [Query.storeAfter_answered hanswered]
          exact store_setEnable_refused hcmd fun h => hdone ⟨hanswered, h⟩
        · exact Query.storeAfter_late hanswered
      simp only [hdone, false_implies, not_false_eq_true, forall_const, true_and]
      constructor
      · intro h
        apply Bool.eq_false_iff.mpr
        intro hjob
        have henabled := hsame ▸ (hagree _).mp hjob
        exact ((hjobs _).mp ((h _).mpr henabled)).1 rfl
      · intro hno k
        rw [hjobs, hsame, hagree]
        refine and_iff_right_of_imp fun hk he => ?_
        exact Bool.false_ne_true (hno.symm.trans ((hagree _).mpr (he ▸ hk)))

/-! #### Runs -/

omit [Names] in
lemma Command.eq_of_not_plain {cmd : Command} (h : ¬cmd.Plain) :
    (∃ name definer schedule description proc ign,
      cmd = .createTimedEvent name definer schedule description proc true ign) ∨
      ∃ name enable, cmd = .alterTimedEventSetEnable name enable := by
  cases cmd with
  | createTimedEvent name definer schedule description proc enable ign =>
    obtain rfl := (Bool.not_eq_false enable).mp h
    exact .inl ⟨name, definer, schedule, description, proc, ign, rfl⟩
  | alterTimedEventSetEnable name enable => exact .inr ⟨name, enable, rfl⟩
  | _ => exact absurd trivial h

/-- The other commands ask the master for nothing. -/
lemma exec_plain (h : query.cmd.Plain) :
    (Runner.run query).exec t = { t with store := query.store t.store } := by
  refine (Handler.wp_exec (Runner.run query) fun t' =>
    t' = { t with store := query.store t.store }).mp ?_
  have hrun : Runner.run (q := q) query =
      Runner.onCatalog (query.cmd.run query.env query.session query.now) >>= fun _ => pure () := by
    obtain ⟨session, cmd, env, now, inService, exchange⟩ := query
    cases cmd with
    | createTimedEvent name definer schedule description proc enable ign => cases h; rfl
    | alterTimedEventSetEnable => exact h.elim
    | _ => rfl
  rw [hrun, wp_command]

lemma orderly_of_plain (h : query.cmd.Plain) : query.Orderly t := by
  obtain ⟨session, cmd, env, now, inService, exchange⟩ := query
  cases cmd with
  | createTimedEvent name definer schedule description proc enable ign => cases h; trivial
  | alterTimedEventSetEnable => exact h.elim
  | _ => trivial

/-- A command keeps the agreement just if it is orderly. -/
lemma agree_run_iff (hs : Tidy t.store) (hposs : query.Possible t.store) (hagree : Agree t) :
    Agree ((Runner.run query).exec t) ↔ query.Orderly t := by
  by_cases hplain : query.cmd.Plain
  · refine iff_of_true ?_ (orderly_of_plain hplain)
    rw [exec_plain hplain]
    have hsame : SameEnabled t.store (query.store t.store) :=
      hplain.sameEnabled hposs.sameOrganizations hs.events
    exact agree_of_same hagree (fun k => enabled_iff_of_sameEnabled hsame) fun _ => rfl
  · obtain ⟨name, definer, schedule, description, proc, ign, hcmd⟩ | ⟨name, enable, hcmd⟩ :=
      Command.eq_of_not_plain hplain
    · apply agree_create_iff hposs hagree hcmd
      rw [Runner.run, hcmd]
      exact registering_exec (within_createRequest definer schedule description proc)
    · cases enable with
      | true =>
        apply agree_enable_iff hs hposs hagree hcmd
        rw [Runner.run, hcmd]
        exact registering_exec within_alterRequest
      | false =>
        apply agree_disable_iff hs hposs hagree hcmd
        rw [Runner.run, hcmd]
        exact disabling_exec

/-- Names stay unique. -/
def StaysTidy (t t' : Timer q) : Prop := Tidy t.store → Tidy t'.store

instance : Std.Refl (StaysTidy (q := q)) := ⟨fun _ => id⟩

instance : IsTrans (Timer q) StaysTidy := ⟨fun _ _ _ h h' hs => h' (h hs)⟩

lemma staysTidy_onScheduler (m : Handler q.Scheduler Unit) :
    Handler.Keeps StaysTidy (Runner.onScheduler m) := fun _ => id

lemma staysTidy_ask (exchange : Exchange) (m : Handler q.Scheduler Unit) :
    Handler.Keeps StaysTidy (Runner.ask exchange m) := by
  cases exchange with
  | lost => exact .throw _
  | late => exact (staysTidy_onScheduler m).bind fun _ => .throw _
  | answered => exact staysTidy_onScheduler m

lemma staysTidy_read {α : Type} {m : DBIO α} (h : Action.Within [] m) :
    Handler.Keeps (StaysTidy (q := q)) (Runner.onCatalog m) := by
  intro t hs
  have heq : (m.run t.store).2 = t.store := h.eq t.store
  show Tidy (m.run t.store).2
  rwa [heq]

lemma staysTidy_command (horg : Kind.organizations ∉ query.cmd.writes) :
    Handler.Keeps (StaysTidy (q := q)) (do
      let _ ← Runner.onCatalog (query.cmd.run query.env query.session query.now)) := by
  refine Handler.Keeps.bind (fun t hs => ?_) fun _ => .pure ()
  have hwithin := (query.cmd.run_within query.env query.session query.now).exec t.store
  exact ⟨hs.organizations.of_eq (hwithin _ horg), Command.uniqueEvents horg hs.events⟩

lemma staysTidy_registering (horg : Kind.organizations ∉ query.cmd.writes)
    (hread : Action.Within [] request) :
    Handler.Keeps (StaysTidy (q := q)) (Runner.registering query request) :=
  (staysTidy_read hread).bind fun _ => (staysTidy_ask _ _).bind fun _ => staysTidy_command horg

lemma staysTidy_run (horg : Kind.organizations ∉ query.cmd.writes) :
    Handler.Keeps (StaysTidy (q := q)) (Runner.run query) := by
  rw [Runner.run]
  split
  · exact .ite (staysTidy_registering horg (within_createRequest _ _ _ _)) (staysTidy_command horg)
  · exact .ite (staysTidy_registering horg within_alterRequest)
      ((staysTidy_ask _ _).bind fun _ => staysTidy_command horg)
  · exact staysTidy_command horg

lemma Tidy.step {event : TimerEvent} (hs : Tidy t.store) (hposs : event.Possible t) :
    Tidy (t.step event).store := by
  cases event with
  | query sent => exact staysTidy_run hposs.sameOrganizations t hs
  | startTimer => exact hs

lemma agree_step_iff {event : TimerEvent} (hs : Tidy t.store) (hagree : Agree t)
    (hposs : event.Possible t) : Agree (t.step event) ↔ event.Orderly t := by
  cases event with
  | query sent => exact agree_run_iff hs hposs hagree
  | startTimer =>
    constructor
    · intro h k
      apply Bool.eq_false_iff.mpr
      intro hjob
      have hnew := (h k).mpr ((hagree k).mp hjob)
      exact Bool.false_ne_true ((q.hasJob_started k).symm.trans hnew)
    · intro h k
      refine iff_of_false (fun hjob => ?_) fun henabled => ?_
      · exact Bool.false_ne_true ((q.hasJob_started k).symm.trans hjob)
      · exact Bool.false_ne_true ((h k).symm.trans ((hagree k).mpr henabled))

/-- All along the run, just the events that are enabled have a job. -/
def AlwaysAgree (t : Timer q) (events : List TimerEvent) : Prop :=
  ∀ earlier, earlier <+: events → Agree (earlier.foldl Timer.step t)

/-- The jobs agree with the events all along a run if and only if every step of it is orderly. -/
theorem always_agree_iff {events : List TimerEvent} (hs : Tidy t.store) (hagree : Agree t)
    (hposs : EachStep Timer.step TimerEvent.Possible t events) :
    AlwaysAgree t events ↔ EachStep Timer.step TimerEvent.Orderly t events :=
  forall_prefix_iff (I := fun t => Tidy t.store) (fun _ _ hs hposs => hs.step hposs)
    (fun _ _ hs hagree hposs => agree_step_iff hs hagree hposs) hs hagree hposs

/-- A scheduler whose jobs all have their trigger and always fire. -/
def jobList : Quartz where
  Scheduler := List JobKey
  started := []
  hasJob σ k := decide (k ∈ σ)
  hasTrigger σ k := decide (k ∈ σ)
  describe cronExpr := .ok cronExpr
  fires _ _ := true
  addJob e σ := e.key :: σ
  scheduleJob e _ σ := if e.key ∈ σ then .error "The job is there already." else .ok (e.key :: σ)
  rescheduleJob _ _ σ := .ok σ
  deleteJob key σ := σ.filter fun k => decide (k ≠ key)
  hasJob_started _ := rfl
  hasJob_of_hasTrigger _ _ := id
  hasJob_addJob _ _ _ := by simp
  scheduleJob_ok_iff e now σ := by by_cases h : e.key ∈ σ <;> simp [h]
  hasJob_scheduleJob e now σ σ' h k := by
    split at h
    · cases h
    · cases h
      simp
  hasJob_deleteJob key σ k := by simp [and_comm]

/-- What sa sends, with the timer in service and the master answering. -/
def queryOfSa (cmd : Command) : TimerEvent :=
  .query
    { session := sessionOfSa
      cmd := cmd
      env := plainEnv
      now := 0
      checkTimedService := true
      exchange := .answered }

/-- An enabled event is created, and the master is started again. -/
def enabledAtRestart : List TimerEvent :=
  [queryOfSa (.createProcedure "p" [] "mql" false),
    queryOfSa (.createTimedEvent "e" none "0 0 * * * ?" none "p" true false), .startTimer]

omit [Names] in
/-- The event stays enabled and has no job any more. -/
theorem always_agree_iff_enabledAtRestart :
    let _ := exactNames
    ¬AlwaysAgree (Timer.mk (q := jobList) saAndBob []) enabledAtRestart := by
  intro _ h
  have hposs : EachStep Timer.step TimerEvent.Possible (Timer.mk (q := jobList) saAndBob [])
      enabledAtRestart :=
    ⟨⟨⟨rowOfA, by decide +kernel, rfl, rfl⟩, by decide⟩,
      ⟨⟨rowOfA, by decide +kernel, rfl, rfl⟩, by decide⟩, trivial, trivial⟩
  have htidy : Tidy saAndBob := by
    constructor
    · intro r hr r' hr' _ _ _
      exact (List.mem_singleton.mp hr).trans (List.mem_singleton.mp hr').symm
    · intro r hr
      exact absurd hr List.not_mem_nil
  have hstart : Agree (Timer.mk (q := jobList) saAndBob []) := by
    intro k
    refine iff_of_false Bool.false_ne_true ?_
    rintro ⟨_, _, e, he, _⟩
    exact absurd he List.not_mem_nil
  have hlost := ((always_agree_iff htidy hstart hposs).mp h).2.2.1 ⟨"e", "a"⟩
  revert hlost
  decide +kernel

end Agreement

end Moonbox.Interactive
