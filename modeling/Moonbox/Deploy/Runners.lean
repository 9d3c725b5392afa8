import Moonbox.Deploy.Registration

/-!
# Runners within reach

A kill request, the lists of drivers that a new master is given and the shutdown hook look in
`drivers`, where a runner stands under the id of its driver. There it stays until the worker is told
that it has ended, unless another driver with its id is launched.
-/

namespace Moonbox.Deploy

open Actor

namespace MoonboxWorker

/-- The worker has not been told yet that the runner has ended. -/
def Unsettled (s : MoonboxWorker) (r : RunnerRef) : Prop :=
  r < s.nextRunner ∧
    ((s.runner r).ended = false ∨ ∃ p ∈ s.mailbox, p.1 = r ∧ p.2.state.isFinished = true)

/-- Every such runner is in `drivers`. -/
def WithinReach (s : MoonboxWorker) : Prop :=
  ∀ r, s.Unsettled r → s.drivers.lookup (s.runner r).driverId = some r

/-- A launch uses an id that no driver of the worker has. -/
def LaunchesNew (s : MoonboxWorker) : Event → Prop
  | .receive _ (.launchDriver driverId _) _ => s.terminated = false → driverId ∉ s.drivers
  | _ => True

/-- What `drivers` and the mailbox say of the runners is true, and no runner ends twice. -/
structure Accounts (s : MoonboxWorker) : Prop where
  tracked : ∀ driverId r, s.drivers.lookup driverId = some r →
    s.Unsettled r ∧ (s.runner r).driverId = driverId
  reports : ∀ p ∈ s.mailbox, p.1 < s.nextRunner ∧ p.2.driverId = (s.runner p.1).driverId ∧
    (p.2.state.isFinished = true → (s.runner p.1).ended = true)
  once : ((s.mailbox.filter fun p => p.2.state.isFinished).map Prod.fst).Nodup

/-! ### What leaves the accounts alone -/

structure SameAccounts (s s' : MoonboxWorker) : Prop where
  drivers : s'.drivers = s.drivers
  nextRunner : s'.nextRunner = s.nextRunner
  mailbox : s'.mailbox = s.mailbox
  driverId : ∀ r, (s'.runner r).driverId = (s.runner r).driverId
  desc : ∀ r, (s'.runner r).desc = (s.runner r).desc
  ended : ∀ r, (s'.runner r).ended = (s.runner r).ended

section SameAccounts

variable {s s' s'' : MoonboxWorker}

lemma SameAccounts.of_eq (hdrivers : s'.drivers = s.drivers) (hnext : s'.nextRunner = s.nextRunner)
    (hmailbox : s'.mailbox = s.mailbox) (hrunner : s'.runner = s.runner) : SameAccounts s s' :=
  ⟨hdrivers, hnext, hmailbox, fun _ => by rw [hrunner], fun _ => by rw [hrunner],
    fun _ => by rw [hrunner]⟩

lemma SameAccounts.refl (s : MoonboxWorker) : SameAccounts s s := .of_eq rfl rfl rfl rfl

lemma SameAccounts.trans (h : SameAccounts s s') (h' : SameAccounts s' s'') : SameAccounts s s'' :=
  ⟨h'.drivers.trans h.drivers, h'.nextRunner.trans h.nextRunner, h'.mailbox.trans h.mailbox,
    fun r => (h'.driverId r).trans (h.driverId r), fun r => (h'.desc r).trans (h.desc r),
    fun r => (h'.ended r).trans (h.ended r)⟩

lemma SameAccounts.unsettled_iff (h : SameAccounts s s') (r : RunnerRef) :
    s'.Unsettled r ↔ s.Unsettled r := by
  rw [Unsettled, h.nextRunner, h.ended, h.mailbox, Unsettled]

lemma SameAccounts.withinReach_iff (h : SameAccounts s s') : s'.WithinReach ↔ s.WithinReach := by
  refine forall_congr' fun r => ?_
  rw [h.unsettled_iff, h.drivers, h.driverId]

lemma Accounts.frame (h : Accounts s) (hsame : SameAccounts s s') : Accounts s' where
  tracked driverId r hr := by
    rw [hsame.drivers] at hr
    rw [hsame.unsettled_iff, hsame.driverId]
    exact h.tracked driverId r hr
  reports p hp := by
    rw [hsame.mailbox] at hp
    rw [hsame.nextRunner, hsame.driverId, hsame.ended]
    exact h.reports p hp
  once := by
    rw [hsame.mailbox]
    exact h.once

lemma SameAccounts.updateRunner (r : RunnerRef) {f : DriverRunner → DriverRunner}
    (hid : ∀ runner, (f runner).driverId = runner.driverId)
    (hdesc : ∀ runner, (f runner).desc = runner.desc)
    (hended : ∀ runner, (f runner).ended = runner.ended) (s : MoonboxWorker) :
    SameAccounts s (s.updateRunner r f) := by
  refine ⟨rfl, rfl, rfl, fun r' => ?_, fun r' => ?_, fun r' => ?_⟩
  all_goals
    rw [MoonboxWorker.updateRunner]
    by_cases hr : r' = r
    · subst hr
      simp [hid, hdesc, hended]
    · simp [hr]

lemma SameAccounts.send (receiver : ActorRef) (message : Message) (s : MoonboxWorker) :
    SameAccounts s (s.send receiver message) := .of_eq rfl rfl rfl rfl

lemma SameAccounts.sendToMaster (message : Message) (s : MoonboxWorker) :
    SameAccounts s (s.sendToMaster message) := by
  rw [MoonboxWorker.sendToMaster]
  split
  · exact .send _ message s
  · exact .refl s

lemma SameAccounts.registerWithMaster (s : MoonboxWorker) : SameAccounts s s.registerWithMaster := by
  rw [MoonboxWorker.registerWithMaster]
  split
  · exact .of_eq rfl rfl rfl rfl
  · exact .refl s

lemma SameAccounts.foldl {α : Type} {f : MoonboxWorker → α → MoonboxWorker}
    (h : ∀ s a, SameAccounts s (f s a)) (as : List α) (s : MoonboxWorker) :
    SameAccounts s (as.foldl f s) := by
  induction as generalizing s with
  | nil => exact .refl s
  | cons a as ih => exact (h s a).trans (ih (f s a))

lemma SameAccounts.killDriver (driverId : String) (s : MoonboxWorker) :
    SameAccounts s (s.killDriver driverId) := by
  rw [MoonboxWorker.killDriver]
  split
  · rename_i r _
    exact .updateRunner r (f := DriverRunner.kill) (fun _ => rfl) (fun _ => rfl) (fun _ => rfl) s
  · exact .refl s

lemma SameAccounts.onWorkerExit (s : MoonboxWorker) (r : RunnerRef) :
    SameAccounts s (s.onWorkerExit r) := by
  rw [MoonboxWorker.onWorkerExit]
  split
  · rename_i am _
    refine .updateRunner r (fun runner => ?_) (fun runner => ?_) (fun runner => ?_) s <;>
      cases am <;> rfl
  · exact .refl s

lemma SameAccounts.gracefullyShutdown (s : MoonboxWorker) : SameAccounts s s.gracefullyShutdown :=
  (foldl SameAccounts.onWorkerExit _ s).trans (.of_eq rfl rfl rfl rfl)

lemma SameAccounts.tryRegisterAllMasters (s : MoonboxWorker) :
    SameAccounts s s.tryRegisterAllMasters := by
  have hcount : SameAccounts s { s with connectionAttemptCount := s.connectionAttemptCount + 1 } :=
    .of_eq rfl rfl rfl rfl
  rw [MoonboxWorker.tryRegisterAllMasters]
  simp only
  split
  · exact .of_eq rfl rfl rfl rfl
  · split
    · exact hcount.trans (foldl (fun s a => .send a _ s) _ _)
    · exact hcount.trans (.gracefullyShutdown _)

lemma SameAccounts.onDisconnected (pathAddress : ActorRef → Address) (remoteAddress : Address)
    (s : MoonboxWorker) : SameAccounts s (s.onDisconnected pathAddress remoteAddress) := by
  rw [MoonboxWorker.onDisconnected]
  split
  · have hconnected : SameAccounts s { s with connected := false } := .of_eq rfl rfl rfl rfl
    exact hconnected.trans (.registerWithMaster _)
  · exact .refl s

end SameAccounts

/-! ### Launches and reports -/

section Accounts

variable {s : MoonboxWorker}

lemma Accounts.drivers_lt (h : Accounts s) {driverId : String} {r : RunnerRef}
    (hr : s.drivers.lookup driverId = some r) : r < s.nextRunner := (h.tracked driverId r hr).1.1

section Launch

variable (masterRef : ActorRef) (driverId : String) (desc : DriverDesc) (now : Nat)

lemma runner_launchDriver {r : RunnerRef} (hr : r < s.nextRunner) :
    (s.launchDriver masterRef driverId desc now).runner r = s.runner r := by
  rw [launchDriver]
  exact Function.update_of_ne (Nat.ne_of_lt hr) _ _

lemma unsettled_launchDriver (r : RunnerRef) :
    (s.launchDriver masterRef driverId desc now).Unsettled r ↔
      r = s.nextRunner ∨ s.Unsettled r := by
  by_cases hr : r = s.nextRunner
  · subst hr
    simp [Unsettled, launchDriver]
  · have hlt : r < s.nextRunner + 1 ↔ r < s.nextRunner :=
      Nat.lt_succ_iff_lt_or_eq.trans (or_iff_left hr)
    simp [Unsettled, launchDriver, hr, hlt]

lemma lookup_launchDriver (i : String) :
    (s.launchDriver masterRef driverId desc now).drivers.lookup i =
      if i = driverId then some s.nextRunner else s.drivers.lookup i := by
  rw [launchDriver]
  split
  · rename_i hi
    rw [hi, AList.lookup_insert]
  · rename_i hi
    rw [AList.lookup_insert_ne hi]

lemma driverId_launchDriver :
    ((s.launchDriver masterRef driverId desc now).runner s.nextRunner).driverId = driverId := by
  simp only [launchDriver, Function.update_self]

lemma Accounts.launchDriver (h : Accounts s) :
    Accounts (s.launchDriver masterRef driverId desc now) where
  tracked i r hr := by
    rw [lookup_launchDriver] at hr
    rw [unsettled_launchDriver]
    split at hr
    · rename_i hi
      obtain rfl := Option.some.inj hr
      exact ⟨.inl rfl, (driverId_launchDriver ..).trans hi.symm⟩
    · obtain ⟨hunsettled, hid⟩ := h.tracked i r hr
      rw [runner_launchDriver _ _ _ _ hunsettled.1]
      exact ⟨.inr hunsettled, hid⟩
  reports p hp := by
    obtain ⟨hlt, hid, hended⟩ := h.reports p hp
    rw [runner_launchDriver _ _ _ _ hlt]
    exact ⟨Nat.lt_succ_of_lt hlt, hid, hended⟩
  once := h.once

/-- A launch takes a runner out of reach exactly if there is one with its id. -/
lemma withinReach_launchDriver_iff (h : Accounts s) (hreach : s.WithinReach) :
    (s.launchDriver masterRef driverId desc now).WithinReach ↔ driverId ∉ s.drivers := by
  constructor
  · intro hreach' hmem
    obtain ⟨r, hr⟩ := Option.isSome_iff_exists.mp (AList.lookup_isSome.mpr hmem)
    obtain ⟨hunsettled, hid⟩ := h.tracked driverId r hr
    have hlookup := hreach' r ((unsettled_launchDriver _ _ _ _ r).mpr (.inr hunsettled))
    rw [runner_launchDriver _ _ _ _ hunsettled.1, lookup_launchDriver, if_pos hid] at hlookup
    exact Nat.ne_of_lt hunsettled.1 (Option.some.inj hlookup).symm
  · intro hnew r hr
    rw [lookup_launchDriver]
    rcases (unsettled_launchDriver _ _ _ _ r).mp hr with rfl | hr
    · rw [if_pos (driverId_launchDriver ..)]
    · have hold := hreach r hr
      rw [runner_launchDriver _ _ _ _ hr.1, if_neg ?_]
      · exact hold
      · rintro rfl
        exact hnew (AList.lookup_isSome.mp (Option.isSome_iff_exists.mpr ⟨r, hold⟩))

end Launch

section Report

variable {r : RunnerRef} (state : DriverState) (appId exception : Option String) (now : Nat)

lemma runner_report (r' : RunnerRef) :
    ((s.report r state appId exception now).runner r').driverId = (s.runner r').driverId ∧
      ((s.report r state appId exception now).runner r').desc = (s.runner r').desc ∧
      ((s.report r state appId exception now).runner r').ended =
        if r' = r then (s.runner r).ended || state.isFinished else (s.runner r').ended := by
  simp only [report, updateRunner, Function.update_apply]
  split
  · rename_i hr
    rw [hr]
    exact ⟨rfl, rfl, rfl⟩
  · exact ⟨rfl, rfl, rfl⟩

lemma unsettled_report (hended : (s.runner r).ended = false) (r' : RunnerRef) :
    (s.report r state appId exception now).Unsettled r' ↔ s.Unsettled r' := by
  have hmailbox : (s.report r state appId exception now).mailbox = s.mailbox ++
      [(r, ⟨(s.runner r).driverId, state, appId, exception, now⟩)] := rfl
  rw [Unsettled, Unsettled, (runner_report state appId exception now r').2.2, hmailbox]
  refine and_congr_right fun _ => ?_
  split
  · rename_i hr
    subst hr
    cases hfinal : state.isFinished <;> simp [hended, hfinal]
  · rename_i hr
    simp [Ne.symm hr]

lemma Accounts.report (h : Accounts s) (hlt : r < s.nextRunner)
    (hended : (s.runner r).ended = false) : Accounts (s.report r state appId exception now) where
  tracked i r' hr' := by
    rw [unsettled_report state appId exception now hended, (runner_report ..).1]
    exact h.tracked i r' hr'
  reports p hp := by
    rw [(runner_report ..).1, (runner_report ..).2.2]
    rcases List.mem_append.mp hp with hp | hp
    · obtain ⟨hlt', hid, hfinal⟩ := h.reports p hp
      refine ⟨hlt', hid, fun hf => ?_⟩
      split
      · rename_i hr
        rw [← hr, hfinal hf, Bool.true_or]
      · exact hfinal hf
    · rw [List.mem_singleton.mp hp]
      refine ⟨hlt, rfl, fun hf => ?_⟩
      rw [if_pos rfl, hf, Bool.or_true]
  once := by
    have hmailbox : (s.report r state appId exception now).mailbox = s.mailbox ++
        [(r, ⟨(s.runner r).driverId, state, appId, exception, now⟩)] := rfl
    rw [hmailbox, List.filter_append, List.map_append, List.nodup_append]
    refine ⟨h.once, ?_, fun r₁ hr₁ r₂ hr₂ => ?_⟩
    · cases hfinal : state.isFinished <;> simp [hfinal]
    · rintro rfl
      obtain ⟨p, hp, rfl⟩ := List.mem_map.mp hr₁
      obtain ⟨q, hq, hqr⟩ := List.mem_map.mp hr₂
      rw [List.mem_filter] at hp hq
      rw [List.mem_singleton.mp hq.1] at hqr
      have hfinal := (h.reports p hp.1).2.2 hp.2
      rw [← hqr, hended] at hfinal
      exact absurd hfinal (by simp)

end Report

section Handle

variable {r : RunnerRef} {change : DriverStateChanged} {rest : List (RunnerRef × DriverStateChanged)}

lemma lookup_finishDriver (driverId i : String) :
    (s.finishDriver driverId).drivers.lookup i =
      if i = driverId then none else s.drivers.lookup i := by
  rw [finishDriver]
  split
  · split
    · rename_i hi
      rw [hi, AList.lookup_erase]
    · rename_i hi
      rw [AList.lookup_erase_ne hi]
  · rename_i hnone
    split
    · rename_i hi
      rw [hi, hnone]
    · rfl

lemma finishDriver_others (driverId : String) (s : MoonboxWorker) :
    (s.finishDriver driverId).nextRunner = s.nextRunner ∧
      (s.finishDriver driverId).mailbox = s.mailbox ∧
        (s.finishDriver driverId).runner = s.runner := by
  rw [finishDriver]
  split <;> exact ⟨rfl, rfl, rfl⟩

/-- The state in which the next report has been handled, up to what is sent. -/
def settle (change : DriverStateChanged) (rest : List (RunnerRef × DriverStateChanged))
    (s : MoonboxWorker) : MoonboxWorker :=
  if change.state.isFinished then finishDriver change.driverId { s with mailbox := rest }
  else { s with mailbox := rest }

lemma settle_others (s : MoonboxWorker) (change : DriverStateChanged)
    (rest : List (RunnerRef × DriverStateChanged)) : (s.settle change rest).nextRunner = s.nextRunner ∧
    (s.settle change rest).mailbox = rest ∧ (s.settle change rest).runner = s.runner := by
  rw [settle]
  split
  · exact finishDriver_others change.driverId { s with mailbox := rest }
  · exact ⟨rfl, rfl, rfl⟩

lemma lookup_settle (i : String) : (s.settle change rest).drivers.lookup i =
    if change.state.isFinished ∧ i = change.driverId then none else s.drivers.lookup i := by
  rw [settle]
  cases change.state.isFinished with
  | true => simpa using lookup_finishDriver (s := { s with mailbox := rest }) change.driverId i
  | false => simp

lemma unsettled_settle (h : Accounts s) (hmailbox : s.mailbox = (r, change) :: rest)
    (r' : RunnerRef) : (s.settle change rest).Unsettled r' ↔
      s.Unsettled r' ∧ ¬ (change.state.isFinished ∧ r' = r) := by
  obtain ⟨hnext, hrest, hrunner⟩ := settle_others s change rest
  have honce := h.once
  have hreport := h.reports (r, change) (hmailbox ▸ List.mem_cons_self)
  rw [hmailbox] at honce
  rw [Unsettled, Unsettled, hnext, hrest, hrunner, hmailbox, and_assoc]
  refine and_congr_right fun _ => ?_
  cases hfinal : change.state.isFinished with
  | false => simp [hfinal]
  | true =>
    rw [List.filter_cons_of_pos (by simpa using hfinal), List.map_cons, List.nodup_cons] at honce
    by_cases hr : r' = r
    · subst hr
      simp only [hreport.2.2 hfinal, Bool.true_eq_false, false_or, and_self, not_true_eq_false,
        and_false, iff_false]
      rintro ⟨p, hp, hpr, hpf⟩
      exact honce.1 (List.mem_map.mpr ⟨p, List.mem_filter.mpr ⟨hp, hpf⟩, hpr⟩)
    · simp [hr, Ne.symm hr]

lemma Accounts.settle (h : Accounts s) (hmailbox : s.mailbox = (r, change) :: rest) :
    Accounts (s.settle change rest) := by
  obtain ⟨hnext, hrest, hrunner⟩ := settle_others s change rest
  refine ⟨fun i r' hr' => ?_, fun p hp => ?_, ?_⟩
  · rw [lookup_settle] at hr'
    split at hr'
    · cases hr'
    · rename_i hnot
      obtain ⟨hunsettled, hid⟩ := h.tracked i r' hr'
      rw [unsettled_settle h hmailbox, hrunner]
      refine ⟨⟨hunsettled, fun hc => hnot ⟨hc.1, ?_⟩⟩, hid⟩
      have hreport := h.reports (r, change) (hmailbox ▸ List.mem_cons_self)
      rw [← hid, hc.2]
      exact hreport.2.1.symm
  · rw [hrest] at hp
    rw [hnext, hrunner]
    exact h.reports p (hmailbox ▸ List.mem_cons_of_mem (r, change) hp)
  · have honce := h.once
    rw [hmailbox] at honce
    rw [hrest]
    exact honce.sublist (((List.sublist_cons_self (r, change) rest).filter _).map _)

/-- A report takes no other runner out of reach than the one it is about. -/
lemma withinReach_settle (h : Accounts s) (hmailbox : s.mailbox = (r, change) :: rest)
    (hreach : s.WithinReach) : (s.settle change rest).WithinReach := by
  obtain ⟨-, -, hrunner⟩ := settle_others s change rest
  intro r' hr'
  obtain ⟨hunsettled, hother⟩ := (unsettled_settle h hmailbox r').mp hr'
  have hlookup := hreach r' hunsettled
  rw [hrunner, lookup_settle, if_neg, hlookup]
  rintro ⟨hfinal, hid⟩
  obtain ⟨hlt, hid', hended⟩ := h.reports (r, change) (hmailbox ▸ List.mem_cons_self)
  have hr := hreach r ⟨hlt, .inr ⟨(r, change), hmailbox ▸ List.mem_cons_self, rfl, hfinal⟩⟩
  rw [← hid', ← hid, hlookup, Option.some.injEq] at hr
  exact hother ⟨hfinal, hr⟩

end Handle

/-! ### Runs -/

variable {pathAddress : ActorRef → Address}

/-- What a step does to the accounts: none at all, a launch, a report or the handling of one. -/
inductive Books (s : MoonboxWorker) : Event → MoonboxWorker → Prop
  | same {event s'} (h : SameAccounts s s') (hnew : s.LaunchesNew event) : Books s event s'
  | launch {s'} (masterRef : ActorRef) (driverId : String) (desc : DriverDesc) (now : Nat)
      (hrunning : s.terminated = false) (h : s' = s.launchDriver masterRef driverId desc now) :
      Books s (.receive masterRef (.launchDriver driverId desc) now) s'
  | report {event s'} (r : RunnerRef) (state : DriverState) (appId exception : Option String)
      (now : Nat) (hlt : r < s.nextRunner) (hended : (s.runner r).ended = false)
      (hnew : s.LaunchesNew event) (h : s' = s.report r state appId exception now) :
      Books s event s'
  | settle {event s'} (r : RunnerRef) (change : DriverStateChanged)
      (rest : List (RunnerRef × DriverStateChanged)) (hmailbox : s.mailbox = (r, change) :: rest)
      (hnew : s.LaunchesNew event) (h : SameAccounts (s.settle change rest) s') : Books s event s'

lemma books_handleMessage (hrunning : s.terminated = false) (masterRef : ActorRef)
    (message : Outgoing) (now : Nat) :
    Books s (.receive masterRef message now) (handleMessage pathAddress masterRef now s message) := by
  cases message with
  | registeredWorker => exact .same (.of_eq rfl rfl rfl rfl) trivial
  | registerWorkerFailed message =>
    refine .same ?_ trivial
    simp only [handleMessage]
    split
    · exact .refl s
    · exact .gracefullyShutdown s
  | masterChanged => exact .same (.of_eq rfl rfl rfl rfl) trivial
  | reconnectWorker => exact .same (.registerWithMaster s) trivial
  | launchDriver driverId desc => exact .launch masterRef driverId desc now hrunning rfl
  | killDriver driverId => exact .same (.killDriver driverId s) trivial
  | masterInStandby | registeredApplication | registerApplicationFailed | driverStateChanged
  | requestSubmitDriver | submitDriverResponse | killDriverResponse | driverStatusResponse
  | allDriverStatusResponse => exact .same (.refl s) trivial

lemma books_step (pathAddress : ActorRef → Address) {event : Event} (hpossible : Possible s event) :
    Books s event (s.step pathAddress event) := by
  rw [step]
  by_cases ht : s.terminated = true
  · rw [if_pos ht]
    refine .same (.refl s) ?_
    cases event with
    | receive masterRef message now => cases message <;> simp [LaunchesNew, ht]
    | _ => trivial
  · rw [if_neg ht]
    have hrunning : s.terminated = false := Bool.eq_false_iff.mpr ht
    cases event with
    | receive masterRef message now => exact books_handleMessage hrunning masterRef message now
    | sendHeartbeat =>
      refine .same ?_ trivial
      simp only [handle]
      split
      · exact .sendToMaster _ s
      · exact .refl s
    | tryRegister timer => exact .same (.tryRegisterAllMasters s) trivial
    | disassociated localAddress remoteAddress =>
      refine .same ?_ trivial
      simp only [handle]
      split
      · exact .onDisconnected pathAddress remoteAddress s
      · exact .refl s
    | driverStateChanged =>
      cases hmailbox : s.mailbox with
      | nil =>
        refine .same ?_ trivial
        simp only [handle, hmailbox]
        exact .refl s
      | cons p rest =>
        obtain ⟨r, change⟩ := p
        refine .settle r change rest hmailbox trivial ?_
        simp only [handle, hmailbox, handleDriverStateChanged]
        exact .sendToMaster _ _
    | assignHandle r =>
      exact .same (.updateRunner r (f := ({ · with sparkAppHandle := true })) (fun _ => rfl)
        (fun _ => rfl) (fun _ => rfl) s) trivial
    | assignProcess r =>
      exact .same (.updateRunner r (f := ({ · with process := true })) (fun _ => rfl)
        (fun _ => rfl) (fun _ => rfl) s) trivial
    | stateChanged r state appId now => exact .report r _ _ _ _ hpossible.1 hpossible.2 trivial rfl
    | launchFailed r exception now => exact .report r _ _ _ _ hpossible.1 hpossible.2 trivial rfl

/-- The runners of a worker are those of before. -/
structure StartsNone (s : MoonboxWorker) (event : Event) (s' : MoonboxWorker) : Prop where
  nextRunner : s'.nextRunner = s.nextRunner
  driverId : ∀ r, (s'.runner r).driverId = (s.runner r).driverId
  desc : ∀ r, (s'.runner r).desc = (s.runner r).desc
  launchesNew : s.LaunchesNew event

lemma starts_of_step (pathAddress : ActorRef → Address) {event : Event} (hpossible : Possible s event) :
    StartsNone s event (s.step pathAddress event) ∨
      ∃ masterRef driverId desc now,
        event = .receive masterRef (.launchDriver driverId desc) now ∧
          s.step pathAddress event = s.launchDriver masterRef driverId desc now := by
  have hbooks := books_step pathAddress hpossible
  generalize s.step pathAddress event = s' at hbooks
  cases hbooks with
  | same hsame hnew => exact .inl ⟨hsame.nextRunner, hsame.driverId, hsame.desc, hnew⟩
  | launch masterRef driverId desc now _ hs => exact .inr ⟨masterRef, driverId, desc, now, rfl, hs⟩
  | report r state appId exception now _ _ hnew hs =>
    rw [hs]
    exact .inl ⟨rfl, fun _ => (runner_report ..).1, fun _ => (runner_report ..).2.1, hnew⟩
  | settle r change rest _ hnew hsame =>
    obtain ⟨hnext, -, hrunner⟩ := settle_others s change rest
    refine .inl ⟨hsame.nextRunner.trans hnext, fun r' => ?_, fun r' => ?_, hnew⟩
    · rw [hsame.driverId, hrunner]
    · rw [hsame.desc, hrunner]

lemma Accounts.step (h : Accounts s) {event : Event} (hpossible : Possible s event) :
    Accounts (s.step pathAddress event) := by
  cases books_step pathAddress hpossible with
  | same hsame _ => exact h.frame hsame
  | launch masterRef driverId desc now _ hs =>
    rw [hs]
    exact h.launchDriver masterRef driverId desc now
  | report r state appId exception now hlt hended _ hs =>
    rw [hs]
    exact h.report state appId exception now hlt hended
  | settle r change rest hmailbox _ hsame => exact (h.settle hmailbox).frame hsame

lemma withinReach_step_iff (h : Accounts s) (hreach : s.WithinReach) {event : Event}
    (hpossible : Possible s event) :
    (s.step pathAddress event).WithinReach ↔ s.LaunchesNew event := by
  have hbooks := books_step pathAddress hpossible
  generalize s.step pathAddress event = s' at hbooks
  cases hbooks with
  | same hsame hnew => exact iff_of_true (hsame.withinReach_iff.mpr hreach) hnew
  | launch masterRef driverId desc now hrunning hs =>
    rw [hs, withinReach_launchDriver_iff masterRef driverId desc now h hreach]
    exact ⟨fun hnew _ => hnew, fun hnew => hnew hrunning⟩
  | report r state appId exception now hlt hended hnew hs =>
    refine iff_of_true ?_ hnew
    intro r' hr'
    rw [hs, unsettled_report state appId exception now hended] at hr'
    rw [hs, (runner_report ..).1]
    exact hreach r' hr'
  | settle r change rest hmailbox hnew hsame =>
    exact iff_of_true (hsame.withinReach_iff.mpr (withinReach_settle h hmailbox hreach)) hnew

lemma Accounts.start (param : WorkerParam) : Accounts (.start param) :=
  ⟨fun _ _ hr => absurd hr (by simp [MoonboxWorker.start, registerWithMaster]),
    fun _ hp => absurd hp List.not_mem_nil, List.nodup_nil⟩

/-- All runners whose end the worker has not been told of stay within its reach in exactly the runs
in which no driver is launched under an id that a driver of the worker has. -/
theorem runners_within_reach_iff (pathAddress : ActorRef → Address) (param : WorkerParam)
    (events : List Event) (h : EachStep (step pathAddress) Possible (.start param) events) :
    (∀ earlier, earlier <+: events → (run pathAddress (.start param) earlier).WithinReach) ↔
      EachStep (step pathAddress) LaunchesNew (.start param) events :=
  forall_prefix_iff (fun _ _ hs => hs.step) (fun _ _ hs ht => withinReach_step_iff hs ht)
    (.start param) (fun _ hr => absurd hr.1 (Nat.not_lt_zero _)) h

/-- Two drivers are launched, one of them ends, and another with its id is launched. -/
abbrev threeLaunches : List Event :=
  [.receive "m" (.launchDriver "a" default) 1, .receive "m" (.launchDriver "b" default) 2,
    .stateChanged 0 .finished none 3, .driverStateChanged,
    .receive "m" (.launchDriver "a" default) 4]

theorem runners_within_reach_iff_launched : (run id (.start default) threeLaunches).WithinReach :=
  (runners_within_reach_iff id default threeLaunches
    ⟨trivial, trivial, ⟨by decide, by decide⟩, trivial, trivial, trivial⟩).mpr
    ⟨fun _ => by decide, fun _ => by decide, trivial, trivial, fun _ => by decide, trivial⟩
    threeLaunches (List.prefix_refl threeLaunches)

end Accounts

end MoonboxWorker

end Moonbox.Deploy
