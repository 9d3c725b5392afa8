import Moonbox.Deploy.Worker

/-!
# How a worker finds its master

The worker as a machine of four phases: it retries, a new master has taken it over, it is
registered, or it has given up. A worker that has been taken over is connected but not registered,
and a refusal ends it as it ends a worker that retries.
-/

namespace Moonbox.Deploy

open Actor

namespace MoonboxWorker

/-! ### The phases -/

inductive Phase where
  /-- Registration is tried again and again; the number of attempts so far. -/
  | retrying (attempts : Nat)
  | adopted
  | registered
  | givenUp
  deriving DecidableEq, Repr

/-- The phase of a worker and the master it knows -/
structure Contact where
  phase : Phase
  master : Option ActorRef
  deriving DecidableEq, Repr

namespace Contact

/-- A worker that retries already goes on counting. -/
def retry (c : Contact) : Contact :=
  match c.phase with
  | .retrying _ => c
  | _ => { c with phase := .retrying 0 }

variable (pathAddress : ActorRef → Address) (address : Address)

def handle (c : Contact) : Event → Contact
  | .receive masterRef .registeredWorker _ => ⟨.registered, some masterRef⟩
  | .receive masterRef .masterChanged _ =>
    ⟨if c.phase = .registered then .registered else .adopted, some masterRef⟩
  | .receive _ (.registerWorkerFailed _) _ =>
    if c.phase = .registered then c else { c with phase := .givenUp }
  | .receive _ .reconnectWorker _ => c.retry
  | .disassociated localAddress remoteAddress =>
    if localAddress = address ∧ c.master.any (pathAddress · = remoteAddress) then c.retry else c
  | .tryRegister _ =>
    match c.phase with
    | .retrying attempts =>
      { c with phase := if attempts < 15 then .retrying (attempts + 1) else .givenUp }
    | _ => c
  | _ => c

def step (c : Contact) (event : Event) : Contact :=
  if c.phase = .givenUp then c else c.handle pathAddress address event

end Contact

/-- The phase of a worker -/
def contact (s : MoonboxWorker) : Contact :=
  { phase :=
      if s.terminated then .givenUp
      else if s.registerToMasterScheduler.isSome then .retrying s.connectionAttemptCount
      else if s.registered then .registered
      else .adopted
    master := s.master }

/-! ### The fields agree -/

/-- A worker that retries is not registered and has attempts left, one that does not is connected,
and the address it watches is that of its master. -/
structure Registration (pathAddress : ActorRef → Address) (s : MoonboxWorker) : Prop where
  unregistered : s.registerToMasterScheduler ≠ none → s.registered = false
  attempts : s.terminated = false → s.connectionAttemptCount ≤ 15
  connected : s.registerToMasterScheduler = none → s.connected = true
  address : s.masterAddressToConnect = s.master.map pathAddress

section Registration

variable {pathAddress : ActorRef → Address} {s s' : MoonboxWorker}

/-- The fields that the registration is about. -/
structure SameContact (s s' : MoonboxWorker) : Prop where
  param : s'.toWorkerParam = s.toWorkerParam
  master : s'.master = s.master
  masterAddressToConnect : s'.masterAddressToConnect = s.masterAddressToConnect
  registered : s'.registered = s.registered
  connected : s'.connected = s.connected
  connectionAttemptCount : s'.connectionAttemptCount = s.connectionAttemptCount
  registerToMasterScheduler : s'.registerToMasterScheduler = s.registerToMasterScheduler
  terminated : s'.terminated = s.terminated

lemma SameContact.refl (s : MoonboxWorker) : SameContact s s := ⟨rfl, rfl, rfl, rfl, rfl, rfl, rfl, rfl⟩

lemma SameContact.trans {s'' : MoonboxWorker} (h : SameContact s s') (h' : SameContact s' s'') :
    SameContact s s'' :=
  ⟨h'.param.trans h.param, h'.master.trans h.master,
    h'.masterAddressToConnect.trans h.masterAddressToConnect, h'.registered.trans h.registered,
    h'.connected.trans h.connected, h'.connectionAttemptCount.trans h.connectionAttemptCount,
    h'.registerToMasterScheduler.trans h.registerToMasterScheduler,
    h'.terminated.trans h.terminated⟩

lemma SameContact.contact (h : SameContact s s') : s'.contact = s.contact := by
  rw [MoonboxWorker.contact, h.terminated, h.registerToMasterScheduler, h.connectionAttemptCount,
    h.registered, h.master, MoonboxWorker.contact]

lemma Registration.frame (h : Registration pathAddress s) (hsame : SameContact s s') :
    Registration pathAddress s' where
  unregistered := by
    rw [hsame.registerToMasterScheduler, hsame.registered]
    exact h.unregistered
  attempts := by
    rw [hsame.terminated, hsame.connectionAttemptCount]
    exact h.attempts
  connected := by
    rw [hsame.registerToMasterScheduler, hsame.connected]
    exact h.connected
  address := by
    rw [hsame.masterAddressToConnect, hsame.master]
    exact h.address

lemma same_send (receiver : ActorRef) (message : Message) (s : MoonboxWorker) :
    SameContact s (s.send receiver message) := ⟨rfl, rfl, rfl, rfl, rfl, rfl, rfl, rfl⟩

lemma same_sendToMaster (message : Message) (s : MoonboxWorker) :
    SameContact s (s.sendToMaster message) := by
  rw [sendToMaster]
  split
  · exact same_send _ message s
  · exact .refl s

lemma same_finishDriver (driverId : String) (s : MoonboxWorker) :
    SameContact s (s.finishDriver driverId) := by
  rw [finishDriver]
  split
  · exact ⟨rfl, rfl, rfl, rfl, rfl, rfl, rfl, rfl⟩
  · exact .refl s

lemma same_handleDriverStateChanged (change : DriverStateChanged) (s : MoonboxWorker) :
    SameContact s (s.handleDriverStateChanged change) := by
  rw [handleDriverStateChanged]
  split
  · exact (same_finishDriver _ s).trans (same_sendToMaster _ _)
  · exact same_sendToMaster _ s

lemma same_killDriver (driverId : String) (s : MoonboxWorker) :
    SameContact s (s.killDriver driverId) := by
  rw [killDriver]
  split
  · exact ⟨rfl, rfl, rfl, rfl, rfl, rfl, rfl, rfl⟩
  · exact .refl s

lemma same_onWorkerExit (s : MoonboxWorker) (r : RunnerRef) : SameContact s (s.onWorkerExit r) := by
  rw [onWorkerExit]
  split
  · exact ⟨rfl, rfl, rfl, rfl, rfl, rfl, rfl, rfl⟩
  · exact .refl s

/-- A loop of steps none of which touches the contact -/
lemma same_foldl {α : Type} {f : MoonboxWorker → α → MoonboxWorker}
    (h : ∀ s a, SameContact s (f s a)) (as : List α) (s : MoonboxWorker) :
    SameContact s (as.foldl f s) := by
  induction as generalizing s with
  | nil => exact .refl s
  | cons a as ih => exact (h s a).trans (ih (f s a))

lemma gracefullyShutdown_eq (s : MoonboxWorker) : ∃ s', SameContact s s' ∧
    s.gracefullyShutdown = { s' with terminated := true } :=
  ⟨_, same_foldl same_onWorkerExit _ s, rfl⟩

/-- A step of the worker is one of its contact. -/
structure Follows (pathAddress : ActorRef → Address) (s s' : MoonboxWorker) (c : Contact) : Prop where
  registration : Registration pathAddress s'
  param : s'.toWorkerParam = s.toWorkerParam
  contact : s'.contact = c

lemma follows_of_same (h : Registration pathAddress s) (hsame : SameContact s s') :
    Follows pathAddress s s' s.contact := ⟨h.frame hsame, hsame.param, hsame.contact⟩

lemma Follows.same {s'' : MoonboxWorker} {c : Contact} (h : Follows pathAddress s s' c)
    (hsame : SameContact s' s'') : Follows pathAddress s s'' c :=
  ⟨h.registration.frame hsame, hsame.param.trans h.param, hsame.contact.trans h.contact⟩

lemma phase_eq_registered_iff (h : Registration pathAddress s) (hrunning : s.terminated = false) :
    s.contact.phase = .registered ↔ s.registered = true := by
  have hun := h.unregistered
  rw [contact, hrunning]
  cases ht : s.registerToMasterScheduler with
  | none => cases s.registered <;> simp
  | some t => simp [hun (by simp [ht])]

lemma registerWithMaster_of_none (h : s.registerToMasterScheduler = none) :
    s.registerWithMaster = { s with
      registered := false
      connectionAttemptCount := 0
      registerToMasterScheduler := some s.nextTimer
      nextTimer := s.nextTimer + 1 } := by
  rw [registerWithMaster, h]

lemma registerWithMaster_of_some {timer : TimerRef} (h : s.registerToMasterScheduler = some timer) :
    s.registerWithMaster = s := by
  rw [registerWithMaster, h]

lemma follows_registerWithMaster (h : Registration pathAddress s) (hrunning : s.terminated = false)
    (connected : Bool) :
    Follows pathAddress s (registerWithMaster { s with connected := connected })
      s.contact.retry := by
  rcases Option.eq_none_or_eq_some s.registerToMasterScheduler with ht | ⟨t, ht⟩
  · rw [registerWithMaster_of_none (s := { s with connected := connected }) ht]
    refine ⟨⟨fun _ => rfl, fun _ => Nat.zero_le 15, fun hc => (Option.some_ne_none _ hc).elim, h.address⟩, rfl,
      ?_⟩
    cases hr : s.registered <;> simp [contact, Contact.retry, hrunning, ht, hr]
  · rw [registerWithMaster_of_some (s := { s with connected := connected }) ht]
    refine ⟨⟨h.unregistered, h.attempts, fun hc => ?_, h.address⟩, rfl, ?_⟩
    · exact absurd (ht.symm.trans hc) (Option.some_ne_none t)
    · simp [contact, Contact.retry, hrunning, ht]

lemma follows_changeMaster (h : Registration pathAddress s) (hrunning : s.terminated = false)
    (masterRef : ActorRef) (registered : Bool) :
    Follows pathAddress s (changeMaster pathAddress masterRef { s with registered := registered })
      ⟨if registered then .registered else .adopted, some masterRef⟩ := by
  refine ⟨⟨fun hc => (hc rfl).elim, h.attempts, fun _ => rfl, rfl⟩, rfl, ?_⟩
  simp [contact, changeMaster, cancelRegistrationScheduler, hrunning]

lemma follows_gracefullyShutdown (h : Registration pathAddress s) :
    Follows pathAddress s s.gracefullyShutdown ⟨.givenUp, s.master⟩ := by
  obtain ⟨s', hsame, heq⟩ := gracefullyShutdown_eq s
  have h' := h.frame hsame
  rw [heq]
  refine ⟨⟨h'.unregistered, fun hc => absurd hc (by simp), h'.connected, h'.address⟩, hsame.param, ?_⟩
  simp [contact, hsame.master]

lemma follows_onDisconnected (h : Registration pathAddress s) (hrunning : s.terminated = false)
    (remoteAddress : Address) :
    Follows pathAddress s (s.onDisconnected pathAddress remoteAddress)
      (if s.contact.master.any (pathAddress · = remoteAddress) then s.contact.retry
        else s.contact) := by
  have hknown : (s.master.any (pathAddress · = remoteAddress) ∨
      s.masterAddressToConnect = some remoteAddress) ↔
        s.contact.master.any (pathAddress · = remoteAddress) := by
    rw [h.address, contact]
    cases s.master <;> simp
  rw [onDisconnected, masterDisconnected]
  by_cases hc : s.contact.master.any (pathAddress · = remoteAddress)
  · rw [if_pos (hknown.mpr hc), if_pos hc]
    exact follows_registerWithMaster h hrunning false
  · rw [if_neg (mt hknown.mp hc), if_neg hc]
    exact follows_of_same h (.refl s)

lemma follows_tryRegisterAllMasters (h : Registration pathAddress s)
    (hrunning : s.terminated = false) {timer : TimerRef}
    (ht : s.registerToMasterScheduler = some timer) :
    Follows pathAddress s s.tryRegisterAllMasters
      ⟨if s.connectionAttemptCount < 15 then .retrying (s.connectionAttemptCount + 1) else .givenUp,
        s.master⟩ := by
  have hun : s.registered = false := h.unregistered (by simp [ht])
  rw [tryRegisterAllMasters]
  simp only [hun, Bool.false_eq_true, if_false]
  by_cases hcount : s.connectionAttemptCount < 15
  · rw [if_pos hcount, if_pos (Nat.succ_le_of_lt hcount)]
    have hnext : Follows pathAddress s
        { s with connectionAttemptCount := s.connectionAttemptCount + 1, registered := false }
        ⟨.retrying (s.connectionAttemptCount + 1), s.master⟩ :=
      ⟨⟨fun _ => rfl, fun _ => Nat.succ_le_of_lt hcount, h.connected, h.address⟩, rfl,
        by simp [contact, hrunning, ht]⟩
    exact hnext.same (same_foldl (fun s a => same_send a _ s) _ _)
  · rw [if_neg hcount, if_neg (fun hc => hcount (Nat.lt_of_succ_le hc))]
    -- the count passes the bound only here, where the worker gives up
    obtain ⟨s', hsame, heq⟩ := gracefullyShutdown_eq
      { s with connectionAttemptCount := s.connectionAttemptCount + 1, registered := false }
    rw [heq]
    refine ⟨⟨?_, ?_, ?_, ?_⟩, hsame.param, ?_⟩
    · exact fun _ => hsame.registered
    · exact fun hc => absurd hc (by simp)
    · exact fun hc => hsame.connected.trans (h.connected (hsame.registerToMasterScheduler ▸ hc))
    · exact hsame.masterAddressToConnect.trans (h.address.trans (by rw [hsame.master]))
    · simp [contact, hsame.master]

lemma follows_handleMessage (h : Registration pathAddress s) (hrunning : s.terminated = false)
    (masterRef : ActorRef) (message : Outgoing) (now : Nat) :
    Follows pathAddress s (handleMessage pathAddress masterRef now s message)
      (s.contact.handle pathAddress s.address (.receive masterRef message now)) := by
  have hphase := phase_eq_registered_iff h hrunning
  cases message with
  | registeredWorker =>
    exact (follows_changeMaster h hrunning masterRef true).same ⟨rfl, rfl, rfl, rfl, rfl, rfl, rfl, rfl⟩
  | registerWorkerFailed message =>
    simp only [handleMessage, Contact.handle]
    by_cases hr : s.registered = true
    · rw [if_pos hr, if_pos (hphase.mpr hr)]
      exact follows_of_same h (.refl s)
    · rw [if_neg hr, if_neg (mt hphase.mp hr)]
      exact follows_gracefullyShutdown h
  | reconnectWorker => exact follows_registerWithMaster h hrunning s.connected
  | masterChanged =>
    have hchange := follows_changeMaster h hrunning masterRef s.registered
    simp only [Contact.handle, hphase]
    exact hchange.same (same_send masterRef _ _)
  | launchDriver driverId desc =>
    exact follows_of_same h ⟨rfl, rfl, rfl, rfl, rfl, rfl, rfl, rfl⟩
  | killDriver driverId => exact follows_of_same h (same_killDriver driverId s)
  | masterInStandby | registeredApplication | registerApplicationFailed | driverStateChanged
  | requestSubmitDriver | submitDriverResponse | killDriverResponse | driverStatusResponse
  | allDriverStatusResponse => exact follows_of_same h (.refl s)

lemma follows_handle (h : Registration pathAddress s) (hrunning : s.terminated = false)
    {event : Event} (hpossible : Possible s event) :
    Follows pathAddress s (handle pathAddress s event)
      (s.contact.handle pathAddress s.address event) := by
  cases event with
  | receive masterRef message now => exact follows_handleMessage h hrunning masterRef message now
  | sendHeartbeat =>
    refine follows_of_same h ?_
    simp only [handle]
    split
    · exact same_sendToMaster _ s
    · exact .refl s
  | tryRegister timer =>
    have htry := follows_tryRegisterAllMasters h hrunning hpossible
    have hcontact : s.contact = ⟨.retrying s.connectionAttemptCount, s.master⟩ := by
      simp [contact, hrunning, Option.mem_def.mp hpossible]
    rw [hcontact]
    exact htry
  | disassociated localAddress remoteAddress =>
    simp only [handle, Contact.handle]
    by_cases hlocal : localAddress = s.address
    · have hdis := follows_onDisconnected h hrunning remoteAddress
      simpa only [hlocal, if_true, true_and] using hdis
    · rw [if_neg hlocal, if_neg fun hc => hlocal hc.1]
      exact follows_of_same h (.refl s)
  | driverStateChanged =>
    refine follows_of_same h ?_
    simp only [handle]
    split
    · exact .refl s
    · rename_i rest _
      have hmailbox : SameContact s { s with mailbox := rest } :=
        ⟨rfl, rfl, rfl, rfl, rfl, rfl, rfl, rfl⟩
      exact hmailbox.trans (same_handleDriverStateChanged _ _)
  | assignHandle | assignProcess | stateChanged | launchFailed =>
    exact follows_of_same h ⟨rfl, rfl, rfl, rfl, rfl, rfl, rfl, rfl⟩

lemma follows_step (h : Registration pathAddress s) {event : Event} (hpossible : Possible s event) :
    Follows pathAddress s (s.step pathAddress event)
      (s.contact.step pathAddress s.address event) := by
  have hgivenUp : s.contact.phase = .givenUp ↔ s.terminated = true := by
    rw [contact]
    cases s.terminated <;> cases s.registerToMasterScheduler <;> cases s.registered <;> simp
  rw [step, Contact.step]
  by_cases ht : s.terminated = true
  · rw [if_pos ht, if_pos (hgivenUp.mpr ht)]
    exact follows_of_same h (.refl s)
  · rw [if_neg ht, if_neg (mt hgivenUp.mp ht)]
    exact follows_handle h (Bool.eq_false_iff.mpr ht) hpossible

lemma Registration.start (param : WorkerParam) : Registration pathAddress (.start param) where
  unregistered _ := rfl
  attempts _ := Nat.zero_le 15
  connected hc := (Option.some_ne_none _ hc).elim
  address := rfl

/-- Whatever happens, the worker goes through the phases, and it is never out of contact without
retrying: while it is not connected, it has attempts left and its timer goes on. -/
theorem registration_follows_phases (pathAddress : ActorRef → Address) (param : WorkerParam)
    (events : List Event) (h : EachStep (step pathAddress) Possible (.start param) events) :
    (run pathAddress (.start param) events).contact =
        events.foldl (Contact.step pathAddress param.address) ⟨.retrying 0, none⟩ ∧
      ((run pathAddress (.start param) events).terminated = false →
        (run pathAddress (.start param) events).connected = false →
          ∃ attempts ≤ 15, (run pathAddress (.start param) events).contact.phase =
            .retrying attempts) := by
  have hrun : ∀ s : MoonboxWorker, Registration pathAddress s →
      EachStep (step pathAddress) Possible s events →
        Registration pathAddress (s.run pathAddress events) ∧
          (s.run pathAddress events).contact =
            events.foldl (Contact.step pathAddress s.address) s.contact := by
    clear h
    induction events with
    | nil => exact fun s hs _ => ⟨hs, rfl⟩
    | cons event events ih =>
      intro s hs h
      have hstep := follows_step hs h.1
      have hrest := ih (s.step pathAddress event) hstep.registration h.2
      rw [hstep.contact, congrArg WorkerParam.address hstep.param] at hrest
      exact hrest
  obtain ⟨hreg, hcontact⟩ := hrun (.start param) (.start param) h
  refine ⟨hcontact, fun hrunning hconnected => ?_⟩
  generalize run pathAddress (.start param) events = s at hreg hrunning hconnected
  refine ⟨s.connectionAttemptCount, hreg.attempts hrunning, ?_⟩
  have htimer : s.registerToMasterScheduler ≠ none := fun hc =>
    absurd (hconnected.symm.trans (hreg.connected hc)) (by simp)
  simp [contact, hrunning, Option.isSome_iff_ne_none.mpr htimer]

theorem registration_follows_phases_registered :
    (run id (.start default) [.tryRegister 0, .receive "m" .registeredWorker 1]).contact =
      ⟨.registered, some "m"⟩ :=
  (registration_follows_phases id default [.tryRegister 0, .receive "m" .registeredWorker 1]
    ⟨rfl, trivial, trivial⟩).1

end Registration

end MoonboxWorker

end Moonbox.Deploy
