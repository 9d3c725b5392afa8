import Moonbox.Deploy.Dispatch
import Moonbox.Deploy.Runners

/-!
# The masters and their workers

Masters lead one after another over one store, workers run the drivers. A message to a worker may
arrive late, in any order or not at all. A leader may be told anything at any time, by workers and by
clients, and the timers and threads of a worker go on by themselves.
-/

namespace Moonbox.Deploy

open Actor Relation

/-! ### Positions in a list -/

section Positions

variable {α β : Type} {f : α → Option β} {xs : List α} {p q : Nat} {x y : α} {v w : β}

/-- How many of the elements before a position are kept. -/
def rank (f : α → Option β) (xs : List α) (p : Nat) : Nat := ((xs.take p).filterMap f).length

lemma getElem?_rank (hx : xs[p]? = some x) (hv : f x = some v) :
    (xs.filterMap f)[rank f xs p]? = some v := by
  obtain ⟨hp, rfl⟩ := List.getElem?_eq_some_iff.mp hx
  have hsplit : xs.filterMap f =
      (xs.take p).filterMap f ++ v :: (xs.drop (p + 1)).filterMap f := by
    conv_lhs => rw [← List.take_append_drop p xs, List.filterMap_append, List.drop_eq_getElem_cons hp,
      List.filterMap_cons_some hv]
  rw [hsplit, rank, List.getElem?_append_right le_rfl, Nat.sub_self, List.getElem?_cons_zero]

lemma rank_lt (hx : xs[p]? = some x) (hv : f x = some v) (hpq : p < q) :
    rank f xs p < rank f xs q := by
  have hsucc : rank f xs (p + 1) = rank f xs p + 1 := by
    rw [rank, rank, List.take_add_one, hx, List.filterMap_append, List.length_append]
    simp [hv]
  have hle : rank f xs (p + 1) ≤ rank f xs q :=
    ((List.take_sublist_take_left hpq).filterMap f).length_le
  exact Nat.lt_of_lt_of_le (hsucc ▸ Nat.lt_succ_self _) hle

lemma rank_injective (hx : xs[p]? = some x) (hv : f x = some v) (hy : xs[q]? = some y)
    (hw : f y = some w) (h : rank f xs p = rank f xs q) : p = q := by
  rcases Nat.lt_trichotomy p q with hpq | hpq | hpq
  · exact absurd h (Nat.ne_of_lt (rank_lt hx hv hpq))
  · exact hpq
  · exact absurd h.symm (Nat.ne_of_lt (rank_lt hy hw hpq))

end Positions

/-! ### The system -/

/-- The leader, with the messages of all leaders so far in `sent`, the worker behind each reference,
and the positions in `sent` of the messages that are on their way. `origin` says, as a record for
the proofs, where the `LaunchDriver` stands that a runner was started by. -/
structure Cluster where
  master : MasterState
  worker : ActorRef → MoonboxWorker
  network : List Nat
  origin : ActorRef → RunnerRef → Nat

namespace Cluster

def start (engine : PersistenceEngine) (param : ActorRef → WorkerParam) : Cluster where
  master := { persistenceEngine := engine }
  worker a := .start (param a)
  network := []
  origin _ _ := 0

/-- A new state of the master; what it has sent meanwhile is on its way. -/
def setMaster (c : Cluster) (master : MasterState) : Cluster :=
  { c with
    master := master
    network := c.network ++
      List.range' c.master.sent.length (master.sent.length - c.master.sent.length) }

def setWorker (c : Cluster) (a : ActorRef) (worker : MoonboxWorker) : Cluster :=
  { c with worker := Function.update c.worker a worker }

/-- A message that has arrived; a runner it starts is the next one of the worker. -/
def arrive (c : Cluster) (p : Nat) (a : ActorRef) (worker : MoonboxWorker) : Cluster :=
  { c.setWorker a worker with
    network := c.network.erase p
    origin := Function.update c.origin a
      (Function.update (c.origin a) (c.worker a).nextRunner p) }

/-- Messages other than those of a master -/
def Local : MoonboxWorker.Event → Prop
  | .receive .. => False
  | _ => True

inductive Step (pathAddress : ActorRef → Address) : Cluster → Cluster → Prop
  | lead {c : Cluster} (env : Env) (m : Message) (hm : Master.Deliverable c.master m) :
      Step pathAddress c (c.setMaster (Master.step env m c.master))
  | replace {c : Cluster} : Step pathAddress c (c.setMaster c.master.restart)
  | lose {c : Cluster} (p : Nat) : Step pathAddress c { c with network := c.network.erase p }
  | deliver {c : Cluster} {p : Nat} {e : Envelope} (hp : p ∈ c.network)
      (he : c.master.sent[p]? = some e) (masterRef : ActorRef) (now : Nat) :
      Step pathAddress c (c.arrive p e.receiver
        ((c.worker e.receiver).step pathAddress (.receive masterRef e.message now)))
  | work {c : Cluster} (a : ActorRef) {event : MoonboxWorker.Event} (hlocal : Local event)
      (hpossible : (c.worker a).Possible event) :
      Step pathAddress c (c.setWorker a ((c.worker a).step pathAddress event))

def Run (pathAddress : ActorRef → Address) : Cluster → Cluster → Prop :=
  ReflTransGen (Step pathAddress)

/-! ### Where the runners come from -/

/-- Every runner was started by a message of its own, which has left the network, and as long as no
two launches have an id in common no runner gets out of reach. -/
structure Origins (c : Cluster) : Prop where
  membership : Membership c.master
  dispatch : Dispatch [] c.master
  network_lt : ∀ p ∈ c.network, p < c.master.sent.length
  network_nodup : c.network.Nodup
  started : ∀ a r, r < (c.worker a).nextRunner → c.master.sent[c.origin a r]? =
    some ⟨a, .launchDriver ((c.worker a).runner r).driverId ((c.worker a).runner r).desc⟩
  left : ∀ a r, r < (c.worker a).nextRunner → c.origin a r ∉ c.network
  injective : ∀ a r b q, r < (c.worker a).nextRunner → q < (c.worker b).nextRunner →
    c.origin a r = c.origin b q → a = b ∧ r = q
  accounts : ∀ a, (c.worker a).Accounts
  reach : (c.master.sent.filterMap Envelope.launchedId).Nodup → ∀ a, (c.worker a).WithinReach

namespace Origins

variable {c c' : Cluster} {pathAddress : ActorRef → Address}

lemma start (engine : PersistenceEngine) (param : ActorRef → WorkerParam) :
    Origins (.start engine param) where
  membership := .init engine
  dispatch := .init engine
  network_lt _ hp := absurd hp List.not_mem_nil
  network_nodup := List.nodup_nil
  started _ _ hr := absurd hr (Nat.not_lt_zero _)
  left _ _ hr := absurd hr (Nat.not_lt_zero _)
  injective _ _ _ _ hr := absurd hr (Nat.not_lt_zero _)
  accounts a := .start (param a)
  reach _ _ r hr := absurd hr.1 (Nat.not_lt_zero r)

lemma origin_lt (h : Origins c) {a : ActorRef} {r : RunnerRef}
    (hr : r < (c.worker a).nextRunner) : c.origin a r < c.master.sent.length :=
  (List.getElem?_eq_some_iff.mp (h.started a r hr)).1

lemma setMaster (h : Origins c) {s : MasterState} (hM : Membership s)
    (hs : Dispatch c.master.sent s) : Origins (c.setMaster s) where
  membership := hM
  dispatch := { hs with sent := List.nil_prefix }
  network_lt p hp := by
    have hlength := hs.sent.length_le
    rcases List.mem_append.mp hp with hp | hp
    · exact Nat.lt_of_lt_of_le (h.network_lt p hp) hlength
    · have hrange := List.mem_range'_1.mp hp
      change p < s.sent.length
      omega
  network_nodup := by
    refine List.nodup_append.mpr ⟨h.network_nodup, List.nodup_range' _ (Nat.zero_lt_one), fun p hp q hq => ?_⟩
    exact Nat.ne_of_lt (Nat.lt_of_lt_of_le (h.network_lt p hp) (List.mem_range'_1.mp hq).1)
  started a r hr := by
    obtain ⟨new, hnew⟩ := hs.sent
    change s.sent[c.origin a r]? = _
    rw [← hnew, List.getElem?_append_left (h.origin_lt hr)]
    exact h.started a r hr
  left a r hr hp := by
    rcases List.mem_append.mp hp with hp | hp
    · exact h.left a r hr hp
    · exact absurd (h.origin_lt hr) (Nat.not_lt_of_le (List.mem_range'_1.mp hp).1)
  injective := h.injective
  accounts := h.accounts
  reach hnodup := h.reach (hnodup.sublist (hs.sent.sublist.filterMap _))

lemma lose (h : Origins c) (p : Nat) : Origins { c with network := c.network.erase p } :=
  { h with
    network_lt := fun q hq => h.network_lt q (List.mem_of_mem_erase hq)
    network_nodup := h.network_nodup.erase p
    left := fun a r hr hp => h.left a r hr (List.mem_of_mem_erase hp) }

/-- A worker starts no runner. -/
lemma setWorker (h : Origins c) {a : ActorRef} {worker : MoonboxWorker}
    (hnext : worker.nextRunner = (c.worker a).nextRunner)
    (hrunner : ∀ r, (worker.runner r).driverId = ((c.worker a).runner r).driverId ∧
      (worker.runner r).desc = ((c.worker a).runner r).desc) (haccounts : worker.Accounts)
    (hreach : (c.worker a).WithinReach → worker.WithinReach) : Origins (c.setWorker a worker) := by
  have hworker : ∀ b, ((c.setWorker a worker).worker b).nextRunner = (c.worker b).nextRunner := by
    intro b
    change (Function.update c.worker a worker b).nextRunner = _
    by_cases hb : b = a
    · subst hb
      rw [Function.update_self, hnext]
    · rw [Function.update_of_ne hb]
  refine { h with started := ?_, left := ?_, injective := ?_, accounts := ?_, reach := ?_ }
  · intro b r hr
    rw [hworker] at hr
    change c.master.sent[c.origin b r]? = some ⟨b, .launchDriver
      ((Function.update c.worker a worker b).runner r).driverId
      ((Function.update c.worker a worker b).runner r).desc⟩
    rw [h.started b r hr]
    by_cases hb : b = a
    · subst hb
      rw [Function.update_self, (hrunner r).1, (hrunner r).2]
    · rw [Function.update_of_ne hb]
  · intro b r hr
    exact h.left b r (hworker b ▸ hr)
  · intro b r d q hr hq
    exact h.injective b r d q (hworker b ▸ hr) (hworker d ▸ hq)
  · intro b
    change (Function.update c.worker a worker b).Accounts
    by_cases hb : b = a
    · subst hb
      rw [Function.update_self]
      exact haccounts
    · rw [Function.update_of_ne hb]
      exact h.accounts b
  · intro hnodup b
    change (Function.update c.worker a worker b).WithinReach
    by_cases hb : b = a
    · subst hb
      rw [Function.update_self]
      exact hreach (h.reach hnodup b)
    · rw [Function.update_of_ne hb]
      exact h.reach hnodup b

/-- Only where runners come from matters. -/
lemma congr_origin (h : Origins c) {origin : ActorRef → RunnerRef → Nat}
    (hsame : ∀ a r, r < (c.worker a).nextRunner → origin a r = c.origin a r) :
    Origins { c with origin := origin } :=
  { h with
    started := fun a r hr => by
      change c.master.sent[origin a r]? = _
      rw [hsame a r hr]
      exact h.started a r hr
    left := fun a r hr => by
      change origin a r ∉ c.network
      rw [hsame a r hr]
      exact h.left a r hr
    injective := fun a r b q hr hq => by
      change origin a r = origin b q → _
      rw [hsame a r hr, hsame b q hq]
      exact h.injective a r b q hr hq }

section Launch

variable {p : Nat} {a : ActorRef} {driverId : String} {desc : DriverDesc} (masterRef : ActorRef)
  (now : Nat)

/-- Two launches of one id are the same message, if ids are not used twice. -/
lemma eq_of_launch {sent : List Envelope} (hnodup : (sent.filterMap Envelope.launchedId).Nodup)
    {p q : Nat} {a b : ActorRef} {d e : DriverDesc}
    (hp : sent[p]? = some ⟨a, .launchDriver driverId d⟩)
    (hq : sent[q]? = some ⟨b, .launchDriver driverId e⟩) : p = q := by
  have hp' := getElem?_rank (f := Envelope.launchedId) (v := driverId) hp rfl
  have hq' := getElem?_rank (f := Envelope.launchedId) (v := driverId) hq rfl
  refine rank_injective (f := Envelope.launchedId) (v := driverId) (w := driverId) hp rfl hq rfl ?_
  exact (List.getElem?_inj (List.getElem?_eq_some_iff.mp hp').1 hnodup).mp (hp'.trans hq'.symm)

lemma launch (h : Origins c) (hp : p ∈ c.network)
    (he : c.master.sent[p]? = some ⟨a, .launchDriver driverId desc⟩) :
    Origins (c.arrive p a ((c.worker a).launchDriver masterRef driverId desc now)) := by
  set worker := (c.worker a).launchDriver masterRef driverId desc now with hworker
  have hnext : worker.nextRunner = (c.worker a).nextRunner + 1 := rfl
  -- a runner is the new one or one of before
  have hcases : ∀ b r, r < ((c.arrive p a worker).worker b).nextRunner →
      b = a ∧ r = (c.worker a).nextRunner ∨
        r < (c.worker b).nextRunner ∧ (c.arrive p a worker).origin b r = c.origin b r ∧
          ((c.arrive p a worker).worker b).runner r = (c.worker b).runner r := by
    intro b r hr
    change r < (Function.update c.worker a worker b).nextRunner at hr
    change _ ∨ _ ∧ Function.update c.origin a (Function.update (c.origin a) _ p) b r = _ ∧
      (Function.update c.worker a worker b).runner r = _
    by_cases hb : b = a
    · subst hb
      rw [Function.update_self, hnext, Nat.lt_succ_iff_lt_or_eq] at hr
      rw [Function.update_self, Function.update_self]
      rcases hr with hr | hr
      · refine .inr ⟨hr, Function.update_of_ne (Nat.ne_of_lt hr) _ _, ?_⟩
        exact MoonboxWorker.runner_launchDriver masterRef driverId desc now hr
      · exact .inl ⟨rfl, hr⟩
    · rw [Function.update_of_ne hb] at hr
      rw [Function.update_of_ne hb, Function.update_of_ne hb]
      exact .inr ⟨hr, rfl, rfl⟩
  have horigin : (c.arrive p a worker).origin a (c.worker a).nextRunner = p := by
    change Function.update c.origin a (Function.update (c.origin a) _ p) a _ = p
    rw [Function.update_self, Function.update_self]
  have hself : (c.arrive p a worker).worker a = worker := by
    change Function.update c.worker a worker a = worker
    rw [Function.update_self]
  have hnew : (worker.runner (c.worker a).nextRunner).driverId = driverId ∧
      (worker.runner (c.worker a).nextRunner).desc = desc := by
    simp only [hworker, MoonboxWorker.launchDriver, Function.update_self, and_self]
  have hothers : ∀ b, b ≠ a → (c.arrive p a worker).worker b = c.worker b := by
    intro b hb
    change Function.update c.worker a worker b = c.worker b
    rw [Function.update_of_ne hb]
  refine { h.lose p with started := ?_, left := ?_, injective := ?_, accounts := ?_, reach := ?_ }
  · intro b r hr
    rcases hcases b r hr with ⟨rfl, rfl⟩ | ⟨hr, ho, hrunner⟩
    · rw [horigin, hself, hnew.1, hnew.2]
      exact he
    · rw [ho, hrunner]
      exact h.started b r hr
  · intro b r hr hmem
    rcases hcases b r hr with ⟨rfl, rfl⟩ | ⟨hr, ho, -⟩
    · rw [horigin] at hmem
      exact h.network_nodup.not_mem_erase hmem
    · rw [ho] at hmem
      exact h.left b r hr (List.mem_of_mem_erase hmem)
  · intro b r d q hr hq heq
    rcases hcases b r hr with ⟨rfl, rfl⟩ | ⟨hr', ho, -⟩
    · rcases hcases d q hq with ⟨rfl, rfl⟩ | ⟨hq', ho', -⟩
      · exact ⟨rfl, rfl⟩
      · rw [horigin, ho'] at heq
        exact absurd (heq ▸ hp) (h.left d q hq')
    · rcases hcases d q hq with ⟨rfl, rfl⟩ | ⟨hq', ho', -⟩
      · rw [horigin, ho] at heq
        exact absurd (heq ▸ hp) (h.left b r hr')
      · rw [ho, ho'] at heq
        exact h.injective b r d q hr' hq' heq
  · intro b
    by_cases hb : b = a
    · subst hb
      rw [hself]
      exact (h.accounts b).launchDriver masterRef driverId desc now
    · rw [hothers b hb]
      exact h.accounts b
  · intro hnodup b
    have hreach := h.reach hnodup b
    by_cases hb : b = a
    · subst hb
      rw [hself, hworker, MoonboxWorker.withinReach_launchDriver_iff _ _ _ _ (h.accounts b) hreach]
      intro hmem
      obtain ⟨r, hr⟩ := Option.isSome_iff_exists.mp (AList.lookup_isSome.mpr hmem)
      obtain ⟨⟨hlt, -⟩, hid⟩ := (h.accounts b).tracked driverId r hr
      have hstarted := h.started b r hlt
      rw [hid] at hstarted
      exact h.left b r hlt (eq_of_launch hnodup he hstarted ▸ hp)
    · rw [hothers b hb]
      exact hreach

end Launch

/-- The worker takes a step by which it starts no runner. -/
lemma idle (h : Origins c) {a : ActorRef} {event : MoonboxWorker.Event}
    (hpossible : (c.worker a).Possible event)
    (hidle : (c.worker a).StartsNone event ((c.worker a).step pathAddress event)) :
    Origins (c.setWorker a ((c.worker a).step pathAddress event)) :=
  h.setWorker hidle.nextRunner (fun r => ⟨hidle.driverId r, hidle.desc r⟩)
    ((h.accounts a).step hpossible) fun hreach =>
      (MoonboxWorker.withinReach_step_iff (h.accounts a) hreach hpossible).mpr hidle.launchesNew

lemma deliver (h : Origins c) {p : Nat} {e : Envelope} (hp : p ∈ c.network)
    (he : c.master.sent[p]? = some e) (masterRef : ActorRef) (now : Nat) :
    Origins (c.arrive p e.receiver
      ((c.worker e.receiver).step pathAddress (.receive masterRef e.message now))) := by
  obtain ⟨a, message⟩ := e
  have hpossible : (c.worker a).Possible (.receive masterRef message now) := trivial
  rcases MoonboxWorker.starts_of_step pathAddress hpossible with hidle | ⟨m, i, d, t, hevent, hs⟩
  · refine ((h.idle hpossible hidle).lose p).congr_origin fun b r hr => ?_
    change r < (Function.update c.worker a _ b).nextRunner at hr
    change Function.update c.origin a _ b r = c.origin b r
    by_cases hb : b = a
    · subst hb
      rw [Function.update_self, hidle.nextRunner] at hr
      rw [Function.update_self, Function.update_of_ne (Nat.ne_of_lt hr)]
    · rw [Function.update_of_ne hb]
  · obtain ⟨rfl, rfl, rfl⟩ := MoonboxWorker.Event.receive.inj hevent
    rw [hs]
    exact h.launch masterRef now hp he

lemma step (h : Origins c) (hstep : Step pathAddress c c') : Origins c' := by
  cases hstep with
  | lead env m hm =>
    exact h.setMaster (Master.step_membership env h.membership hm)
      (h.dispatch.rebase.step env h.membership hm)
  | replace => exact h.setMaster (Membership.restart _) h.dispatch.rebase.restart
  | lose p => exact h.lose p
  | deliver hp he masterRef now => exact h.deliver hp he masterRef now
  | work a hlocal hpossible =>
    rcases MoonboxWorker.starts_of_step pathAddress hpossible with
      hidle | ⟨m, i, d, t, rfl, -⟩
    · exact h.idle hpossible hidle
    · exact hlocal.elim

lemma run (h : Run pathAddress c c') (hc : Origins c) : Origins c' :=
  invariant_of_run h (fun _ _ hstep hs => hs.step hstep) hc

/-- The launch a runner goes back to -/
lemma launch_of_runner (h : Origins c) {a : ActorRef} {r : RunnerRef}
    (hr : r < (c.worker a).nextRunner) :
    ∃ launch, c.master.launches[rank Envelope.launch c.master.sent (c.origin a r)]? = some launch ∧
      c.master.launchOf launch =
        (a, ((c.worker a).runner r).driverId, ((c.worker a).runner r).desc) := by
  have hlaunch := getElem?_rank (f := Envelope.launch) (h.started a r hr) rfl
  rw [h.dispatch.launch_sent, List.getElem?_map, Option.map_eq_some_iff] at hlaunch
  exact hlaunch

end Origins

/-- A worker registers, a driver is submitted and its launch arrives. -/
lemma exists_run_launched : ∃ c, Run id (.start .blackHole default) c ∧
    (c.worker "w").nextRunner = 1 ∧ c.master.launches = [(0, 0)] := by
  have h1 : Run id (.start .blackHole default) _ := .single (.lead default (.electedLeader []) rfl)
  have h2 := h1.tail (.lead default (.registerWorker "w1" "host" 1 "w" "moonbox@host:1") trivial)
  have h3 := h2.tail (.lead default (.requestSubmitDriver "a" default) trivial)
  have h4 := h3.tail (.deliver (p := 1) (e := ⟨"w", .launchDriver "a" default⟩) (by decide) rfl "m" 1)
  exact ⟨_, h4, by decide, by decide⟩

/-- Every runner of a worker was started for a driver that was launched there, no two of them for one
driver. -/
def StartedOnce (c : Cluster) : Prop :=
  ∃ driver : ActorRef → RunnerRef → DriverRef,
    (∀ a r, r < (c.worker a).nextRunner →
      (∃ w, (driver a r, w) ∈ c.master.launches ∧ (c.master.worker w).endpoint = a) ∧
        (c.master.driver (driver a r)).id = ((c.worker a).runner r).driverId ∧
        (c.master.driver (driver a r)).desc = ((c.worker a).runner r).desc) ∧
    ∀ a r b q, r < (c.worker a).nextRunner → q < (c.worker b).nextRunner →
      driver a r = driver b q → a = b ∧ r = q

/-- Whatever is submitted under whichever id, lost, delayed or sent by an earlier leader, no driver is
started twice. -/
theorem drivers_started_at_most_once (pathAddress : ActorRef → Address) (engine : PersistenceEngine)
    (param : ActorRef → WorkerParam) {c : Cluster} (h : Run pathAddress (.start engine param) c) :
    c.StartedOnce := by
  have hc := Origins.run h (.start engine param)
  have hlaunch : ∀ a r, ∃ launch, r < (c.worker a).nextRunner →
      c.master.launches[rank Envelope.launch c.master.sent (c.origin a r)]? = some launch ∧
        c.master.launchOf launch =
          (a, ((c.worker a).runner r).driverId, ((c.worker a).runner r).desc) := by
    intro a r
    by_cases hr : r < (c.worker a).nextRunner
    · exact (hc.launch_of_runner hr).imp fun _ hlaunch _ => hlaunch
    · exact ⟨default, fun hr' => absurd hr' hr⟩
  choose launch hlaunch using hlaunch
  refine ⟨fun a r => (launch a r).1, fun a r hr => ?_, fun a r b q hr hq heq => ?_⟩
  · obtain ⟨hmem, hof⟩ := hlaunch a r hr
    rw [MasterState.launchOf, Prod.mk.injEq, Prod.mk.injEq] at hof
    exact ⟨⟨(launch a r).2, List.mem_of_getElem? hmem, hof.1⟩, hof.2⟩
  · have har := (hlaunch a r hr).1
    have hbq := (hlaunch b q hq).1
    -- no driver is launched twice, so it is one launch, and its message stands at one place
    have hindex : rank Envelope.launch c.master.sent (c.origin a r) =
        rank Envelope.launch c.master.sent (c.origin b q) := by
      have hfst : ∀ {i : Nat} {l : DriverRef × WorkerRef}, c.master.launches[i]? = some l →
          (c.master.launches.map Prod.fst)[i]? = some l.1 := fun hl => by
        rw [List.getElem?_map, hl, Option.map_some]
      refine (List.getElem?_inj ?_ hc.dispatch.launches_nodup).mp ((hfst har).trans ?_)
      · exact (List.getElem?_eq_some_iff.mp (hfst har)).1
      · rw [hfst hbq]
        exact congrArg some heq
    exact hc.injective a r b q hr hq
      (rank_injective (f := Envelope.launch) (hc.started a r hr) rfl (hc.started b q hq) rfl hindex)

theorem drivers_started_at_most_once_launched :
    ∃ c : Cluster, (c.worker "w").nextRunner = 1 ∧ c.StartedOnce := by
  obtain ⟨c, hrun, hrunner, -⟩ := exists_run_launched
  exact ⟨c, hrunner, drivers_started_at_most_once id .blackHole default hrun⟩

/-- In a run in which no two launches have an id in common, every driver whose end its worker has not
been told of can be killed there. -/
theorem drivers_within_reach (pathAddress : ActorRef → Address) (engine : PersistenceEngine)
    (param : ActorRef → WorkerParam) {c : Cluster} (h : Run pathAddress (.start engine param) c)
    (hids : (c.master.launches.map fun p => (c.master.driver p.1).id).Nodup) :
    ∀ a, (c.worker a).WithinReach := by
  have hc := Origins.run h (.start engine param)
  refine hc.reach ?_
  have hsent : c.master.sent.filterMap Envelope.launchedId =
      (c.master.sent.filterMap Envelope.launch).map fun l => l.2.1 := by
    rw [List.map_filterMap]
    refine List.filterMap_congr fun e _ => ?_
    obtain ⟨a, message⟩ := e
    cases message <;> rfl
  rw [hsent, hc.dispatch.launch_sent, List.map_map]
  exact hids

theorem drivers_within_reach_launched :
    ∃ c : Cluster, (c.worker "w").nextRunner = 1 ∧ ∀ a, (c.worker a).WithinReach := by
  obtain ⟨c, hrun, hrunner, hlaunches⟩ := exists_run_launched
  refine ⟨c, hrunner, drivers_within_reach id .blackHole default hrun ?_⟩
  rw [hlaunches]
  exact List.nodup_singleton _

end Cluster

end Moonbox.Deploy
