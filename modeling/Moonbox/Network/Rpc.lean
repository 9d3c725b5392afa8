import Mathlib.Data.List.AList
import Moonbox.Lib.Runs

/-!
# Remote procedure calls

`TransportClient` and `TransportResponseHandler` of a channel and the `TransportRequestHandler` at
its other end. Requests are numbered as they are sent; the number of a request stands for its
callback and for what the server makes of it. An event is atomic.
-/

namespace Moonbox.Network

open Actor

/-! ### The client -/

/-- How a callback is called: with the response or the failure that the server has sent for a
request, or with what happened to the channel. -/
inductive Completion
  | onSuccess (request : Nat)
  | onFailure (request : Option Nat)
  deriving DecidableEq, Repr

/-- The request that the server has answered. -/
def Completion.answers : Completion → Option Nat
  | .onSuccess request => some request
  | .onFailure request => request

/-- A channel, with what the proofs record of it: the ids of the requests sent, the calls of the
callbacks, and the requests that are to be completed. -/
structure Channel where
  outstandingRpcs : AList fun _ : Int => Nat := ∅
  requestIds : List Int := []
  writing : List Nat := []
  invocations : List (Nat × Completion) := []
  due : List Nat := []

namespace Channel

def addRpcRequest (c : Channel) (requestId : Int) (callback : Nat) : Channel :=
  { c with outstandingRpcs := c.outstandingRpcs.insert requestId callback }

def removeRpcRequest (c : Channel) (requestId : Int) : Channel :=
  { c with outstandingRpcs := c.outstandingRpcs.erase requestId }

def invoke (c : Channel) (callback : Nat) (x : Completion) : Channel :=
  { c with invocations := c.invocations ++ [(callback, x)] }

/-- The requests are to be completed now. -/
def owe (c : Channel) (requests : List Nat) : Channel :=
  { c with due := requests.filter (· < c.requestIds.length) ++ c.due }

def send (c : Channel) (requestId : Int) : Channel :=
  { c with
    requestIds := c.requestIds ++ [requestId]
    writing := c.writing ++ [c.requestIds.length] }.addRpcRequest requestId c.requestIds.length

def writeFailed (c : Channel) (request : Nat) : Channel :=
  match c.requestIds[request]? with
  | some requestId =>
    ((c.removeRpcRequest requestId).invoke request (.onFailure none)).owe [request]
  | none => c

/-- The listener of `writeAndFlush`, called once for each write. -/
def operationComplete (c : Channel) (request : Nat) (isSuccess : Bool) : Channel :=
  if request ∈ c.writing then
    if isSuccess then { c with writing := c.writing.erase request }
    else { c with writing := c.writing.erase request }.writeFailed request
  else c

/-- A response carries the id of the request and is given to the callback under that id. -/
def handle (c : Channel) (request : Nat) (x : Completion) : Channel :=
  match c.requestIds[request]? with
  | some requestId =>
    match c.outstandingRpcs.lookup requestId with
    | some listener => (c.removeRpcRequest requestId).invoke listener x
    | none => c
  | none => c

def failOutstandingRequests (c : Channel) : Channel :=
  { c with
    outstandingRpcs := ∅
    invocations := c.invocations ++
      c.outstandingRpcs.entries.map fun entry => (entry.2, .onFailure none) }

def channelInactive (c : Channel) : Channel :=
  if c.outstandingRpcs.keys.length > 0 then c.failOutstandingRequests else c

def exceptionCaught (c : Channel) : Channel :=
  if c.outstandingRpcs.keys.length > 0 then c.failOutstandingRequests else c

end Channel

inductive Event
  | addRpcRequest (requestId : Int)
  | writeComplete (request : Nat) (isSuccess : Bool)
  | rpcResponse (request : Nat)
  | rpcFailure (request : Nat)
  | channelInactive
  | exceptionCaught
  deriving DecidableEq, Repr

namespace Channel

def step (c : Channel) : Event → Channel
  | .addRpcRequest requestId => c.send requestId
  | .writeComplete request isSuccess => c.operationComplete request isSuccess
  | .rpcResponse request => (c.handle request (.onSuccess request)).owe [request]
  | .rpcFailure request => (c.handle request (.onFailure (some request))).owe [request]
  | .channelInactive => c.channelInactive.owe (List.range c.requestIds.length)
  | .exceptionCaught => c.exceptionCaught.owe (List.range c.requestIds.length)

/-- The callbacks of the requests that are to be completed were called once, those of the others
were not, and none was called with the response to another request. -/
structure CompletesOnce (c : Channel) : Prop where
  once : ∀ request, (c.invocations.map Prod.fst).count request = if request ∈ c.due then 1 else 0
  own : ∀ x ∈ c.invocations, x.2.answers = none ∨ x.2.answers = some x.1

/-- No id is used twice. -/
def FreshId (c : Channel) : Event → Prop
  | .addRpcRequest requestId => requestId ∉ c.requestIds
  | _ => True

/-- A write that fails is that of a request that is outstanding. -/
def FailsOutstanding (c : Channel) : Event → Prop
  | .writeComplete request false => request ∈ c.writing → ∃ requestId,
    c.requestIds[request]? = some requestId ∧ c.outstandingRpcs.lookup requestId = some request
  | _ => True

/-! ### One event -/

/-- The requests that are outstanding are those that are not to be completed yet. -/
structure Consistent (c : Channel) : Prop extends c.CompletesOnce where
  ids : c.requestIds.Nodup
  due_lt : ∀ request ∈ c.due, request < c.requestIds.length
  writing_lt : ∀ request ∈ c.writing, request < c.requestIds.length
  outstanding : ∀ requestId request, c.outstandingRpcs.lookup requestId = some request ↔
    c.requestIds[request]? = some requestId ∧ request ∉ c.due

lemma consistent_empty : Consistent {} := by
  refine ⟨⟨by simp, by simp⟩, by simp, by simp, by simp, ?_⟩
  intro requestId request
  rw [show AList.lookup requestId (∅ : AList fun _ : Int => Nat) = none from rfl]
  simp

variable {c : Channel} {request : Nat} {requestId : Int} {x : Completion}

lemma getElem?_snoc {α : Type} {xs : List α} {a b : α} {n : Nat} :
    (xs ++ [a])[n]? = some b ↔ xs[n]? = some b ∨ n = xs.length ∧ a = b := by
  rcases Nat.lt_trichotomy n xs.length with h | rfl | h
  · rw [List.getElem?_append_left h]
    simp [Nat.ne_of_lt h]
  · simp
  · rw [List.getElem?_eq_none (by simpa using Nat.succ_le_of_lt h),
      List.getElem?_eq_none (Nat.le_of_lt h)]
    simp [Nat.ne_of_gt h]

lemma Consistent.send (h : c.Consistent) (hfresh : requestId ∉ c.requestIds) :
    (c.send requestId).Consistent := by
  have hnew : c.requestIds.length ∉ c.due := fun hdue => Nat.lt_irrefl _ (h.due_lt _ hdue)
  refine ⟨⟨h.once, h.own⟩, ?_, ?_, ?_, ?_⟩
  · show (c.requestIds ++ [requestId]).Nodup
    rw [← List.concat_eq_append]
    exact h.ids.concat hfresh
  · intro r hr
    show r < (c.requestIds ++ [requestId]).length
    rw [List.length_append]
    exact Nat.lt_add_right _ (h.due_lt r hr)
  · intro r hr
    show r < (c.requestIds ++ [requestId]).length
    rw [List.length_append]
    rcases List.mem_append.mp hr with hr | hr
    · exact Nat.lt_add_right _ (h.writing_lt r hr)
    · rw [List.mem_singleton.mp hr]
      exact Nat.lt_succ_self _
  · intro id r
    show (c.outstandingRpcs.insert requestId c.requestIds.length).lookup id = some r ↔
      (c.requestIds ++ [requestId])[r]? = some id ∧ r ∉ c.due
    rw [getElem?_snoc]
    by_cases hid : id = requestId
    · subst hid
      rw [AList.lookup_insert, Option.some_inj]
      constructor
      · rintro rfl
        exact ⟨Or.inr ⟨rfl, rfl⟩, hnew⟩
      · rintro ⟨hr | hr, _⟩
        · exact absurd (List.mem_of_getElem? hr) hfresh
        · exact hr.1.symm
    · rw [AList.lookup_insert_ne hid, h.outstanding]
      simp [Ne.symm hid]

/-- A request that is completed already may be completed by something else. -/
lemma Consistent.owe_of_mem (h : c.Consistent) (hdue : request ∈ c.due) :
    (c.owe [request]).Consistent := by
  have hmem : ∀ r, r ∈ (c.owe [request]).due ↔ r ∈ c.due := by
    intro r
    simp only [owe, List.mem_append, List.mem_filter, List.mem_singleton]
    constructor
    · rintro (⟨rfl, _⟩ | hr)
      · exact hdue
      · exact hr
    · exact Or.inr
  refine ⟨⟨fun r => ?_, h.own⟩, h.ids, fun r hr => h.due_lt r ((hmem r).mp hr), h.writing_lt, ?_⟩
  · simp only [hmem]
    exact h.once r
  · intro id r
    simp only [hmem]
    exact h.outstanding id r

/-- A request that was never sent is not completed. -/
lemma owe_of_le (hle : c.requestIds.length ≤ request) : c.owe [request] = c := by
  simp [owe, Nat.not_lt.mpr hle]

/-- The callback of an outstanding request is called as the request is taken out. -/
lemma Consistent.complete (h : c.Consistent) (hid : c.requestIds[request]? = some requestId)
    (hdue : request ∉ c.due) (hx : x.answers = none ∨ x.answers = some request) :
    (((c.removeRpcRequest requestId).invoke request x).owe [request]).Consistent := by
  have hlt : request < c.requestIds.length := (List.getElem?_eq_some_iff.mp hid).1
  have hmem : ∀ r, r ∈ (((c.removeRpcRequest requestId).invoke request x).owe [request]).due ↔
      r = request ∨ r ∈ c.due := by
    intro r
    simp only [owe, invoke, removeRpcRequest, List.mem_append, List.mem_filter,
      List.mem_singleton]
    exact or_congr_left ⟨fun hr => hr.1, fun hr => ⟨hr, decide_eq_true (hr ▸ hlt)⟩⟩
  refine ⟨⟨fun r => ?_, ?_⟩, h.ids, ?_, h.writing_lt, ?_⟩
  · show ((c.invocations ++ [(request, x)]).map Prod.fst).count r = _
    simp only [hmem, List.map_append, List.map_singleton, List.count_append, h.once]
    by_cases hr : r = request
    · subst hr
      simp [hdue]
    · simp [hr, Ne.symm hr]
  · intro y hy
    rcases List.mem_append.mp hy with hy | hy
    · exact h.own y hy
    · rw [List.mem_singleton.mp hy]
      exact hx
  · intro r hr
    rcases (hmem r).mp hr with rfl | hr
    · exact hlt
    · exact h.due_lt r hr
  · intro id r
    rw [hmem, not_or]
    show (c.outstandingRpcs.erase requestId).lookup id = some r ↔ c.requestIds[r]? = some id ∧ _
    by_cases heq : id = requestId
    · subst heq
      rw [AList.lookup_erase]
      constructor
      · intro hr
        cases hr
      · rintro ⟨hr, hne, _⟩
        exact absurd ((List.getElem?_inj hlt h.ids).mp (hid.trans hr.symm)).symm hne
    · rw [AList.lookup_erase_ne heq, h.outstanding]
      refine ⟨fun hr => ⟨hr.1, ?_, hr.2⟩, fun hr => ⟨hr.1, hr.2.2⟩⟩
      rintro rfl
      exact heq (Option.some.inj (hr.1.symm.trans hid))

/-- No other request has the id. -/
lemma Consistent.eq_of_id (h : c.Consistent) (hid : c.requestIds[request]? = some requestId)
    {request' : Nat} (hid' : c.requestIds[request']? = some requestId) : request = request' :=
  (List.getElem?_inj (List.getElem?_eq_some_iff.mp hid).1 h.ids).mp (hid.trans hid'.symm)

lemma Consistent.handle (h : c.Consistent) (hx : x.answers = some request) :
    ((c.handle request x).owe [request]).Consistent := by
  cases hid : c.requestIds[request]? with
  | none =>
    simp only [Channel.handle, hid]
    rw [owe_of_le (List.getElem?_eq_none_iff.mp hid)]
    exact h
  | some requestId =>
    cases hlookup : c.outstandingRpcs.lookup requestId with
    | some listener =>
      obtain ⟨hid', hdue⟩ := (h.outstanding _ _).mp hlookup
      obtain rfl := h.eq_of_id hid hid'
      simp only [Channel.handle, hid, hlookup]
      exact h.complete hid hdue (Or.inr hx)
    | none =>
      simp only [Channel.handle, hid, hlookup]
      apply h.owe_of_mem
      by_contra hdue
      have hsome := (h.outstanding requestId request).mpr ⟨hid, hdue⟩
      rw [hlookup] at hsome
      cases hsome

lemma Consistent.written (h : c.Consistent) (request : Nat) :
    Consistent { c with writing := c.writing.erase request } :=
  ⟨⟨h.once, h.own⟩, h.ids, h.due_lt, fun r hr => h.writing_lt r (List.mem_of_mem_erase hr),
    h.outstanding⟩

lemma Consistent.operationComplete (h : c.Consistent) {isSuccess : Bool}
    (hfails : c.FailsOutstanding (.writeComplete request isSuccess)) :
    (c.operationComplete request isSuccess).Consistent := by
  unfold Channel.operationComplete
  split_ifs with hwriting hsuccess
  · exact h.written request
  · rw [Bool.not_eq_true] at hsuccess
    subst hsuccess
    obtain ⟨requestId, hid, hlookup⟩ := hfails hwriting
    simp only [Channel.writeFailed, hid]
    exact (h.written request).complete hid ((h.outstanding _ _).mp hlookup).2 (Or.inl rfl)
  · exact h

/-- A request whose callback has been called gets a second call. -/
lemma failsOutstanding_of_completesOnce (h : c.Consistent)
    (honce : (c.operationComplete request false).CompletesOnce) :
    c.FailsOutstanding (.writeComplete request false) := by
  intro hwriting
  have hlt := h.writing_lt _ hwriting
  have hid : c.requestIds[request]? = some c.requestIds[request] := List.getElem?_eq_getElem hlt
  refine ⟨_, hid, (h.outstanding _ _).mpr ⟨hid, fun hdue => ?_⟩⟩
  have hbefore := h.once request
  have hafter := honce.once request
  simp only [Channel.operationComplete, hwriting, if_true, Bool.false_eq_true, if_false,
    Channel.writeFailed, hid, Channel.owe, Channel.invoke, removeRpcRequest, List.map_append,
    List.count_append, hdue, List.mem_append, or_true] at hbefore hafter
  simp at hafter
  omega

/-- All outstanding requests are completed at once. -/
lemma Consistent.failOutstandingRequests (h : c.Consistent) :
    (c.failOutstandingRequests.owe (List.range c.requestIds.length)).Consistent := by
  have hmem : ∀ r, r ∈ (c.failOutstandingRequests.owe (List.range c.requestIds.length)).due ↔
      r < c.requestIds.length := by
    intro r
    simp only [owe, Channel.failOutstandingRequests, List.mem_append, List.mem_filter,
      List.mem_range]
    exact ⟨fun hr => hr.elim And.left (h.due_lt r), fun hr => Or.inl ⟨hr, decide_eq_true hr⟩⟩
  have hentry : ∀ e ∈ c.outstandingRpcs.entries, c.requestIds[e.2]? = some e.1 ∧ e.2 ∉ c.due :=
    fun e he => (h.outstanding _ _).mp (AList.mem_lookup_iff.mpr he)
  have hnodup : (c.outstandingRpcs.entries.map fun e => e.2).Nodup := by
    refine List.Nodup.map_on ?_ c.outstandingRpcs.nodupKeys.nodup
    rintro ⟨id, r⟩ he ⟨id', r'⟩ he' (rfl : r = r')
    obtain rfl := Option.some.inj ((hentry _ he).1.symm.trans (hentry _ he').1)
    rfl
  refine ⟨⟨fun r => ?_, ?_⟩, h.ids, fun r hr => (hmem r).mp hr, h.writing_lt, ?_⟩
  · show ((c.invocations ++ c.outstandingRpcs.entries.map fun e =>
      (e.2, Completion.onFailure none)).map Prod.fst).count r = _
    rw [List.map_append, List.count_append, h.once, List.map_map]
    show _ + (c.outstandingRpcs.entries.map fun e => e.2).count r = _
    simp only [hmem]
    by_cases hdue : r ∈ c.due
    · have hnone : r ∉ c.outstandingRpcs.entries.map fun e => e.2 := by
        intro hr
        obtain ⟨e, he, rfl⟩ := List.mem_map.mp hr
        exact (hentry e he).2 hdue
      rw [if_pos hdue, if_pos (h.due_lt r hdue), List.count_eq_zero.mpr hnone]
    · rw [if_neg hdue, Nat.zero_add]
      split_ifs with hlt
      · have hid : c.requestIds[r]? = some c.requestIds[r] := List.getElem?_eq_getElem hlt
        have hlookup := (h.outstanding _ r).mpr ⟨hid, hdue⟩
        exact List.count_eq_one_of_mem hnodup
          (List.mem_map.mpr ⟨_, AList.mem_lookup_iff.mp hlookup, rfl⟩)
      · rw [List.count_eq_zero]
        intro hr
        obtain ⟨e, he, rfl⟩ := List.mem_map.mp hr
        exact hlt (List.getElem?_eq_some_iff.mp (hentry e he).1).1
  · intro y hy
    rcases List.mem_append.mp hy with hy | hy
    · exact h.own y hy
    · obtain ⟨e, _, rfl⟩ := List.mem_map.mp hy
      exact Or.inl rfl
  · intro id r
    rw [hmem]
    constructor
    · nofun
    · rintro ⟨hr, hge⟩
      exact absurd (List.getElem?_eq_some_iff.mp hr).1 hge

lemma failOutstandingRequests_of_empty (h : ¬c.outstandingRpcs.keys.length > 0) :
    c.failOutstandingRequests = c := by
  have hnil : c.outstandingRpcs.entries = [] := by
    rw [AList.keys, List.keys, List.length_map] at h
    exact List.eq_nil_of_length_eq_zero (by omega)
  have hempty : c.outstandingRpcs = ∅ := AList.ext hnil
  cases c
  subst hempty
  simp [Channel.failOutstandingRequests]

lemma channelInactive_eq : c.channelInactive = c.failOutstandingRequests := by
  unfold channelInactive
  split_ifs with h
  · rfl
  · exact (failOutstandingRequests_of_empty h).symm

lemma exceptionCaught_eq : c.exceptionCaught = c.failOutstandingRequests := channelInactive_eq

lemma Consistent.step (h : c.Consistent) {e : Event} (hfresh : c.FreshId e)
    (hfails : c.FailsOutstanding e) : (c.step e).Consistent := by
  cases e with
  | addRpcRequest requestId => exact h.send hfresh
  | writeComplete request isSuccess => exact h.operationComplete hfails
  | rpcResponse request => exact h.handle rfl
  | rpcFailure request => exact h.handle rfl
  | channelInactive =>
    rw [Channel.step, channelInactive_eq]
    exact h.failOutstandingRequests
  | exceptionCaught =>
    rw [Channel.step, exceptionCaught_eq]
    exact h.failOutstandingRequests

lemma completesOnce_step_iff (h : c.Consistent) {e : Event} (hfresh : c.FreshId e) :
    (c.step e).CompletesOnce ↔ c.FailsOutstanding e := by
  constructor
  · intro honce
    cases e with
    | writeComplete request isSuccess =>
      cases isSuccess with
      | true => trivial
      | false => exact failsOutstanding_of_completesOnce h honce
    | _ => trivial
  · exact fun hfails => (h.step hfresh hfails).toCompletesOnce

end Channel

/-! ### The server -/

structure Throwable where
  getMessage : Option String
  stackTrace : String
  deriving DecidableEq, Repr

inductive ResponseMessage
  | rpcResponse (requestId : Int) (body : String)
  | rpcFailure (requestId : Int) (errorString : String)
  deriving DecidableEq, Repr

/-- A call of the `RpcCallContext` of a request. -/
inductive Reply
  | reply (message : String)
  | sendFailure (e : Throwable)
  deriving DecidableEq, Repr

inductive Exit
  | returns
  | throwsException (e : Throwable)
  | throwsError
  deriving DecidableEq, Repr

/-- What `RpcHandler.receive` does: the calls of the context before it ends, how it ends, and the
calls that come later. -/
structure Receive where
  replies : List Reply
  exit : Exit
  later : List Reply
  deriving DecidableEq, Repr

namespace TransportRequestHandler

def failure (requestId : Int) (e : Throwable) : ResponseMessage :=
  .rpcFailure requestId (e.getMessage.getD e.stackTrace)

def respond (requestId : Int) : Reply → ResponseMessage
  | .reply message => .rpcResponse requestId message
  | .sendFailure e => failure requestId e

/-- The responses to a request, in the order in which they are written. -/
def handle (requestId : Int) (receive : Receive) : List ResponseMessage :=
  let caught := match receive.exit with
    | .throwsException e => [failure requestId e]
    | _ => []
  receive.replies.map (respond requestId) ++ caught ++ receive.later.map (respond requestId)

end TransportRequestHandler

/-- The context is called once, or never and an exception is thrown. -/
def Receive.RepliesOnce (receive : Receive) : Prop :=
  match receive.exit with
  | .throwsException _ => receive.replies = [] ∧ receive.later = []
  | _ => receive.replies.length + receive.later.length = 1

lemma TransportRequestHandler.length_handle_iff (requestId : Int) (receive : Receive) :
    (handle requestId receive).length = 1 ↔ receive.RepliesOnce := by
  obtain ⟨replies, exit, later⟩ := receive
  cases exit with
  | returns => simp [handle, Receive.RepliesOnce]
  | throwsError => simp [handle, Receive.RepliesOnce]
  | throwsException e =>
    simp only [handle, Receive.RepliesOnce, List.length_append, List.length_map,
      List.length_singleton, ← List.length_eq_zero_iff]
    omega

/-! ### Runs -/

/-- As long as no id is used twice, every event leaves each callback called once if it is to be
called and not otherwise, when and only when writes fail only while their requests are outstanding.
And the server sends one response exactly if `receive` answers once. -/
theorem rpc_completes_once (events : List Event) (requestId : Nat) (receive : Receive) :
    (EachStep Channel.step (fun c e => c.FreshId e ∧ (c.step e).CompletesOnce) {} events ↔
      EachStep Channel.step (fun c e => c.FreshId e ∧ c.FailsOutstanding e) {} events) ∧
    ((TransportRequestHandler.handle requestId receive).length = 1 ↔ receive.RepliesOnce) := by
  refine ⟨?_, TransportRequestHandler.length_handle_iff requestId receive⟩
  refine eachStep_iff (I := Channel.Consistent) ?_ ?_ Channel.consistent_empty
  · exact fun c e h => and_congr_right fun hfresh => Channel.completesOnce_step_iff h hfresh
  · exact fun c e h hstep => h.step hstep.1 hstep.2

/-- An exception on the channel fails a request whose write then fails as well, and a handler throws
after it has replied. -/
theorem rpc_completes_once_fails :
    (¬∀ events, EachStep Channel.step Channel.FreshId {} events →
      (events.foldl Channel.step {}).CompletesOnce) ∧
    ¬∀ requestId receive, (TransportRequestHandler.handle requestId receive).length = 1 := by
  constructor
  · intro h
    have honce := h [.addRpcRequest 7, .exceptionCaught, .writeComplete 0 false]
      ⟨by simp [Channel.FreshId], trivial, trivial, trivial⟩
    exact absurd (honce.once 0) (by decide)
  · intro h
    exact absurd (h 7 ⟨[.reply "done"], .throwsException ⟨some "late", ""⟩, []⟩) (by decide)

end Moonbox.Network
