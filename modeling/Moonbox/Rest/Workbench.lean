import Mathlib.Data.List.AList
import Moonbox.Lib.Handler
import Moonbox.Lib.Runs
import Moonbox.Security.Login

/-!
# The workbench

`WorkbenchService` with its `MoonboxConnectionCache`. Connections and statements are objects of
the platform: the maps hold references to them and the objects live in a heap. A call runs up to
the statement it executes in one step, and the statement ends in another.
-/

namespace Moonbox.Rest

open Actor Security

/-! ### Objects of the platform -/

structure ConnectionRef where
  index : Nat
  deriving DecidableEq, Repr

structure StatementRef where
  index : Nat
  deriving DecidableEq, Repr

/-- The objects that are compared by `equals`. -/
inductive JavaObject where
  | string (s : String)
  | connection (c : ConnectionRef)
  | statement (s : StatementRef)
  deriving DecidableEq, Repr

class AsObject (α : Type) where
  object : α → JavaObject

instance : AsObject String := ⟨.string⟩
instance : AsObject ConnectionRef := ⟨.connection⟩
instance : AsObject StatementRef := ⟨.statement⟩

abbrev ConcurrentHashMap (V : Type) := AList fun _ : String => V

/-- `contains` is the method the class has from `Hashtable`: it looks for a value and not for a
key. -/
def ConcurrentHashMap.contains {A V : Type} [AsObject A] [AsObject V] (m : ConcurrentHashMap V)
    (value : A) : Bool :=
  m.entries.any fun e => AsObject.object e.2 == AsObject.object value

/-- No connection and no statement is a string. -/
@[simp] lemma contains_connections (m : ConcurrentHashMap ConnectionRef) (key : String) :
    ConcurrentHashMap.contains m key = false := by
  simp [ConcurrentHashMap.contains, AsObject.object]

@[simp] lemma contains_statements (m : ConcurrentHashMap StatementRef) (key : String) :
    ConcurrentHashMap.contains m key = false := by
  simp [ConcurrentHashMap.contains, AsObject.object]

abbrev Props := String → Option String

/-- A connection with the properties it was opened with; `console` and the number of cancel
requests sent on it are recorded for the proofs. -/
structure Connection where
  info : Props
  isClosed : Bool
  console : String
  cancels : Nat := 0

instance : Inhabited Connection := ⟨⟨fun _ => none, true, "", 0⟩⟩

/-- A statement, with the request it was created for. -/
structure Statement where
  connection : ConnectionRef
  consoleId : String
  session : Session
  running : Bool

instance : Inhabited Statement := ⟨⟨⟨0⟩, "", default, false⟩⟩

structure Workbench where
  connectionMap : ConcurrentHashMap ConnectionRef := ∅
  statementMap : ConcurrentHashMap StatementRef := ∅
  connection : ConnectionRef → Connection := default
  statement : StatementRef → Statement := default
  nextConnection : Nat := 0
  nextStatement : Nat := 0

structure ExecuteRequest where
  consoleId : String
  sql : String
  props : Props

/-- Whether the driver manager opens the connection asked for, and whether the close of one goes
through. -/
structure Network where
  opens : Bool
  closes : Bool

namespace Workbench

variable (network : Network)

def updateConnection (ref : ConnectionRef) (f : Connection → Connection) (w : Workbench) :
    Workbench :=
  { w with connection := Function.update w.connection ref (f (w.connection ref)) }

def updateStatement (ref : StatementRef) (f : Statement → Statement) (w : Workbench) : Workbench :=
  { w with statement := Function.update w.statement ref (f (w.statement ref)) }

def close (ref : ConnectionRef) : Handler Workbench Unit :=
  if network.closes then Handler.modify (updateConnection ref ({ · with isClosed := true }))
  else Handler.throw "SQLException"

/-! ### `MoonboxConnectionCache` -/

def allocConnection (consoleId : String) (props : Props) (w : Workbench) : Workbench :=
  { w with
    connection := Function.update w.connection ⟨w.nextConnection⟩ ⟨props, false, consoleId, 0⟩
    nextConnection := w.nextConnection + 1 }

def newConnection (consoleId : String) (props : Props) : Handler Workbench ConnectionRef := do
  if network.opens then
    let w ← Handler.get
    Handler.modify (allocConnection consoleId props)
    pure ⟨w.nextConnection⟩
  else Handler.throw "SQLException"

/-- `connection = newConnection(..)` and `connectionMap.put(consoleId, connection)`. -/
def renewConnection (consoleId : String) (props : Props) : Handler Workbench ConnectionRef := do
  let connection ← newConnection network consoleId props
  Handler.modify fun w => { w with connectionMap := w.connectionMap.insert consoleId connection }
  pure connection

def getConnection (consoleId : String) (props : Props) : Handler Workbench ConnectionRef := do
  let w ← Handler.get
  if ConcurrentHashMap.contains w.connectionMap consoleId then
    match w.connectionMap.lookup consoleId with
    | some connection =>
      if (w.connection connection).isClosed then renewConnection network consoleId props
      else if (w.connection connection).info "apptype" ≠ props "apptype" then do
        Handler.tryCatch (close network connection) fun _ => pure ()
        renewConnection network consoleId props
      else pure connection
    | none => Handler.throw "NullPointerException"
  else renewConnection network consoleId props

def removeConnection (consoleId : String) : Handler Workbench Unit := do
  let w ← Handler.get
  if ConcurrentHashMap.contains w.connectionMap consoleId then
    match w.connectionMap.lookup consoleId with
    | some connection => do
      Handler.modify fun w => { w with connectionMap := w.connectionMap.erase consoleId }
      if (w.connection connection).isClosed then pure ()
      else Handler.tryCatch (close network connection) fun _ => pure ()
    | none => Handler.throw "NullPointerException"
  else pure ()

/-! ### `WorkbenchService` -/

def checkProps (props : Props) : Bool := (props "apptype").isSome && (props "maxrows").isSome

/-- The properties of the request with the user and the password of the session. -/
def withCredentials (props : Props) (session : Session) : Props :=
  Function.update
    (Function.update props "user" (some (session.org ++ "@" ++ session.user)))
    "password" (some session.password)

def createStatement (connection : ConnectionRef) (consoleId : String) (session : Session) :
    Handler Workbench StatementRef := do
  let w ← Handler.get
  if (w.connection connection).isClosed then
    Handler.throw "No operations allowed after connection closed."
  else
    Handler.modify fun w => { w with
      statement := Function.update w.statement ⟨w.nextStatement⟩
        ⟨connection, consoleId, session, true⟩
      nextStatement := w.nextStatement + 1 }
    pure ⟨w.nextStatement⟩

/-- Up to `executeQuery`. What fails from there on is a statement that ends without success. -/
def executeConsole (request : ExecuteRequest) (session : Session) : Handler Workbench Unit := do
  if checkProps request.props then
    let newProps := withCredentials request.props session
    let conn ← getConnection network request.consoleId newProps
    let statement ← createStatement conn request.consoleId session
    Handler.modify fun w =>
      { w with statementMap := w.statementMap.insert request.consoleId statement }
  else Handler.throw "requirement failed"

/-- Only a statement that succeeds is removed from the map. -/
def endStatement (statement : StatementRef) (success : Bool) (w : Workbench) : Workbench :=
  let w := w.updateStatement statement ({ · with running := false })
  if success then
    { w with statementMap := w.statementMap.erase (w.statement statement).consoleId }
  else w

def cancelConsole (consoleId : String) : Handler Workbench Unit := do
  let w ← Handler.get
  if ConcurrentHashMap.contains w.statementMap consoleId then
    match w.statementMap.lookup consoleId with
    | some statement => do
      Handler.modify (updateConnection (w.statement statement).connection
        fun c => { c with cancels := c.cancels + 1 })
      Handler.modify fun w => { w with statementMap := w.statementMap.erase consoleId }
    | none => Handler.throw "NullPointerException"
  else pure ()

def closeConnection (consoleId : String) : Handler Workbench Unit :=
  removeConnection network consoleId

end Workbench

/-! ### Runs -/

/-- The calls of the users and what else happens: a statement ends, a connection dies. -/
inductive Call where
  | executeConsole (request : ExecuteRequest) (session : Session) (network : Network)
  | cancelConsole (consoleId : String) (session : Session)
  | closeConnection (consoleId : String) (session : Session) (network : Network)
  | ended (statement : StatementRef) (success : Bool)
  | dies (connection : ConnectionRef)

/-- The user and the password of the session opened the connection. -/
def Connection.belongsTo (c : Connection) (session : Session) : Prop :=
  c.info "user" = some (session.org ++ "@" ++ session.user) ∧
    c.info "password" = some session.password

namespace Workbench

def step (w : Workbench) : Call → Workbench
  | .executeConsole request session network => (executeConsole network request session).exec w
  | .cancelConsole consoleId _ => (cancelConsole consoleId).exec w
  | .closeConnection consoleId _ network => (closeConnection network consoleId).exec w
  | .ended statement success => w.endStatement statement success
  | .dies connection => w.updateConnection connection ({ · with isClosed := true })

/-- The open connection of a console, if the user of the session opened it. -/
def Own (w : Workbench) (consoleId : String) (session : Session) (ref : ConnectionRef) : Prop :=
  (w.connection ref).isClosed = false ∧ (w.connection ref).console = consoleId ∧
    (w.connection ref).belongsTo session

def RunsOn (w : Workbench) (ref : ConnectionRef) : Prop :=
  ∃ st, (w.statement st).running = true ∧ (w.statement st).connection = ref

/-- Statements run on connections of their users, every open connection is the one the cache has
for its console, and so there is one at most. -/
structure Sound (w : Workbench) : Prop where
  own : ∀ st, (w.statement st).running = true →
    (w.connection (w.statement st).connection).belongsTo (w.statement st).session
  cached : ∀ ref, (w.connection ref).isClosed = false →
    w.connectionMap.lookup (w.connection ref).console = some ref
  one : ∀ ref ref', (w.connection ref).isClosed = false → (w.connection ref').isClosed = false →
    (w.connection ref).console = (w.connection ref').console → ref = ref'

/-- What a cancel or a close is to do: a cancel goes to the connection of the user that runs
something on the console, if there is one, and a close closes the connection he has open there. -/
def Acts (w w' : Workbench) : Call → Prop
  | .cancelConsole consoleId session => ∀ ref,
    ((w'.connection ref).cancels ≠ (w.connection ref).cancels → w.Own consoleId session ref) ∧
    (w.Own consoleId session ref → w.RunsOn ref →
      (w'.connection ref).cancels ≠ (w.connection ref).cancels)
  | .closeConnection consoleId session _ => ∀ ref,
    (w'.connection ref).isClosed ≠ (w.connection ref).isClosed ↔ w.Own consoleId session ref
  | _ => True

/-- Every state of the run is sound and every call does what it is to do. -/
def Correct (calls : List Call) : Prop :=
  EachStep step (fun w call => (w.step call).Sound ∧ w.Acts (w.step call) call) {} calls

/-- A console executes only when the connection that the cache has for it is closed, cancels only
when its user runs nothing there, and closes only when he has no connection open there. -/
def Meets (w : Workbench) : Call → Prop
  | .executeConsole request _ network => checkProps request.props = true → network.opens = true →
    ∀ ref, w.connectionMap.lookup request.consoleId = some ref →
      (w.connection ref).isClosed = true
  | .cancelConsole consoleId session => ∀ ref, w.Own consoleId session ref → ¬ w.RunsOn ref
  | .closeConnection consoleId session _ => ∀ ref, ¬ w.Own consoleId session ref
  | _ => True

/-! ### What the calls do -/

lemma executeConsole_eq (w : Workbench) (request : ExecuteRequest) (session : Session)
    (network : Network) :
    w.step (.executeConsole request session network) =
      if checkProps request.props = true ∧ network.opens = true then
        { w with
          connectionMap := w.connectionMap.insert request.consoleId ⟨w.nextConnection⟩
          statementMap := w.statementMap.insert request.consoleId ⟨w.nextStatement⟩
          connection := Function.update w.connection ⟨w.nextConnection⟩
            ⟨withCredentials request.props session, false, request.consoleId, 0⟩
          statement := Function.update w.statement ⟨w.nextStatement⟩
            ⟨⟨w.nextConnection⟩, request.consoleId, session, true⟩
          nextConnection := w.nextConnection + 1
          nextStatement := w.nextStatement + 1 }
      else w := by
  by_cases hprops : checkProps request.props = true
  · cases hopens : network.opens with
    | true =>
      simp [step, executeConsole, getConnection, renewConnection, newConnection, createStatement,
        allocConnection, Handler.exec, Handler.get, Handler.modify, bind, pure, hprops, hopens]
    | false =>
      simp [step, executeConsole, getConnection, renewConnection, newConnection, Handler.exec,
        Handler.get, Handler.throw, bind, hprops, hopens]
  · simp [step, executeConsole, Handler.exec, Handler.throw, hprops]

lemma cancelConsole_eq (w : Workbench) (consoleId : String) (session : Session) :
    w.step (.cancelConsole consoleId session) = w := by
  simp [step, cancelConsole, Handler.exec, Handler.get, bind, pure]

lemma closeConnection_eq (w : Workbench) (consoleId : String) (session : Session)
    (network : Network) : w.step (.closeConnection consoleId session network) = w := by
  simp [step, closeConnection, removeConnection, Handler.exec, Handler.get, bind, pure]

/-- The next references are free, and what the cache has for a console was opened for it. -/
structure Valid (w : Workbench) : Prop where
  fresh : ∀ ref, w.nextConnection ≤ ref.index → (w.connection ref).isClosed = true
  used : ∀ st, (w.statement st).running = true →
    (w.statement st).connection.index < w.nextConnection
  keys : ∀ key ref, w.connectionMap.lookup key = some ref →
    ref.index < w.nextConnection ∧ (w.connection ref).console = key

lemma ne_next {n : Nat} {ref : ConnectionRef} (h : ref.index < n) : ref ≠ ⟨n⟩ := by
  rintro rfl
  exact absurd h (Nat.lt_irrefl n)

lemma withCredentials_belongsTo (props : Props) (session : Session) (consoleId : String) :
    (Connection.mk (withCredentials props session) false consoleId 0).belongsTo session := by
  constructor <;> simp [withCredentials]

section Execute

variable {w : Workbench} {request : ExecuteRequest} {session : Session} {network : Network}
  (hprops : checkProps request.props = true) (hopens : network.opens = true)

include hprops hopens

lemma Valid.executeConsole (h : w.Valid) :
    (w.step (.executeConsole request session network)).Valid := by
  rw [executeConsole_eq, if_pos ⟨hprops, hopens⟩]
  refine ⟨fun ref hle => ?_, fun st hrunning => ?_, fun key ref hlookup => ?_⟩
  · have hne : ref ≠ ⟨w.nextConnection⟩ := by
      rintro rfl
      exact absurd hle (Nat.not_succ_le_self _)
    simp only [Function.update_of_ne hne]
    exact h.fresh ref (Nat.le_of_succ_le hle)
  · by_cases hst : st = ⟨w.nextStatement⟩
    · simp [hst]
    · simp only [Function.update_of_ne hst] at hrunning ⊢
      exact Nat.lt_succ_of_lt (h.used st hrunning)
  · by_cases hkey : key = request.consoleId
    · subst hkey
      rw [AList.lookup_insert] at hlookup
      cases hlookup
      simp
    · rw [AList.lookup_insert_ne hkey] at hlookup
      obtain ⟨hlt, hconsole⟩ := h.keys key ref hlookup
      simp only [Function.update_of_ne (ne_next hlt)]
      exact ⟨Nat.lt_succ_of_lt hlt, hconsole⟩

/-- The connection that is opened takes the place of the one the cache has, which therefore must
not be open. -/
lemma Sound.executeConsole_iff (hvalid : w.Valid) (h : w.Sound) :
    (w.step (.executeConsole request session network)).Sound ↔
      ∀ ref, w.connectionMap.lookup request.consoleId = some ref →
        (w.connection ref).isClosed = true := by
  rw [executeConsole_eq, if_pos ⟨hprops, hopens⟩]
  constructor
  · intro hsound ref hlookup
    by_contra hopen
    rw [Bool.not_eq_true] at hopen
    obtain ⟨hlt, hconsole⟩ := hvalid.keys _ ref hlookup
    have hone := hsound.one ref ⟨w.nextConnection⟩
    simp only [Function.update_of_ne (ne_next hlt), Function.update_self, hopen, hconsole,
      forall_const] at hone
    exact ne_next hlt hone
  · intro hclosed
    have hother : ∀ ref, (w.connection ref).isClosed = false →
        (w.connection ref).console ≠ request.consoleId := by
      intro ref hopen heq
      have hlookup := h.cached ref hopen
      rw [heq] at hlookup
      rw [hclosed ref hlookup] at hopen
      cases hopen
    have hcached : ∀ ref, ((Function.update w.connection ⟨w.nextConnection⟩
        ⟨withCredentials request.props session, false, request.consoleId, 0⟩) ref).isClosed =
          false → (w.connectionMap.insert request.consoleId ⟨w.nextConnection⟩).lookup
            ((Function.update w.connection ⟨w.nextConnection⟩
              ⟨withCredentials request.props session, false, request.consoleId, 0⟩) ref).console =
          some ref := by
      intro ref hopen
      by_cases href : ref = ⟨w.nextConnection⟩
      · subst href
        rw [Function.update_self]
        exact AList.lookup_insert _
      · rw [Function.update_of_ne href] at hopen ⊢
        rw [AList.lookup_insert_ne (hother ref hopen)]
        exact h.cached ref hopen
    refine ⟨fun st hrunning => ?_, hcached, fun ref ref' hopen hopen' hconsole => ?_⟩
    · by_cases hst : st = ⟨w.nextStatement⟩
      · subst hst
        simp only [Function.update_self]
        exact withCredentials_belongsTo _ _ _
      · simp only [Function.update_of_ne hst] at hrunning ⊢
        rw [Function.update_of_ne (ne_next (hvalid.used st hrunning))]
        exact h.own st hrunning
    · have hlookup := hcached ref hopen
      rw [hconsole, hcached ref' hopen'] at hlookup
      exact (Option.some.inj hlookup).symm

end Execute

lemma endStatement_eq (w : Workbench) (st : StatementRef) (success : Bool) :
    ∃ statementMap, w.endStatement st success =
      { w with
        statementMap := statementMap
        statement := Function.update w.statement st
          { w.statement st with running := false } } := by
  cases success with
  | true => exact ⟨_, rfl⟩
  | false => exact ⟨_, rfl⟩

lemma running_of_ended {w : Workbench} {st st' : StatementRef}
    (h : ((Function.update w.statement st { w.statement st with running := false }) st').running =
      true) :
    st' ≠ st ∧ (w.statement st').running = true := by
  by_cases hst : st' = st
  · subst hst
    simp at h
  · rw [Function.update_of_ne hst] at h
    exact ⟨hst, h⟩

lemma Valid.ended {w : Workbench} (h : w.Valid) (st : StatementRef) (success : Bool) :
    (w.step (.ended st success)).Valid := by
  obtain ⟨statementMap, heq⟩ := endStatement_eq w st success
  rw [step, heq]
  refine ⟨h.fresh, fun st' hrunning => ?_, h.keys⟩
  obtain ⟨hst, hrunning⟩ := running_of_ended hrunning
  simp only [Function.update_of_ne hst]
  exact h.used st' hrunning

lemma Sound.ended {w : Workbench} (h : w.Sound) (st : StatementRef) (success : Bool) :
    (w.step (.ended st success)).Sound := by
  obtain ⟨statementMap, heq⟩ := endStatement_eq w st success
  rw [step, heq]
  refine ⟨fun st' hrunning => ?_, h.cached, h.one⟩
  obtain ⟨hst, hrunning⟩ := running_of_ended hrunning
  simp only [Function.update_of_ne hst]
  exact h.own st' hrunning

/-- A connection that dies keeps everything but its being open. -/
lemma dies_connection (w : Workbench) (dead ref : ConnectionRef) :
    (w.step (.dies dead)).connection ref =
      { w.connection ref with
        isClosed := (w.connection ref).isClosed || decide (ref = dead) } := by
  by_cases h : ref = dead
  · subst h
    simp [step, updateConnection]
  · simp [step, updateConnection, h]

lemma Valid.dies {w : Workbench} (h : w.Valid) (dead : ConnectionRef) :
    (w.step (.dies dead)).Valid := by
  refine ⟨fun ref hle => ?_, h.used, fun key ref hlookup => ?_⟩
  · rw [dies_connection, h.fresh ref hle]
    rfl
  · rw [dies_connection]
    exact h.keys key ref hlookup

lemma Sound.dies {w : Workbench} (h : w.Sound) (dead : ConnectionRef) :
    (w.step (.dies dead)).Sound := by
  have hopen : ∀ ref, ((w.step (.dies dead)).connection ref).isClosed = false →
      (w.connection ref).isClosed = false := by
    intro ref hopen
    rw [dies_connection, Bool.or_eq_false_iff] at hopen
    exact hopen.1
  refine ⟨fun st hrunning => ?_, fun ref href => ?_, fun ref ref' href href' hconsole => ?_⟩
  · rw [dies_connection]
    exact h.own st hrunning
  · rw [dies_connection]
    exact h.cached ref (hopen ref href)
  · rw [dies_connection, dies_connection] at hconsole
    exact h.one ref ref' (hopen ref href) (hopen ref' href') hconsole

/-! ### Runs -/

lemma Valid.step {w : Workbench} (h : w.Valid) (call : Call) : (w.step call).Valid := by
  cases call with
  | executeConsole request session network =>
    by_cases hopens : checkProps request.props = true ∧ network.opens = true
    · exact h.executeConsole hopens.1 hopens.2
    · rw [executeConsole_eq, if_neg hopens]
      exact h
  | cancelConsole consoleId session => rwa [cancelConsole_eq]
  | closeConnection consoleId session network => rwa [closeConnection_eq]
  | ended statement success => exact h.ended statement success
  | dies connection => exact h.dies connection

/-- One call from a sound state. -/
lemma Sound.step_iff {w : Workbench} (hvalid : w.Valid) (h : w.Sound) (call : Call) :
    (w.step call).Sound ∧ w.Acts (w.step call) call ↔ w.Meets call := by
  cases call with
  | executeConsole request session network =>
    by_cases hopens : checkProps request.props = true ∧ network.opens = true
    · rw [h.executeConsole_iff hopens.1 hopens.2 hvalid]
      simp [Acts, Meets, hopens.1, hopens.2]
    · rw [executeConsole_eq, if_neg hopens]
      simp only [Acts, Meets, and_true, h, true_iff]
      exact fun hprops hnetwork => absurd ⟨hprops, hnetwork⟩ hopens
  | cancelConsole consoleId session =>
    rw [cancelConsole_eq]
    simp [Acts, Meets, h]
  | closeConnection consoleId session network =>
    rw [closeConnection_eq]
    simp [Acts, Meets, h]
  | ended statement success => simp [Acts, Meets, h.ended statement success]
  | dies connection => simp [Acts, Meets, h.dies connection]

lemma valid_empty : Workbench.Valid {} := by
  constructor <;> simp [default]

lemma sound_empty : Workbench.Sound {} := by
  constructor <;> simp [default]

/-- The workbench is right in every state and every call of a run just if the calls of the run
meet the conditions. -/
theorem connections_belong_to_users (calls : List Call) :
    Correct calls ↔ EachStep step Meets {} calls := by
  apply eachStep_iff (I := fun w => w.Valid ∧ w.Sound)
  · intro w call h
    exact h.2.step_iff h.1 call
  · intro w call h hmeets
    exact ⟨h.1.step call, ((h.2.step_iff h.1 call).mpr hmeets).1⟩
  · exact ⟨valid_empty, sound_empty⟩

def sessionOfBob : Session where
  org := "a"
  orgId := 1
  user := "bob"
  userId := 2
  roleType := .NORMAL
  password := "secret"

def bobsRequest : ExecuteRequest where
  consoleId := "console"
  sql := "select 1"
  props := fun key => if key = "apptype" ∨ key = "maxrows" then some "100" else none

/-- A console that executes twice leaves its first connection open, outside of the cache. -/
theorem connections_belong_to_users_fails :
    ¬ Correct
      [.executeConsole bobsRequest sessionOfBob ⟨true, true⟩,
        .executeConsole bobsRequest sessionOfBob ⟨true, true⟩] := by
  intro h
  have hsound := h.2.1.1
  have hone := hsound.one ⟨0⟩ ⟨1⟩
  rw [executeConsole_eq, if_pos (by decide), executeConsole_eq, if_pos (by decide)] at hone
  simp [bobsRequest, Function.update] at hone

end Workbench

end Moonbox.Rest
