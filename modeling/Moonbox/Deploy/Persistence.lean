import Mathlib.Data.List.AList
import Mathlib.Tactic.Lemma
import Moonbox.Deploy.Messages

/-!
# The persistence engine

`PersistenceEngine` with its two implementations: `BlackHolePersistenceEngine` drops everything,
`ZookeeperPersistenceEngine` keeps a node for every driver, worker and application. A node holds
what the serializer keeps of the object, that is its fields that are not `@transient`, under the
object's id. A directory of the store is a map in which `create` fails on an existing node and
`delete` on a missing one.
-/

namespace Moonbox.Deploy

structure WorkerRecord where
  id : String
  host : String
  port : Nat
  address : Address
  endpoint : ActorRef
  deriving DecidableEq, Repr, Inhabited

structure DriverRecord where
  startTime : Nat
  id : String
  desc : DriverDesc
  submitDate : Nat
  deriving DecidableEq, Repr, Inhabited

structure AppRecord where
  startTime : Nat
  id : String
  host : String
  port : Nat
  address : Address
  dataPort : Nat
  endpoint : ActorRef
  appType : String
  deriving DecidableEq, Repr, Inhabited

/-! ### Directories of nodes -/

/-- A directory of the store. A node is only ever written under the id of the object in it. -/
structure Directory (ρ : Type) (idOf : ρ → String) where
  nodes : AList fun _ : String => ρ
  keyed : ∀ {name : String} {value : ρ}, nodes.lookup name = some value → idOf value = name

namespace Directory

variable {ρ : Type} {idOf : ρ → String}

instance : EmptyCollection (Directory ρ idOf) := ⟨⟨∅, by simp⟩⟩

instance : Inhabited (Directory ρ idOf) := ⟨∅⟩

def exist (dir : Directory ρ idOf) (name : String) : Bool := (dir.nodes.lookup name).isSome

def create (dir : Directory ρ idOf) (value : ρ) : Except String (Directory ρ idOf) :=
  if dir.exist (idOf value) then .error "NodeExists"
  else .ok
    { nodes := dir.nodes.insert (idOf value) value
      keyed := by
        intro name value' h
        by_cases hn : name = idOf value
        · subst hn
          simp only [AList.lookup_insert, Option.some.injEq] at h
          rw [h]
        · rw [AList.lookup_insert_ne hn] at h
          exact dir.keyed h }

def delete (dir : Directory ρ idOf) (name : String) : Except String (Directory ρ idOf) :=
  if dir.exist name then .ok
    { nodes := dir.nodes.erase name
      keyed := by
        intro name' value h
        by_cases hn : name' = name
        · subst hn
          simp at h
        · rw [AList.lookup_erase_ne hn] at h
          exact dir.keyed h }
  else .error "NoNode"

/-- `serializeInfoFile`: an existing node is replaced, and an exception is only logged. -/
def persist (dir : Directory ρ idOf) (value : ρ) : Directory ρ idOf :=
  let written := do
    let dir' ← if dir.exist (idOf value) then dir.delete (idOf value) else .ok dir
    dir'.create value
  match written with
  | .ok dir' => dir'
  | .error _ => dir

def unpersist (dir : Directory ρ idOf) (name : String) : Except String (Directory ρ idOf) :=
  dir.delete name

/-- The records of a directory, in the order in which the store lists its children. -/
def read (dir : Directory ρ idOf) : List ρ := dir.nodes.entries.map Sigma.snd

@[simp] lemma lookup_persist (dir : Directory ρ idOf) (value : ρ) (name : String) :
    (dir.persist value).nodes.lookup name =
      if name = idOf value then some value else dir.nodes.lookup name := by
  by_cases he : (dir.nodes.lookup (idOf value)).isSome = true
  · by_cases hn : name = idOf value
    · subst hn
      simp [persist, delete, create, exist, he, bind, Except.bind]
    · simp [persist, delete, create, exist, he, hn, bind, Except.bind]
  · by_cases hn : name = idOf value
    · subst hn
      simp [persist, create, exist, he, bind, Except.bind]
    · simp [persist, create, exist, he, hn, bind, Except.bind]

lemma lookup_unpersist {dir dir' : Directory ρ idOf} {name : String}
    (h : dir.unpersist name = .ok dir') (name' : String) :
    dir'.nodes.lookup name' = if name' = name then none else dir.nodes.lookup name' := by
  simp only [unpersist, delete] at h
  split at h
  · cases h
    by_cases hn : name' = name
    · subst hn
      simp
    · simp [hn]
  · cases h

lemma exists_unpersist {dir : Directory ρ idOf} {name : String} {value : ρ}
    (h : dir.nodes.lookup name = some value) : ∃ dir', dir.unpersist name = .ok dir' := by
  simp [unpersist, delete, exist, h]

lemma mem_read {dir : Directory ρ idOf} {value : ρ} :
    value ∈ dir.read ↔ dir.nodes.lookup (idOf value) = some value := by
  simp only [read, List.mem_map]
  constructor
  · rintro ⟨⟨name, _⟩, h, rfl⟩
    have hl := AList.mem_lookup_iff.mpr h
    rwa [dir.keyed hl]
  · intro h
    exact ⟨⟨idOf value, value⟩, AList.mem_lookup_iff.mp h, rfl⟩

lemma nodup_map_read (dir : Directory ρ idOf) : (dir.read.map idOf).Nodup := by
  have hk : dir.read.map idOf = dir.nodes.keys := by
    simp only [read, AList.keys, List.keys, List.map_map]
    exact List.map_congr_left fun e he => dir.keyed (AList.mem_lookup_iff.mpr he)
  rw [hk]
  exact dir.nodes.nodupKeys

lemma nodup_read (dir : Directory ρ idOf) : dir.read.Nodup := .of_map _ dir.nodup_map_read

end Directory

/-! ### The engine -/

/-- The tree under the working directory. -/
structure ZkStore where
  drivers : Directory DriverRecord DriverRecord.id := ∅
  workers : Directory WorkerRecord WorkerRecord.id := ∅
  apps : Directory AppRecord AppRecord.id := ∅

inductive PersistenceEngine where
  | blackHole
  | zookeeper (store : ZkStore)

namespace PersistenceEngine

def addDriver (driver : DriverRecord) : PersistenceEngine → PersistenceEngine
  | blackHole => blackHole
  | zookeeper zk => zookeeper { zk with drivers := zk.drivers.persist driver }

def removeDriver (driver : DriverRecord) : PersistenceEngine → Except String PersistenceEngine
  | blackHole => .ok blackHole
  | zookeeper zk => do
    let drivers ← zk.drivers.unpersist driver.id
    .ok (zookeeper { zk with drivers := drivers })

def addWorker (node : WorkerRecord) : PersistenceEngine → PersistenceEngine
  | blackHole => blackHole
  | zookeeper zk => zookeeper { zk with workers := zk.workers.persist node }

def removeWorker (node : WorkerRecord) : PersistenceEngine → Except String PersistenceEngine
  | blackHole => .ok blackHole
  | zookeeper zk => do
    let workers ← zk.workers.unpersist node.id
    .ok (zookeeper { zk with workers := workers })

def addApplication (app : AppRecord) : PersistenceEngine → PersistenceEngine
  | blackHole => blackHole
  | zookeeper zk => zookeeper { zk with apps := zk.apps.persist app }

def removeApplication (app : AppRecord) : PersistenceEngine → Except String PersistenceEngine
  | blackHole => .ok blackHole
  | zookeeper zk => do
    let apps ← zk.apps.unpersist app.id
    .ok (zookeeper { zk with apps := apps })

def readDrivers : PersistenceEngine → List DriverRecord
  | blackHole => []
  | zookeeper zk => zk.drivers.read

def readWorkers : PersistenceEngine → List WorkerRecord
  | blackHole => []
  | zookeeper zk => zk.workers.read

def readApplication : PersistenceEngine → List AppRecord
  | blackHole => []
  | zookeeper zk => zk.apps.read

lemma nodup_readDrivers (engine : PersistenceEngine) :
    (engine.readDrivers.map DriverRecord.id).Nodup := by
  cases engine with
  | blackHole => exact .nil
  | zookeeper zk => exact zk.drivers.nodup_map_read

lemma nodup_readWorkers (engine : PersistenceEngine) :
    (engine.readWorkers.map WorkerRecord.id).Nodup := by
  cases engine with
  | blackHole => exact .nil
  | zookeeper zk => exact zk.workers.nodup_map_read

lemma nodup_readApplication (engine : PersistenceEngine) :
    (engine.readApplication.map AppRecord.id).Nodup := by
  cases engine with
  | blackHole => exact .nil
  | zookeeper zk => exact zk.apps.nodup_map_read

end PersistenceEngine

end Moonbox.Deploy
