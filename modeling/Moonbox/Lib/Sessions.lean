import Moonbox.Lib.Reachable
import Moonbox.Lib.Relational

/-!
# Sessions

Sessions run their actions on one database, a step of one and then a step of another. Every step
is atomic, nothing else is. A guard restricts a system to the steps whose writes meet it.
-/

namespace Relational

variable {τ : Type} {E : τ → Type} [∀ t, Row (E t)] [DecidableEq τ]

/-- The database and what is left of the actions the sessions have started. -/
structure Sessions (E : τ → Type) [∀ t, Row (E t)] where
  db : Database E
  running : List (Action E Unit)

namespace Sessions

variable {ops : Action E Unit → Prop} {guard : Database E → List (Write E) → Prop}

inductive Step (ops : Action E Unit → Prop) (guard : Database E → List (Write E) → Prop) :
    Sessions E → Sessions E → Prop
  | start {s : Sessions E} {m : Action E Unit} (h : ops m) :
    Step ops guard s { s with running := s.running ++ [m] }
  | advance {s : Sessions E} {i : Nat} {writes : Database E → List (Write E)}
    {next : Database E → Action E Unit} (h : s.running[i]? = some (.step writes next))
    (hg : guard s.db (writes s.db)) :
    Step ops guard s ⟨execAll (writes s.db) s.db, s.running.set i (next s.db)⟩

/-- What the guarded writes keep holds of the database in every run. -/
lemma invariant_db {I : Database E → Prop} {s s' : Sessions E}
    (h : Relation.ReflTransGen (Step ops guard) s s')
    (hwrites : ∀ db ws, guard db ws → I db → I (execAll ws db)) (hs : I s.db) : I s'.db := by
  apply Actor.invariant_of_run (I := fun s => I s.db) h
  · intro s s' hstep hI
    cases hstep with
    | start h => exact hI
    | advance h hg => exact hwrites _ _ hg hI
  · exact hs

/-- The next step of session `i`, if it has one. -/
def advance (s : Sessions E) (i : Nat) : Sessions E :=
  match s.running[i]? with
  | some (.step writes next) =>
    ⟨execAll (writes s.db) s.db, s.running.set i (next s.db)⟩
  | _ => s

/-- The next step of an action, if it has one. -/
def next (m : Action E Unit) (db : Database E) : Database E × Action E Unit :=
  match m with
  | .step writes next => (execAll (writes db) db, next db)
  | m => (db, m)

lemma advance_eq {s : Sessions E} {i : Nat} {m : Action E Unit} (h : s.running[i]? = some m) :
    s.advance i = ⟨(next m s.db).1, s.running.set i (next m s.db).2⟩ := by
  have hset : s.running.set i m = s.running := by
    obtain ⟨hi, hm⟩ := List.getElem?_eq_some_iff.mp h
    rw [← hm, List.set_getElem_self]
  cases m with
  | step writes next => simp only [advance, h, Sessions.next]
  | pure a => simp only [advance, h, Sessions.next, hset]
  | throw e => simp only [advance, h, Sessions.next, hset]

lemma advance_of_none {s : Sessions E} {i : Nat} (h : s.running[i]? = none) : s.advance i = s := by
  simp only [advance, h]

/-- The sessions take steps in the order of the schedule. -/
def run (s : Sessions E) (schedule : List Nat) : Sessions E := schedule.foldl advance s

lemma run_reachable (s : Sessions E) (schedule : List Nat) :
    Relation.ReflTransGen (Step ops fun _ _ => True) s (s.run schedule) := by
  induction schedule generalizing s with
  | nil => exact .refl
  | cons i is ih =>
    apply Relation.ReflTransGen.trans _ (ih (s.advance i))
    unfold advance
    split
    · rename_i h
      exact .single (.advance h trivial)
    · exact .refl

/-! ### Actions that write nothing -/

/-- On a database that stays as it is, the action writes nothing. -/
inductive Quiet {α : Type} (s : Database E) : Action E α → Prop
  | pure (a : α) : Quiet s (.pure a)
  | throw (e : String) : Quiet s (.throw e)
  | step {writes : Database E → List (Write E)} {next : Database E → Action E α}
    (h : writes s = []) (hnext : Quiet s (next s)) : Quiet s (.step writes next)

lemma Quiet.next {db : Database E} {m : Action E Unit} (h : Quiet db m) :
    (Sessions.next m db).1 = db ∧ Quiet db (Sessions.next m db).2 := by
  cases h with
  | pure a => exact ⟨rfl, .pure a⟩
  | throw e => exact ⟨rfl, .throw e⟩
  | step h hnext =>
    constructor
    · show execAll _ db = db
      rw [h]
      rfl
    · exact hnext

lemma Quiet.exec {α : Type} {db : Database E} {m : Action E α} (h : Quiet db m) :
    m.run.exec db = db := by
  induction h with
  | pure a => rfl
  | throw e => rfl
  | step h hnext ih =>
    show (Action.run _).exec (execAll _ db) = db
    rw [h]
    exact ih

omit [DecidableEq τ] in
lemma Quiet.bind {α β : Type} {db : Database E} {m : Action E α} {f : α → Action E β}
    (h : Quiet db m) (hf : ∀ a, Quiet db (f a)) : Quiet db (m >>= f) := by
  show Quiet db (m.bind f)
  induction h with
  | pure a => exact hf a
  | throw e => exact .throw e
  | step h hnext ih => exact .step h ih

/-- Sessions whose actions write nothing leave the database as it is, however they take turns. -/
lemma run_quiet {s : Sessions E} (h : ∀ m ∈ s.running, Quiet s.db m) (schedule : List Nat) :
    (s.run schedule).db = s.db := by
  induction schedule generalizing s with
  | nil => rfl
  | cons i schedule ih =>
    have hadvance : (s.advance i).db = s.db ∧ ∀ m ∈ (s.advance i).running, Quiet s.db m := by
      cases hi : s.running[i]? with
      | none =>
        rw [advance_of_none hi]
        exact ⟨rfl, h⟩
      | some m =>
        have hnext := (h m (List.mem_of_getElem? hi)).next
        rw [advance_eq hi]
        refine ⟨hnext.1, fun m' hm' => ?_⟩
        rcases List.mem_or_eq_of_mem_set hm' with hm' | hm'
        · exact h m' hm'
        · rw [hm']
          exact hnext.2
    have hrun := ih (s := s.advance i) (by rw [hadvance.1]; exact hadvance.2)
    exact hrun.trans hadvance.1

end Sessions

end Relational
