import Mathlib.Data.List.Infix
import Mathlib.Tactic.Lemma

/-!
# Read, modify, write

Two processes that each read a cell, change what they have read and write it back, in any
interleaving. Each takes `n` steps, reads in its `r`-th and writes in its last. What is in the
cell in the end depends on whether there was a moment at which both held what they had read, and
on who has written first.
-/

namespace ReadModifyWrite

variable {X : Type} (r n : Nat) (f g : X → X)

/-! ### Runs -/

/-- The cell, the steps each process has taken and what each has read. -/
structure State (X : Type) where
  cell : X
  fstSteps : Nat
  sndSteps : Nat
  fstHeld : X
  sndHeld : X

def init (x : X) : State X := ⟨x, 0, 0, x, x⟩

/-- A step of the process `0` or `1`. -/
def advance (s : State X) : Nat → State X
  | 0 =>
    { s with
      fstSteps := s.fstSteps + 1
      fstHeld := if s.fstSteps + 1 = r then s.cell else s.fstHeld
      cell := if s.fstSteps + 1 = n then f s.fstHeld else s.cell }
  | 1 =>
    { s with
      sndSteps := s.sndSteps + 1
      sndHeld := if s.sndSteps + 1 = r then s.cell else s.sndHeld
      cell := if s.sndSteps + 1 = n then g s.sndHeld else s.cell }
  | _ => s

def run (s : State X) (schedule : List Nat) : State X := schedule.foldl (advance r n f g) s

lemma run_append (s : State X) (schedule : List Nat) (i : Nat) :
    run r n f g s (schedule ++ [i]) = advance r n f g (run r n f g s schedule) i := by
  simp [run]

/-! ### What the schedule says -/

/-- After the schedule the process holds a copy that it has not yet written. -/
def holds (i : Nat) (schedule : List Nat) : Bool :=
  r ≤ schedule.count i && schedule.count i < n

/-- There is a moment at which both processes hold a copy. -/
def overlaps (schedule : List Nat) : Bool :=
  schedule.inits.any fun p => holds r n 0 p && holds r n 1 p

/-- The first process has written before the second. -/
def writesFirst (schedule : List Nat) : Bool :=
  schedule.inits.any fun p => n ≤ p.count 0 && !(n ≤ p.count 1 : Bool)

/-- The cell in the end. -/
def outcome (x : X) : Bool → Bool → X
  | false, true => g (f x)
  | false, false => f (g x)
  | true, true => g x
  | true, false => f x

lemma overlaps_append (schedule : List Nat) (i : Nat) :
    overlaps r n (schedule ++ [i]) =
      (overlaps r n schedule || (holds r n 0 (schedule ++ [i]) && holds r n 1 (schedule ++ [i]))) := by
  simp [overlaps, List.inits_append]

lemma writesFirst_append (schedule : List Nat) (i : Nat) :
    writesFirst n (schedule ++ [i]) =
      (writesFirst n schedule ||
        (n ≤ (schedule ++ [i]).count 0 && !(n ≤ (schedule ++ [i]).count 1 : Bool))) := by
  simp [writesFirst, List.inits_append]

/-! ### The shapes of a run -/

inductive Phase (X : Type)
  | idle
  | holding (x : X)
  | done

def phase (steps : Nat) (held : X) : Phase X :=
  if steps < r then .idle
  else if steps < n then .holding held
  else .done

/-- Every state that a run from the cell `x` can be in, with what the schedule has said so far:
whether the copies overlap and whether the first process has written first. -/
inductive Shape (x : X) : Bool → Bool → Phase X → Phase X → X → Prop
  | start : Shape x false false .idle .idle x
  | fstHolds : Shape x false false (.holding x) .idle x
  | fstDone : Shape x false true .done .idle (f x)
  | sndHolds : Shape x false false .idle (.holding x) x
  | sndDone : Shape x false false .idle .done (g x)
  | bothHold : Shape x true false (.holding x) (.holding x) x
  | staleSnd : Shape x true true .done (.holding x) (f x)
  | staleFst : Shape x true false (.holding x) .done (g x)
  | lostFst : Shape x true true .done .done (g x)
  | lostSnd : Shape x true false .done .done (f x)
  | sndAfter : Shape x false true .done (.holding (f x)) (f x)
  | fstThenSnd : Shape x false true .done .done (g (f x))
  | fstAfter : Shape x false false (.holding (g x)) .done (g x)
  | sndThenFst : Shape x false false .done .done (f (g x))

variable {r n f g} {x a c c' : X} {b w : Bool} {p p' q q' : Phase X} {k : Nat}

def Phase.isHolding : Phase X → Bool
  | .holding _ => true
  | _ => false

def Phase.isDone : Phase X → Bool
  | .done => true
  | _ => false

/-- What a step of a process does to its phase and to the cell. -/
inductive Moves (f : X → X) : Phase X → X → Phase X → X → Prop
  | wait (p : Phase X) (c : X) : Moves f p c p c
  | read (c : X) : Moves f .idle c (.holding c) c
  | write (a c : X) : Moves f (.holding a) c .done (f a)

lemma Shape.fst (h : Shape f g x b w p q c) (hm : Moves f p c p' c') :
    Shape f g x (b || (p'.isHolding && q.isHolding)) (w || (p'.isDone && !q.isDone)) p' q c' := by
  cases hm <;> cases h <;> constructor

lemma Shape.snd (h : Shape f g x b w p q c) (hm : Moves g q c q' c') :
    Shape f g x (b || (p.isHolding && q'.isHolding)) (w || (p.isDone && !q'.isDone)) p q' c' := by
  cases hm <;> cases h <;> constructor

lemma Shape.outcome (h : Shape f g x b w .done .done c) : c = outcome f g x b w := by
  cases h <;> rfl

lemma phase_idle (h : k < r) : phase r n k a = .idle := if_pos h

lemma phase_holding (h : r ≤ k) (h' : k < n) : phase r n k a = .holding a := by
  rw [phase, if_neg (Nat.not_lt.mpr h), if_pos h']

lemma phase_done (hrn : r < n) (h : n ≤ k) : phase r n k a = .done := by
  rw [phase, if_neg (by omega), if_neg (by omega)]

lemma isHolding_phase : (phase r n k a).isHolding = (decide (r ≤ k) && decide (k < n)) := by
  unfold phase
  split
  · simp only [Phase.isHolding]
    simp
    omega
  · split <;> simp only [Phase.isHolding] <;> simp <;> omega

lemma isDone_phase (hrn : r < n) : (phase r n k a).isDone = decide (n ≤ k) := by
  unfold phase
  split
  · simp only [Phase.isDone]
    simp
    omega
  · split <;> simp only [Phase.isDone] <;> simp <;> omega

/-- The `k`-th step of a process. -/
lemma moves_phase (hrn : r < n) :
    Moves f (phase r n k a) c (phase r n (k + 1) (if k + 1 = r then c else a))
      (if k + 1 = n then f a else c) := by
  rcases Nat.lt_trichotomy (k + 1) r with hk | hk | hk
  · rw [phase_idle (by omega), phase_idle hk, if_neg (by omega)]
    exact .wait _ _
  · rw [phase_idle (by omega), if_pos hk, phase_holding (by omega) (by omega), if_neg (by omega)]
    exact .read c
  · rw [if_neg (by omega)]
    rcases Nat.lt_trichotomy (k + 1) n with hk' | hk' | hk'
    · rw [phase_holding (by omega) (by omega), phase_holding (by omega) hk', if_neg (by omega)]
      exact .wait _ _
    · rw [phase_holding (by omega) (by omega), phase_done hrn (by omega), if_pos hk']
      exact .write a c
    · rw [phase_done hrn (by omega), phase_done hrn (by omega), if_neg (by omega)]
      exact .wait _ _

/-- After the schedule the run has the shape that the schedule says. -/
structure Follows (r n : Nat) (f g : X → X) (x : X) (schedule : List Nat) (s : State X) :
    Prop where
  fst : s.fstSteps = schedule.count 0
  snd : s.sndSteps = schedule.count 1
  shape : Shape f g x (overlaps r n schedule) (writesFirst n schedule)
    (phase r n s.fstSteps s.fstHeld) (phase r n s.sndSteps s.sndHeld) s.cell

lemma follows_init (hr : 0 < r) : Follows r n f g x [] (init x) := by
  refine ⟨rfl, rfl, ?_⟩
  have ho : overlaps r n [] = false := by simp [overlaps, holds]; omega
  have hw : writesFirst n [] = false := by simp [writesFirst]
  rw [ho, hw]
  show Shape f g x false false (phase r n 0 x) (phase r n 0 x) x
  rw [phase_idle hr]
  exact .start

lemma Follows.advance {schedule : List Nat} {s : State X} (hrn : r < n)
    (h : Follows r n f g x schedule s) (i : Nat) :
    Follows r n f g x (schedule ++ [i]) (advance r n f g s i) := by
  obtain ⟨hfst, hsnd, hshape⟩ := h
  match i with
  | 0 =>
    refine ⟨by simp [ReadModifyWrite.advance, hfst], by simp [ReadModifyWrite.advance, hsnd], ?_⟩
    have hnext := hshape.fst (moves_phase (k := s.fstSteps) hrn)
    rw [isHolding_phase, isHolding_phase, isDone_phase hrn, isDone_phase hrn] at hnext
    rw [overlaps_append, writesFirst_append]
    simpa [holds, hfst, hsnd, ReadModifyWrite.advance] using hnext
  | 1 =>
    refine ⟨by simp [ReadModifyWrite.advance, hfst], by simp [ReadModifyWrite.advance, hsnd], ?_⟩
    have hnext := hshape.snd (moves_phase (k := s.sndSteps) hrn)
    rw [isHolding_phase, isHolding_phase, isDone_phase hrn, isDone_phase hrn] at hnext
    rw [overlaps_append, writesFirst_append]
    simpa [holds, hfst, hsnd, ReadModifyWrite.advance] using hnext
  | i + 2 =>
    refine ⟨by simp [ReadModifyWrite.advance, hfst], by simp [ReadModifyWrite.advance, hsnd], ?_⟩
    have hnext := hshape.fst (.wait _ _)
    rw [isHolding_phase, isHolding_phase, isDone_phase hrn, isDone_phase hrn] at hnext
    rw [overlaps_append, writesFirst_append]
    simpa [holds, hfst, hsnd, ReadModifyWrite.advance] using hnext

lemma follows_run (hr : 0 < r) (hrn : r < n) (schedule : List Nat) :
    Follows r n f g x schedule (run r n f g (init x) schedule) := by
  induction schedule using List.reverseRecOn with
  | nil => exact follows_init hr
  | append_singleton schedule i ih =>
    rw [run_append]
    exact ih.advance hrn i

/-- What is in the cell when both processes are done. -/
theorem run_cell (hr : 0 < r) (hrn : r < n) {schedule : List Nat} (h₀ : n ≤ schedule.count 0)
    (h₁ : n ≤ schedule.count 1) :
    (run r n f g (init x) schedule).cell =
      outcome f g x (overlaps r n schedule) (writesFirst n schedule) := by
  obtain ⟨hfst, hsnd, hshape⟩ := follows_run (f := f) (g := g) (x := x) hr hrn schedule
  rw [phase_done hrn (hfst ▸ h₀), phase_done hrn (hsnd ▸ h₁)] at hshape
  exact hshape.outcome

end ReadModifyWrite
