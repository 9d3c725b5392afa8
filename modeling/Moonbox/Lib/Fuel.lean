import Mathlib.Data.List.Forall2
import Mathlib.Order.Filter.AtTopBot.Basic
import Mathlib.Tactic.Lemma
import Moonbox.Lib.Handler

/-!
# Fuel

A computation that may need more calls than there is room for. It ends when from some fuel on it
gives the same result. One over a state, with exceptions, is a `Call`; it ends when from some fuel
on it comes back from every state.
-/

namespace Fuel

open Filter

variable {α β : Type} {f : Nat → Option α} {a b : α}

/-- With enough fuel the result is `a`. -/
def Gives (f : Nat → Option α) (a : α) : Prop := ∀ᶠ fuel in atTop, f fuel = some a

lemma gives_some (a : α) : Gives (fun _ => some a) a := Eventually.of_forall fun _ => rfl

lemma Gives.unique (ha : Gives f a) (hb : Gives f b) : a = b := by
  obtain ⟨fuel, h, h'⟩ := (ha.and hb).exists
  rw [h] at h'
  exact Option.some.inj h'

/-- Nothing is given by what always runs out. -/
lemma not_gives (h : ∀ fuel, f fuel = none) : ¬ Gives f a := by
  intro ha
  obtain ⟨fuel, hfuel⟩ := ha.exists
  rw [h fuel] at hfuel
  cases hfuel

lemma eventually_succ_iff {P : Nat → Prop} :
    (∀ᶠ fuel in atTop, P (fuel + 1)) ↔ ∀ᶠ fuel in atTop, P fuel := by
  conv_rhs => rw [← map_add_atTop_eq_nat 1, eventually_map]

lemma gives_succ_iff : Gives (fun fuel => f (fuel + 1)) a ↔ Gives f a :=
  eventually_succ_iff (P := fun fuel => f fuel = some a)

lemma Gives.bind {k : α → Nat → Option β} {c : β} (ha : Gives f a) (hc : Gives (k a) c) :
    Gives (fun fuel => f fuel >>= fun a => k a fuel) c := by
  filter_upwards [ha, hc] with fuel h h'
  rw [h]
  exact h'

lemma Gives.map {g : α → β} (ha : Gives f a) : Gives (fun fuel => (f fuel).map g) (g a) := by
  filter_upwards [ha] with fuel h
  rw [h, Option.map_some]

/-- A list of computations, each with a result of its own. -/
lemma gives_mapM {R : α → β → Prop} {f : Nat → α → Option β} {as : List α}
    (h : ∀ a ∈ as, ∃ b, R a b ∧ Gives (fun fuel => f fuel a) b) :
    ∃ bs, List.Forall₂ R as bs ∧ Gives (fun fuel => as.mapM (f fuel)) bs := by
  induction as with
  | nil => exact ⟨[], .nil, gives_some []⟩
  | cons a as ih =>
    obtain ⟨b, hb, hgives⟩ := h a (by simp)
    obtain ⟨bs, hbs, hrest⟩ := ih fun a ha => h a (by simp [ha])
    refine ⟨b :: bs, .cons hb hbs, ?_⟩
    filter_upwards [hgives, hrest] with fuel h h'
    rw [List.mapM_cons, h, Option.bind_eq_bind, Option.bind_some, h', Option.bind_eq_bind,
      Option.bind_some]
    rfl

/-! ### Calls -/

/-- A call over the state `σ` that answers an `α`, throws or, with `none`, finds no room left. -/
def Call (σ α : Type) := σ → Option (Except String α × σ)

namespace Call

variable {σ : Type}

instance : Monad (Call σ) where
  pure a := fun s => some (.ok a, s)
  bind m f := fun s =>
    match m s with
    | some (.ok a, s') => f a s'
    | some (.error e, s') => some (.error e, s')
    | none => none

def ofOption (o : Option α) : Call σ α := fun s => o.map fun a => (.ok a, s)

def ofExcept (e : Except String α) : Call σ α := fun s => some (e, s)

def ofHandler (m : Actor.Handler σ α) : Call σ α := fun s => some (m s)

def forEach (f : α → Call σ Unit) : List α → Call σ Unit
  | [] => pure ()
  | a :: as => do
    f a
    forEach f as

/-- The elements that do not meet a test. -/
def filterNot (test : α → Call σ Bool) : List α → Call σ (List α)
  | [] => pure []
  | a :: as => do
    let met ← test a
    let rest ← filterNot test as
    pure (if met then rest else a :: rest)

section Equations

variable {σ : Type} {k : α → Call σ β} {s : σ}

@[simp] lemma ofExcept_ok_bind (a : α) : (ofExcept (.ok a) >>= k : Call σ β) = k a := rfl

@[simp] lemma ofOption_some_bind (a : α) : (ofOption (some a) >>= k : Call σ β) = k a := rfl

@[simp] lemma pure_bind (a : α) : (pure a >>= k : Call σ β) = k a := rfl

/-- What follows a call that does not come back is not reached. -/
lemma bind_eq_none {m : Call σ α} (h : m s = none) : (m >>= k) s = none := by
  simp only [Bind.bind, h]

end Equations

/-! ### Rules

What is said of a call in the ways below is said of its parts first.
-/

/-- A way to say of a call what it does, and of its answer that it is in a set. -/
structure Rules (T : ∀ α : Type, Call σ α → (α → Prop) → Prop) : Prop where
  pure : ∀ {α : Type} {a : α} {P : α → Prop}, P a → T α (pure a) P
  bind : ∀ {α β : Type} {m : Call σ α} {k : α → Call σ β} {P : α → Prop} {Q : β → Prop},
    T α m P → (∀ a, P a → T β (k a) Q) → T β (m >>= k) Q
  ofExcept : ∀ {α : Type} (e : Except String α), T α (ofExcept e) fun a => e = .ok a

namespace Rules

variable {T : ∀ α : Type, Call σ α → (α → Prop) → Prop}

lemma forEach (hT : Rules T) {f : α → Call σ Unit} {as : List α}
    (h : ∀ a ∈ as, T Unit (f a) fun _ => True) : T Unit (forEach f as) fun _ => True := by
  induction as with
  | nil => exact hT.pure trivial
  | cons a as ih => exact hT.bind (h a (by simp)) fun _ _ => ih fun b hb => h b (by simp [hb])

lemma filterNot (hT : Rules T) {test : α → Call σ Bool} (h : ∀ a, T Bool (test a) fun _ => True)
    (as : List α) : T (List α) (filterNot test as) fun bs => bs ⊆ as := by
  induction as with
  | nil => exact hT.pure (List.Subset.refl [])
  | cons a as ih =>
    refine hT.bind (h a) fun met _ => hT.bind ih fun rest hrest => hT.pure ?_
    split
    · exact List.Subset.trans hrest (List.subset_cons_self a as)
    · exact List.cons_subset_cons a hrest

end Rules

/-- From every state the call comes back, and what it answers is in `P`. -/
def Returns (m : Call σ α) (P : α → Prop) : Prop :=
  ∀ s, ∃ r s', m s = some (r, s') ∧ ∀ a, r = .ok a → P a

/-- If the call comes back from a state in `I`, it leaves one in `I`, and what it answers is in
`P`. -/
def Leaves (I : σ → Prop) (m : Call σ α) (P : α → Prop) : Prop :=
  ∀ s r s', I s → m s = some (r, s') → I s' ∧ ∀ a, r = .ok a → P a

section Instances

variable {I : σ → Prop} {m : Call σ α} {k : α → Call σ β} {P : α → Prop} {Q : β → Prop}

lemma Returns.bind (hm : Returns m P) (hk : ∀ a, P a → Returns (k a) Q) :
    Returns (m >>= k) Q := by
  intro s
  obtain ⟨r, s', h, hr⟩ := hm s
  cases r with
  | ok a =>
    obtain ⟨r', s'', h', hr'⟩ := hk a (hr a rfl) s'
    refine ⟨r', s'', ?_, hr'⟩
    simp only [Bind.bind, h]
    exact h'
  | error e =>
    refine ⟨.error e, s', ?_, fun _ heq => by cases heq⟩
    simp only [Bind.bind, h]

lemma returns_rules : Rules fun α (m : Call σ α) P => Returns m P where
  pure := fun h s => ⟨.ok _, s, rfl, fun _ heq => Except.ok.inj heq ▸ h⟩
  bind := Returns.bind
  ofExcept := fun e s => ⟨e, s, rfl, fun _ h => h⟩

lemma returns_ofHandler (m : Actor.Handler σ α) : Returns (ofHandler m) fun _ => True :=
  fun s => ⟨(m s).1, (m s).2, rfl, fun _ _ => trivial⟩

lemma Leaves.bind (hm : Leaves I m P) (hk : ∀ a, P a → Leaves I (k a) Q) :
    Leaves I (m >>= k) Q := by
  intro s r s' hs h
  simp only [Bind.bind] at h
  split at h
  · rename_i a s₁ heq
    obtain ⟨hs₁, ha⟩ := hm s _ _ hs heq
    exact hk a (ha a rfl) s₁ r s' hs₁ h
  · rename_i e s₁ heq
    cases h
    exact ⟨(hm s _ _ hs heq).1, fun _ heq => by cases heq⟩
  · cases h

lemma leaves_rules : Rules fun α (m : Call σ α) P => Leaves I m P where
  pure := by
    rintro _ a P h s r s' hs ⟨⟩
    exact ⟨hs, fun _ heq => Except.ok.inj heq ▸ h⟩
  bind := Leaves.bind
  ofExcept := by
    rintro _ e s r s' hs ⟨⟩
    exact ⟨hs, fun _ h => h⟩

lemma leaves_ofHandler {m : Actor.Handler σ α} (h : ∀ s, I s → I (m s).2) :
    Leaves I (ofHandler m) fun _ => True := by
  intro s r s' hs heq
  obtain rfl : (m s).2 = s' := congrArg Prod.snd (Option.some.inj heq)
  exact ⟨h s hs, fun _ _ => trivial⟩

end Instances

end Call

end Fuel
