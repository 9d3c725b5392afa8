import Mathlib.Data.Nat.Digits.Lemmas
import Mathlib.Tactic.Lemma
import Moonbox.Lib.ByteBuffers

/-!
# Frames on a stream

Payloads that are sent one after another as one stream of bytes, which comes in pieces of any
length, and the frames that a decoder splits off its front. Base 128 varints before the payload are
an instance.
-/

/-- A codec that splits a frame off when all of it is there. It does not look at what is behind. -/
structure FrameCodec (P : Type) where
  prepend : P → List UInt8
  split : List UInt8 → Option (P × List UInt8)
  split_prepend : ∀ payload rest, split (prepend payload ++ rest) = some (payload, rest)
  split_append : ∀ {bytes payload rest} (more : List UInt8), split bytes = some (payload, rest) →
    split (bytes ++ more) = some (payload, rest ++ more)
  length_lt : ∀ {bytes payload rest}, split bytes = some (payload, rest) →
    rest.length < bytes.length

namespace FrameCodec

variable {P : Type} (codec : FrameCodec P) {bytes chunk : List UInt8} {payloads : List P}

/-- All frames that are there, and what is left -/
def drain (bytes : List UInt8) : List P × List UInt8 :=
  match _h : codec.split bytes with
  | some (payload, rest) => (payload :: (drain rest).1, (drain rest).2)
  | none => ([], bytes)
termination_by bytes.length
decreasing_by all_goals exact codec.length_lt _h

/-- The frames of a stream that comes in pieces, after some bytes that are no frame yet, and what is
left -/
def receive (bytes : List UInt8) : List (List UInt8) → List P × List UInt8
  | [] => ([], bytes)
  | chunk :: chunks =>
    let drained := codec.drain (bytes ++ chunk)
    let received := receive drained.2 chunks
    (drained.1 ++ received.1, received.2)

/-- The stream of some payloads -/
def stream (payloads : List P) : List UInt8 := payloads.flatMap codec.prepend

lemma drain_of_some {payload : P} {rest : List UInt8}
    (h : codec.split bytes = some (payload, rest)) :
    codec.drain bytes = (payload :: (codec.drain rest).1, (codec.drain rest).2) := by
  rw [drain]
  split <;> simp_all

lemma drain_of_none (h : codec.split bytes = none) : codec.drain bytes = ([], bytes) := by
  rw [drain]
  split <;> simp_all

lemma split_stream {payload : P} {rest : List UInt8} (more : List UInt8)
    (hsplit : codec.split bytes = some (payload, rest))
    (h : bytes ++ more = codec.stream payloads) :
    ∃ payloads', payloads = payload :: payloads' ∧ rest ++ more = codec.stream payloads' := by
  have hread := codec.split_append more hsplit
  cases payloads with
  | nil =>
    have hlt := codec.length_lt hread
    simp [h, stream] at hlt
  | cons first payloads =>
    rw [h, stream, List.flatMap_cons, codec.split_prepend, Option.some.injEq,
      Prod.mk.injEq] at hread
    exact ⟨payloads, by rw [hread.1], hread.2.symm⟩

/-- What is drained of the front of a stream are its first payloads, and the others are left. -/
lemma drain_stream (more : List UInt8) (h : bytes ++ more = codec.stream payloads) :
    ∃ payloads', payloads = (codec.drain bytes).1 ++ payloads' ∧
      (codec.drain bytes).2 ++ more = codec.stream payloads' ∧
      codec.split (codec.drain bytes).2 = none := by
  induction hlength : bytes.length using Nat.strong_induction_on generalizing bytes payloads with
  | _ n ih =>
    cases hsplit : codec.split bytes with
    | none => exact ⟨payloads, by simp [drain_of_none, hsplit, h]⟩
    | some found =>
      obtain ⟨payload, rest⟩ := found
      obtain ⟨payloads', rfl, hrest⟩ := codec.split_stream more hsplit h
      obtain ⟨others, hothers, hleft, hnone⟩ :=
        ih rest.length (hlength ▸ codec.length_lt hsplit) hrest rfl
      rw [codec.drain_of_some hsplit]
      exact ⟨others, by rw [hothers]; rfl, hleft, hnone⟩

lemma eq_nil_of_stream (hnone : codec.split bytes = none) (h : bytes = codec.stream payloads) :
    payloads = [] := by
  cases payloads with
  | nil => rfl
  | cons payload payloads =>
    rw [h, stream, List.flatMap_cons, codec.split_prepend] at hnone
    cases hnone

lemma receive_of_stream {chunks : List (List UInt8)} (hnone : codec.split bytes = none)
    (h : bytes ++ chunks.flatten = codec.stream payloads) :
    codec.receive bytes chunks = (payloads, []) := by
  induction chunks generalizing bytes payloads with
  | nil =>
    rw [List.flatten_nil, List.append_nil] at h
    obtain rfl := codec.eq_nil_of_stream hnone h
    rw [receive, h]
    rfl
  | cons chunk chunks ih =>
    rw [List.flatten_cons, ← List.append_assoc] at h
    obtain ⟨payloads', hpayloads, hrest, hleft⟩ := codec.drain_stream chunks.flatten h
    simp only [receive, ih hleft hrest, hpayloads]

/-- However the stream is cut, its payloads come out of it and nothing is left. -/
lemma receive_stream {chunks : List (List UInt8)} (h : chunks.flatten = codec.stream payloads) :
    codec.receive [] chunks = (payloads, []) := by
  refine codec.receive_of_stream ?_ (by simpa using h)
  cases hsplit : codec.split [] with
  | none => rfl
  | some found => exact absurd (codec.length_lt hsplit) (Nat.not_lt_zero _)

end FrameCodec

/-! ### Varints -/

namespace Varint

/-- The highest bit of a byte says that another one follows. -/
def mark : List ℕ → List UInt8
  | [] => [0]
  | [digit] => [UInt8.ofNat digit]
  | digit :: digits => UInt8.ofNat (128 + digit) :: mark digits

def encode (n : ℕ) : List UInt8 := mark (Nat.digits 128 n)

def decode : List UInt8 → Option (ℕ × List UInt8)
  | [] => none
  | b :: bytes =>
    if b.toNat < 128 then some (b.toNat, bytes)
    else (decode bytes).map fun found => (b.toNat - 128 + 128 * found.1, found.2)

variable {bytes rest : List UInt8} {n : ℕ}

lemma decode_mark {digits : List ℕ} (h : ∀ d ∈ digits, d < 128) (rest : List UInt8) :
    decode (mark digits ++ rest) = some (Nat.ofDigits 128 digits, rest) := by
  induction digits with
  | nil => simp [mark, decode]
  | cons digit digits ih =>
    rw [List.forall_mem_cons] at h
    have hdigit : (UInt8.ofNat digit).toNat = digit := UInt8.toNat_ofNat_of_lt'
      (Nat.lt_trans h.1 (by decide))
    have hmarked : (UInt8.ofNat (128 + digit)).toNat = 128 + digit :=
      UInt8.toNat_ofNat_of_lt' (Nat.add_lt_add_left h.1 128)
    cases digits with
    | nil => simp [mark, decode, hdigit, h.1]
    | cons next digits =>
      rw [mark, List.cons_append, decode, hmarked, if_neg (by omega), ih h.2]
      · simp [Nat.ofDigits_cons]
      · simp

lemma decode_encode (n : ℕ) (rest : List UInt8) : decode (encode n ++ rest) = some (n, rest) := by
  rw [encode, decode_mark (fun d hd => Nat.digits_lt_base (by decide) hd), Nat.ofDigits_digits]

lemma decode_append (more : List UInt8) (h : decode bytes = some (n, rest)) :
    decode (bytes ++ more) = some (n, rest ++ more) := by
  induction bytes generalizing n rest with
  | nil => cases h
  | cons b bytes ih =>
    rw [List.cons_append, decode]
    rw [decode] at h
    split at h
    · cases h
      rw [if_pos ‹_›]
    · obtain ⟨⟨m, left⟩, hfound, heq⟩ := Option.map_eq_some_iff.mp h
      cases heq
      rw [if_neg ‹_›, ih hfound]
      rfl

lemma length_decode (h : decode bytes = some (n, rest)) : rest.length < bytes.length := by
  induction bytes generalizing n rest with
  | nil => cases h
  | cons b bytes ih =>
    rw [decode] at h
    split at h
    · cases h
      exact Nat.lt_succ_self _
    · obtain ⟨⟨m, left⟩, hfound, heq⟩ := Option.map_eq_some_iff.mp h
      cases heq
      exact Nat.lt_succ_of_lt (ih hfound)

/-- A payload behind its length, with what is behind it -/
def split (bytes : List UInt8) : Option (ByteBuf × List UInt8) := do
  let (n, rest) ← decode bytes
  if n ≤ rest.length then
    let payload ← ByteBuf.ofBytes? (rest.take n)
    some (payload, rest.drop n)
  else none

lemma split_eq_some {payload : ByteBuf} : split bytes = some (payload, rest) ↔
    decode bytes = some (payload.bytes.length, payload.bytes ++ rest) := by
  simp only [split, Option.bind_eq_bind, Option.bind_eq_some_iff]
  constructor
  · rintro ⟨⟨n, found⟩, hdecode, h⟩
    split at h
    · obtain ⟨read, hread, heq⟩ := Option.bind_eq_some_iff.mp h
      cases heq
      rw [ByteBuf.ofBytes?_eq_some] at hread
      rw [hdecode, hread, List.length_take, Nat.min_eq_left ‹_›, List.take_append_drop]
    · cases h
  · intro h
    have hread : ByteBuf.ofBytes? payload.bytes = some payload :=
      ByteBuf.ofBytes?_eq_some.mpr rfl
    exact ⟨_, h, by simp [hread]⟩

end Varint

/-- The length of a payload before it -/
def varint32 : FrameCodec ByteBuf where
  prepend payload := Varint.encode payload.bytes.length ++ payload.bytes
  split := Varint.split
  split_prepend payload rest := by
    rw [Varint.split_eq_some, List.append_assoc, Varint.decode_encode]
  split_append more h := by
    rw [Varint.split_eq_some] at h ⊢
    rw [Varint.decode_append more h, List.append_assoc]
  length_lt h := by
    have hlt := Varint.length_decode (Varint.split_eq_some.mp h)
    rw [List.length_append] at hlt
    exact Nat.lt_of_le_of_lt (Nat.le_add_left _ _) hlt
