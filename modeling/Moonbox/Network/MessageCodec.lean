import Moonbox.Lib.Framing
import Moonbox.Lib.Utf8

/-!
# The codec of messages

The messages of the protocol, how `MessageEncoder` writes them, how `MessageDecoder` reads a frame,
and what comes out of a stream of frames. What throws has no result.
-/

namespace Moonbox.Network

/-! ### Messages -/

inductive MessageType
  | rpcRequest
  | rpcResponse
  | rpcFailure
  deriving DecidableEq, Repr

inductive Message
  | rpcRequest (requestId : Int64) (body : ByteBuf)
  | rpcResponse (requestId : Int64) (body : ByteBuf)
  | rpcFailure (requestId : Int64) (errorString : List UInt16)

namespace MessageType

def id : MessageType → UInt8
  | rpcRequest => 1
  | rpcResponse => 2
  | rpcFailure => 3

def encodedLength (_ : MessageType) : Int32 := 1

def encode (type : MessageType) (buf : ByteBuf) : Option ByteBuf := buf.writeByte type.id

def decode (buf : ByteBuf) : Option (MessageType × ByteBuf) := do
  let (id, buf) ← buf.readByte
  if id = 1 then some (rpcRequest, buf)
  else if id = 2 then some (rpcResponse, buf)
  else if id = 3 then some (rpcFailure, buf)
  else none

end MessageType

/-! ### `Encoders` -/

namespace Encoders.Strings

/-- There is no array for more bytes than the greatest `int`. -/
def getBytes (s : List UInt16) : Option ByteBuf := ByteBuf.ofBytes? (Utf8.getBytes s)

def encodedLength (s : List UInt16) : Option Int32 := do
  let bytes ← getBytes s
  some (4 + Int32.ofNat bytes.bytes.length)

def encode (buf : ByteBuf) (s : List UInt16) : Option ByteBuf := do
  let bytes ← getBytes s
  let buf ← buf.writeInt (Int32.ofNat bytes.bytes.length)
  buf.write bytes.bytes

/-- What comes of bytes that are not UTF-8 is left open. -/
def decode (malformed : List UInt8 → List UInt16) (buf : ByteBuf) :
    Option (List UInt16 × ByteBuf) := do
  let (length, buf) ← buf.readInt
  if length < 0 then none
  else
    let (bytes, buf) ← buf.read length.toInt.toNat
    some (Utf8.ofBytes malformed bytes, buf)

end Encoders.Strings

open Encoders

namespace Message

def type : Message → MessageType
  | rpcRequest _ _ => .rpcRequest
  | rpcResponse _ _ => .rpcResponse
  | rpcFailure _ _ => .rpcFailure

/-- A failure has none. -/
def body : Message → Option ByteBuf
  | rpcRequest _ body => some body
  | rpcResponse _ body => some body
  | rpcFailure _ _ => none

/-- Without the body -/
def encodedLength : Message → Option Int32
  | rpcRequest _ _ => some 8
  | rpcResponse _ _ => some 8
  | rpcFailure _ errorString => do
    let length ← Strings.encodedLength errorString
    some (8 + length)

/-- Without the body -/
def encode : Message → ByteBuf → Option ByteBuf
  | rpcRequest requestId _, buf => buf.writeLong requestId
  | rpcResponse requestId _, buf => buf.writeLong requestId
  | rpcFailure requestId errorString, buf => do
    let buf ← buf.writeLong requestId
    Strings.encode buf errorString

end Message

/-! ### The encoder and the decoder -/

/-- A buffer that grows as it is written -/
def heapBuffer (initialCapacity : Int32) : Option ByteBuf :=
  if initialCapacity < 0 then none else some .empty

def MessageEncoder.encode (message : Message) : Option ByteBuf := do
  let type := message.type
  let headerLength := type.encodedLength + (← message.encodedLength)
  let header ← heapBuffer headerLength
  let header ← type.encode header
  let header ← message.encode header
  match message.body with
  | some body => header.write body.bytes
  | none => some header

namespace MessageDecoder

variable (malformed : List UInt8 → List UInt16)

/-- The message, and what it leaves of the buffer. The body takes over what is left. -/
def decodeMessage (msgType : MessageType) (buf : ByteBuf) : Option (Message × ByteBuf) :=
  match msgType with
  | .rpcRequest => do
    let (requestId, buf) ← buf.readLong
    some (.rpcRequest requestId buf, .empty)
  | .rpcResponse => do
    let (requestId, buf) ← buf.readLong
    some (.rpcResponse requestId buf, .empty)
  | .rpcFailure => do
    let (requestId, buf) ← buf.readLong
    let (errorString, buf) ← Strings.decode malformed buf
    some (.rpcFailure requestId errorString, buf)

def decode (buf : ByteBuf) : Option (Message × ByteBuf) := do
  let (msgType, buf) ← MessageType.decode buf
  decodeMessage malformed msgType buf

end MessageDecoder

/-! ### The format -/

open TwosComplement (lastBytes)
open ByteBuf (length_lastBytes)

namespace Message

def header : Message → List UInt8
  | rpcRequest requestId _ => lastBytes 8 requestId.toInt
  | rpcResponse requestId _ => lastBytes 8 requestId.toInt
  | rpcFailure requestId errorString =>
    lastBytes 8 requestId.toInt ++ lastBytes 4 (Utf8.getBytes errorString).length ++
      Utf8.getBytes errorString

def frame (message : Message) : List UInt8 :=
  message.type.id :: message.header ++ (message.body.map ByteBuf.bytes).getD []

/-- Each half of a pair that is alone is replaced. -/
def replaced : Message → Message
  | rpcRequest requestId body => rpcRequest requestId body
  | rpcResponse requestId body => rpcResponse requestId body
  | rpcFailure requestId errorString =>
    rpcFailure requestId <|
      (JavaStrings.utf16 (String.ofList (Utf8.decode (errorString.map UInt16.toNat)))).map
        UInt16.ofNat

def IsText : Message → Prop
  | rpcRequest _ _ => True
  | rpcResponse _ _ => True
  | rpcFailure _ errorString => Utf8.IsText errorString

variable {message : Message} {buf buf' rest : ByteBuf} {malformed : List UInt8 → List UInt16}

lemma replaced_eq_iff : message.replaced = message ↔ message.IsText := by
  cases message with
  | rpcRequest | rpcResponse => exact iff_of_true rfl trivial
  | rpcFailure requestId errorString =>
    rw [replaced, IsText, rpcFailure.injEq, Utf8.utf16_decode_eq_iff]
    exact and_iff_right rfl

lemma encode_string (buf : ByteBuf) (s : List UInt16) : Strings.encode buf s =
    buf.write (lastBytes 4 (Utf8.getBytes s).length ++ Utf8.getBytes s) := by
  rw [Strings.encode, Strings.getBytes]
  cases h : ByteBuf.ofBytes? (Utf8.getBytes s) with
  | none =>
    rw [ByteBuf.ofBytes?_eq_none] at h
    refine (ByteBuf.write_eq_none.mpr ?_).symm
    rw [List.length_append]
    omega
  | some bytes =>
    rw [ByteBuf.ofBytes?_eq_some] at h
    rw [← ByteBuf.write_append, ← h, ← Int32.toInt_ofNat_of_lt bytes.fits]
    rfl

lemma encode_eq (message : Message) (buf : ByteBuf) :
    message.encode buf = buf.write message.header := by
  cases message with
  | rpcRequest | rpcResponse => rfl
  | rpcFailure requestId errorString =>
    rw [header, List.append_assoc, ← ByteBuf.write_append]
    exact congrArg (Option.bind (buf.writeLong requestId))
      (funext fun buf => encode_string buf errorString)

lemma encodedLength_rpcFailure {requestId : Int64} {s : List UInt16}
    (h : (Utf8.getBytes s).length < 2 ^ 31) : (rpcFailure requestId s).encodedLength =
      some (8 + (4 + Int32.ofNat (Utf8.getBytes s).length)) := by
  have hbytes : Strings.getBytes s = some ⟨Utf8.getBytes s, h⟩ :=
    ByteBuf.ofBytes?_eq_some.mpr rfl
  rw [encodedLength, Strings.encodedLength, hbytes]
  rfl

/-- What `encode` writes is as long as `encodedLength` says. -/
lemma toInt_encodedLength (h : message.encode buf = some buf') :
    ∃ length, message.encodedLength = some length ∧
      (buf'.bytes.length : Int) = buf.bytes.length + length.toInt := by
  rw [encode_eq, ByteBuf.write_eq_some] at h
  have hfits := buf'.fits
  rw [h, List.length_append] at hfits ⊢
  cases message with
  | rpcRequest | rpcResponse => exact ⟨8, rfl, by simp [header, length_lastBytes]⟩
  | rpcFailure requestId errorString =>
    simp only [header, List.length_append, length_lastBytes] at hfits ⊢
    have hlength : (Int32.ofNat (Utf8.getBytes errorString).length).toInt =
        (Utf8.getBytes errorString).length := Int32.toInt_ofNat_of_lt (by omega)
    refine ⟨_, encodedLength_rpcFailure (by omega), ?_⟩
    simp only [Int32.toInt_add, hlength, Int32.reduceToInt]
    rw [Int.bmod_eq_of_le_mul_two (x := 4 + _) (y := 2 ^ 32) (by omega) (by omega),
      Int.bmod_eq_of_le_mul_two (by omega) (by omega)]
    omega

end Message

namespace MessageEncoder

variable {message : Message} {frame : ByteBuf}

/-- What is written from the type on -/
lemma write_frame (message : Message) :
    ((message.type.encode .empty).bind fun header => (message.encode header).bind fun header =>
      match message.body with
      | some body => header.write body.bytes
      | none => some header) = ByteBuf.ofBytes? message.frame := by
  simp only [Message.encode_eq, MessageType.encode, ByteBuf.writeByte, ← Option.bind_assoc,
    ByteBuf.write_append]
  cases hbody : message.body with
  | some body =>
    simp only [ByteBuf.write_append, Message.frame, hbody]
    rfl
  | none =>
    rw [Message.frame, hbody]
    simp [ByteBuf.write, ByteBuf.empty]

lemma encode_of_length {length : Int32} (h : message.encodedLength = some length)
    (hnonneg : 0 ≤ (1 + length).toInt) : encode message = ByteBuf.ofBytes? message.frame := by
  have hbuffer : heapBuffer (message.type.encodedLength + length) = some .empty := by
    refine if_neg ?_
    rw [Int32.lt_iff_toInt_lt]
    exact Int.not_lt.mpr hnonneg
  rw [← write_frame, encode, h]
  simp only [Option.bind_eq_bind, Option.bind_some, hbuffer]

/-- The encoder writes the frame of each message for which a buffer is large enough. -/
lemma encode_eq (message : Message) : encode message = ByteBuf.ofBytes? message.frame := by
  cases message with
  | rpcRequest requestId body => exact encode_of_length rfl (by decide)
  | rpcResponse requestId body => exact encode_of_length rfl (by decide)
  | rpcFailure requestId errorString =>
    have hframe : (Message.rpcFailure requestId errorString).frame.length =
        13 + (Utf8.getBytes errorString).length := by
      simp [Message.frame, Message.header, Message.body, ByteBuf.length_lastBytes]
      omega
    by_cases hbytes : (Utf8.getBytes errorString).length < 2 ^ 31
    · have hlength : (Int32.ofNat (Utf8.getBytes errorString).length).toInt =
          (Utf8.getBytes errorString).length := Int32.toInt_ofNat_of_lt hbytes
      have hencoded := @Message.encodedLength_rpcFailure requestId errorString hbytes
      have hheader : (1 + (8 + (4 + Int32.ofNat (Utf8.getBytes errorString).length))).toInt =
          (13 + (Utf8.getBytes errorString).length : Int).bmod (2 ^ 32) := by
        simp only [Int32.toInt_add, hlength, Int32.reduceToInt, Int.add_bmod_bmod]
        congr 1
        omega
      by_cases hfits : 13 + (Utf8.getBytes errorString).length < 2 ^ 31
      · refine encode_of_length hencoded ?_
        rw [hheader, Int.bmod_eq_of_le_mul_two (by omega) (by omega)]
        omega
      · -- The length of the header is negative.
        have hnegative : heapBuffer
            (1 + (8 + (4 + Int32.ofNat (Utf8.getBytes errorString).length))) = none := by
          refine if_pos ?_
          rw [Int32.lt_iff_toInt_lt, hheader, ← Int.sub_bmod_right,
            Int.bmod_eq_of_le_mul_two (by omega) (by omega)]
          simp only [Int32.reduceToInt]
          omega
        rw [ByteBuf.ofBytes?_eq_none.mpr (by omega), encode, hencoded]
        simp [MessageType.encodedLength, hnegative]
    · have hnone : Strings.getBytes errorString = none :=
        ByteBuf.ofBytes?_eq_none.mpr (by omega)
      rw [ByteBuf.ofBytes?_eq_none.mpr (by omega), encode, Message.encodedLength,
        Strings.encodedLength, hnone]
      rfl

end MessageEncoder

namespace MessageDecoder

variable {message : Message} {buf rest : ByteBuf} {malformed : List UInt8 → List UInt16}

lemma decode_string (malformed : List UInt8 → List UInt16) (rest : ByteBuf) {s : List UInt16}
    (h : buf.bytes = lastBytes 4 (Utf8.getBytes s).length ++ Utf8.getBytes s ++ rest.bytes) :
    Strings.decode malformed buf = some (Utf8.ofBytes malformed (Utf8.getBytes s), rest) := by
  have hfits := buf.fits
  rw [h] at hfits
  simp only [List.length_append, length_lastBytes] at hfits
  have hlength : (Int32.ofNat (Utf8.getBytes s).length).toInt = (Utf8.getBytes s).length :=
    Int32.toInt_ofNat_of_lt (by omega)
  have hint : buf.readInt = some (Int32.ofNat (Utf8.getBytes s).length,
      ⟨Utf8.getBytes s ++ rest.bytes, by rw [List.length_append]; omega⟩) := by
    refine ByteBuf.readInt_append ?_
    rw [hlength, h, List.append_assoc]
  have hnonneg : ¬Int32.ofNat (Utf8.getBytes s).length < 0 := by
    simp only [Int32.lt_iff_toInt_lt, hlength, Int32.reduceToInt]
    omega
  rw [Strings.decode, hint]
  simp only [Option.bind_eq_bind, Option.bind_some, if_neg hnonneg, hlength, Int.toNat_natCast]
  rw [ByteBuf.read_append rfl]
  rfl

lemma decode_type (rest : ByteBuf) (h : buf.bytes = message.type.id :: rest.bytes) :
    MessageType.decode buf = some (message.type, rest) := by
  rw [MessageType.decode, ByteBuf.readByte_append h]
  cases message <;> rfl

lemma decodeMessage_header (malformed : List UInt8 → List UInt16)
    (h : buf.bytes = message.header ++ (message.body.map ByteBuf.bytes).getD []) :
    decodeMessage malformed message.type buf = some (message.replaced, .empty) := by
  cases message with
  | rpcRequest requestId body | rpcResponse requestId body =>
    have hid : buf.readLong = some (requestId, body) := ByteBuf.readLong_append h
    rw [Message.type, decodeMessage, hid]
    rfl
  | rpcFailure requestId errorString =>
    have hfits := buf.fits
    simp only [Message.header, Message.body, Option.map_none, Option.getD_none,
      List.append_nil] at h
    rw [h, List.append_assoc, List.length_append] at hfits
    have hid : buf.readLong = some (requestId, ⟨lastBytes 4 (Utf8.getBytes errorString).length ++
        Utf8.getBytes errorString, Nat.lt_of_le_of_lt (Nat.le_add_left _ _) hfits⟩) :=
      ByteBuf.readLong_append (by rw [h, List.append_assoc])
    rw [Message.type, decodeMessage, hid]
    simp only [Option.bind_eq_bind, Option.bind_some]
    rw [decode_string malformed .empty (List.append_nil _).symm, Message.replaced,
      ← Utf8.ofBytes_getBytes malformed]
    rfl

/-- A frame is decoded as a whole. -/
lemma decode_frame (malformed : List UInt8 → List UInt16) (h : buf.bytes = message.frame) :
    decode malformed buf = some (message.replaced, .empty) := by
  have hfits := buf.fits
  rw [h, Message.frame, List.cons_append, List.length_cons] at hfits
  rw [decode, decode_type ⟨_, Nat.lt_of_succ_lt hfits⟩ h]
  exact decodeMessage_header malformed rfl

lemma mapM_decode (malformed : List UInt8 → List UInt16) {messages : List Message}
    {frames : List ByteBuf} (h : messages.mapM MessageEncoder.encode = some frames) :
    frames.mapM (decode malformed) =
      some (messages.map fun message => (message.replaced, .empty)) := by
  induction messages generalizing frames with
  | nil =>
    obtain rfl := Option.some.inj h
    rfl
  | cons message messages ih =>
    rw [List.mapM_cons] at h
    obtain ⟨frame, hframe, hrest⟩ := Option.bind_eq_some_iff.mp h
    obtain ⟨frames, hframes, heq⟩ := Option.bind_eq_some_iff.mp hrest
    obtain rfl := Option.some.inj heq
    rw [MessageEncoder.encode_eq, ByteBuf.ofBytes?_eq_some] at hframe
    rw [List.mapM_cons, decode_frame malformed hframe, ih hframes]
    rfl

end MessageDecoder

/-! ### Round trips -/

/-- A message for which a buffer is large enough is encoded, its frame is decoded as the message,
with each half of a pair replaced that is alone, and nothing of it is left. Of a stream of frames,
in whatever pieces it comes, the messages are decoded one after another. -/
theorem codec_round_trip (malformed : List UInt8 → List UInt16) (codec : FrameCodec ByteBuf) :
    (∀ message : Message, ((MessageEncoder.encode message).isSome ↔ message.frame.length < 2 ^ 31) ∧
      ∀ frame, MessageEncoder.encode message = some frame →
        MessageDecoder.decode malformed frame = some (message.replaced, .empty) ∧
          (message.replaced = message ↔ message.IsText)) ∧
    (∀ (message : Message) (buf buf' : ByteBuf), message.encode buf = some buf' →
      ∃ length, message.encodedLength = some length ∧
        (buf'.bytes.length : Int) = buf.bytes.length + length.toInt) ∧
    ∀ (messages : List Message) (frames : List ByteBuf) (chunks : List (List UInt8)),
      messages.mapM MessageEncoder.encode = some frames → chunks.flatten = codec.stream frames →
        (codec.receive [] chunks).1.mapM (MessageDecoder.decode malformed) =
            some (messages.map fun message => (message.replaced, .empty)) ∧
          (codec.receive [] chunks).2 = [] := by
  refine ⟨fun message => ⟨?_, fun frame h => ?_⟩, fun _ _ _ => Message.toInt_encodedLength, ?_⟩
  · rw [MessageEncoder.encode_eq, Option.isSome_iff_ne_none, ne_eq, ByteBuf.ofBytes?_eq_none,
      Nat.not_le]
  · rw [MessageEncoder.encode_eq, ByteBuf.ofBytes?_eq_some] at h
    exact ⟨MessageDecoder.decode_frame malformed h, Message.replaced_eq_iff⟩
  · intro messages frames chunks hframes hstream
    rw [codec.receive_stream hstream]
    exact ⟨MessageDecoder.mapM_decode malformed hframes, rfl⟩

/-- Two failures with frames of varints, of which the first three bytes come alone -/
theorem codec_round_trip_varint32 :
    ∃ frames, [Message.rpcFailure (-1) [0xE9], .rpcFailure 2 []].mapM MessageEncoder.encode =
        some frames ∧
      (varint32.receive [] [(varint32.stream frames).take 3, (varint32.stream frames).drop 3]).1.mapM
          (MessageDecoder.decode fun _ => [0xFFFD]) =
        some [(.rpcFailure (-1) [0xE9], .empty), (.rpcFailure 2 [], .empty)] := by
  obtain ⟨hmessage, -, hstream⟩ := codec_round_trip (fun _ => [0xFFFD]) varint32
  obtain ⟨frame, hframe⟩ := Option.isSome_iff_exists.mp
    ((hmessage (.rpcFailure (-1) [0xE9])).1.mpr (by decide +kernel))
  obtain ⟨frame', hframe'⟩ := Option.isSome_iff_exists.mp
    ((hmessage (.rpcFailure 2 [])).1.mpr (by decide +kernel))
  have hframes : [Message.rpcFailure (-1) [0xE9], .rpcFailure 2 []].mapM MessageEncoder.encode =
      some [frame, frame'] := by
    simp [hframe, hframe']
  have hsame : (Message.rpcFailure (-1) [0xE9]).replaced = .rpcFailure (-1) [0xE9] :=
    ((hmessage _).2 _ hframe).2.mpr ⟨"é", by decide +kernel⟩
  have hsame' : (Message.rpcFailure 2 []).replaced = .rpcFailure 2 [] :=
    ((hmessage _).2 _ hframe').2.mpr ⟨"", by decide +kernel⟩
  refine ⟨_, hframes, ?_⟩
  rw [(hstream _ _ _ hframes (by simp)).1]
  simp [hsame, hsame']

/-- Half of a pair comes back as a question mark. -/
theorem codec_round_trip_fails :
    ¬∀ (malformed : List UInt8 → List UInt16) (message : Message) (frame : ByteBuf),
      MessageEncoder.encode message = some frame →
        MessageDecoder.decode malformed frame = some (message, .empty) := by
  intro h
  have hfits : (Message.rpcFailure 1 [0xD800]).frame.length < 2 ^ 31 := by decide +kernel
  have hframe : MessageEncoder.encode (.rpcFailure 1 [0xD800]) = some ⟨_, hfits⟩ := by
    rw [MessageEncoder.encode_eq, ByteBuf.ofBytes?_eq_some]
  have hread := h (fun _ => [0xFFFD]) _ _ hframe
  rw [MessageDecoder.decode_frame _ rfl] at hread
  have hsame := (Prod.mk.inj (Option.some.inj hread)).1
  have htext := Utf8.utf16_decode_eq_iff.mpr (Message.replaced_eq_iff.mp hsame)
  exact absurd htext (by decide +kernel)

end Moonbox.Network
