import MeiyeAgent.Machinery.Effect
import MeiyeAgent.Machinery.Wire
import Mathlib.Data.List.GetD
import Mathlib.Tactic.IntervalCases

/-!
# ModelSupply/TtsProtocol — the binary frames of the speech service

A frame is a four-byte header, the event, the ids its event carries, and the payload, each of the
last with its length before it.  Encoder and decoder decide the presence of a field by the same two
sets of events; but the decoder reads an error code off every `Error` frame, which the encoder does
not write.

* `decode_encode` — **the round trip**: a frame of any type but `Error` decodes, to its type, its
  event, its payload, and the ids its event carries, as far as a text decoder gives them back.
* `decode_prefix_free` — no accepted frame is a proper prefix of another.
-/

namespace MeiyeAgent

open Effect Wire

/-! ## Texts -/

/-- A code point of a text: a character, or a surrogate without its partner. -/
inductive CodePoint
  | scalar (c : Char)
  | surrogate (unit : UInt16)
  deriving DecidableEq, Repr

/-- A text of the language, which need not be well formed. -/
abbrev JsString := List CodePoint

/-- The characters of a well-formed text. -/
def jsString (s : String) : JsString := s.toList.map .scalar

/-- The character a code point is encoded as. -/
def CodePoint.toScalar : CodePoint → Char
  | .scalar c => c
  | .surrogate _ => '\uFFFD'

/-- `TextEncoder.encode`. -/
def textEncode (s : JsString) : List UInt8 :=
  (s.map CodePoint.toScalar).flatMap String.utf8EncodeChar

/-- A byte-order mark at the start is no part of the text. -/
def dropByteOrderMark : List Char → List Char
  | '\uFEFF' :: cs => cs
  | cs => cs

/-- `TextDecoder.decode`, fatal: `none` where the bytes are not UTF-8. -/
def textDecode (bytes : List UInt8) : Option JsString :=
  (bytes.toByteArray.utf8Decode?).map fun cs => (dropByteOrderMark cs.toList).map .scalar

/-- What a decoder gives back of an encoded text. -/
def textBack (s : JsString) : JsString :=
  (dropByteOrderMark (s.map CodePoint.toScalar)).map .scalar

theorem textDecode_textEncode (s : JsString) : textDecode (textEncode s) = some (textBack s) := by
  have hdecode : (textEncode s).toByteArray.utf8Decode? =
      some (s.map CodePoint.toScalar).toArray := List.utf8Decode?_utf8Encode
  rw [textDecode, hdecode, Option.map_some, textBack]

/-- A text that comes through: no surrogate stands alone, and none of it is a byte-order mark at the
start. -/
def Plain (s : JsString) : Prop :=
  (∀ p ∈ s, ∃ c, p = .scalar c) ∧ s.head? ≠ some (.scalar '\uFEFF')

variable {s : JsString}

/-- **A plain text comes through.** -/
theorem textBack_of_plain (h : Plain s) : textBack s = s := by
  obtain ⟨hscalar, hmark⟩ := h
  have hback : (s.map CodePoint.toScalar).map .scalar = s := by
    rw [List.map_map]
    refine (List.map_congr_left fun p hp => ?_).trans (List.map_id s)
    obtain ⟨c, rfl⟩ := hscalar p hp
    rfl
  have hkeep : dropByteOrderMark (s.map CodePoint.toScalar) = s.map CodePoint.toScalar := by
    cases s with
    | nil => rfl
    | cons p s =>
      obtain ⟨c, rfl⟩ := hscalar p List.mem_cons_self
      have hc : c ≠ '\uFEFF' := fun hc => hmark (by rw [hc]; rfl)
      simp only [List.map_cons, CodePoint.toScalar]
      rw [dropByteOrderMark]
      intro cs hcs
      exact hc (List.cons.inj hcs).1
  rw [textBack, hkeep, hback]

/-! ## The protocol's constants -/

namespace VOLCENGINE_TTS_MESSAGE_TYPE

def Error : Nat := 0b1111

end VOLCENGINE_TTS_MESSAGE_TYPE

namespace VOLCENGINE_TTS_EVENT

def StartConnection : Int := 1
def FinishConnection : Int := 2
def ConnectionStarted : Int := 50
def ConnectionFailed : Int := 51
def ConnectionFinished : Int := 52

end VOLCENGINE_TTS_EVENT

def WITH_EVENT : Nat := 0b0100
def JSON_SERIALIZATION : Nat := 0b0001
def NO_COMPRESSION : Nat := 0

open VOLCENGINE_TTS_EVENT in
def CONNECTION_EVENTS_WITHOUT_SESSION : List Int :=
  [StartConnection, FinishConnection, ConnectionStarted, ConnectionFailed, ConnectionFinished]

open VOLCENGINE_TTS_EVENT in
def CONNECTION_RESPONSE_EVENTS : List Int :=
  [ConnectionStarted, ConnectionFailed, ConnectionFinished]

/-- What the codec throws: an error of its own, or the text decoder's. -/
inductive FrameError
  | error (message : String)
  | invalidText
  deriving DecidableEq, Repr

structure VolcengineTtsFrame where
  compression : Nat
  connectId : Option JsString
  errorCode : Option Nat
  event : Option Int
  flags : Nat
  headerSize : Nat
  messageType : Nat
  payload : List UInt8
  sequence : Option Int
  serialization : Nat
  sessionId : Option JsString
  version : Nat
  deriving DecidableEq, Repr

/-- What a caller has encoded. -/
structure VolcengineTtsMessage where
  connectId : Option JsString
  event : Int
  messageType : Nat
  payload : List UInt8
  sessionId : Option JsString
  deriving DecidableEq, Repr

/-! ## Encoding -/

def signedInt32 (value : Int) : List UInt8 := bytes32 (unsigned32 value)

def unsignedInt32 (value : Nat) : Except FrameError (List UInt8) :=
  if value > 0xffffffff then throw (.error "Volcengine TTS frame field exceeds uint32.")
  else pure (bytes32 value)

def lengthPrefixed (value : List UInt8) : Except FrameError (List UInt8) := do
  let length ← unsignedInt32 value.length
  return length ++ value

/-- A field that is pushed only if its event carries it. -/
def pushIf (carried : Prop) [Decidable carried] (field : Except FrameError (List UInt8)) :
    Except FrameError (List UInt8) := if carried then field else pure []

def frameHeader (messageType : Nat) : List UInt8 :=
  [0x11, UInt8.ofNat (messageType <<< 4 ||| WITH_EVENT),
    UInt8.ofNat (JSON_SERIALIZATION <<< 4 ||| NO_COMPRESSION), 0]

def encodeVolcengineTtsFrame (input : VolcengineTtsMessage) :
    Except FrameError (List UInt8) := do
  let sessionId ← pushIf (input.event ∉ CONNECTION_EVENTS_WITHOUT_SESSION)
    (lengthPrefixed (textEncode (input.sessionId.getD [])))
  let connectId ← pushIf (input.event ∈ CONNECTION_RESPONSE_EVENTS)
    (lengthPrefixed (textEncode (input.connectId.getD [])))
  let payload ← lengthPrefixed input.payload
  return frameHeader input.messageType ++ (signedInt32 input.event ++ (sessionId ++
    (connectId ++ payload)))

/-! ## Decoding -/

def requireBytes (length : Nat) (field : String) : Reader FrameError (List UInt8) :=
  take length (.error ("Volcengine TTS frame " ++ field ++ " is truncated."))

def readSignedInt32 (field : String) : Reader FrameError Int :=
  (fun bytes => signed32 (number bytes)) <$> requireBytes 4 field

def readUnsignedInt32 (field : String) : Reader FrameError Nat :=
  number <$> requireBytes 4 field

def readString (field : String) : Reader FrameError JsString := do
  let length ← readUnsignedInt32 (field ++ " length")
  let bytes ← requireBytes length field
  match textDecode bytes with
  | some text => return text
  | none => throw .invalidText

structure FrameHeader where
  version : Nat
  headerSize : Nat
  messageType : Nat
  flags : Nat
  serialization : Nat
  compression : Nat
  deriving DecidableEq, Repr

/-- The header; what follows it starts at its size. -/
def readHeader : Reader FrameError FrameHeader := fun data _ => do
  if data.length < 4 then
    throw (.error "Volcengine TTS frame must contain at least 4 bytes.")
  let byte (i : Nat) : Nat := (data.getD i 0).toNat
  let version := byte 0 >>> 4
  let headerSize := (byte 0 &&& 0x0f) * 4
  if headerSize < 4 ∨ headerSize > data.length then
    throw (.error "Volcengine TTS frame header size is invalid.")
  let messageType := byte 1 >>> 4
  let flags := byte 1 &&& 0x0f
  let serialization := byte 2 >>> 4
  let compression := byte 2 &&& 0x0f
  if compression ≠ NO_COMPRESSION then
    throw (.error "Compressed Volcengine TTS frames are unsupported.")
  return (⟨version, headerSize, messageType, flags, serialization, compression⟩, headerSize)

/-- An empty id is left out. -/
def presentId (id : Option JsString) : Option JsString := id.filter (· ≠ [])

/-- Everything up to the payload, and the length of the payload. -/
def readFields (header : FrameHeader) : Reader FrameError (VolcengineTtsFrame × Nat) := do
  let sequence ← optionally (header.flags = 0b0001 ∨ header.flags = 0b0011)
    (readSignedInt32 "sequence")
  let errorCode ← optionally (header.messageType = VOLCENGINE_TTS_MESSAGE_TYPE.Error)
    (readUnsignedInt32 "error code")
  let event ← optionally (header.flags = WITH_EVENT) (readSignedInt32 "event")
  let sessionId ← optionally (∃ e ∈ event, e ∉ CONNECTION_EVENTS_WITHOUT_SESSION)
    (readString "session id")
  let connectId ← optionally (∃ e ∈ event, e ∈ CONNECTION_RESPONSE_EVENTS)
    (readString "connect id")
  let payloadLength ← readUnsignedInt32 "payload length"
  return ({
    compression := header.compression
    connectId := presentId connectId
    errorCode, event
    flags := header.flags
    headerSize := header.headerSize
    messageType := header.messageType
    payload := []
    sequence
    serialization := header.serialization
    sessionId := presentId sessionId
    version := header.version }, payloadLength)

def decodeVolcengineTtsFrame (data : List UInt8) : Except FrameError VolcengineTtsFrame := do
  let ((frame, payloadLength), payloadOffset) ← (readHeader >>= readFields) data 0
  if payloadOffset + payloadLength ≠ data.length then
    throw (.error "Volcengine TTS frame payload length does not match bytes.")
  return { frame with payload := (data.drop payloadOffset).take payloadLength }

/-! ## What the fields read back -/

theorem reads_readSignedInt32 {value : Int} (h : -2147483648 ≤ value ∧ value < 2147483648)
    (field : String) : Reads (readSignedInt32 field) (signedInt32 value) value := by
  have hread := (reads_take (ε := FrameError) (bytes32 (unsigned32 value))
    (.error ("Volcengine TTS frame " ++ field ++ " is truncated."))).map
      fun bytes => signed32 (number bytes)
  rwa [number_bytes32 (unsigned32_lt value), signed32_unsigned32 h] at hread

theorem reads_readUnsignedInt32 {value : Nat} (h : value < 4294967296) (field : String) :
    Reads (readUnsignedInt32 field) (bytes32 value) value := by
  have hread := (reads_take (ε := FrameError) (bytes32 value)
    (.error ("Volcengine TTS frame " ++ field ++ " is truncated."))).map number
  rwa [number_bytes32 h] at hread

variable {bytes : List UInt8}

theorem lengthPrefixed_eq_ok {value : List UInt8} : lengthPrefixed value = .ok bytes ↔
    value.length < 4294967296 ∧ bytes32 value.length ++ value = bytes := by
  simp only [lengthPrefixed, unsignedInt32, bind_eq_ok, pure_eq_ok]
  by_cases h : value.length > 0xffffffff
  · simp only [if_pos h, throw_ne_ok, false_and, exists_false, false_iff, not_and]
    omega
  · simp only [if_neg h, pure_eq_ok, exists_eq_left']
    exact ⟨fun hbytes => ⟨by omega, hbytes⟩, And.right⟩

theorem reads_readString (h : lengthPrefixed (textEncode s) = .ok bytes) (field : String) :
    Reads (readString field) bytes (textBack s) := by
  obtain ⟨hlength, rfl⟩ := lengthPrefixed_eq_ok.mp h
  have htail : Reads (match textDecode (textEncode s) with
      | some text => (pure text : Reader FrameError JsString)
      | none => throw .invalidText) [] (textBack s) := by
    rw [textDecode_textEncode]
    exact Reads.pure _
  have hread := (reads_take (textEncode s)
    (FrameError.error ("Volcengine TTS frame " ++ field ++ " is truncated."))).bind
      (f := fun bytes => match textDecode bytes with
        | some text => pure text
        | none => throw .invalidText) htail
  rw [List.append_nil] at hread
  exact (reads_readUnsignedInt32 hlength _).bind hread

/-- An id is read back if and only if it was pushed. -/
theorem reads_optionally_readString {carried present : Prop} [Decidable carried] [Decidable present]
    (hpresent : present ↔ carried) (h : pushIf carried (lengthPrefixed (textEncode s)) = .ok bytes)
    (field : String) : Reads (optionally present (readString field)) bytes
      (if carried then some (textBack s) else none) := by
  by_cases hc : carried
  · rw [pushIf, if_pos hc] at h
    rw [if_pos hc]
    exact (reads_readString h field).present (hpresent.mpr hc)
  · rw [pushIf, if_neg hc, pure_eq_ok] at h
    subst h
    rw [if_neg hc]
    exact Reads.absent fun hp => hc (hpresent.mp hp)

theorem readHeader_frameHeader {messageType : Nat} (h : messageType < 16) (rest : List UInt8) :
    readHeader (frameHeader messageType ++ rest) 0 = .ok (⟨1, 4, messageType, 4, 1, 0⟩, 4) := by
  have hbyte : (UInt8.ofNat (messageType <<< 4 ||| WITH_EVENT)).toNat >>> 4 = messageType ∧
      (UInt8.ofNat (messageType <<< 4 ||| WITH_EVENT)).toNat &&& 0x0f = 4 := by
    interval_cases messageType <;> decide
  have hlength : ¬ (frameHeader messageType ++ rest).length < 4 := by
    rw [List.length_append]
    exact not_lt.mpr (Nat.le_add_right 4 rest.length)
  simp only [readHeader]
  rw [if_neg hlength]
  simp only [frameHeader, List.cons_append, List.getD_cons_zero, List.getD_cons_succ, hbyte]
  rw [if_neg (by simp), if_neg (by decide)]
  rfl

/-- Bytes that follow do not change the header. -/
theorem stable_readHeader : Stable readHeader := by
  intro data offset r more h
  simp only [readHeader, guard_eq_ok, pure_eq_ok] at h ⊢
  obtain ⟨hlength, hsize, hcompression, rfl⟩ := h
  have hbyte : ∀ i < 4, (data ++ more).getD i 0 = data.getD i 0 := fun i hi => by
    rw [List.getD_append _ _ _ _ (by omega)]
  simp only [hbyte 0 (by omega), hbyte 1 (by omega), hbyte 2 (by omega), List.length_append]
  exact ⟨by omega, by omega, hcompression, trivial⟩

theorem stable_requireBytes (length : Nat) (field : String) :
    Stable (requireBytes length field) := stable_take _ _

theorem stable_readUnsignedInt32 (field : String) : Stable (readUnsignedInt32 field) :=
  (stable_requireBytes 4 field).map _

theorem stable_readSignedInt32 (field : String) : Stable (readSignedInt32 field) :=
  (stable_requireBytes 4 field).map _

theorem stable_readString (field : String) : Stable (readString field) := by
  refine (stable_readUnsignedInt32 _).bind fun length => (stable_requireBytes length field).bind
    fun bytes => ?_
  rcases textDecode bytes with _ | text
  · exact fun _ _ _ _ h => nomatch h
  · exact Stable.pure text

theorem stable_readFields (header : FrameHeader) : Stable (readFields header) :=
  (stable_readSignedInt32 _).optionally.bind fun _ =>
    (stable_readUnsignedInt32 _).optionally.bind fun _ =>
      (stable_readSignedInt32 _).optionally.bind fun _ =>
        (stable_readString _).optionally.bind fun _ =>
          (stable_readString _).optionally.bind fun _ =>
            (stable_readUnsignedInt32 _).bind fun _ => Stable.pure _

/-! ## Whole frames -/

variable {data : List UInt8}

theorem decode_eq_ok {frame : VolcengineTtsFrame} :
    decodeVolcengineTtsFrame data = .ok frame ↔ ∃ head payloadOffset,
      (readHeader >>= readFields) data 0 = .ok (head, payloadOffset) ∧
        payloadOffset + head.2 = data.length ∧
          { head.1 with payload := (data.drop payloadOffset).take head.2 } = frame := by
  simp only [decodeVolcengineTtsFrame, bind_eq_ok]
  constructor
  · rintro ⟨⟨⟨head, length⟩, offset⟩, hread, h⟩
    obtain ⟨hlast, hframe⟩ := guard_eq_ok.mp h
    exact ⟨(head, length), offset, hread, not_not.mp hlast, pure_eq_ok.mp hframe⟩
  · rintro ⟨⟨head, length⟩, offset, hread, hlast, hframe⟩
    exact ⟨((head, length), offset), hread,
      guard_eq_ok.mpr ⟨not_not.mpr hlast, pure_eq_ok.mpr hframe⟩⟩

/-- **No accepted frame is a proper prefix of an accepted frame.** -/
theorem decode_prefix_free {more : List UInt8} {frame frame' : VolcengineTtsFrame}
    (h : decodeVolcengineTtsFrame data = .ok frame)
    (h' : decodeVolcengineTtsFrame (data ++ more) = .ok frame') : more = [] := by
  obtain ⟨head, offset, hread, hlast, -⟩ := decode_eq_ok.mp h
  obtain ⟨head', offset', hread', hlast', -⟩ := decode_eq_ok.mp h'
  exact (stable_readHeader.bind stable_readFields).prefix_free hread hread'
    (fun r => r.2 + r.1.2) hlast hlast'

/-- An id as its receiver has it. -/
def delivered (carried : Prop) [Decidable carried] (id : Option JsString) : Option JsString :=
  if carried then presentId (some (textBack (id.getD []))) else none

theorem presentId_read (carried : Prop) [Decidable carried] (id : Option JsString) :
    presentId (if carried then some (textBack (id.getD [])) else none) = delivered carried id := by
  rw [delivered]
  split <;> rfl

/-- The frame an encoded message decodes to. -/
def deliveredFrame (message : VolcengineTtsMessage) : VolcengineTtsFrame where
  compression := 0
  connectId := delivered (message.event ∈ CONNECTION_RESPONSE_EVENTS) message.connectId
  errorCode := none
  event := some message.event
  flags := 4
  headerSize := 4
  messageType := message.messageType
  payload := message.payload
  sequence := none
  serialization := 1
  sessionId := delivered (message.event ∉ CONNECTION_EVENTS_WITHOUT_SESSION) message.sessionId
  version := 1

/-- The fields behind the header are read as they were pushed. -/
theorem reads_readFields {message : VolcengineTtsMessage} {sessionId connectId : List UInt8}
    (herror : message.messageType ≠ VOLCENGINE_TTS_MESSAGE_TYPE.Error)
    (hevent : -2147483648 ≤ message.event ∧ message.event < 2147483648)
    (hsession : pushIf (message.event ∉ CONNECTION_EVENTS_WITHOUT_SESSION)
      (lengthPrefixed (textEncode (message.sessionId.getD []))) = .ok sessionId)
    (hconnect : pushIf (message.event ∈ CONNECTION_RESPONSE_EVENTS)
      (lengthPrefixed (textEncode (message.connectId.getD []))) = .ok connectId)
    (hlength : message.payload.length < 4294967296) :
    Reads (readFields ⟨1, 4, message.messageType, 4, 1, 0⟩)
      (signedInt32 message.event ++ (sessionId ++ (connectId ++ bytes32 message.payload.length)))
      ({ deliveredFrame message with payload := [] }, message.payload.length) := by
  have hsessionRead : Reads (optionally (∃ e ∈ some message.event,
      e ∉ CONNECTION_EVENTS_WITHOUT_SESSION) (readString "session id")) sessionId _ :=
    reads_optionally_readString (by simp) hsession "session id"
  have hconnectRead : Reads (optionally (∃ e ∈ some message.event,
      e ∈ CONNECTION_RESPONSE_EVENTS) (readString "connect id")) connectId _ :=
    reads_optionally_readString (by simp) hconnect "connect id"
  rw [deliveredFrame, ← presentId_read, ← presentId_read,
    ← List.append_nil (bytes32 message.payload.length)]
  have hflags : ¬ (4 = 0b0001 ∨ 4 = 0b0011) := by decide
  exact (Reads.absent hflags).bind ((Reads.absent herror).bind
    (((reads_readSignedInt32 hevent "event").present rfl).bind (hsessionRead.bind
      (hconnectRead.bind ((reads_readUnsignedInt32 hlength "payload length").bind
        (Reads.pure _))))))

/-- **What an encoded frame decodes to**, of any type but `Error`. -/
theorem decode_of_encode {message : VolcengineTtsMessage}
    (hencode : encodeVolcengineTtsFrame message = .ok bytes) (htype : message.messageType < 16)
    (herror : message.messageType ≠ VOLCENGINE_TTS_MESSAGE_TYPE.Error)
    (hevent : -2147483648 ≤ message.event ∧ message.event < 2147483648) :
    decodeVolcengineTtsFrame bytes = .ok (deliveredFrame message) := by
  simp only [encodeVolcengineTtsFrame, bind_eq_ok, pure_eq_ok] at hencode
  obtain ⟨sessionId, hsession, connectId, hconnect, payload, hpayload, rfl⟩ := hencode
  obtain ⟨hlength, rfl⟩ := lengthPrefixed_eq_ok.mp hpayload
  have hfields := reads_readFields herror hevent hsession hconnect hlength
    (frameHeader message.messageType) message.payload
  have hassoc : frameHeader message.messageType ++ (signedInt32 message.event ++ (sessionId ++
      (connectId ++ (bytes32 message.payload.length ++ message.payload)))) =
      frameHeader message.messageType ++ (signedInt32 message.event ++ (sessionId ++
        (connectId ++ bytes32 message.payload.length))) ++ message.payload := by
    simp only [List.append_assoc]
  rw [hassoc, decode_eq_ok]
  refine ⟨_, _, reader_bind_eq_ok.mpr ⟨(⟨1, 4, message.messageType, 4, 1, 0⟩, 4), ?_, hfields⟩,
    ?_, ?_⟩
  · rw [List.append_assoc]
    exact readHeader_frameHeader htype _
  · simp only [List.length_append]
  · simp only [← List.length_append, List.drop_left, List.take_length]
    rfl

theorem delivered_of_plain {carried : Prop} [Decidable carried] {id : Option JsString}
    (hc : carried) (h : Plain (id.getD [])) : delivered carried id = presentId id := by
  rw [delivered, if_pos hc, textBack_of_plain h]
  cases id <;> rfl

theorem decode_error (h : ∀ frame, decodeVolcengineTtsFrame data ≠ .ok frame) :
    ∃ e, decodeVolcengineTtsFrame data = .error e := by
  rcases hdata : decodeVolcengineTtsFrame data with e | frame
  · exact ⟨e, rfl⟩
  · exact absurd hdata (h frame)

/-- **Frames decode to what was encoded.**  A message of any type but `Error` comes back with its
type, event and payload, and with the ids its event carries, an empty one left out, if they are plain
texts; and neither a proper prefix of its bytes nor an extension of them is accepted. -/
theorem decode_encode {message : VolcengineTtsMessage} {bytes : List UInt8}
    (hencode : encodeVolcengineTtsFrame message = .ok bytes) (htype : message.messageType < 16)
    (herror : message.messageType ≠ VOLCENGINE_TTS_MESSAGE_TYPE.Error)
    (hevent : -2147483648 ≤ message.event ∧ message.event < 2147483648) :
    (∃ frame, decodeVolcengineTtsFrame bytes = .ok frame ∧
      frame.messageType = message.messageType ∧ frame.event = some message.event ∧
      frame.payload = message.payload ∧
      (message.event ∉ CONNECTION_EVENTS_WITHOUT_SESSION → Plain (message.sessionId.getD []) →
        frame.sessionId = presentId message.sessionId) ∧
      (message.event ∈ CONNECTION_EVENTS_WITHOUT_SESSION → frame.sessionId = none) ∧
      (message.event ∈ CONNECTION_RESPONSE_EVENTS → Plain (message.connectId.getD []) →
        frame.connectId = presentId message.connectId) ∧
      (message.event ∉ CONNECTION_RESPONSE_EVENTS → frame.connectId = none)) ∧
    (∀ front back, front ++ back = bytes → back ≠ [] →
      ∃ e, decodeVolcengineTtsFrame front = .error e) ∧
    ∀ more, more ≠ [] → ∃ e, decodeVolcengineTtsFrame (bytes ++ more) = .error e := by
  have hdecode := decode_of_encode hencode htype herror hevent
  refine ⟨⟨_, hdecode, rfl, rfl, rfl, fun hc hplain => delivered_of_plain hc hplain,
    fun hc => if_neg (not_not.mpr hc), fun hc hplain => delivered_of_plain hc hplain,
    fun hc => if_neg hc⟩, fun front back hsplit hback => decode_error fun frame hfront => ?_,
    fun more hmore => decode_error fun frame hmoreFrame => hmore ?_⟩
  · rw [← hsplit] at hdecode
    exact hback (decode_prefix_free hfront hdecode)
  · exact decode_prefix_free hdecode hmoreFrame

/-- A message for a session. -/
def sessionMessage (messageType : Nat) (event : Int) (sessionId : String) :
    VolcengineTtsMessage where
  connectId := none
  event := event
  messageType := messageType
  payload := [0x7b, 0x7d]
  sessionId := some (jsString sessionId)

theorem decode_encode_startSession : ∃ bytes,
    encodeVolcengineTtsFrame (sessionMessage 1 100 "s1") = .ok bytes ∧
      ∃ frame, decodeVolcengineTtsFrame bytes = .ok frame ∧
        frame.sessionId = some (jsString "s1") := by
  have hplain : Plain ((sessionMessage 1 100 "s1").sessionId.getD []) := by
    refine ⟨fun p hp => ?_, by decide⟩
    obtain ⟨c, -, rfl⟩ := List.mem_map.mp hp
    exact ⟨c, rfl⟩
  obtain ⟨bytes, hencode⟩ : ∃ bytes, encodeVolcengineTtsFrame (sessionMessage 1 100 "s1") =
      .ok bytes := ⟨_, rfl⟩
  obtain ⟨⟨frame, hdecode, -, -, -, hsession, -⟩, -⟩ :=
    decode_encode hencode (by decide) (by decide) (by decide)
  exact ⟨bytes, hencode, frame, hdecode, hsession (by decide) hplain⟩

/-- **What does not come back**: an `Error` frame, an id its event does not carry, and the
byte-order mark an id starts with. -/
theorem encode_not_read_back :
    (∃ bytes e, encodeVolcengineTtsFrame
        (sessionMessage VOLCENGINE_TTS_MESSAGE_TYPE.Error 1 "") = .ok bytes ∧
      decodeVolcengineTtsFrame bytes = .error e) ∧
    (∃ bytes frame, encodeVolcengineTtsFrame (sessionMessage 1 1 "s1") = .ok bytes ∧
      decodeVolcengineTtsFrame bytes = .ok frame ∧ frame.sessionId ≠ some (jsString "s1")) ∧
    ∃ bytes frame, encodeVolcengineTtsFrame (sessionMessage 1 100 "\uFEFFs1") = .ok bytes ∧
      decodeVolcengineTtsFrame bytes = .ok frame ∧
        frame.sessionId ≠ some (jsString "\uFEFFs1") := by
  obtain ⟨bytes, hbytes⟩ : ∃ bytes,
      encodeVolcengineTtsFrame (sessionMessage 1 1 "s1") = .ok bytes := ⟨_, rfl⟩
  obtain ⟨marked, hmarked⟩ : ∃ bytes,
      encodeVolcengineTtsFrame (sessionMessage 1 100 "\uFEFFs1") = .ok bytes := ⟨_, rfl⟩
  refine ⟨⟨_, .error "Volcengine TTS frame payload length is truncated.", rfl, by decide⟩,
    ⟨bytes, _, hbytes, decode_of_encode hbytes (by decide) (by decide) (by decide), by decide⟩,
    ⟨marked, _, hmarked, decode_of_encode hmarked (by decide) (by decide) (by decide), by decide⟩⟩

end MeiyeAgent
