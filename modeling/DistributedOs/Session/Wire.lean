import DistributedOs.Semantics.Codec

/-! Session negotiation messages: a 10-byte header (magic, version, type, payload
length) and a JSON payload. `decode_session_header` looks at every header field but
the version. -/

namespace DistributedOs.Session

open Semantics

def sessionMagic : Bytes := [0x58, 0x59, 0x4E, 0x53]

inductive SessionMsgType where
  | request
  | accept
  | reject
  | progress
  | complete
  | failed
  deriving DecidableEq, Repr

def SessionMsgType.toU8 : SessionMsgType → UInt8
  | .request => 0x10
  | .accept => 0x11
  | .reject => 0x12
  | .progress => 0x13
  | .complete => 0x14
  | .failed => 0x15

def SessionMsgType.fromU8 (value : UInt8) : Option SessionMsgType :=
  if value = 0x10 then some .request
  else if value = 0x11 then some .accept
  else if value = 0x12 then some .reject
  else if value = 0x13 then some .progress
  else if value = 0x14 then some .complete
  else if value = 0x15 then some .failed
  else none

structure SessionMsgHeader where
  msgType : SessionMsgType
  payloadLen : UInt32
  deriving DecidableEq

inductive SessionReadError where
  | unexpectedEof
  | invalidSessionHeader
  deriving DecidableEq, Repr

def encodeSessionMsg (msgType : SessionMsgType) (payload : Bytes) : Bytes :=
  sessionMagic ++ [0x01] ++ [msgType.toU8] ++ toBe 4 (payload.length % 2 ^ 32) ++ payload

def decodeSessionHeader (buf : Bytes) : Option SessionMsgHeader :=
  if buf.length < 10 then none
  else if buf.take 4 ≠ sessionMagic then none
  else do
    let msgType ← SessionMsgType.fromU8 (buf.getD 5 0)
    return { msgType, payloadLen := UInt32.ofNat (ofBe ((buf.drop 6).take 4)) }

def readSessionMsg (stream : Bytes) :
    Except SessionReadError ((SessionMsgHeader × Bytes) × Bytes) :=
  do
  let (headerBuf, stream) ← readExact .unexpectedEof 10 stream
  match decodeSessionHeader headerBuf with
  | none => .error .invalidSessionHeader
  | some header => do
    let (payload, stream) ← readExact .unexpectedEof header.payloadLen.toNat stream
    return ((header, payload), stream)

def readSessionMsgs (stream : Bytes) : Option (List (SessionMsgHeader × Bytes)) :=
  decodeStream (fun stream => (readSessionMsg stream).toOption) stream

/-- A message whose payload the length field can count. -/
structure SessionMsg where
  msgType : SessionMsgType
  payload : Bytes
  fits : payload.length < 2 ^ 32

namespace SessionMsg

def encode (msg : SessionMsg) : Bytes := encodeSessionMsg msg.msgType msg.payload

/-- What the reader returns for the message. -/
def view (msg : SessionMsg) : SessionMsgHeader × Bytes :=
  ({ msgType := msg.msgType, payloadLen := UInt32.ofNat msg.payload.length }, msg.payload)

end SessionMsg

variable {stream rest payload : Bytes} {header : SessionMsgHeader}

@[simp] theorem SessionMsgType.fromU8_toU8 (msgType : SessionMsgType) :
    SessionMsgType.fromU8 msgType.toU8 = some msgType := by
  cases msgType <;> rfl

theorem SessionMsgType.fromU8_some (found : SessionMsgType.fromU8 value = some msgType) :
    value = msgType.toU8 := by
  unfold SessionMsgType.fromU8 at found
  split_ifs at found <;> cases found <;> assumption

def headerBytes (version : UInt8) (msgType : SessionMsgType) (payloadLen : UInt32) : Bytes :=
  sessionMagic ++ [version] ++ [msgType.toU8] ++ toBe 4 payloadLen.toNat

theorem length_headerBytes : (headerBytes version msgType payloadLen).length = 10 := by
  simp [headerBytes, sessionMagic]

theorem decodeSessionHeader_headerBytes :
    decodeSessionHeader (headerBytes version msgType payloadLen) =
      some { msgType, payloadLen } := by
  have long : ¬ (headerBytes version msgType payloadLen).length < 10 := by simp [length_headerBytes]
  have magic : (headerBytes version msgType payloadLen).take 4 = sessionMagic := rfl
  have typeByte : (headerBytes version msgType payloadLen).getD 5 0 = msgType.toU8 := rfl
  have length : ((headerBytes version msgType payloadLen).drop 6).take 4 = toBe 4 payloadLen.toNat :=
    List.take_of_length_le (by simp [headerBytes, sessionMagic])
  rw [decodeSessionHeader, if_neg long, if_neg (by simp [magic]), typeByte, length,
    ofBe_toBe_of_lt payloadLen.toNat_lt]
  simp

/-- An accepted header is fixed by what it decodes to, up to the version byte. -/
theorem decodeSessionHeader_some (exact : buf.length = 10)
    (decoded : decodeSessionHeader buf = some header) :
    ∃ version, buf = headerBytes version header.msgType header.payloadLen := by
  obtain ⟨m0, m1, m2, m3, version, typeByte, l0, l1, l2, l3, rfl⟩ :
      ∃ m0 m1 m2 m3 version typeByte l0 l1 l2 l3,
      buf = [m0, m1, m2, m3, version, typeByte, l0, l1, l2, l3] := by
    match buf, exact with
    | [m0, m1, m2, m3, version, typeByte, l0, l1, l2, l3], _ => exact ⟨_, _, _, _, _, _, _, _, _, _, rfl⟩
  refine ⟨version, ?_⟩
  simp only [decodeSessionHeader, List.length_cons, List.length_nil, Nat.lt_irrefl,
    ↓reduceIte] at decoded
  split at decoded
  · cases decoded
  · rename_i magic
    obtain ⟨_, known, built⟩ := Option.bind_eq_some_iff.mp decoded
    cases built
    have magicBytes : [m0, m1, m2, m3] = sessionMagic := by simpa using magic
    have length : toBe 4 (UInt32.ofNat (ofBe [l0, l1, l2, l3])).toNat = [l0, l1, l2, l3] := by
      have bound : ofBe [l0, l1, l2, l3] < 256 ^ 4 := ofBe_lt [l0, l1, l2, l3]
      rw [UInt32.toNat_ofNat_of_lt' (Nat.lt_of_lt_of_eq bound (by decide))]
      exact toBe_ofBe [l0, l1, l2, l3]
    have typed := SessionMsgType.fromU8_some known
    rw [headerBytes, ← magicBytes, ← typed]
    simp only [List.drop_succ_cons, List.drop_zero, List.take_succ_cons, List.take_zero, length]
    rfl

/-- What an accepted byte string looks like: some version byte, the other header
fields as the encoder writes them, and a payload of the announced length. -/
theorem readSessionMsg_ok (read : readSessionMsg stream = .ok ((header, payload), rest)) :
    payload.length = header.payloadLen.toNat ∧
      ∃ version, stream = headerBytes version header.msgType header.payloadLen ++
      payload ++ rest := by
  unfold readSessionMsg at read
  cases first : readExact SessionReadError.unexpectedEof 10 stream with
  | error => simp [first, bind, Except.bind] at read
  | ok split =>
    obtain ⟨headerBuf, middle⟩ := split
    obtain ⟨rfl, exact⟩ := readExact_ok first
    cases decoded : decodeSessionHeader headerBuf with
    | none => simp [first, bind, Except.bind, decoded] at read
    | some found =>
      cases second : readExact SessionReadError.unexpectedEof found.payloadLen.toNat middle with
      | error => simp [first, bind, Except.bind, decoded, second] at read
      | ok =>
        simp only [first, bind, Except.bind, decoded, second, pure, Except.pure, Except.ok.injEq,
          Prod.mk.injEq] at read
        obtain ⟨⟨rfl, rfl⟩, rfl⟩ := read
        obtain ⟨rfl, length⟩ := readExact_ok second
        obtain ⟨version, rfl⟩ := decodeSessionHeader_some exact decoded
        exact ⟨length, version, by simp⟩

theorem readSessionMsg_headerBytes (length : payload.length = payloadLen.toNat) (rest : Bytes) :
    readSessionMsg (headerBytes version msgType payloadLen ++ payload ++ rest) =
      .ok (({ msgType, payloadLen }, payload), rest) := by
  rw [List.append_assoc, readSessionMsg, readExact_append length_headerBytes]
  simp only [bind, Except.bind, decodeSessionHeader_headerBytes, readExact_append length,
    pure, Except.pure]

theorem encodeSessionMsg_eq (length : payload.length = payloadLen.toNat) :
    encodeSessionMsg msgType payload = headerBytes 0x01 msgType payloadLen ++ payload := by
  rw [encodeSessionMsg, headerBytes, length, Nat.mod_eq_of_lt payloadLen.toNat_lt]

theorem SessionMsg.readsBack (msg : SessionMsg) :
    ReadsBack (fun stream => (readSessionMsg stream).toOption) SessionMsg.encode
      SessionMsg.view msg := by
  intro _
  have length : msg.payload.length = (UInt32.ofNat msg.payload.length).toNat :=
    (UInt32.toNat_ofNat_of_lt' msg.fits).symm
  simp only [SessionMsg.encode, encodeSessionMsg_eq length, readSessionMsg_headerBytes length]
  rfl

theorem readSessionMsgs_encode (messages : List SessionMsg) :
    readSessionMsgs (messages.flatMap SessionMsg.encode) = some (messages.map SessionMsg.view) :=
  decodeStream_encode messages (fun msg _ => by simp [SessionMsg.encode, encodeSessionMsg])
    (fun msg _ => msg.readsBack)

/-- Messages are read back always; an accepted byte string is the encoding of the
message returned exactly when its version byte is the one the encoder writes. -/
theorem sessionWire_exact_iff (messages : List SessionMsg)
    (accepted : readSessionMsg stream = .ok ((header, payload), rest)) :
    (readSessionMsgs (messages.flatMap SessionMsg.encode) = some (messages.map SessionMsg.view) ∧
        stream = encodeSessionMsg header.msgType payload ++ rest) ↔
      stream[4]? = some 0x01 := by
  obtain ⟨length, version, rfl⟩ := readSessionMsg_ok accepted
  have versionByte : (headerBytes version header.msgType header.payloadLen ++ payload ++ rest)[4]? =
      some version :=
    rfl
  rw [encodeSessionMsg_eq length, versionByte, Option.some.injEq]
  constructor
  · rintro ⟨_, same⟩
    have bytes := congrArg (·[4]?) same
    simpa [headerBytes, sessionMagic] using bytes
  · rintro rfl
    exact ⟨readSessionMsgs_encode messages, rfl⟩

def sampleMsgs : List SessionMsg :=
  [{ msgType := .request, payload := [0x7B, 0x7D], fits := by decide },
    { msgType := .accept, payload := [0x7B], fits := by decide }]

theorem sessionWire_exact_accept :
    readSessionMsgs (sampleMsgs.flatMap SessionMsg.encode) = some (sampleMsgs.map SessionMsg.view) ∧
      [0x58, 0x59, 0x4E, 0x53, 0x01, 0x11, 0, 0, 0, 1, 0x7B] =
      encodeSessionMsg .accept [0x7B] ++ [] :=
  have accepted : readSessionMsg [0x58, 0x59, 0x4E, 0x53, 0x01, 0x11, 0, 0, 0, 1, 0x7B] =
      .ok (({ msgType := .accept, payloadLen := 1 }, [0x7B]), []) := rfl
  (sessionWire_exact_iff sampleMsgs accepted).mpr rfl

/-- Version 2 is accepted, though no encoder writes it. -/
theorem readSessionMsg_version_two :
    readSessionMsg [0x58, 0x59, 0x4E, 0x53, 0x02, 0x10, 0, 0, 0, 0] =
        .ok (({ msgType := .request, payloadLen := 0 }, []), []) ∧
      [0x58, 0x59, 0x4E, 0x53, 0x02, 0x10, 0, 0, 0, 0] ≠ encodeSessionMsg .request [] := by
  decide

end DistributedOs.Session
