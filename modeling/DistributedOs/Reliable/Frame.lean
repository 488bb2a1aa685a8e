import DistributedOs.Semantics.Codec

/-! Frames of the reliable transfer. The type byte alone decides how many bytes
follow; `read_frame` computes that number apart from the encoders. -/

namespace DistributedOs.Reliable

open Semantics

def frameData : UInt8 := 0x00
def frameAck : UInt8 := 0x01
def frameNack : UInt8 := 0x02
def frameFin : UInt8 := 0x03
def frameFinack : UInt8 := 0x04
def frameBpres : UInt8 := 0x05
def frameCancel : UInt8 := 0x06

inductive Frame where
  | data (chunkId : UInt32) (offset : UInt64) (data : Bytes)
  | ack (chunkId : UInt32) (ackedOffset : UInt64)
  | nack (chunkId : UInt32) (expectedOffset : UInt64) (reason : UInt8)
  | fin (chunkId : UInt32) (totalBytes : UInt64)
  | finack (chunkId : UInt32)
  | bpres (queueDepthUs processingDelayUs : UInt64)
  | cancel (reason : String)
  deriving DecidableEq

def beU32 (value : UInt32) : Bytes := toBe 4 value.toNat

def beU64 (value : UInt64) : Bytes := toBe 8 value.toNat

/-- `reason.as_bytes()`. -/
def utf8 (reason : String) : Bytes := reason.toByteArray.data.toList

def encodeDataFrame (chunkId : UInt32) (offset : UInt64) (data : Bytes) : Bytes :=
  frameData :: beU32 chunkId ++ beU64 offset ++ toBe 4 (data.length % 2 ^ 32) ++ data

def encodeAck (chunkId : UInt32) (ackedOffset : UInt64) : Bytes :=
  frameAck :: beU32 chunkId ++ beU64 ackedOffset

def encodeNack (chunkId : UInt32) (expectedOffset : UInt64) (reason : UInt8) : Bytes :=
  frameNack :: beU32 chunkId ++ beU64 expectedOffset ++ [reason]

def encodeFin (chunkId : UInt32) (totalBytes : UInt64) : Bytes :=
  frameFin :: beU32 chunkId ++ beU64 totalBytes

def encodeFinack (chunkId : UInt32) : Bytes := frameFinack :: beU32 chunkId

def encodeCancel (reason : String) : Bytes :=
  frameCancel :: toBe 2 ((utf8 reason).length % 2 ^ 16) ++ utf8 reason

def encodeBpres (queueDepthUs processingDelayUs : UInt64) : Bytes :=
  frameBpres :: beU64 queueDepthUs ++ beU64 processingDelayUs

def Frame.encode : Frame → Bytes
  | .data chunkId offset content => encodeDataFrame chunkId offset content
  | .ack chunkId ackedOffset => encodeAck chunkId ackedOffset
  | .nack chunkId expectedOffset reason => encodeNack chunkId expectedOffset reason
  | .fin chunkId totalBytes => encodeFin chunkId totalBytes
  | .finack chunkId => encodeFinack chunkId
  | .bpres queueDepthUs processingDelayUs => encodeBpres queueDepthUs processingDelayUs
  | .cancel reason => encodeCancel reason

def framePayloadLen (frameType : UInt8) : Option Nat :=
  if frameType = frameData then none
  else if frameType = frameAck then some 12
  else if frameType = frameNack then some 12
  else if frameType = frameFin then some 12
  else if frameType = frameFinack then some 4
  else if frameType = frameBpres then some 16
  else none

/-- A type byte and the fields after it, without the length field. -/
abbrev RawFrame := UInt8 × Bytes

/-- `wouldBlock` waits for more bytes; the source has no other way to go on. -/
inductive ReadError where
  | wouldBlock
  | unknownFrameType
  deriving DecidableEq, Repr

def readFrame : Bytes → Except ReadError (RawFrame × Bytes)
  | [] => .error .wouldBlock
  | frameType :: stream =>
    if frameType = frameData then do
      let (header, stream) ← readExact .wouldBlock 16 stream
      let dataLen := ofBe (header.drop 12)
      let (data, stream) ← readExact .wouldBlock dataLen stream
      return ((frameType, header.take 12 ++ data), stream)
    else if frameType = frameCancel then do
      let (lenBuf, stream) ← readExact .wouldBlock 2 stream
      let reasonLen := ofBe lenBuf
      let (reason, stream) ← readExact .wouldBlock reasonLen stream
      return ((frameType, reason), stream)
    else match framePayloadLen frameType with
      | some len => do
        let (payload, stream) ← readExact .wouldBlock len stream
        return ((frameType, payload), stream)
      | none => .error .unknownFrameType

def readFrames (stream : Bytes) : Option (List RawFrame) :=
  decodeStream (fun stream => (readFrame stream).toOption) stream

/-- What a reader must hand on to have read this frame: every field, in order. -/
def Frame.wire : Frame → RawFrame
  | .data chunkId offset content => (frameData, beU32 chunkId ++ beU64 offset ++ content)
  | .ack chunkId ackedOffset => (frameAck, beU32 chunkId ++ beU64 ackedOffset)
  | .nack chunkId expectedOffset reason => (frameNack, beU32 chunkId ++ beU64 expectedOffset ++ [reason])
  | .fin chunkId totalBytes => (frameFin, beU32 chunkId ++ beU64 totalBytes)
  | .finack chunkId => (frameFinack, beU32 chunkId)
  | .bpres queueDepthUs processingDelayUs => (frameBpres, beU64 queueDepthUs ++ beU64 processingDelayUs)
  | .cancel reason => (frameCancel, utf8 reason)

/-- The frames whose length the reader agrees on: `frame_payload_len` leaves out
the reason byte of a NACK, and two length fields are narrower than what they count. -/
def Frame.readable : Frame → Bool
  | .data _ _ content => content.length < 2 ^ 32
  | .nack _ _ _ => false
  | .cancel reason => (utf8 reason).length < 2 ^ 16
  | _ => true

variable {bytes stream rest : Bytes} {frame : Frame}

@[simp] theorem length_beU32 (value : UInt32) : (beU32 value).length = 4 := length_toBe ..

@[simp] theorem length_beU64 (value : UInt64) : (beU64 value).length = 8 := length_toBe ..

@[simp] theorem ofBe_beU32 (value : UInt32) : ofBe (beU32 value) = value.toNat :=
  ofBe_toBe_of_lt value.toNat_lt

@[simp] theorem ofBe_beU64 (value : UInt64) : ofBe (beU64 value) = value.toNat :=
  ofBe_toBe_of_lt value.toNat_lt

theorem readFrame_fixed (notData : frameType ≠ frameData) (notCancel : frameType ≠ frameCancel)
    (fixed : framePayloadLen frameType = some payload.length) (rest : Bytes) :
    readFrame (frameType :: payload ++ rest) = .ok ((frameType, payload), rest) := by
  simp only [List.cons_append, readFrame, notData, notCancel, ↓reduceIte, fixed,
    readExact_append rfl, bind, Except.bind, pure, Except.pure]

private theorem readFrame_data (fits : content.length < 2 ^ 32) (rest : Bytes) :
    readFrame (encodeDataFrame chunkId offset content ++ rest) =
      .ok ((Frame.data chunkId offset content).wire, rest) := by
  let header := beU32 chunkId ++ beU64 offset ++ toBe 4 (content.length % 2 ^ 32)
  have size : header.length = 16 := by simp [header]
  have split : encodeDataFrame chunkId offset content ++ rest =
      frameData :: (header ++ (content ++ rest)) := by simp [encodeDataFrame, header]
  have fields : header.take 12 = beU32 chunkId ++ beU64 offset := List.take_left' (by simp)
  have length : ofBe (header.drop 12) = content.length := by
    rw [List.drop_left' (by simp), Nat.mod_eq_of_lt fits, ofBe_toBe_of_lt (by simpa using fits)]
  rw [split]
  simp only [readFrame, ↓reduceIte, readExact_append size, bind, Except.bind, fields, length,
    readExact_append rfl, pure, Except.pure, Frame.wire]

private theorem readFrame_cancel (fits : (utf8 reason).length < 2 ^ 16) (rest : Bytes) :
    readFrame (encodeCancel reason ++ rest) = .ok ((Frame.cancel reason).wire, rest) := by
  have notData : frameCancel ≠ frameData := by decide
  have length : ofBe (toBe 2 ((utf8 reason).length % 2 ^ 16)) = (utf8 reason).length := by
    rw [Nat.mod_eq_of_lt fits, ofBe_toBe_of_lt (by simpa using fits)]
  rw [encodeCancel, List.cons_append, List.cons_append, List.append_assoc]
  simp only [readFrame, notData, ↓reduceIte, readExact_append (length_toBe 2 _), bind, Except.bind,
    length, readExact_append rfl, pure, Except.pure, Frame.wire]

theorem readFrame_encode (readable : frame.readable = true) (rest : Bytes) :
    readFrame (frame.encode ++ rest) = .ok (frame.wire, rest) := by
  cases frame with
  | data => exact readFrame_data (by simpa [Frame.readable] using readable) rest
  | ack => exact readFrame_fixed (by decide) (by decide) (by simp; rfl) rest
  | nack => simp [Frame.readable] at readable
  | fin => exact readFrame_fixed (by decide) (by decide) (by simp; rfl) rest
  | finack => exact readFrame_fixed (by decide) (by decide) (by simp; rfl) rest
  | bpres => exact readFrame_fixed (by decide) (by decide) (by simp; rfl) rest
  | cancel => exact readFrame_cancel (by simpa [Frame.readable] using readable) rest

/-- The payload lengths a reader can hand on for a type byte. -/
def RawFrame.sized (raw : RawFrame) : Prop :=
  if raw.1 = frameData then 12 ≤ raw.2.length ∧ raw.2.length < 12 + 2 ^ 32
  else if raw.1 = frameCancel then raw.2.length < 2 ^ 16
  else framePayloadLen raw.1 = some raw.2.length

def RawFrame.size (raw : RawFrame) : Nat :=
  if raw.1 = frameData then raw.2.length + 5
  else if raw.1 = frameCancel then raw.2.length + 3
  else raw.2.length + 1

/-- What one successful read says: which bytes it used, that they alone decided
the result, and that the payload has a length its type allows. -/
def ReadUses (stream : Bytes) (raw : RawFrame) (rest : Bytes) : Prop :=
  ∃ used, stream = used ++ rest ∧ used.length = raw.size ∧ raw.sized ∧
    ∀ other, readFrame (used ++ other) = .ok (raw, other)

private theorem readFrame_ok_data
    (read : readFrame (frameData :: stream) = .ok (raw, rest)) :
    ReadUses (frameData :: stream) raw rest := by
  simp only [readFrame, ↓reduceIte, bind, Except.bind] at read
  cases first : readExact ReadError.wouldBlock 16 stream with
  | error => simp [first] at read
  | ok split =>
    obtain ⟨header, middle⟩ := split
    cases second : readExact ReadError.wouldBlock (ofBe (header.drop 12)) middle with
    | error => simp [first, second] at read
    | ok split =>
      obtain ⟨content, _⟩ := split
      simp only [first, second, pure, Except.pure, Except.ok.injEq, Prod.mk.injEq] at read
      obtain ⟨rfl, rfl⟩ := read
      obtain ⟨rfl, headerSize⟩ := readExact_ok first
      obtain ⟨rfl, contentSize⟩ := readExact_ok second
      have bound : ofBe (header.drop 12) < 256 ^ 4 := by
        simpa [headerSize] using ofBe_lt (header.drop 12)
      refine ⟨frameData :: (header ++ content), by simp, ?_, ?_, ?_⟩
      · simp [RawFrame.size, headerSize]
        omega
      · simp [RawFrame.sized, headerSize]
        omega
      · intro _
        rw [List.cons_append, List.append_assoc]
        simp only [readFrame, ↓reduceIte, readExact_append headerSize, bind, Except.bind,
          readExact_append contentSize, pure, Except.pure]

private theorem readFrame_ok_cancel
    (read : readFrame (frameCancel :: stream) = .ok (raw, rest)) :
    ReadUses (frameCancel :: stream) raw rest := by
  have notData : frameCancel ≠ frameData := by decide
  simp only [readFrame, notData, ↓reduceIte, bind, Except.bind] at read
  cases first : readExact ReadError.wouldBlock 2 stream with
  | error => simp [first] at read
  | ok split =>
    obtain ⟨lenBuf, middle⟩ := split
    cases second : readExact ReadError.wouldBlock (ofBe lenBuf) middle with
    | error => simp [first, second] at read
    | ok split =>
      obtain ⟨reason, _⟩ := split
      simp only [first, second, pure, Except.pure, Except.ok.injEq, Prod.mk.injEq] at read
      obtain ⟨rfl, rfl⟩ := read
      obtain ⟨rfl, lenSize⟩ := readExact_ok first
      obtain ⟨rfl, reasonSize⟩ := readExact_ok second
      have bound : ofBe lenBuf < 256 ^ 2 := by simpa [lenSize] using ofBe_lt lenBuf
      refine ⟨frameCancel :: (lenBuf ++ reason), by simp, ?_, ?_, ?_⟩
      · simp [RawFrame.size, lenSize, notData]
        omega
      · simp [RawFrame.sized, notData]
        omega
      · intro _
        rw [List.cons_append, List.append_assoc]
        simp only [readFrame, notData, ↓reduceIte, readExact_append lenSize, bind, Except.bind,
          readExact_append reasonSize, pure, Except.pure]

theorem readFrame_ok (read : readFrame stream = .ok (raw, rest)) :
    ReadUses stream raw rest := by
  cases stream with
  | nil => cases read
  | cons frameType stream =>
    by_cases isData : frameType = frameData
    · subst isData
      exact readFrame_ok_data read
    · by_cases isCancel : frameType = frameCancel
      · subst isCancel
        exact readFrame_ok_cancel read
      · cases fixed : framePayloadLen frameType with
        | none => simp [readFrame, isData, isCancel, fixed] at read
        | some len =>
          simp only [readFrame, isData, isCancel, ↓reduceIte, fixed, bind, Except.bind] at read
          cases first : readExact ReadError.wouldBlock len stream with
          | error => simp [first] at read
          | ok split =>
            obtain ⟨payload, _⟩ := split
            simp only [first, pure, Except.pure, Except.ok.injEq, Prod.mk.injEq] at read
            obtain ⟨rfl, rfl⟩ := read
            obtain ⟨rfl, size⟩ := readExact_ok first
            subst size
            exact ⟨frameType :: payload, rfl, by simp [RawFrame.size, isData, isCancel],
              by simp [RawFrame.sized, isData, isCancel, fixed],
              fun other => readFrame_fixed isData isCancel fixed other⟩

/-- Only the type byte can make a read fail for good. -/
theorem readFrame_unknown_iff : readFrame (frameType :: stream) = .error .unknownFrameType ↔
    frameType ≠ frameData ∧ frameType ≠ frameCancel ∧ framePayloadLen frameType = none := by
  constructor
  · intro read
    by_cases isData : frameType = frameData
    · simp only [readFrame, isData, ↓reduceIte, bind, Except.bind] at read
      cases first : readExact ReadError.wouldBlock 16 stream with
      | error => simp [first, readExact_error first] at read
      | ok split =>
        cases second : readExact ReadError.wouldBlock (ofBe (split.1.drop 12)) split.2 with
        | error => simp [first, second, readExact_error second] at read
        | ok => simp [first, second, pure, Except.pure] at read
    · by_cases isCancel : frameType = frameCancel
      · have notData : frameCancel ≠ frameData := by decide
        simp only [readFrame, isCancel, notData, ↓reduceIte, bind, Except.bind] at read
        cases first : readExact ReadError.wouldBlock 2 stream with
        | error => simp [first, readExact_error first] at read
        | ok split =>
          cases second : readExact ReadError.wouldBlock (ofBe split.1) split.2 with
          | error => simp [first, second, readExact_error second] at read
          | ok => simp [first, second, pure, Except.pure] at read
      · cases fixed : framePayloadLen frameType with
        | none => exact ⟨isData, isCancel, rfl⟩
        | some len =>
          simp only [readFrame, isData, isCancel, ↓reduceIte, fixed, bind, Except.bind] at read
          cases first : readExact ReadError.wouldBlock len stream with
          | error => simp [first, readExact_error first] at read
          | ok => simp [first, pure, Except.pure] at read
  · rintro ⟨notData, notCancel, unknown⟩
    simp [readFrame, notData, notCancel, unknown]

theorem Frame.sized_wire_iff : RawFrame.sized frame.wire ↔ frame.readable = true := by
  cases frame with
  | data => simp [Frame.wire, RawFrame.sized, Frame.readable]; omega
  | cancel => simp [Frame.wire, RawFrame.sized, Frame.readable, frameCancel, frameData]
  | _ => simp [Frame.wire, RawFrame.sized, Frame.readable, framePayloadLen, frameData, frameAck,
      frameNack, frameFin, frameFinack, frameBpres, frameCancel]

theorem Frame.size_wire (readable : frame.readable = true) :
    RawFrame.size frame.wire = frame.encode.length := by
  obtain ⟨used, same, size, _⟩ := readFrame_ok (readFrame_encode readable [])
  have whole : frame.encode = used := by simpa using same
  rw [whole]
  exact size.symm

theorem Frame.encode_ne_nil (frame : Frame) : frame.encode ≠ [] := by
  cases frame <;> simp [Frame.encode, encodeDataFrame, encodeAck, encodeNack, encodeFin, encodeFinack,
    encodeBpres, encodeCancel]

theorem readable_of_readFrame
    (read : readFrame (frame.encode ++ rest) = .ok (frame.wire, remaining)) :
    frame.readable = true :=
  let ⟨_, _, _, sized, _⟩ := readFrame_ok read
  Frame.sized_wire_iff.mp sized

theorem utf8_eq (text : String) : utf8 text = text.toList.flatMap String.utf8EncodeChar := by
  rw [utf8, ← String.utf8Encode_toList, List.utf8Encode]
  simp

theorem utf8_injective (same : utf8 reason = utf8 other) : reason = other := by
  apply String.toByteArray_inj.mp
  exact ByteArray.ext (Array.toList_inj.mp same)

/-- The stream is read back exactly when every frame in it is readable: one NACK,
one reason of 2^16 bytes or one chunk of 2^32 bytes shifts every later boundary. -/
theorem readFrames_encode_iff (frames : List Frame) :
    readFrames (frames.flatMap Frame.encode) = some (frames.map Frame.wire) ↔
      ∀ frame ∈ frames, frame.readable = true := by
  have reads (frame : Frame) (readable : frame.readable = true) :
      ReadsBack (fun stream => (readFrame stream).toOption) Frame.encode Frame.wire frame :=
      fun rest => by
    simp [readFrame_encode readable rest, Except.toOption]
  have recovered (frame : Frame) (rest remaining : Bytes)
      (decoded : (readFrame (frame.encode ++ rest)).toOption = some (frame.wire, remaining)) :
      frame.readable = true := by
    cases read : readFrame (frame.encode ++ rest) with
    | error => simp [read, Except.toOption] at decoded
    | ok =>
      simp only [read, Except.toOption, Option.some.injEq] at decoded
      subst decoded
      exact readable_of_readFrame read
  constructor
  · intro decoded frame member
    have back := (decodeStream_encode_iff frames (fun frame _ => frame.encode_ne_nil)
      (fun frame _ rest remaining decoded =>
        reads frame (recovered frame rest remaining decoded))).mp decoded
    exact recovered frame [] [] (back frame member [])
  · intro readable
    exact decodeStream_encode frames (fun frame _ => frame.encode_ne_nil)
      (fun frame member => reads frame (readable frame member))

/-- A NACK alone leaves its reason byte behind, here read as the start of an ACK. -/
theorem readFrames_nack : readFrames ((([.nack 0 0 1] : List Frame)).flatMap Frame.encode) ≠
    some (([.nack 0 0 1] : List Frame).map Frame.wire) := by
  decide

end DistributedOs.Reliable
