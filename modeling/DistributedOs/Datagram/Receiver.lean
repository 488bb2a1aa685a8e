import DistributedOs.Datagram.Packets
import Mathlib.Data.Finset.Card

/-! The receiver: a buffer of the expected size, into which data packets are copied in whatever
order they come. Overflow checks are on, as in a debug build: arithmetic that would overflow panics. -/

namespace DistributedOs.Datagram

open Semantics

/-- Where the receiver is: in its loop, out of it with the file still to be saved, returned
with the file it saved or an error, or panicked. -/
inductive ReceiverPhase where
  | receiving
  | collected
  | returned (saved : Option Bytes)
  | panicked
  deriving DecidableEq

structure Receiver where
  fileBuf : Bytes
  received : Finset Nat
  phase : ReceiverPhase

namespace Receiver

/-- The buffer is allocated at once, which panics beyond `isize::MAX`. -/
def new (expectedSize : UInt64) : Option Receiver :=
  if expectedSize.toNat < 2 ^ 63 then
    some { fileBuf := List.replicate expectedSize.toNat 0, received := ∅, phase := .receiving }
  else none

/-- The size of the buffer never changes, so the number of chunks is read off it. -/
def numChunks (receiver : Receiver) : Nat := Datagram.numChunks receiver.fileBuf.length

/-- `file_buf[offset..offset + len].copy_from_slice(..)`. -/
def write (receiver : Receiver) (offset : Nat) (payload : Bytes) : Bytes :=
  receiver.fileBuf.take offset ++ payload ++ receiver.fileBuf.drop (offset + payload.length)

/-- A data packet, cut at the size of the read buffer. It is acknowledged also when it lies
outside the file and is not stored. -/
def takeData (receiver : Receiver) (protocol : Protocol) (packet : Bytes) : Receiver × List Bytes :=
  let header := protocol.headerLen
  if packet.length < header + 10 then (receiver, [])
  else
    let seq := ofBe ((packet.drop header).take 8)
    let len := ofBe ((packet.drop (header + 8)).take 2)
    if packet.length < header + 10 + len then (receiver, [])
    else
      let offset := seq * chunkSize
      if 2 ^ 64 ≤ offset + len then ({ receiver with phase := .panicked }, [])
      else if offset + len ≤ receiver.fileBuf.length then
        ({ receiver with
            fileBuf := receiver.write offset ((packet.drop (header + 10)).take len)
            received := insert seq receiver.received }, [protocol.ack seq])
      else (receiver, [protocol.ack seq])

def takeDatagram (receiver : Receiver) (protocol : Protocol)
    (datagram : Bytes) : Receiver × List Bytes :=
  let packet := datagram.take (chunkSize + 32)
  match packet with
  | [] => (receiver, [])
  | frameType :: _ =>
    if frameType = protocol.types.handshakeReq then (receiver, [protocol.handshakeResp])
    else if frameType = protocol.types.data then receiver.takeData protocol packet
    else if frameType = protocol.types.fin then
      if receiver.numChunks ≤ receiver.received.card then
        ({ receiver with phase := .collected }, [protocol.finAck])
      else (receiver, [protocol.finAck])
    else (receiver, [])

end Receiver

inductive ReceiverEvent where
  | datagram (packet : Bytes)
  | socketError
  | saved
  | saveError

def Receiver.step (receiver : Receiver) (protocol : Protocol) :
    ReceiverEvent → Option (Receiver × List Bytes)
  | .datagram packet =>
    if receiver.phase = .receiving then some (receiver.takeDatagram protocol packet) else none
  | .socketError =>
    if receiver.phase = .receiving then some ({ receiver with phase := .returned none }, []) else none
  | .saved =>
    if receiver.phase = .collected then
      some ({ receiver with phase := .returned (some receiver.fileBuf) }, []) else none
  | .saveError =>
    if receiver.phase = .collected then some ({ receiver with phase := .returned none }, []) else none

namespace Receiver

variable {receiver : Receiver} {protocol : Protocol} {file : FileData} {seq : Nat} {packet : Bytes}

theorem new_some (made : Receiver.new expectedSize = some receiver) :
    receiver = { fileBuf := List.replicate expectedSize.toNat 0, received := ∅, phase := .receiving } := by
  unfold Receiver.new at made
  split at made
  · exact (Option.some.inj made).symm
  · cases made

theorem takeDatagram_handshakeReq (receiver : Receiver) (protocol : Protocol) (size : Nat) :
    receiver.takeDatagram protocol (protocol.handshakeReq size) =
      (receiver, [protocol.handshakeResp]) := by
  cases protocol <;> simp [takeDatagram, Protocol.handshakeReq, chunkSize]

theorem takeDatagram_fin (receiver : Receiver) (protocol : Protocol) :
    receiver.takeDatagram protocol protocol.fin =
      (if receiver.numChunks ≤ receiver.received.card then { receiver with phase := .collected }
        else receiver,
        [protocol.finAck]) := by
  have uncut : protocol.fin.take (chunkSize + 32) = protocol.fin :=
    List.take_of_length_le (by simp [Protocol.fin, chunkSize])
  simp only [takeDatagram, uncut]
  simp only [Protocol.fin, if_neg protocol.fin_ne_handshakeReq, if_neg protocol.fin_ne_data, ↓reduceIte]
  split <;> rfl

structure Fields (protocol : Protocol) (file : FileData) (seq : Nat) (packet : Bytes) : Prop where
  frameType : packet.head? = some protocol.types.data
  length : packet.length = protocol.headerLen + 10 + (file.chunk seq).length
  seqField : ofBe ((packet.drop protocol.headerLen).take 8) = seq
  lenField : ofBe ((packet.drop (protocol.headerLen + 8)).take 2) = (file.chunk seq).length
  payload : packet.drop (protocol.headerLen + 10) = file.chunk seq

theorem fields_of_dataPacket (sent : protocol.dataPacket file seq = some packet)
    (real : seq < file.numChunks) :
    Fields protocol file seq packet := by
  obtain ⟨stream, prefixed, rfl⟩ := Option.map_eq_some_iff.mp sent
  have header : stream.length + 1 = protocol.headerLen := by
    cases protocol with
    | udp =>
      cases prefixed
      rfl
    | quic =>
      simp only [Protocol.streamId] at prefixed
      split at prefixed <;> cases prefixed
      rfl
  have afterHeader : (protocol.types.data :: (stream ++
      (toBe 8 seq ++ (toBe 2 (file.chunk seq).length ++ file.chunk seq)))).drop protocol.headerLen =
        toBe 8 seq ++ (toBe 2 (file.chunk seq).length ++ file.chunk seq) := by
    rw [← header, List.drop_succ_cons, List.drop_left]
  have afterSeq : (protocol.types.data :: (stream ++
      (toBe 8 seq ++ (toBe 2 (file.chunk seq).length ++ file.chunk seq)))).drop
        (protocol.headerLen + 8) =
        toBe 2 (file.chunk seq).length ++ file.chunk seq := by
    rw [← List.drop_drop, afterHeader, List.drop_left' (length_toBe 8 seq)]
  constructor
  · rfl
  · simp only [List.length_append, List.length_cons, length_toBe]
    omega
  · rw [afterHeader, List.take_left' (length_toBe 8 seq), ofBe_toBe_of_lt (seq_lt_of_real real)]
  · rw [afterSeq, List.take_left' (length_toBe 2 _), ofBe_toBe_of_lt (length_chunk_lt file seq)]
  · rw [show protocol.headerLen + 10 = protocol.headerLen + 8 + 2 from rfl, ← List.drop_drop, afterSeq,
      List.drop_left' (length_toBe 2 _)]

/-- A chunk that lies in the buffer is copied into it and acknowledged. -/
theorem takeDatagram_dataPacket (sent : protocol.dataPacket file seq = some packet)
    (real : seq < file.numChunks) (sized : receiver.fileBuf.length = file.bytes.length) :
    receiver.takeDatagram protocol packet =
      ({ receiver with
          fileBuf := receiver.write (seq * chunkSize) (file.chunk seq)
          received := insert seq receiver.received }, [protocol.ack seq]) := by
  have fields := fields_of_dataPacket sent real
  have within := chunk_within file seq real
  have bound := file.addressable
  have short : (file.chunk seq).length ≤ chunkSize := by
    rw [length_chunk]
    exact Nat.min_le_left _ _
  have header : protocol.headerLen ≤ 2 := by cases protocol <;> simp [Protocol.headerLen]
  have uncut : packet.take (chunkSize + 32) = packet :=
    List.take_of_length_le (by rw [fields.length]; omega)
  have taken : receiver.takeDatagram protocol packet = receiver.takeData protocol packet := by
    unfold takeDatagram
    simp only [uncut]
    cases packet with
    | nil => exact absurd fields.frameType (by simp)
    | cons frameType =>
      have same : frameType = protocol.types.data := by simpa using fields.frameType
      subst same
      simp only [if_neg protocol.data_ne_handshakeReq, ↓reduceIte]
  rw [taken]
  unfold takeData
  simp only [fields.seqField, fields.lenField, fields.payload, fields.length, List.take_length]
  rw [if_neg (by omega), if_neg (by omega), if_neg (by omega), if_pos (by omega)]

end Receiver

end DistributedOs.Datagram
