import Mathlib.Data.List.AList
import DistributedOs.Reliable.Sender

/-! `receive_file_reliable`, and the system it forms with the sender over two byte
channels. Nothing cancels the receiver's read, so one step takes a whole frame. -/

namespace DistributedOs.Reliable

open Semantics

def bpresInterval : UInt32 := 16

def receiverIdleTimeout : Nat := 30000

inductive ReceiveError where
  | idleTimeout
  | cancelled (reason : Bytes)
  | unknownFrameType
  deriving DecidableEq

inductive ReceiverPhase where
  | top
  | reading
  | finished (result : Except ReceiveError Bytes)
  deriving DecidableEq

/-- An entry of `received_chunks`: the id with the offset and the content. -/
abbrev ReceivedChunk := Σ _ : UInt32, UInt64 × Bytes

/-- `idle` is the time since `last_activity`. -/
structure Receiver where
  idle : Nat
  receivedChunks : AList fun _ : UInt32 => UInt64 × Bytes
  chunkCount : UInt32
  phase : ReceiverPhase

/-- `read` carries the order in which a hash map gives its entries to the final sort. -/
inductive ReceiverEvent where
  | elapse (ms : Nat)
  | iterate
  | read (order : List ReceivedChunk)

namespace Receiver

def start : Receiver := { idle := 0, receivedChunks := ∅, chunkCount := 0, phase := .top }

/-- The head of the loop: the idle check, then a back-pressure frame every 16 chunks. -/
def iterate (receiver : Receiver) : Receiver × List Frame :=
  if receiver.idle > receiverIdleTimeout then
    ({ receiver with phase := .finished (.error .idleTimeout) }, [])
  else ({ receiver with phase := .reading },
    if 0 < receiver.chunkCount ∧ receiver.chunkCount % bpresInterval = 0 then [.bpres 0 0] else [])

/-- `sort_by_key` on the offset, which is stable, then the concatenation. -/
def assemble (order : List ReceivedChunk) : Bytes :=
  (order.mergeSort fun first second => decide (first.2.1 ≤ second.2.1)).flatMap (·.2.2)

def process (receiver : Receiver) (frame : RawFrame) (order : List ReceivedChunk) :
    Option (Receiver × List Frame) :=
  let number := ofBe ((frame.2.drop 4).take 8)
  if frame.1 = frameData then
    let offset := UInt64.ofNat number
    let content := frame.2.drop 12
    let isDuplicate := (receiver.receivedChunks.lookup frame.chunkId).isSome
    some ({ receiver with
        idle := 0
        receivedChunks := receiver.receivedChunks.insert frame.chunkId (offset, content)
        chunkCount := receiver.chunkCount + 1
        phase := .top },
      .ack frame.chunkId (offset + UInt64.ofNat content.length) ::
        if isDuplicate then [.nack frame.chunkId offset 1] else [])
  else if frame.1 = frameFin then
    if order.Perm receiver.receivedChunks.entries then
      some ({ receiver with phase := .finished (.ok ((assemble order).take number)) }, [.finack 0])
    else none
  else if frame.1 = frameCancel then
    some ({ receiver with phase := .finished (.error (.cancelled frame.2)) }, [])
  else some ({ receiver with phase := .top }, [])

/-- One step on the incoming stream: what is left of it, and the frames written. -/
def step (receiver : Receiver) (stream : Bytes) (event : ReceiverEvent) :
    Option (Receiver × Bytes × List Frame) :=
  match receiver.phase, event with
  | _, .elapse ms => some ({ receiver with idle := receiver.idle + ms }, stream, [])
  | .top, .iterate => some (receiver.iterate.1, stream, receiver.iterate.2)
  | .reading, .read order =>
    match readFrame stream with
    | .ok (frame, rest) =>
      (receiver.process frame order).map fun (receiver, written) => (receiver, rest, written)
    | .error .wouldBlock => none
    | .error .unknownFrameType =>
      some ({ receiver with phase := .finished (.error .unknownFrameType) }, stream, [])
  | _, _ => none

end Receiver

structure System where
  sender : Sender
  receiver : Receiver
  toReceiver : Bytes
  toSender : Bytes

inductive SystemEvent where
  | sender (event : SenderEvent)
  | receiver (event : ReceiverEvent)

namespace System

def start (data : Slice) (chunkSize : Nat) (config : ReliabilityConfig) : Option System :=
  (Sender.start data chunkSize config 0).map fun sender =>
    { sender, receiver := .start, toReceiver := [], toSender := [] }

/-- What is left for the sender when it takes a byte, which must be the next one. -/
def takes (system : System) : SenderEvent → Option Bytes
  | .byte value => if system.toSender.head? = some value then some system.toSender.tail else none
  | _ => some system.toSender

def step (data : Slice) (system : System) : SystemEvent → Option System
  | .sender event => do
    let toSender ← system.takes event
    let (sender, written) ← system.sender.step data event
    return { system with
      sender
      toSender
      toReceiver := system.toReceiver ++ written.flatMap Frame.encode }
  | .receiver event => do
    let (receiver, toReceiver, written) ← system.receiver.step system.toReceiver event
    return { system with
      receiver
      toReceiver
      toSender := system.toSender ++ written.flatMap Frame.encode }

end System

namespace Receiver

variable {receiver : Receiver} {order : List ReceivedChunk}

theorem chunkId_wire_data (id : UInt32) (offset : UInt64) (content : Bytes) :
    RawFrame.chunkId (Frame.data id offset content).wire = id := by
  simp [RawFrame.chunkId, Frame.wire]

private theorem number_after (id : UInt32) (number : UInt64) (rest : Bytes) :
    ofBe (((beU32 id ++ beU64 number ++ rest).drop 4).take 8) = number.toNat := by
  rw [List.append_assoc, List.drop_left' (length_beU32 id),
    List.take_left' (length_beU64 number), ofBe_beU64]

theorem process_data (receiver : Receiver) (order : List ReceivedChunk) (id : UInt32)
    (offset : UInt64) (content : Bytes) :
    ∃ written, receiver.process (Frame.data id offset content).wire order =
      some ({ receiver with
        idle := 0
        receivedChunks := receiver.receivedChunks.insert id (offset, content)
        chunkCount := receiver.chunkCount + 1
        phase := .top }, written) := by
  have number : UInt64.ofNat
      (ofBe (((Frame.data id offset content).wire.2.drop 4).take 8)) = offset := by
    rw [Frame.wire, number_after]
    simp
  have stored : (Frame.data id offset content).wire.2.drop 12 = content := List.drop_left' (by simp)
  have isData : (Frame.data id offset content).wire.1 = frameData := rfl
  simp only [process, isData, ↓reduceIte, chunkId_wire_data, number, stored]
  exact ⟨_, rfl⟩

theorem process_fin (id : UInt32) (total : UInt64)
    (processed : receiver.process (Frame.fin id total).wire order = some (after, written)) :
    order.Perm receiver.receivedChunks.entries ∧ after.receivedChunks = receiver.receivedChunks ∧
      after.phase = .finished (.ok ((assemble order).take total.toNat)) := by
  have number : ofBe (((Frame.fin id total).wire.2.drop 4).take 8) = total.toNat := by
    simpa [Frame.wire] using number_after id total []
  have isFin : (Frame.fin id total).wire.1 = frameFin := rfl
  have notData : frameFin ≠ frameData := by decide
  simp only [process, isFin, notData, ↓reduceIte, number] at processed
  split at processed
  · rename_i listed
    cases processed
    exact ⟨listed, rfl, rfl⟩
  · cases processed

end Receiver

end DistributedOs.Reliable
