import DistributedOs.Datagram.Receiver
import DistributedOs.Datagram.Sender
import DistributedOs.Semantics.Execution
import Mathlib.Data.Finset.Range

/-! A sender and a receiver over a network that loses, repeats, delays and reorders datagrams:
what was sent once may arrive at any later time, any number of times. -/

namespace DistributedOs.Datagram

open Semantics

/-- The datagrams are all those ever sent in a direction. -/
structure Transfer where
  sender : Sender
  receiver : Receiver
  toReceiver : List Bytes
  toSender : List Bytes

inductive TransferEvent where
  | sender (event : SenderEvent)
  | receiver (event : ReceiverEvent)

def SenderEvent.arrives (sent : List Bytes) : SenderEvent → Bool
  | .datagram packet => packet ∈ sent
  | _ => true

def ReceiverEvent.arrives (sent : List Bytes) : ReceiverEvent → Bool
  | .datagram packet => packet ∈ sent
  | _ => true

namespace Transfer

def new (protocol : Protocol) (file : FileData) : Option Transfer :=
  (Receiver.new (UInt64.ofNat file.bytes.length)).map fun receiver =>
    { sender := .new protocol file, receiver, toReceiver := [], toSender := [] }

def step (transfer : Transfer) : TransferEvent → Option Transfer
  | .sender event =>
    if event.arrives transfer.toSender then
      (transfer.sender.step event).map fun (sender, sent) =>
        { transfer with sender, toReceiver := transfer.toReceiver ++ sent }
    else none
  | .receiver event =>
    if event.arrives transfer.toReceiver then
      (transfer.receiver.step transfer.sender.protocol event).map fun (receiver, sent) =>
        { transfer with receiver, toSender := transfer.toSender ++ sent }
    else none

/-- What a run of the two can lead to. -/
def Reaches (protocol : Protocol) (file : FileData) (final : Transfer) : Prop :=
  ∃ initial events, new protocol file = some initial ∧ Execution step anything initial events final

end Transfer

/-- The chunk has arrived and stands in its place. -/
def Receiver.Stores (receiver : Receiver) (file : FileData) (seq : Nat) : Prop :=
  seq ∈ receiver.received ∧ (receiver.fileBuf.drop (seq * chunkSize)).take chunkSize = file.chunk seq

/-- A receiver that returns has saved the file, and a sender that returns leaves no chunk behind. -/
structure Transfer.Delivers (file : FileData) (transfer : Transfer) : Prop where
  saved : ∀ bytes, transfer.receiver.phase = .returned (some bytes) → bytes = file.bytes
  stored : transfer.sender.phase = .returned true → ∀ seq < file.numChunks,
    transfer.receiver.Stores file seq

def Agrees (file : FileData) (fileBuf : Bytes) (seq : Nat) : Prop :=
  ∀ index, index / chunkSize = seq → fileBuf[index]? = file.bytes[index]?

variable {file : FileData} {receiver : Receiver} {seq other : Nat} {fileBuf : Bytes}

theorem length_write (within : offset + payload.length ≤ receiver.fileBuf.length) :
    (receiver.write offset payload).length = receiver.fileBuf.length := by
  simp only [Receiver.write, List.length_append, List.length_take, List.length_drop]
  omega

theorem getElem?_write (within : offset + payload.length ≤ receiver.fileBuf.length) (index : Nat) :
    (receiver.write offset payload)[index]? =
      if index < offset then receiver.fileBuf[index]?
      else if index < offset + payload.length then payload[index - offset]?
      else receiver.fileBuf[index]? := by
  have front : (receiver.fileBuf.take offset).length = offset := by
    rw [List.length_take]
    omega
  unfold Receiver.write
  rw [List.append_assoc]
  by_cases before : index < offset
  · rw [if_pos before, List.getElem?_append_left (by omega), List.getElem?_take_of_lt before]
  · rw [if_neg before, List.getElem?_append_right (by omega), front]
    by_cases inside : index < offset + payload.length
    · rw [if_pos inside, List.getElem?_append_left (by omega)]
    · rw [if_neg inside, List.getElem?_append_right (by omega), List.getElem?_drop]
      congr 1
      omega

/-- Writing a chunk makes the buffer agree over it and over no chunk less. -/
theorem agrees_write (sized : receiver.fileBuf.length = file.bytes.length)
    (real : seq < file.numChunks) (agreed : other = seq ∨ Agrees file receiver.fileBuf other) :
    Agrees file (receiver.write (seq * chunkSize) (file.chunk seq)) other := by
  have within := chunk_within file seq real
  have length := length_chunk file seq
  intro index inChunk
  rw [getElem?_write (by omega)]
  have place := Nat.div_add_mod index chunkSize
  have small := Nat.mod_lt index (show 0 < chunkSize by simp [chunkSize])
  rw [inChunk, Nat.mul_comm] at place
  by_cases same : other = seq
  · subst same
    rw [if_neg (by omega)]
    split
    · rename_i inside
      rw [FileData.chunk, List.getElem?_take_of_lt (by omega), List.getElem?_drop]
      congr 1
      omega
    · rename_i outside
      rw [List.getElem?_eq_none (by omega), List.getElem?_eq_none (by omega)]
  · have kept := agreed.resolve_left same index inChunk
    have apart : index < seq * chunkSize ∨ seq * chunkSize + chunkSize ≤ index := by
      rcases Nat.lt_or_gt_of_ne same with less | more
      · left
        have := Nat.mul_le_mul_right chunkSize (Nat.succ_le_of_lt less)
        rw [Nat.succ_mul] at this
        omega
      · right
        have := Nat.mul_le_mul_right chunkSize (Nat.succ_le_of_lt more)
        rw [Nat.succ_mul] at this
        omega
    rcases apart with left | _
    · rw [if_pos left, kept]
    · rw [if_neg (by omega), if_neg (by omega), kept]

theorem fileBuf_eq (sized : fileBuf.length = file.bytes.length)
    (agreed : ∀ seq < file.numChunks, Agrees file fileBuf seq) : fileBuf = file.bytes := by
  apply List.ext_getElem?
  intro index
  by_cases real : index / chunkSize < file.numChunks
  · exact agreed _ real index rfl
  · have beyond : file.bytes.length ≤ index := by
      rw [FileData.numChunks, numChunks_lt] at real
      have := Nat.div_mul_le_self index chunkSize
      omega
    rw [List.getElem?_eq_none (by omega), List.getElem?_eq_none (by omega)]

def Receiver.Complete (receiver : Receiver) (file : FileData) : Prop :=
  ∀ seq < file.numChunks, seq ∈ receiver.received

/-- A FIN, its answer and the signal for it are on the way only once every chunk has arrived;
every other packet is a chunk that was sent or the acknowledgement of one that arrived. -/
structure Tracked (protocol : Protocol) (file : FileData) (transfer : Transfer) : Prop where
  sameProtocol : transfer.sender.protocol = protocol
  sameFile : transfer.sender.file = file
  sent : transfer.sender.nextSeq ≤ file.numChunks
  streams : (∃ seq, protocol.streamId seq = none) → transfer.sender.nextSeq = 0
  packets : ∀ packet ∈ transfer.toReceiver, packet = protocol.handshakeReq file.bytes.length ∨
    (packet = protocol.fin ∧ transfer.receiver.Complete file) ∨
    ∃ seq < transfer.sender.nextSeq, protocol.dataPacket file seq = some packet
  replies : ∀ packet ∈ transfer.toSender, packet = protocol.handshakeResp ∨
    (packet = protocol.finAck ∧ transfer.receiver.Complete file) ∨
    ∃ seq ∈ transfer.receiver.received, packet = protocol.ack seq
  received : ∀ seq ∈ transfer.receiver.received, seq < transfer.sender.nextSeq
  sized : transfer.receiver.fileBuf.length = file.bytes.length
  agrees : ∀ seq ∈ transfer.receiver.received, Agrees file transfer.receiver.fileBuf seq
  channel : ∀ value ∈ transfer.sender.channel, value ∈ transfer.receiver.received ∨
    (value = finAckSignal ∧ transfer.receiver.Complete file)
  acked : ∀ seq ∈ transfer.sender.ackedSeqs, seq ∈ transfer.receiver.received
  closed : transfer.sender.phase.Closed → transfer.receiver.Complete file
  finished : transfer.receiver.phase = .collected → transfer.receiver.Complete file
  saved : ∀ bytes, transfer.receiver.phase = .returned (some bytes) → bytes = file.bytes

/-- No chunk that is ever sent has the sequence number that stands for a FIN_ACK. -/
def Signalless (protocol : Protocol) (file : FileData) : Prop :=
  file.numChunks ≤ finAckSignal ∨ ∃ seq, protocol.streamId seq = none

section Steps

variable {protocol : Protocol} {transfer after : Transfer} {sender : Sender} {event : SenderEvent}
  {sent : List Bytes} {next : Receiver} {packet : Bytes}

theorem Tracked.new (made : Transfer.new protocol file = some transfer) :
    Tracked protocol file transfer := by
  obtain ⟨_, allocated, rfl⟩ := Option.map_eq_some_iff.mp made
  have bound := file.addressable
  rw [Receiver.new_some allocated]
  refine ⟨rfl, rfl, Nat.zero_le _, fun _ =>
    rfl, by simp, by simp, by simp, ?_, by simp, by simp [Sender.new], by simp [Sender.new],
    False.elim, nofun, nofun⟩
  simp only [List.length_replicate]
  exact UInt64.toNat_ofNat_of_lt' (show file.bytes.length < 2 ^ 64 by omega)

theorem Tracked.reads (tracked : Tracked protocol file transfer)
    (reply : packet ∈ transfer.toSender) (member : value ∈ (transfer.sender.read packet).channel) :
    value ∈ transfer.sender.channel ∨ value ∈ transfer.receiver.received ∨
      (value = finAckSignal ∧ transfer.receiver.Complete file) := by
  rcases tracked.replies packet reply with rfl | ⟨rfl, complete⟩ | ⟨seq, arrived, rfl⟩
  · rw [← tracked.sameProtocol, Sender.read_handshakeResp] at member
    exact .inl member
  · rw [← tracked.sameProtocol, Sender.read_finAck] at member
    rcases List.mem_append.mp member with before | last
    · exact .inl before
    · exact .inr (.inr ⟨List.mem_singleton.mp last, complete⟩)
  · have bound := seq_lt_of_real (Nat.lt_of_lt_of_le (tracked.received seq arrived) tracked.sent)
    rw [← tracked.sameProtocol, Sender.read_ack _ seq bound] at member
    rcases List.mem_append.mp member with before | last
    · exact .inl before
    · exact .inr (.inl (List.mem_singleton.mp last ▸ arrived))

theorem Tracked.complete_of_acked {chunks : Finset Nat} (tracked : Tracked protocol file transfer)
    (acked : ∀ seq ∈ chunks, seq ∈ transfer.receiver.received)
    (enough : file.numChunks ≤ chunks.card) :
    transfer.receiver.Complete file := by
  have within : ∀ seq ∈ chunks, seq < file.numChunks := by
    intro seq member
    have := tracked.received seq (acked seq member)
    have := tracked.sent
    omega
  intro seq real
  exact acked seq (mem_of_card_le within enough real)

theorem Tracked.complete_of_signal (tracked : Tracked protocol file transfer)
    (signalless : Signalless protocol file) (signalled : finAckSignal ∈ transfer.sender.channel) :
    transfer.receiver.Complete file := by
  rcases tracked.channel _ signalled with arrived | ⟨_, complete⟩
  · have sent := tracked.received _ arrived
    rcases signalless with _ | noStreams
    · have := tracked.sent
      omega
    · rw [tracked.streams noStreams] at sent
      exact absurd sent (Nat.not_lt_zero _)
  · exact complete

theorem Tracked.senderStep (tracked : Tracked protocol file transfer)
    (signalless : Signalless protocol file) (arrives : event.arrives transfer.toSender = true)
    (advances : transfer.sender.Advances event sender sent) :
    Tracked protocol file { transfer with sender, toReceiver := transfer.toReceiver ++ sent } := by
  have sameProtocol := tracked.sameProtocol
  have sameFile := tracked.sameFile
  have acked : ∀ seq ∈ sender.ackedSeqs, seq ∈ transfer.receiver.received := by
    intro seq member
    rcases advances.acked seq member with before | ⟨read, ordinary⟩
    · exact tracked.acked seq before
    · exact (tracked.channel seq read).resolve_right fun signal => ordinary signal.1
  have later : transfer.sender.nextSeq ≤ sender.nextSeq := by
    rcases advances.nextSeq with same | ⟨_, next, _⟩ <;> omega
  constructor
  · exact advances.sameProtocol.trans sameProtocol
  · exact advances.sameFile.trans sameFile
  · rcases advances.nextSeq with same | ⟨room, next, _⟩
    · exact same ▸ tracked.sent
    · rw [sameFile] at room
      exact next ▸ room
  · intro noStreams
    rcases advances.nextSeq with same | ⟨_, _, stream⟩
    · exact same ▸ tracked.streams noStreams
    · rw [sameProtocol] at stream
      exfalso
      obtain ⟨seq, missing⟩ := noStreams
      cases protocol with
      | udp => cases missing
      | quic numStreams =>
        simp only [Protocol.streamId] at missing stream
        split at missing
        · rename_i none
          simp [none] at stream
        · cases missing
  · intro packet member
    rcases List.mem_append.mp member with before | fresh
    · rcases tracked.packets packet before with request | fin | ⟨seq, sent, found⟩
      · exact .inl request
      · exact .inr (.inl fin)
      · exact .inr (.inr ⟨seq, Nat.lt_of_lt_of_le sent later, found⟩)
    · rcases advances.packets packet fresh with request | ⟨fin, closed⟩ | data
      · exact .inl (by rw [request, sameProtocol, sameFile])
      · exact .inr (.inl ⟨by rw [fin, sameProtocol], tracked.closed closed⟩)
      · rw [sameProtocol, sameFile] at data
        exact .inr (.inr data)
  · exact tracked.replies
  · intro seq member
    exact Nat.lt_of_lt_of_le (tracked.received seq member) later
  · exact tracked.sized
  · exact tracked.agrees
  · intro value member
    rcases advances.channel value member with before | ⟨packet, rfl, read⟩
    · exact tracked.channel value before
    · rcases tracked.reads (by simpa [SenderEvent.arrives] using arrives) read with before | known
      · exact tracked.channel value before
      · exact known
  · exact acked
  · intro closed
    rcases advances.closes closed with before | enough | signalled
    · exact tracked.closed before
    · rw [sameFile] at enough
      exact tracked.complete_of_acked acked enough
    · exact tracked.complete_of_signal signalless signalled
  · exact tracked.finished
  · exact tracked.saved

/-- What the receiver has taken in only grows. -/
theorem Tracked.receiverStep (tracked : Tracked protocol file transfer) (replies : List Bytes)
    (more : ∀ seq ∈ transfer.receiver.received, seq ∈ next.received)
    (answered : ∀ packet ∈ replies, packet = protocol.handshakeResp ∨
      (packet = protocol.finAck ∧ next.Complete file) ∨ ∃ seq ∈ next.received,
      packet = protocol.ack seq)
    (received : ∀ seq ∈ next.received, seq < transfer.sender.nextSeq)
    (sized : next.fileBuf.length = file.bytes.length)
    (agrees : ∀ seq ∈ next.received, Agrees file next.fileBuf seq)
    (finished : next.phase = .collected → next.Complete file)
    (saved : ∀ bytes, next.phase = .returned (some bytes) → bytes = file.bytes) :
    Tracked protocol file
      { transfer with receiver := next, toSender := transfer.toSender ++ replies } := by
  have complete (before : transfer.receiver.Complete file) : next.Complete file :=
    fun seq real => more seq (before seq real)
  refine ⟨tracked.sameProtocol, tracked.sameFile, tracked.sent, tracked.streams, ?_, ?_, received,
    sized, agrees, ?_, ?_,
    fun closed => complete (tracked.closed closed), finished, saved⟩
  · intro packet member
    rcases tracked.packets packet member with request | ⟨fin, before⟩ | data
    · exact .inl request
    · exact .inr (.inl ⟨fin, complete before⟩)
    · exact .inr (.inr data)
  · intro packet member
    rcases List.mem_append.mp member with before | fresh
    · rcases tracked.replies packet before with response | ⟨fin, before⟩ | ⟨seq, arrived, ack⟩
      · exact .inl response
      · exact .inr (.inl ⟨fin, complete before⟩)
      · exact .inr (.inr ⟨seq, more seq arrived, ack⟩)
    · exact answered packet fresh
  · intro value member
    rcases tracked.channel value member with arrived | ⟨signal, before⟩
    · exact .inl (more value arrived)
    · exact .inr ⟨signal, complete before⟩
  · exact fun seq member => more seq (tracked.acked seq member)

theorem Tracked.fileBuf_eq (tracked : Tracked protocol file transfer)
    (complete : transfer.receiver.Complete file) :
    transfer.receiver.fileBuf = file.bytes :=
  Datagram.fileBuf_eq tracked.sized fun seq real => tracked.agrees seq (complete seq real)

theorem Tracked.takeDatagram (tracked : Tracked protocol file transfer)
    (arrived : packet ∈ transfer.toReceiver) (receiving : transfer.receiver.phase = .receiving) :
    Tracked protocol file
      { transfer with
        receiver := (transfer.receiver.takeDatagram protocol packet).1
        toSender := transfer.toSender ++ (transfer.receiver.takeDatagram protocol packet).2 } := by
  rcases tracked.packets packet arrived with rfl | ⟨rfl, complete⟩ | ⟨seq, sent, encoded⟩
  · rw [Receiver.takeDatagram_handshakeReq]
    refine tracked.receiverStep _ (fun _ member => member) ?_ tracked.received
      tracked.sized tracked.agrees
      tracked.finished tracked.saved
    exact fun packet member => .inl (List.mem_singleton.mp member)
  · rw [Receiver.takeDatagram_fin]
    have answered : ∀ packet ∈ [protocol.finAck], packet = protocol.handshakeResp ∨
        (packet = protocol.finAck ∧ transfer.receiver.Complete file) ∨
          ∃ seq ∈ transfer.receiver.received, packet = protocol.ack seq :=
      fun packet member => .inr (.inl ⟨List.mem_singleton.mp member, complete⟩)
    split
    · exact tracked.receiverStep _ (fun _ member => member) answered tracked.received
        tracked.sized tracked.agrees
          (fun _ => complete) nofun
    · exact tracked.receiverStep _ (fun _ member => member) answered tracked.received
        tracked.sized tracked.agrees
        tracked.finished tracked.saved
  · have real := Nat.lt_of_lt_of_le sent tracked.sent
    have within := chunk_within file seq real
    have sized := tracked.sized
    rw [Receiver.takeDatagram_dataPacket encoded real sized]
    refine tracked.receiverStep _ (fun _ member => Finset.mem_insert_of_mem member) ?_ ?_ ?_ ?_ ?_ ?_
    · exact fun packet member =>
        .inr (.inr ⟨seq, Finset.mem_insert_self _ _, List.mem_singleton.mp member⟩)
    · intro other member
      rcases Finset.mem_insert.mp member with same | before
      · exact same ▸ sent
      · exact tracked.received other before
    · rw [length_write (by omega), sized]
    · intro other member
      refine agrees_write sized real ?_
      rcases Finset.mem_insert.mp member with same | before
      · exact .inl same
      · exact .inr (tracked.agrees other before)
    · intro collected
      rw [receiving] at collected
      cases collected
    · intro _ returned
      rw [receiving] at returned
      cases returned

theorem Tracked.step {event : TransferEvent} (tracked : Tracked protocol file transfer)
    (signalless : Signalless protocol file) (taken : transfer.step event = some after) :
    Tracked protocol file after := by
  cases event with
  | sender =>
    simp only [Transfer.step] at taken
    split at taken
    · rename_i arrives
      obtain ⟨⟨_, _⟩, moved, rfl⟩ := Option.map_eq_some_iff.mp taken
      exact tracked.senderStep signalless arrives (Sender.step_advances moved)
    · cases taken
  | receiver event =>
    simp only [Transfer.step] at taken
    split at taken
    · rename_i arrives
      obtain ⟨⟨_, _⟩, moved, rfl⟩ := Option.map_eq_some_iff.mp taken
      rw [tracked.sameProtocol] at moved
      cases event with
      | datagram =>
        simp only [Receiver.step] at moved
        split at moved
        · rename_i receiving
          have same := Option.some.inj moved
          rw [Prod.ext_iff] at same
          rw [← same.1, ← same.2]
          exact tracked.takeDatagram (by simpa [ReceiverEvent.arrives] using arrives) receiving
        · cases moved
      | socketError =>
        simp only [Receiver.step] at moved
        split at moved <;> cases moved
        exact tracked.receiverStep _ (fun _ member => member)
          (by simp) tracked.received tracked.sized tracked.agrees nofun nofun
      | saved =>
        simp only [Receiver.step] at moved
        split at moved
        · rename_i collected
          cases moved
          refine tracked.receiverStep _ (fun _ member => member)
            (by simp) tracked.received tracked.sized tracked.agrees nofun ?_
          intro _ returned
          cases returned
          exact tracked.fileBuf_eq (tracked.finished collected)
        · cases moved
      | saveError =>
        simp only [Receiver.step] at moved
        split at moved <;> cases moved
        exact tracked.receiverStep _ (fun _ member => member)
          (by simp) tracked.received tracked.sized tracked.agrees nofun nofun
    · cases taken

theorem Tracked.delivers (tracked : Tracked protocol file transfer) : transfer.Delivers file where
  saved := tracked.saved
  stored returned seq real := by
    have complete : transfer.receiver.Complete file := by
      apply tracked.closed
      rw [returned]
      trivial
    refine ⟨complete seq real, ?_⟩
    rw [tracked.fileBuf_eq complete, FileData.chunk]

theorem delivers_of_signalless (signalless : Signalless protocol file)
    (reached : Transfer.Reaches protocol file transfer) :
    transfer.Delivers file := by
  obtain ⟨_, _, made, run⟩ := reached
  have tracked : Tracked protocol file transfer := by
    refine run.invariant (Tracked protocol file) ?_ (.new made)
    intro _ _ _ holding _ taken
    exact holding.step signalless taken
  exact tracked.delivers

end Steps

end DistributedOs.Datagram
