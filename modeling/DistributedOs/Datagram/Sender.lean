import DistributedOs.Datagram.Packets
import Mathlib.Data.Finset.Card
import Mathlib.Data.List.AList

/-! The sender: handshake, sliding window and FIN, with the background task that reads
acknowledgements off the socket onto a channel. Instants are nanoseconds. The estimates and
counters that only the returned metrics show are left out. -/

namespace DistributedOs.Datagram

open Semantics

/-- Where the sender is: at the head of a loop, about to send, or in the `select!` after it.
It panics where the window computation falls below zero and where there are no streams. -/
inductive SenderPhase where
  | requesting (attempts : Nat)
  | awaitingResponse (attempts : Nat)
  | filling
  | waiting
  | closing (attempts : Nat)
  | awaitingFinAck (attempts : Nat)
  | returned (ok : Bool)
  | panicked
  deriving DecidableEq

/-- `channel` holds what the background task has read and the sender has not taken. -/
structure Sender where
  protocol : Protocol
  file : FileData
  phase : SenderPhase
  nextSeq : Nat
  ackedSeqs : Finset Nat
  lastSentTime : AList fun _ : Nat => Nat
  cwnd : Nat
  channel : List Nat
  readerRuns : Bool
  now : Nat

def Protocol.initialCwnd : Protocol → Nat
  | .udp => 10
  | .quic _ => 12

def Protocol.channelCapacity : Protocol → Nat
  | .udp => 1000
  | .quic _ => 2000

/-- The retransmission time, 150 milliseconds. -/
def timeoutDuration : Nat := 150 * 1000000

namespace Sender

def new (protocol : Protocol) (file : FileData) : Sender :=
  { protocol, file, phase := .requesting 0, nextSeq := 0, ackedSeqs := ∅, lastSentTime := ∅
    cwnd := protocol.initialCwnd, channel := [], readerRuns := false, now := 0 }

/-- The head of the data loop. -/
def proceed (sender : Sender) : Sender :=
  { sender with phase := if sender.ackedSeqs.card < sender.file.numChunks then .filling else .closing 0 }

/-- The head of the inner loop: a packet of the window, or the wait for an acknowledgement. -/
def fill (sender : Sender) : Sender × List Bytes :=
  if sender.nextSeq < sender.file.numChunks then
    if sender.nextSeq < sender.ackedSeqs.card then ({ sender with phase := .panicked }, [])
    else if sender.nextSeq - sender.ackedSeqs.card < sender.cwnd then
      match sender.protocol.dataPacket sender.file sender.nextSeq with
      | some packet =>
        ({ sender with
            nextSeq := sender.nextSeq + 1
            lastSentTime := sender.lastSentTime.insert sender.nextSeq sender.now }, [packet])
      | none => ({ sender with phase := .panicked }, [])
    else ({ sender with phase := .waiting }, [])
  else ({ sender with phase := .waiting }, [])

/-- An acknowledgement taken off the channel; `none` when the channel has closed. -/
def takeAck (sender : Sender) : Option Nat → Sender
  | none => sender.proceed
  | some seq =>
    if seq = finAckSignal then { sender with phase := .closing 0 }
    else if seq ∈ sender.ackedSeqs then sender.proceed
    else { sender with ackedSeqs := insert seq sender.ackedSeqs, cwnd := sender.cwnd + 1 }.proceed

/-- Whether a sequence number is sent again: it is not acknowledged, and it was sent last as
long ago as the retransmission time, or never. -/
def shouldRetransmit (sender : Sender) (seq : Nat) : Bool :=
  seq ∉ sender.ackedSeqs &&
    match sender.lastSentTime.lookup seq with
    | some sent => timeoutDuration ≤ sender.now - sent
    | none => true

/-- `acked_seqs.len()..next_seq`, which is empty where it would run backwards. -/
def outstanding (sender : Sender) : List Nat :=
  (List.range' sender.ackedSeqs.card (sender.nextSeq - sender.ackedSeqs.card)).filter
  sender.shouldRetransmit

def retransmit (sender : Sender) : Sender × List Bytes :=
  match sender.outstanding.mapM (sender.protocol.dataPacket sender.file) with
  | some packets =>
    ({ sender with
        lastSentTime := sender.outstanding.foldl (fun times seq => times.insert seq sender.now)
          sender.lastSentTime
        cwnd := max (sender.cwnd / 2) 4 }.proceed, packets)
  | none => ({ sender with phase := .panicked }, [])

/-- The background task takes a datagram off the socket, cut at the size of its buffer. -/
def read (sender : Sender) (datagram : Bytes) : Sender :=
  let packet := datagram.take 64
  match packet with
  | [] => sender
  | frameType :: _ =>
    if 9 ≤ packet.length ∧ frameType = sender.protocol.types.ack then
      { sender with channel := sender.channel ++ [ofBe ((packet.drop 1).take 8)] }
    else if frameType = sender.protocol.types.finAck then
      { sender with channel := sender.channel ++ [finAckSignal], readerRuns := false }
    else sender

end Sender

/-- A `socketError` is a send that fails, a `receiveError` a receive that does. -/
inductive SenderEvent where
  | proceed
  | timeout
  | takeAck
  | datagram (packet : Bytes)
  | socketError
  | receiveError
  | advance (elapsed : Nat)

namespace Sender

/-- The next element of the channel; a closed channel gives `none` once it is empty. -/
def receive (sender : Sender) : Option (Sender × Option Nat) :=
  match sender.channel with
  | seq :: channel => some ({ sender with channel }, some seq)
  | [] => if sender.readerRuns then none else some (sender, none)

/-- A loop head, where the sender sends before it waits. -/
def proceedStep (sender : Sender) : Option (Sender × List Bytes) :=
  match sender.phase with
  | .requesting attempts =>
    if attempts < 5 then
      some ({ sender with phase := .awaitingResponse attempts },
        [sender.protocol.handshakeReq sender.file.bytes.length])
    else some ({ sender with phase := .returned false }, [])
  | .filling => some sender.fill
  | .closing attempts =>
    if attempts < 5 then some ({ sender with phase := .awaitingFinAck attempts }, [sender.protocol.fin])
    else some ({ sender with phase := .returned true }, [])
  | _ => none

def timeoutStep (sender : Sender) : Option (Sender × List Bytes) :=
  match sender.phase with
  | .awaitingResponse attempts => some ({ sender with phase := .requesting (attempts + 1) }, [])
  | .waiting => some sender.retransmit
  | .awaitingFinAck attempts => some ({ sender with phase := .closing (attempts + 1) }, [])
  | _ => none

/-- In the FIN loop only the signal counts, and nothing else uses up an attempt. -/
def takeAckStep (sender : Sender) : Option (Sender × List Bytes) :=
  match sender.phase with
  | .waiting => sender.receive.map fun (sender, seq) => (sender.takeAck seq, [])
  | .awaitingFinAck attempts =>
    sender.receive.map fun (sender, seq) =>
      ({ sender with phase := if seq = some finAckSignal then .returned true
        else .closing attempts }, [])
  | _ => none

/-- Before the data phase the sender itself receives; the background task does afterwards,
and waits when its channel is full. -/
def datagramStep (sender : Sender) (packet : Bytes) : Option (Sender × List Bytes) :=
  match sender.phase with
  | .awaitingResponse attempts =>
    if packet.head? = some sender.protocol.types.handshakeResp then
      some ({ sender with readerRuns := true }.proceed, [])
    else some ({ sender with phase := .requesting attempts }, [])
  | _ =>
    if sender.readerRuns ∧ sender.channel.length < sender.protocol.channelCapacity then
      some (sender.read packet, [])
    else none

def socketErrorStep (sender : Sender) : Option (Sender × List Bytes) :=
  match sender.phase with
  | .requesting _ | .filling | .waiting | .closing _ =>
    some ({ sender with phase := .returned false }, [])
  | _ => none

def receiveErrorStep (sender : Sender) : Option (Sender × List Bytes) :=
  match sender.phase with
  | .awaitingResponse attempts => some ({ sender with phase := .requesting attempts }, [])
  | _ => if sender.readerRuns then some ({ sender with readerRuns := false }, []) else none

def step (sender : Sender) : SenderEvent → Option (Sender × List Bytes)
  | .proceed => sender.proceedStep
  | .timeout => sender.timeoutStep
  | .takeAck => sender.takeAckStep
  | .datagram packet => sender.datagramStep packet
  | .socketError => sender.socketErrorStep
  | .receiveError => sender.receiveErrorStep
  | .advance elapsed => some ({ sender with now := sender.now + elapsed }, [])

end Sender

/-- The data loop is left and the sender has not failed. -/
def SenderPhase.Closed : SenderPhase → Prop
  | .closing _ | .awaitingFinAck _ | .returned true => True
  | _ => False

/-- Every step sends only what is due, takes acknowledgements from the channel only, and
closes with as many of them as there are chunks or at the signal. -/
structure Sender.Advances (sender : Sender) (event : SenderEvent) (after : Sender)
    (sent : List Bytes) : Prop where
  sameProtocol : after.protocol = sender.protocol
  sameFile : after.file = sender.file
  nextSeq : after.nextSeq = sender.nextSeq ∨
    (sender.nextSeq < sender.file.numChunks ∧ after.nextSeq = sender.nextSeq + 1 ∧
      (sender.protocol.streamId sender.nextSeq).isSome)
  packets : ∀ packet ∈ sent, packet = sender.protocol.handshakeReq sender.file.bytes.length ∨
    (packet = sender.protocol.fin ∧ sender.phase.Closed) ∨
    ∃ seq < after.nextSeq, sender.protocol.dataPacket sender.file seq = some packet
  acked : ∀ seq ∈ after.ackedSeqs, seq ∈ sender.ackedSeqs ∨ (seq ∈ sender.channel ∧ seq ≠ finAckSignal)
  channel : ∀ value ∈ after.channel, value ∈ sender.channel ∨
    ∃ packet, event = .datagram packet ∧ value ∈ (sender.read packet).channel
  closes : after.phase.Closed →
    sender.phase.Closed ∨ sender.file.numChunks ≤ after.ackedSeqs.card ∨ finAckSignal ∈ sender.channel

namespace Sender

variable {sender after : Sender} {event : SenderEvent} {sent : List Bytes} {protocol : Protocol}

theorem mem_of_mapM {α β : Type} {image : α → Option β} {items : List α} {images : List β}
    (mapped : items.mapM image = some images) :
    ∀ result ∈ images, ∃ item ∈ items, image item = some result := by
  induction items generalizing images with
  | nil =>
    cases mapped
    simp
  | cons head _ ih =>
    simp only [List.mapM_cons, bind, Option.bind_eq_some_iff, pure, Option.some.injEq] at mapped
    obtain ⟨_, here, _, rest, rfl⟩ := mapped
    intro result member
    rcases List.mem_cons.mp member with same | later
    · exact ⟨head, by simp, same ▸ here⟩
    · obtain ⟨item, within, found⟩ := ih rest result later
      exact ⟨item, by simp [within], found⟩

theorem Advances.phase (phase : SenderPhase) (packets : ∀ packet ∈ sent,
      packet = sender.protocol.handshakeReq sender.file.bytes.length ∨
      (packet = sender.protocol.fin ∧ sender.phase.Closed) ∨
      ∃ seq < sender.nextSeq, sender.protocol.dataPacket sender.file seq = some packet)
    (closes : phase.Closed → sender.phase.Closed) :
    sender.Advances event { sender with phase } sent :=
  ⟨rfl, rfl, .inl rfl, packets, fun _ member => .inl member, fun _ member =>
    .inl member, fun closed => .inl (closes closed)⟩

theorem proceed_closes (closed : sender.proceed.phase.Closed) :
    sender.file.numChunks ≤ sender.ackedSeqs.card := by
  unfold proceed at closed
  by_contra fewer
  rw [if_pos (by omega)] at closed
  exact closed

theorem Advances.proceeds {channel : List Nat} {ackedSeqs : Finset Nat} {cwnd : Nat}
    {readerRuns : Bool} (fewer : ∀ value ∈ channel, value ∈ sender.channel)
    (acked : ∀ seq ∈ ackedSeqs, seq ∈ sender.ackedSeqs ∨
      (seq ∈ sender.channel ∧ seq ≠ finAckSignal)) :
    sender.Advances event { sender with channel, ackedSeqs, cwnd, readerRuns }.proceed [] where
  sameProtocol := rfl
  sameFile := rfl
  nextSeq := .inl rfl
  packets := by simp
  acked := acked
  channel := fun value member => .inl (fewer value member)
  closes := fun closed => .inr (.inl (proceed_closes closed))

theorem proceedStep_advances (taken : sender.proceedStep = some (after, sent)) :
    sender.Advances event after sent := by
  unfold proceedStep at taken
  split at taken
  · rename_i attempts _
    split at taken <;> cases taken
    · exact .phase _ (by simp) False.elim
    · exact .phase _ (by simp) False.elim
  · rename_i filling
    have taken := Option.some.inj taken
    unfold fill at taken
    split at taken
    · rename_i more
      split at taken
      · cases taken
        exact .phase _ (by simp) False.elim
      split at taken
      · split at taken
        · rename_i packet encoded
          cases taken
          have stream : (sender.protocol.streamId sender.nextSeq).isSome := by
            obtain ⟨stream, found, _⟩ := Option.map_eq_some_iff.mp encoded
            simp [found]
          refine ⟨rfl, rfl, .inr ⟨more, rfl, stream⟩, ?_, fun _ member =>
            .inl member, fun _ member => .inl member, ?_⟩
          · intro _ member
            rw [List.mem_singleton] at member
            exact .inr (.inr ⟨sender.nextSeq, Nat.lt_succ_self _, member ▸ encoded⟩)
          · exact fun closed => .inl closed
        · cases taken
          exact .phase _ (by simp) False.elim
      · cases taken
        exact .phase _ (by simp) False.elim
    · cases taken
      exact .phase _ (by simp) False.elim
  · rename_i closing
    have closed : sender.phase.Closed := by
      rw [closing]
      trivial
    split at taken <;> cases taken
    · refine .phase _ (fun packet member => ?_) (fun _ => closed)
      rw [List.mem_singleton] at member
      exact .inr (.inl ⟨member, closed⟩)
    · exact .phase _ (by simp) (fun _ => closed)
  · cases taken

theorem retransmit_advances (taken : sender.retransmit = (after, sent)) :
    sender.Advances event after sent := by
  unfold retransmit at taken
  split at taken
  · rename_i encoded
    cases taken
    refine ⟨rfl, rfl, .inl rfl, ?_, fun _ member => .inl member, fun _ member => .inl member, ?_⟩
    · intro packet member
      obtain ⟨seq, due, found⟩ := mem_of_mapM encoded packet member
      have range := (List.mem_filter.mp due).1
      rw [List.mem_range'_1] at range
      exact .inr (.inr ⟨seq, show seq < sender.nextSeq by omega, found⟩)
    · exact fun closed => .inr (.inl (proceed_closes closed))
  · cases taken
    exact .phase _ (by simp) False.elim

theorem timeoutStep_advances (taken : sender.timeoutStep = some (after, sent)) :
    sender.Advances event after sent := by
  unfold timeoutStep at taken
  split at taken
  · cases taken
    exact .phase _ (by simp) False.elim
  · exact retransmit_advances (Option.some.inj taken)
  · rename_i waits
    cases taken
    refine .phase _ (by simp) fun _ => ?_
    rw [waits]
    trivial
  · cases taken

theorem receive_cases (received : sender.receive = some (after, seq)) :
    ∃ channel, after = { sender with channel } ∧ (∀ value ∈ channel, value ∈ sender.channel) ∧
      ∀ value, seq = some value → value ∈ sender.channel := by
  unfold receive at received
  split at received
  · rename_i channel full
    cases received
    refine ⟨channel, rfl, fun other member => by simp [full, member], ?_⟩
    intro _ same
    cases same
    simp [full]
  · split at received <;> cases received
    exact ⟨sender.channel, rfl, fun _ member => member, by simp⟩

theorem takeAck_advances (seq : Option Nat) (channel : List Nat)
    (fewer : ∀ value ∈ channel, value ∈ sender.channel)
    (from_channel : ∀ value, seq = some value → value ∈ sender.channel) :
    sender.Advances event ({ sender with channel }.takeAck seq) [] := by
  unfold takeAck
  split
  · exact .proceeds fewer fun _ member => .inl member
  · rename_i value
    have here := from_channel value rfl
    split
    · rename_i signal
      subst signal
      exact ⟨rfl, rfl, .inl rfl, by simp, fun _ member => .inl member,
        fun value member => .inl (fewer value member), fun _ => .inr (.inr here)⟩
    split
    · exact .proceeds fewer fun _ member => .inl member
    · rename_i ordinary _
      refine .proceeds fewer fun other member => ?_
      rcases Finset.mem_insert.mp member with same | before
      · exact .inr (same ▸ ⟨here, ordinary⟩)
      · exact .inl before

theorem takeAckStep_advances (taken : sender.takeAckStep = some (after, sent)) :
    sender.Advances event after sent := by
  unfold takeAckStep at taken
  split at taken
  · obtain ⟨⟨next, seq⟩, received, same⟩ := Option.map_eq_some_iff.mp taken
    obtain ⟨channel, rfl, fewer, here⟩ := receive_cases received
    cases same
    exact takeAck_advances seq channel fewer here
  · rename_i waits
    obtain ⟨⟨_, _⟩, received, same⟩ := Option.map_eq_some_iff.mp taken
    obtain ⟨_, rfl, fewer, _⟩ := receive_cases received
    cases same
    refine ⟨rfl, rfl, .inl rfl, by simp, fun _ member => .inl member,
      fun value member => .inl (fewer value member), fun _ => .inl ?_⟩
    rw [waits]
    trivial
  · cases taken

theorem read_keeps (sender : Sender) (packet : Bytes) :
    ∃ channel readerRuns, sender.read packet = { sender with channel, readerRuns } := by
  simp only [read]
  split
  · exact ⟨_, _, rfl⟩
  split
  · exact ⟨_, _, rfl⟩
  split
  · exact ⟨_, _, rfl⟩
  · exact ⟨_, _, rfl⟩

theorem datagramStep_advances (taken : sender.datagramStep packet = some (after, sent)) :
    sender.Advances (.datagram packet) after sent := by
  unfold datagramStep at taken
  split at taken
  · split at taken <;> cases taken
    · exact .proceeds (fun _ member => member) fun _ member => .inl member
    · exact .phase _ (by simp) False.elim
  · split at taken <;> cases taken
    obtain ⟨_, _, same⟩ := read_keeps sender packet
    have reads : ∀ value ∈ (sender.read packet).channel, value ∈ sender.channel ∨
        ∃ other, SenderEvent.datagram packet = .datagram other ∧ value ∈ (sender.read other).channel :=
      fun value member => .inr ⟨packet, rfl, member⟩
    rw [same] at reads ⊢
    exact ⟨rfl, rfl, .inl rfl, by simp, fun _ member => .inl member,
      fun value member => .inr ⟨packet, rfl, by rw [same]; exact member⟩,
      fun closed => .inl closed⟩

theorem read_ack (sender : Sender) (seq : Nat) (bound : seq < 256 ^ 8) :
    sender.read (sender.protocol.ack seq) = { sender with channel := sender.channel ++ [seq] } := by
  have whole : (sender.protocol.ack seq).take 64 = sender.protocol.ack seq :=
    List.take_of_length_le (by simp [Protocol.ack])
  have field : (toBe 8 seq).take 8 = toBe 8 seq := List.take_of_length_le (by simp)
  simp only [read, whole]
  simp [Protocol.ack, field, ofBe_toBe_of_lt bound]

theorem read_handshakeResp
    (sender : Sender) : sender.read sender.protocol.handshakeResp = sender := by
  simp [read, Protocol.handshakeResp]

theorem read_finAck (sender : Sender) :
    sender.read sender.protocol.finAck =
      { sender with channel := sender.channel ++ [finAckSignal], readerRuns := false } := by
  simp [read, Protocol.finAck]

theorem step_advances (taken : sender.step event = some (after, sent)) :
    sender.Advances event after sent := by
  cases event with
  | proceed => exact proceedStep_advances taken
  | timeout => exact timeoutStep_advances taken
  | takeAck => exact takeAckStep_advances taken
  | datagram => exact datagramStep_advances taken
  | socketError =>
    simp only [step, socketErrorStep] at taken
    split at taken <;> cases taken <;> exact .phase _ (by simp) False.elim
  | receiveError =>
    simp only [step, receiveErrorStep] at taken
    split at taken
    · cases taken
      exact .phase _ (by simp) False.elim
    · split at taken <;> cases taken
      exact ⟨rfl, rfl, .inl rfl, by simp, fun _ member => .inl member, fun _ member => .inl member,
        fun closed => .inl closed⟩
  | advance =>
    cases taken
    exact ⟨rfl, rfl, .inl rfl, by simp, fun _ member => .inl member, fun _ member => .inl member,
      fun closed => .inl closed⟩

end Sender

theorem fill_packet {sender : Sender} (more : sender.nextSeq < sender.file.numChunks)
    (ahead : sender.ackedSeqs.card ≤ sender.nextSeq)
    (room : sender.nextSeq - sender.ackedSeqs.card < sender.cwnd)
    (encoded : sender.protocol.dataPacket sender.file sender.nextSeq = some packet) :
    sender.fill =
      ({ sender with
          nextSeq := sender.nextSeq + 1
          lastSentTime := sender.lastSentTime.insert sender.nextSeq sender.now }, [packet]) := by
  unfold Sender.fill
  rw [if_pos more, if_neg (Nat.not_lt.mpr ahead), if_pos room]
  simp only [encoded]

theorem fill_full {sender : Sender} (ahead : sender.ackedSeqs.card ≤ sender.nextSeq)
    (full : ¬(sender.nextSeq < sender.file.numChunks ∧
      sender.nextSeq - sender.ackedSeqs.card < sender.cwnd)) :
    sender.fill = ({ sender with phase := .waiting }, []) := by
  unfold Sender.fill
  rw [if_neg (Nat.not_lt.mpr ahead)]
  by_cases more : sender.nextSeq < sender.file.numChunks
  · rw [if_pos more, if_neg fun room => full ⟨more, room⟩]
  · rw [if_neg more]

end DistributedOs.Datagram
