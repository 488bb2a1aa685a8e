import DistributedOs.Datagram.Receiver
import DistributedOs.Datagram.Sender
import DistributedOs.Semantics.Execution

/-! What the sender sends again at a timeout, whatever datagrams come in. -/

namespace DistributedOs.Datagram

open Semantics

variable {sender after : Sender} {event : SenderEvent} {sent : List Bytes} {seq : Nat}

namespace Sender

def turn (sender : Sender) (event : SenderEvent) : Option Sender := (sender.step event).map (·.1)

/-- The chunk has been sent, is not acknowledged and was last sent longer ago than the
retransmission time. -/
def Overdue (sender : Sender) (seq : Nat) : Prop :=
  seq < sender.nextSeq ∧ seq ∉ sender.ackedSeqs ∧
    ∃ sent, sender.lastSentTime.lookup seq = some sent ∧ timeoutDuration < sender.now - sent

def Retransmits (sender : Sender) (event : SenderEvent) (_ : Sender) : Prop :=
  event = .timeout → sender.phase = .waiting → ∀ seq, sender.Overdue seq →
    ∃ packet ∈ sender.retransmit.2, sender.protocol.dataPacket sender.file seq = some packet

/-- At a timeout no overdue chunk has a number below the number of acknowledged ones. -/
def gapless (sender : Sender) (event : SenderEvent) : Prop :=
  event = .timeout → sender.phase = .waiting → ∀ seq, sender.Overdue seq → sender.ackedSeqs.card ≤ seq

/-- Only chunks of the file are sent, and only over streams that there are. -/
structure Sending (sender : Sender) : Prop where
  sent : sender.nextSeq ≤ sender.file.numChunks
  streams : 0 < sender.nextSeq → ∀ seq, (sender.protocol.streamId seq).isSome

theorem Sending.new (protocol : Protocol) (file : FileData) : Sending (.new protocol file) :=
  ⟨Nat.zero_le _, fun some => absurd some (Nat.lt_irrefl 0)⟩

theorem streams_of_stream {protocol : Protocol}
    (stream : (protocol.streamId seq).isSome) (other : Nat) :
    (protocol.streamId other).isSome := by
  cases protocol with
  | udp => rfl
  | quic =>
    unfold Protocol.streamId at stream ⊢
    dsimp only at stream ⊢
    split at stream
    · cases stream
    · rename_i streams
      rw [if_neg streams]
      rfl

theorem Sending.step (sending : Sending sender) (advances : sender.Advances event after sent) :
    Sending after := by
  rcases advances.nextSeq with same | ⟨room, next, stream⟩
  · constructor
    · rw [same, advances.sameFile]
      exact sending.sent
    · rw [same, advances.sameProtocol]
      exact sending.streams
  · constructor
    · rw [next, advances.sameFile]
      exact room
    · rw [advances.sameProtocol]
      exact fun _ => streams_of_stream stream

theorem Sending.turn (sending : Sending sender) (taken : sender.turn event = some after) :
    Sending after := by
  obtain ⟨⟨_, _⟩, stepped, rfl⟩ := Option.map_eq_some_iff.mp taken
  exact sending.step (step_advances stepped)

theorem Sending.exists_packet (sending : Sending sender) (before : seq < sender.nextSeq) :
    ∃ packet, sender.protocol.dataPacket sender.file seq = some packet := by
  have stream := sending.streams (Nat.zero_lt_of_lt before) seq
  obtain ⟨stream, found⟩ := Option.isSome_iff_exists.mp stream
  exact ⟨_, by rw [Protocol.dataPacket, found, Option.map_some]⟩

theorem mapM_of_images {α β : Type} {image : α → Option β} {items : List α}
    (images : ∀ item ∈ items, ∃ result, image item = some result) :
    ∃ results, items.mapM image = some results ∧ ∀ item ∈ items, ∃ result ∈ results,
      image item = some result := by
  induction items with
  | nil => exact ⟨[], rfl, nofun⟩
  | cons head _ ih =>
    obtain ⟨first, here⟩ := images head (List.mem_cons_self ..)
    obtain ⟨others, rest, each⟩ := ih fun item member => images item (List.mem_cons_of_mem _ member)
    refine ⟨first :: others, by simp [here, rest], ?_⟩
    intro item member
    rcases List.mem_cons.mp member with same | later
    · exact ⟨first, List.mem_cons_self .., same ▸ here⟩
    · obtain ⟨result, within, found⟩ := each item later
      exact ⟨result, List.mem_cons_of_mem _ within, found⟩

theorem mem_outstanding_iff :
    seq ∈ sender.outstanding ↔ sender.ackedSeqs.card ≤ seq ∧ seq < sender.nextSeq ∧
      sender.shouldRetransmit seq = true := by
  rw [outstanding, List.mem_filter, List.mem_range'_1]
  constructor
  · rintro ⟨⟨low, high⟩, due⟩
    exact ⟨low, by omega, due⟩
  · rintro ⟨low, _, due⟩
    exact ⟨⟨low, by omega⟩, due⟩

theorem Overdue.shouldRetransmit (overdue : sender.Overdue seq) :
    sender.shouldRetransmit seq = true := by
  obtain ⟨_, unacked, _, last, ago⟩ := overdue
  simp [Sender.shouldRetransmit, unacked, last, Nat.le_of_lt ago]

theorem Sending.mem_retransmit_iff (sending : Sending sender) {packet : Bytes} :
    packet ∈ sender.retransmit.2 ↔
      ∃ seq ∈ sender.outstanding, sender.protocol.dataPacket sender.file seq = some packet := by
  obtain ⟨packets, encoded, each⟩ := mapM_of_images fun seq member =>
    sending.exists_packet (mem_outstanding_iff.mp member).2.1
  have same : sender.retransmit.2 = packets := by
    unfold retransmit
    rw [encoded]
  rw [same]
  constructor
  · exact mem_of_mapM encoded packet
  · rintro ⟨seq, member, found⟩
    obtain ⟨_, within, here⟩ := each seq member
    cases found.symm.trans here
    exact within

theorem dataPacket_inj {protocol : Protocol} {file : FileData} (real : seq < file.numChunks)
    (otherReal : other < file.numChunks) (found : protocol.dataPacket file seq = some packet)
    (same : protocol.dataPacket file other = some packet) : seq = other :=
  (Receiver.fields_of_dataPacket found real).seqField.symm.trans
  (Receiver.fields_of_dataPacket same otherReal).seqField

theorem Sending.retransmits_iff (sending : Sending sender) (overdue : sender.Overdue seq) :
    (∃ packet ∈ sender.retransmit.2, sender.protocol.dataPacket sender.file seq = some packet) ↔
      sender.ackedSeqs.card ≤ seq := by
  have real := Nat.lt_of_lt_of_le overdue.1 sending.sent
  constructor
  · rintro ⟨packet, member, found⟩
    obtain ⟨_, outstanding, same⟩ := sending.mem_retransmit_iff.mp member
    have ⟨low, high, _⟩ := mem_outstanding_iff.mp outstanding
    rwa [dataPacket_inj real (Nat.lt_of_lt_of_le high sending.sent) found same]
  · intro low
    obtain ⟨packet, found⟩ := sending.exists_packet overdue.1
    have outstanding := mem_outstanding_iff.mpr ⟨low, overdue.1, overdue.shouldRetransmit⟩
    exact ⟨packet, sending.mem_retransmit_iff.mpr ⟨seq, outstanding, found⟩, found⟩

/-- In a run of the sender every timeout sends all overdue chunks again exactly when at none of them
an overdue chunk lies below the number of acknowledged ones. -/
theorem retransmits_of_run {protocol : Protocol} {file : FileData} {events : List SenderEvent}
    (run : Execution turn anything (.new protocol file) events after) :
    EveryStep turn Retransmits (.new protocol file) events ↔
      Execution turn gapless (.new protocol file) events after := by
  refine run.everyStep_iff Sending (.new protocol file)
    (fun _ _ _ sending taken => sending.turn taken) ?_
  intro _ _ _ sending _
  refine imp_congr_right fun _ => imp_congr_right fun _ => forall_congr' fun seq =>
    imp_congr_right fun overdue => ?_
  exact sending.retransmits_iff overdue

theorem turn_fill (filling : sender.phase = .filling)
    (more : sender.nextSeq < sender.file.numChunks) (ahead : sender.ackedSeqs.card ≤ sender.nextSeq)
    (room : sender.nextSeq - sender.ackedSeqs.card < sender.cwnd)
    (encoded : sender.protocol.dataPacket sender.file sender.nextSeq = some packet) :
    sender.turn .proceed = some { sender with
      nextSeq := sender.nextSeq + 1
      lastSentTime := sender.lastSentTime.insert sender.nextSeq sender.now } := by
  simp [turn, Sender.step, proceedStep, filling, fill_packet more ahead room encoded]

theorem turn_wait (filling : sender.phase = .filling)
    (ahead : sender.ackedSeqs.card ≤ sender.nextSeq)
    (spent : sender.file.numChunks ≤ sender.nextSeq) :
    sender.turn .proceed = some { sender with phase := .waiting } := by
  simp [turn, Sender.step, proceedStep, filling, fill_full ahead fun more =>
    absurd more.1 (Nat.not_lt.mpr spent)]

theorem turn_answered (protocol : Protocol) {file : FileData} (chunks : 0 < file.numChunks) :
    ({ Sender.new protocol file with phase := .awaitingResponse 0 } : Sender).turn
      (.datagram protocol.handshakeResp) =
      some { Sender.new protocol file with phase := .filling, readerRuns := true } := by
  simp [turn, Sender.step, datagramStep, Sender.new, Protocol.handshakeResp, proceed, chunks]

theorem turn_takeAck {channel : List Nat} (waits : sender.phase = .waiting)
    (read : sender.channel = value :: channel) (ordinary : value ≠ finAckSignal)
    (fresh : value ∉ sender.ackedSeqs) (more : sender.ackedSeqs.card + 1 < sender.file.numChunks) :
    sender.turn .takeAck = some { sender with
      channel, ackedSeqs := insert value sender.ackedSeqs, cwnd := sender.cwnd + 1,
      phase := .filling } := by
  simp [turn, Sender.step, takeAckStep, waits, receive, read, takeAck, ordinary, fresh, proceed, more]

/-- Both chunks of a file are sent, one of them is acknowledged, and the other one is overdue. -/
def acknowledging (value : Nat) : List SenderEvent :=
  [.proceed, .datagram (Protocol.handshakeResp .udp), .proceed, .proceed, .proceed,
    .datagram (Protocol.ack .udp value),
    .takeAck, .proceed, .advance 200000000]

def acknowledged (file : FileData) (value : Nat) : Sender :=
  { Sender.new .udp file with
    phase := .waiting, nextSeq := 2, ackedSeqs := {value},
      lastSentTime := ((∅ : AList fun _ : Nat => Nat).insert 0 0).insert 1 0
    cwnd := 11, readerRuns := true }

theorem acknowledging_run {admits : Sender → SenderEvent → Prop} {file : FileData}
    (two : file.numChunks = 2) (real : value < 2)
    (admitted : ∀ sender event, sender.protocol = .udp → event ≠ .timeout →
      (event = .takeAck → sender.channel = [value] ∧ sender.nextSeq = 2) → admits sender event) :
    Execution turn admits (.new .udp file) (acknowledging value)
      { acknowledged file value with now := (acknowledged file value).now + 200000000 } := by
  have calm {sender : Sender} {event : SenderEvent} (udp : sender.protocol = .udp)
    (other : event ≠ .timeout)
      (untaken : event ≠ .takeAck) : admits sender event :=
    admitted sender event udp other fun taking => absurd taking untaken
  refine .next (calm rfl (by simp) (by simp)) rfl
    (.next (calm rfl (by simp) (by simp)) (turn_answered .udp (show 0 < file.numChunks by omega)) ?_)
  refine .next (calm rfl (by simp) (by simp))
    (turn_fill rfl (show 0 < file.numChunks by omega) (Nat.zero_le _) (show 0 - 0 < 10 by omega) rfl) ?_
  refine .next (calm rfl (by simp) (by simp))
    (turn_fill rfl (show 1 < file.numChunks by omega) (Nat.zero_le _) (show 1 - 0 < 10 by omega) rfl) ?_
  refine .next (calm rfl (by simp) (by simp))
    (turn_wait rfl (Nat.zero_le _) (show file.numChunks ≤ 2 by omega)) ?_
  have reads (sender : Sender) (udp : sender.protocol = .udp) (waits : sender.phase = .waiting)
    (runs : sender.readerRuns = true)
      (empty : sender.channel = []) :
      sender.turn (.datagram (Protocol.ack .udp value)) = some { sender with channel := [value] } := by
    have read := read_ack sender value (by omega)
    rw [udp, empty] at read
    simp [turn, Sender.step, datagramStep, waits, runs, empty, udp, Protocol.channelCapacity, read]
  refine .next (calm rfl (by simp) (by simp)) (reads _ rfl rfl rfl rfl) ?_
  refine .next (admitted _ _ rfl (by simp) fun _ => ⟨rfl, rfl⟩)
    (turn_takeAck rfl rfl ?_ (Finset.notMem_empty _) (show 0 + 1 < file.numChunks by omega)) ?_
  · unfold finAckSignal
    omega
  refine .next (calm rfl (by simp) (by simp))
    (turn_wait rfl (show (insert value ∅ : Finset Nat).card ≤ 2 by simp)
    (show file.numChunks ≤ 2 by omega)) (.single (calm rfl (by simp) (by simp)) rfl)

theorem gapless_acknowledging {file : FileData} (two : file.numChunks = 2) (real : value < 2) :
    Execution turn gapless (.new .udp file) (acknowledging value)
      { acknowledged file value with now := (acknowledged file value).now + 200000000 } :=
  acknowledging_run two real fun _ _ _ other _ timeout => absurd timeout other

theorem acknowledged_overdue_iff (file : FileData) (real : value < 2) :
    { acknowledged file value with now := (acknowledged file value).now + 200000000 }.Overdue seq ↔
      seq = 1 - value := by
  simp only [Overdue, acknowledged, Sender.new, timeoutDuration, Finset.mem_singleton]
  constructor
  · rintro ⟨_, _, _⟩
    omega
  · rintro rfl
    refine ⟨by omega, by omega, 0, ?_, by decide⟩
    rcases Nat.lt_succ_iff_lt_or_eq.mp real with zero | one
    · rw [Nat.lt_one_iff.mp zero]
      rfl
    · rw [one]
      rfl

def twoChunks : FileData where
  bytes := List.replicate (chunkSize + 1) 0
  addressable := by
    rw [List.length_replicate]
    simp [chunkSize]

theorem numChunks_twoChunks : twoChunks.numChunks = 2 := by
  rw [FileData.numChunks, twoChunks, List.length_replicate]
  rfl

/-- With the first chunk acknowledged, the second one is sent again. -/
theorem retransmits_second :
    EveryStep turn Retransmits (.new .udp twoChunks) (acknowledging 0 ++ [.timeout]) := by
  have run := gapless_acknowledging numChunks_twoChunks (show 0 < 2 by omega)
  have admitted : gapless
      { acknowledged twoChunks 0 with now := (acknowledged twoChunks 0).now + 200000000 } .timeout := by
    intro _ _ _ overdue
    rw [(acknowledged_overdue_iff twoChunks (by omega)).mp overdue]
    exact Nat.le_refl 1
  have goodRun := run.append (.single admitted rfl)
  exact (retransmits_of_run goodRun.plain).mpr goodRun

/-- With the second chunk acknowledged, the first one is not. -/
theorem first_not_retransmitted :
    ¬ EveryStep turn Retransmits (.new .udp twoChunks) (acknowledging 1 ++ [.timeout]) := by
  intro every
  have run := gapless_acknowledging numChunks_twoChunks (show 1 < 2 by omega)
  have overdue := (acknowledged_overdue_iff twoChunks (show 1 < 2 by omega)).mpr rfl
  have sending : Sending _ :=
    run.plain.invariant Sending (fun _ _ _ sending _ taken => sending.turn taken) (.new .udp twoChunks)
  have retransmits := every (acknowledging 1) .timeout [] _ _ rfl run.plain rfl rfl rfl 0 overdue
  exact absurd ((sending.retransmits_iff overdue).mp retransmits) (Nat.not_succ_le_zero 0)

end Sender

end DistributedOs.Datagram
