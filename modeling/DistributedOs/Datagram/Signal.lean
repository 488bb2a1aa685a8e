import DistributedOs.Datagram.System

/-! The acknowledgement of chunk 99999999 reads as a FIN_ACK: a file with such a chunk can be
reported as sent while its first chunk is missing. -/

namespace DistributedOs.Datagram

open Semantics

variable {protocol : Protocol} {file : FileData} {transfer after : Transfer} {count : Nat}

theorem Transfer.Reaches.next (reached : Transfer.Reaches protocol file transfer)
    (event : TransferEvent) (taken : transfer.step event = some after) :
    Transfer.Reaches protocol file after := by
  obtain ⟨initial, events, made, run⟩ := reached
  exact ⟨initial, events ++ [event], made, run.append (.single trivial taken)⟩

/-- Chunks 1 to `count` have been acknowledged, and the first has not arrived. -/
structure Withheld (protocol : Protocol) (file : FileData) (count : Nat)
    (transfer : Transfer) : Prop where
  reached : Transfer.Reaches protocol file transfer
  sameProtocol : transfer.sender.protocol = protocol
  sameFile : transfer.sender.file = file
  acked : ∀ seq ∈ transfer.sender.ackedSeqs, seq ≤ count
  counted : transfer.sender.ackedSeqs.card = count
  ahead : count ≤ transfer.sender.nextSeq
  window : 10 ≤ transfer.sender.cwnd
  channel : transfer.sender.channel = []
  reads : transfer.sender.readerRuns = true
  receiving : transfer.receiver.phase = .receiving
  missing : 0 ∉ transfer.receiver.received
  sized : transfer.receiver.fileBuf.length = file.bytes.length
  onWay : ∀ seq < transfer.sender.nextSeq, ∃ packet ∈ transfer.toReceiver,
    protocol.dataPacket file seq = some packet

theorem Transfer.step_full (filling : transfer.sender.phase = .filling)
    (full : transfer.sender.fill = ({ transfer.sender with phase := .waiting }, [])) :
    transfer.step (.sender .proceed) =
      some { transfer with sender := { transfer.sender with phase := .waiting } } := by
  simp [Transfer.step, SenderEvent.arrives, Sender.step, Sender.proceedStep, filling, full]

/-- The sender fills its window, and with every chunk encodable it then waits. -/
theorem Withheld.fill (withheld : Withheld protocol file count transfer)
    (filling : transfer.sender.phase = .filling) (streams : ∀ seq, protocol.streamId seq ≠ none) :
    ∃ after, Withheld protocol file count after ∧ after.sender.phase = .waiting ∧
      (file.numChunks ≤ after.sender.nextSeq ∨ count + 10 ≤ after.sender.nextSeq) := by
  obtain ⟨remaining, _⟩ :
      ∃ remaining, file.numChunks - transfer.sender.nextSeq ≤ remaining := ⟨_, Nat.le_refl _⟩
  induction remaining generalizing transfer with
  | zero =>
    have ahead : transfer.sender.ackedSeqs.card ≤ transfer.sender.nextSeq :=
      withheld.counted ▸ withheld.ahead
    have full := fill_full ahead (by rw [withheld.sameFile]; omega)
    have turn := Transfer.step_full filling full
    exact ⟨_, { withheld with reached := withheld.reached.next _ turn }, rfl, .inl (by simp only; omega)⟩
  | succ _ ih =>
    have ahead : transfer.sender.ackedSeqs.card ≤ transfer.sender.nextSeq :=
      withheld.counted ▸ withheld.ahead
    by_cases more : transfer.sender.nextSeq < transfer.sender.file.numChunks ∧
        transfer.sender.nextSeq - transfer.sender.ackedSeqs.card < transfer.sender.cwnd
    · obtain ⟨packet, encoded⟩ :
          ∃ packet, protocol.dataPacket file transfer.sender.nextSeq = some packet := by
        obtain ⟨_, found⟩ := Option.ne_none_iff_exists'.mp (streams transfer.sender.nextSeq)
        exact ⟨_, by rw [Protocol.dataPacket, found, Option.map_some]⟩
      have filled := fill_packet more.1 ahead more.2
        (by rw [withheld.sameProtocol, withheld.sameFile, encoded])
      have turn : transfer.step (.sender .proceed) = some
          { transfer with
            sender :=
              { transfer.sender with
                nextSeq := transfer.sender.nextSeq + 1
                lastSentTime := transfer.sender.lastSentTime.insert transfer.sender.nextSeq
                  transfer.sender.now }
            toReceiver := transfer.toReceiver ++ [packet] } := by
        simp [Transfer.step, SenderEvent.arrives, Sender.step, Sender.proceedStep, filling, filled]
      refine ih ⟨withheld.reached.next _ turn, withheld.sameProtocol, withheld.sameFile,
        withheld.acked, withheld.counted,
        Nat.le_succ_of_le withheld.ahead, withheld.window, withheld.channel, withheld.reads,
        withheld.receiving,
        withheld.missing, withheld.sized, ?_⟩ filling ?_
      · intro seq less
        rcases Nat.lt_succ_iff_lt_or_eq.mp less with before | same
        · obtain ⟨other, sent, found⟩ := withheld.onWay seq before
          exact ⟨other, List.mem_append_left _ sent, found⟩
        · exact ⟨packet, by simp, same ▸ encoded⟩
      · simp only
        omega
    · have full := fill_full ahead more
      have turn := Transfer.step_full filling full
      refine ⟨_, { withheld with reached := withheld.reached.next _ turn }, rfl, ?_⟩
      have window := withheld.window
      rw [withheld.counted, withheld.sameFile] at more
      simp only
      omega

theorem Withheld.store (withheld : Withheld protocol file count transfer)
    (sent : count + 1 < transfer.sender.nextSeq) (real : count + 1 < file.numChunks) :
    ∃ next, Withheld protocol file count next ∧ next.sender = transfer.sender ∧
      protocol.ack (count + 1) ∈ next.toSender := by
  obtain ⟨packet, onWay, encoded⟩ := withheld.onWay _ sent
  have within := chunk_within file _ real
  have arrived : transfer.step (.receiver (.datagram packet)) = some
      { transfer with
        receiver :=
          { transfer.receiver with
            fileBuf := transfer.receiver.write ((count + 1) * chunkSize) (file.chunk (count + 1))
            received := insert (count + 1) transfer.receiver.received }
        toSender := transfer.toSender ++ [protocol.ack (count + 1)] } := by
    simp [Transfer.step, ReceiverEvent.arrives, onWay, Receiver.step, withheld.receiving,
      withheld.sameProtocol,
      Receiver.takeDatagram_dataPacket encoded real withheld.sized]
  refine ⟨_, { withheld with
    reached := withheld.reached.next _ arrived, missing := ?_, sized := ?_ }, rfl, by simp⟩
  · simpa using withheld.missing
  · rw [← withheld.sized]
    exact length_write (by rw [withheld.sized]; exact within)

theorem Withheld.takeAck (withheld : Withheld protocol file count transfer)
    (waits : transfer.sender.phase = .waiting)
    (reply : protocol.ack (count + 1) ∈ transfer.toSender) (real : count + 1 < file.numChunks) :
    Transfer.Reaches protocol file
      { transfer with sender := transfer.sender.takeAck (some (count + 1)) } := by
  have read := transfer.sender.read_ack (count + 1) (seq_lt_of_real real)
  rw [withheld.channel, List.nil_append, congrArg Protocol.ack withheld.sameProtocol] at read
  have room : 0 < transfer.sender.protocol.channelCapacity := by
    cases transfer.sender.protocol <;> simp [Protocol.channelCapacity]
  have queued : transfer.step (.sender (.datagram (protocol.ack (count + 1)))) = some
      { transfer with
        sender := transfer.sender.read (protocol.ack (count + 1))
        toReceiver := transfer.toReceiver ++ [] } := by
    simp [Transfer.step, SenderEvent.arrives, reply, Sender.step, Sender.datagramStep, waits,
      withheld.reads, room,
      withheld.channel]
  rw [List.append_nil, read] at queued
  have taken : ({ transfer.sender with channel := [count + 1] } : Sender).takeAckStep =
      some (transfer.sender.takeAck (some (count + 1)), []) := by
    have empty := withheld.channel
    cases sender : transfer.sender
    rw [sender] at waits empty
    subst waits empty
    rfl
  refine (withheld.reached.next _ queued).next (.sender .takeAck) ?_
  simp [Transfer.step, SenderEvent.arrives, Sender.step, taken]

/-- One more chunk is acknowledged, as long as its number is not that of the signal. -/
theorem Withheld.next (withheld : Withheld protocol file count transfer)
    (waits : transfer.sender.phase = .waiting)
    (ahead : file.numChunks ≤ transfer.sender.nextSeq ∨ count + 10 ≤ transfer.sender.nextSeq)
    (real : count + 1 < file.numChunks) (ordinary : count + 1 ≠ finAckSignal)
    (streams : ∀ seq, protocol.streamId seq ≠ none) :
    ∃ after, Withheld protocol file (count + 1) after ∧ after.sender.phase = .waiting ∧
      (file.numChunks ≤ after.sender.nextSeq ∨ count + 1 + 10 ≤ after.sender.nextSeq) := by
  obtain ⟨next, stored, same, reply⟩ := withheld.store (by omega) real
  have fresh : count + 1 ∉ next.sender.ackedSeqs := fun member => by
    have := stored.acked _ member
    omega
  have counted : (insert (count + 1) next.sender.ackedSeqs).card = count + 1 := by
    rw [Finset.card_insert_of_notMem fresh, stored.counted]
  have taken : next.sender.takeAck (some (count + 1)) =
      { next.sender with
        ackedSeqs := insert (count + 1) next.sender.ackedSeqs, cwnd := next.sender.cwnd + 1,
          phase := .filling } := by
    have more : (insert (count + 1) next.sender.ackedSeqs).card < next.sender.file.numChunks := by
      rw [counted, stored.sameFile]
      exact real
    simp only [Sender.takeAck, if_neg ordinary, if_neg fresh, Sender.proceed, if_pos more]
  have reached := stored.takeAck (same ▸ waits) reply real
  rw [taken] at reached
  refine Withheld.fill ⟨reached, stored.sameProtocol, stored.sameFile, ?_, counted, ?_, ?_,
    stored.channel, stored.reads,
    stored.receiving, stored.missing, stored.sized, stored.onWay⟩ rfl streams
  · intro seq member
    rcases Finset.mem_insert.mp member with here | before
    · exact Nat.le_of_eq here
    · exact Nat.le_succ_of_le (stored.acked seq before)
  · simp only [same]
    omega
  · exact Nat.le_succ_of_le stored.window

theorem exists_withheld (some_ : 0 < file.numChunks)
    (streams : ∀ seq, protocol.streamId seq ≠ none) :
    ∃ transfer, Withheld protocol file 0 transfer ∧ transfer.sender.phase = .waiting ∧
      (file.numChunks ≤ transfer.sender.nextSeq ∨ 0 + 10 ≤ transfer.sender.nextSeq) := by
  have bound := file.addressable
  have allocated : Receiver.new (UInt64.ofNat file.bytes.length) = some
      { fileBuf := List.replicate file.bytes.length 0, received := ∅, phase := .receiving } := by
    have size : (UInt64.ofNat file.bytes.length).toNat = file.bytes.length :=
      UInt64.toNat_ofNat_of_lt' (show file.bytes.length < 2 ^ 64 by omega)
    simp only [Receiver.new, size, if_pos bound]
  have made := congrArg (Option.map fun receiver =>
    ({ sender := .new protocol file, receiver, toReceiver := [], toSender := [] } : Transfer)) allocated
  have start : Transfer.Reaches protocol file
      { sender := .new protocol file
        receiver := { fileBuf := List.replicate file.bytes.length 0, received := ∅, phase := .receiving }
        toReceiver := [], toSender := [] } := ⟨_, [], made, .done⟩
  have request := start.next (.sender .proceed) rfl
  have response := request.next (.receiver (.datagram (protocol.handshakeReq file.bytes.length))) (by
    simp [Transfer.step, ReceiverEvent.arrives, Receiver.step, Sender.new,
      Receiver.takeDatagram_handshakeReq]
    rfl)
  have answered := response.next (.sender (.datagram protocol.handshakeResp)) (by
    simp [Transfer.step, SenderEvent.arrives, Sender.step, Sender.datagramStep,
      Protocol.handshakeResp, Sender.proceed,
      some_]
    rfl)
  refine Withheld.fill
    ⟨answered, rfl, rfl, by simp, rfl, Nat.le_refl _, ?_, rfl, rfl, rfl, by simp, by simp, ?_⟩ rfl
    streams
  · cases protocol <;> simp [Protocol.initialCwnd]
  · intro _ less
    exact absurd less (Nat.not_lt_zero _)

theorem exists_withheld_to (streams : ∀ seq, protocol.streamId seq ≠ none) (count : Nat)
    (below : count < finAckSignal) (real : count < file.numChunks) :
    ∃ transfer, Withheld protocol file count transfer ∧ transfer.sender.phase = .waiting ∧
      (file.numChunks ≤ transfer.sender.nextSeq ∨ count + 10 ≤ transfer.sender.nextSeq) := by
  induction count with
  | zero => exact exists_withheld real streams
  | succ _ ih =>
    obtain ⟨_, withheld, waits, ahead⟩ := ih (by omega) (by omega)
    exact withheld.next waits ahead real (by omega) streams

theorem reaches_returned (reached : Transfer.Reaches protocol file transfer)
    (attempts remaining : Nat) (counted : attempts + remaining = 5)
    (closing : transfer.sender.phase = .closing attempts) :
    ∃ after, Transfer.Reaches protocol file after ∧ after.sender.phase = .returned true ∧
      after.receiver = transfer.receiver := by
  induction remaining generalizing attempts transfer with
  | zero =>
    have ended : transfer.step (.sender .proceed) = some
        { transfer with
          sender := { transfer.sender with phase := .returned true }
          toReceiver := transfer.toReceiver ++ [] } := by
      have spent : ¬ attempts < 5 := by omega
      simp [Transfer.step, SenderEvent.arrives, Sender.step, Sender.proceedStep, closing, spent]
    exact ⟨_, reached.next _ ended, rfl, rfl⟩
  | succ _ ih =>
    have sent : transfer.step (.sender .proceed) = some
        { transfer with
          sender := { transfer.sender with phase := .awaitingFinAck attempts }
          toReceiver := transfer.toReceiver ++ [transfer.sender.protocol.fin] } := by
      have more : attempts < 5 := by omega
      simp [Transfer.step, SenderEvent.arrives, Sender.step, Sender.proceedStep, closing, more]
    obtain ⟨after, final, ended, same⟩ :=
      ih ((reached.next _ sent).next (.sender .timeout) rfl) (attempts + 1) (by omega) rfl
    exact ⟨after, final, ended, same⟩

theorem exists_undelivered (protocol : Protocol) (file : FileData)
    (streams : ∀ seq, protocol.streamId seq ≠ none) (long : finAckSignal < file.numChunks) :
    ∃ transfer, Transfer.Reaches protocol file transfer ∧ transfer.sender.phase = .returned true ∧
      0 ∉ transfer.receiver.received := by
  obtain ⟨transfer, withheld, waits, ahead⟩ :=
    exists_withheld_to streams (finAckSignal - 1) (by simp [finAckSignal])
      (show finAckSignal - 1 < file.numChunks by omega)
  have signal : finAckSignal - 1 + 1 = finAckSignal := by simp [finAckSignal]
  obtain ⟨next, stored, same, reply⟩ := withheld.store (by omega) (by omega)
  have reached := stored.takeAck (same ▸ waits) reply (by omega)
  have taken : next.sender.takeAck (some (finAckSignal - 1 + 1)) =
      { next.sender with phase := .closing 0 } := by
    rw [signal]
    simp only [Sender.takeAck, if_true]
  rw [taken] at reached
  obtain ⟨after, final, ended, receiver⟩ := reaches_returned reached 0 5 rfl rfl
  exact ⟨after, final, ended, receiver ▸ stored.missing⟩

/-- Every run delivers exactly when no chunk that is sent has the number of the signal: when
the file has at most 99999999 chunks, or there are no streams to send a chunk over. -/
theorem delivers_iff (protocol : Protocol) (file : FileData) :
    (∀ transfer, Transfer.Reaches protocol file transfer → transfer.Delivers file) ↔
      file.numChunks ≤ finAckSignal ∨ protocol = .quic 0 := by
  have without : (∃ seq, protocol.streamId seq = none) ↔ protocol = .quic 0 := by
    cases protocol with
    | udp => simp [Protocol.streamId]
    | quic => simp [Protocol.streamId]
  rw [← without]
  constructor
  · intro delivers
    by_contra neither
    obtain ⟨_, streams⟩ := not_or.mp neither
    obtain ⟨transfer, reached, ended, missing⟩ :=
      exists_undelivered protocol file (fun seq none => streams ⟨seq, none⟩) (by omega)
    exact missing ((delivers transfer reached).stored ended 0 (by omega)).1
  · intro signalless _ reached
    exact delivers_of_signalless signalless reached

def longFile : FileData where
  bytes := List.replicate (finAckSignal * chunkSize + 1) 0
  addressable := by
    rw [List.length_replicate]
    simp [finAckSignal, chunkSize]

theorem longFile_undelivered :
    ∃ transfer, Transfer.Reaches .udp longFile transfer ∧ transfer.sender.phase = .returned true ∧
      ¬ transfer.receiver.Stores longFile 0 := by
  have long : finAckSignal < longFile.numChunks := by
    rw [FileData.numChunks, numChunks_lt, longFile, List.length_replicate]
    exact Nat.lt_succ_self _
  obtain ⟨transfer, reached, ended, missing⟩ := exists_undelivered .udp longFile
    (fun _ => by rintro ⟨⟩) long
  exact ⟨transfer, reached, ended, fun stored => missing stored.1⟩

end DistributedOs.Datagram
