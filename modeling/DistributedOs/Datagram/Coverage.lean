import DistributedOs.Datagram.System

/-! The receiver under any datagrams, with a record of the bytes it has written. -/

namespace DistributedOs.Datagram

open Semantics

/-- The sequence number and the length of the data packet that the receiver reads a datagram as. -/
def Protocol.dataFields (protocol : Protocol) (datagram : Bytes) : Option (Nat × Nat) :=
  let packet := datagram.take (chunkSize + 32)
  let header := protocol.headerLen
  if packet.head? = some protocol.types.data then
    if packet.length < header + 10 then none
    else
      let seq := ofBe ((packet.drop header).take 8)
      let len := ofBe ((packet.drop (header + 8)).take 2)
      if packet.length < header + 10 + len then none else some (seq, len)
  else none

/-- `written` has the offset and the length of every store, `replies` what the last step sent. -/
structure Reception where
  receiver : Receiver
  written : List (Nat × Nat)
  replies : List Bytes

namespace Reception

def size (reception : Reception) : Nat := reception.receiver.fileBuf.length

def stores (reception : Reception) (protocol : Protocol) : ReceiverEvent → List (Nat × Nat)
  | .datagram packet =>
    match protocol.dataFields packet with
    | some (seq, len) => if seq * chunkSize + len ≤ reception.size then [(seq * chunkSize, len)] else []
    | none => []
  | _ => []

def step (protocol : Protocol) (reception : Reception) (event : ReceiverEvent) : Option Reception :=
  (reception.receiver.step protocol event).map fun (receiver, replies) =>
    { receiver, written := reception.written ++ reception.stores protocol event, replies }

def Covered (reception : Reception) (index : Nat) : Prop :=
  ∃ store ∈ reception.written, store.1 ≤ index ∧ index < store.1 + store.2

/-- A chunk of the file of which every byte has been written. -/
def StoredChunk (reception : Reception) (seq : Nat) : Prop :=
  seq < numChunks reception.size ∧ ∀ index < reception.size, index / chunkSize = seq →
  reception.Covered index

/-- The receiver says that the file is complete. -/
def Completed (reception : Reception) : Prop :=
  reception.receiver.phase = .collected ∨ ∃ bytes, reception.receiver.phase = .returned (some bytes)

/-- No arithmetic overflows, nothing is written outside the file, only stored chunks are
acknowledged, and the file is complete only with every byte written. -/
structure Careful (protocol : Protocol) (before : Reception) (after : Reception) : Prop where
  runs : after.receiver.phase ≠ .panicked
  size : after.size = before.size
  within : ∀ store ∈ after.written, store.1 + store.2 ≤ after.size
  acked : ∀ seq < 2 ^ 64, protocol.ack seq ∈ after.replies → after.StoredChunk seq
  complete : after.Completed → ∀ index < after.size, after.Covered index

/-- A data packet is of a chunk of the file, and its bytes within the file, together with those
written before, fill the chunk. -/
def fills (protocol : Protocol) (reception : Reception) : ReceiverEvent → Prop
  | .datagram packet => ∀ seq len, protocol.dataFields packet = some (seq, len) →
      seq < numChunks reception.size ∧ ∀ index < reception.size, index / chunkSize = seq →
        reception.Covered index ∨
        (seq * chunkSize + len ≤ reception.size ∧ index < seq * chunkSize + len)
  | _ => True

end Reception

variable {protocol : Protocol} {receiver : Receiver} {datagram : Bytes} {seq len other : Nat}

theorem dataFields_bounds (found : protocol.dataFields datagram = some (seq, len)) :
    seq < 2 ^ 64 ∧ len < 2 ^ 16 := by
  unfold Protocol.dataFields at found
  dsimp only at found
  split at found
  · split at found
    · cases found
    split at found
    · cases found
    · cases found
      have field (width start : Nat) :
          ofBe (((datagram.take (chunkSize + 32)).drop start).take width) < 256 ^ width :=
        (ofBe_lt _).trans_le (Nat.pow_le_pow_right (by decide) (List.length_take_le width _))
      exact ⟨field 8 _, field 2 _⟩
  · cases found

theorem ack_inj (small : seq < 2 ^ 64) (little : other < 2 ^ 64)
    (same : protocol.ack seq = protocol.ack other) :
    seq = other := by
  have fields : toBe 8 seq = toBe 8 other := (List.cons.inj same).2
  calc seq = ofBe (toBe 8 seq) := (ofBe_toBe_of_lt small).symm
    _ = ofBe (toBe 8 other) := by rw [fields]
    _ = other := ofBe_toBe_of_lt little

theorem ack_ne_handshakeResp : protocol.ack seq ≠ protocol.handshakeResp := by
  intro same
  have lengths := congrArg List.length same
  simp [Protocol.ack, Protocol.handshakeResp] at lengths

theorem ack_ne_finAck : protocol.ack seq ≠ protocol.finAck := by
  intro same
  have lengths := congrArg List.length same
  simp [Protocol.ack, Protocol.finAck] at lengths

/-- A data packet overflows, is stored and acknowledged, or is acknowledged without being stored. -/
theorem takeDatagram_of_dataFields (receiver : Receiver)
    (found : protocol.dataFields datagram = some (seq, len)) :
    ∃ payload : Bytes, payload.length = len ∧ receiver.takeDatagram protocol datagram =
      if 2 ^ 64 ≤ seq * chunkSize + len then ({ receiver with phase := .panicked }, [])
      else if seq * chunkSize + len ≤ receiver.fileBuf.length then
        ({ receiver with
            fileBuf := receiver.write (seq * chunkSize) payload
            received := insert seq receiver.received }, [protocol.ack seq])
      else (receiver, [protocol.ack seq]) := by
  unfold Protocol.dataFields at found
  unfold Receiver.takeDatagram Receiver.takeData
  generalize datagram.take (chunkSize + 32) = packet at found
  dsimp only at found ⊢
  split at found
  · rename_i data
    split at found
    · cases found
    split at found
    · cases found
    · rename_i headed filled
      cases found
      refine ⟨(packet.drop (protocol.headerLen + 10)).take
        (ofBe ((packet.drop (protocol.headerLen + 8)).take 2)), ?_, ?_⟩
      · rw [List.length_take, List.length_drop]
        omega
      cases packet with
      | nil => cases data
      | cons frameType =>
        have same : frameType = protocol.types.data := by simpa using data
        subst same
        simp only [if_neg protocol.data_ne_handshakeReq, ↓reduceIte, if_neg headed, if_neg filled]
  · cases found

/-- Any other datagram stores nothing and is not acknowledged; a FIN may complete the file. -/
theorem takeDatagram_of_none (receiver : Receiver) (noData : protocol.dataFields datagram = none) :
    (∀ seq, protocol.ack seq ∉ (receiver.takeDatagram protocol datagram).2) ∧
      ((receiver.takeDatagram protocol datagram).1 = receiver ∨
        ((receiver.takeDatagram protocol datagram).1 = { receiver with phase := .collected } ∧
          receiver.numChunks ≤ receiver.received.card)) := by
  have quiet : (∀ seq, protocol.ack seq ∉ ([] : List Bytes)) := fun _ => List.not_mem_nil
  unfold Protocol.dataFields at noData
  unfold Receiver.takeDatagram Receiver.takeData
  generalize datagram.take (chunkSize + 32) = packet at noData
  dsimp only at noData ⊢
  cases packet with
  | nil => exact ⟨quiet, .inl rfl⟩
  | cons frameType rest =>
    dsimp only
    split
    · refine ⟨fun seq answered => ?_, .inl rfl⟩
      exact ack_ne_handshakeResp (List.mem_singleton.mp answered)
    split
    · rename_i data
      have named : (frameType :: rest).head? = some protocol.types.data := congrArg some data
      rw [if_pos named] at noData
      split
      · exact ⟨quiet, .inl rfl⟩
      rename_i headed
      rw [if_neg headed] at noData
      split
      · exact ⟨quiet, .inl rfl⟩
      · rename_i filled
        rw [if_neg filled] at noData
        cases noData
    split
    · have answer : ∀ seq, protocol.ack seq ∉ [protocol.finAck] := by
        intro _ answered
        exact ack_ne_finAck (List.mem_singleton.mp answered)
      split
      · rename_i enough
        exact ⟨answer, .inr ⟨rfl, enough⟩⟩
      · exact ⟨answer, .inl rfl⟩
    · exact ⟨quiet, .inl rfl⟩

namespace Reception

variable {reception before after : Reception} {event : ReceiverEvent} {index : Nat}

theorem covered_append {stores : List (Nat × Nat)}
    (written : after.written = before.written ++ stores) :
    after.Covered index ↔ before.Covered index ∨ ∃ store ∈ stores, store.1 ≤ index ∧
      index < store.1 + store.2 := by
  unfold Covered
  rw [written]
  simp only [List.mem_append, or_and_right, exists_or]

theorem Covered.append {stores : List (Nat × Nat)} (covered : before.Covered index)
    (written : after.written = before.written ++ stores) : after.Covered index :=
  (covered_append written).mpr (.inl covered)

theorem StoredChunk.append {stores : List (Nat × Nat)} (stored : before.StoredChunk seq)
    (sized : after.size = before.size) (written : after.written = before.written ++ stores) :
    after.StoredChunk seq := by
  refine ⟨sized ▸ stored.1, fun index inside place => ?_⟩
  exact (stored.2 index (sized ▸ inside) place).append written

/-- Once a data packet has been taken, its chunk is stored exactly if the packet filled it. -/
theorem fills_iff (found : protocol.dataFields datagram = some (seq, len))
    (sized : after.size = before.size)
    (written : after.written = before.written ++ before.stores protocol (.datagram datagram)) :
    fills protocol before (.datagram datagram) ↔ after.StoredChunk seq := by
  have covers (index : Nat) (place : index / chunkSize = seq) : after.Covered index ↔
      before.Covered index ∨ (seq * chunkSize + len ≤ before.size ∧ index < seq * chunkSize + len) := by
    have start : seq * chunkSize ≤ index := place ▸ Nat.div_mul_le_self index chunkSize
    rw [covered_append written]
    simp only [stores, found]
    split
    · rename_i fits
      simp [fits, start]
    · rename_i outside
      simp [outside]
  unfold fills StoredChunk
  rw [sized]
  constructor
  · intro filled
    obtain ⟨real, all⟩ := filled seq len found
    exact ⟨real, fun index inside place => (covers index place).mpr (all index inside place)⟩
  · intro ⟨real, all⟩ seq' len' found'
    cases found.symm.trans found'
    exact ⟨real, fun index inside place => (covers index place).mp (all index inside place)⟩

theorem covered_of_card {chunks : Finset Nat} (stored : ∀ seq ∈ chunks, reception.StoredChunk seq)
    (enough : numChunks reception.size ≤ chunks.card) (inside : index < reception.size) :
    reception.Covered index := by
  have place : index / chunkSize < numChunks reception.size := by
    rw [numChunks_lt]
    exact (Nat.div_mul_le_self index chunkSize).trans_lt inside
  have member : index / chunkSize ∈ chunks :=
    mem_of_card_le (fun seq member => (stored seq member).1) enough place
  exact (stored _ member).2 index inside rfl

/-- What holds as long as every step has been careful. -/
structure Consistent (reception : Reception) : Prop where
  addressable : reception.size < 2 ^ 63
  within : ∀ store ∈ reception.written, store.1 + store.2 ≤ reception.size
  stored : ∀ seq ∈ reception.receiver.received, reception.StoredChunk seq
  complete : reception.Completed → ∀ index < reception.size, reception.Covered index

theorem Consistent.new (made : Receiver.new expectedSize = some receiver) :
    Consistent { receiver, written := [], replies := [] } := by
  have small : expectedSize.toNat < 2 ^ 63 := by
    unfold Receiver.new at made
    split at made
    · assumption
    · cases made
  rw [Receiver.new_some made]
  constructor
  · simpa [size] using small
  · intro _ member
    cases member
  · intro _ member
    simp at member
  · rintro (collected | ⟨_, returned⟩)
    · cases collected
    · cases returned

/-- A step that stores nothing and acknowledges nothing. -/
theorem Consistent.quiet (consistent : Consistent before) (written : after.written = before.written)
    (fileBuf : after.receiver.fileBuf = before.receiver.fileBuf)
    (received : after.receiver.received = before.receiver.received)
    (runs : after.receiver.phase ≠ .panicked) (silent : ∀ seq, protocol.ack seq ∉ after.replies)
    (completes : after.Completed → before.Completed ∨
      numChunks before.size ≤ before.receiver.received.card) :
    Careful protocol before after ∧ Consistent after := by
  have sized : after.size = before.size := congrArg List.length fileBuf
  have appended : after.written = before.written ++ [] := by rw [written, List.append_nil]
  have within : ∀ store ∈ after.written, store.1 + store.2 ≤ after.size := by
    rw [written, sized]
    exact consistent.within
  have complete : after.Completed → ∀ index < after.size, after.Covered index := by
    intro completed index inside
    rw [sized] at inside
    refine Covered.append ?_ appended
    rcases completes completed with already | enough
    · exact consistent.complete already index inside
    · exact covered_of_card consistent.stored enough inside
  constructor
  · exact ⟨runs, sized, within, fun seq _ acked => absurd acked (silent seq), complete⟩
  · refine ⟨sized ▸ consistent.addressable, within, ?_, complete⟩
    intro seq member
    rw [received] at member
    exact (consistent.stored seq member).append sized appended

theorem stores_within (found : protocol.dataFields datagram = some (seq, len)) :
    ∀ store ∈ before.stores protocol (.datagram datagram), store.1 + store.2 ≤ before.size := by
  simp only [stores, found]
  intro _ member
  split at member
  · rename_i fits
    rwa [List.mem_singleton.mp member]
  · cases member

theorem not_completed_of_receiving (receiving : reception.receiver.phase = .receiving) :
    ¬ reception.Completed := by
  rintro (collected | ⟨_, returned⟩)
  · rw [receiving] at collected
    cases collected
  · rw [receiving] at returned
    cases returned

section Data

variable (consistent : Consistent before)
  (found : protocol.dataFields datagram = some (seq, len)) (sized : after.size = before.size)
  (written : after.written = before.written ++ before.stores protocol (.datagram datagram))
  (received : after.receiver.received ⊆ insert seq before.receiver.received)
  (receiving : after.receiver.phase = .receiving) (replies : after.replies = [protocol.ack seq])
include consistent found sized written received receiving replies

theorem Consistent.data
    (stored : after.StoredChunk seq) : Careful protocol before after ∧ Consistent after := by
  have inside : ∀ store ∈ after.written, store.1 + store.2 ≤ after.size := by
    intro store member
    rw [written] at member
    rw [sized]
    rcases List.mem_append.mp member with old | fresh
    · exact consistent.within store old
    · exact stores_within found store fresh
  have incomplete := not_completed_of_receiving receiving
  constructor
  · refine ⟨by rw [receiving]; nofun, sized, inside, ?_, fun completed => absurd completed incomplete⟩
    intro other little acked
    rw [replies] at acked
    have same : other = seq := ack_inj little (dataFields_bounds found).1 (List.mem_singleton.mp acked)
    exact same ▸ stored
  · refine ⟨sized ▸ consistent.addressable, inside, ?_, fun completed => absurd completed incomplete⟩
    intro other member
    rcases Finset.mem_insert.mp (received member) with same | old
    · exact same ▸ stored
    · exact (consistent.stored other old).append sized written

theorem Consistent.data_iff :
    (fills protocol before (.datagram datagram) → Careful protocol before after ∧
      Consistent after) ∧
      (Careful protocol before after → fills protocol before (.datagram datagram)) := by
  have filling := fills_iff found sized written
  constructor
  · intro filled
    exact consistent.data found sized written received receiving replies (filling.mp filled)
  · intro careful
    refine filling.mpr (careful.acked seq (dataFields_bounds found).1 ?_)
    rw [replies]
    exact List.mem_singleton_self _

end Data

/-- A data packet: it is careful exactly if it fills its chunk. -/
theorem Consistent.takeData (consistent : Consistent before)
    (receiving : before.receiver.phase = .receiving)
    (found : protocol.dataFields datagram = some (seq, len)) (same : after =
      { receiver := (before.receiver.takeDatagram protocol datagram).1
        written := before.written ++ before.stores protocol (.datagram datagram)
        replies := (before.receiver.takeDatagram protocol datagram).2 }) :
    (fills protocol before (.datagram datagram) → Careful protocol before after ∧
      Consistent after) ∧
      (Careful protocol before after → fills protocol before (.datagram datagram)) := by
  obtain ⟨_, length, did⟩ := takeDatagram_of_dataFields before.receiver found
  rw [did] at same
  by_cases overflows : 2 ^ 64 ≤ seq * chunkSize + len
  · rw [if_pos overflows] at same
    constructor
    · intro filled
      have start := numChunks_lt.mp (filled seq len found).1
      have short := (dataFields_bounds found).2
      have addressable := consistent.addressable
      omega
    · intro careful
      exact absurd (congrArg (·.receiver.phase) same) careful.runs
  rw [if_neg overflows] at same
  by_cases fits : seq * chunkSize + len ≤ before.receiver.fileBuf.length
  · rw [if_pos fits] at same
    have sized : after.size = before.size := by
      rw [same]
      exact length_write (length ▸ fits)
    exact consistent.data_iff found sized (same ▸ rfl) (same ▸ subset_rfl)
      (same ▸ receiving) (same ▸ rfl)
  · rw [if_neg fits] at same
    exact consistent.data_iff found (same ▸ rfl) (same ▸ rfl) (same ▸ Finset.subset_insert _ _)
      (same ▸ receiving) (same ▸ rfl)

theorem Consistent.takeOther (consistent : Consistent before)
    (receiving : before.receiver.phase = .receiving) (none : protocol.dataFields datagram = none)
    (same : after =
      { receiver := (before.receiver.takeDatagram protocol datagram).1
        written := before.written ++ before.stores protocol (.datagram datagram)
        replies := (before.receiver.takeDatagram protocol datagram).2 }) :
    Careful protocol before after ∧ Consistent after := by
  obtain ⟨silent, effect⟩ := takeDatagram_of_none before.receiver none
  have stores : before.stores protocol (.datagram datagram) = [] := by simp only [Reception.stores, none]
  rw [stores, List.append_nil] at same
  subst same
  rcases effect with unchanged | ⟨collected, enough⟩
  · refine consistent.quiet rfl ?_ ?_ ?_ silent ?_ <;> simp only [unchanged, receiving]
    · nofun
    · exact fun completed => .inl (by simpa only [Completed, unchanged] using completed)
  · refine consistent.quiet rfl ?_ ?_ ?_ silent (fun _ => .inr enough) <;> simp only [collected]
    nofun

theorem Consistent.fail (consistent : Consistent before) (written : after.written = before.written)
    (receiver : after.receiver = { before.receiver with phase := .returned none })
    (replies : after.replies = []) :
    Careful protocol before after ∧ Consistent after := by
  have phase : after.receiver.phase = .returned none := by rw [receiver]
  refine consistent.quiet written (by rw [receiver]) (by rw [receiver]) ?_ ?_ ?_
  · rw [phase]
    nofun
  · rw [replies]
    exact fun _ => List.not_mem_nil
  · unfold Completed
    rw [phase]
    rintro (collected | ⟨_, returned⟩)
    · cases collected
    · cases returned

/-- A step is careful exactly if a data packet that it takes fills its chunk, and keeps what holds. -/
theorem Consistent.step (consistent : Consistent before)
    (taken : before.step protocol event = some after) :
    (fills protocol before event → Careful protocol before after ∧ Consistent after) ∧
      (Careful protocol before after → fills protocol before event) := by
  obtain ⟨⟨_, _⟩, moved, rfl⟩ := Option.map_eq_some_iff.mp taken
  cases event with
  | datagram packet =>
    simp only [Receiver.step] at moved
    split at moved
    · rename_i receiving
      have same := Prod.ext_iff.mp (Option.some.inj moved)
      obtain ⟨rfl, rfl⟩ := same
      cases fields : protocol.dataFields packet with
      | some => exact consistent.takeData receiving fields rfl
      | none =>
        refine ⟨fun _ => consistent.takeOther receiving fields rfl, fun _ seq len found => ?_⟩
        cases fields.symm.trans found
    · cases moved
  | socketError =>
    simp only [Receiver.step] at moved
    split at moved <;> cases moved
    exact ⟨fun _ => consistent.fail (List.append_nil _) rfl rfl, fun _ => trivial⟩
  | saved =>
    simp only [Receiver.step] at moved
    split at moved
    · rename_i collected
      cases moved
      exact ⟨fun _ => consistent.quiet (List.append_nil _) rfl rfl (by rintro ⟨⟩)
        (fun _ => List.not_mem_nil)
        fun _ => .inl (.inl collected), fun _ => trivial⟩
    · cases moved
  | saveError =>
    simp only [Receiver.step] at moved
    split at moved <;> cases moved
    exact ⟨fun _ => consistent.fail (List.append_nil _) rfl rfl, fun _ => trivial⟩

/-- A byte that has not been written is still the zero it was allocated as. -/
def Unwritten (reception : Reception) : Prop :=
  ∀ index < reception.size, ¬reception.Covered index → reception.receiver.fileBuf[index]? = some 0

theorem Unwritten.of_buffer {stores : List (Nat × Nat)} (unwritten : before.Unwritten)
    (written : after.written = before.written ++ stores)
    (fileBuf : after.receiver.fileBuf = before.receiver.fileBuf) :
    after.Unwritten := by
  intro index inside uncovered
  have sized : after.size = before.size := congrArg List.length fileBuf
  rw [fileBuf]
  exact unwritten index (sized ▸ inside) fun covered => uncovered (covered.append written)

theorem Unwritten.step (unwritten : before.Unwritten)
    (taken : before.step protocol event = some after) :
    after.Unwritten := by
  obtain ⟨⟨_, _⟩, moved, rfl⟩ := Option.map_eq_some_iff.mp taken
  cases event with
  | datagram packet =>
    simp only [Receiver.step] at moved
    split at moved
    · have receiverEq := congrArg Prod.fst (Option.some.inj moved)
      dsimp only at receiverEq
      subst receiverEq
      cases fields : protocol.dataFields packet with
      | none =>
        obtain ⟨_, unchanged | ⟨collected, _⟩⟩ := takeDatagram_of_none before.receiver fields
        · exact unwritten.of_buffer rfl (by rw [unchanged])
        · exact unwritten.of_buffer rfl (by rw [collected])
      | some found =>
        obtain ⟨seq, len⟩ := found
        obtain ⟨payload, length, did⟩ := takeDatagram_of_dataFields before.receiver fields
        by_cases overflows : 2 ^ 64 ≤ seq * chunkSize + len
        · rw [if_pos overflows] at did
          exact unwritten.of_buffer rfl (by rw [did])
        rw [if_neg overflows] at did
        by_cases fits : seq * chunkSize + len ≤ before.receiver.fileBuf.length
        · rw [if_pos fits] at did
          subst length
          intro index inside uncovered
          have stored :
              before.stores protocol (.datagram packet) = [(seq * chunkSize, payload.length)] := by
            simp [stores, fields, size, fits]
          rw [covered_append rfl, stored] at uncovered
          simp only [List.mem_singleton, exists_eq_left, not_or, not_and, not_lt] at uncovered
          simp only [size, did] at inside ⊢
          rw [length_write fits] at inside
          rw [getElem?_write fits]
          split
          · exact unwritten index inside uncovered.1
          · rw [if_neg (by omega)]
            exact unwritten index inside uncovered.1
        · rw [if_neg fits] at did
          exact unwritten.of_buffer rfl (by rw [did])
    · cases moved
  | socketError | saved | saveError =>
    simp only [Receiver.step] at moved
    split at moved <;> cases moved
    exact unwritten.of_buffer rfl rfl

/-- In every run what no packet has brought is zero. -/
theorem unwritten_of_run {expectedSize : UInt64} {receiver : Receiver} {events : List ReceiverEvent}
    {final : Reception} (made : Receiver.new expectedSize = some receiver)
    (run : Execution (step protocol) anything
      { receiver, written := [], replies := [] } events final) :
    final.Unwritten := by
  refine run.invariant Unwritten (fun _ _ _ holding _ taken => holding.step taken) ?_
  intro _ inside _
  rw [Receiver.new_some made] at inside ⊢
  exact List.getElem?_replicate_of_lt (by simpa [size] using inside)

end Reception

/-- Whatever datagrams come, every step is careful exactly if every data packet taken is of a chunk
of the file and its bytes fill the chunk, those written before counted in. -/
theorem careful_of_run {expectedSize : UInt64} {receiver : Receiver} {events : List ReceiverEvent}
    {final : Reception} (made : Receiver.new expectedSize = some receiver)
    (run : Execution (Reception.step protocol) anything
      { receiver, written := [], replies := [] } events final) :
    EveryStep (Reception.step protocol)
      (fun before _ after => Reception.Careful protocol before after)
        { receiver, written := [], replies := [] } events ↔
      Execution (Reception.step protocol) (Reception.fills protocol)
        { receiver, written := [], replies := [] } events final := by
  refine run.everyStep_iff_of_related Reception.Consistent (.new made) ?_ ?_
  · intro before event after consistent taken careful
    obtain ⟨sufficient, necessary⟩ := consistent.step taken
    exact (sufficient (necessary careful)).2
  · intro _ _ _ consistent taken
    obtain ⟨sufficient, necessary⟩ := consistent.step taken
    exact ⟨necessary, fun filled => (sufficient filled).1⟩

def oneByteReceiver : Receiver := { fileBuf := [0], received := ∅, phase := .receiving }

def bytePacket (seq : Nat) : Bytes :=
  FrameTypes.data Protocol.udp.types :: (toBe 8 seq ++ [0, 1, 7])

theorem dataFields_bytePacket_zero : Protocol.udp.dataFields (bytePacket 0) = some (0, 1) := by
  decide

/-- The byte arrives, and the file is complete. -/
theorem careful_oneByte :
    EveryStep (Reception.step .udp) (fun before _ after => Reception.Careful .udp before after)
      { receiver := oneByteReceiver, written := [], replies := [] }
      [.datagram (bytePacket 0), .datagram (Protocol.fin .udp), .saved] := by
  have filled : Reception.fills .udp { receiver := oneByteReceiver, written := [], replies := [] }
      (.datagram (bytePacket 0)) := by
    intro seq len found
    cases dataFields_bytePacket_zero.symm.trans found
    refine ⟨by decide, fun index inside _ => .inr ⟨by decide, ?_⟩⟩
    exact inside
  have run : Execution (Reception.step .udp) (Reception.fills .udp)
      { receiver := oneByteReceiver, written := [], replies := [] }
      [.datagram (bytePacket 0), .datagram (Protocol.fin .udp), .saved] _ :=
    .next filled rfl (.next (fun seq len found => by cases found) rfl (.single trivial rfl))
  exact (careful_of_run (show Receiver.new 1 = some oneByteReceiver from rfl) run.plain).mpr run

/-- The end comes before the second byte, and after a packet outside the file. -/
theorem unwritten_of_early : ∃ final,
    Execution (Reception.step .udp) anything
      { receiver := { fileBuf := [0, 0], received := ∅, phase := .receiving },
        written := [], replies := [] }
      [.datagram (bytePacket 0), .datagram (bytePacket 1), .datagram (Protocol.fin .udp)] final ∧
      final.receiver.fileBuf = [7, 0] ∧ final.Unwritten := by
  have run : Execution (Reception.step .udp) anything
      { receiver := { fileBuf := [0, 0], received := ∅, phase := .receiving },
        written := [], replies := [] }
      [.datagram (bytePacket 0), .datagram (bytePacket 1), .datagram (Protocol.fin .udp)] _ :=
    .next trivial rfl (.next trivial rfl (.single trivial rfl))
  exact ⟨_, run, rfl, Reception.unwritten_of_run (show Receiver.new 2 = some _ from rfl) run⟩

/-- A packet outside the file is acknowledged. -/
theorem outside_careless :
    ¬ EveryStep (Reception.step .udp) (fun before _ after => Reception.Careful .udp before after)
      { receiver := oneByteReceiver, written := [], replies := [] } [.datagram (bytePacket 1)] := by
  intro every
  have careful := every.head rfl
  have stored := careful.acked 1 (by decide) (by decide)
  exact absurd stored.1 (by decide)

end DistributedOs.Datagram
