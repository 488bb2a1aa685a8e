import DistributedOs.Reliable.Receiver
import DistributedOs.Reliable.SentFrames
import DistributedOs.Semantics.Execution

/-! What arrives is what was sent: the receiver's entries are the chunks whose DATA it
has taken from the channel, so a FIN finds a complete set and sorting it gives the data. -/

namespace DistributedOs.Reliable

open Semantics

def Slice.extentEntry (data : Slice) (extent : Extent) : ReceivedChunk :=
  ⟨extent.1, UInt64.ofNat extent.2.1, data.content extent⟩

variable {data : Slice} {extents : List Extent} {order : List ReceivedChunk} {extent : Extent}
  {receiver : Receiver} {consumed waiting : List Frame} {frame : Frame} {system after : System}
  {config : ReliabilityConfig} {chunkSize : Nat} {sender : Sender} {next : Receiver}
  {raw : RawFrame} {rest bytes content tail : Bytes} {written : List Frame}

theorem flatMap_content (tiles : Tiles data.bytes.length index offset extents) :
    extents.flatMap data.content = data.bytes.drop offset := by
  induction tiles with
  | done => simp
  | @next _ _ _ _ _ _ _ ih =>
    rw [List.flatMap_cons, ih, Slice.content, ← List.drop_drop]
    exact List.take_append_drop _ _

private theorem offsets_increase (tiles : Tiles data.bytes.length index offset extents) :
    extents.Pairwise fun first second => first.2.1 < second.2.1 := by
  induction tiles with
  | done => exact .nil
  | next nonempty _ rest ih =>
    refine .cons (fun extent member => ?_) ih
    have later := (rest.within extent member).2.1
    exact Nat.lt_of_lt_of_le (Nat.lt_add_of_pos_right nonempty) later

private theorem entries_increase (tiles : Tiles data.bytes.length 0 0 extents) :
    (extents.map data.extentEntry).Pairwise fun first second => first.2.1 < second.2.1 := by
  have offset_toNat : ∀ extent ∈ extents, (UInt64.ofNat extent.2.1).toNat = extent.2.1 := by
    intro extent member
    have within := (tiles.within extent member).2.2
    have short := data.addressable
    exact UInt64.toNat_ofNat_of_lt' (show extent.2.1 < 2 ^ 64 by omega)
  rw [List.pairwise_map]
  refine (offsets_increase tiles).imp_of_mem fun first second less => ?_
  rw [UInt64.lt_iff_toNat_lt, Slice.extentEntry, Slice.extentEntry, offset_toNat _ first,
    offset_toNat _ second]
  exact less

/-- However the hash map lists a complete set of chunks, sorting it gives the data. -/
theorem assemble_complete (tiles : Tiles data.bytes.length 0 0 extents)
    (listed : order.Perm (extents.map data.extentEntry)) :
    Receiver.assemble order = data.bytes := by
  have increasing := entries_increase tiles
  have distinct : ∀ first ∈ extents.map data.extentEntry, ∀ second ∈ extents.map data.extentEntry,
      first ≠ second → first.2.1 ≠ second.2.1 := by
    have symmetric : Std.Symm fun first second : ReceivedChunk => first.2.1 ≠ second.2.1 :=
      ⟨fun _ _ apart same => apart same.symm⟩
    intro first member second other apart
    exact List.Pairwise.forall (increasing.imp UInt64.ne_of_lt) member other apart
  have sorted : order.mergeSort (fun first second => decide (first.2.1 ≤ second.2.1)) =
      extents.map data.extentEntry := by
    have permuted := (List.mergeSort_perm order fun first second =>
      decide (first.2.1 ≤ second.2.1)).trans listed
    have ascending : (order.mergeSort fun first second => decide (first.2.1 ≤ second.2.1)).Pairwise
        fun first second => first.2.1 ≤ second.2.1 := by
      refine (List.pairwise_mergeSort ?_ ?_ order).imp fun less => by simpa using less
      · intro first second _ less more
        simp only [decide_eq_true_eq] at less more ⊢
        exact UInt64.le_trans less more
      · intro first second
        simpa using UInt64.le_total first.2.1 second.2.1
    refine List.Perm.eq_of_pairwise ?_ ascending (increasing.imp UInt64.le_of_lt) permuted
    intro first second left right less greater
    by_contra apart
    exact distinct first (permuted.mem_iff.mp left) second right apart (UInt64.le_antisymm less greater)
  rw [Receiver.assemble, sorted, List.flatMap_map]
  simpa [Slice.extentEntry] using flatMap_content tiles

/-- Every entry is a chunk's, and every chunk whose DATA was consumed has an entry. -/
structure Stored (data : Slice) (extents : List Extent) (receiver : Receiver)
    (consumed : List Frame) : Prop where
  entries : ∀ id entry, receiver.receivedChunks.lookup id = some entry →
    ∃ extent, extents[id.toNat]? = some extent ∧ data.extentEntry extent = ⟨id, entry⟩
  heard : ∀ extent ∈ extents, data.extentFrame extent ∈ consumed →
    (receiver.receivedChunks.lookup extent.1).isSome = true

theorem Stored.record (stored : Stored data extents receiver consumed)
    (placed : extents[extent.1.toNat]? = some extent)
    (kept : next.receivedChunks = receiver.receivedChunks.insert extent.1
      (data.extentEntry extent).2) :
    Stored data extents next (consumed ++ [data.extentFrame extent]) := by
  constructor
  · intro id entry found
    rw [kept] at found
    by_cases same : id = extent.1
    · subst same
      rw [AList.lookup_insert] at found
      cases found
      exact ⟨extent, placed, rfl⟩
    · rw [AList.lookup_insert_ne same] at found
      exact stored.entries id entry found
  · intro other member present
    rw [kept]
    by_cases same : other.1 = extent.1
    · rw [same, AList.lookup_insert]
      rfl
    · rw [AList.lookup_insert_ne same]
      refine stored.heard other member ?_
      rcases List.mem_append.mp present with earlier | last
      · exact earlier
      · exact absurd (Frame.data.inj (List.mem_singleton.mp last)).1 same

theorem Stored.close (stored : Stored data extents receiver consumed)
    (kept : next.receivedChunks = receiver.receivedChunks) :
    Stored data extents next (consumed ++ [.fin 0 data.total]) := by
  constructor
  · rw [kept]
    exact stored.entries
  · intro other member present
    rw [kept]
    refine stored.heard other member ?_
    rcases List.mem_append.mp present with earlier | last
    · exact earlier
    · cases List.mem_singleton.mp last

/-- A complete set of entries is the set of chunks, in some order. -/
theorem Stored.listed (stored : Stored data extents receiver consumed)
    (tiles : Tiles data.bytes.length 0 0 extents) (complete : Complete data extents consumed) :
    receiver.receivedChunks.entries.Perm (extents.map data.extentEntry) := by
  have position : ∀ extent ∈ extents, extents[extent.1.toNat]? = some extent := by
    intro extent member
    obtain ⟨place, found⟩ := List.getElem?_of_mem member
    have less : place < UInt32.size := Nat.lt_trans (List.getElem?_eq_some_iff.mp found).1 complete.1
    rw [tiles.id_of_getElem? found, Nat.zero_add, UInt32.toNat_ofNat_of_lt' less, found]
  have distinct : (extents.map data.extentEntry).Nodup := by
    refine (entries_increase tiles).imp ?_
    rintro _ _ less rfl
    exact UInt64.ne_of_lt less rfl
  refine (List.perm_ext_iff_of_nodup receiver.receivedChunks.nodupKeys.nodup distinct).mpr ?_
  rintro ⟨id, entry⟩
  rw [← AList.mem_lookup_iff, List.mem_map]
  constructor
  · intro found
    obtain ⟨extent, placed, same⟩ := stored.entries id entry found
    exact ⟨extent, List.mem_of_getElem? placed, same⟩
  · rintro ⟨extent, member, same⟩
    obtain ⟨other, found⟩ := Option.isSome_iff_exists.mp
      (stored.heard extent member (complete.2 extent member))
    obtain ⟨_, placed, sameEntry⟩ := stored.entries extent.1 other found
    rw [position extent member] at placed
    cases placed
    cases same
    cases sameEntry
    exact found

/-- The channel to the receiver holds whole frames: what the sender wrote and the
receiver has not consumed. -/
structure Delivering (data : Slice) (extents : List Extent) (system : System)
    (consumed waiting : List Frame) : Prop where
  channel : system.toReceiver = waiting.flatMap Frame.encode
  wrote : Wrote data extents system.sender.tracker system.sender.phase (consumed ++ waiting)
  stored : Stored data extents system.receiver consumed
  delivered : ∀ buf, system.receiver.phase = .finished (.ok buf) → buf = data.bytes

theorem dataOf_readable (fits : ∀ extent ∈ extents, extent.2.2 < 2 ^ 32)
    (isData : DataOf data extents frame) :
    frame.readable = true := by
  obtain ⟨extent, placed, rfl⟩ := isData
  have size := fits extent (List.mem_of_getElem? placed)
  have length : (data.content extent).length ≤ extent.2.2 := by simp [Slice.content]
  simpa [Slice.extentFrame, Frame.readable] using Nat.lt_of_le_of_lt length size

theorem Wrote.readable (fits : ∀ extent ∈ extents, extent.2.2 < 2 ^ 32)
    (wrote : Wrote data extents tracker phase sent) : ∀ frame ∈ sent, frame.readable = true := by
  intro frame member
  rcases wrote.shaped frame member with rfl | isData
  · rfl
  · exact dataOf_readable fits isData

theorem Slice.total_toNat (data : Slice) : data.total.toNat = data.bytes.length :=
  UInt64.toNat_ofNat_of_lt' data.addressable

/-- The receiver takes the next frame of the channel: a DATA it stores, or the FIN,
by which time every chunk has been stored. -/
private theorem Delivering.read (fits : ∀ extent ∈ extents, extent.2.2 < 2 ^ 32)
    (delivering : Delivering data extents system consumed waiting)
    (taken : readFrame system.toReceiver = .ok (raw, rest))
    (processed : system.receiver.process raw order = some (next, written)) :
    ∃ frame later, waiting = frame :: later ∧ rest = later.flatMap Frame.encode ∧
      Stored data extents next (consumed ++ [frame]) ∧
      ∀ buf, next.phase = .finished (.ok buf) → buf = data.bytes := by
  have wrote := delivering.wrote
  rw [delivering.channel] at taken
  cases waiting with
  | nil => cases taken
  | cons frame later =>
    have readable := wrote.readable fits frame (by simp)
    rw [List.flatMap_cons, readFrame_encode readable, Except.ok.injEq, Prod.mk.injEq] at taken
    obtain ⟨rfl, rfl⟩ := taken
    refine ⟨frame, later, rfl, rfl, ?_⟩
    rcases wrote.shaped frame (by simp) with rfl | ⟨extent, placed, rfl⟩
    · obtain ⟨listed, kept, finished⟩ := Receiver.process_fin 0 data.total processed
      refine ⟨delivering.stored.close kept, ?_⟩
      intro _ same
      rw [finished] at same
      cases same
      have complete := wrote.closed consumed later rfl
      have tiles : Tiles data.bytes.length 0 0 extents := by
        rw [← wrote.covers.same, ← wrote.covers.total]
        exact wrote.covers.laid
      rw [assemble_complete tiles (listed.trans (delivering.stored.listed tiles complete)),
        data.total_toNat,
        List.take_length]
    · obtain ⟨_, recorded⟩ := Receiver.process_data system.receiver order
        extent.1 (UInt64.ofNat extent.2.1) (data.content extent)
      cases recorded.symm.trans processed
      exact ⟨delivering.stored.record placed rfl, by simp⟩

def System.acksKnown (system : System) : SystemEvent → Bool
  | .sender event => system.sender.ackKnown event
  | .receiver _ => true

private theorem Delivering.step (fits : ∀ extent ∈ extents, extent.2.2 < 2 ^ 32)
    (delivering : Delivering data extents system consumed waiting)
    (known : system.acksKnown event = true) (taken : system.step data event = some after) :
    ∃ consumed waiting, Delivering data extents after consumed waiting := by
  cases event with
  | sender =>
    obtain ⟨_, _, stepped⟩ := Option.bind_eq_some_iff.mp taken
    obtain ⟨⟨_, written⟩, moved, same⟩ := Option.bind_eq_some_iff.mp stepped
    cases same
    refine ⟨consumed, waiting ++ written, ?_, ?_, delivering.stored, delivering.delivered⟩
    · simp [delivering.channel]
    · rw [← List.append_assoc]
      exact delivering.wrote.move known (Sender.step_cases moved)
  | receiver =>
    obtain ⟨⟨_, _, _⟩, stepped, same⟩ := Option.bind_eq_some_iff.mp taken
    cases same
    unfold Receiver.step at stepped
    split at stepped
    · cases stepped
      exact ⟨consumed, waiting, delivering.channel, delivering.wrote,
        ⟨delivering.stored.entries, delivering.stored.heard⟩, delivering.delivered⟩
    · cases stepped
      refine ⟨consumed, waiting, delivering.channel, delivering.wrote, ?_, ?_⟩
      · unfold Receiver.iterate
        split <;> exact ⟨delivering.stored.entries, delivering.stored.heard⟩
      · intro _ finished
        unfold Receiver.iterate at finished
        split at finished <;> cases finished
    · split at stepped
      · rename_i read
        obtain ⟨⟨_, _⟩, processed, same⟩ := Option.map_eq_some_iff.mp stepped
        cases same
        obtain ⟨frame, later, rfl, rfl, stored, finished⟩ := delivering.read fits read processed
        refine ⟨consumed ++ [frame], later, rfl, ?_, stored, finished⟩
        simpa using delivering.wrote
      · cases stepped
      · cases stepped
        exact ⟨consumed, waiting, delivering.channel, delivering.wrote,
          ⟨delivering.stored.entries, delivering.stored.heard⟩, by simp⟩
    · cases stepped

private theorem start_delivering (started : System.start data chunkSize config = some system) :
    Delivering data (system.sender.tracker.chunks.map ChunkInfo.extent) system [] [] := by
  obtain ⟨_, begun, rfl⟩ := Option.map_eq_some_iff.mp started
  obtain ⟨_, built, rfl⟩ := Option.map_eq_some_iff.mp begun
  obtain ⟨_, zero, total, _⟩ := ChunkTracker.new_fields built
  have pending := ChunkTracker.new_pending built
  refine ⟨rfl, ⟨⟨?_, total, rfl, ?_, ?_⟩, ?_, ?_, ?_, by simp⟩, ⟨?_, ?_⟩, by simp [Receiver.start]⟩
  · rw [ChunkTracker.Laid, total]
    exact ChunkTracker.new_tiles built
  · simp [zero]
  · exact fun position chunk found left => absurd (pending chunk (List.mem_of_getElem? found)) left
  · simp
  · simp [SenderPhase.batch]
  · simp
  · simp [Receiver.start]
  · simp

private theorem start_fits (small : min chunkSize data.bytes.length < 2 ^ 32)
    (started : System.start data chunkSize config = some system) :
    ∀ extent ∈ system.sender.tracker.chunks.map ChunkInfo.extent, extent.2.2 < 2 ^ 32 := by
  obtain ⟨_, begun, rfl⟩ := Option.map_eq_some_iff.mp started
  obtain ⟨_, built, rfl⟩ := Option.map_eq_some_iff.mp begun
  intro extent member
  have within := ((ChunkTracker.new_tiles built).within extent member).2.2
  obtain ⟨chunk, present, rfl⟩ := List.mem_map.mp member
  have size : chunk.size ≤ chunkSize := ChunkTracker.new_size built chunk present
  have total : chunk.offset + chunk.size ≤ data.bytes.length := within
  show chunk.size < 2 ^ 32
  omega

/-- The receiver returns `Ok` only with the data, whatever the sender returns, as long
as every chunk fits the length field and the sender handles no ACK of an unsent chunk. -/
theorem delivered (small : min chunkSize data.bytes.length < 2 ^ 32)
    (started : System.start data chunkSize config = some start)
    (run : Execution (System.step data) (fun system event => system.acksKnown event = true)
      start events system)
    (received : system.receiver.phase = .finished (.ok buf)) : buf = data.bytes := by
  obtain ⟨consumed, waiting, delivering⟩ := run.invariant
    (fun system => ∃ consumed waiting,
      Delivering data (start.sender.tracker.chunks.map ChunkInfo.extent) system consumed waiting)
    (fun _ _ _ ⟨_, _, delivering⟩ known taken => delivering.step (start_fits small started) known taken)
    ⟨[], [], start_delivering started⟩
  exact delivering.delivered buf received

def receiverTurn (order : List ReceivedChunk) : List SystemEvent :=
  [.receiver .iterate, .receiver (.read order)]

/-- Two chunks of four bytes, each acknowledged, then the FIN and its answer. -/
def twoChunkTransfer : List SystemEvent :=
  (Sender.turn 3 []).map .sender ++ receiverTurn [] ++ receiverTurn [] ++
    ((encodeAck 0 4).map SenderEvent.byte ++ Sender.turn 1 (encodeAck 1 8)).map .sender ++
    receiverTurn [⟨1, 4, [5, 6, 7, 8]⟩, ⟨0, 0, [1, 2, 3, 4]⟩] ++
    ((encodeFinack 0).map SenderEvent.byte).map .sender

theorem delivered_two_chunks :
    ∃ start system buf, System.start eightBytes 4 .default = some start ∧
      Execution (System.step eightBytes) (fun system event => system.acksKnown event = true) start
        twoChunkTransfer system ∧
      system.receiver.phase = .finished (.ok buf) ∧ buf = eightBytes.bytes := by
  have started : System.start eightBytes 4 .default =
      some ((System.start eightBytes 4 .default).get rfl) := rfl
  obtain ⟨system, run, ended⟩ := exists_execution
    (fun system : System => match system.sender.phase, system.receiver.phase with
      | .finished (.ok _), .finished (.ok _) => true
      | _, _ => false)
    (show (replayWhere (System.step eightBytes) System.acksKnown
      ((System.start eightBytes 4 .default).get rfl) twoChunkTransfer).any _ = true by decide)
  split at ended
  · rename_i buf _ received
    exact ⟨_, system, buf, started, run, received, delivered (by decide) started run received⟩
  · cases ended

/-- A DATA frame of a multiple of 2^32 bytes announces no content, and its content is
read as frames. -/
theorem readFrame_wrapped (wraps : content.length % 2 ^ 32 = 0) (rest : Bytes) :
    readFrame (encodeDataFrame chunkId offset content ++ rest) =
      .ok ((frameData, beU32 chunkId ++ beU64 offset), content ++ rest) := by
  let header := beU32 chunkId ++ beU64 offset ++ toBe 4 (content.length % 2 ^ 32)
  have size : header.length = 16 := by simp [header]
  have split : encodeDataFrame chunkId offset content ++ rest =
      frameData :: (header ++ ([] ++ (content ++ rest))) := by simp [encodeDataFrame, header]
  have fields : header.take 12 = beU32 chunkId ++ beU64 offset := List.take_left' (by simp)
  have length : ofBe (header.drop 12) = ([] : Bytes).length := by
    rw [List.drop_left' (by simp), wraps]
    rfl
  rw [split]
  simp only [readFrame, ↓reduceIte, readExact_append size, bind, Except.bind, fields, length,
    readExact_append rfl, pure, Except.pure, List.append_nil]

def Sender.takeBytes (data : Slice) (sender : Sender) : Bytes → Option (Sender × List Frame)
  | [] => some (sender, [])
  | value :: bytes =>
    (sender.step data (.byte value)).bind fun (next, first) =>
      (takeBytes data next bytes).map fun (last, later) => (last, first ++ later)

theorem replay_takeBytes (system : System) (queued : system.toSender = bytes ++ rest)
    (taken : system.sender.takeBytes data bytes = some (last, written)) :
    replay (System.step data) system ((bytes.map SenderEvent.byte).map .sender) = some { system with
      sender := last
      toSender := rest
      toReceiver := system.toReceiver ++ written.flatMap Frame.encode } := by
  induction bytes generalizing system written with
  | nil =>
    cases taken
    simp at queued
    simp [replay, ← queued]
  | cons value bytes ih =>
    obtain ⟨⟨next, first⟩, stepped, others⟩ := Option.bind_eq_some_iff.mp taken
    obtain ⟨⟨_, _⟩, more, same⟩ := Option.map_eq_some_iff.mp others
    cases same
    have moved : system.step data (.sender (.byte value)) = some { system with
        sender := next
        toSender := bytes ++ rest
        toReceiver := system.toReceiver ++ first.flatMap Frame.encode } := by
      simp [System.step, System.takes, queued, stepped]
    simp only [List.map_cons, replay, moved, Option.bind_some]
    rw [ih _ rfl more]
    simp

theorem replay_receiverTurn
    (iterated : system.receiver.step system.toReceiver .iterate =
      some (receiver, system.toReceiver, []))
    (reading : receiver.phase = .reading) (read : readFrame system.toReceiver = .ok (raw, rest))
    (processed : receiver.process raw order = some (next, written)) :
    replay (System.step data) system (receiverTurn order) = some { system with
      receiver := next
      toReceiver := rest
      toSender := system.toSender ++ written.flatMap Frame.encode } := by
  have taken : receiver.step system.toReceiver (.read order) = some (next, rest, written) := by
    simp [Receiver.step, reading, read, processed]
  simp [receiverTurn, replay, System.step, iterated, taken]

private theorem chunkLoop_single (positive : 0 < totalBytes) (fuel : Nat) :
    chunkLoop totalBytes totalBytes (fuel + 1) 0 0 =
      [{ id := 0, offset := 0, size := totalBytes, state := .pending, isRetransmit := false }] := by
  cases fuel <;> simp [chunkLoop, positive]

/-- A slice whose only chunk has 2^32 bytes and starts with what reads as a FIN. -/
structure LongChunk (data : Slice) (tail : Bytes) : Prop where
  bytes : data.bytes = frameFin :: List.replicate 12 0 ++ tail
  length : data.bytes.length = 2 ^ 32

def longSender (state : ChunkState) (ackedIds : Finset UInt32) (count : UInt32)
    (phase : SenderPhase) : Sender :=
  { clock := 0
    tracker := {
      chunks := [{ id := 0, offset := 0, size := 2 ^ 32, state, isRetransmit := false }]
      ackedIds
      contiguousAcked := if state = .acked then 1 else 0
      totalBytes := 2 ^ 32
      inFlight := count
      retransmits := 0 }
    rto := 500
    config := .default
    buf := []
    phase }

def emptyHanded (phase : ReceiverPhase) : Receiver :=
  { idle := 0, receivedChunks := (∅ : AList _).insert 0 (0, []), chunkCount := 1, phase }

def longChunkTransfer : List SystemEvent :=
  (Sender.turn 2 []).map .sender ++ receiverTurn
  [] ++ ((encodeAck 0 0).map SenderEvent.byte).map .sender ++
    receiverTurn [⟨0, 0, []⟩] ++ ((encodeFinack 0).map SenderEvent.byte).map .sender

private theorem longChunk_start (long : LongChunk data tail) :
    System.start data (2 ^ 32) .default = some {
      sender := longSender .pending ∅ 0 .top
      receiver := .start
      toReceiver := []
      toSender := [] } := by
  have table : chunkLoop (2 ^ 32) (2 ^ 32) (2 ^ 32) 0 0 = _ := chunkLoop_single (by decide) (2 ^ 32 - 1)
  have positive : ¬ ((2 : Nat) ^ 32 = 0 ∧ 0 < (2 : Nat) ^ 32) := by decide
  rw [System.start, Sender.start, ChunkTracker.new, long.length, if_neg positive, table]
  rfl

private theorem longSender_ack :
    (longSender (.inFlight 0 1) ∅ 1 .select).takeBytes data (encodeAck 0 0) =
    some (longSender .acked (insert 0 ∅) 0 .finack, [.fin 0 data.total]) := rfl

private theorem longSender_finack :
    (longSender .acked (insert 0 ∅) 0 .finack).takeBytes data (encodeFinack 0) =
    some (longSender .acked (insert 0 ∅) 0 (.finished (.ok (data.bytes.length, 2 ^ 32))), []) := rfl

/-- The chunk is stored empty and its first bytes are the FIN the receiver answers. -/
private theorem longChunk_run (long : LongChunk data tail) : ∃ toReceiver,
    Execution (System.step data) anything ⟨longSender .pending ∅ 0 .top, .start, [], []⟩
      longChunkTransfer
      ⟨longSender .acked (insert 0 ∅) 0 (.finished (.ok (data.bytes.length, 2 ^ 32))),
        emptyHanded (.finished (.ok [])),
        toReceiver, []⟩ := by
  let waiting := longSender (.inFlight 0 1) ∅ 1 .select
  let closing := longSender .acked (insert 0 ∅) 0 .finack
  obtain ⟨content, whole, sent⟩ : ∃ content, content = data.bytes ∧ replay (System.step data)
      ⟨longSender .pending ∅ 0 .top, .start, [], []⟩ ((Sender.turn 2 []).map .sender) =
        some ⟨waiting, .start, encodeDataFrame 0 0 content ++ [], []⟩ := by
    refine ⟨(data.bytes.drop 0).take (2 ^ 32), ?_, rfl⟩
    rw [List.drop_zero, ← long.length, List.take_length]
  have wraps : content.length % 2 ^ 32 = 0 := by rw [whole, long.length, Nat.mod_self]
  have stored :
      replay (System.step data) ⟨waiting, .start, encodeDataFrame 0 0 content ++ [], []⟩
        (receiverTurn []) = some ⟨waiting, emptyHanded .top, content ++ [], encodeAck 0 0⟩ := by
    have processed : Receiver.process { Receiver.start with phase := .reading }
        (frameData, beU32 0 ++ beU64 0) [] = some (emptyHanded .top, [.ack 0 0]) := rfl
    exact replay_receiverTurn rfl rfl (readFrame_wrapped wraps []) processed
  have closed : replay (System.step data) ⟨waiting, emptyHanded .top, content ++ [], encodeAck 0 0⟩
      (((encodeAck 0 0).map SenderEvent.byte).map .sender) =
        some ⟨closing, emptyHanded .top,
          content ++ [] ++ [Frame.fin 0 data.total].flatMap Frame.encode, []⟩ :=
    replay_takeBytes ⟨waiting, emptyHanded .top, content ++ [], encodeAck 0 0⟩ rfl longSender_ack
  obtain ⟨later, split⟩ : ∃ later, content ++ [] ++ [Frame.fin 0 data.total].flatMap Frame.encode =
      frameFin :: List.replicate 12 0 ++ later :=
    ⟨tail ++ [Frame.fin 0 data.total].flatMap Frame.encode, by rw [whole, long.bytes]; simp⟩
  have returned : replay
    (System.step data) ⟨closing, emptyHanded .top, frameFin :: List.replicate 12 0 ++ later, []⟩
      (receiverTurn [⟨0, 0, []⟩]) =
      some ⟨closing, emptyHanded (.finished (.ok [])), later, encodeFinack 0⟩ := by
    have read : readFrame (frameFin :: List.replicate 12 0 ++ later) = .ok
        ((frameFin, List.replicate 12 0), later) :=
      readFrame_fixed (by decide) (by decide) rfl later
    have processed : Receiver.process (emptyHanded .reading)
      (frameFin, List.replicate 12 0) [⟨0, 0, []⟩] =
        some (emptyHanded (.finished (.ok [])), [.finack 0]) := rfl
    exact replay_receiverTurn rfl rfl read processed
  have ended : replay (System.step data)
    ⟨closing, emptyHanded (.finished (.ok [])), later, encodeFinack 0⟩
      (((encodeFinack 0).map SenderEvent.byte).map .sender) =
        some ⟨longSender .acked (insert 0 ∅) 0 (.finished (.ok (data.bytes.length, 2 ^ 32))),
          emptyHanded (.finished (.ok [])), later ++ [], []⟩ :=
    replay_takeBytes ⟨closing, emptyHanded (.finished (.ok [])), later, encodeFinack 0⟩ rfl
    longSender_finack
  rw [split] at closed
  exact ⟨_, ((((execution_iff_replay.mpr sent).append (execution_iff_replay.mpr stored)).append
    (execution_iff_replay.mpr closed)).append (execution_iff_replay.mpr returned)).append
    (execution_iff_replay.mpr ended)⟩

/-- One chunk of 2^32 bytes: both sides return `Ok`, the receiver with an empty buffer. -/
theorem long_chunk_lost : ∃ (data : Slice) (start system : System) (sent : Nat × Nat),
    data.bytes = frameFin :: List.replicate (2 ^ 32 - 1) 0 ∧
      System.start data (2 ^ 32) .default = some start ∧
      Execution (System.step data) anything start longChunkTransfer system ∧
      system.sender.phase = .finished (.ok sent) ∧ system.receiver.phase = .finished (.ok []) ∧
      [] ≠ data.bytes := by
  obtain ⟨data, bytes⟩ : ∃ data : Slice, data.bytes = frameFin :: List.replicate (2 ^ 32 - 1) 0 :=
    ⟨⟨_, by rw [List.length_cons, List.length_replicate]; decide⟩, rfl⟩
  have count : 2 ^ 32 - 1 = 12 + (2 ^ 32 - 13) := by decide
  have long : LongChunk data (List.replicate (2 ^ 32 - 13) 0) := by
    constructor
    · rw [bytes, count, List.cons_append, List.replicate_append_replicate]
    · rw [bytes, List.length_cons, List.length_replicate]
      decide
  obtain ⟨_, run⟩ := longChunk_run long
  exact ⟨data, _, _, _, bytes, longChunk_start long, run, rfl, rfl,
    fun same => by rw [bytes] at same; cases same⟩

end DistributedOs.Reliable
