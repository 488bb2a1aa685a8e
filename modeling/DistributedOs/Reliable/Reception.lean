import DistributedOs.Reliable.Receiver
import DistributedOs.Semantics.Execution

/-! What `receive_file_reliable` hands back for arbitrary frames. Chunks are kept by id, laid
one after the other in the order of their offsets, and cut at the total the FIN names;
nothing compares an offset with the place its bytes get. -/

namespace DistributedOs.Reliable

open Semantics

/-- The bytes of a DATA frame, each with the offset it belongs at. -/
def ReceivedChunk.bytes (chunk : ReceivedChunk) : List (UInt8 × Nat) :=
  chunk.2.2.zipIdx chunk.2.1.toNat

def ReceivedChunk.covers (chunk : ReceivedChunk) (offset : Nat) : Prop :=
  chunk.2.1.toNat ≤ offset ∧ offset < chunk.2.1.toNat + chunk.2.2.length

namespace RawFrame

/-- The number a DATA or FIN frame carries after its id. -/
def number (frame : RawFrame) : Nat := ofBe ((frame.2.drop 4).take 8)

def accepted (frame : RawFrame) : List ReceivedChunk :=
  if frame.1 = frameData then [⟨frame.chunkId, UInt64.ofNat frame.number, frame.2.drop 12⟩] else []

end RawFrame

/-- The receiver, the rest of its stream, and every chunk it has accepted. -/
structure Reception where
  receiver : Receiver
  stream : Bytes
  accepted : List ReceivedChunk

namespace Reception

def start (stream : Bytes) : Reception := { receiver := .start, stream, accepted := [] }

def heard (reception : Reception) (event : ReceiverEvent) : List ReceivedChunk :=
  match reception.receiver.phase, event with
  | .reading, .read _ =>
    match readFrame reception.stream with
    | .ok (frame, _) => frame.accepted
    | .error _ => []
  | _, _ => []

def step (reception : Reception) (event : ReceiverEvent) : Option Reception :=
  (reception.receiver.step reception.stream event).map fun (receiver, stream, _) =>
    { receiver, stream, accepted := reception.accepted ++ reception.heard event }

end Reception

/-- The map after these insertions: the last chunk of each id. -/
def stored (accepted : List ReceivedChunk) : AList fun _ : UInt32 => UInt64 × Bytes :=
  accepted.foldl (fun chunks chunk => chunks.insert chunk.1 chunk.2) ∅

namespace Receiver

def sorted (order : List ReceivedChunk) : List ReceivedChunk :=
  order.mergeSort fun first second => decide (first.2.1 ≤ second.2.1)

/-- The bytes of the buffer before it is cut, each with the offset its frame gave it. -/
def placed (order : List ReceivedChunk) : List (UInt8 × Nat) :=
  (sorted order).flatMap ReceivedChunk.bytes

end Receiver

/-- What is promised of the result of a reception that a FIN with this total ends: a buffer is
the whole file, each byte at the offset its frame gave it; and chunks that leave a gap or
pass the total are an error. -/
structure Promised (accepted order : List ReceivedChunk) (total : Nat)
    (result : Except ReceiveError Bytes) : Prop where
  whole : ∀ buf, result = .ok buf → buf.length = total ∧ ∀ offset < total, ∃ byte,
    buf[offset]? = some byte ∧ (Receiver.placed order)[offset]? = some (byte, offset) ∧
      ∃ chunk ∈ accepted, chunk.covers offset ∧ (byte, offset) ∈ chunk.bytes
  refused : (∃ offset < total, ∀ chunk ∈ accepted, ¬ chunk.covers offset) ∨
    (∃ chunk ∈ accepted, total < chunk.2.1.toNat + chunk.2.2.length) → ∃ error, result = .error error

/-- Laid one after the other from a position on, the chunks reach the total, and each one
that begins before it begins where the last one ended. -/
def Contiguous (total : Nat) : Nat → List ReceivedChunk → Prop
  | position, [] => total ≤ position
  | position, chunk :: rest => total ≤ position ∨
    (chunk.2.2 = [] ∨ chunk.2.1.toNat = position) ∧ Contiguous total (position + chunk.2.2.length) rest

variable {receiver next : Receiver} {reception before after : Reception} {frame : RawFrame}
  {chunk : ReceivedChunk} {order chunks accepted : List ReceivedChunk} {stream rest : Bytes}
  {total position offset : Nat} {event : ReceiverEvent}

theorem ReceivedChunk.length_bytes (chunk : ReceivedChunk) :
    chunk.bytes.length = chunk.2.2.length :=
  List.length_zipIdx

theorem ReceivedChunk.getElem?_bytes (chunk : ReceivedChunk) (index : Nat) :
    chunk.bytes[index]? = chunk.2.2[index]?.map fun byte => (byte, chunk.2.1.toNat + index) :=
  List.getElem?_zipIdx

/-- Every byte up to the total is at its offset exactly when the chunks are contiguous. -/
theorem placed_iff (chunks : List ReceivedChunk) (position : Nat) :
    (∀ offset, position ≤ offset → offset < total → ∃ byte,
      (chunks.flatMap ReceivedChunk.bytes)[offset - position]? = some (byte, offset)) ↔
        Contiguous total position chunks := by
  induction chunks generalizing position with
  | nil =>
    simp only [List.flatMap_nil, List.getElem?_nil, reduceCtorEq, exists_false, Contiguous]
    constructor
    · intro every
      by_contra short
      exact every position (Nat.le_refl _) (Nat.lt_of_not_le short)
    · intro reached offset lower upper
      omega
  | cons chunk rest ih =>
    have here : ∀ offset, position + chunk.2.2.length ≤ offset →
        ((chunk :: rest).flatMap ReceivedChunk.bytes)[offset - position]? =
          (rest.flatMap ReceivedChunk.bytes)[offset - (position + chunk.2.2.length)]? := by
      intro offset _
      rw [List.flatMap_cons, List.getElem?_append_right (by rw [chunk.length_bytes]; omega),
        chunk.length_bytes,
        Nat.sub_sub]
    have within : ∀ offset, position ≤ offset → offset < position + chunk.2.2.length →
        ((chunk :: rest).flatMap ReceivedChunk.bytes)[offset - position]? =
          chunk.2.2[offset - position]?.map fun byte =>
          (byte, chunk.2.1.toNat + (offset - position)) := by
      intro offset lower inside
      rw [List.flatMap_cons, List.getElem?_append_left (by rw [chunk.length_bytes]; omega),
        chunk.getElem?_bytes]
    rw [Contiguous, ← ih]
    constructor
    · intro every
      by_cases reached : total ≤ position
      · exact .inl reached
      · refine .inr ⟨?_, fun offset lower upper => here offset lower ▸ every offset (by omega) upper⟩
        cases content : chunk.2.2 with
        | nil => exact .inl rfl
        | cons =>
          obtain ⟨_, found⟩ := every position (Nat.le_refl _) (Nat.lt_of_not_le reached)
          rw [within position (Nat.le_refl _) (by simp [content]), content] at found
          simp only [Nat.sub_self, List.getElem?_cons_zero, Option.map_some, Option.some.injEq,
            Prod.mk.injEq] at found
          exact .inr found.2
    · intro laid offset lower upper
      rcases laid with _ | ⟨starts, later⟩
      · omega
      · by_cases inside : offset < position + chunk.2.2.length
        · rcases starts with empty | starts
          · simp [empty] at inside
            omega
          · rw [within offset lower inside, starts, List.getElem?_eq_getElem (by omega),
              Nat.add_sub_cancel' lower]
            exact ⟨_, rfl⟩
        · rw [here offset (by omega)]
          exact later offset (by omega) upper

theorem ReceivedChunk.covers_of_mem (member : (byte, offset) ∈ chunk.bytes) :
    chunk.covers offset := by
  obtain ⟨lower, upper, _⟩ := List.mem_zipIdx member
  exact ⟨lower, upper⟩

namespace Receiver

theorem assemble_eq_placed (order : List ReceivedChunk) :
    assemble order = (placed order).map Prod.fst := by
  rw [assemble, placed, List.map_flatMap]
  refine List.flatMap_congr fun chunk _ => ?_
  exact (List.zipIdx_map_fst _ _).symm

/-- A FIN's buffer keeps the promise exactly when the stored chunks are contiguous up to the
total and no chunk that was accepted reaches past it. -/
theorem promised_iff_contiguous (among : ∀ chunk ∈ order, chunk ∈ accepted) :
    Promised accepted order total (.ok ((assemble order).take total)) ↔
      Contiguous total 0 (sorted order) ∧
      ∀ chunk ∈ accepted, chunk.2.1.toNat + chunk.2.2.length ≤ total := by
  have laid : _ ↔ Contiguous total 0 (sorted order) := placed_iff (sorted order) 0
  constructor
  · intro promised
    obtain ⟨_, every⟩ := promised.whole _ rfl
    constructor
    · refine laid.mp fun offset _ upper => ?_
      obtain ⟨byte, _, found, _⟩ := every offset upper
      exact ⟨byte, found⟩
    · intro chunk member
      by_contra past
      obtain ⟨_, same⟩ := promised.refused (.inr ⟨chunk, member, Nat.lt_of_not_le past⟩)
      cases same
  · rintro ⟨contiguous, within⟩
    have every : ∀ offset < total, ∃ byte, (placed order)[offset]? = some (byte, offset) :=
      fun offset upper => laid.mpr contiguous offset (Nat.zero_le _) upper
    have origin : ∀ offset byte, (placed order)[offset]? = some (byte, offset) →
        ∃ chunk ∈ accepted, chunk.covers offset ∧ (byte, offset) ∈ chunk.bytes := by
      intro offset byte found
      obtain ⟨chunk, member, present⟩ := List.mem_flatMap.mp (List.mem_of_getElem? found)
      exact ⟨chunk, among chunk (List.mem_mergeSort.mp member),
        ReceivedChunk.covers_of_mem present, present⟩
    constructor
    · intro _ same
      cases same
      constructor
      · rw [List.length_take, assemble_eq_placed, List.length_map, Nat.min_eq_left]
        by_contra short
        obtain ⟨byte, found⟩ := every (total - 1) (by omega)
        have inside := (List.getElem?_eq_some_iff.mp found).1
        omega
      · intro offset upper
        obtain ⟨byte, found⟩ := every offset upper
        refine ⟨byte, ?_, found, origin offset byte found⟩
        rw [List.getElem?_take_of_lt upper, assemble_eq_placed, List.getElem?_map, found]
        rfl
    · rintro (⟨offset, upper, missing⟩ | ⟨chunk, member, past⟩)
      · obtain ⟨byte, found⟩ := every offset upper
        obtain ⟨chunk, member, covers, _⟩ := origin offset byte found
        exact absurd covers (missing chunk member)
      · exact absurd past (Nat.not_lt.mpr (within chunk member))

end Receiver

theorem stored_append (accepted : List ReceivedChunk) (chunk : ReceivedChunk) :
    stored (accepted ++ [chunk]) = (stored accepted).insert chunk.1 chunk.2 := by
  simp [stored, List.foldl_append]

theorem mem_of_mem_stored (member : chunk ∈ (stored accepted).entries) : chunk ∈ accepted := by
  induction accepted using List.reverseRecOn with
  | nil => cases member
  | append_singleton _ _ ih =>
    rw [stored_append, AList.entries_insert, List.mem_cons] at member
    rcases member with rfl | kept
    · simp
    · exact List.mem_append_left _ (ih ((List.kerase_sublist _ _).subset kept))

namespace Receiver

theorem process_stored (processed : receiver.process frame order = some (next, written))
    (same : receiver.receivedChunks = stored accepted) :
    next.receivedChunks = stored (accepted ++ frame.accepted) := by
  unfold process at processed
  simp only at processed
  split at processed
  · rename_i isData
    cases processed
    simp only [RawFrame.accepted, isData, ↓reduceIte, stored_append, same, RawFrame.number]
  · rename_i notData
    rw [RawFrame.accepted, if_neg notData, List.append_nil, ← same]
    split at processed
    · split at processed
      · cases processed
        rfl
      · cases processed
    · split at processed <;> cases processed <;> rfl

theorem process_finished (isFin : frame.1 = frameFin)
    (processed : receiver.process frame order = some (next, written)) :
    order.Perm receiver.receivedChunks.entries ∧
      next.phase = .finished (.ok ((assemble order).take frame.number)) := by
  have notData : frameFin ≠ frameData := by decide
  simp only [process, isFin, notData, ↓reduceIte] at processed
  split at processed
  · rename_i listed
    cases processed
    exact ⟨listed, rfl⟩
  · cases processed

end Receiver

namespace Reception

theorem iterate_stored (receiver : Receiver) :
    receiver.iterate.1.receivedChunks = receiver.receivedChunks := by
  unfold Receiver.iterate
  split <;> rfl

theorem step_stored (taken : before.step event = some after)
    (same : before.receiver.receivedChunks = stored before.accepted) :
    after.receiver.receivedChunks = stored after.accepted := by
  obtain ⟨⟨_, _, written⟩, stepped, rfl⟩ := Option.map_eq_some_iff.mp taken
  simp only
  unfold Receiver.step at stepped
  split at stepped
  · cases stepped
    simpa [heard] using same
  · rename_i top
    cases stepped
    simpa [heard, top, iterate_stored] using same
  · rename_i reading
    split at stepped
    · rename_i read
      obtain ⟨⟨_, _⟩, processed, moved⟩ := Option.map_eq_some_iff.mp stepped
      cases moved
      simpa [heard, reading, read] using Receiver.process_stored processed same
    · cases stepped
    · rename_i read
      cases stepped
      simpa [heard, reading, read] using same
  · cases stepped

theorem step_finished (reading : before.receiver.phase = .reading)
    (read : readFrame before.stream = .ok (frame, rest)) (isFin : frame.1 = frameFin)
    (ended : before.step (.read order) = some after) :
    order.Perm before.receiver.receivedChunks.entries ∧
      after.receiver.phase = .finished (.ok ((Receiver.assemble order).take frame.number)) := by
  obtain ⟨⟨_, _, written⟩, stepped, rfl⟩ := Option.map_eq_some_iff.mp ended
  simp only [Receiver.step, reading, read] at stepped
  obtain ⟨⟨_, _⟩, processed, moved⟩ := Option.map_eq_some_iff.mp stepped
  cases moved
  exact Receiver.process_finished isFin processed

/-- In every reception that a FIN ends, the result keeps the promise exactly when the chunks
stored by then, in the order of their offsets, are contiguous up to the total of the FIN
and no accepted chunk reaches past it. -/
theorem received_iff (run : Execution step anything (start stream) events before)
    (reading : before.receiver.phase = .reading)
    (read : readFrame before.stream = .ok (frame, rest)) (isFin : frame.1 = frameFin)
    (ended : before.step (.read order) = some after) :
    ∃ result, after.receiver.phase = .finished result ∧
      order.Perm (stored before.accepted).entries ∧
      (Promised before.accepted order frame.number result ↔
        Contiguous frame.number 0 (Receiver.sorted order) ∧
          ∀ chunk ∈ before.accepted, chunk.2.1.toNat + chunk.2.2.length ≤ frame.number) := by
  have same : before.receiver.receivedChunks = stored before.accepted :=
    run.invariant (fun reception => reception.receiver.receivedChunks = stored reception.accepted)
      (fun _ _ _ same _ taken => step_stored taken same) rfl
  obtain ⟨listed, finished⟩ := step_finished reading read isFin ended
  rw [same] at listed
  exact ⟨_, finished, listed, Receiver.promised_iff_contiguous fun chunk member =>
    mem_of_mem_stored (listed.mem_iff.mp member)⟩

/-- What the receiver does to take so many frames, none of them a FIN. -/
def reads (frames : Nat) : List ReceiverEvent :=
  (List.replicate frames [.iterate, .read []]).flatten ++ [.iterate]

def twoChunks (first second : ReceivedChunk) (total : UInt64) : Reception :=
  { receiver := {
      idle := 0
      receivedChunks := stored [first, second]
      chunkCount := 2
      phase := .reading }
    stream := (Frame.fin 0 total).encode
    accepted := [first, second] }

/-- Two chunks, the second one first, then the FIN: the buffer is the file. -/
theorem received_iff_reordered :
    ∃ before after result, Execution step anything
        (start ([Frame.data 1 2 [3, 4], Frame.data 0 0 [1, 2], Frame.fin 0 4].flatMap Frame.encode))
        (reads 2) before ∧
      before.step (.read [⟨0, 0, [1, 2]⟩, ⟨1, 2, [3, 4]⟩]) = some after ∧
      after.receiver.phase = .finished result ∧
      Promised before.accepted [⟨0, 0, [1, 2]⟩, ⟨1, 2, [3, 4]⟩] 4 result := by
  have run : Execution step anything
      (start ([Frame.data 1 2 [3, 4], Frame.data 0 0 [1, 2], Frame.fin 0 4].flatMap Frame.encode))
      (reads 2)
      (twoChunks ⟨1, 2, [3, 4]⟩ ⟨0, 0, [1, 2]⟩ 4) := execution_iff_replay.mpr rfl
  have read : readFrame (Frame.fin 0 4).encode = .ok ((frameFin, beU32 0 ++ beU64 4), []) := rfl
  obtain ⟨after, ended⟩ : ∃ after, (twoChunks ⟨1, 2, [3, 4]⟩ ⟨0, 0, [1, 2]⟩ 4).step
      (.read [⟨0, 0, [1, 2]⟩, ⟨1, 2, [3, 4]⟩]) = some after := ⟨_, rfl⟩
  obtain ⟨result, finished, _, exactly⟩ := received_iff run rfl read rfl ended
  have inOrder : Receiver.sorted [⟨0, 0, [1, 2]⟩, ⟨1, 2, [3, 4]⟩] = [⟨0, 0, [1, 2]⟩, ⟨1, 2, [3, 4]⟩] :=
    List.mergeSort_of_pairwise (by decide)
  have contiguous : Contiguous 4 0 (Receiver.sorted [⟨0, 0, [1, 2]⟩, ⟨1, 2, [3, 4]⟩]) := by
    rw [inOrder]
    exact .inr ⟨.inr rfl, .inr ⟨.inr rfl, Nat.le_refl 4⟩⟩
  exact ⟨_, after, result, run, ended, finished, exactly.mpr ⟨contiguous, by decide⟩⟩

/-- Two bytes at 0, two at 4 and a FIN for six: the reception returns four bytes. -/
theorem gap_closed_up :
    ∃ before after, Execution step anything
        (start ([Frame.data 1 4 [5, 6], Frame.data 0 0 [1, 2], Frame.fin 0 6].flatMap Frame.encode))
        (reads 2) before ∧
      before.step (.read [⟨0, 0, [1, 2]⟩, ⟨1, 4, [5, 6]⟩]) = some after ∧
      after.receiver.phase = .finished (.ok [1, 2, 5, 6]) ∧
      ¬ Promised before.accepted [⟨0, 0, [1, 2]⟩, ⟨1, 4, [5, 6]⟩] 6 (.ok [1, 2, 5, 6]) := by
  have read : readFrame (Frame.fin 0 6).encode = .ok ((frameFin, beU32 0 ++ beU64 6), []) := rfl
  obtain ⟨after, ended⟩ : ∃ after, (twoChunks ⟨1, 4, [5, 6]⟩ ⟨0, 0, [1, 2]⟩ 6).step
      (.read [⟨0, 0, [1, 2]⟩, ⟨1, 4, [5, 6]⟩]) = some after := ⟨_, rfl⟩
  have buffer : (Receiver.assemble [⟨0, 0, [1, 2]⟩, ⟨1, 4, [5, 6]⟩]).take
      (RawFrame.number (frameFin, beU32 0 ++ beU64 6)) = [1, 2, 5, 6] := by
    rw [Receiver.assemble, List.mergeSort_of_pairwise (by decide)]
    decide
  have finished := (step_finished rfl read rfl ended).2
  rw [buffer] at finished
  refine ⟨_, after, execution_iff_replay.mpr rfl, ended, finished, fun promised => ?_⟩
  have length := (promised.whole _ rfl).1
  simp at length

end Reception

end DistributedOs.Reliable
