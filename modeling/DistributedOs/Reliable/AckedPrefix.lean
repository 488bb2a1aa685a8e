import Mathlib.Algebra.Order.BigOperators.Group.List
import Mathlib.Algebra.Order.Group.Nat
import DistributedOs.Reliable.ChunkPositions
import DistributedOs.Semantics.Execution

/-! How far the acknowledged prefix of the file reaches. `last_acked_offset` sums the
chunks before `contiguous_acked`, and that counter runs over chunk states; so a chunk
put in flight again ahead of the counter holds it back for good. -/

namespace DistributedOs.Reliable

open Semantics

/-- The tracker's operations, with whatever arguments. -/
inductive TableOp where
  | markInFlight (now : Nat) (id attempt : UInt32)
  | markAcked (id : UInt32) (ackedOffset : Nat)
  | nack (now : Nat) (id : UInt32)

variable {tracker after start : ChunkTracker} {chunk : ChunkInfo} {id attempt : UInt32}
  {chunkSize totalBytes now offset index count : Nat} {op : TableOp}

theorem Tiles.sum_take (tiles : Tiles total index offset extents) (count : Nat) :
    offset + ((extents.take count).map (·.2.2)).sum = (extents[count]?.map (·.2.1)).getD total := by
  induction tiles generalizing count with
  | done => simp
  | next _ _ _ ih =>
    cases count with
    | zero => simp
    | succ count =>
      rw [List.take_succ_cons, List.map_cons, List.sum_cons, List.getElem?_cons_succ,
        ← ih count, Nat.add_assoc]

namespace ChunkTracker

def act (tracker : ChunkTracker) : TableOp → Option ChunkTracker
  | .markInFlight now id attempt => some (tracker.markInFlight now id attempt)
  | .markAcked id ackedOffset => (tracker.markAcked id ackedOffset).map Prod.snd
  | .nack now id => some (tracker.retransmit now id)

/-- Where the first chunk starts that has not been acknowledged, or the total. -/
def firstUnacked (tracker : ChunkTracker) : Nat :=
  ((tracker.chunks.find? fun chunk => chunk.id ∉ tracker.ackedIds).map (·.offset)).getD
  tracker.totalBytes

def passed (tracker : ChunkTracker) (id : UInt32) : Bool :=
  id ∉ tracker.ackedIds || id < tracker.contiguousAcked

/-- The operation puts no chunk in flight that was acknowledged ahead of the contiguous run. -/
def prefixSafe (tracker : ChunkTracker) : TableOp → Bool
  | .markInFlight _ id _ => tracker.passed id
  | .markAcked _ _ => true
  | .nack _ id => tracker.passed id

/-- The contiguous run has been acknowledged and stops at a chunk that has not; from
there on, chunk states and acknowledgements agree. -/
structure Fronted (tracker : ChunkTracker) : Prop where
  laid : tracker.Laid
  front : ∀ position < tracker.contiguousAcked.toNat,
    ∃ chunk, tracker.chunks[position]? = some chunk ∧ chunk.id ∈ tracker.ackedIds
  ahead : ∀ position chunk, tracker.chunks[position]? = some chunk →
    tracker.contiguousAcked.toNat ≤ position →
    position < 2 ^ 32 → (chunk.state = .acked ↔ chunk.id ∈ tracker.ackedIds)
  stopped : ∀ chunk, tracker.chunks[tracker.contiguousAcked.toNat]? = some chunk →
    chunk.id ∉ tracker.ackedIds

theorem new_fronted (built : new chunkSize totalBytes = some tracker) : tracker.Fronted := by
  obtain ⟨noAcks, zero, total, _⟩ := new_fields built
  refine ⟨?_, by simp [zero], ?_, by simp [noAcks]⟩
  · rw [Laid, total]
    exact new_tiles built
  · intro _ chunk found _ _
    simp [noAcks, new_pending built chunk (List.mem_of_getElem? found)]

/-- Putting a chunk in flight that is not acknowledged, or in the run already, moves nothing. -/
theorem Fronted.markInFlight (fronted : tracker.Fronted) (safe : tracker.passed id = true) :
    (tracker.markInFlight now id attempt).Fronted := by
  obtain ⟨change, kept, entered, changed⟩ := getElem?_markInFlight fronted.laid now id attempt
  have sameId : ∀ chunk, (change chunk).id = chunk.id := fun chunk => congrArg Prod.fst (kept chunk)
  refine ⟨fronted.laid.markInFlight, ?_, ?_, ?_⟩
  · intro position less
    rw [markInFlight_contiguousAcked] at less
    obtain ⟨chunk, found, acknowledged⟩ := fronted.front position less
    rw [changed, found, markInFlight_ackedIds]
    split
    · exact ⟨change chunk, rfl, by rwa [sameId]⟩
    · exact ⟨chunk, rfl, acknowledged⟩
  · intro position chunk found beyond low
    rw [markInFlight_contiguousAcked] at beyond
    rw [markInFlight_ackedIds]
    rw [changed] at found
    split at found
    · rename_i here
      obtain ⟨before, present, rfl⟩ := Option.map_eq_some_iff.mp found
      have named : before.id = id := by
        rw [id_of_getElem? fronted.laid present, here, UInt32.ofNat_toNat]
      have unacked : id ∉ tracker.ackedIds := by
        rcases Bool.or_eq_true_iff.mp safe with outside | run
        · simpa using outside
        · have less := UInt32.lt_iff_toNat_lt.mp (of_decide_eq_true run)
          omega
      simp [entered, sameId, named, unacked]
    · exact fronted.ahead position chunk found beyond low
  · intro chunk found
    rw [markInFlight_contiguousAcked, changed] at found
    rw [markInFlight_ackedIds]
    split at found
    · obtain ⟨before, present, rfl⟩ := Option.map_eq_some_iff.mp found
      rw [sameId]
      exact fronted.stopped before present
    · exact fronted.stopped chunk found

theorem Fronted.retransmit (fronted : tracker.Fronted) (safe : tracker.passed id = true) :
    (tracker.retransmit now id).Fronted := by
  unfold ChunkTracker.retransmit
  split
  · exact fronted
  · exact fronted.markInFlight safe

theorem advanceContiguous_le {chunks : List ChunkInfo}
    (advanced : advanceContiguous chunks contiguous = some reached) :
    contiguous.toNat ≤ reached.toNat := by
  unfold advanceContiguous at advanced
  have grows := (skipAcked_spec (chunks.drop contiguous.toNat) contiguous.toNat).1
  simp only at advanced
  split at advanced
  · rename_i small
    cases advanced
    rwa [UInt32.toNat_ofNat_of_lt' small]
  · cases advanced

theorem markAcked_contiguous_le (returned : tracker.markAcked id offset = some (fresh, after)) :
    tracker.contiguousAcked.toNat ≤ after.contiguousAcked.toNat := by
  rcases markAcked_contiguous returned with ⟨same, _⟩ | advanced
  · rw [same]
  · exact advanceContiguous_le advanced

/-- An acknowledgement writes both records, whatever happened to the run before. -/
theorem Fronted.markAcked (fronted : tracker.Fronted)
    (returned : tracker.markAcked id offset = some (fresh, after)) : after.Fronted := by
  obtain ⟨ids, ⟨_, same⟩ | ⟨_, changed⟩⟩ := getElem?_markAcked fronted.laid returned
  · exact same ▸ fronted
  · have laid := fronted.laid.markAcked returned
    have grows := markAcked_contiguous_le returned
    have ahead : ∀ position chunk, after.chunks[position]? = some chunk →
        tracker.contiguousAcked.toNat ≤ position → position < 2 ^ 32 →
        (chunk.state = .acked ↔ chunk.id ∈ after.ackedIds) := by
      intro position chunk found beyond low
      rw [ids]
      have named := id_of_getElem? laid found
      rw [changed] at found
      split at found
      · rename_i here
        obtain ⟨before, present, rfl⟩ := Option.map_eq_some_iff.mp found
        have named : before.id = id := by
          rw [id_of_getElem? fronted.laid present, here, UInt32.ofNat_toNat]
        simp [named]
      · rename_i elsewhere
        have apart : chunk.id ≠ id := by
          intro same
          rw [named] at same
          rw [← same, UInt32.toNat_ofNat_of_lt' low] at elsewhere
          exact elsewhere rfl
        simp [fronted.ahead position chunk found beyond low, apart]
    have front : ∀ position < tracker.contiguousAcked.toNat,
        ∃ chunk, after.chunks[position]? = some chunk ∧ chunk.id ∈ after.ackedIds := by
      intro position less
      obtain ⟨chunk, found, acknowledged⟩ := fronted.front position less
      have known : chunk.id ∈ insert id tracker.ackedIds := Finset.mem_insert_of_mem acknowledged
      rw [changed, found, ids]
      split
      · exact ⟨{ chunk with state := .acked }, rfl, known⟩
      · exact ⟨chunk, rfl, known⟩
    have stopsUnacked : ∀ chunk, after.chunks[after.contiguousAcked.toNat]? = some chunk →
      chunk.state ≠ .acked →
        chunk.id ∉ after.ackedIds := fun chunk found unacked acknowledged =>
      unacked ((ahead _ chunk found grows after.contiguousAcked.toNat_lt).mpr acknowledged)
    refine ⟨laid, ?_, fun position chunk found beyond => ahead position chunk found (by omega), ?_⟩
    · intro position less
      rcases markAcked_contiguous returned with ⟨sameCount, _⟩ | advanced
      · exact front position (sameCount ▸ less)
      · by_cases earlier : position < tracker.contiguousAcked.toNat
        · exact front position earlier
        · obtain ⟨chunk, found, acked⟩ := (advanceContiguous_spec advanced).1 position (by omega) less
          have low := after.contiguousAcked.toNat_lt
          exact ⟨chunk, found, (ahead position chunk found (by omega) (by omega)).mp acked⟩
    · rcases markAcked_contiguous returned with ⟨sameCount, sameChunks⟩ | advanced
      · intro chunk found
        have present := found
        rw [sameCount, sameChunks] at present
        have agree := fronted.ahead _ chunk present (Nat.le_refl _) tracker.contiguousAcked.toNat_lt
        exact stopsUnacked chunk found fun acked => fronted.stopped chunk present (agree.mp acked)
      · intro chunk found
        exact stopsUnacked chunk found ((advanceContiguous_spec advanced).2 chunk found)

theorem Fronted.act (fronted : tracker.Fronted) (safe : tracker.prefixSafe op = true)
    (taken : tracker.act op = some after) : after.Fronted := by
  cases op with
  | markInFlight =>
    cases taken
    exact fronted.markInFlight safe
  | markAcked =>
    obtain ⟨⟨_, _⟩, returned, rfl⟩ := Option.map_eq_some_iff.mp taken
    exact fronted.markAcked returned
  | nack =>
    cases taken
    exact fronted.retransmit safe

/-- Whatever the operation, the table keeps its layout and the counter does not fall. -/
theorem act_grows (taken : tracker.act op = some after) :
    after.totalBytes = tracker.totalBytes ∧
      after.chunks.map ChunkInfo.extent = tracker.chunks.map ChunkInfo.extent ∧
      tracker.contiguousAcked.toNat ≤ after.contiguousAcked.toNat := by
  have sent (now : Nat) (id attempt : UInt32) :
      (tracker.markInFlight now id attempt).totalBytes = tracker.totalBytes ∧
        (tracker.markInFlight now id attempt).chunks.map ChunkInfo.extent =
        tracker.chunks.map ChunkInfo.extent ∧
        tracker.contiguousAcked.toNat ≤ (tracker.markInFlight now id attempt).contiguousAcked.toNat :=
    ⟨by simp, markInFlight_extents tracker, by simp⟩
  cases op with
  | markInFlight now id attempt =>
    cases taken
    exact sent now id attempt
  | markAcked =>
    obtain ⟨⟨_, _⟩, returned, rfl⟩ := Option.map_eq_some_iff.mp taken
    exact ⟨markAcked_totalBytes returned, markAcked_extents returned, markAcked_contiguous_le returned⟩
  | nack now id =>
    cases taken
    unfold ChunkTracker.retransmit
    split
    · exact ⟨rfl, rfl, Nat.le_refl _⟩
    · exact sent now id _

theorem lastAckedOffset_eq_sum (tracker : ChunkTracker) : tracker.lastAckedOffset =
    (((tracker.chunks.map ChunkInfo.extent).take tracker.contiguousAcked.toNat).map
      (·.2.2)).sum := by
  rw [lastAckedOffset, ← List.map_take, List.map_map]
  rfl

theorem lastAckedOffset_le (taken : tracker.act op = some after) :
    tracker.lastAckedOffset ≤ after.lastAckedOffset := by
  obtain ⟨_, same, grows⟩ := act_grows taken
  rw [lastAckedOffset_eq_sum, lastAckedOffset_eq_sum, same]
  exact ((List.take_sublist_take_left grows).map _).sum_le_sum fun _ _ => Nat.zero_le _

theorem lastAckedOffset_eq (laid : tracker.Laid) : tracker.lastAckedOffset =
    (tracker.chunks[tracker.contiguousAcked.toNat]?.map (·.offset)).getD tracker.totalBytes := by
  have summed := laid.sum_take tracker.contiguousAcked.toNat
  rw [← lastAckedOffset_eq_sum, Nat.zero_add, List.getElem?_map, Option.map_map] at summed
  exact summed

theorem Fronted.find?_unacked (fronted : tracker.Fronted) :
    tracker.chunks.find? (fun chunk => chunk.id ∉ tracker.ackedIds) =
      tracker.chunks[tracker.contiguousAcked.toNat]? := by
  apply find?_eq_getElem?
  · intro earlier less chunk found
    obtain ⟨_, present, acknowledged⟩ := fronted.front earlier less
    cases Option.some.inj (present.symm.trans found)
    simpa using acknowledged
  · intro chunk found
    simpa using fronted.stopped chunk found

theorem Fronted.lastAckedOffset_eq_firstUnacked (fronted : tracker.Fronted) :
    tracker.lastAckedOffset = tracker.firstUnacked := by
  rw [lastAckedOffset_eq fronted.laid, firstUnacked, fronted.find?_unacked]

theorem Laid.firstUnacked_le (laid : tracker.Laid) : tracker.firstUnacked ≤ tracker.totalBytes ∧
    (tracker.firstUnacked = tracker.totalBytes ↔
      ∀ chunk ∈ tracker.chunks, chunk.id ∈ tracker.ackedIds) := by
  unfold firstUnacked
  cases found : tracker.chunks.find? fun chunk => chunk.id ∉ tracker.ackedIds with
  | none =>
    have every := List.find?_eq_none.mp found
    refine ⟨Nat.le_refl _, fun _ chunk member => ?_, fun _ => rfl⟩
    simpa using every chunk member
  | some chunk =>
    have member := List.mem_of_find?_eq_some found
    have unacked : chunk.id ∉ tracker.ackedIds := by simpa using List.find?_some found
    obtain ⟨nonempty, _, inside⟩ := laid.within chunk.extent (List.mem_map.mpr ⟨chunk, member, rfl⟩)
    have before : chunk.offset < tracker.totalBytes :=
      Nat.lt_of_lt_of_le (Nat.lt_add_of_pos_right nonempty) inside
    refine ⟨Nat.le_of_lt before, fun complete => absurd complete (Nat.ne_of_lt before), fun every => ?_⟩
    exact absurd (every chunk member) unacked

/-- In every run the last acknowledged offset does not fall; and where no operation puts in
flight a chunk acknowledged ahead of the contiguous run, it is where the first chunk begins
that has not been acknowledged. -/
theorem lastAckedOffset_reached (built : new chunkSize totalBytes = some start)
    (run : Execution act (fun tracker op => tracker.prefixSafe op = true) start ops tracker) :
    EveryStep act (fun before _ later => before.lastAckedOffset ≤ later.lastAckedOffset) start ops ∧
    tracker.lastAckedOffset = tracker.firstUnacked ∧ tracker.lastAckedOffset ≤ totalBytes ∧
    (tracker.lastAckedOffset = totalBytes ↔
      ∀ chunk ∈ tracker.chunks, chunk.id ∈ tracker.ackedIds) := by
  have grows : EveryStep act
      (fun before _ later => before.lastAckedOffset ≤ later.lastAckedOffset) start ops :=
    run.everyStep (fun _ => True) trivial fun _ _ _ _ _ taken => ⟨trivial, lastAckedOffset_le taken⟩
  have fronted : tracker.Fronted :=
    run.invariant Fronted (fun _ _ _ fronted safe taken => fronted.act safe taken) (new_fronted built)
  have total : tracker.totalBytes = totalBytes := by
    refine run.invariant (fun tracker => tracker.totalBytes = totalBytes) ?_ (new_fields built).2.2.1
    intro _ _ _ same _ taken
    rw [(act_grows taken).1, same]
  rw [fronted.lastAckedOffset_eq_firstUnacked, ← total]
  exact ⟨grows, rfl, fronted.laid.firstUnacked_le⟩

/-- Two ACKs out of order, one of them twice, and a NACK for the chunk acknowledged first. -/
theorem lastAckedOffset_reached_reordered :
    ∃ start tracker : ChunkTracker, new 4 8 = some start ∧
      Execution act (fun tracker op => tracker.prefixSafe op = true) start
        [.markInFlight 0 0 1, .markInFlight 0 1 1, .markAcked 1 8, .markAcked 1 8, .markAcked 0 4,
          .nack 7 1] tracker ∧
      tracker.lastAckedOffset = tracker.firstUnacked ∧ tracker.lastAckedOffset = 8 := by
  have built : new 4 8 = some ((new 4 8).get rfl) := rfl
  obtain ⟨tracker, run, complete⟩ := exists_execution
    (fun tracker => tracker.chunks.all fun chunk => chunk.id ∈ tracker.ackedIds)
    (show (replayWhere act prefixSafe ((new 4 8).get rfl)
      [.markInFlight 0 0 1, .markInFlight 0 1 1, .markAcked 1 8, .markAcked 1 8, .markAcked 0 4,
        .nack 7 1]).any _ =
        true by decide)
  obtain ⟨_, first, _, exactly⟩ := lastAckedOffset_reached built run
  exact ⟨_, tracker, built, run, first, exactly.mpr (by simpa using complete)⟩

/-- Both chunks are acknowledged, but a NACK for the second came between: the last
acknowledged offset stays at the start of that chunk. -/
theorem lastAckedOffset_stuck :
    ∃ start tracker : ChunkTracker, new 4 8 = some start ∧
      Execution act anything start
        [.markInFlight 0 0 1, .markInFlight 0 1 1, .markAcked 1 8, .nack 7 1, .markAcked 0 4,
          .markAcked 1 8] tracker ∧
      (∀ chunk ∈ tracker.chunks, chunk.id ∈ tracker.ackedIds) ∧ tracker.firstUnacked = 8 ∧
      tracker.lastAckedOffset = 4 :=
  ⟨_, _, rfl, execution_iff_replay.mpr rfl, by decide, rfl, rfl⟩

end ChunkTracker

end DistributedOs.Reliable
