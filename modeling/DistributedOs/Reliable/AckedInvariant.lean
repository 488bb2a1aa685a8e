import DistributedOs.Reliable.ChunkPositions
import DistributedOs.Reliable.Sender
import DistributedOs.Semantics.Execution

/-! Acknowledgement is recorded twice, as the state of the chunk and in `acked_ids`.
`mark_in_flight` writes only the first, so the two agree as long as it is never
called for an acknowledged chunk; among the sender's paths only the NACK branch can. -/

namespace DistributedOs.Reliable

open Semantics

variable {tracker after : ChunkTracker} {chunk : ChunkInfo} {id attempt : UInt32}
  {chunkSize totalBytes now offset clock : Nat} {config : ReliabilityConfig}
  {data : Slice} {sender next start : Sender} {event : SenderEvent} {written : List Frame}
  {phase : SenderPhase}

namespace ChunkTracker

/-- The two records agree and the contiguous run is as long as it can be. Chunks from
2^32 on cannot be looked up, so they stay pending. -/
structure AcksAgree (tracker : ChunkTracker) : Prop where
  laid : tracker.Laid
  low : ∀ position chunk, tracker.chunks[position]? = some chunk → chunk.state ≠ .pending →
    position < 2 ^ 32
  recorded : ∀ position chunk, tracker.chunks[position]? = some chunk → position < 2 ^ 32 →
    (chunk.state = .acked ↔ chunk.id ∈ tracker.ackedIds)
  contiguous : ∀ position < tracker.contiguousAcked.toNat,
    ∃ chunk, tracker.chunks[position]? = some chunk ∧ chunk.state = .acked
  stopped : ∀ chunk, tracker.chunks[tracker.contiguousAcked.toNat]? = some chunk → chunk.state ≠ .acked

theorem new_acksAgree (built : new chunkSize totalBytes = some tracker) : tracker.AcksAgree := by
  obtain ⟨noAcks, zero, total, _⟩ := new_fields built
  have pending : ∀ (position : Nat) (chunk : ChunkInfo), tracker.chunks[position]? = some chunk →
      chunk.state = .pending :=
    fun position chunk found => new_pending built chunk (List.mem_of_getElem? found)
  refine ⟨?_, ?_, ?_, ?_, ?_⟩
  · rw [Laid, total]
    exact new_tiles built
  · exact fun position chunk found left => absurd (pending position chunk found) left
  · intro position chunk found _
    simp [pending position chunk found, noAcks]
  · simp [zero]
  · intro chunk found
    simp [pending _ chunk found]

/-- `mark_in_flight` keeps the records in agreement when the chunk is not acknowledged. -/
theorem AcksAgree.markInFlight (agree : tracker.AcksAgree)
    (unacked : tracker.chunkIs id (· ≠ .acked) = true) :
    (tracker.markInFlight now id attempt).AcksAgree := by
  obtain ⟨change, kept, entered, changed⟩ := getElem?_markInFlight agree.laid now id attempt
  have here : ∀ chunk, tracker.chunks[id.toNat]? = some chunk → chunk.state ≠ .acked := by
    intro chunk found
    simpa [chunkIs, chunk?_eq_getElem? agree.laid, found] using unacked
  refine ⟨agree.laid.markInFlight, ?_, ?_, ?_, ?_⟩
  · intro position chunk found left
    rw [changed] at found
    split at found
    · rename_i same
      exact same ▸ id.toNat_lt
    · exact agree.low position chunk found left
  · intro position chunk found low
    rw [changed] at found
    rw [markInFlight_ackedIds]
    split at found
    · rename_i same
      obtain ⟨before, present, rfl⟩ := Option.map_eq_some_iff.mp found
      have sameId : (change before).id = before.id := congrArg Prod.fst (kept before)
      rw [entered, sameId, ← agree.recorded position before present low]
      simp [here before (same ▸ present)]
    · exact agree.recorded position chunk found low
  · intro position less
    rw [markInFlight_contiguousAcked] at less
    obtain ⟨chunk, found, acked⟩ := agree.contiguous position less
    have different : position ≠ id.toNat := fun same => here chunk (same ▸ found) acked
    exact ⟨chunk, by rw [changed, if_neg different, found], acked⟩
  · intro chunk found
    rw [markInFlight_contiguousAcked, changed] at found
    split at found
    · obtain ⟨_, _, rfl⟩ := Option.map_eq_some_iff.mp found
      simp [entered]
    · exact agree.stopped chunk found

theorem AcksAgree.retransmit (agree : tracker.AcksAgree)
    (unacked : tracker.chunkIs id (· ≠ .acked) = true) :
    (tracker.retransmit now id).AcksAgree := by
  unfold ChunkTracker.retransmit
  split
  · exact agree
  · exact agree.markInFlight unacked

/-- `mark_acked` writes both records, so it always keeps them in agreement. -/
theorem AcksAgree.markAcked (agree : tracker.AcksAgree)
    (returned : tracker.markAcked id offset = some (fresh, after)) : after.AcksAgree := by
  obtain ⟨ids, ⟨_, same⟩ | ⟨_, changed⟩⟩ := getElem?_markAcked agree.laid returned
  · exact same ▸ agree
  · have kept : ∀ (position : Nat) (chunk : ChunkInfo), tracker.chunks[position]? = some chunk →
      chunk.state = .acked →
        after.chunks[position]? = some chunk := by
      intro position chunk found acked
      rw [changed, found]
      split
      · simp [← acked]
      · rfl
    refine ⟨agree.laid.markAcked returned, ?_, ?_, ?_, ?_⟩
    · intro position chunk found left
      rw [changed] at found
      split at found
      · rename_i same
        exact same ▸ id.toNat_lt
      · exact agree.low position chunk found left
    · intro position chunk found low
      rw [changed] at found
      rw [ids]
      split at found
      · rename_i same
        obtain ⟨_, present, rfl⟩ := Option.map_eq_some_iff.mp found
        simp [id_of_getElem? agree.laid present, same]
      · rename_i different
        have apart : chunk.id ≠ id := by
          intro same
          have number := congrArg UInt32.toNat same
          rw [id_of_getElem? agree.laid found, UInt32.toNat_ofNat_of_lt' low] at number
          exact different number
        simp [agree.recorded position chunk found low, apart]
    · intro position less
      rcases markAcked_contiguous returned with ⟨sameCount, sameChunks⟩ | advanced
      · rw [sameCount] at less
        rw [sameChunks]
        exact agree.contiguous position less
      · by_cases earlier : position < tracker.contiguousAcked.toNat
        · obtain ⟨chunk, found, acked⟩ := agree.contiguous position earlier
          exact ⟨chunk, kept position chunk found acked, acked⟩
        · exact (advanceContiguous_spec advanced).1 position (by omega) less
    · rcases markAcked_contiguous returned with ⟨sameCount, sameChunks⟩ | advanced
      · rw [sameCount, sameChunks]
        exact agree.stopped
      · exact (advanceContiguous_spec advanced).2

theorem AcksAgree.chunk_acked (agree : tracker.AcksAgree) (acknowledged : id ∈ tracker.ackedIds)
    (found : tracker.chunk? id = some chunk) : chunk.state = .acked := by
  have present := found
  rw [chunk?_eq_getElem? agree.laid] at present
  rw [agree.recorded id.toNat chunk present id.toNat_lt, chunk?_id found]
  exact acknowledged

theorem AcksAgree.not_acknowledged (agree : tracker.AcksAgree)
    (found : tracker.chunk? id = some chunk) (unacked : chunk.state ≠ .acked) :
    id ∉ tracker.ackedIds :=
  fun acknowledged => unacked (agree.chunk_acked acknowledged found)

theorem AcksAgree.chunk?_inFlight (agree : tracker.AcksAgree) (member : chunk ∈ tracker.chunks)
    (flying : chunk.state.isInFlight = true) : tracker.chunk? chunk.id = some chunk := by
  obtain ⟨position, found⟩ := List.getElem?_of_mem member
  have low := agree.low position chunk found (by intro pending; simp [pending] at flying)
  rw [chunk?_eq_getElem? agree.laid, id_of_getElem? agree.laid found,
    UInt32.toNat_ofNat_of_lt' low, found]

/-- All chunks are acknowledged exactly when every id has been: the contiguous run
cannot stop at a chunk whose id was acknowledged, because it stops below 2^32. -/
theorem AcksAgree.allAcked_iff (agree : tracker.AcksAgree) :
    tracker.allAcked = true ↔ ∀ chunk ∈ tracker.chunks, chunk.id ∈ tracker.ackedIds := by
  have bound := tracker.contiguousAcked.toNat_lt
  rw [allAcked, beq_iff_eq]
  constructor
  · intro complete chunk member
    obtain ⟨position, found⟩ := List.getElem?_of_mem member
    have less : position < tracker.contiguousAcked.toNat :=
      complete ▸ (List.getElem?_eq_some_iff.mp found).1
    obtain ⟨_, present, acked⟩ := agree.contiguous position less
    cases Option.some.inj (present.symm.trans found)
    exact (agree.recorded position _ found (by omega)).mp acked
  · intro every
    have within : tracker.contiguousAcked.toNat ≤ tracker.chunks.length := by
      by_contra beyond
      obtain ⟨_, found, _⟩ := agree.contiguous tracker.chunks.length (by omega)
      simp at found
    by_contra short
    obtain ⟨chunk, found⟩ : ∃ chunk, tracker.chunks[tracker.contiguousAcked.toNat]? = some chunk :=
      ⟨_, List.getElem?_eq_getElem (by omega)⟩
    exact agree.stopped chunk found
      ((agree.recorded _ chunk found bound).mpr (every chunk (List.mem_of_getElem? found)))

end ChunkTracker

namespace Sender

/-- A NACK the loop handles does not name an acknowledged chunk, and the window fill
finds a pending chunk under the id it was given (so up to 2^32 chunks). -/
def acksSafe (sender : Sender) (event : SenderEvent) : Bool :=
  ((sender.arriving event).all fun frame =>
      frame.1 ≠ frameNack || sender.tracker.chunkIs frame.chunkId (· ≠ .acked)) &&
    match event with
    | .fill => sender.tracker.nextPending.all fun id => sender.tracker.chunkIs id (· = .pending)
    | _ => true

/-- The timeouts still to be handled are in flight, and the batch holds DATA of chunks
that are not acknowledged. -/
structure AcksKept (tracker : ChunkTracker) (phase : SenderPhase) : Prop where
  agree : tracker.AcksAgree
  due : ∀ timedOut, phase = .retransmit timedOut → ∀ id ∈ timedOut,
    ∃ chunk, tracker.chunk? id = some chunk ∧ chunk.state.isInFlight = true
  batched : ∀ batch count, phase = .fill batch count → ∀ id offset content,
    .data id offset content ∈ batch → id ∉ tracker.ackedIds

/-- What a step may do to acknowledgements: add some, and write no DATA of an old one. -/
def Respects (before after : ChunkTracker) (written : List Frame) : Prop :=
  before.ackedIds ⊆ after.ackedIds ∧ ∀ id offset content, .data id offset content ∈ written →
  id ∉ before.ackedIds

theorem start_acksKept (started : Sender.start data chunkSize config clock = some start) :
    AcksKept start.tracker start.phase := by
  obtain ⟨_, built, rfl⟩ := Option.map_eq_some_iff.mp started
  exact ⟨ChunkTracker.new_acksAgree built, by simp, by simp⟩

theorem mem_findTimedOut {rto : Nat} (member : id ∈ tracker.findTimedOut now rto) :
    ∃ chunk ∈ tracker.chunks, chunk.id = id ∧ chunk.state.isInFlight = true := by
  obtain ⟨chunk, present, picked⟩ := List.mem_filterMap.mp member
  cases flying : chunk.state with
  | inFlight =>
    simp only [flying] at picked
    split at picked
    · exact ⟨chunk, present, Option.some.inj picked, by simp [flying]⟩
    · cases picked
  | _ => simp [flying] at picked

theorem mem_resent {offset : UInt64}
    (member : Frame.data id offset content ∈ tracker.resent data other) :
    id = other ∧ ∃ info, tracker.chunk? other = some info := by
  unfold ChunkTracker.resent at member
  split at member
  · cases member
  · rename_i info found
    obtain ⟨rfl, _⟩ := Frame.data.inj (List.mem_singleton.mp member)
    exact ⟨rfl, info, found⟩

theorem not_mem_completionFrames {offset : UInt64} :
    Frame.data id offset content ∉ tracker.completionFrames data := by
  unfold ChunkTracker.completionFrames
  split <;> simp

theorem AcksKept.settled (agree : tracker.AcksAgree)
    (notScan : ∀ timedOut, phase ≠ .retransmit timedOut)
    (notFill : ∀ batch count, phase ≠ .fill batch count) : AcksKept tracker phase :=
  ⟨agree, fun timedOut same => absurd same (notScan timedOut), fun batch count same =>
    absurd same (notFill batch count)⟩

theorem AcksKept.completed (agree : tracker.AcksAgree) :
    AcksKept tracker tracker.completionPhase := by
  unfold ChunkTracker.completionPhase
  split <;> exact .settled agree (by simp) (by simp)

theorem Respects.same (silent : ∀ id offset content, Frame.data id offset content ∉ written) :
    Respects tracker tracker written :=
  ⟨Finset.Subset.refl _, fun id offset content member => absurd member (silent id offset content)⟩

theorem retransmit_ackedIds : (tracker.retransmit now id).ackedIds = tracker.ackedIds := by
  unfold ChunkTracker.retransmit
  split
  · rfl
  · exact ChunkTracker.markInFlight_ackedIds tracker

theorem Respects.resent (agree : tracker.AcksAgree)
    (unacked : tracker.chunkIs other (· ≠ .acked) = true) (rest : List Frame)
    (silent : ∀ id offset content, Frame.data id offset content ∉ rest) :
    Respects tracker (tracker.retransmit now other) (tracker.resent data other ++ rest) := by
  refine ⟨by rw [retransmit_ackedIds], fun id offset content member => ?_⟩
  rcases List.mem_append.mp member with again | later
  · obtain ⟨rfl, _, found⟩ := mem_resent again
    exact agree.not_acknowledged found (by simpa [ChunkTracker.chunkIs, found] using unacked)
  · exact absurd later (silent id offset content)

theorem inFlight_retransmit (agree : tracker.AcksAgree)
    (flying : ∃ chunk, tracker.chunk? other = some chunk ∧ chunk.state.isInFlight = true) :
    ∃ chunk, (tracker.retransmit now id).chunk? other = some chunk ∧
      chunk.state.isInFlight = true := by
  obtain ⟨chunk, found, flies⟩ := flying
  unfold ChunkTracker.retransmit
  split
  · exact ⟨chunk, found, flies⟩
  · rename_i info _
    obtain ⟨change, _, entered, changed⟩ :=
      ChunkTracker.getElem?_markInFlight agree.laid now id info.state.nextAttempt
    rw [ChunkTracker.chunk?_eq_getElem? agree.laid] at found
    rw [ChunkTracker.chunk?_eq_getElem? agree.laid.markInFlight, changed, found]
    split
    · exact ⟨change chunk, rfl, by simp [entered]⟩
    · exact ⟨chunk, rfl, flies⟩

/-- One safe step keeps the records in agreement, forgets no acknowledgement and
writes no DATA of an acknowledged chunk. -/
theorem AcksKept.move (kept : AcksKept sender.tracker sender.phase)
    (safe : sender.acksSafe event = true)
    (move : SenderStep data sender event tracker phase written) :
    AcksKept tracker phase ∧ Respects sender.tracker tracker written := by
  have agree := kept.agree
  cases move with
  | elapsed => exact ⟨kept, .same (by simp)⟩
  | exhausted => exact ⟨.settled agree (by simp) (by simp), .same (by simp)⟩
  | scanned =>
    refine ⟨⟨agree, ?_, by simp⟩, .same (by simp)⟩
    intro timedOut same id member
    cases same
    obtain ⟨chunk, present, rfl, flying⟩ := mem_findTimedOut member
    exact ⟨chunk, agree.chunk?_inFlight present flying, flying⟩
  | opened => exact ⟨⟨agree, by simp, by simp⟩, .same (by simp)⟩
  | closed => exact ⟨.settled agree (by simp) (by simp), .same (by simp)⟩
  | @resent id timedOut due =>
    have flying := kept.due _ due
    have unacked : sender.tracker.chunkIs id (· ≠ .acked) = true := by
      obtain ⟨chunk, found, flies⟩ := flying id (by simp)
      have notAcked : chunk.state ≠ .acked := by
        intro acked
        simp [acked] at flies
      simp [ChunkTracker.chunkIs, found, notAcked]
    refine ⟨⟨agree.retransmit unacked,
      ?_, by simp⟩, by simpa using Respects.resent agree unacked [] (by simp)⟩
    intro _ same other member
    cases same
    exact inFlight_retransmit agree (flying other (by simp [member]))
  | @filled batch batched id info filling next found =>
    have pending : info.state = .pending := by
      simpa [acksSafe, next, ChunkTracker.chunkIs, found, arriving, filling] using safe
    have notAcked : info.state ≠ .acked := by simp [pending]
    have unacked : sender.tracker.chunkIs id (· ≠ .acked) = true := by
      simp [ChunkTracker.chunkIs, found, notAcked]
    refine ⟨⟨agree.markInFlight unacked, by simp, ?_⟩, ⟨by simp, by simp⟩⟩
    intro _ _ same other offset content member
    cases same
    rw [ChunkTracker.markInFlight_ackedIds]
    rcases List.mem_append.mp member with earlier | last
    · exact kept.batched _ _ filling other offset content earlier
    · obtain ⟨rfl, _⟩ := Frame.data.inj (List.mem_singleton.mp last)
      exact agree.not_acknowledged found notAcked
  | spun => exact ⟨kept, .same (by simp)⟩
  | flushed filling =>
    exact ⟨.settled agree (by simp) (by simp), Finset.Subset.refl _, kept.batched _ _ filling⟩
  | waited => exact ⟨kept, .same (by simp)⟩
  | refused => exact ⟨.settled agree (by simp) (by simp), .same (by simp)⟩
  | acked arrived isAck marked =>
    refine ⟨.completed (agree.markAcked marked), ?_, fun _ _ _ member =>
      absurd member not_mem_completionFrames⟩
    rw [(ChunkTracker.getElem?_markAcked agree.laid marked).1]
    exact Finset.subset_insert _ _
  | @nacked _ frame arrived isNack =>
    have unacked : sender.tracker.chunkIs frame.chunkId (· ≠ .acked) = true := by
      have checked := (Bool.and_eq_true_iff.mp safe).1
      simpa [arrived, isNack] using checked
    exact ⟨.completed (agree.retransmit unacked), .resent agree unacked _ fun _ _ _ =>
      not_mem_completionFrames⟩
  | passed => exact ⟨.completed agree, .same fun _ _ _ => not_mem_completionFrames⟩
  | returned _ again =>
    refine ⟨.settled agree (by simp) (by simp), .same ?_⟩
    rcases again with rfl | rfl <;> simp

/-- In a run whose steps are all safe an acknowledged chunk stays `Acked`, is not sent
again and cannot exhaust its retries, and `all_acked` is exactly that every id has
been acknowledged. -/
theorem acked_final (started : Sender.start data chunkSize config clock = some start)
    (run : Execution (fun sender event => (sender.step data event).map Prod.fst)
      (fun sender event => sender.acksSafe event = true) start events sender) :
    (∀ id ∈ sender.tracker.ackedIds, ∀ chunk, sender.tracker.chunk? id = some chunk →
      chunk.state = .acked) ∧
    (∀ event next written, sender.acksSafe event = true →
      sender.step data event = some (next, written) →
      Respects sender.tracker next.tracker written) ∧
    (∀ chunk ∈ sender.tracker.chunks, ∀ sentAt attempt, chunk.state = .inFlight sentAt attempt →
      chunk.id ∉ sender.tracker.ackedIds) ∧
    (sender.tracker.allAcked = true ↔
      ∀ chunk ∈ sender.tracker.chunks, chunk.id ∈ sender.tracker.ackedIds) := by
  have kept : AcksKept sender.tracker sender.phase := by
    refine run.invariant (fun sender => AcksKept sender.tracker sender.phase) ?_ (start_acksKept started)
    intro _ event _ kept safe taken
    obtain ⟨⟨next, written⟩, stepped, rfl⟩ := Option.map_eq_some_iff.mp taken
    exact (kept.move safe (step_cases stepped)).1
  refine ⟨?_, ?_, ?_, kept.agree.allAcked_iff⟩
  · exact fun id acknowledged chunk found => kept.agree.chunk_acked acknowledged found
  · exact fun event next written safe taken => (kept.move safe (step_cases taken)).2
  · intro _ member _ _ flying
    have found := kept.agree.chunk?_inFlight member (by simp [flying])
    exact kept.agree.not_acknowledged found (by simp [flying])

theorem acked_final_two_acks :
    ∃ start sender, Sender.start eightBytes 4 .default 0 = some start ∧
      Execution (fun sender event => (sender.step eightBytes event).map Prod.fst)
        (fun sender event => sender.acksSafe event = true) start
        (turn 3 (encodeAck 0 4) ++ turn 1 (encodeAck 1 8)) sender ∧
      sender.phase = .finack ∧ ∀ chunk ∈ sender.tracker.chunks,
      chunk.id ∈ sender.tracker.ackedIds := by
  have started : Sender.start eightBytes 4 .default 0 =
      some ((Sender.start eightBytes 4 .default 0).get rfl) := rfl
  obtain ⟨sender, run, complete⟩ := exists_execution
    (fun sender : Sender => sender.phase = .finack && sender.tracker.allAcked)
    (show (replayWhere (fun sender event => (Sender.step eightBytes sender event).map Prod.fst) acksSafe
      ((Sender.start eightBytes 4 .default 0).get rfl)
      (turn 3 (encodeAck 0 4) ++ turn 1 (encodeAck 1 8))).any _ = true by decide)
  obtain ⟨closing, acked⟩ := Bool.and_eq_true_iff.mp complete
  exact ⟨_, sender, started, run, by simpa using closing, (acked_final started run).2.2.2.mp acked⟩

/-- Chunk 0 is acknowledged; then the ACK and the NACK arrive that the receiver sends
for a duplicate of it, and chunk 0 is in flight again. -/
theorem nack_revives_acked :
    ∃ start sender, Sender.start eightBytes 4 .default 0 = some start ∧
      Execution (fun sender event => (sender.step eightBytes event).map Prod.fst) anything start
        (turn 3 (encodeAck 0 4) ++ turn 1 (encodeAck 0 4) ++
          turn 1 ((encodeNack 0 0 1).take 13)) sender ∧
      0 ∈ sender.tracker.ackedIds ∧
      (sender.tracker.chunk? 0).map ChunkInfo.state = some (.inFlight 0 1) :=
  ⟨_, _, rfl, execution_iff_replay.mpr rfl, by decide, by decide⟩

end Sender

end DistributedOs.Reliable
