import DistributedOs.Reliable.ChunkPositions
import DistributedOs.Reliable.Sender

/-! What the sender has written at any time: DATA frames of the tracker's chunks, among
them every chunk that is no longer pending, and a FIN only after all of them. -/

namespace DistributedOs.Reliable

open Semantics

abbrev Extent := UInt32 × Nat × Nat

namespace Slice

def content (data : Slice) (extent : Extent) : Bytes := (data.bytes.drop extent.2.1).take extent.2.2

def extentFrame (data : Slice) (extent : Extent) : Frame :=
  .data extent.1 (UInt64.ofNat extent.2.1) (data.content extent)

end Slice

variable {data : Slice} {extents : List Extent}

def SenderPhase.batch : SenderPhase → List Frame
  | .fill batch _ => batch
  | _ => []

@[simp] theorem SenderPhase.batch_retransmit : (retransmit timedOut).batch = [] := rfl

@[simp] theorem SenderPhase.batch_fill (frames : List Frame)
    (count : UInt32) : (fill frames count).batch = frames :=
  rfl

@[simp] theorem SenderPhase.batch_select : select.batch = [] := rfl

@[simp] theorem SenderPhase.batch_finack : finack.batch = [] := rfl

@[simp] theorem SenderPhase.batch_finished : (finished result).batch = [] := rfl

/-- The DATA of every chunk is among the frames, and there are few enough chunks for
their ids to be different. -/
def Complete (data : Slice) (extents : List Extent) (frames : List Frame) : Prop :=
  extents.length < 2 ^ 32 ∧ ∀ extent ∈ extents, data.extentFrame extent ∈ frames

/-- The frame is the DATA of a chunk that can be looked up by its id. -/
def DataOf (data : Slice) (extents : List Extent) (frame : Frame) : Prop :=
  ∃ extent, extents[extent.1.toNat]? = some extent ∧ frame = data.extentFrame extent

/-- A chunk that is not pending is among the frames, and none in the contiguous run is pending. -/
structure Covers (data : Slice) (extents : List Extent) (tracker : ChunkTracker)
    (frames : List Frame) : Prop where
  laid : tracker.Laid
  total : tracker.totalBytes = data.bytes.length
  same : tracker.chunks.map ChunkInfo.extent = extents
  contiguous : ∀ position < tracker.contiguousAcked.toNat,
    ∃ chunk, tracker.chunks[position]? = some chunk ∧ chunk.state ≠ .pending
  covered : ∀ (position : Nat) (chunk : ChunkInfo), tracker.chunks[position]? = some chunk →
    chunk.state ≠ .pending →
    data.extentFrame chunk.extent ∈ frames

/-- Everything about the frames written so far that delivery needs; the last two say
that a FIN comes after the DATA of every chunk. -/
structure Wrote (data : Slice) (extents : List Extent) (tracker : ChunkTracker)
    (phase : SenderPhase) (sent : List Frame) : Prop where
  covers : Covers data extents tracker (sent ++ phase.batch)
  shaped : ∀ frame ∈ sent, frame = .fin 0 data.total ∨ DataOf data extents frame
  batched : ∀ frame ∈ phase.batch, DataOf data extents frame
  closed : ∀ before after, sent = before ++ .fin 0 data.total :: after → Complete data extents before
  finishing : phase = .finack → Complete data extents sent

variable {tracker after : ChunkTracker} {chunk : ChunkInfo} {id attempt : UInt32} {info : ChunkInfo}
  {frames more sent written before : List Frame} {phase : SenderPhase} {sender : Sender}
  {event : SenderEvent} {now offset : Nat}

theorem Complete.mono (complete : Complete data extents frames) (among : frames ⊆ more) :
    Complete data extents more :=
  ⟨complete.1, fun extent member => among (complete.2 extent member)⟩

theorem dataFrame_eq (found : tracker.chunk? id = some info) :
    data.dataFrame id info = data.extentFrame info.extent := by
  rw [← ChunkTracker.chunk?_id found]
  rfl

namespace Covers

theorem mono (covers : Covers data extents tracker frames) (among : frames ⊆ more) :
    Covers data extents tracker more :=
  { covers with covered := fun position chunk found sent => among (covers.covered position chunk found sent) }

theorem getElem?_extents (covers : Covers data extents tracker frames)
    (found : tracker.chunk? id = some info) :
    extents[info.extent.1.toNat]? = some info.extent := by
  have named : info.extent.1 = id := ChunkTracker.chunk?_id found
  rw [ChunkTracker.chunk?_eq_getElem? covers.laid] at found
  rw [named, ← covers.same, List.getElem?_map, found]
  rfl

theorem markInFlight (covers : Covers data extents tracker frames)
    (found : tracker.chunk? id = some info) :
    Covers data extents (tracker.markInFlight now id attempt)
      (frames ++ [data.dataFrame id info]) := by
  obtain ⟨change, kept, entered, changed⟩ := ChunkTracker.getElem?_markInFlight
    covers.laid now id attempt
  have here := found
  rw [ChunkTracker.chunk?_eq_getElem? covers.laid] at here
  refine ⟨covers.laid.markInFlight, by rw [ChunkTracker.markInFlight_totalBytes, covers.total],
    by rw [ChunkTracker.markInFlight_extents, covers.same], ?_, ?_⟩
  · intro position less
    rw [ChunkTracker.markInFlight_contiguousAcked] at less
    obtain ⟨chunk, present, left⟩ := covers.contiguous position less
    rw [changed, present]
    split
    · exact ⟨change chunk, rfl, by simp [entered]⟩
    · exact ⟨chunk, rfl, left⟩
  · intro position chunk present left
    rw [changed] at present
    split at present
    · rename_i same
      rw [same, here] at present
      cases present
      rw [kept, dataFrame_eq found]
      simp
    · exact List.mem_append_left _ (covers.covered position chunk present left)

theorem retransmit (covers : Covers data extents tracker frames) :
    Covers data extents (tracker.retransmit now id) (frames ++ tracker.resent data id) := by
  unfold ChunkTracker.retransmit ChunkTracker.resent
  cases found : tracker.chunk? id with
  | none => simpa using covers
  | some => exact covers.markInFlight found

/-- An ACK of a chunk that was sent needs no new frame. -/
theorem markAcked (covers : Covers data extents tracker frames)
    (known : tracker.chunkIs id (· ≠ .pending) = true)
    (returned : tracker.markAcked id offset = some (fresh, after)) :
    Covers data extents after frames := by
  obtain ⟨_, ⟨_, same⟩ | ⟨_, changed⟩⟩ := ChunkTracker.getElem?_markAcked covers.laid returned
  · exact same ▸ covers
  · have left : ∀ (position : Nat) (chunk : ChunkInfo), after.chunks[position]? = some chunk →
        chunk.state ≠ .pending → ∃ before, tracker.chunks[position]? = some before ∧
          before.extent = chunk.extent ∧ before.state ≠ .pending := by
      intro position chunk present left
      rw [changed] at present
      split at present
      · rename_i same
        obtain ⟨before, earlier, rfl⟩ := Option.map_eq_some_iff.mp present
        rw [ChunkTracker.chunkIs, ChunkTracker.chunk?_eq_getElem? covers.laid, ← same, earlier] at known
        exact ⟨before, earlier, rfl, by simpa using known⟩
      · exact ⟨chunk, present, rfl, left⟩
    have stays : ∀ position < tracker.contiguousAcked.toNat,
        ∃ chunk, after.chunks[position]? = some chunk ∧ chunk.state ≠ .pending := by
      intro position less
      obtain ⟨chunk, present, sent⟩ := covers.contiguous position less
      rw [changed, present]
      split
      · exact ⟨{ chunk with state := .acked }, rfl, by simp⟩
      · exact ⟨chunk, rfl, sent⟩
    have laid := covers.laid.markAcked returned
    have same := ChunkTracker.markAcked_extents returned
    refine ⟨laid, ?_, by rw [same, covers.same], ?_, ?_⟩
    · rw [ChunkTracker.markAcked_totalBytes returned, covers.total]
    · intro position less
      rcases ChunkTracker.markAcked_contiguous returned with ⟨sameCount, _⟩ | advanced
      · exact stays position (sameCount ▸ less)
      · by_cases earlier : position < tracker.contiguousAcked.toNat
        · exact stays position earlier
        · obtain ⟨chunk, present, acked⟩ :=
            (ChunkTracker.advanceContiguous_spec advanced).1 position (by omega) less
          exact ⟨chunk, present, by simp [acked]⟩
    · intro position chunk present sent
      obtain ⟨before, earlier, sameExtent, wasSent⟩ := left position chunk present sent
      exact sameExtent ▸ covers.covered position before earlier wasSent

theorem complete (covers : Covers data extents tracker frames)
    (allAcked : tracker.allAcked = true) :
    Complete data extents frames := by
  have length : tracker.contiguousAcked.toNat = tracker.chunks.length := by
    simpa [ChunkTracker.allAcked] using allAcked
  have bound := tracker.contiguousAcked.toNat_lt
  refine ⟨by rw [← covers.same, List.length_map, ← length]; exact bound, ?_⟩
  rw [← covers.same]
  intro _ member
  obtain ⟨_, present, rfl⟩ := List.mem_map.mp member
  obtain ⟨position, found⟩ := List.getElem?_of_mem present
  obtain ⟨_, same, sent⟩ := covers.contiguous position (length ▸ (List.getElem?_eq_some_iff.mp found).1)
  cases Option.some.inj (same.symm.trans found)
  exact covers.covered position _ found sent

theorem dataOf_dataFrame (covers : Covers data extents tracker frames)
    (found : tracker.chunk? id = some info) :
    DataOf data extents (data.dataFrame id info) :=
  ⟨info.extent, covers.getElem?_extents found, dataFrame_eq found⟩

theorem dataOf_resent (covers : Covers data extents tracker frames)
    (member : frame ∈ tracker.resent data id) :
    DataOf data extents frame := by
  unfold ChunkTracker.resent at member
  cases found : tracker.chunk? id with
  | none => simp [found] at member
  | some =>
    simp only [found, List.mem_singleton] at member
    exact member ▸ covers.dataOf_dataFrame found

end Covers

/-- The chunk an ACK names has been sent: the loop does not handle an ACK that no
DATA frame has caused. -/
def Sender.ackKnown (sender : Sender) (event : SenderEvent) : Bool :=
  (sender.arriving event).all fun frame =>
    frame.1 ≠ frameAck || sender.tracker.chunkIs frame.chunkId (· ≠ .pending)

namespace Wrote

private theorem closed_append
    (closed : ∀ before after, sent = before ++ .fin 0 data.total :: after →
      Complete data extents before)
    (late : ∀ front back, written = front ++ .fin 0 data.total :: back →
      Complete data extents (sent ++ front)) :
    ∀ before after, sent ++ written = before ++ .fin 0 data.total :: after →
      Complete data extents before := by
  intro before after split
  rcases List.append_eq_append_iff.mp split with ⟨front, rfl, here⟩ | ⟨back, earlier, here⟩
  · exact late front after here
  · cases back with
    | nil =>
      have complete := late [] after (by simpa using here.symm)
      rw [earlier, List.append_nil, List.append_nil] at complete
      exact complete
    | cons _ back =>
      obtain ⟨rfl, _⟩ := List.cons.inj here
      exact closed before back earlier

private theorem closed_append_data
    (closed : ∀ before after, sent = before ++ .fin 0 data.total :: after →
      Complete data extents before)
    (only : ∀ frame ∈ written, DataOf data extents frame) :
    ∀ before after, sent ++ written = before ++ .fin 0 data.total :: after →
      Complete data extents before := by
  refine closed_append closed fun front back here => ?_
  obtain ⟨_, _, same⟩ := only (.fin 0 data.total) (by simp [here])
  cases same

theorem quiet (wrote : Wrote data extents tracker phase sent) (batch : other.batch = phase.batch)
    (notClosing : other ≠ .finack) : Wrote data extents tracker other (sent ++ []) := by
  rw [List.append_nil]
  exact ⟨batch ▸ wrote.covers, wrote.shaped, batch ▸ wrote.batched, wrote.closed,
    fun closing => absurd closing notClosing⟩

theorem completed (covers : Covers data extents tracker sent)
    (shaped : ∀ frame ∈ sent, frame = .fin 0 data.total ∨ DataOf data extents frame)
    (closed : ∀ before after, sent = before ++ .fin 0 data.total :: after →
      Complete data extents before) :
    Wrote data extents tracker tracker.completionPhase (sent ++ tracker.completionFrames data) := by
  unfold ChunkTracker.completionPhase ChunkTracker.completionFrames
  cases allAcked : tracker.allAcked with
  | false =>
    simp only [Bool.false_eq_true, ↓reduceIte, List.append_nil]
    exact ⟨by simpa [SenderPhase.batch] using covers, shaped, by simp [SenderPhase.batch], closed, by simp⟩
  | true =>
    simp only [↓reduceIte]
    have complete := covers.complete allAcked
    have more : sent ⊆ sent ++ [.fin 0 data.total] := List.subset_append_left _ _
    refine ⟨by simpa [SenderPhase.batch] using covers.mono more, ?_, by simp [SenderPhase.batch],
      closed_append closed fun front back here => complete.mono (List.subset_append_left _ _),
      fun _ => complete.mono more⟩
    intro frame member
    rcases List.mem_append.mp member with earlier | last
    · exact shaped frame earlier
    · exact .inl (List.mem_singleton.mp last)

theorem append (wrote : Wrote data extents tracker phase sent)
    (covers : Covers data extents after (sent ++ written))
    (only : ∀ frame ∈ written, DataOf data extents frame) (empty : other.batch = [])
    (notClosing : other ≠ .finack) :
    Wrote data extents after other (sent ++ written) := by
  refine ⟨by simpa [empty] using covers, ?_, by simp [empty], closed_append_data wrote.closed only,
    fun closing => absurd closing notClosing⟩
  intro frame member
  rcases List.mem_append.mp member with earlier | last
  · exact wrote.shaped frame earlier
  · exact .inr (only frame last)

/-- One step that handles no unknown ACK keeps everything delivery needs. -/
theorem move (wrote : Wrote data extents sender.tracker sender.phase sent)
    (known : sender.ackKnown event = true)
    (move : SenderStep data sender event tracker phase written) :
    Wrote data extents tracker phase (sent ++ written) := by
  have covers := wrote.covers
  cases move with
  | elapsed => simpa using wrote
  | exhausted top => exact wrote.quiet (by rw [top]; rfl) (by simp)
  | scanned top => exact wrote.quiet (by rw [top]; rfl) (by simp)
  | opened ceased => exact wrote.quiet (by rw [ceased]; rfl) (by simp)
  | closed ceased => exact wrote.quiet (by rw [ceased]; rfl) (by simp)
  | @resent _ _ due =>
    rw [due, SenderPhase.batch_retransmit, List.append_nil] at covers
    exact wrote.append covers.retransmit (fun _ => covers.dataOf_resent) rfl (by simp)
  | @filled _ _ _ _ filling _ found =>
    have batchedData := wrote.batched
    rw [filling, SenderPhase.batch_fill] at covers batchedData
    rw [List.append_nil]
    refine ⟨by simpa using covers.markInFlight found, wrote.shaped, ?_, wrote.closed, by simp⟩
    intro frame member
    rcases List.mem_append.mp member with earlier | last
    · exact batchedData frame earlier
    · exact List.mem_singleton.mp last ▸ covers.dataOf_dataFrame found
  | spun => simpa using wrote
  | flushed filling =>
    have batchedData := wrote.batched
    rw [filling, SenderPhase.batch_fill] at covers batchedData
    exact wrote.append covers batchedData rfl (by simp)
  | waited => simpa using wrote
  | refused select => exact wrote.quiet (by rw [select]; rfl) (by simp)
  | @acked _ _ _ frame arrived isAck marked =>
    have sentChunk : sender.tracker.chunkIs frame.chunkId (· ≠ .pending) = true := by
      simpa [Sender.ackKnown, arrived, isAck] using known
    rw [Sender.arriving_select arrived, SenderPhase.batch_select, List.append_nil] at covers
    exact completed (covers.markAcked sentChunk marked) wrote.shaped wrote.closed
  | @nacked _ frame arrived =>
    rw [Sender.arriving_select arrived, SenderPhase.batch_select, List.append_nil] at covers
    have resent : Covers data extents (sender.tracker.retransmit sender.clock frame.chunkId)
        (sent ++ sender.tracker.resent data frame.chunkId) := covers.retransmit
    have again := wrote.append resent (fun _ => covers.dataOf_resent) SenderPhase.batch_select (by simp)
    rw [← List.append_assoc]
    exact completed resent again.shaped again.closed
  | passed select =>
    rw [select, SenderPhase.batch_select, List.append_nil] at covers
    exact completed covers wrote.shaped wrote.closed
  | returned closing again =>
    have complete := wrote.finishing closing
    rw [closing, SenderPhase.batch_finack, List.append_nil] at covers
    refine ⟨by simpa using covers.mono (List.subset_append_left _ _), ?_, by simp,
      closed_append wrote.closed fun front back _ =>
      complete.mono (List.subset_append_left _ _), by simp⟩
    intro frame member
    rcases List.mem_append.mp member with earlier | last
    · exact wrote.shaped frame earlier
    · rcases again with rfl | rfl
      · cases last
      · exact .inl (List.mem_singleton.mp last)

end Wrote

end DistributedOs.Reliable
