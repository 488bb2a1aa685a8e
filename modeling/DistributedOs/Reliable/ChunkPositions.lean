import DistributedOs.Reliable.ChunkTracker

/-! Position by position: what each operation does to the chunk table. The id of a
chunk is its position modulo 2^32, so only the first 2^32 chunks can be looked up. -/

namespace DistributedOs.Reliable.ChunkTracker

open Semantics

variable {tracker after : ChunkTracker} {chunk : ChunkInfo} {id attempt : UInt32}
  {chunkSize totalBytes now offset position : Nat}

theorem id_of_getElem? (laid : tracker.Laid) (found : tracker.chunks[position]? = some chunk) :
    chunk.id = UInt32.ofNat position := by
  have extent : (tracker.chunks.map ChunkInfo.extent)[position]? = some chunk.extent := by simp [found]
  simpa [ChunkInfo.extent] using Tiles.id_of_getElem? laid extent

private theorem selects_at (laid : tracker.Laid) (id : UInt32) :
    (∀ earlier < id.toNat, ∀ chunk, tracker.chunks[earlier]? = some chunk →
      (chunk.id == id) = false) ∧
      ∀ chunk, tracker.chunks[id.toNat]? = some chunk → (chunk.id == id) = true := by
  constructor
  · intro earlier less chunk found
    rw [id_of_getElem? laid found, beq_eq_false_iff_ne]
    intro same
    have small : earlier < UInt32.size := Nat.lt_trans less id.toNat_lt
    rw [← same, UInt32.toNat_ofNat_of_lt' small] at less
    exact Nat.lt_irrefl _ less
  · intro _ found
    simp [id_of_getElem? laid found]

theorem chunk?_eq_getElem? (laid : tracker.Laid)
    (id : UInt32) : tracker.chunk? id = tracker.chunks[id.toNat]? :=
  find?_eq_getElem? (selects_at laid id).1 (selects_at laid id).2

theorem chunk?_of_mem (laid : tracker.Laid) (fits : tracker.chunks.length ≤ 2 ^ 32)
    (member : chunk ∈ tracker.chunks) :
    tracker.chunk? chunk.id = some chunk := by
  obtain ⟨position, found⟩ := List.getElem?_of_mem member
  have low : position < 2 ^ 32 := Nat.lt_of_lt_of_le (List.getElem?_eq_some_iff.mp found).1 fits
  rw [chunk?_eq_getElem? laid, id_of_getElem? laid found, UInt32.toNat_ofNat_of_lt' low, found]

theorem getElem?_setState (laid : tracker.Laid) (change : ChunkInfo → ChunkInfo) (position : Nat) :
    (tracker.setState id change)[position]? =
      if position = id.toNat then tracker.chunks[position]?.map change
      else tracker.chunks[position]? := by
  rw [setState, modifyFirst_eq_modify (selects_at laid id).1 (selects_at laid id).2,
    List.getElem?_modify]
  by_cases same : position = id.toNat
  · simp [same]
  · simp [same, Ne.symm same]

/-- The chunk found under the id, if there is one, is in a state that passes the test. -/
def chunkIs (tracker : ChunkTracker) (id : UInt32) (test : ChunkState → Bool) : Bool :=
  (tracker.chunk? id).all fun chunk => test chunk.state

theorem getElem?_markInFlight (laid : tracker.Laid) (now : Nat) (id attempt : UInt32) :
    ∃ change : ChunkInfo → ChunkInfo,
      (∀ chunk, (change chunk).extent = chunk.extent) ∧
      (∀ chunk, (change chunk).state = .inFlight now attempt) ∧
      ∀ position, (tracker.markInFlight now id attempt).chunks[position]? =
        if position = id.toNat then tracker.chunks[position]?.map change
        else tracker.chunks[position]? := by
  cases found : tracker.chunk? id with
  | none =>
    refine ⟨fun chunk => { chunk with state := .inFlight now attempt }, fun _ => rfl, fun _ => rfl, ?_⟩
    intro position
    rw [markInFlight_none found]
    split
    · rename_i same
      rw [chunk?_eq_getElem? laid, ← same] at found
      simp [found]
    · rfl
  | some =>
    obtain ⟨change, kept, entered, chunks, _⟩ := markInFlight_some found now attempt
    exact ⟨change, kept, entered, fun position => by rw [chunks, getElem?_setState laid]⟩

@[simp] theorem markInFlight_ackedIds (tracker : ChunkTracker) :
    (tracker.markInFlight now id attempt).ackedIds = tracker.ackedIds := by
  unfold markInFlight
  split <;> rfl

@[simp] theorem markInFlight_contiguousAcked (tracker : ChunkTracker) :
    (tracker.markInFlight now id attempt).contiguousAcked = tracker.contiguousAcked := by
  unfold markInFlight
  split <;> rfl

@[simp] theorem markInFlight_totalBytes (tracker : ChunkTracker) :
    (tracker.markInFlight now id attempt).totalBytes = tracker.totalBytes := by
  unfold markInFlight
  split <;> rfl

theorem Laid.markInFlight (laid : tracker.Laid) : (tracker.markInFlight now id attempt).Laid := by
  rw [Laid, markInFlight_totalBytes, markInFlight_extents]
  exact laid

theorem markAcked_totalBytes (returned : tracker.markAcked id offset = some (fresh, after)) :
    after.totalBytes = tracker.totalBytes := by
  rcases markAcked_cases returned with ⟨_, _, same⟩ | ⟨_, _, _, same⟩
    | ⟨_, _, _, _, _, _, same⟩ <;> rw [same]

theorem Laid.markAcked (laid : tracker.Laid)
    (returned : tracker.markAcked id offset = some (fresh, after)) : after.Laid := by
  rw [Laid, markAcked_totalBytes returned, markAcked_extents returned]
  exact laid

theorem getElem?_markAcked (laid : tracker.Laid)
    (returned : tracker.markAcked id offset = some (fresh, after)) :
    after.ackedIds = insert id tracker.ackedIds ∧
      (id ∈ tracker.ackedIds ∧ after = tracker ∨
        id ∉ tracker.ackedIds ∧ ∀ position, after.chunks[position]? =
          if position = id.toNat then tracker.chunks[position]?.map fun chunk =>
          { chunk with state := .acked }
          else tracker.chunks[position]?) := by
  rcases markAcked_cases returned with ⟨known, _, same⟩ | ⟨first, _, missing, same⟩ |
    ⟨first, _, chunk, found, contiguousAcked, _, same⟩
  · subst same
    exact ⟨(Finset.insert_eq_self.mpr known).symm, .inl ⟨known, rfl⟩⟩
  · subst same
    refine ⟨rfl, .inr ⟨first, fun position => ?_⟩⟩
    split
    · rename_i same
      rw [chunk?_eq_getElem? laid, ← same] at missing
      simp [missing]
    · rfl
  · subst same
    exact ⟨rfl, .inr ⟨first, fun position => getElem?_setState laid _ position⟩⟩

/-- The contiguous run stops at the end of the table or at a chunk that is not acknowledged. -/
theorem skipAcked_spec (chunks : List ChunkInfo) (contiguous : Nat) :
    contiguous ≤ skipAcked chunks contiguous ∧
      (∀ offset, contiguous + offset < skipAcked chunks contiguous →
        ∃ chunk, chunks[offset]? = some chunk ∧ chunk.state = .acked) ∧
      ∀ chunk, chunks[skipAcked chunks contiguous - contiguous]? = some chunk →
      chunk.state ≠ .acked := by
  induction chunks generalizing contiguous with
  | nil => simp [skipAcked]
  | cons next rest ih =>
    rw [skipAcked]
    split
    · rename_i stops
      refine ⟨Nat.le_refl _, fun offset less => by omega, ?_⟩
      simpa using stops
    · rename_i acked
      have acked : next.state = .acked := by simpa using acked
      obtain ⟨_, marked, stops⟩ := ih (contiguous + 1)
      refine ⟨by omega, ?_, ?_⟩
      · intro offset _
        cases offset with
        | zero => exact ⟨next, rfl, acked⟩
        | succ offset => exact marked offset (by omega)
      · have shifted : skipAcked rest (contiguous + 1) - contiguous =
            skipAcked rest (contiguous + 1) - (contiguous + 1) + 1 := by omega
        rw [shifted]
        exact stops

theorem advanceContiguous_spec {chunks : List ChunkInfo}
    (advanced : advanceContiguous chunks contiguous = some reached) :
    (∀ position, contiguous.toNat ≤ position → position < reached.toNat →
        ∃ chunk, chunks[position]? = some chunk ∧ chunk.state = .acked) ∧
      ∀ chunk, chunks[reached.toNat]? = some chunk → chunk.state ≠ .acked := by
  unfold advanceContiguous at advanced
  obtain ⟨grows, marked, stops⟩ := skipAcked_spec (chunks.drop contiguous.toNat) contiguous.toNat
  simp only at advanced
  split at advanced
  · rename_i small
    cases advanced
    rw [UInt32.toNat_ofNat_of_lt' small]
    constructor
    · intro position lower _
      have found := marked (position - contiguous.toNat) (by omega)
      rwa [List.getElem?_drop, Nat.add_sub_cancel' lower] at found
    · rwa [List.getElem?_drop, Nat.add_sub_cancel' grows] at stops
  · cases advanced

theorem markAcked_contiguous (returned : tracker.markAcked id offset = some (fresh, after)) :
    after.contiguousAcked = tracker.contiguousAcked ∧ after.chunks = tracker.chunks ∨
      advanceContiguous after.chunks tracker.contiguousAcked = some after.contiguousAcked := by
  rcases markAcked_cases returned with ⟨_, _, same⟩ | ⟨_, _, _, same⟩ | ⟨_, _, _, _, _, advanced, same⟩
  · subst same
    exact .inl ⟨rfl, rfl⟩
  · subst same
    exact .inl ⟨rfl, rfl⟩
  · subst same
    exact .inr advanced

end DistributedOs.Reliable.ChunkTracker
