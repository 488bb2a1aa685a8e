import Mathlib.Data.Finset.Insert
import DistributedOs.Semantics.FirstMatch
import Mathlib.Algebra.GroupWithZero.Nat

/-! The sender's chunk table. Ids and counters are `u32` and wrap as release
arithmetic does; offsets and sizes never pass the transfer size. `Instant`s are
readings of one clock in milliseconds. -/

namespace DistributedOs.Reliable

open Semantics

inductive ChunkState where
  | pending
  | inFlight (sentAt : Nat) (attempt : UInt32)
  | acked
  | lost
  deriving DecidableEq, Repr

structure ChunkInfo where
  id : UInt32
  offset : Nat
  size : Nat
  state : ChunkState
  isRetransmit : Bool
  deriving DecidableEq, Repr

/-- Tracks the state of every chunk in a transfer. -/
structure ChunkTracker where
  chunks : List ChunkInfo
  ackedIds : Finset UInt32
  contiguousAcked : UInt32
  totalBytes : Nat
  inFlight : UInt32
  retransmits : UInt32
  deriving DecidableEq

def ChunkState.isInFlight : ChunkState → Bool
  | .inFlight _ _ => true
  | _ => false

@[simp] theorem ChunkState.isInFlight_inFlight : (inFlight sentAt attempt).isInFlight = true := rfl

@[simp] theorem ChunkState.isInFlight_acked : acked.isInFlight = false := rfl

@[simp] theorem ChunkState.isInFlight_pending : pending.isInFlight = false := rfl

def ChunkState.nextAttempt : ChunkState → UInt32
  | .inFlight _ attempt => attempt + 1
  | _ => 1

def chunkLoop (chunkSize totalBytes : Nat) : Nat → Nat → UInt32 → List ChunkInfo
  | 0, _, _ => []
  | fuel + 1, offset, id =>
    if offset < totalBytes then
      let size := min (totalBytes - offset) chunkSize
      { id, offset, size, state := .pending, isRetransmit := false } ::
        chunkLoop chunkSize totalBytes fuel (offset + size) (id + 1)
    else []

namespace ChunkTracker

/-- Every iteration covers at least one byte, so the total is fuel enough; with
`chunk_size` zero the source loop never ends and nothing is built. -/
def new (chunkSize totalBytes : Nat) : Option ChunkTracker :=
  if chunkSize = 0 ∧ 0 < totalBytes then none
  else some {
    chunks := chunkLoop chunkSize totalBytes totalBytes 0 0
    ackedIds := ∅
    contiguousAcked := 0
    totalBytes
    inFlight := 0
    retransmits := 0 }

/-- `chunks.iter().find(|c| c.id == id)`. -/
def chunk? (tracker : ChunkTracker) (id : UInt32) : Option ChunkInfo :=
  tracker.chunks.find? (·.id == id)

def setState (tracker : ChunkTracker) (id : UInt32) (change : ChunkInfo → ChunkInfo) :
    List ChunkInfo :=
  modifyFirst (·.id == id) change tracker.chunks

def markInFlight (tracker : ChunkTracker) (now : Nat) (id attempt : UInt32) : ChunkTracker :=
  match tracker.chunk? id with
  | none => tracker
  | some _ =>
    { tracker with
      chunks := tracker.setState id fun chunk =>
        { chunk with
          state := .inFlight now attempt
          isRetransmit := if attempt > 1 then true else chunk.isRetransmit }
      inFlight := tracker.inFlight + 1
      retransmits := if attempt > 1 then tracker.retransmits + 1 else tracker.retransmits }

def skipAcked : List ChunkInfo → Nat → Nat
  | [], contiguous => contiguous
  | next :: rest, contiguous =>
    if next.state ≠ .acked then contiguous else skipAcked rest (contiguous + 1)

/-- The loop that advances `contiguous_acked`. Past the last `u32` the counter
wraps to the start of the acknowledged run, so the loop never ends. -/
def advanceContiguous (chunks : List ChunkInfo) (contiguous : UInt32) : Option UInt32 :=
  let run := skipAcked (chunks.drop contiguous.toNat) contiguous.toNat
  if run < 2 ^ 32 then some (UInt32.ofNat run) else none

def markAcked (tracker : ChunkTracker) (id : UInt32) (_ackedOffset : Nat) :
    Option (Bool × ChunkTracker) :=
  if id ∈ tracker.ackedIds then some (false, tracker)
  else
    let recorded := { tracker with ackedIds := insert id tracker.ackedIds }
    match tracker.chunk? id with
    | none => some (true, recorded)
    | some _ =>
      let chunks := tracker.setState id fun chunk => { chunk with state := .acked }
      (advanceContiguous chunks tracker.contiguousAcked).map fun contiguousAcked =>
        (true, { recorded with
          chunks
          inFlight := if tracker.inFlight = 0 then 0 else tracker.inFlight - 1
          contiguousAcked })

def findTimedOut (tracker : ChunkTracker) (now rto : Nat) : List UInt32 :=
  tracker.chunks.filterMap fun chunk =>
    match chunk.state with
    | .inFlight sentAt _ => if now - sentAt > rto then some chunk.id else none
    | _ => none

def hasExhaustedRetries (tracker : ChunkTracker) (maxRetries : UInt32) : Bool :=
  tracker.chunks.any fun chunk =>
    match chunk.state with
    | .inFlight _ attempt => attempt > maxRetries
    | _ => false

def nextPending (tracker : ChunkTracker) : Option UInt32 :=
  (tracker.chunks.find? (·.state == .pending)).map (·.id)

def allAcked (tracker : ChunkTracker) : Bool :=
  tracker.contiguousAcked.toNat == tracker.chunks.length

def lastAckedOffset (tracker : ChunkTracker) : Nat :=
  ((tracker.chunks.take tracker.contiguousAcked.toNat).map (·.size)).sum

/-- What the timeout scan and the NACK branch of the sender do to the chunk they send again. -/
def retransmit (tracker : ChunkTracker) (now : Nat) (id : UInt32) : ChunkTracker :=
  match tracker.chunk? id with
  | none => tracker
  | some info => tracker.markInFlight now id info.state.nextAttempt

def outstanding (tracker : ChunkTracker) : Nat :=
  tracker.chunks.countP (·.state.isInFlight)

end ChunkTracker

/-- The part of a chunk that no operation changes. -/
def ChunkInfo.extent (chunk : ChunkInfo) : UInt32 × Nat × Nat :=
  (chunk.id, chunk.offset, chunk.size)

/-- Consecutive nonempty extents from `offset` to `total`, numbered from `index`. -/
inductive Tiles (total : Nat) : Nat → Nat → List (UInt32 × Nat × Nat) → Prop where
  | done : Tiles total index total []
  | next (nonempty : 0 < size) (within : offset + size ≤ total)
      (rest : Tiles total (index + 1) (offset + size) extents) :
      Tiles total index offset ((UInt32.ofNat index, offset, size) :: extents)

variable {tracker after : ChunkTracker} {chunk : ChunkInfo} {id attempt : UInt32}
  {chunkSize totalBytes offset index now fuel : Nat}

private theorem ofNat_succ (index : Nat) : UInt32.ofNat index + 1 = UInt32.ofNat (index + 1) := by
  apply UInt32.toNat_inj.mp
  simp [UInt32.toNat_add, UInt32.toNat_ofNat', Nat.add_mod]

private theorem chunkLoop_tiles (positive : 0 < chunkSize) (within : offset ≤ totalBytes)
    (enough : totalBytes - offset ≤ fuel) :
    Tiles totalBytes index offset
      ((chunkLoop chunkSize totalBytes fuel offset (UInt32.ofNat index)).map ChunkInfo.extent) := by
  induction fuel generalizing offset index with
  | zero =>
    have finished : offset = totalBytes := by omega
    simpa [chunkLoop, finished] using Tiles.done
  | succ _ ih =>
    by_cases more : offset < totalBytes
    · simp only [chunkLoop, more, ↓reduceIte, List.map_cons, ChunkInfo.extent, ofNat_succ]
      exact .next (by omega) (by omega) (ih (by omega) (by omega))
    · have finished : offset = totalBytes := by omega
      simpa [chunkLoop, finished] using Tiles.done

theorem ChunkTracker.new_tiles (built : ChunkTracker.new chunkSize totalBytes = some tracker) :
    Tiles totalBytes 0 0 (tracker.chunks.map ChunkInfo.extent) := by
  unfold ChunkTracker.new at built
  split at built
  · cases built
  · rename_i covered
    cases built
    rcases Nat.eq_zero_or_pos chunkSize with _ | positive
    · have empty : totalBytes = 0 := by omega
      simpa [empty, chunkLoop] using Tiles.done
    · exact chunkLoop_tiles positive (Nat.zero_le _) (Nat.sub_le _ _)

private theorem chunkLoop_pending :
    ∀ chunk ∈ chunkLoop chunkSize totalBytes fuel offset id, chunk.state = .pending := by
  induction fuel generalizing offset id with
  | zero => simp [chunkLoop]
  | succ _ ih =>
    simp only [chunkLoop]
    split
    · intro chunk member
      rcases List.mem_cons.mp member with same | later
      · rw [same]
      · exact ih chunk later
    · simp

theorem ChunkTracker.new_pending (built : ChunkTracker.new chunkSize totalBytes = some tracker) :
    ∀ chunk ∈ tracker.chunks, chunk.state = .pending := by
  unfold ChunkTracker.new at built
  split at built
  · cases built
  · cases built
    exact chunkLoop_pending

private theorem chunkLoop_size :
    ∀ chunk ∈ chunkLoop chunkSize totalBytes fuel offset id, chunk.size ≤ chunkSize := by
  induction fuel generalizing offset id with
  | zero => simp [chunkLoop]
  | succ _ ih =>
    simp only [chunkLoop]
    split
    · intro chunk member
      rcases List.mem_cons.mp member with same | later
      · rw [same]
        exact Nat.min_le_right _ _
      · exact ih chunk later
    · simp

theorem ChunkTracker.new_size (built : ChunkTracker.new chunkSize totalBytes = some tracker) :
    ∀ chunk ∈ tracker.chunks, chunk.size ≤ chunkSize := by
  unfold ChunkTracker.new at built
  split at built
  · cases built
  · cases built
    exact chunkLoop_size

theorem ChunkTracker.new_fields (built : ChunkTracker.new chunkSize totalBytes = some tracker) :
    tracker.ackedIds = ∅ ∧ tracker.contiguousAcked = 0 ∧ tracker.totalBytes = totalBytes ∧
      tracker.inFlight = 0 := by
  unfold ChunkTracker.new at built
  split at built
  · cases built
  · cases built
    exact ⟨rfl, rfl, rfl, rfl⟩

theorem Tiles.id_of_getElem? (tiles : Tiles total index offset extents)
    (found : extents[position]? = some extent) :
    extent.1 = UInt32.ofNat (index + position) := by
  induction tiles generalizing position with
  | done => simp at found
  | next _ _ _ ih =>
    cases position with
    | zero =>
      cases found
      rfl
    | succ =>
      rw [ih found]
      congr 1
      omega

theorem Tiles.within (tiles : Tiles total index offset extents) :
    ∀ extent ∈ extents, 0 < extent.2.2 ∧ offset ≤ extent.2.1 ∧ extent.2.1 + extent.2.2 ≤ total := by
  induction tiles with
  | done => simp
  | next nonempty within _ ih =>
    intro extent member
    rcases List.mem_cons.mp member with same | later
    · subst same
      exact ⟨nonempty, Nat.le_refl _, within⟩
    · obtain ⟨positive, _, upper⟩ := ih extent later
      exact ⟨positive, by omega, upper⟩

def ChunkTracker.Laid (tracker : ChunkTracker) : Prop :=
  Tiles tracker.totalBytes 0 0 (tracker.chunks.map ChunkInfo.extent)

namespace ChunkTracker

theorem chunk?_id (found : tracker.chunk? id = some chunk) : chunk.id = id := by
  simpa using List.find?_some found

theorem markInFlight_none (missing : tracker.chunk? id = none) :
    tracker.markInFlight now id attempt = tracker := by
  simp [markInFlight, missing]

theorem markInFlight_some (found : tracker.chunk? id = some chunk) (now : Nat) (attempt : UInt32) :
    ∃ change : ChunkInfo → ChunkInfo,
      (∀ chunk, (change chunk).extent = chunk.extent) ∧
      (∀ chunk, (change chunk).state = .inFlight now attempt) ∧
      (tracker.markInFlight now id attempt).chunks = tracker.setState id change ∧
      (tracker.markInFlight now id attempt).inFlight = tracker.inFlight + 1 ∧
      (tracker.markInFlight now id attempt).ackedIds = tracker.ackedIds ∧
      (tracker.markInFlight now id attempt).contiguousAcked = tracker.contiguousAcked ∧
      (tracker.markInFlight now id attempt).totalBytes = tracker.totalBytes := by
  refine ⟨fun chunk => { chunk with
      state := .inFlight now attempt
      isRetransmit := if attempt > 1 then true else chunk.isRetransmit },
    fun _ => rfl, fun _ => rfl, ?_⟩
  simp [markInFlight, found]

/-- The three ways `mark_acked` returns: a duplicate, an id no chunk has, and a
first acknowledgement of a chunk. -/
theorem markAcked_cases (returned : tracker.markAcked id offset = some (fresh, after)) :
    (id ∈ tracker.ackedIds ∧ fresh = false ∧ after = tracker) ∨
    (id ∉ tracker.ackedIds ∧ fresh = true ∧ tracker.chunk? id = none ∧
      after = { tracker with ackedIds := insert id tracker.ackedIds }) ∨
    (id ∉ tracker.ackedIds ∧ fresh = true ∧ ∃ chunk, tracker.chunk? id = some chunk ∧
      ∃ contiguousAcked,
      advanceContiguous (tracker.setState id fun chunk => { chunk with state := .acked })
          tracker.contiguousAcked = some contiguousAcked ∧
        after = { tracker with
          chunks := tracker.setState id fun chunk => { chunk with state := .acked }
          ackedIds := insert id tracker.ackedIds
          inFlight := if tracker.inFlight = 0 then 0 else tracker.inFlight - 1
          contiguousAcked }) := by
  unfold markAcked at returned
  split at returned
  · rename_i duplicate
    cases returned
    exact .inl ⟨duplicate, rfl, rfl⟩
  · rename_i first
    cases found : tracker.chunk? id with
    | none =>
      simp only [found] at returned
      cases returned
      exact .inr (.inl ⟨first, rfl, rfl, rfl⟩)
    | some chunk =>
      simp only [found] at returned
      obtain ⟨contiguousAcked, advanced, same⟩ := Option.map_eq_some_iff.mp returned
      cases same
      exact .inr (.inr ⟨first, rfl, chunk, rfl, contiguousAcked, advanced, rfl⟩)

theorem map_setState (kept : ∀ chunk, (change chunk).extent = chunk.extent) :
    (tracker.setState id change).map ChunkInfo.extent = tracker.chunks.map ChunkInfo.extent :=
  map_modifyFirst kept _

theorem markInFlight_extents (tracker : ChunkTracker) :
    (tracker.markInFlight now id attempt).chunks.map ChunkInfo.extent =
      tracker.chunks.map ChunkInfo.extent := by
  cases found : tracker.chunk? id with
  | none => rw [markInFlight_none found]
  | some =>
    obtain ⟨_, kept, _, chunks, _⟩ := markInFlight_some found now attempt
    rw [chunks, map_setState kept]

theorem markAcked_extents (returned : tracker.markAcked id offset = some (fresh, after)) :
    after.chunks.map ChunkInfo.extent = tracker.chunks.map ChunkInfo.extent := by
  rcases markAcked_cases returned with ⟨_, _, same⟩ | ⟨_, _, _, same⟩ | ⟨_, _, _, _, _, _, same⟩
  · rw [same]
  · rw [same]
  · rw [same]
    exact map_setState fun _ => rfl

end ChunkTracker

end DistributedOs.Reliable
