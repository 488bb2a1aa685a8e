import DistributedOs.Semantics.Execution
import Mathlib.Data.List.AList
import Mathlib.Data.List.Nodup
import Mathlib.Data.Nat.Find
import Mathlib.Algebra.Group.Nat.Defs

/-! Checkpoints of interrupted transfers. A product that 64 bits do not hold panics. -/

namespace DistributedOs.Engine

open Semantics

structure TransferCheckpoint where
  fileSize : UInt64
  chunkSize : UInt64
  completedChunks : List UInt64

structure RecoveryStore where
  checkpoints : AList fun _ : String => TransferCheckpoint

structure TransferStatus where
  clientOffset : Nat
  serverOffset : Nat
  canResume : Bool
  completedChunks : Nat
  totalSize : Nat

def checkedMul (x y : Nat) : Option Nat := if x * y < 2 ^ 64 then some (x * y) else none

namespace RecoveryStore

def getResumeOffset (store : RecoveryStore) (transferId : String) : Option Nat :=
  match store.checkpoints.lookup transferId with
  | some checkpoint => checkedMul checkpoint.completedChunks.length checkpoint.chunkSize.toNat
  | none => some 0

def recordChunk (store : RecoveryStore) (transferId : String) (chunkIndex : UInt64) :
    RecoveryStore :=
  match store.checkpoints.lookup transferId with
  | some checkpoint =>
    if chunkIndex ∈ checkpoint.completedChunks then store
    else
      let completedChunks := checkpoint.completedChunks ++ [chunkIndex]
      { checkpoints := store.checkpoints.insert transferId { checkpoint with completedChunks } }
  | none => store

def remove (store : RecoveryStore) (transferId : String) : RecoveryStore :=
  { checkpoints := store.checkpoints.erase transferId }

/-- `/api/transfer-status` of the dashboard, which multiplies for itself. -/
def transferStatus (store : RecoveryStore) (id : String) (clientOffset : UInt64) :
    Option TransferStatus :=
  let checkpoint := store.checkpoints.lookup id
  let serverOffset := match checkpoint with
    | some c => checkedMul c.completedChunks.length c.chunkSize.toNat
    | none => some 0
  serverOffset.map fun serverOffset =>
    { clientOffset := clientOffset.toNat
      serverOffset
      canResume := 0 < serverOffset && clientOffset.toNat ≤ serverOffset
      completedChunks := (checkpoint.map fun c => c.completedChunks.length).getD 0
      totalSize := (checkpoint.map fun c => c.fileSize.toNat).getD 0 }

end RecoveryStore

namespace TransferCheckpoint

def Recorded (checkpoint : TransferCheckpoint) (byte : Nat) : Prop :=
  byte / checkpoint.chunkSize.toNat ∈ checkpoint.completedChunks.map UInt64.toNat

instance (checkpoint : TransferCheckpoint) (byte : Nat) : Decidable (checkpoint.Recorded byte) :=
  inferInstanceAs (Decidable (_ ∈ _))

/-- The length of the longest prefix of the file of which every byte lies in a recorded chunk. -/
def contiguousPrefix (checkpoint : TransferCheckpoint) : Nat :=
  Nat.findGreatest (fun length => ∀ byte < length, checkpoint.Recorded byte) checkpoint.fileSize.toNat

theorem le_contiguousPrefix_iff {checkpoint : TransferCheckpoint} :
    offset ≤ checkpoint.contiguousPrefix ↔
      offset ≤ checkpoint.fileSize.toNat ∧ ∀ byte < offset, checkpoint.Recorded byte := by
  constructor
  · intro below
    refine ⟨Nat.le_trans below (Nat.findGreatest_le _), fun byte less => ?_⟩
    have whole : ∀ byte < checkpoint.contiguousPrefix, checkpoint.Recorded byte :=
      Nat.findGreatest_spec (P := fun length => ∀ byte < length, checkpoint.Recorded byte)
        (Nat.zero_le _) nofun
    exact whole byte (Nat.lt_of_lt_of_le less below)
  · rintro ⟨within, recorded⟩
    exact Nat.le_findGreatest within recorded

/-- A resume after the recorded chunks, counted as if they were the first ones, skips nothing. -/
def Resumable (checkpoint : TransferCheckpoint) : Prop :=
  checkpoint.completedChunks.length * checkpoint.chunkSize.toNat ≤ checkpoint.contiguousPrefix

variable {checkpoint : TransferCheckpoint} {chunkIndex : UInt64}

theorem resumable_of_zero (zero : checkpoint.chunkSize = 0) : checkpoint.Resumable := by
  simp [Resumable, zero]

theorem Resumable.first_recorded (resumable : checkpoint.Resumable)
    (positive : checkpoint.chunkSize ≠ 0) :
    ∀ index < checkpoint.completedChunks.length,
      index ∈ checkpoint.completedChunks.map UInt64.toNat := by
  intro _ less
  have size : 0 < checkpoint.chunkSize.toNat :=
    Nat.pos_of_ne_zero fun zero => positive (UInt64.toNat_inj.mp zero)
  have below := Nat.mul_lt_mul_of_pos_right less size
  have recorded := (le_contiguousPrefix_iff.mp resumable).2 _ below
  rwa [Recorded, Nat.mul_div_cancel _ size] at recorded

theorem Resumable.next_unrecorded (resumable : checkpoint.Resumable)
    (positive : checkpoint.chunkSize ≠ 0) :
    checkpoint.completedChunks.length ∉ checkpoint.completedChunks.map UInt64.toNat := by
  intro recorded
  have first := resumable.first_recorded positive
  have all : List.range (checkpoint.completedChunks.length + 1) ⊆
      checkpoint.completedChunks.map UInt64.toNat := by
    intro index less
    rcases Nat.lt_succ_iff_lt_or_eq.mp (List.mem_range.mp less) with before | last
    · exact first index before
    · exact last ▸ recorded
  have many := (List.subperm_of_subset List.nodup_range all).length_le
  rw [List.length_range, List.length_map] at many
  omega

/-- One more chunk leaves a checkpoint resumable exactly when it is the next one and not cut short. -/
theorem resumable_append_iff (resumable : checkpoint.Resumable) (chunkIndex : UInt64) :
    { checkpoint with completedChunks := checkpoint.completedChunks ++ [chunkIndex] }.Resumable ↔
      checkpoint.chunkSize = 0 ∨ (chunkIndex.toNat = checkpoint.completedChunks.length ∧
        (checkpoint.completedChunks.length + 1) * checkpoint.chunkSize.toNat ≤
        checkpoint.fileSize.toNat) := by
  by_cases zero : checkpoint.chunkSize = 0
  · exact iff_of_true (resumable_of_zero zero) (.inl zero)
  have size : 0 < checkpoint.chunkSize.toNat :=
    Nat.pos_of_ne_zero fun none => zero (UInt64.toNat_inj.mp none)
  have first := resumable.first_recorded zero
  rw [or_iff_right zero, Resumable, le_contiguousPrefix_iff]
  simp only [List.length_append, List.length_singleton, Recorded, List.map_append,
    List.map_singleton, List.mem_append,
    List.mem_singleton]
  constructor
  · rintro ⟨within, recorded⟩
    have next := recorded (checkpoint.completedChunks.length * checkpoint.chunkSize.toNat)
      (Nat.mul_lt_mul_of_pos_right (Nat.lt_succ_self _) size)
    rw [Nat.mul_div_cancel _ size] at next
    exact ⟨(next.resolve_left (resumable.next_unrecorded zero)).symm, within⟩
  · rintro ⟨next, within⟩
    refine ⟨within, fun byte less => ?_⟩
    have chunk : byte / checkpoint.chunkSize.toNat < checkpoint.completedChunks.length + 1 :=
      (Nat.div_lt_iff_lt_mul size).mpr less
    rcases Nat.lt_succ_iff_lt_or_eq.mp chunk with before | last
    · exact .inl (first _ before)
    · exact .inr (last.trans next.symm)

end TransferCheckpoint

inductive RecoveryCall where
  | recordChunk (transferId : String) (chunkIndex : UInt64)
  | remove (transferId : String)

namespace RecoveryStore

def step (store : RecoveryStore) : RecoveryCall → Option RecoveryStore
  | .recordChunk transferId chunkIndex => some (store.recordChunk transferId chunkIndex)
  | .remove transferId => some (store.remove transferId)

/-- Both offsets of every transfer are given, and lie in the contiguous prefix of the file. -/
def Faithful (store : RecoveryStore) : Prop :=
  ∀ transferId checkpoint, store.checkpoints.lookup transferId = some checkpoint →
    ∃ offset, store.getResumeOffset transferId = some offset ∧
      (∀ clientOffset,
        (store.transferStatus transferId clientOffset).map (·.serverOffset) = some offset) ∧
      offset ≤ checkpoint.contiguousPrefix ∧ offset ≤ checkpoint.fileSize.toNat

/-- A chunk that is recorded is there already, or is a whole one, and the next after those recorded. -/
def inOrder (store : RecoveryStore) : RecoveryCall → Prop
  | .recordChunk transferId chunkIndex =>
    ∀ checkpoint, store.checkpoints.lookup transferId = some checkpoint →
      chunkIndex ∈ checkpoint.completedChunks ∨ checkpoint.chunkSize = 0 ∨
        (chunkIndex.toNat = checkpoint.completedChunks.length ∧
          (checkpoint.completedChunks.length + 1) * checkpoint.chunkSize.toNat ≤
          checkpoint.fileSize.toNat)
  | .remove _ => True

variable {store after : RecoveryStore} {call : RecoveryCall} {transferId : String}
  {chunkIndex : UInt64} {checkpoint : TransferCheckpoint}

theorem faithful_iff_resumable :
    store.Faithful ↔
      ∀ transferId checkpoint, store.checkpoints.lookup transferId = some checkpoint →
      checkpoint.Resumable := by
  refine forall_congr' fun transferId => forall_congr' fun checkpoint =>
    imp_congr_right fun present => ?_
  simp only [getResumeOffset, transferStatus, present, checkedMul, TransferCheckpoint.Resumable]
  constructor
  · rintro ⟨_, resumed, _, within, _⟩
    split at resumed <;> cases resumed
    exact within
  · intro within
    have bounded := Nat.le_trans within (TransferCheckpoint.le_contiguousPrefix_iff.mp (Nat.le_refl _)).1
    have fits := Nat.lt_of_le_of_lt bounded checkpoint.fileSize.toNat_lt
    exact ⟨_, if_pos fits, fun _ => by simp [fits], within, bounded⟩

theorem lookup_recordChunk (present : store.checkpoints.lookup transferId = some checkpoint)
    (fresh : chunkIndex ∉ checkpoint.completedChunks) (other : String) :
    (store.recordChunk transferId chunkIndex).checkpoints.lookup other =
      if other = transferId then
        some { checkpoint with completedChunks := checkpoint.completedChunks ++ [chunkIndex] }
      else store.checkpoints.lookup other := by
  simp only [recordChunk, present, if_neg fresh]
  split
  · rename_i same
    rw [same, AList.lookup_insert]
  · rename_i different
    rw [AList.lookup_insert_ne different]

theorem recordChunk_eq_self
    (known : ∀ checkpoint, store.checkpoints.lookup transferId = some checkpoint →
      chunkIndex ∈ checkpoint.completedChunks) :
    store.recordChunk transferId chunkIndex = store := by
  unfold recordChunk
  split
  · rename_i checkpoint present
    rw [if_pos (known checkpoint present)]
  · rfl

theorem lookup_remove
    (present : (store.remove transferId).checkpoints.lookup other = some checkpoint) :
    store.checkpoints.lookup other = some checkpoint := by
  by_cases same : other = transferId
  · rw [same, remove, AList.lookup_erase] at present
    cases present
  · rwa [remove, AList.lookup_erase_ne same] at present

/-- From faithful offsets, one call leads to faithful ones exactly when it is in order. -/
theorem faithful_step_iff (faithful : store.Faithful) (taken : store.step call = some after) :
    after.Faithful ↔ store.inOrder call := by
  have resumable := faithful_iff_resumable.mp faithful
  cases call with
  | recordChunk transferId chunkIndex =>
    cases taken
    by_cases known : ∀ checkpoint, store.checkpoints.lookup transferId = some checkpoint →
      chunkIndex ∈ checkpoint.completedChunks
    · rw [recordChunk_eq_self known]
      exact iff_of_true faithful fun checkpoint present => .inl (known checkpoint present)
    · push Not at known
      obtain ⟨checkpoint, present, fresh⟩ := known
      have exactly := TransferCheckpoint.resumable_append_iff
        (resumable transferId checkpoint present) chunkIndex
      rw [faithful_iff_resumable]
      constructor
      · intro all other same
        cases present.symm.trans same
        refine .inr (exactly.mp (all transferId _ ?_))
        rw [lookup_recordChunk present fresh, if_pos rfl]
      · intro ordered other recorded found
        rw [lookup_recordChunk present fresh] at found
        split at found
        · cases found
          exact exactly.mpr ((ordered checkpoint present).resolve_left fresh)
        · exact resumable other recorded found
  | remove =>
    cases taken
    refine iff_of_true (faithful_iff_resumable.mpr ?_) trivial
    exact fun other checkpoint present => resumable other checkpoint (lookup_remove present)

/-- From checkpoints with nothing recorded, the offsets stay faithful exactly as long as the chunks
of each transfer are recorded in order and none is cut short. -/
theorem resumes_of_run {calls : List RecoveryCall}
    (begun : ∀ transferId checkpoint, store.checkpoints.lookup transferId = some checkpoint →
      checkpoint.completedChunks = [])
    (run : Execution step anything store calls after) :
    EveryState step Faithful store calls ↔ Execution step inOrder store calls after := by
  have faithful : store.Faithful := by
    refine faithful_iff_resumable.mpr fun transferId checkpoint present => ?_
    rw [TransferCheckpoint.Resumable, begun transferId checkpoint present, List.length_nil, Nat.zero_mul]
    exact Nat.zero_le _
  rw [everyState_iff_everyStep faithful]
  exact run.everyState_iff (fun _ => True) trivial (fun _ _ _ _ _ => trivial) faithful
    fun _ _ _ _ faithful taken => faithful_step_iff faithful taken

/-- A transfer of two chunks of ten bytes and a last one of five. -/
def interrupted : RecoveryStore :=
  { checkpoints := AList.insert "t" { fileSize := 25, chunkSize := 10, completedChunks := [] } ∅ }

theorem interrupted_begun :
    ∀ transferId checkpoint, interrupted.checkpoints.lookup transferId = some checkpoint →
      checkpoint.completedChunks = [] := by
  intro transferId _ present
  by_cases same : transferId = "t"
  · subst same
    rw [interrupted, AList.lookup_insert] at present
    cases present
    rfl
  · rw [interrupted, AList.lookup_insert_ne same, AList.lookup_empty] at present
    cases present

/-- The first chunk, then the second one, twice. -/
theorem faithful_in_order :
    EveryState step Faithful interrupted
      [.recordChunk "t" 0, .recordChunk "t" 1, .recordChunk "t" 1] := by
  refine (resumes_of_run interrupted_begun
    (.next trivial rfl (.next trivial rfl (.next trivial rfl .done)))).mpr
    (.next ?_ rfl (.next ?_ rfl (.next ?_ rfl .done)))
  · intro checkpoint present
    cases present
    exact .inr (.inr ⟨rfl, by decide⟩)
  · intro checkpoint present
    cases present
    exact .inr (.inr ⟨rfl, by decide⟩)
  · intro _ present
    cases present
    exact .inl (by decide)

/-- The second chunk alone is recorded, and the resume starts after the first one. -/
theorem second_chunk_unfaithful : ¬ EveryState step Faithful interrupted [.recordChunk "t" 1] := by
  intro every
  have faithful := every [.recordChunk "t" 1] [] _ rfl (.next trivial rfl .done)
  have within := faithful_iff_resumable.mp faithful "t"
      { fileSize := 25, chunkSize := 10, completedChunks := [1] } rfl
  have recorded := (TransferCheckpoint.le_contiguousPrefix_iff.mp within).2 0 (by decide)
  exact absurd recorded (by decide)

end RecoveryStore

end DistributedOs.Engine
