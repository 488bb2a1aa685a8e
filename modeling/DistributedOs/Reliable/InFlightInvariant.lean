import DistributedOs.Reliable.ChunkTracker
import DistributedOs.Semantics.Execution

/-! The `in_flight` counter against the chunks that are really outstanding. The
counter moves by one whatever state the chunk was in, so it is exact only while
each operation meets the chunk in the state that operation was written for. -/

namespace DistributedOs.Reliable

open Semantics

/-- What the sender does to its tracker: a first send from the window fill, one
chunk of the timeout scan, a NACK and an ACK. -/
inductive TrackerOp where
  | firstSend (now : Nat)
  | timedOut (scannedAt rto now : Nat) (id : UInt32)
  | nack (now : Nat) (id : UInt32)
  | ack (id : UInt32) (ackedOffset : Nat)

namespace ChunkTracker

def apply (tracker : ChunkTracker) : TrackerOp → Option ChunkTracker
  | .firstSend now => tracker.nextPending.map fun id => tracker.markInFlight now id 1
  | .timedOut scannedAt rto now id =>
    if id ∈ tracker.findTimedOut scannedAt rto then some (tracker.retransmit now id) else none
  | .nack now id => some (tracker.retransmit now id)
  | .ack id ackedOffset => (tracker.markAcked id ackedOffset).map Prod.snd

/-- Sending `id` meets a chunk that is not in flight yet, below the last `u32`. -/
def sendSafe (tracker : ChunkTracker) (id : UInt32) : Bool :=
  match tracker.chunk? id with
  | none => true
  | some chunk => !chunk.state.isInFlight && tracker.inFlight.toNat + 1 < 2 ^ 32

/-- A first ACK of `id` meets a chunk that is in flight, or nothing to subtract. -/
def ackSafe (tracker : ChunkTracker) (id : UInt32) : Bool :=
  match tracker.chunk? id with
  | none => true
  | some chunk => id ∈ tracker.ackedIds || chunk.state.isInFlight || tracker.inFlight = 0

/-- The operation meets the chunk it touches in the state it was written for. -/
def countSafe (tracker : ChunkTracker) : TrackerOp → Bool
  | .firstSend _ => tracker.nextPending.all tracker.sendSafe
  | .timedOut _ _ _ id => tracker.sendSafe id
  | .nack _ id => tracker.sendSafe id
  | .ack id _ => tracker.ackSafe id

def CountExact (tracker : ChunkTracker) : Prop := tracker.inFlight.toNat = tracker.outstanding

variable {tracker after : ChunkTracker} {chunk : ChunkInfo} {id attempt : UInt32}
  {chunkSize totalBytes now offset : Nat}

theorem saturating_pred (count : UInt32) :
    (if count = 0 then 0 else count - 1).toNat = count.toNat - 1 := by
  split
  · rename_i zero
    simp [zero]
  · rename_i positive
    have one : (1 : UInt32) ≤ count := by
      rw [UInt32.le_iff_toNat_le, UInt32.toNat_one]
      have nonzero : count.toNat ≠ 0 := fun zero => positive (UInt32.toNat_inj.mp zero)
      omega
    rw [UInt32.toNat_sub_of_le _ _ one, UInt32.toNat_one]

theorem outstanding_setState (found : tracker.chunk? id = some chunk)
    (change : ChunkInfo → ChunkInfo) :
    (tracker.setState id change).countP (·.state.isInFlight) + (if chunk.state.isInFlight then 1
      else 0) =
      tracker.outstanding + (if (change chunk).state.isInFlight then 1 else 0) :=
  countP_modifyFirst found

theorem markInFlight_exact_iff (exact : tracker.CountExact) :
    (tracker.markInFlight now id attempt).CountExact ↔ tracker.sendSafe id = true := by
  cases found : tracker.chunk? id with
  | none => simpa [markInFlight_none found, sendSafe, found] using exact
  | some chunk =>
    obtain ⟨change, _, entered, chunks, counter, _⟩ :=
      markInFlight_some found now attempt
    have counted := outstanding_setState found change
    have bound := tracker.inFlight.toNat_lt
    unfold CountExact at exact ⊢
    rw [outstanding, chunks, counter, UInt32.toNat_add, UInt32.toNat_one]
    rw [entered chunk] at counted
    cases flying : chunk.state.isInFlight <;> simp [sendSafe, found, flying] at counted ⊢ <;> omega

theorem markAcked_exact_iff (exact : tracker.CountExact)
    (returned : tracker.markAcked id offset = some (fresh, after)) :
    after.CountExact ↔ tracker.ackSafe id = true := by
  rcases markAcked_cases returned with ⟨duplicate, _, same⟩ | ⟨_, _, missing, same⟩ |
    ⟨first, _, chunk, found, contiguousAcked, _, same⟩
  · subst same
    cases found : after.chunk? id <;> simpa [ackSafe, found, duplicate] using exact
  · subst same
    simpa [ackSafe, missing, CountExact, outstanding] using exact
  · subst same
    have counted := outstanding_setState found fun chunk => { chunk with state := .acked }
    have pred : (if tracker.inFlight = 0 then 0 else tracker.inFlight - 1).toNat =
        tracker.inFlight.toNat - 1 := saturating_pred _
    unfold CountExact at exact ⊢
    rw [outstanding, pred]
    cases flying : chunk.state.isInFlight <;>
      simp [ackSafe, found, flying, first, ← UInt32.toNat_inj] at counted ⊢ <;> omega

/-- One operation keeps the counter exact precisely when it is safe. -/
theorem apply_exact_iff (exact : tracker.CountExact) (applied : tracker.apply op = some after) :
    after.CountExact ↔ tracker.countSafe op = true := by
  have resent (now : Nat) (id : UInt32) :
      (tracker.retransmit now id).CountExact ↔ tracker.sendSafe id = true := by
    unfold retransmit
    cases found : tracker.chunk? id with
    | none => simpa [sendSafe, found] using exact
    | some => exact markInFlight_exact_iff exact
  cases op with
  | firstSend =>
    obtain ⟨id, next, same⟩ := Option.map_eq_some_iff.mp applied
    subst same
    simpa [countSafe, next] using markInFlight_exact_iff exact
  | timedOut _ _ now id =>
    simp only [apply] at applied
    split at applied
    · cases applied
      exact resent now id
    · cases applied
  | nack now id =>
    cases applied
    exact resent now id
  | ack =>
    obtain ⟨⟨_, _⟩, returned, same⟩ := Option.map_eq_some_iff.mp applied
    subst same
    exact markAcked_exact_iff exact returned

theorem new_exact (built : new chunkSize totalBytes = some tracker) : tracker.CountExact := by
  have empty : tracker.outstanding = 0 := by
    apply List.countP_eq_zero.mpr
    intro chunk member
    simp [new_pending built chunk member]
  rw [CountExact, empty, (new_fields built).2.2.2]
  rfl

/-- While every operation is safe the counter is exact, so a closed window gate
means a full window of chunks is really outstanding. -/
theorem inFlight_exact (built : new chunkSize totalBytes = some start)
    (run : Execution apply (fun tracker op => tracker.countSafe op = true) start ops tracker) :
    tracker.inFlight.toNat = tracker.outstanding ∧
      ∀ windowSize : UInt32,
        ¬ tracker.inFlight < windowSize → windowSize.toNat ≤ tracker.outstanding := by
  have exact : tracker.CountExact :=
    run.invariant CountExact
      (fun _ _ _ exact safe applied => (apply_exact_iff exact applied).mpr safe) (new_exact built)
  refine ⟨exact, ?_⟩
  intro _ blocked
  rw [UInt32.lt_iff_toNat_lt, not_lt, exact] at blocked
  exact blocked

/-- Two first sends, one ACK, and a NACK for the chunk acknowledged already. -/
theorem inFlight_exact_after_nack :
    ∃ start tracker : ChunkTracker, new 4 8 = some start ∧
      Execution apply (fun tracker op => tracker.countSafe op = true) start
        [.firstSend 0, .firstSend 0, .ack 0 4, .nack 7 0] tracker ∧
      tracker.inFlight.toNat = tracker.outstanding ∧
      ∀ windowSize : UInt32,
        ¬ tracker.inFlight < windowSize → windowSize.toNat ≤ tracker.outstanding := by
  have built : new 4 8 = some ((new 4 8).get rfl) := rfl
  obtain ⟨tracker, run, _⟩ := exists_execution (fun _ => true)
    (show (replayWhere apply countSafe ((new 4 8).get rfl)
      [.firstSend 0, .firstSend 0, .ack 0 4, .nack 7 0]).any _ = true by decide)
  exact ⟨_, tracker, built, run, inFlight_exact built run⟩

/-- One spurious timeout: chunk 0 is the only one in flight and is counted twice,
so a window of two is closed with one chunk outstanding. -/
theorem inFlight_overcounts :
    ∃ start tracker : ChunkTracker, new 4 8 = some start ∧
      Execution apply anything start [.firstSend 0, .timedOut 600 500 600 0] tracker ∧
      tracker.inFlight.toNat = 2 ∧ tracker.outstanding = 1 ∧ ¬ tracker.inFlight < 2 := by
  refine ⟨_, _, rfl, execution_iff_replay.mpr rfl, rfl, rfl, by decide⟩

end ChunkTracker

end DistributedOs.Reliable
