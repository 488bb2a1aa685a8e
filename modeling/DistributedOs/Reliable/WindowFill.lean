import DistributedOs.Reliable.ChunkPositions
import DistributedOs.Reliable.InFlightInvariant
import DistributedOs.Reliable.Sender

/-! The window fill of one turn of the loop. Its test adds `batched` to a counter that
`mark_in_flight` has advanced for the same chunks, so each chunk counts twice. -/

namespace DistributedOs.Reliable

open Semantics

variable {data : Slice} {sender next before after start : Sender} {event : SenderEvent}
  {written : List Frame} {tracker : ChunkTracker} {chunk : ChunkInfo} {phase : SenderPhase}
  {id attempt : UInt32} {config : ReliabilityConfig} {chunkSize clock now turns : Nat}

namespace ChunkTracker

/-- How many chunks have not been sent. -/
def pendingCount (tracker : ChunkTracker) : Nat := tracker.chunks.countP (·.state == .pending)

theorem pendingCount_setState (found : tracker.chunk? id = some chunk)
    (change : ChunkInfo → ChunkInfo) :
    (tracker.setState id change).countP (·.state == .pending) + (if chunk.state == .pending then 1
      else 0) =
      tracker.pendingCount + (if (change chunk).state == .pending then 1 else 0) :=
  countP_modifyFirst found

theorem markInFlight_length (tracker : ChunkTracker) :
    (tracker.markInFlight now id attempt).chunks.length = tracker.chunks.length := by
  simpa using congrArg List.length (markInFlight_extents tracker)

end ChunkTracker

namespace SenderStep

theorem laid (move : SenderStep data sender event tracker phase written)
    (laid : sender.tracker.Laid) :
    tracker.Laid ∧ tracker.chunks.length = sender.tracker.chunks.length := by
  have sent (id attempt : UInt32) : (sender.tracker.markInFlight sender.clock id attempt).Laid ∧
      (sender.tracker.markInFlight sender.clock id attempt).chunks.length =
      sender.tracker.chunks.length :=
    ⟨laid.markInFlight, ChunkTracker.markInFlight_length sender.tracker⟩
  have again (id : UInt32) : (sender.tracker.retransmit sender.clock id).Laid ∧
      (sender.tracker.retransmit sender.clock id).chunks.length = sender.tracker.chunks.length := by
    unfold ChunkTracker.retransmit
    split
    · exact ⟨laid, rfl⟩
    · exact sent id _
  cases move with
  | resent => exact again _
  | filled => exact sent _ _
  | acked _ _ marked =>
    exact ⟨laid.markAcked
      marked, by simpa using congrArg List.length (ChunkTracker.markAcked_extents marked)⟩
  | nacked => exact again _
  | _ => exact ⟨laid, rfl⟩

end SenderStep

namespace Sender

/-- The events of the window fill; time may pass between its turns. -/
def fillEvent : SenderEvent → Bool
  | .resend => true
  | .fill => true
  | .elapse _ => true
  | _ => false

/-- The window fill of one turn of the loop, from the end of the timeout scan to the read. -/
structure FillsWindow (data : Slice) (before after : Sender) : Prop where
  scanned : before.phase = .retransmit []
  filled : ∃ events, Execution (fun sender event => (Sender.step data sender event).map Prod.fst)
    (fun _ event => fillEvent event = true) before events after
  reading : after.phase = .select

/-- The loop's test in its turn number `turns`: both counters have advanced that often. -/
def gate (sender : Sender) (turns : Nat) : Prop :=
  (sender.tracker.inFlight.toNat + 2 * turns) % 2 ^ 32 < sender.config.windowSize.toNat

/-- Where the fill stands after a number of turns: each has sent one pending chunk. -/
structure Filling (before sender : Sender) (turns : Nat) : Prop where
  config : sender.config = before.config
  laid : sender.tracker.Laid
  fits : sender.tracker.chunks.length ≤ 2 ^ 32
  counted : sender.tracker.inFlight = before.tracker.inFlight + UInt32.ofNat turns
  pending : sender.tracker.pendingCount + turns = before.tracker.pendingCount
  outstanding : sender.tracker.outstanding = before.tracker.outstanding + turns
  passed : ∀ earlier < turns, before.gate earlier

def Stands (before sender : Sender) (turns : Nat) : Prop :=
  match sender.phase with
  | .retransmit [] => turns = 0
  | .fill _ batched => batched = UInt32.ofNat turns
  | .select => sender.tracker.pendingCount = 0 ∨ ¬ before.gate turns
  | _ => False

end Sender

namespace ChunkTracker

theorem markInFlight_next (laid : tracker.Laid) (fits : tracker.chunks.length ≤ 2 ^ 32)
    (next : tracker.nextPending = some id) (now : Nat)
    (attempt : UInt32) : (∃ info, tracker.chunk? id = some info ∧ info.state = .pending) ∧
      (tracker.markInFlight now id attempt).inFlight = tracker.inFlight + 1 ∧
      (tracker.markInFlight now id attempt).pendingCount + 1 = tracker.pendingCount ∧
      (tracker.markInFlight now id attempt).outstanding = tracker.outstanding + 1 := by
  obtain ⟨chunk, picked, rfl⟩ := Option.map_eq_some_iff.mp next
  have pending : chunk.state = .pending := by simpa using List.find?_some picked
  have found := chunk?_of_mem laid fits (List.mem_of_find?_eq_some picked)
  obtain ⟨change, _, entered, chunks, counter, _⟩ := markInFlight_some found now attempt
  have left := pendingCount_setState found change
  have joined := outstanding_setState found change
  refine ⟨⟨chunk, found, pending⟩, counter, ?_, ?_⟩
  · rw [pendingCount, chunks]
    simpa [entered, pending] using left
  · rw [outstanding, chunks]
    simpa [entered, pending] using joined

theorem nextPending_none (none : tracker.nextPending = none) : tracker.pendingCount = 0 := by
  apply List.countP_eq_zero.mpr
  exact List.find?_eq_none.mp (Option.map_eq_none_iff.mp none)

end ChunkTracker

namespace Sender

theorem Filling.gate_iff (filling : Filling before sender turns) :
    sender.tracker.inFlight + UInt32.ofNat turns < sender.config.windowSize ↔
      before.gate turns := by
  have doubled : (before.tracker.inFlight + UInt32.ofNat turns + UInt32.ofNat turns).toNat =
      (before.tracker.inFlight.toNat + 2 * turns) % 2 ^ 32 := by
    simp only [UInt32.toNat_add, UInt32.toNat_ofNat']
    omega
  rw [filling.counted, filling.config, UInt32.lt_iff_toNat_lt, doubled, gate]

/-- A turn of the loop sends the next pending chunk, or ends the fill. -/
theorem Filling.fillWindow (filling : Filling before sender turns)
    (phase : sender.phase = .fill batch (UInt32.ofNat turns))
    (turned : sender.fillWindow data batch (UInt32.ofNat turns) = (next, written)) :
    ∃ turns, Filling before next turns ∧ Stands before next turns := by
  unfold Sender.fillWindow at turned
  split at turned
  · rename_i opened
    have gate := filling.gate_iff.mp opened
    cases picked : sender.tracker.nextPending with
    | none =>
      simp only [picked] at turned
      cases turned
      exact ⟨turns, { filling with }, .inl (ChunkTracker.nextPending_none picked)⟩
    | some =>
      obtain ⟨⟨info, found, _⟩, counter, left, joined⟩ :=
        ChunkTracker.markInFlight_next filling.laid filling.fits picked sender.clock 1
      simp only [picked, found] at turned
      cases turned
      have stepped : UInt32.ofNat turns + 1 = UInt32.ofNat (turns + 1) := by simp
      refine ⟨turns + 1, ⟨filling.config, filling.laid.markInFlight, ?_, ?_, ?_, ?_, ?_⟩, stepped⟩
      · exact (ChunkTracker.markInFlight_length sender.tracker).trans_le filling.fits
      · rw [counter, filling.counted, ← stepped, UInt32.add_assoc]
      · rw [← filling.pending, ← left, Nat.add_assoc, Nat.add_comm 1 turns]
      · rw [joined, filling.outstanding, Nat.add_assoc]
      · intro earlier less
        rcases Nat.lt_succ_iff_lt_or_eq.mp less with sooner | same
        · exact filling.passed earlier sooner
        · exact same ▸ gate
  · rename_i full
    cases turned
    exact ⟨turns, { filling with }, .inr fun gate => full (filling.gate_iff.mpr gate)⟩

theorem Filling.turn (filling : Filling before sender turns) (stands : Stands before sender turns)
    (fillEvent : fillEvent event = true) (taken : sender.step data event = some (next, written)) :
    ∃ turns, Filling before next turns ∧ Stands before next turns := by
  cases event with
  | elapse =>
    simp only [step, Option.some.injEq, Prod.mk.injEq] at taken
    obtain ⟨rfl, _⟩ := taken
    exact ⟨turns, { filling with }, stands⟩
  | resend =>
    unfold Stands at stands
    split at stands
    · rename_i phase
      subst stands
      simp only [step, phase] at taken
      split at taken
      · cases taken
        exact ⟨0, { filling with }, rfl⟩
      · rename_i full
        cases taken
        refine ⟨0, { filling with }, .inr fun gate => full ?_⟩
        simpa using filling.gate_iff.mpr gate
    · rename_i phase
      simp [step, phase] at taken
    · rename_i phase
      simp [step, phase] at taken
    · exact stands.elim
  | fill =>
    unfold Stands at stands
    split at stands
    · rename_i phase
      simp [step, phase] at taken
    · rename_i phase
      subst stands
      simp only [step, phase, Option.some.injEq] at taken
      exact filling.fillWindow phase taken
    · rename_i phase
      simp [step, phase] at taken
    · exact stands.elim
  | _ => cases fillEvent

/-- How many chunks the loop sends if there are as many: half of what the counter leaves of
the window, rounded up. At the largest window the sum wraps before an even counter fills it,
so the loop goes on to the last chunk. -/
def slots (sender : Sender) : Nat :=
  if sender.config.windowSize.toNat = 2 ^ 32 - 1 ∧ sender.tracker.inFlight.toNat % 2 = 0 then
    sender.tracker.pendingCount
  else (sender.config.windowSize.toNat - sender.tracker.inFlight.toNat + 1) / 2

/-- The slots take every pending chunk or the rest of the window, and no more than that. -/
def slotsFit (sender : Sender) : Prop :=
  (sender.tracker.pendingCount ≤ sender.slots ∨
    sender.config.windowSize.toNat ≤ sender.tracker.outstanding + sender.slots) ∧
  sender.tracker.outstanding + min sender.tracker.pendingCount sender.slots ≤
    max sender.config.windowSize.toNat sender.tracker.outstanding

instance (sender : Sender) : Decidable sender.slotsFit := by
  unfold slotsFit
  infer_instance

/-- The loop ends at its last chunk or its last slot. -/
theorem turns_eq (passed : ∀ earlier < turns, before.gate earlier)
    (most : turns ≤ before.tracker.pendingCount)
    (ended : turns = before.tracker.pendingCount ∨ ¬ before.gate turns) :
    turns = min before.tracker.pendingCount before.slots := by
  have counter := before.tracker.inFlight.toNat_lt
  have window := before.config.windowSize.toNat_lt
  unfold slots
  split
  · rename_i wraps
    have open' : before.gate turns := by
      unfold gate
      omega
    rw [Nat.min_self]
    exact ended.resolve_right (not_not.mpr open')
  · rename_i bounded
    have shut : ¬ before.gate
        ((before.config.windowSize.toNat - before.tracker.inFlight.toNat + 1) / 2) := by
      unfold gate
      omega
    have below : ∀ earlier < (before.config.windowSize.toNat - before.tracker.inFlight.toNat + 1) / 2,
        before.gate earlier := by
      intro _ less
      unfold gate
      omega
    have atMost : turns ≤ (before.config.windowSize.toNat - before.tracker.inFlight.toNat + 1) / 2 := by
      by_contra beyond
      exact shut (passed _ (by omega))
    rcases ended with _ | closed
    · omega
    · have reached : ¬ turns <
          (before.config.windowSize.toNat - before.tracker.inFlight.toNat + 1) / 2 :=
        fun less => closed (below turns less)
      omega

theorem FillsWindow.counts (fill : FillsWindow data before after) (laid : before.tracker.Laid)
    (fits : before.tracker.chunks.length ≤ 2 ^ 32) :
    after.tracker.pendingCount + min before.tracker.pendingCount before.slots =
      before.tracker.pendingCount ∧
      after.tracker.outstanding = before.tracker.outstanding + min before.tracker.pendingCount
      before.slots := by
  obtain ⟨_, run⟩ := fill.filled
  have filling : Filling before before 0 := ⟨rfl, laid, fits, by simp, rfl, rfl, by simp⟩
  have stands : Stands before before 0 := by
    rw [Stands, fill.scanned]
  obtain ⟨turns, filled, stopped⟩ :=
    run.invariant (fun sender => ∃ turns, Filling before sender turns ∧ Stands before sender turns)
      (fun sender event next ⟨turns, filling, stands⟩ only taken => by
        obtain ⟨⟨_, _⟩, stepped, rfl⟩ := Option.map_eq_some_iff.mp taken
        exact filling.turn stands only stepped) ⟨0, filling, stands⟩
  rw [Stands, fill.reading] at stopped
  have balance := filled.pending
  have ended : turns = before.tracker.pendingCount ∨ ¬ before.gate turns := by
    rcases stopped with _ | closed
    · exact .inl (by omega)
    · exact .inr closed
  rw [← turns_eq filled.passed (by omega) ended]
  exact ⟨balance, filled.outstanding⟩

/-- In every reachable state of a transfer of up to 2^32 chunks, the window fill leaves no
chunk pending or a full window, and exceeds the window by nothing it sent, exactly when half
of the free slots are enough. -/
theorem window_filled_iff (started : Sender.start data chunkSize config clock = some start)
    (run : Execution (fun sender event => (Sender.step data sender event).map Prod.fst) anything
      start events before)
    (fits : start.tracker.chunks.length ≤ 2 ^ 32) (fill : FillsWindow data before after) :
    (after.tracker.pendingCount = 0 ∨ before.config.windowSize.toNat ≤ after.tracker.outstanding) ∧
      after.tracker.outstanding ≤ max before.config.windowSize.toNat before.tracker.outstanding ↔
      before.slotsFit := by
  have reached : before.tracker.Laid ∧ before.tracker.chunks.length ≤ 2 ^ 32 := by
    refine run.invariant
      (fun sender => sender.tracker.Laid ∧ sender.tracker.chunks.length ≤ 2 ^ 32) ?_ ?_
    · intro sender event next ⟨laid, fits⟩ _ taken
      obtain ⟨⟨reached, _⟩, stepped, rfl⟩ := Option.map_eq_some_iff.mp taken
      obtain ⟨still, length⟩ := (step_cases stepped).laid laid
      exact ⟨still, length ▸ fits⟩
    · obtain ⟨_, built, rfl⟩ := Option.map_eq_some_iff.mp started
      refine ⟨?_, fits⟩
      rw [ChunkTracker.Laid, (ChunkTracker.new_fields built).2.2.1]
      exact ChunkTracker.new_tiles built
  obtain ⟨_, joined⟩ := fill.counts reached.1 reached.2
  have exhausted : after.tracker.pendingCount = 0 ↔ before.tracker.pendingCount ≤ before.slots := by
    omega
  rw [slotsFit, joined, exhausted]
  refine and_congr_left' (or_congr_right' fun short => ?_)
  rw [Nat.min_eq_right (Nat.le_of_not_le short)]

/-- Two chunks and a window of four: both are sent in one fill. -/
theorem window_filled_two_chunks :
    ∃ start before after, Sender.start eightBytes 4 .default 0 = some start ∧
      Execution (fun sender event =>
        (Sender.step eightBytes sender event).map Prod.fst) anything start
        [.iterate none] before ∧
      FillsWindow eightBytes before after ∧
      (after.tracker.pendingCount = 0 ∨
        before.config.windowSize.toNat ≤ after.tracker.outstanding) := by
  let start := (Sender.start eightBytes 4 .default 0).get rfl
  have started : Sender.start eightBytes 4 .default 0 = some start := rfl
  have run : Execution
    (fun sender event => (Sender.step eightBytes sender event).map Prod.fst) anything start
      [.iterate none] (start.iterate none) := execution_iff_replay.mpr rfl
  have fill : FillsWindow eightBytes (start.iterate none) _ :=
    ⟨rfl, ⟨[.resend, .fill, .elapse 1, .fill, .fill], execution_of_replayWhere rfl⟩, rfl⟩
  exact ⟨start, _, _, started, run, fill,
    ((window_filled_iff started run (by decide) fill).mpr (by decide)).1⟩

/-- Four chunks and a window of four: the fill stops after two. -/
theorem window_half_filled :
    ∃ start before after, Sender.start eightBytes 2 .default 0 = some start ∧
      Execution (fun sender event =>
        (Sender.step eightBytes sender event).map Prod.fst) anything start
        [.iterate none] before ∧
      FillsWindow eightBytes before after ∧ before.config.windowSize = 4 ∧
      after.tracker.pendingCount = 2 ∧ after.tracker.outstanding = 2 :=
  ⟨_, _, _, rfl, execution_iff_replay.mpr rfl,
    ⟨rfl, ⟨[.resend, .fill, .fill, .fill], execution_of_replayWhere rfl⟩, rfl⟩,
    rfl, by decide, by decide⟩

end Sender

end DistributedOs.Reliable
