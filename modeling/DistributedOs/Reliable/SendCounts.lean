import Mathlib.Algebra.Order.BigOperators.Group.List
import Mathlib.Algebra.Order.Group.Nat
import DistributedOs.Reliable.AckedInvariant
import DistributedOs.Reliable.SentFrames
import DistributedOs.Reliable.WindowFill

/-! How often the sender writes a chunk. The attempt number in the state of a chunk counts
its DATA frames until it is acknowledged; the loop compares it with `max_retries` only
at its top, so a timeout and a NACK in one turn can pass the limit together. -/

namespace DistributedOs.Reliable

open Semantics

def ChunkState.attempts : ChunkState → Nat
  | .inFlight _ attempt => attempt.toNat
  | _ => 0

@[simp] theorem ChunkState.attempts_inFlight : (inFlight now attempt).attempts = attempt.toNat :=
  rfl

@[simp] theorem ChunkState.attempts_pending : pending.attempts = 0 := rfl

@[simp] theorem ChunkState.attempts_acked : acked.attempts = 0 := rfl

def Frame.isDataOf (id : UInt32) : Frame → Bool
  | .data other _ _ => other == id
  | _ => false

def Frame.isData : Frame → Bool
  | .data _ _ _ => true
  | _ => false

def writes (id : UInt32) (frames : List Frame) : Nat := frames.countP (Frame.isDataOf id)

structure SendLog where
  sender : Sender
  sent : List Frame

namespace SendLog

def step (data : Slice) (log : SendLog) (event : SenderEvent) : Option SendLog :=
  (log.sender.step data event).map fun (sender, written) => { sender, sent := log.sent ++ written }

/-- No chunk has been written more than `max_retries + 1` times unless it is acknowledged. -/
def withinRetries (log : SendLog) : Prop :=
  ∀ chunk ∈ log.sender.tracker.chunks, chunk.id ∉ log.sender.tracker.ackedIds →
    writes chunk.id log.sent ≤ log.sender.config.maxRetries.toNat + 1

end SendLog

/-- A NACK the loop handles names no chunk that waits for its ACK beyond the last retry. -/
def Sender.nackInTime (sender : Sender) (event : SenderEvent) : Bool :=
  (sender.arriving event).all fun frame =>
    frame.1 ≠ frameNack || (sender.tracker.chunk? frame.chunkId).all fun info =>
      info.id ∈ sender.tracker.ackedIds || info.state.attempts ≤ sender.config.maxRetries.toNat

/-- How high an attempt number can be in this phase: a chunk the scan has yet to send again has
passed the check at the top of the loop. -/
def SenderPhase.cap (maxRetries : Nat) (id : UInt32) : SenderPhase → Nat
  | .retransmit timedOut => if id ∈ timedOut then maxRetries else maxRetries + 1
  | .fill _ _ => maxRetries + 1
  | .select => maxRetries + 1
  | _ => maxRetries + 2

variable {data : Slice} {sender next start : Sender} {event : SenderEvent}
  {written frames more : List Frame} {tracker after : ChunkTracker} {chunk info : ChunkInfo}
  {phase : SenderPhase} {id other attempt : UInt32} {config : ReliabilityConfig}
  {chunkSize clock now offset maxRetries ceiling : Nat} {log : SendLog} {cap newCap : UInt32 → Nat}
  {frame : RawFrame}

@[simp] theorem writes_nil : writes id [] = 0 := rfl

@[simp] theorem writes_append : writes id (frames ++ more) = writes id frames + writes id more :=
  List.countP_append

@[simp] theorem writes_data (offset : UInt64) (content : Bytes) :
    writes id (.data other offset content :: frames) = writes id frames + if other = id then 1
      else 0 := by
  simp [writes, Frame.isDataOf, List.countP_cons]

@[simp] theorem writes_fin (total : UInt64) : writes id [.fin other total] = 0 := rfl

@[simp] theorem writes_completionFrames : writes id (tracker.completionFrames data) = 0 := by
  unfold ChunkTracker.completionFrames
  split <;> rfl

private theorem countP_or_le (first second : Frame → Bool) (frames : List Frame) :
    frames.countP (fun frame => first frame || second frame) ≤ frames.countP first +
      frames.countP second := by
  induction frames with
  | nil => simp
  | cons frame =>
    simp only [List.countP_cons]
    cases first frame <;> cases second frame <;> simp <;> omega

theorem countP_any_le (ids : List UInt32) (frames : List Frame) :
    frames.countP (fun frame => ids.any fun id => frame.isDataOf id) ≤
      (ids.map (writes · frames)).sum := by
  induction ids with
  | nil => simp
  | cons _ _ ih =>
    simp only [List.any_cons, List.map_cons, List.sum_cons]
    exact (countP_or_le _ _ frames).trans (Nat.add_le_add_left ih _)

theorem nextAttempt_toNat (state : ChunkState) (small : state.attempts + 1 < 2 ^ 32) :
    state.nextAttempt.toNat = state.attempts + 1 := by
  cases state with
  | inFlight =>
    simp only [ChunkState.attempts] at small
    simp only [ChunkState.nextAttempt, ChunkState.attempts, UInt32.toNat_add, UInt32.toNat_one]
    exact Nat.mod_eq_of_lt small
  | _ => rfl

/-- Every chunk against the frames: until its ACK it is pending or in flight and its attempt
is the number of its DATA frames; after that a late NACK can start the count once more. -/
structure Tallied (tracker : ChunkTracker) (frames : List Frame) (cap : UInt32 → Nat)
    (ceiling : Nat) : Prop where
  laid : tracker.Laid
  fits : tracker.chunks.length ≤ 2 ^ 32
  capped : ∀ chunk ∈ tracker.chunks, chunk.state.attempts ≤ cap chunk.id
  waiting : ∀ chunk ∈ tracker.chunks, chunk.id ∉ tracker.ackedIds →
    writes chunk.id frames = chunk.state.attempts
  spent : ∀ chunk ∈ tracker.chunks, chunk.id ∈ tracker.ackedIds →
    chunk.state ≠ .pending ∧ writes chunk.id frames ≤ ceiling + chunk.state.attempts
  known : ∀ id, id ∉ (tracker.chunks.map ChunkInfo.extent).map Prod.fst → writes id frames = 0

namespace Tallied

theorem mono (tallied : Tallied tracker frames cap ceiling) (raised : ∀ id, cap id ≤ newCap id) :
    Tallied tracker frames newCap ceiling :=
  { tallied with capped := fun chunk member => (tallied.capped chunk member).trans (raised _) }

theorem quiet (tallied : Tallied tracker frames cap ceiling)
    (same : ∀ id, writes id more = writes id frames) :
    Tallied tracker more cap ceiling :=
  { tallied with
    waiting := fun chunk member unacked => (same _).trans (tallied.waiting chunk member unacked)
    spent := fun chunk member acked => ⟨(tallied.spent chunk member acked).1,
      (same _).trans_le (tallied.spent chunk member acked).2⟩
    known := fun id unknown => (same _).trans (tallied.known id unknown) }

/-- Writing a chunk with the next attempt number keeps the account. -/
theorem send (tallied : Tallied tracker frames cap ceiling) (found : tracker.chunk? id = some info)
    (counts : attempt.toNat = info.state.attempts + 1) (here : attempt.toNat ≤ newCap id)
    (elsewhere : ∀ other, other ≠ id → cap other ≤ newCap other) (now : Nat) :
    Tallied (tracker.markInFlight now id attempt)
      (frames ++ [data.dataFrame id info]) newCap ceiling := by
  obtain ⟨_, kept, entered, changed⟩ := ChunkTracker.getElem?_markInFlight tallied.laid now id attempt
  have member : info ∈ tracker.chunks := List.mem_of_find?_eq_some found
  have named : info.id = id := ChunkTracker.chunk?_id found
  have written : ∀ other, writes other (frames ++ [data.dataFrame id info]) =
      writes other frames + if id = other then 1 else 0 := by
    intro other
    simp [Slice.dataFrame]
  -- A chunk of the new table is the one sent, or an old one with another id.
  have split : ∀ chunk ∈ (tracker.markInFlight now id attempt).chunks,
      chunk.id = id ∧ chunk.state = .inFlight now attempt ∨ chunk.id ≠ id ∧ chunk ∈ tracker.chunks := by
    intro chunk present
    obtain ⟨position, at'⟩ := List.getElem?_of_mem present
    rw [changed] at at'
    split at at'
    · rename_i same
      obtain ⟨before, earlier, rfl⟩ := Option.map_eq_some_iff.mp at'
      rw [same, ← ChunkTracker.chunk?_eq_getElem? tallied.laid, found] at earlier
      cases earlier
      exact .inl ⟨(congrArg Prod.fst (kept info)).trans named, entered info⟩
    · rename_i different
      refine .inr ⟨?_, List.mem_of_getElem? at'⟩
      rintro rfl
      have low : position < 2 ^ 32 :=
        Nat.lt_of_lt_of_le (List.getElem?_eq_some_iff.mp at').1 tallied.fits
      rw [ChunkTracker.id_of_getElem? tallied.laid at', UInt32.toNat_ofNat_of_lt' low] at different
      exact different rfl
  refine ⟨tallied.laid.markInFlight, ?_, ?_, ?_, ?_, ?_⟩
  · exact (ChunkTracker.markInFlight_length tracker).trans_le tallied.fits
  · intro chunk present
    rcases split chunk present with ⟨same, state⟩ | ⟨different, old⟩
    · rw [state, same]
      exact here
    · exact (tallied.capped chunk old).trans (elsewhere _ different)
  · intro chunk present unacked
    rw [ChunkTracker.markInFlight_ackedIds] at unacked
    rw [written]
    rcases split chunk present with ⟨same, state⟩ | ⟨different, old⟩
    · rw [same] at unacked
      have before := tallied.waiting info member (named ▸ unacked)
      rw [named] at before
      simp [same, state, before, counts]
    · simpa [Ne.symm different] using tallied.waiting chunk old unacked
  · intro chunk present acked
    rw [ChunkTracker.markInFlight_ackedIds] at acked
    rw [written]
    rcases split chunk present with ⟨same, state⟩ | ⟨different, old⟩
    · rw [same] at acked
      have before := (tallied.spent info member (named ▸ acked)).2
      rw [named] at before
      refine ⟨by simp [state], ?_⟩
      simp only [same, state, ChunkState.attempts_inFlight, counts, ↓reduceIte]
      omega
    · simpa [Ne.symm different] using tallied.spent chunk old acked
  · intro other unknown
    rw [ChunkTracker.markInFlight_extents] at unknown
    have different : id ≠ other := by
      rintro rfl
      exact unknown (named ▸ List.mem_map.mpr ⟨info.extent, List.mem_map.mpr ⟨info, member, rfl⟩, rfl⟩)
    simpa [written, different] using tallied.known other unknown

theorem retransmit (tallied : Tallied tracker frames cap ceiling) (small : cap id + 1 < 2 ^ 32)
    (here : cap id + 1 ≤ newCap id)
    (elsewhere : ∀ other, other ≠ id → cap other ≤ newCap other) (now : Nat) :
    Tallied (tracker.retransmit now id) (frames ++ tracker.resent data id) newCap ceiling := by
  unfold ChunkTracker.retransmit ChunkTracker.resent
  cases found : tracker.chunk? id with
  | none =>
    have raised : ∀ other, cap other ≤ newCap other := by
      intro other
      by_cases same : other = id
      · exact same ▸ (Nat.le_succ _).trans here
      · exact elsewhere other same
    simpa using tallied.mono raised
  | some info =>
    have below := tallied.capped info (List.mem_of_find?_eq_some found)
    rw [ChunkTracker.chunk?_id found] at below
    have counts := nextAttempt_toNat info.state (by omega)
    exact tallied.send found counts (by omega) elsewhere now

/-- An ACK turns a chunk in waiting into an acknowledged one, whose writes are all behind it. -/
theorem markAcked (tallied : Tallied tracker frames cap ceiling) (low : ∀ id, cap id ≤ ceiling)
    (returned : tracker.markAcked id offset = some (fresh, after)) :
    Tallied after frames cap ceiling := by
  obtain ⟨ids, ⟨_, same⟩ | ⟨first, changed⟩⟩ := ChunkTracker.getElem?_markAcked tallied.laid returned
  · exact same ▸ tallied
  · have length : after.chunks.length = tracker.chunks.length := by
      simpa using congrArg List.length (ChunkTracker.markAcked_extents returned)
    have split : ∀ chunk ∈ after.chunks, chunk.id = id ∧ chunk.state = .acked ∧
      writes id frames ≤ ceiling ∨
        chunk.id ≠ id ∧ chunk ∈ tracker.chunks := by
      intro chunk present
      obtain ⟨position, at'⟩ := List.getElem?_of_mem present
      have low' : position < 2 ^ 32 :=
        Nat.lt_of_lt_of_le (List.getElem?_eq_some_iff.mp at').1 (length.trans_le tallied.fits)
      have named := ChunkTracker.id_of_getElem? (tallied.laid.markAcked returned) at'
      rw [changed] at at'
      split at at'
      · rename_i same
        obtain ⟨before, earlier, rfl⟩ := Option.map_eq_some_iff.mp at'
        have member := List.mem_of_getElem? earlier
        have own : before.id = id := by
          rw [ChunkTracker.id_of_getElem? tallied.laid earlier, same, UInt32.ofNat_toNat]
        have counted := tallied.waiting before member (own ▸ first)
        have below := (tallied.capped before member).trans (low _)
        exact .inl ⟨own, rfl, by rw [own] at counted; omega⟩
      · rename_i different
        refine .inr ⟨?_, List.mem_of_getElem? at'⟩
        rintro rfl
        rw [named, UInt32.toNat_ofNat_of_lt' low'] at different
        exact different rfl
    refine ⟨tallied.laid.markAcked returned, length.trans_le tallied.fits, ?_, ?_, ?_, ?_⟩
    · intro chunk present
      rcases split chunk present with ⟨_, state, _⟩ | ⟨_, old⟩
      · simp [state]
      · exact tallied.capped chunk old
    · intro chunk present unacked
      rw [ids] at unacked
      rcases split chunk present with ⟨same, _⟩ | ⟨_, old⟩
      · exact absurd (same ▸ Finset.mem_insert_self _ _) unacked
      · exact tallied.waiting chunk old fun acked => unacked (Finset.mem_insert_of_mem acked)
    · intro chunk present acked
      rcases split chunk present with ⟨same, state, _⟩ | ⟨different, old⟩
      · exact ⟨by simp [state], by rw [same]; omega⟩
      · rw [ids] at acked
        exact tallied.spent chunk old ((Finset.mem_insert.mp acked).resolve_left different)
    · rw [ChunkTracker.markAcked_extents returned]
      exact tallied.known

theorem writes_le (tallied : Tallied tracker frames cap ceiling)
    (low : ∀ id, cap id ≤ ceiling) (id : UInt32) :
    writes id frames ≤ 2 * ceiling := by
  by_cases known : id ∈ (tracker.chunks.map ChunkInfo.extent).map Prod.fst
  · obtain ⟨_, listed, rfl⟩ := List.mem_map.mp known
    obtain ⟨chunk, member, rfl⟩ := List.mem_map.mp listed
    have capped := (tallied.capped chunk member).trans (low _)
    change writes chunk.id frames ≤ 2 * ceiling
    by_cases acked : chunk.id ∈ tracker.ackedIds
    · have spent := (tallied.spent chunk member acked).2
      omega
    · have waiting := tallied.waiting chunk member acked
      omega
  · rw [tallied.known id known]
    exact Nat.zero_le _

theorem countP_isData_le (tallied : Tallied tracker frames cap ceiling)
    (low : ∀ id, cap id ≤ ceiling) :
    frames.countP Frame.isData ≤ 2 * ceiling * tracker.chunks.length := by
  let ids := (tracker.chunks.map ChunkInfo.extent).map Prod.fst
  have owned : ∀ frame ∈ frames, frame.isData = true → (ids.any fun id => frame.isDataOf id) = true := by
    intro frame member isData
    cases frame with
    | data id =>
      refine List.any_eq_true.mpr ⟨id, ?_, by simp [Frame.isDataOf]⟩
      by_contra unknown
      have none := List.countP_eq_zero.mp (tallied.known id unknown) _ member
      simp [Frame.isDataOf] at none
    | _ => cases isData
  have few : ∀ count ∈ ids.map (writes · frames), count ≤ 2 * ceiling := by
    intro _ listed
    obtain ⟨id, _, rfl⟩ := List.mem_map.mp listed
    exact tallied.writes_le low id
  calc frames.countP Frame.isData
      ≤ frames.countP fun frame => ids.any fun id => frame.isDataOf id := List.countP_mono_left owned
    _ ≤ (ids.map (writes · frames)).sum := countP_any_le ids frames
    _ ≤ (ids.map (writes · frames)).length • (2 * ceiling) := List.sum_le_card_nsmul _ _ few
    _ = 2 * ceiling * tracker.chunks.length := by simp [ids, Nat.mul_comm]

end Tallied

namespace ChunkTracker

theorem retransmit_extents (tracker : ChunkTracker) :
    (tracker.retransmit now id).chunks.map ChunkInfo.extent =
      tracker.chunks.map ChunkInfo.extent := by
  unfold retransmit
  split
  · rfl
  · exact markInFlight_extents tracker

theorem ids_nodup (laid : tracker.Laid) (fits : tracker.chunks.length ≤ 2 ^ 32) :
    (tracker.chunks.map (·.id)).Nodup := by
  refine List.pairwise_map.mpr
    (List.pairwise_iff_getElem.mpr fun first second inside within less same => ?_)
  rw [id_of_getElem? laid (List.getElem?_eq_getElem inside),
    id_of_getElem? laid (List.getElem?_eq_getElem within)] at same
  have numbers := congrArg UInt32.toNat same
  rw [UInt32.toNat_ofNat_of_lt' (show first < 2 ^ 32 by omega),
    UInt32.toNat_ofNat_of_lt' (show second < 2 ^ 32 by omega)] at numbers
  exact Nat.ne_of_lt less numbers

theorem findTimedOut_nodup (laid : tracker.Laid) (fits : tracker.chunks.length ≤ 2 ^ 32)
    (now rto : Nat) :
    (tracker.findTimedOut now rto).Nodup := by
  refine (ids_nodup laid fits).sublist ?_
  unfold findTimedOut
  generalize tracker.chunks = chunks
  induction chunks with
  | nil => exact .slnil
  | cons chunk _ ih =>
    rw [List.filterMap_cons, List.map_cons]
    split
    · exact ih.cons _
    · rename_i due picked
      have own : due = chunk.id := by
        cases state : chunk.state with
        | inFlight =>
          simp only [state] at picked
          split at picked
          · exact (Option.some.inj picked).symm
          · cases picked
        | _ => simp [state] at picked
      exact own ▸ ih.cons_cons _

theorem attempts_of_spared (spared : tracker.hasExhaustedRetries limit = false) :
    ∀ chunk ∈ tracker.chunks, chunk.state.attempts ≤ limit.toNat := by
  intro chunk member
  have within := List.any_eq_false.mp spared chunk member
  cases state : chunk.state with
  | inFlight =>
    simp only [state, decide_eq_true_eq] at within
    exact UInt32.le_iff_toNat_le.mp (UInt32.not_lt.mp within)
  | _ => exact Nat.zero_le _

end ChunkTracker

namespace Sender

theorem readControl_maxRetries (sender : Sender) (control : Option ControlReading) :
    (sender.readControl control).config.maxRetries = sender.config.maxRetries := by
  cases control <;> rfl

theorem adjustWindow_maxRetries (config : ReliabilityConfig) (depth : Nat) :
    (adjustWindow config depth).maxRetries = config.maxRetries := by
  unfold adjustWindow
  split
  · rfl
  · split <;> rfl

theorem process_maxRetries (handled : process data sender frame = some (next, written)) :
    next.config.maxRetries = sender.config.maxRetries := by
  unfold process at handled
  split at handled
  · obtain ⟨_, _, same⟩ := Option.map_eq_some_iff.mp handled
    cases same
    rfl
  · split at handled
    · cases handled
      rfl
    · split at handled
      · cases handled
        exact adjustWindow_maxRetries _ _
      · split at handled <;> cases handled <;> rfl

theorem step_maxRetries (taken : sender.step data event = some (next, written)) :
    next.config.maxRetries = sender.config.maxRetries := by
  unfold step at taken
  split at taken
  · cases taken
    rfl
  · cases taken
    simp only [iterate]
    split <;> exact readControl_maxRetries _ _
  · split at taken <;> cases taken <;> rfl
  · cases taken
    rfl
  · simp only [Option.some.injEq] at taken
    unfold fillWindow at taken
    split at taken
    · split at taken
      · split at taken <;> cases taken <;> rfl
      · cases taken
        rfl
    · cases taken
      rfl
  · split at taken
    · exact (process_maxRetries taken).trans rfl
    · cases taken
      rfl
    · cases taken
      rfl
  · cases taken
    rfl
  · split at taken <;> cases taken <;> rfl
  · cases taken
    rfl
  · cases taken

theorem iterate_cases {control : Option ControlReading}
    (taken : sender.step data (.iterate control) = some (next, written)) :
    next.tracker = sender.tracker ∧ written = [] ∧ sender.phase = .top ∧
      (next.phase = .finished (.error .maxRetriesExceeded) ∨
        sender.tracker.hasExhaustedRetries sender.config.maxRetries = false ∧
          ∃ rto, next.phase = .retransmit (sender.tracker.findTimedOut sender.clock rto)) := by
  unfold step at taken
  split at taken
  · rename_i other
    cases other
  · rename_i top same
    cases same
    cases taken
    simp only [iterate, readControl_tracker, readControl_maxRetries, readControl_clock]
    split
    · exact ⟨rfl, trivial, top, .inl rfl⟩
    · rename_i spared
      exact ⟨rfl, trivial, top, .inr ⟨by simpa using spared, _, rfl⟩⟩
  all_goals simp_all

/-- The account of a sender that has written these frames: the scan names each chunk once. -/
structure Accounted (maxRetries : Nat) (tracker : ChunkTracker) (phase : SenderPhase)
    (sent : List Frame) : Prop where
  tallied : Tallied tracker (sent ++ phase.batch) (fun id => phase.cap maxRetries id) (maxRetries + 2)
  once : ∀ timedOut, phase = .retransmit timedOut → timedOut.Nodup

theorem cap_le (phase : SenderPhase) (id : UInt32) : phase.cap maxRetries id ≤ maxRetries + 2 := by
  unfold SenderPhase.cap
  split
  · split <;> omega
  all_goals omega

theorem Accounted.settled (accounted : Accounted maxRetries tracker phase sent)
    (quiet : ∀ id, writes id written = 0) (notScan : ∀ timedOut, newPhase ≠ .retransmit timedOut)
    (batch : newPhase.batch = phase.batch)
    (raised : ∀ id, phase.cap maxRetries id ≤ newPhase.cap maxRetries id) :
    Accounted maxRetries tracker newPhase (sent ++ written) := by
  refine ⟨(accounted.tallied.mono raised).quiet fun id => ?_, fun timedOut same =>
    absurd same (notScan timedOut)⟩
  simp [batch, quiet]

theorem Accounted.completed (tallied : Tallied tracker sent cap (maxRetries + 2))
    (low : ∀ id, cap id ≤ maxRetries + 2) :
    Accounted maxRetries tracker tracker.completionPhase
      (sent ++ tracker.completionFrames data) := by
  have phase : tracker.completionPhase = .finack ∨ tracker.completionPhase = .top := by
    unfold ChunkTracker.completionPhase
    split
    · exact .inl rfl
    · exact .inr rfl
  rcases phase with phase | phase <;> rw [phase]
  · exact ⟨(tallied.mono low).quiet (by simp [SenderPhase.batch]), by simp⟩
  · exact ⟨(tallied.mono low).quiet (by simp [SenderPhase.batch]), by simp⟩

/-- From the top of the loop the scan goes on only where no chunk has exhausted its retries,
and names each timed-out chunk once. -/
theorem scan_spared (laid : sender.tracker.Laid) (fits : sender.tracker.chunks.length ≤ 2 ^ 32)
    (taken : sender.step data event = some (next, written)) (top : sender.phase = .top)
    (scanned : next.phase = .retransmit timedOut) :
    timedOut.Nodup ∧ ∀ chunk ∈ sender.tracker.chunks,
      chunk.state.attempts ≤ sender.config.maxRetries.toNat := by
  cases event with
  | iterate =>
    obtain ⟨_, _, _, gaveUp | ⟨spared, _, phase⟩⟩ := iterate_cases taken
    · rw [gaveUp] at scanned
      cases scanned
    · rw [phase] at scanned
      cases scanned
      exact ⟨ChunkTracker.findTimedOut_nodup laid fits _ _, ChunkTracker.attempts_of_spared spared⟩
  | elapse =>
    simp only [step, Option.some.injEq, Prod.mk.injEq] at taken
    rw [← taken.1] at scanned
    simp [top] at scanned
  | _ => simp [step, top] at taken

theorem Accounted.move (accounted : Accounted maxRetries sender.tracker sender.phase sent)
    (small : maxRetries + 2 < 2 ^ 32) (move : SenderStep data sender event tracker phase written)
    (spared : ∀ timedOut, sender.phase = .top → phase = .retransmit timedOut →
      timedOut.Nodup ∧ ∀ chunk ∈ sender.tracker.chunks, chunk.state.attempts ≤ maxRetries) :
    Accounted maxRetries tracker phase (sent ++ written) := by
  have tallied := accounted.tallied
  have still : Accounted maxRetries sender.tracker sender.phase (sent ++ []) := by
    rw [List.append_nil]
    exact accounted
  cases move with
  | elapsed => exact still
  | exhausted top hit =>
    exact accounted.settled (by simp) (by simp) (by rw [top]; rfl) (by simp [top, SenderPhase.cap])
  | scanned top =>
    obtain ⟨once, low⟩ := spared _ top rfl
    rw [top] at tallied
    refine ⟨?_, fun timedOut same => by cases same; exact once⟩
    refine { tallied.quiet (by simp [SenderPhase.batch]) with capped := fun chunk member => ?_ }
    refine (low chunk member).trans ?_
    simp only [SenderPhase.cap]
    split <;> omega
  | opened ceased =>
    exact accounted.settled (by simp) (by simp) (by rw [ceased]; rfl) (by simp [ceased, SenderPhase.cap])
  | closed ceased =>
    exact accounted.settled (by simp) (by simp) (by rw [ceased]; rfl) (by simp [ceased, SenderPhase.cap])
  | @resent id timedOut due =>
    have once := List.nodup_cons.mp (accounted.once _ due)
    rw [due, SenderPhase.batch_retransmit, List.append_nil] at tallied
    refine ⟨?_, fun later same => by cases same; exact once.2⟩
    rw [SenderPhase.batch_retransmit, List.append_nil]
    apply tallied.retransmit
    · simp [SenderPhase.cap]
      omega
    · simp [SenderPhase.cap, once.1]
    · intro other different
      simp [SenderPhase.cap, different]
  | @filled batch batched id info filling next found =>
    rw [filling, SenderPhase.batch_fill] at tallied
    obtain ⟨⟨again, foundAgain, pending⟩, _⟩ :=
      ChunkTracker.markInFlight_next tallied.laid tallied.fits next sender.clock 1
    cases Option.some.inj (found.symm.trans foundAgain)
    refine ⟨?_, by simp⟩
    rw [List.append_nil, SenderPhase.batch_fill, ← List.append_assoc]
    refine tallied.send found (by simp [pending]) (by simp [SenderPhase.cap]) ?_ sender.clock
    exact fun other _ => Nat.le_refl _
  | spun => exact still
  | flushed filling =>
    rw [filling, SenderPhase.batch_fill] at tallied
    exact ⟨(tallied.quiet (by simp)).mono (by simp [SenderPhase.cap]), by simp⟩
  | waited => exact still
  | refused select error =>
    exact accounted.settled (by simp) (by simp) (by rw [select]; rfl) (by simp [select, SenderPhase.cap])
  | acked arrived isAck marked =>
    rw [arriving_select arrived, SenderPhase.batch_select, List.append_nil] at tallied
    exact .completed (tallied.markAcked (cap_le _) marked) (cap_le _)
  | @nacked _ frame arrived isNack =>
    rw [arriving_select arrived, SenderPhase.batch_select, List.append_nil] at tallied
    have resent : Tallied (sender.tracker.retransmit sender.clock frame.chunkId)
        (sent ++ sender.tracker.resent data frame.chunkId) (fun _ => maxRetries + 2)
        (maxRetries + 2) := by
      apply tallied.retransmit
      · exact small
      · exact Nat.le_refl _
      · exact fun other _ => cap_le _ other
    rw [← List.append_assoc]
    exact .completed resent fun _ => Nat.le_refl _
  | passed select =>
    rw [select, SenderPhase.batch_select, List.append_nil] at tallied
    exact .completed tallied (cap_le _)
  | returned closing again =>
    refine accounted.settled ?_ (by simp) (by rw [closing]; rfl) (by simp [closing, SenderPhase.cap])
    rcases again with rfl | rfl <;> simp

theorem step_nacked (taken : sender.step data event = some (next, written))
    (arrived : sender.arriving event = some frame) (isNack : frame.1 = frameNack) :
    next.tracker = sender.tracker.retransmit sender.clock frame.chunkId ∧
      written = sender.tracker.resent data frame.chunkId ++
        (sender.tracker.retransmit sender.clock frame.chunkId).completionFrames data := by
  have notAck : frameNack ≠ frameAck := by decide
  unfold arriving at arrived
  split at arrived
  · rename_i select
    split at arrived
    · rename_i read
      cases arrived
      simp only [step, select, read, process, isNack, notAck, ↓reduceIte, Option.some.injEq,
        Prod.mk.injEq] at taken
      obtain ⟨rfl, rfl⟩ := taken
      exact ⟨rfl, rfl⟩
    · cases arrived
  · cases arrived

end Sender

namespace SendLog

open Sender

theorem withinRetries_iff (log : SendLog) : log.withinRetries ↔
    ∀ extent ∈ log.sender.tracker.chunks.map ChunkInfo.extent,
      extent.1 ∉ log.sender.tracker.ackedIds →
      writes extent.1 log.sent ≤ log.sender.config.maxRetries.toNat + 1 := by
  rw [List.forall_mem_map]
  exact Iff.rfl

theorem withinRetries_quiet (within : log.withinRetries)
    (limit : next.config.maxRetries = log.sender.config.maxRetries)
    (layout : next.tracker.chunks.map ChunkInfo.extent =
      log.sender.tracker.chunks.map ChunkInfo.extent)
    (grows : log.sender.tracker.ackedIds ⊆ next.tracker.ackedIds)
    (quiet : ∀ id, writes id written = 0) :
    withinRetries { sender := next, sent := log.sent ++ written } := by
  rw [withinRetries_iff] at within ⊢
  intro extent member unacked
  rw [layout] at member
  have few := within extent member fun acked => unacked (grows acked)
  rw [writes_append, quiet, limit]
  exact few

theorem withinRetries_of_accounted
    (accounted : Accounted log.sender.config.maxRetries.toNat log.sender.tracker
      log.sender.phase log.sent)
    (low : ∀ id, log.sender.phase.cap log.sender.config.maxRetries.toNat id ≤
      log.sender.config.maxRetries.toNat + 1) :
    log.withinRetries := by
  intro chunk member unacked
  have counted := accounted.tallied.waiting chunk member unacked
  have capped := accounted.tallied.capped chunk member
  rw [writes_append] at counted
  have bound := low chunk.id
  omega

/-- A NACK keeps the bound exactly when its chunk has a retry left or has been acknowledged. -/
theorem withinRetries_nacked
    (accounted : Accounted log.sender.config.maxRetries.toNat log.sender.tracker
      log.sender.phase log.sent)
    (within : log.withinRetries) (taken : log.sender.step data event = some (next, written))
    (arrived : log.sender.arriving event = some frame) (isNack : frame.1 = frameNack) :
    withinRetries { sender := next, sent := log.sent ++ written } ↔
      log.sender.nackInTime event = true := by
  obtain ⟨tracker, rfl⟩ := step_nacked taken arrived isNack
  have limit := step_maxRetries taken
  have tallied := accounted.tallied
  rw [arriving_select arrived, SenderPhase.batch_select, List.append_nil] at tallied
  have layout : next.tracker.chunks.map ChunkInfo.extent = log.sender.tracker.chunks.map
      ChunkInfo.extent := by
    rw [tracker, ChunkTracker.retransmit_extents]
  have acks : next.tracker.ackedIds = log.sender.tracker.ackedIds := by
    rw [tracker, retransmit_ackedIds]
  cases found : log.sender.tracker.chunk? frame.chunkId with
  | none =>
    have inTime : log.sender.nackInTime event = true := by simp [nackInTime, arrived, found]
    refine iff_of_true (withinRetries_quiet within limit layout acks.ge fun id => ?_) inTime
    simp [ChunkTracker.resent, found]
  | some info =>
    have member : info ∈ log.sender.tracker.chunks := List.mem_of_find?_eq_some found
    have named : info.id = frame.chunkId := ChunkTracker.chunk?_id found
    have counts : ∀ id, writes id (log.sent ++ (log.sender.tracker.resent data frame.chunkId ++
        (log.sender.tracker.retransmit log.sender.clock frame.chunkId).completionFrames data)) =
        writes id log.sent + if info.id = id then 1 else 0 := by
      intro _
      simp [ChunkTracker.resent, found, Slice.dataFrame, named]
    have inTime : log.sender.nackInTime event = true ↔
        (info.id ∉ log.sender.tracker.ackedIds →
          info.state.attempts ≤ log.sender.config.maxRetries.toNat) := by
      simp [nackInTime, arrived, isNack, found, or_iff_not_imp_left]
    rw [withinRetries_iff, layout, acks, limit, inTime, List.forall_mem_map]
    constructor
    · intro every unacked
      have few := every info member unacked
      have same := tallied.waiting info member unacked
      simp only [ChunkInfo.extent, counts, ↓reduceIte] at few
      omega
    · intro spared chunk present unacked
      simp only [ChunkInfo.extent, counts] at unacked ⊢
      split
      · rename_i same
        rw [← same] at unacked ⊢
        have low := spared unacked
        have counted := tallied.waiting info member unacked
        omega
      · exact within chunk present unacked

/-- Every other step keeps the bound. -/
theorem withinRetries_kept (within : log.withinRetries)
    (accounted : Accounted log.sender.config.maxRetries.toNat log.sender.tracker
      log.sender.phase log.sent)
    (after : Accounted log.sender.config.maxRetries.toNat next.tracker next.phase
      (log.sent ++ written))
    (limit : next.config.maxRetries = log.sender.config.maxRetries)
    (notNack : ∀ frame, log.sender.arriving event = some frame → frame.1 ≠ frameNack)
    (move : SenderStep data log.sender event next.tracker next.phase written) :
    withinRetries { sender := next, sent := log.sent ++ written } := by
  have capped : (∀ id, next.phase.cap log.sender.config.maxRetries.toNat id ≤
    log.sender.config.maxRetries.toNat + 1) →
      withinRetries { sender := next, sent := log.sent ++ written } := by
    intro _
    apply withinRetries_of_accounted
    · rw [limit]
      exact after
    · rwa [limit]
  have unchanged : next.tracker = log.sender.tracker → (∀ id, writes id written = 0) →
      withinRetries { sender := next, sent := log.sent ++ written } := by
    intro same quiet
    exact withinRetries_quiet within limit (by rw [same]) (by rw [same]) quiet
  obtain ⟨clock, tracker, rto, config, buf, phase⟩ := next
  change SenderStep data log.sender event tracker phase written at move
  cases move with
  | elapsed => exact unchanged rfl (by simp)
  | exhausted top hit => exact unchanged rfl (by simp)
  | scanned top => exact unchanged rfl (by simp)
  | opened ceased => exact unchanged rfl (by simp)
  | closed ceased => exact unchanged rfl (by simp)
  | resent due =>
    apply capped
    intro id
    simp only [SenderPhase.cap]
    split <;> omega
  | filled filling next found => exact capped fun id => Nat.le_refl _
  | spun => exact unchanged rfl (by simp)
  | flushed filling => exact capped fun id => Nat.le_refl _
  | waited => exact unchanged rfl (by simp)
  | refused select error => exact unchanged rfl (by simp)
  | acked arrived isAck marked =>
    refine withinRetries_quiet within limit (ChunkTracker.markAcked_extents marked) ?_ (by simp)
    rw [(ChunkTracker.getElem?_markAcked accounted.tallied.laid marked).1]
    exact Finset.subset_insert _ _
  | nacked arrived isNack => exact absurd isNack (notNack _ arrived)
  | passed select => exact unchanged rfl (by simp)
  | returned closing again =>
    refine unchanged rfl fun id => ?_
    rcases again with rfl | rfl <;> simp

theorem withinRetries_step
    (accounted : Accounted log.sender.config.maxRetries.toNat log.sender.tracker
      log.sender.phase log.sent)
    (after : Accounted log.sender.config.maxRetries.toNat next.tracker next.phase
      (log.sent ++ written))
    (within : log.withinRetries) (taken : log.sender.step data event = some (next, written)) :
    withinRetries { sender := next, sent := log.sent ++ written } ↔
      log.sender.nackInTime event = true := by
  by_cases nacked : ∃ frame, log.sender.arriving event = some frame ∧ frame.1 = frameNack
  · obtain ⟨frame, arrived, isNack⟩ := nacked
    exact withinRetries_nacked accounted within taken arrived isNack
  · have notNack : ∀ frame, log.sender.arriving event = some frame → frame.1 ≠ frameNack :=
      fun frame arrived isNack => nacked ⟨frame, arrived, isNack⟩
    refine iff_of_true (withinRetries_kept within accounted after (step_maxRetries taken) notNack
      (step_cases taken)) ?_
    refine (Option.all_eq_true _ _).mpr fun frame arrived => ?_
    simp [notNack frame arrived]

/-- What every run of the log keeps, with the limit it started with. -/
structure Kept (maxRetries : Nat) (log : SendLog) : Prop where
  limit : log.sender.config.maxRetries.toNat = maxRetries
  accounted : Accounted maxRetries log.sender.tracker log.sender.phase log.sent

theorem start_kept (started : Sender.start data chunkSize config clock = some start)
    (fits : start.tracker.chunks.length ≤ 2 ^ 32) :
    Kept config.maxRetries.toNat { sender := start, sent := [] } := by
  obtain ⟨_, built, rfl⟩ := Option.map_eq_some_iff.mp started
  have pending := ChunkTracker.new_pending built
  refine ⟨rfl, ⟨⟨?_, fits, ?_, ?_, ?_, fun id _ => rfl⟩, by simp⟩⟩
  · rw [ChunkTracker.Laid, (ChunkTracker.new_fields built).2.2.1]
    exact ChunkTracker.new_tiles built
  · intro chunk member
    rw [pending chunk member]
    exact Nat.zero_le _
  · intro chunk member _
    rw [pending chunk member]
    rfl
  · intro _ _ acked
    simp [(ChunkTracker.new_fields built).1] at acked

theorem Kept.step (kept : Kept maxRetries log) (small : maxRetries + 2 < 2 ^ 32)
    (taken : log.sender.step data event = some (next, written)) :
    Kept maxRetries { sender := next, sent := log.sent ++ written } := by
  have limit := kept.limit
  refine ⟨by rw [step_maxRetries taken, limit], kept.accounted.move small (step_cases taken) ?_⟩
  intro _ top scanned
  have spared := scan_spared kept.accounted.tallied.laid kept.accounted.tallied.fits taken top scanned
  rwa [limit] at spared

/-- Every chunk stays within `max_retries + 1` writes until its ACK exactly in the runs in which
each NACK comes in time; and in every run the sender writes a bounded number of DATA frames. -/
theorem withinRetries_iff_nacksInTime
    (started : Sender.start data chunkSize config clock = some start)
    (fits : start.tracker.chunks.length ≤ 2 ^ 32) (small : config.maxRetries.toNat + 2 < 2 ^ 32)
    (run : Execution (SendLog.step data) anything { sender := start, sent := [] } events log) :
    (EveryStep (SendLog.step data) (fun _ _ after => after.withinRetries)
      { sender := start, sent := [] } events ↔
      Execution (SendLog.step data) (fun log event => log.sender.nackInTime event = true)
        { sender := start, sent := [] } events log) ∧
    log.sent.countP Frame.isData ≤ 2 * (config.maxRetries.toNat + 2) *
    log.sender.tracker.chunks.length := by
  have kept := start_kept started fits
  have keeps : ∀ (log : SendLog) event after, Kept config.maxRetries.toNat log →
      SendLog.step data log event = some after → Kept config.maxRetries.toNat after := by
    intro log event after kept taken
    obtain ⟨⟨next, written⟩, stepped, rfl⟩ := Option.map_eq_some_iff.mp taken
    exact kept.step small stepped
  constructor
  · refine run.everyState_iff (Kept config.maxRetries.toNat) kept keeps ?_ ?_
    · intro _ _ _
      exact Nat.zero_le _
    · intro log event after kept within taken
      obtain ⟨⟨_, _⟩, stepped, rfl⟩ := Option.map_eq_some_iff.mp taken
      have accounted := kept.accounted
      have after := (kept.step small stepped).accounted
      rw [← kept.limit] at accounted after
      exact withinRetries_step accounted after within stepped
  · have tallied := (run.invariant (Kept config.maxRetries.toNat) (fun log event after kept _ taken =>
      keeps log event after kept taken) kept).accounted.tallied
    have counted := tallied.countP_isData_le (cap_le _)
    rw [List.countP_append] at counted
    omega

/-- One chunk, sent, asked for again by a NACK and sent once more after a timeout. -/
theorem withinRetries_iff_nacksInTime_once :
    ∃ start log, Sender.start eightBytes 8 .default 0 = some start ∧
      Execution (SendLog.step eightBytes) (fun log event => log.sender.nackInTime event = true)
        { sender := start, sent := [] }
        (turn 2 ((encodeNack 0 0 1).take 13) ++
          ([.elapse 501, .iterate none, .resend, .resend, .fill, .deadline] :
            List SenderEvent)) log ∧
      EveryStep (SendLog.step eightBytes) (fun _ _ after => after.withinRetries)
        { sender := start, sent := [] }
          (turn 2 ((encodeNack 0 0 1).take 13) ++
            ([.elapse 501, .iterate none, .resend, .resend, .fill, .deadline] : List SenderEvent)) ∧
      writes 0 log.sent = 3 := by
  let start := (Sender.start eightBytes 8 .default 0).get rfl
  have started : Sender.start eightBytes 8 .default 0 = some start := rfl
  obtain ⟨log, run, three⟩ := exists_execution (fun log : SendLog => writes 0 log.sent = 3)
    (show (replayWhere (SendLog.step eightBytes) (fun log event => log.sender.nackInTime event)
      { sender := start, sent := [] }
      (turn 2 ((encodeNack 0 0 1).take 13) ++
        ([.elapse 501, .iterate none, .resend, .resend, .fill, .deadline] : List SenderEvent))).any _ =
        true by decide)
  exact ⟨start, log, started, run,
    (withinRetries_iff_nacksInTime started (by decide) (by decide) run.plain).1.mpr
    run, by simpa using three⟩

/-- Five timeouts bring the only chunk to its sixth write, which `max_retries` allows; the NACK
in the same turn makes it the seventh, and nothing has been acknowledged. -/
theorem nack_after_last_retry :
    ∃ start log, Sender.start eightBytes 8 .default 0 = some start ∧
      Execution (SendLog.step eightBytes) anything { sender := start, sent := [] }
        (([.iterate none, .resend, .fill, .fill, .deadline] : List SenderEvent) ++
          ([.elapse 501, .iterate none, .resend, .resend, .fill, .deadline] : List SenderEvent) ++
          ([.elapse 501, .iterate none, .resend, .resend, .fill, .deadline] : List SenderEvent) ++
          ([.elapse 501, .iterate none, .resend, .resend, .deadline] : List SenderEvent) ++
          ([.elapse 501, .iterate none, .resend, .resend, .deadline] : List SenderEvent) ++
          ([.elapse 501, .iterate none, .resend, .resend] : List SenderEvent) ++
          ((encodeNack 0 0 1).take 13).map SenderEvent.byte) log ∧
      log.sender.tracker.ackedIds = ∅ ∧ log.sender.config.maxRetries = 5 ∧ writes 0 log.sent = 7 :=
  ⟨_, _, rfl, execution_iff_replay.mpr rfl, by decide, rfl, by decide⟩

end SendLog

end DistributedOs.Reliable
