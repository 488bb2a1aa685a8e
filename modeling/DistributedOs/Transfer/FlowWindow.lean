import DistributedOs.Semantics.TaskPool
import Mathlib.Algebra.Order.BigOperators.Group.List
import Mathlib.Algebra.Order.Group.Nat

/-! The byte window of a connection: a counter of the bytes in flight beside a semaphore with
a permit for each byte. Every call of `acquire`, with the permit it returns, is one task, and
one step is one access to the counter or to the semaphore. Sizes of memory have 64 bits. -/

namespace DistributedOs.Transfer

open Semantics

/-- `available` are the permits the semaphore has left. -/
structure FlowWindow where
  maxBytes : UInt64
  available : Nat
  inFlight : UInt64

/-- `Semaphore::MAX_PERMITS`; a semaphore with more panics as it is made. -/
def maxPermits : Nat := 2 ^ 61 - 1

def FlowWindow.new (maxBytes : UInt64) : Option FlowWindow :=
  let max := max maxBytes 65536
  if max.toNat ≤ maxPermits then some { maxBytes := max, available := max.toNat, inFlight := 0 }
  else none

/-- The permits a call asks for, a number of 32 bits. -/
def acquired (maxBytes size : UInt64) : UInt32 := (min size maxBytes).toUInt32

/-- Where a call is: waiting for the semaphore, granted its permits, with the bytes counted
and the permit returned, with the permit dropped but its semaphore part, or over. -/
inductive AcquireStage where
  | waiting
  | granted
  | held
  | releasing
  | finished
  deriving DecidableEq, Repr

structure Acquire where
  size : UInt64
  stage : AcquireStage
  deriving DecidableEq

inductive AcquireChoice where
  | proceed
  | cancel
  deriving DecidableEq

/-- The semaphore grants the permits when it has them; a call that is dropped before it
returns gives back what it was granted. -/
def Acquire.turn (window : FlowWindow)
    (task : Acquire) : AcquireChoice → Option (FlowWindow × AcquireStage)
  | .proceed =>
    match task.stage with
    | .waiting =>
      let permits := (acquired window.maxBytes task.size).toNat
      if permits ≤ window.available then
        some ({ window with available := window.available - permits }, .granted)
      else none
    | .granted =>
      some ({ window with inFlight := window.inFlight +
        (acquired window.maxBytes task.size).toUInt64 }, .held)
    | .held =>
      some ({ window with inFlight := window.inFlight -
        (acquired window.maxBytes task.size).toUInt64 }, .releasing)
    | .releasing =>
      some ({ window with available := window.available +
        (acquired window.maxBytes task.size).toNat }, .finished)
    | .finished => none
  | .cancel =>
    match task.stage with
    | .waiting => some (window, .finished)
    | .granted =>
      some ({ window with available := window.available +
        (acquired window.maxBytes task.size).toNat }, .finished)
    | _ => none

def acquiring : Behaviour FlowWindow Acquire Empty UInt64 AcquireChoice where
  start size := { size, stage := .waiting }
  turn window _ task choice :=
    (task.turn window choice).map fun (window, stage) =>
      { shared := window, task := { task with stage }, spawned := [], effects := [] }

abbrev AcquireLabel := PoolLabel UInt64 AcquireChoice

abbrev SharedWindow := Pool FlowWindow Acquire Empty

def FlowWindow.opened (window : FlowWindow) : SharedWindow :=
  { shared := window, tasks := [], trace := [] }

/-- What the semaphore has given to a call. -/
def Acquire.reserves (maxBytes : UInt64) (task : Acquire) : Nat :=
  match task.stage with
  | .granted | .held | .releasing => (acquired maxBytes task.size).toNat
  | _ => 0

/-- The bytes of the permit a call has returned and that is not dropped. -/
def Acquire.outstanding (maxBytes : UInt64) (task : Acquire) : Nat :=
  match task.stage with
  | .held => (acquired maxBytes task.size).toNat
  | _ => 0

def AcquireStage.reserving : AcquireStage → Bool
  | .granted | .held | .releasing => true
  | _ => false

def share (maxBytes size : UInt64) : Nat := min size.toNat maxBytes.toNat

/-- The counter is the total of the outstanding permits and below the maximum, a granted call
has reserved its whole share, and a dropped permit returns as much to both accounts. -/
structure Accounted (window : SharedWindow) : Prop where
  counted : window.shared.inFlight.toNat =
    (window.tasks.map (Acquire.outstanding window.shared.maxBytes)).sum
  bounded : window.shared.inFlight ≤ window.shared.maxBytes
  reserved : ∀ task ∈ window.tasks, task.stage.reserving = true →
    task.reserves window.shared.maxBytes = share window.shared.maxBytes task.size
  dropped : ∀ task ∈ window.tasks, task.stage = .held →
    ∀ after stage, task.turn window.shared .proceed = some (after, stage) →
      after.inFlight.toNat + share window.shared.maxBytes task.size = window.shared.inFlight.toNat
  released : ∀ task ∈ window.tasks, task.stage = .releasing →
    ∀ after stage, task.turn window.shared .proceed = some (after, stage) →
      after.available = window.shared.available + share window.shared.maxBytes task.size

/-- The two accounts of a reachable window, whatever the sizes are. -/
structure Balanced (window : SharedWindow) : Prop where
  permits : window.shared.available + (window.tasks.map (Acquire.reserves window.shared.maxBytes)).sum =
    window.shared.maxBytes.toNat
  counted : window.shared.inFlight.toNat =
    (window.tasks.map (Acquire.outstanding window.shared.maxBytes)).sum

variable {window after : SharedWindow} {start : FlowWindow} {task : Acquire}
  {choice : AcquireChoice}
variable {maxBytes size : UInt64} {labels : List AcquireLabel}

theorem Acquire.outstanding_le (maxBytes : UInt64) (task : Acquire) :
    task.outstanding maxBytes ≤ task.reserves maxBytes := by
  obtain ⟨_, stage⟩ := task
  cases stage <;> simp [outstanding, reserves]

theorem sum_outstanding_le (maxBytes : UInt64) (tasks : List Acquire) :
    (tasks.map (Acquire.outstanding maxBytes)).sum ≤
      (tasks.map (Acquire.reserves maxBytes)).sum := by
  induction tasks with
  | nil => exact Nat.le_refl 0
  | cons task _ ih => exact Nat.add_le_add (task.outstanding_le maxBytes) ih

theorem Balanced.bounded (balanced : Balanced window) :
    window.shared.inFlight ≤ window.shared.maxBytes := by
  have permits := balanced.permits
  have counted := balanced.counted
  have below := sum_outstanding_le window.shared.maxBytes window.tasks
  rw [UInt64.le_iff_toNat_le]
  omega

theorem outstanding_le_counter (balanced : Balanced window) (member : task ∈ window.tasks) :
    task.outstanding window.shared.maxBytes ≤ window.shared.inFlight.toNat := by
  rw [balanced.counted]
  exact List.le_sum_of_mem (List.mem_map_of_mem member)

/-- A turn moves permits between the semaphore and the call, and bytes between the counter
and the permit. -/
structure Acquire.Moved (window after : FlowWindow) (task next : Acquire) : Prop where
  size : next.size = task.size
  maxBytes : after.maxBytes = window.maxBytes
  permits : after.available + next.reserves window.maxBytes = window.available +
    task.reserves window.maxBytes
  counted : after.inFlight.toNat + task.outstanding window.maxBytes =
    window.inFlight.toNat + next.outstanding window.maxBytes

theorem toNat_toUInt64 (permits : UInt32) : permits.toUInt64.toNat = permits.toNat :=
  UInt32.toNat_toUInt64 permits

theorem Acquire.moved_of_turn {window after : FlowWindow} {stage : AcquireStage}
    (turned : task.turn window choice = some (after, stage))
    (room : task.stage = .granted → window.inFlight.toNat + task.reserves window.maxBytes < 2 ^ 64)
    (counted : task.outstanding window.maxBytes ≤ window.inFlight.toNat) :
    Moved window after task { task with stage } := by
  obtain ⟨_, before⟩ := task
  cases choice with
  | proceed =>
    cases before with
    | waiting =>
      simp only [turn] at turned
      split at turned
      · rename_i enough
        cases turned
        exact ⟨rfl, rfl, Nat.sub_add_cancel enough, rfl⟩
      · cases turned
    | granted =>
      cases turned
      have within := room rfl
      refine ⟨rfl, rfl, rfl, ?_⟩
      rw [UInt64.toNat_add, toNat_toUInt64]
      exact Nat.mod_eq_of_lt within
    | held =>
      cases turned
      refine ⟨rfl, rfl, rfl, ?_⟩
      rw [UInt64.toNat_sub_of_le
        _ _ (by rw [UInt64.le_iff_toNat_le, toNat_toUInt64]; exact counted), toNat_toUInt64]
      exact Nat.sub_add_cancel counted
    | releasing =>
      cases turned
      exact ⟨rfl, rfl, rfl, rfl⟩
    | finished => cases turned
  | cancel =>
    cases before with
    | waiting | granted =>
      cases turned
      exact ⟨rfl, rfl, rfl, rfl⟩
    | _ => cases turned

theorem Balanced.opened (created : FlowWindow.new maxBytes = some start) :
    Balanced start.opened := by
  unfold FlowWindow.new at created
  simp only at created
  split at created
  · cases created
    exact ⟨rfl, rfl⟩
  · cases created

theorem Balanced.called (balanced : Balanced window) (size : UInt64) :
    Balanced { window with tasks := window.tasks ++ [acquiring.start size] } := by
  obtain ⟨permits, counted⟩ := balanced
  constructor
  · simpa [acquiring, Acquire.reserves] using permits
  · simpa [acquiring, Acquire.outstanding] using counted

theorem Balanced.room (balanced : Balanced window) {index : Nat}
    (present : window.tasks[index]? = some task) (granted : task.stage = .granted) :
    window.shared.inFlight.toNat + task.reserves window.shared.maxBytes ≤
      window.shared.maxBytes.toNat := by
  have permits := balanced.permits
  have counted := balanced.counted
  have others := Pool.sum_turned (Acquire.reserves window.shared.maxBytes)
      { task with stage := .finished } [] present
  have unheld := Pool.sum_turned (Acquire.outstanding window.shared.maxBytes)
      { task with stage := .finished } [] present
  have below := sum_outstanding_le window.shared.maxBytes
      (window.tasks.set index { task with stage := .finished } ++ [])
  have none : task.outstanding window.shared.maxBytes = 0 := by simp [Acquire.outstanding, granted]
  simp only [Acquire.reserves, Acquire.outstanding, List.map_nil, List.sum_nil] at others unheld none ⊢
  simp only [granted] at others unheld ⊢
  omega

theorem Balanced.step {label : AcquireLabel} (balanced : Balanced window)
    (taken : Pool.step acquiring window label = some after) : Balanced after := by
  rcases Pool.step_cases taken with ⟨size, rfl, rfl⟩ | ⟨index, _, task, _, rfl, present, turned, rfl⟩
  · exact balanced.called size
  · obtain ⟨⟨shared, stage⟩, moves, rfl⟩ := Option.map_eq_some_iff.mp turned
    have within := window.shared.maxBytes.toNat_lt
    have counts := outstanding_le_counter balanced (List.mem_of_getElem? present)
    have moved := Acquire.moved_of_turn moves
      (fun granted => Nat.lt_of_le_of_lt (balanced.room present granted) within) counts
    have reserves := Pool.sum_turned (Acquire.reserves window.shared.maxBytes)
      { task with stage } [] present
    have outstanding := Pool.sum_turned (Acquire.outstanding window.shared.maxBytes)
      { task with stage } [] present
    have permits := balanced.permits
    have counted := balanced.counted
    have movedPermits := moved.permits
    have movedCounted := moved.counted
    simp only [List.map_nil, List.sum_nil] at reserves outstanding
    constructor
    · show shared.available +
        ((window.tasks.set index { task with stage } ++ []).map (Acquire.reserves shared.maxBytes)).sum =
        shared.maxBytes.toNat
      rw [moved.maxBytes]
      omega
    · show shared.inFlight.toNat =
        ((window.tasks.set index { task with stage } ++ []).map
          (Acquire.outstanding shared.maxBytes)).sum
      rw [moved.maxBytes]
      omega

theorem toNat_acquired_iff : (acquired maxBytes size).toNat = share maxBytes size ↔
      share maxBytes size < 2 ^ 32 := by
  have low : (min size maxBytes).toNat = share maxBytes size := by
    show (if size ≤ maxBytes then size else maxBytes).toNat = min size.toNat maxBytes.toNat
    split <;> rename_i ordered <;> rw [UInt64.le_iff_toNat_le] at ordered <;> omega
  rw [acquired, UInt64.toNat_toUInt32, low]
  constructor
  · intro same
    rw [← same]
    exact Nat.mod_lt _ (by decide)
  · exact Nat.mod_eq_of_lt

/-- Whatever tasks come and go, the window is accounted for exactly when the share of every
granted call is below 2^32. -/
theorem accounted_iff (created : FlowWindow.new maxBytes = some start)
    (run : Execution (Pool.step acquiring) anything start.opened labels window) :
    Accounted window ↔
      ∀ task ∈ window.tasks, task.stage.reserving = true →
      share window.shared.maxBytes task.size < 2 ^ 32 := by
  have balanced : Balanced window :=
    run.invariant Balanced (fun _ _ _ balanced _ taken => balanced.step taken) (Balanced.opened created)
  have reserves (task : Acquire) (reserving : task.stage.reserving = true) :
      task.reserves window.shared.maxBytes = (acquired window.shared.maxBytes task.size).toNat := by
    obtain ⟨_, stage⟩ := task
    cases stage <;> first | rfl | cases reserving
  constructor
  · intro accounted task member reserving
    rw [← toNat_acquired_iff, ← reserves task reserving]
    exact accounted.reserved task member reserving
  · intro fits
    refine ⟨balanced.counted, balanced.bounded, ?_, ?_, ?_⟩
    · intro task member reserving
      rw [reserves task reserving]
      exact toNat_acquired_iff.mpr (fits task member reserving)
    · intro task member held after stage turned
      have whole := toNat_acquired_iff.mpr (fits task member (by rw [held]; rfl))
      have moved := Acquire.moved_of_turn turned (fun granted => by rw [granted] at held; cases held)
        (outstanding_le_counter balanced member)
      rw [Acquire.turn, held] at turned
      cases turned
      have counted := moved.counted
      rw [← whole]
      simpa only [Acquire.outstanding, held, Nat.add_zero] using counted
    · intro task member releasing _ _ turned
      rw [Acquire.turn, releasing] at turned
      cases turned
      rw [← toNat_acquired_iff.mpr (fits task member (by rw [releasing]; rfl))]

def holding (maxBytes size : UInt64) : Option SharedWindow :=
  (FlowWindow.new maxBytes).bind fun start =>
    replay (Pool.step acquiring) start.opened (.call size :: turns 0 [.proceed, .proceed])

theorem holding_run (held : holding maxBytes size = some window) :
    ∃ start, FlowWindow.new maxBytes = some start ∧
    Execution (Pool.step acquiring) anything start.opened
    (.call size :: turns 0 [.proceed, .proceed]) window := by
  obtain ⟨start, created, played⟩ := Option.bind_eq_some_iff.mp held
  exact ⟨start, created, execution_iff_replay.mpr played⟩

theorem accounted_small : ∃ start window, FlowWindow.new 65536 = some start ∧
    Execution (Pool.step acquiring) anything start.opened
      (.call 512 :: turns 0 [.proceed, .proceed]) window ∧
    window.shared.inFlight = 512 ∧ Accounted window := by
  obtain ⟨window, held, counter⟩ := (Option.any_eq_true _ _).mp
    (show (holding 65536 512).any (fun window => window.shared.inFlight = 512 ∧
      window.tasks.all fun task => share window.shared.maxBytes task.size < 2 ^ 32) = true from rfl)
  obtain ⟨counted, fits⟩ := of_decide_eq_true counter
  obtain ⟨start, created, run⟩ := holding_run held
  refine ⟨start, window, created, run, counted, (accounted_iff created run).mpr fun task member _ => ?_⟩
  exact of_decide_eq_true (List.all_eq_true.mp fits task member)

/-- A window of 2^32 bytes reserves nothing for a permit of all its bytes. -/
theorem cast_unaccounted : ∃ start window, FlowWindow.new 4294967296 = some start ∧
    Execution (Pool.step acquiring) anything start.opened
      (.call 4294967296 :: turns 0 [.proceed, .proceed]) window ∧
    ¬ Accounted window := by
  obtain ⟨window, held, none⟩ := (Option.any_eq_true _ _).mp
    (show (holding 4294967296 4294967296).any (fun window => window.shared.maxBytes = 4294967296 ∧
      window.tasks = [{ size := 4294967296, stage := .held }]) = true from rfl)
  obtain ⟨capacity, only⟩ := of_decide_eq_true none
  obtain ⟨start, created, run⟩ := holding_run held
  refine ⟨start, window, created, run, fun accounted => ?_⟩
  have reserved := accounted.reserved { size := 4294967296, stage := .held }
    (by rw [only]; exact List.mem_singleton_self _) rfl
  rw [capacity] at reserved
  exact absurd reserved (by decide)

end DistributedOs.Transfer
