import DistributedOs.Control.Decision
import DistributedOs.Semantics.Execution
import Mathlib.Data.UInt

/-! The control loop: writes and round trips are recorded, and every 100 ms a tick may take a
snapshot, classify it and decide. -/

namespace DistributedOs.Control

open Semantics
open DistributedOs.Transfer (TransportMode)

variable {F : Type} [Floating F]

structure ControlLoop (F : Type) where
  quic : Bool
  metrics : MetricsHistory F
  config : TuningConfig F
  classifier : Classifier
  decisionEngine : DecisionEngine
  lastDecision : Nat
  transportMode : Option TransportMode

/-- What a tick comes to that does not turn back at once: its snapshot and what is made of it,
and, unless the cooldown stops it, what is decided. -/
structure TickReport (F : Type) where
  metrics : NetworkMetrics F
  classification : ClassificationResult F
  decision : Option (Option (ControlDecision F))

namespace ControlLoop

def cooldown : Nat := 500000000

def new (quic : Bool) (cpus now : Nat) (transportMode : Option TransportMode) : ControlLoop F :=
  { quic, metrics := .new 30 now, config := .default cpus, classifier := .new, decisionEngine := .new now
    lastDecision := now - cooldown, transportMode }

/-- A tick of the loop's task, from its snapshot on. -/
def adjust (control : ControlLoop F) (now : Nat) : ControlLoop F × TickReport F :=
  let snapshot := control.metrics.snapshot now
  let classified := control.classifier.classify (snapshot.2.lastN 5)
  let control := { control with metrics := snapshot.2, classifier := classified.2 }
  if now - control.lastDecision < cooldown then
    (control, { metrics := snapshot.1, classification := classified.1, decision := none })
  else
    let decided :=
      control.decisionEngine.decideForTransport control.quic now classified.1 control.config
        control.transportMode
    let control := { control with decisionEngine := decided.2 }
    (match decided.1 with
      | some decision => { control with config := decision.apply control.config, lastDecision := now }
      | none => control,
      { metrics := snapshot.1, classification := classified.1, decision := some decided.1 })

/-- A tick. The history that was just added to is not empty, so the second `continue` is never
taken. -/
def tick (control : ControlLoop F) (now : Nat) : ControlLoop F × Option (TickReport F) :=
  if control.metrics.len = 0 then (control, none)
  else
    let (control, report) := control.adjust now
    (control, some report)

end ControlLoop

inductive ControlEvent (F : Type) where
  | recordWrite (bytes durationUs : UInt64) (isRetransmit : Bool)
  | recordRtt (rttMs : F)
  | tick (now : Nat)

/-- The loop, with the bytes of all writes, of those since the last tick, and the reports of the
ticks so far. -/
structure ControlRun (F : Type) where
  control : ControlLoop F
  recorded : List UInt64
  pending : List UInt64
  reports : List (TickReport F)

namespace ControlRun

def new (quic : Bool) (cpus now : Nat) (transportMode : Option TransportMode) : ControlRun F :=
  { control := .new quic cpus now transportMode, recorded := [], pending := [], reports := [] }

def step (run : ControlRun F) : ControlEvent F → Option (ControlRun F)
  | .recordWrite bytes durationUs isRetransmit =>
    some { run with
      control := { run.control with metrics := run.control.metrics.recordWrite bytes durationUs isRetransmit }
      recorded := run.recorded ++ [bytes]
      pending := run.pending ++ [bytes] }
  | .recordRtt rttMs =>
    some { run with control := { run.control with metrics := run.control.metrics.recordRtt rttMs } }
  | .tick now =>
    let (control, report) := run.control.tick now
    some { run with control, pending := [], reports := run.reports ++ report.toList }

def accounted (run : ControlRun F) : UInt64 := (run.reports.map (·.metrics.inFlightBytes)).sum

/-- A tick after a write reports once more, decides, and leaves no byte out of the snapshots and
none in two of them. -/
def Attended (run : ControlRun F) (event : ControlEvent F) (after : ControlRun F) : Prop :=
  match event with
  | .tick _ =>
    run.pending ≠ [] →
      ∃ report, after.reports = run.reports ++ [report] ∧ report.decision.isSome ∧
      after.accounted = run.recorded.sum
  | _ => True

/-- A tick comes when nothing was written since the last one. -/
def idle (run : ControlRun F) : ControlEvent F → Prop
  | .tick _ => run.pending = []
  | _ => True

variable {run after : ControlRun F} {event : ControlEvent F}

/-- The first sample is never taken. -/
structure Unsampled (run : ControlRun F) : Prop where
  samples : run.control.metrics.samples = []
  reports : run.reports = []

theorem Unsampled.step (unsampled : Unsampled run) (taken : run.step event = some after) :
    Unsampled after := by
  obtain ⟨samples, reports⟩ := unsampled
  cases event with
  | recordWrite =>
    cases taken
    exact ⟨samples, reports⟩
  | recordRtt =>
    cases taken
    exact ⟨samples, reports⟩
  | tick =>
    have empty : run.control.metrics.len = 0 := by rw [MetricsHistory.len, samples, List.length_nil]
    simp only [ControlRun.step, ControlLoop.tick, if_pos empty] at taken
    cases taken
    exact ⟨samples, by simp [reports]⟩

/-- In a run of the loop every tick attends to the writes before it exactly when there are none. -/
theorem attended_of_run (quic : Bool) (cpus now : Nat) (transportMode : Option TransportMode)
    {events : List (ControlEvent F)}
    (run : Execution step anything (.new quic cpus now transportMode) events after) :
    EveryStep step Attended (.new quic cpus now transportMode) events ↔
      Execution step idle (.new quic cpus now transportMode) events after := by
  refine run.everyStep_iff Unsampled ⟨rfl, rfl⟩ (fun _ _ _ unsampled taken => unsampled.step taken) ?_
  intro _ event _ unsampled taken
  cases event with
  | tick =>
    constructor
    · intro attended
      by_contra written
      obtain ⟨_, reports, _⟩ := attended written
      simp [(unsampled.step taken).reports] at reports
    · intro none written
      exact absurd none written
  | _ => exact Iff.rfl

/-- A round trip, two ticks, and a write that no tick has come after. -/
def quietTicks : List (ControlEvent Rat) :=
  [.recordRtt 20, .tick 600000000, .tick 700000000, .recordWrite 65536 900 false]

theorem attended_of_write :
    EveryStep step Attended (.new false 4 500000000 none : ControlRun Rat) quietTicks := by
  have idling : Execution step idle (.new false 4 500000000 none : ControlRun Rat) quietTicks _ :=
    .next trivial rfl (.next rfl rfl (.next rfl rfl (.next trivial rfl .done)))
  exact (attended_of_run false 4 500000000 none idling.plain).mpr idling

/-- The tick after the first write takes no snapshot. -/
theorem write_unattended :
    ¬ EveryStep step Attended (.new false 4 500000000 none : ControlRun Rat)
      [.recordWrite 65536 900 false, .tick 600000000] := by
  intro attended
  have second := (attended.tail rfl).head rfl
  obtain ⟨_, reports, _⟩ := second (by simp)
  simp [ControlRun.new, ControlLoop.new, MetricsHistory.recordWrite, MetricsHistory.new,
    MetricsHistory.len] at reports

end ControlRun

end DistributedOs.Control
