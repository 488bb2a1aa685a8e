import DistributedOs.Adaptive.Planner
import DistributedOs.Semantics.Execution

/-! The feedback loop: the planner and the tuner write the one configuration that is in force, and
a plan that costs throughput is taken back. Only the loop writes it, so its snapshots never fail. -/

namespace DistributedOs.Adaptive

open Semantics
open DistributedOs.Transfer (TransportMode)

variable {F : Type} [Floating F]

/-- Between two waits of the loop: before the classification, or after a plan was applied. -/
inductive LoopPhase (F : Type) where
  | waiting
  | measuring (currentTp : F) (newConfig : TuningConfig F)

structure FeedbackLoop (F : Type) where
  decisionEngine : DecisionEngine
  tuner : AutoTuner F
  cycle : UInt32
  prevTp : F
  prevConfig : TuningConfig F
  currentConfig : TuningConfig F
  phase : LoopPhase F

/-- A wait ends. `classify` has what the samples come to: the throughput, the report, and the mode
that the switcher or the override asks for; with fewer than three samples nothing is done. -/
inductive LoopEvent (F : Type) where
  | fewSamples
  | classify (report : BottleneckReport F) (currentTp : F) (targetMode : TransportMode)
  | measure (postTp : F)

namespace FeedbackLoop

def new (cpus : Nat) (config : TuningConfig F) : FeedbackLoop F :=
  { decisionEngine := .new cpus, tuner := .new, cycle := 0, prevTp := 0.0, prevConfig := config,
    currentConfig := config
    phase := .waiting }

/-- The actions that follow the plan's when the mode is to change. -/
def switchActions : TransportMode → List (OptimizationAction F)
  | .tcpZeroCopy => [.enableZeroCopy]
  | .quic => [.switchToQuic]
  | .udpCustom => [.switchToUdpCustom]
  | .tcpBuffered => []

def consider (loop : FeedbackLoop F) (report : BottleneckReport F) (targetMode : TransportMode) :
    ActionPlan F × Bool :=
  let plan := loop.decisionEngine.plan report loop.currentConfig
  let hasAction := match plan.actions.head? with
    | some .noOp => false
    | _ => true
  if targetMode ≠ loop.currentConfig.transportMode then
    ({ plan with actions := plan.actions ++ switchActions targetMode }, true)
  else (plan, hasAction)

/-- The tuner's turn, every third cycle, and the end of the cycle. -/
def finishCycle (loop : FeedbackLoop F) (currentTp : F) : FeedbackLoop F :=
  let loop :=
    if loop.cycle % 3 = 2 then
      let (candidate, tuner) := loop.tuner.step loop.currentConfig currentTp
      { loop with tuner, currentConfig := candidate.getD loop.currentConfig }
    else loop
  { loop with
    prevTp := if loop.prevTp ≤ 0.0 ∧ 0.0 ≤ loop.prevTp then currentTp else loop.prevTp
    cycle := loop.cycle + 1
    phase := .waiting }

/-- The plan is applied; its effect is measured after one more wait. -/
def applyPlan (loop : FeedbackLoop F) (newConfig : TuningConfig F)
    (currentTp : F) : FeedbackLoop F :=
  { loop with currentConfig := newConfig, phase := .measuring currentTp newConfig }

/-- `post_tp < prev_tp * 0.98 && prev_tp > 0.0` reverts, anything else commits. -/
def settle (loop : FeedbackLoop F) (newConfig : TuningConfig F) (postTp : F) : FeedbackLoop F :=
  if postTp < loop.prevTp * 0.98 ∧ 0.0 < loop.prevTp then
    { loop with currentConfig := loop.prevConfig, prevTp := postTp }
  else { loop with prevConfig := newConfig, prevTp := postTp }

/-- The whole configuration that a plan leads to. -/
def targetConfig (loop : FeedbackLoop F) (report : BottleneckReport F)
    (targetMode : TransportMode) : TuningConfig F :=
  { (loop.consider report targetMode).1.applyAll loop.currentConfig with transportMode := targetMode }

def step (loop : FeedbackLoop F) (event : LoopEvent F) : Option (FeedbackLoop F) :=
  match event, loop.phase with
  | .fewSamples, .waiting => some loop
  | .classify report currentTp targetMode, .waiting =>
    if (loop.consider report targetMode).2 then
      some (loop.applyPlan (loop.targetConfig report targetMode) currentTp)
    else some (loop.finishCycle currentTp)
  | .measure postTp, .measuring currentTp newConfig =>
    some ((loop.settle newConfig postTp).finishCycle currentTp)
  | _, _ => none

def moderate (loop : FeedbackLoop F) : LoopEvent F → Prop
  | .classify report _ _ => ¬ Overshoots report loop.currentConfig
  | _ => True

/-- What the loop may put in force again is in range too. -/
structure Ranged (loop : FeedbackLoop F) : Prop where
  current : loop.currentConfig.InRange
  previous : loop.prevConfig.InRange
  tuner : loop.tuner.Bounded
  measured : ∀ currentTp newConfig, loop.phase = .measuring currentTp newConfig → newConfig.InRange

variable {loop after : FeedbackLoop F} {event : LoopEvent F} {config : TuningConfig F}

theorem Ranged.new (cpus : Nat) (inRange : config.InRange) : Ranged (.new cpus config) :=
  ⟨inRange, inRange, AutoTuner.bounded_new, nofun⟩

theorem Ranged.finishCycle (ranged : Ranged loop)
    (currentTp : F) : Ranged (loop.finishCycle currentTp) := by
  unfold FeedbackLoop.finishCycle
  dsimp only
  split
  · obtain ⟨candidate, bounded⟩ := ranged.tuner.step ranged.current currentTp
    refine ⟨?_, ranged.previous, bounded, fun _ _ same => by cases same⟩
    dsimp only
    cases tried : (loop.tuner.step loop.currentConfig currentTp).1 with
    | none => exact ranged.current
    | some config => exact candidate config tried
  · exact ⟨ranged.current, ranged.previous, ranged.tuner, fun _ _ same => by cases same⟩

omit [Floating F] in
theorem Ranged.applyPlan (ranged : Ranged loop) (inRange : newConfig.InRange) (currentTp : F) :
    Ranged (loop.applyPlan newConfig currentTp) := by
  refine ⟨inRange, ranged.previous, ranged.tuner, ?_⟩
  intro _ _ same
  cases same
  exact inRange

theorem Ranged.settle (ranged : Ranged loop) (inRange : newConfig.InRange) (postTp : F) :
    Ranged (loop.settle newConfig postTp) := by
  unfold FeedbackLoop.settle
  split
  · exact ⟨ranged.previous, ranged.previous, ranged.tuner, ranged.measured⟩
  · exact ⟨ranged.current, inRange, ranged.tuner, ranged.measured⟩

theorem inRange_targetConfig_iff (ranged : Ranged loop) (report : BottleneckReport F)
    (targetMode : TransportMode) :
    (loop.targetConfig report targetMode).InRange ↔ ¬ Overshoots report loop.currentConfig := by
  rw [targetConfig, inRange_withMode, ← inRange_plan_iff ranged.current loop.decisionEngine report]
  unfold consider
  dsimp only
  split
  · rw [ActionPlan.applyAll, applyActions_append, ActionPlan.applyAll]
    cases targetMode with
    | tcpBuffered => exact Iff.rfl
    | tcpZeroCopy | quic | udpCustom => exact inRange_withMode _ _
  · exact Iff.rfl

theorem not_overshoots_of_idle (ranged : Ranged loop)
    (idle : (loop.consider report targetMode).2 ≠ true) :
    ¬ Overshoots report loop.currentConfig := by
  rintro ⟨certain, overshoots⟩
  have busy := noOp_notMem_planned ranged.current loop.decisionEngine.cpuCount
    (overshoots.imp And.left And.left)
  unfold consider at idle
  dsimp only at idle
  split at idle
  · exact idle rfl
  · rw [plan_actions, if_neg certain] at idle
    split at idle
    · rename_i first
      exact busy (List.mem_of_mem_head? first)
    · exact idle rfl

/-- A step leaves the configuration in range exactly when it is moderate, and then all that may
come back is in range. -/
theorem ranged_step (ranged : Ranged loop) (taken : step loop event = some after) :
    (after.currentConfig.InRange ↔ loop.moderate event) ∧
      (after.currentConfig.InRange → Ranged after) := by
  have settled (kept : Ranged after) (moderate : loop.moderate event) :
      (after.currentConfig.InRange ↔ loop.moderate event) ∧
      (after.currentConfig.InRange → Ranged after) :=
    ⟨iff_of_true kept.current moderate, fun _ => kept⟩
  unfold step at taken
  split at taken
  · cases taken
    exact settled ranged trivial
  · rename_i report currentTp targetMode _
    have target := inRange_targetConfig_iff ranged report targetMode
    split at taken
    · cases taken
      exact ⟨target, fun inRange => ranged.applyPlan inRange currentTp⟩
    · rename_i idle
      cases taken
      exact settled (ranged.finishCycle currentTp) (not_overshoots_of_idle ranged idle)
  · rename_i postTp currentTp _ measuring
    cases taken
    exact settled ((ranged.settle (ranged.measured _ _ measuring) postTp).finishCycle currentTp) trivial
  · cases taken

/-- From a configuration in range, the one in force stays in range exactly when no step has the
planner double a chunk size of more than 512 KiB or overflow the batch size. -/
theorem inRange_of_run {cpus : Nat} {events : List (LoopEvent F)} {final : FeedbackLoop F}
    (inRange : config.InRange) (run : Execution step anything (.new cpus config) events final) :
    EveryStep step (fun _ _ after => after.currentConfig.InRange) (.new cpus config) events ↔
      Execution step moderate (.new cpus config) events final := by
  refine run.everyStep_iff_of_related Ranged (.new cpus inRange) ?_ ?_
  · intro loop event after ranged taken kept
    exact (ranged_step ranged taken).2 kept
  · intro _ _ _ ranged taken
    exact (ranged_step ranged taken).1

theorem exists_classify (waiting : loop.phase = .waiting)
    (report : BottleneckReport F) (currentTp : F) (targetMode : TransportMode) :
    ∃ after, step loop (.classify report currentTp targetMode) = some after := by
  unfold step
  simp only [waiting]
  split
  · exact ⟨_, rfl⟩
  · exact ⟨_, rfl⟩

theorem default_waiting (cpus : Nat) :
    (.new cpus (.default cpus) : FeedbackLoop Rat).phase = .waiting :=
  rfl

/-- A busy processor has the chunks shrink. -/
theorem inRange_of_cpuBound :
    EveryStep step (fun _ _ after => after.currentConfig.InRange)
      (.new 8 (.default 8) : FeedbackLoop Rat)
      [.classify ⟨.cpuBound, 0.8⟩ 100 .tcpBuffered] := by
  have ⟨_, taken⟩ := exists_classify (default_waiting 8) ⟨.cpuBound, 0.8⟩ 100 .tcpBuffered
  refine (inRange_of_run (TuningConfig.inRange_default 8) (.single trivial taken)).mpr (.single ?_ taken)
  rintro ⟨_, ⟨enlarges, _⟩ | ⟨_, overflow⟩⟩
  · cases enlarges
  · exact absurd overflow (by decide)

/-- One report of a slow network doubles the default chunk size. -/
theorem default_enlarged :
    ¬ EveryStep step (fun _ _ after => after.currentConfig.InRange)
      (.new 8 (.default 8) : FeedbackLoop Rat)
      [.classify ⟨.networkBound, 0.8⟩ 100 .tcpBuffered] := by
  have ⟨_, taken⟩ := exists_classify (default_waiting 8) ⟨.networkBound, 0.8⟩ 100 .tcpBuffered
  intro every
  have moderate := (ranged_step (.new 8 (TuningConfig.inRange_default 8)) taken).1.mp (every.head taken)
  exact moderate ⟨by decide +kernel, .inl ⟨rfl, by decide⟩⟩

end FeedbackLoop

end DistributedOs.Adaptive
