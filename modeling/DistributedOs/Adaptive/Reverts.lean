import DistributedOs.Adaptive.FeedbackLoop

/-! What a regressing plan is reverted to, and what it was compared with. -/

namespace DistributedOs.Adaptive

open Semantics
open DistributedOs.Transfer (TransportMode)

variable {F : Type} [Floating F]

namespace FeedbackLoop

/-- `post_tp < prev_tp * 0.98 && prev_tp > 0.0`. -/
def Regresses (loop : FeedbackLoop F) (postTp : F) : Prop :=
  postTp < loop.prevTp * 0.98 ∧ 0.0 < loop.prevTp

instance (loop : FeedbackLoop F) (postTp : F) : Decidable (loop.Regresses postTp) :=
  inferInstanceAs (Decidable (_ ∧ _))

/-- `prev_tp == 0.0`. -/
def Unset (loop : FeedbackLoop F) : Prop := loop.prevTp ≤ 0.0 ∧ 0.0 ≤ loop.prevTp

instance (loop : FeedbackLoop F) : Decidable loop.Unset := inferInstanceAs (Decidable (_ ∧ _))

/-- At the end of the cycle the tuner puts a candidate in force. -/
def tunes (loop : FeedbackLoop F) (currentTp : F) : Bool :=
  loop.cycle % 3 = 2 && (loop.tuner.step loop.currentConfig currentTp).1.isSome

end FeedbackLoop

/-- `before` was in force when the last plan was applied, `measuredFor` when `prev_tp` was measured.
`tuned` says that since the last plan was settled the tuner has put a candidate in force, `misread`
that `prev_tp` was not measured with the configuration committed last: it comes from a plan that was
reverted, from before a plan that was committed on a throughput of zero, or was set while tuned. -/
structure WatchedLoop (F : Type) where
  loop : FeedbackLoop F
  before : TuningConfig F
  measuredFor : TuningConfig F
  tuned : Bool
  misread : Bool

namespace WatchedLoop

def new (cpus : Nat) (config : TuningConfig F) : WatchedLoop F :=
  { loop := .new cpus config, before := config, measuredFor := config, tuned := false, misread := false }

/-- The end of a cycle whose throughput was measured with the configuration in force, which is
foreign if it may not be the one committed last. -/
def finish (watched : WatchedLoop F) (currentTp : F) (config : TuningConfig F)
    (foreign : Bool) : WatchedLoop F :=
  { watched with
    loop := watched.loop.finishCycle currentTp
    measuredFor := if watched.loop.Unset then config else watched.measuredFor
    tuned := watched.tuned || watched.loop.tunes currentTp
    misread := if watched.loop.Unset then foreign else watched.misread }

def apply (watched : WatchedLoop F) (newConfig : TuningConfig F) (currentTp : F) : WatchedLoop F :=
  { watched with
    loop := watched.loop.applyPlan newConfig currentTp, before := watched.loop.currentConfig }

/-- A plan that is reverted leaves its own throughput behind. -/
def settle (watched : WatchedLoop F) (newConfig : TuningConfig F) (postTp : F) : WatchedLoop F :=
  { watched with
    loop := watched.loop.settle newConfig postTp
    measuredFor := newConfig
    tuned := false
    misread := watched.loop.Regresses postTp }

def step (watched : WatchedLoop F) (event : LoopEvent F) : Option (WatchedLoop F) :=
  match event, watched.loop.phase with
  | .fewSamples, .waiting => some watched
  | .classify report currentTp targetMode, .waiting =>
    if (watched.loop.consider report targetMode).2 then
      some (watched.apply (watched.loop.targetConfig report targetMode) currentTp)
    else some (watched.finish currentTp watched.loop.currentConfig watched.tuned)
  | .measure postTp, .measuring currentTp newConfig =>
    some ((watched.settle newConfig postTp).finish currentTp watched.before
      (watched.tuned || !decide (watched.loop.Regresses postTp)))
  | _, _ => none

/-- A plan found to regress is reverted to what was in force before it, and was compared with the
throughput measured then. -/
def Restores (watched : WatchedLoop F) : LoopEvent F → Prop
  | .measure postTp => ∀ currentTp newConfig, watched.loop.phase = .measuring currentTp newConfig →
      watched.loop.Regresses postTp →
        (watched.loop.settle newConfig postTp).currentConfig = watched.before ∧
        watched.measuredFor = watched.before
  | _ => True

/-- Nothing but a committed plan stands between a plan that regresses and its throughput. -/
def undisturbed (watched : WatchedLoop F) : LoopEvent F → Prop
  | .measure postTp => watched.loop.Regresses postTp → watched.tuned = false ∧ watched.misread = false
  | _ => True

instance (watched : WatchedLoop F) : (event : LoopEvent F) → Decidable (watched.undisturbed event)
  | .fewSamples => .isTrue trivial
  | .classify .. => .isTrue trivial
  | .measure _ => inferInstanceAs (Decidable (_ → _))

variable {watched after : WatchedLoop F} {event : LoopEvent F} {currentTp postTp : F}
  {config newConfig : TuningConfig F}

/-- The configuration committed last is in force unless the tuner has been at work, and the baseline
is its throughput unless it was misread. -/
structure Anchored (watched : WatchedLoop F) : Prop where
  waiting : watched.loop.phase = .waiting → watched.tuned = false →
    watched.loop.currentConfig = watched.loop.prevConfig
  applied : ∀ currentTp newConfig, watched.loop.phase = .measuring currentTp newConfig →
    watched.loop.currentConfig = newConfig ∧
    (watched.tuned = false → watched.before = watched.loop.prevConfig)
  level : watched.misread = false → watched.measuredFor = watched.loop.prevConfig

theorem anchored_new (cpus : Nat) (config : TuningConfig F) : Anchored (.new cpus config) :=
  ⟨fun _ _ => rfl, nofun, fun _ => rfl⟩

theorem finishCycle_prevConfig (loop : FeedbackLoop F) (currentTp : F) :
    (loop.finishCycle currentTp).prevConfig = loop.prevConfig ∧
      (loop.finishCycle currentTp).phase = .waiting := by
  unfold FeedbackLoop.finishCycle
  dsimp only
  split
  · exact ⟨rfl, rfl⟩
  · exact ⟨rfl, rfl⟩

theorem finishCycle_currentConfig (loop : FeedbackLoop F) (untuned : loop.tunes currentTp = false) :
    (loop.finishCycle currentTp).currentConfig = loop.currentConfig := by
  unfold FeedbackLoop.tunes at untuned
  unfold FeedbackLoop.finishCycle
  dsimp only
  split
  · rename_i turn
    rw [decide_eq_true turn, Bool.true_and, Bool.eq_false_iff, ne_eq,
      Option.not_isSome_iff_eq_none] at untuned
    simp only [untuned, Option.getD_none]
  · rfl

/-- The cycle ends: the throughput it may take as the baseline is not foreign. -/
theorem Anchored.finish
    (inForce : watched.tuned = false → watched.loop.currentConfig = watched.loop.prevConfig)
    (level : watched.misread = false → watched.measuredFor = watched.loop.prevConfig)
    (native : foreign = false → config = watched.loop.prevConfig) :
    Anchored (watched.finish currentTp config foreign) := by
  have ⟨prevConfig, waiting⟩ := finishCycle_prevConfig watched.loop currentTp
  refine ⟨?_, ?_, ?_⟩
  · intro _ untuned
    obtain ⟨settled, idle⟩ := Bool.or_eq_false_iff.mp untuned
    exact (finishCycle_currentConfig watched.loop idle).trans ((inForce settled).trans prevConfig.symm)
  · intro _ _ measuring
    cases waiting.symm.trans measuring
  · intro read
    refine Eq.trans ?_ prevConfig.symm
    unfold WatchedLoop.finish at read ⊢
    dsimp only at read ⊢
    split
    · rename_i unset
      rw [if_pos unset] at read
      exact native read
    · rename_i set
      rw [if_neg set] at read
      exact level read

omit [Floating F] in
theorem Anchored.apply (anchored : Anchored watched) (waiting : watched.loop.phase = .waiting) :
    Anchored (watched.apply newConfig currentTp) := by
  refine ⟨nofun, ?_, anchored.level⟩
  intro _ _ measuring
  cases measuring
  exact ⟨rfl, anchored.waiting waiting⟩

/-- A revert puts what is saved in force, a commit saves what is in force. -/
theorem Anchored.measure (anchored : Anchored watched)
    (measuring : watched.loop.phase = .measuring currentTp newConfig)
    (postTp : F) : Anchored ((watched.settle newConfig postTp).finish currentTp watched.before
      (watched.tuned || !decide (watched.loop.Regresses postTp))) := by
  obtain ⟨inForce, saved⟩ := anchored.applied currentTp newConfig measuring
  by_cases regresses : watched.loop.Regresses postTp
  · have reverted : watched.loop.settle newConfig postTp =
        { watched.loop with currentConfig := watched.loop.prevConfig, prevTp := postTp } :=
          if_pos regresses
    apply Anchored.finish
    · intro _
      simp only [settle, reverted]
    · intro read
      exact absurd regresses (of_decide_eq_false read)
    · intro native
      simp only [settle, reverted]
      exact saved (Bool.or_eq_false_iff.mp native).1
  · have committed : watched.loop.settle newConfig postTp =
        { watched.loop with prevConfig := newConfig, prevTp := postTp } := if_neg regresses
    apply Anchored.finish
    · intro _
      simp only [settle, committed]
      exact inForce
    · intro _
      simp only [settle, committed]
    · intro native
      rw [decide_eq_false regresses] at native
      simp at native

theorem Anchored.step (anchored : Anchored watched) (taken : watched.step event = some after) :
    Anchored after := by
  unfold WatchedLoop.step at taken
  split at taken
  · cases taken
    exact anchored
  · rename_i waiting
    split at taken
    · cases taken
      exact anchored.apply waiting
    · cases taken
      exact .finish (anchored.waiting waiting) anchored.level (anchored.waiting waiting)
  · rename_i measuring
    cases taken
    exact anchored.measure measuring _
  · cases taken

theorem settle_currentConfig {loop : FeedbackLoop F} (regresses : loop.Regresses postTp)
    (newConfig : TuningConfig F) :
    (loop.settle newConfig postTp).currentConfig = loop.prevConfig := by
  have reverted : loop.settle newConfig postTp =
      { loop with currentConfig := loop.prevConfig, prevTp := postTp } :=
    if_pos regresses
  rw [reverted]

theorem Anchored.restores (anchored : Anchored watched) (undisturbed : watched.undisturbed event) :
    watched.Restores event := by
  cases event with
  | fewSamples | classify => trivial
  | measure =>
    intro currentTp newConfig measuring regresses
    obtain ⟨untuned, read⟩ := undisturbed regresses
    have saved := (anchored.applied currentTp newConfig measuring).2 untuned
    exact ⟨(settle_currentConfig regresses newConfig).trans saved.symm,
      (anchored.level read).trans saved.symm⟩

/-- In a run in which every regressing plan is undisturbed, every revert restores what was in force. -/
theorem restores_of_run {cpus : Nat} {config : TuningConfig F} {events : List (LoopEvent F)}
    {final : WatchedLoop F} (run : Execution step undisturbed (new cpus config) events final) :
    EveryStep step (fun watched event _ => watched.Restores event) (new cpus config) events := by
  refine run.everyStep Anchored (anchored_new cpus config) ?_
  intro _ _ _ anchored admitted taken
  exact ⟨anchored.step taken, anchored.restores admitted⟩

theorem step_measure (measuring : watched.loop.phase = .measuring currentTp newConfig)
    (postTp : F) :
    watched.step (.measure postTp) =
      some ((watched.settle newConfig postTp).finish currentTp watched.before
        (watched.tuned || !decide (watched.loop.Regresses postTp))) := by
  unfold step
  rw [measuring]

/-- So many cycles with nothing to do, and a plan for a busy processor. -/
def planned (cycles : Nat) : List (LoopEvent Rat) :=
  List.replicate cycles (.classify ⟨.healthy, 0.8⟩ 100 .tcpBuffered) ++
  [.classify ⟨.cpuBound, 0.8⟩ 100 .tcpBuffered]

/-- The plan follows one cycle of the default configuration, and costs half. -/
theorem restores_default :
    EveryStep step (fun watched event _ => watched.Restores event)
      (new 8 (.default 8) : WatchedLoop Rat)
      (planned 1 ++ [.measure 50]) := by
  obtain ⟨_, run, _⟩ := exists_execution (fun _ => true)
    (show (replayWhere step (fun watched event => decide (watched.undisturbed event))
      (new 8 (.default 8) : WatchedLoop Rat)
      (planned 1 ++ [.measure 50])).any _ = true by decide +kernel)
  exact restores_of_run (run.weaken fun _ _ undisturbed => of_decide_eq_true undisturbed)

/-- A plan is in force that the throughput of 50 has reverted, to other chunks than before it. -/
def astray (watched : WatchedLoop Rat) : Bool :=
  match watched.loop.phase with
  | .waiting => false
  | .measuring _ _ =>
    decide (watched.loop.Regresses 50 ∧
      watched.loop.prevConfig.chunkSizeBytes ≠ watched.before.chunkSizeBytes)

/-- In the third cycle the tuner has made the chunks smaller; the plan's revert makes them larger
again. -/
theorem tuned_unrestored :
    ¬ EveryStep step (fun watched event _ => watched.Restores event)
      (new 8 (.default 8) : WatchedLoop Rat)
      (planned 3 ++ [.measure 50]) := by
  intro every
  obtain ⟨watched, run, facts⟩ := exists_execution astray
    (show (replayWhere step (fun _ _ => true) (new 8 (.default 8) : WatchedLoop Rat)
      (planned 3)).any _ = true by decide +kernel)
  unfold astray at facts
  split at facts
  · cases facts
  · rename_i currentTp newConfig measuring
    obtain ⟨regresses, other⟩ := of_decide_eq_true facts
    have restores := every (planned 3) (.measure 50) [] watched _ rfl run.plain
      (step_measure measuring 50)
    have same := (restores currentTp newConfig measuring regresses).1
    rw [settle_currentConfig regresses] at same
    exact other (congrArg TuningConfig.chunkSizeBytes same)

end WatchedLoop

end DistributedOs.Adaptive
