import Mathlib.Data.List.Basic

/-! Finite executions of a partial step function. A label resolves every choice
the environment has, so one label sequence determines one execution. -/

namespace DistributedOs.Semantics

universe u v
variable {State : Type u} {Label : Type v}

/-- Executions in which every label is admitted by the state it is taken in. -/
inductive Execution (step : State → Label → Option State) (admits : State → Label → Prop) :
    State → List Label → State → Prop where
  | done : Execution step admits state [] state
  | next (admitted : admits state label) (taken : step state label = some middle)
      (rest : Execution step admits middle labels final) :
      Execution step admits state (label :: labels) final

/-- Every label is admitted: the plain executions of a step function. -/
def anything : State → Label → Prop := fun _ _ => True

/-- Replay a label sequence; it fails at the first label that is not enabled. -/
def replay (step : State → Label → Option State) : State → List Label → Option State
  | state, [] => some state
  | state, label :: labels => (step state label).bind fun middle => replay step middle labels

variable {step : State → Label → Option State} {admits : State → Label → Prop}

theorem Execution.invariant (run : Execution step admits start labels final) (holds : State → Prop)
    (keeps : ∀ state label after, holds state → admits state label →
      step state label = some after → holds after)
    (initially : holds start) : holds final := by
  induction run with
  | done => exact initially
  | next admitted taken _ ih => exact ih (keeps _ _ _ initially admitted taken)

theorem Execution.weaken {allows : State → Label → Prop}
    (run : Execution step admits start labels final)
    (implied : ∀ state label, admits state label → allows state label) :
    Execution step allows start labels final := by
  induction run with
  | done => exact .done
  | next admitted taken _ ih => exact .next (implied _ _ admitted) taken ih

theorem Execution.allow {allows : State → Label → Prop}
    (run : Execution step admits start labels final)
    (all : ∀ state, ∀ label ∈ labels, allows state label) :
    Execution step allows start labels final := by
  induction run with
  | done => exact .done
  | next _ taken _ ih =>
    exact .next (all _ _ List.mem_cons_self) taken
      (ih fun state label later => all state label (List.mem_cons_of_mem _ later))

theorem Execution.plain (run : Execution step admits start labels final) :
    Execution step anything start labels final :=
  run.weaken fun _ _ _ => trivial

theorem Execution.append (first : Execution step admits start before middle)
    (second : Execution step admits middle after final) :
    Execution step admits start (before ++ after) final := by
  induction first with
  | done => exact second
  | next admitted taken _ ih => exact .next admitted taken (ih second)

theorem Execution.single (admitted : admits state label) (taken : step state label = some after) :
    Execution step admits state [label] after := .next admitted taken .done

theorem Execution.lift {Whole : Type u} {Wide : Type v} {wide : Whole → Wide → Option Whole}
    (run : Execution step admits start labels final) (embed : State → Whole) (wrap : Label → Wide)
    (commutes : ∀ state label after, admits state label → step state label = some after →
      wide (embed state) (wrap label) = some (embed after)) :
    Execution wide anything (embed start) (labels.map wrap) (embed final) := by
  induction run with
  | done => exact .done
  | next admitted taken _ ih => exact .next trivial (commutes _ _ _ admitted taken) ih

/-- What is observed of a run, when `seen` is what is observed of a step. -/
def observed (step : State → Label → Option State) (seen : State → Label → List Seen) :
    State → List Label → List Seen
  | _, [] => []
  | state, label :: labels =>
    seen state label ++ match step state label with
      | none => []
      | some after => observed step seen after labels

/-- Forward simulation: a system that can follow what is observed of each step can follow what is
observed of the run. -/
theorem Execution.simulated {Whole : Type u} {Wide : Type v} {wide : Whole → Wide → Option Whole}
    {allows : Whole → Wide → Prop} {seen : State → Label → List Wide}
    {related : State → Whole → Prop} (run : Execution step admits start labels final)
    (follows : ∀ state label after whole, admits state label → step state label = some after →
      related state whole →
      ∃ later, Execution wide allows whole (seen state label) later ∧ related after later)
    (whole : Whole) (initially : related start whole) :
    ∃ later, Execution wide allows whole (observed step seen start labels) later ∧
      related final later := by
  induction run generalizing whole with
  | done => exact ⟨whole, .done, initially⟩
  | next admitted taken _ ih =>
    obtain ⟨middle, first, kept⟩ := follows _ _ _ whole admitted taken initially
    obtain ⟨later, second, held⟩ := ih middle kept
    refine ⟨later, ?_, held⟩
    rw [observed, taken]
    exact first.append second

theorem Execution.split (run : Execution step admits start (before ++ after) final) :
    ∃ middle, Execution step admits start before middle ∧
      Execution step admits middle after final := by
  induction before generalizing start with
  | nil => exact ⟨start, .done, run⟩
  | cons _ _ ih =>
    cases run with
    | next admitted taken rest =>
      obtain ⟨middle, first, second⟩ := ih rest
      exact ⟨middle, .next admitted taken first, second⟩

theorem execution_iff_replay :
    Execution step anything start labels final ↔ replay step start labels = some final := by
  constructor
  · intro run
    induction run with
    | done => rfl
    | next _ taken _ ih => simp [replay, taken, ih]
  · intro played
    induction labels generalizing start with
    | nil =>
      cases Option.some.inj played
      exact .done
    | cons _ _ ih =>
      obtain ⟨_, taken, rest⟩ := Option.bind_eq_some_iff.mp played
      exact .next trivial taken (ih rest)

/-- Replay that also stops at the first label its state does not admit. -/
def replayWhere (step : State → Label → Option State) (allowed : State → Label → Bool) :
    State → List Label → Option State :=
  replay fun state label => if allowed state label then step state label else none

theorem execution_of_replayWhere
    (played : replayWhere step allowed start labels = some final) :
    Execution step (fun state label => allowed state label = true) start labels final := by
  have run := execution_iff_replay.mpr played
  clear played
  induction run with
  | done => exact .done
  | next _ taken _ ih =>
    split at taken
    · rename_i permitted
      exact .next permitted taken ih
    · cases taken

theorem exists_execution (good : State → Bool)
    (played : (replayWhere step allowed start labels).any good = true) :
    ∃ final, Execution step (fun state label => allowed state label = true) start labels final ∧
      good final = true := by
  obtain ⟨final, ended, holds⟩ := (Option.any_eq_true _ _).mp played
  exact ⟨final, execution_of_replayWhere ended, holds⟩

theorem Execution.unique (first : Execution step admits start labels one)
    (second : Execution step admits start labels two) : one = two := by
  have played := execution_iff_replay.mp first.plain
  have again := execution_iff_replay.mp second.plain
  exact Option.some.inj (played.symm.trans again)

/-- Every step of a label sequence stands between states that are so related. -/
def EveryStep (step : State → Label → Option State)
    (related : State → Label → State → Prop) (start : State) (labels : List Label) : Prop :=
  ∀ before label later state after, labels = before ++ label :: later →
    Execution step anything start before state → step state label = some after →
    related state label after

variable {related : State → Label → State → Prop} {good : State → Label → Prop}

/-- A run relates its states throughout when every good step from where the invariant holds
relates its states and keeps the invariant. -/
theorem Execution.everyStep
    (run : Execution step good start labels final) (holds : State → Prop) (initially : holds start)
    (keeps : ∀ state label after, holds state → good state label → step state label = some after →
      holds after ∧ related state label after) : EveryStep step related start labels := by
  induction run with
  | done =>
    intro before _ later _ _ split
    simp at split
  | @next _ _ _ _ _ admitted taken _ ih =>
    have ⟨middleHolds, first⟩ := keeps _ _ _ initially admitted taken
    intro _ next later here after split reached turned
    cases reached with
    | done =>
      cases split
      cases taken.symm.trans turned
      exact first
    | next _ taken' reached =>
      rw [List.cons_append] at split
      cases split
      cases taken.symm.trans taken'
      exact ih middleHolds _ next later here after rfl reached turned

theorem EveryStep.head
    (every : EveryStep step related state (label :: labels))
    (taken : step state label = some middle) :
    related state label middle := every [] label labels state middle rfl .done taken

theorem EveryStep.tail
    (every : EveryStep step related state (label :: labels))
    (taken : step state label = some middle) :
    EveryStep step related middle labels := by
  intro before next later here after split reached turned
  exact every (label :: before) next later here after (by rw [split, List.cons_append])
    (.next trivial taken reached) turned

theorem EveryStep.last
    (every : EveryStep step related start (before ++ [label]))
    (run : Execution step anything start (before ++ [label]) final) :
    ∃ state, Execution step anything start before state ∧ step state label = some final ∧
      related state label final := by
  obtain ⟨state, reached, rest⟩ := run.split
  cases rest with
  | next _ taken rest =>
    cases rest
    exact ⟨state, reached, taken, every before label [] state final rfl reached taken⟩

/-- Where the states are related exactly when the label is good, and what holds is kept by steps
that relate their states, a run relates them throughout exactly when it takes good labels only. -/
theorem Execution.everyStep_iff_of_related
    (run : Execution step anything start labels final) (holds : State → Prop)
    (initially : holds start)
    (keeps : ∀ state label after, holds state → step state label = some after →
      related state label after → holds after)
    (exactly : ∀ state label after, holds state → step state label = some after →
      (related state label after ↔ good state label)) :
    EveryStep step related start labels ↔ Execution step good start labels final := by
  constructor
  · intro every
    induction run with
    | done => exact .done
    | next _ taken _ ih =>
      have first := every.head taken
      exact .next ((exactly _ _ _ initially taken).mp first) taken
        (ih (keeps _ _ _ initially taken first) (every.tail taken))
  · intro goodRun
    refine goodRun.everyStep holds initially fun state label after holding admitted taken => ?_
    have first := (exactly _ _ _ holding taken).mpr admitted
    exact ⟨keeps _ _ _ holding taken first, first⟩

theorem Execution.everyStep_iff
    (run : Execution step anything start labels final) (holds : State → Prop)
    (initially : holds start)
    (keeps : ∀ state label after, holds state → step state label = some after → holds after)
    (exactly : ∀ state label after, holds state → step state label = some after →
      (related state label after ↔ good state label)) :
    EveryStep step related start labels ↔ Execution step good start labels final :=
  run.everyStep_iff_of_related holds initially
    (fun _ _ _ holding taken _ => keeps _ _ _ holding taken) exactly

/-- Where a step keeps what holds exactly when its label is good, it holds throughout a run
exactly when the run takes good labels only. -/
theorem Execution.everyState_iff {holds : State → Prop}
    (run : Execution step anything start labels final) (kept : State → Prop)
    (keptInitially : kept start)
    (keeps : ∀ state label after, kept state → step state label = some after → kept after)
    (initially : holds start)
    (exactly : ∀ state label after, kept state → holds state → step state label = some after →
      (holds after ↔ good state label)) :
    EveryStep step (fun _ _ after => holds after) start labels ↔
      Execution step good start labels final := by
  refine run.everyStep_iff_of_related
    (fun state => kept state ∧ holds state) ⟨keptInitially, initially⟩ ?_ ?_
  · intro state label after ⟨keptHere, _⟩ taken holding
    exact ⟨keeps _ _ _ keptHere taken, holding⟩
  · intro state label after ⟨keptHere, holding⟩ taken
    exact exactly _ _ _ keptHere holding taken

/-- Every state that a label sequence reaches, the first one included, is such a state. -/
def EveryState (step : State → Label → Option State) (holds : State → Prop) (start : State)
    (labels : List Label) : Prop :=
  ∀ before later state, labels = before ++ later →
  Execution step anything start before state → holds state

theorem everyState_iff_everyStep {holds : State → Prop} (initially : holds start) :
    EveryState step holds start labels ↔
      EveryStep step (fun _ _ after => holds after) start labels := by
  constructor
  · intro every before label later state after split reached taken
    exact every (before ++ [label]) later after (by simp [split])
      (reached.append (.single trivial taken))
  · intro every before later state split reached
    rcases List.eq_nil_or_concat before with rfl | ⟨earlier, label, rfl⟩
    · cases reached
      exact initially
    · rw [List.concat_eq_append] at reached
      obtain ⟨middle, first, last⟩ := reached.split
      cases last with
      | next _ taken done =>
        cases done
        exact every earlier label later middle state (by simp [split]) first taken

/-- What every step keeps exactly when it is good holds after every prefix of a
sequence exactly when every step of it is good. -/
theorem prefixes_iff {Op : Type v} {apply : State → Op → State} {holds : State → Prop}
    {good : State → Op → Prop} (initially : holds start)
    (keeps : ∀ state op, holds state → (holds (apply state op) ↔ good state op)) (ops : List Op) :
    (∀ before later, ops = before ++ later → holds (before.foldl apply start)) ↔
      ∀ before op later, ops = before ++ op :: later → good (before.foldl apply start) op := by
  constructor
  · intro all before op later split
    refine (keeps _ op (all before (op :: later) split)).mp ?_
    have next := all (before ++ [op]) later (by simp [split])
    rwa [List.foldl_append] at next
  · intro all before later split
    induction before generalizing start ops with
    | nil => exact initially
    | cons op before ih =>
      refine ih ((keeps start op initially).mpr (all [] op (before ++ later) split))
        (before ++ later) ?_ rfl
      intro earlier next rest same
      exact all (op :: earlier) next rest (by simp [split, same])

end DistributedOs.Semantics
