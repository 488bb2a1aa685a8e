import Mathlib.Order.WellFounded

/-! Loops whose turns go on with another state or leave with a result. A turn is told its number,
by which an environment may decide what it meets. -/

namespace DistributedOs.Semantics

universe u v

inductive Turned (State : Type u) (Result : Type v) where
  | next (state : State)
  | leave (result : Result)

variable {State : Type u} {Result : Type v}

/-- The states in which the turns of a loop begin. -/
inductive Reaches (turn : Nat → State → Turned State Result)
    (start : State) : Nat → State → Prop where
  | start : Reaches turn start 0 start
  | next (reached : Reaches turn start index state) (goesOn : turn index state = .next after) :
      Reaches turn start (index + 1) after

/-- The loop is left, and until then each turn leaves less to be done. -/
structure Finishing (turn : Nat → State → Turned State Result) (left : State → Nat)
    (start : State) : Prop where
  progress : ∀ index state after, Reaches turn start index state → turn index state = .next after →
    left after < left state
  ends : ∃ index state result, Reaches turn start index state ∧ turn index state = .leave result

variable {turn : Nat → State → Turned State Result} {left : State → Nat} {start state : State}
  {index : Nat}

theorem Reaches.invariant (reached : Reaches turn start index state) (holds : Nat → State → Prop)
    (initially : holds 0 start)
    (keeps : ∀ index state after, holds index state → turn index state = .next after →
      holds (index + 1) after) :
    holds index state := by
  induction reached with
  | start => exact initially
  | next _ goesOn ih => exact keeps _ _ _ ih goesOn

theorem ends_of_progress (reached : Reaches turn start index state)
    (progress : ∀ index state after, Reaches turn start index state →
      turn index state = .next after → left after < left state) :
    ∃ index state result, Reaches turn start index state ∧ turn index state = .leave result := by
  induction most : left state using Nat.strong_induction_on generalizing index state with
  | _ bound ih =>
    cases turned : turn index state with
    | leave result => exact ⟨index, state, result, reached, turned⟩
    | next after =>
      exact ih (left after) (most ▸ progress index state after reached turned) (.next reached turned) rfl

theorem finishing_of_invariant (holds : Nat → State → Prop) (initially : holds 0 start)
    (keeps : ∀ index state after, holds index state → turn index state = .next after →
      holds (index + 1) after ∧ left after < left state) : Finishing turn left start := by
  have progress : ∀ index state after, Reaches turn start index state → turn index state = .next after →
      left after < left state := by
    intro index state after reached goesOn
    have here := reached.invariant holds initially fun _ _ _ holding goesOn =>
      (keeps _ _ _ holding goesOn).1
    exact (keeps index state after here goesOn).2
  exact ⟨progress, ends_of_progress .start progress⟩

theorem not_finishing_of_endless (holds : Nat → State → Prop) (initially : holds 0 start)
    (goesOn : ∀ index state, holds index state → ∃ after, turn index state = .next after ∧
      holds (index + 1) after) :
    ¬ Finishing turn left start := by
  rintro ⟨_, index, state, _, reached, leaves⟩
  have here := reached.invariant holds initially fun index state after holding turned => by
    obtain ⟨_, turns, holdsNext⟩ := goesOn index state holding
    cases turned.symm.trans turns
    exact holdsNext
  obtain ⟨_, turns, _⟩ := goesOn index state here
  cases leaves.symm.trans turns

end DistributedOs.Semantics
