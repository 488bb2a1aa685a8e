import DistributedOs.Semantics.Execution

/-! A task that copies one stream to another: it reads what has come into a buffer and writes the
buffer out in pieces, until the source ends or an operation fails. -/

namespace DistributedOs.Semantics

universe u
variable {α : Type u}

inductive PumpState where
  | running
  | finished
  | failed
  deriving DecidableEq

/-- How much of the source has been read, and what of it is not written yet. -/
structure Pump (α : Type u) where
  taken : Nat
  held : List α
  state : PumpState

/-- An operation that the task waits for comes to its end: with how much, or in which other way. -/
inductive PumpMove where
  | read (count : Nat)
  | readEnd
  | readFails
  | write (count : Nat)
  | writeFails

namespace Pump

def new : Pump α := { taken := 0, held := [], state := .running }

/-- The task reads when it has written all it holds. A read brings at least one item and at most
`limit`, and so does a write of what is held. With the task comes what it writes. -/
def step (limit : Nat) (source : List α) (ended : Bool)
    (pump : Pump α) : PumpMove → Option (Pump α × List α)
  | .read count =>
    if pump.state = .running ∧ pump.held.isEmpty ∧ 0 < count ∧ count ≤ limit ∧
        pump.taken + count ≤ source.length then
      some ({ pump with taken := pump.taken + count, held := (source.drop pump.taken).take count }, [])
    else none
  | .readEnd =>
    if pump.state = .running ∧ pump.held.isEmpty ∧ ended ∧ pump.taken = source.length then
      some ({ pump with state := .finished }, [])
    else none
  | .readFails =>
    if pump.state = .running ∧ pump.held.isEmpty then some ({ pump with state := .failed }, []) else none
  | .write count =>
    if pump.state = .running ∧ 0 < count ∧ count ≤ pump.held.length then
      some ({ pump with held := pump.held.drop count }, pump.held.take count)
    else none
  | .writeFails =>
    if pump.state = .running ∧ ¬ pump.held.isEmpty then some ({ pump with state := .failed }, [])
    else none

/-- What is written and what is held are the front of the source, which is whole when the task has
finished. -/
structure Copies (limit : Nat) (source : List α) (ended : Bool) (sink : List α)
    (pump : Pump α) : Prop where
  front : sink ++ pump.held = source.take pump.taken
  within : pump.taken ≤ source.length
  bounded : pump.held.length ≤ limit
  whole : pump.state = .finished → ended = true ∧ pump.held = [] ∧ pump.taken = source.length

variable {limit : Nat} {source sink piece : List α} {ended : Bool} {pump after : Pump α}
  {move : PumpMove}

theorem Copies.new (limit : Nat) (source : List α)
    (ended : Bool) : Copies limit source ended [] (new : Pump α) where
  front := by simp [Pump.new]
  within := Nat.zero_le _
  bounded := Nat.zero_le _
  whole := nofun

theorem running_of_step (taken : pump.step limit source ended move = some (after, piece)) :
    pump.state = .running := by
  cases move <;> (simp only [step] at taken; split at taken <;> rename_i ready)
  all_goals first | exact ready.1 | cases taken

theorem Copies.step (copies : Copies limit source ended sink pump)
    (taken : pump.step limit source ended move = some (after, piece)) :
    Copies limit source ended (sink ++ piece) after := by
  have running := running_of_step taken
  cases move with
  | read =>
    simp only [Pump.step] at taken
    split at taken
    · rename_i ready
      obtain ⟨_, idle, _, _, there⟩ := ready
      cases taken
      have written : sink = source.take pump.taken := by
        rw [← copies.front, List.isEmpty_iff.mp idle, List.append_nil]
      refine ⟨?_, there, ?_, ?_⟩
      · simp only
        rw [List.append_nil, written, List.take_add]
      · simp only [List.length_take]
        omega
      · intro finished
        rw [running] at finished
        cases finished
    · cases taken
  | readEnd =>
    simp only [Pump.step] at taken
    split at taken
    · rename_i ready
      obtain ⟨_, idle, shut, all⟩ := ready
      cases taken
      rw [List.append_nil]
      exact ⟨copies.front, copies.within, copies.bounded, fun _ => ⟨shut, List.isEmpty_iff.mp idle, all⟩⟩
    · cases taken
  | readFails | writeFails =>
    simp only [Pump.step] at taken
    split at taken
    · cases taken
      rw [List.append_nil]
      exact ⟨copies.front, copies.within, copies.bounded, nofun⟩
    · cases taken
  | write =>
    simp only [Pump.step] at taken
    split at taken
    · cases taken
      refine ⟨?_, copies.within, ?_, ?_⟩
      · simp only
        rw [List.append_assoc, List.take_append_drop, copies.front]
      · have fewer := copies.bounded
        simp only [List.length_drop]
        omega
      · intro finished
        rw [running] at finished
        cases finished
    · cases taken

theorem Copies.grow (copies : Copies limit source ended sink pump)
    (grown : source <+: later) (closed : ended = true → later = source ∧ endedLater = true) :
    Copies limit later endedLater sink pump := by
  obtain ⟨_, rfl⟩ := grown
  refine ⟨?_, ?_, copies.bounded, ?_⟩
  · rw [copies.front, List.take_append_of_le_length copies.within]
  · rw [List.length_append]
    exact Nat.le_add_right_of_le copies.within
  · intro finished
    obtain ⟨shut, empty, all⟩ := copies.whole finished
    obtain ⟨same, overLater⟩ := closed shut
    exact ⟨overLater, empty, by rw [same, all]⟩

theorem Copies.isFront (copies : Copies limit source ended sink pump) : sink <+: source :=
  (List.prefix_append sink pump.held).trans (copies.front ▸ List.take_prefix _ _)

theorem Copies.taken_le (copies : Copies limit source ended sink pump) :
    pump.taken ≤ sink.length + limit := by
  have lengths := congrArg List.length copies.front
  rw [List.length_append, List.length_take, Nat.min_eq_left copies.within] at lengths
  have bounded := copies.bounded
  omega

theorem Copies.eq_of_finished (copies : Copies limit source ended sink pump)
    (finished : pump.state = .finished) :
    sink = source ∧ ended = true := by
  obtain ⟨shut, empty, all⟩ := copies.whole finished
  have front := copies.front
  rw [empty, List.append_nil, all, List.take_length] at front
  exact ⟨front, shut⟩

/-- The task together with what it has written. -/
def copying (limit : Nat) (source : List α) (ended : Bool) (copy : Pump α × List α)
    (move : PumpMove) :
    Option (Pump α × List α) :=
  (copy.1.step limit source ended move).map fun (after, piece) => (after, copy.2 ++ piece)

def Goes (_ : Pump α × List α) : PumpMove → Prop
  | .readFails | .writeFails => False
  | .read _ | .readEnd | .write _ => True

/-- Where nothing fails, the task copies what is there, and finishes when that is all. -/
theorem Copies.exists_run (positive : 0 < limit) (copies : Copies limit source ended sink pump)
    (running : pump.state = .running) :
    ∃ moves after, Execution (copying limit source ended) Goes (pump, sink) moves (after, source) ∧
      after.state = if ended then .finished else .running := by
  induction measured :
    2 * (source.length - pump.taken) + pump.held.length using Nat.strongRecOn generalizing pump sink with
  | ind remaining ih =>
    have continues (move : PumpMove) {next : Pump α} {piece : List α} (goes : Goes (pump, sink) move)
        (taken : pump.step limit source ended move = some (next, piece)) (still : next.state = .running)
        (less : 2 * (source.length - next.taken) + next.held.length < remaining) :
        ∃ moves after, Execution (copying limit source ended) Goes (pump, sink) moves (after, source) ∧
          after.state = if ended then .finished else .running := by
      obtain ⟨moves, after, run, stops⟩ := ih _ less (copies.step taken) still rfl
      refine ⟨move :: moves, after, .next goes ?_ run, stops⟩
      simp only [copying, taken, Option.map_some]
    by_cases idle : pump.held = []
    · have written : sink = source.take pump.taken := by
        rw [← copies.front, idle, List.append_nil]
      rcases Nat.lt_or_ge pump.taken source.length with _ | all
      · have size : 0 < min limit (source.length - pump.taken) := by omega
        refine continues (.read (min limit (source.length - pump.taken))) trivial
          (if_pos ⟨running, List.isEmpty_iff.mpr idle, size, Nat.min_le_left _ _, by omega⟩) running ?_
        simp only [List.length_take, List.length_drop]
        have within := copies.within
        omega
      · have whole : pump.taken = source.length := Nat.le_antisymm copies.within all
        rw [whole, List.take_length] at written
        cases shut : ended with
        | false => exact ⟨[], pump, written ▸ .done, running⟩
        | true =>
          refine ⟨[.readEnd], { pump with state := .finished }, .single trivial ?_, rfl⟩
          have finishes : pump.step limit source true .readEnd =
              some ({ pump with state := .finished }, []) :=
            if_pos ⟨running, List.isEmpty_iff.mpr idle, rfl, whole⟩
          simp only [copying, finishes, Option.map_some, List.append_nil, written]
    · have some_held := List.length_pos_iff.mpr idle
      refine continues (.write pump.held.length) trivial
        (if_pos ⟨running, some_held, Nat.le_refl _⟩) running ?_
      simp only [List.length_drop]
      omega

end Pump

end DistributedOs.Semantics
