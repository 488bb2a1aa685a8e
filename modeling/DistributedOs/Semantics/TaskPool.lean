import DistributedOs.Semantics.Execution
import Mathlib.Algebra.Group.Basic
import Mathlib.Algebra.Group.Nat.Defs
import Mathlib.Algebra.GroupWithZero.Nat

/-! A pool of sequential tasks over shared state. One step is one turn of one task:
it reads and changes the shared state, moves to its next program point, and may start
other tasks. Tasks are numbered in the order they start and are never removed; the
trace of effects, newest first, is a history variable that no turn reads. -/

namespace DistributedOs.Semantics

universe u v w x y

structure Pool (Shared : Type u) (Task : Type v) (Effect : Type w) where
  shared : Shared
  tasks : List Task
  trace : List Effect

structure Turn (Shared : Type u) (Task : Type v) (Effect : Type w) where
  shared : Shared
  task : Task
  spawned : List Task
  effects : List Effect

structure Behaviour (Shared : Type u) (Task : Type v) (Effect : Type w) (Call : Type x)
    (Choice : Type y) where
  start : Call → Task
  turn : Shared → Nat → Task → Choice → Option (Turn Shared Task Effect)

inductive PoolLabel (Call : Type x) (Choice : Type y) where
  | call (call : Call)
  | run (index : Nat) (choice : Choice)

def turns {Call : Type x} {Choice : Type y} (index : Nat) (choices : List Choice) :
    List (PoolLabel Call Choice) :=
  choices.map (.run index)

namespace Pool

variable {Shared : Type u} {Task : Type v} {Effect : Type w} {Call : Type x} {Choice : Type y}
variable {behaviour : Behaviour Shared Task Effect Call Choice}
  {pool after : Pool Shared Task Effect}

def step (behaviour : Behaviour Shared Task Effect Call Choice) (pool : Pool Shared Task Effect) :
    PoolLabel Call Choice → Option (Pool Shared Task Effect)
  | .call call => some { pool with tasks := pool.tasks ++ [behaviour.start call] }
  | .run index choice =>
    pool.tasks[index]?.bind fun task =>
      (behaviour.turn pool.shared index task choice).map fun turn =>
        { shared := turn.shared, tasks := pool.tasks.set index turn.task ++ turn.spawned,
          trace := turn.effects ++ pool.trace }

theorem step_cases (taken : step behaviour pool label = some after) :
    (∃ call, label = .call call ∧
      after = { pool with tasks := pool.tasks ++ [behaviour.start call] }) ∨
      ∃ index choice task turn, label = .run index choice ∧ pool.tasks[index]? = some task ∧
        behaviour.turn pool.shared index task choice = some turn ∧
        after = { shared := turn.shared, tasks := pool.tasks.set index turn.task ++ turn.spawned,
                  trace := turn.effects ++ pool.trace } := by
  cases label with
  | call call => exact .inl ⟨call, rfl, (Option.some.inj taken).symm⟩
  | run index choice =>
    obtain ⟨task, present, rest⟩ := Option.bind_eq_some_iff.mp taken
    obtain ⟨turn, turned, ended⟩ := Option.map_eq_some_iff.mp rest
    exact .inr ⟨index, choice, task, turn, rfl, present, turned, ended.symm⟩

variable {tasks spawned : List Task} {task next : Task} {index other : Nat}

theorem getElem?_set_cases (found : (tasks.set index next)[other]? = some task) :
    (other = index ∧ task = next) ∨ (other ≠ index ∧ tasks[other]? = some task) := by
  rw [List.getElem?_set] at found
  split at found
  · rename_i same
    split at found
    · exact .inl ⟨same.symm, (Option.some.inj found).symm⟩
    · cases found
  · rename_i different
    exact .inr ⟨fun same => different same.symm, found⟩

theorem getElem?_turned (found : (tasks.set index next ++ spawned)[other]? = some task) :
    (other = index ∧ task = next) ∨ (other ≠ index ∧ tasks[other]? = some task) ∨
      (tasks.length ≤ other ∧ spawned[other - tasks.length]? = some task) := by
  by_cases within : other < tasks.length
  · rw [List.getElem?_append_left (by simpa using within)] at found
    exact (getElem?_set_cases found).imp_right .inl
  · rw [List.getElem?_append_right (by simpa using within)] at found
    exact .inr (.inr ⟨by omega, by simpa using found⟩)

theorem getElem?_moved (present : tasks[index]? = some task) :
    (tasks.set index next ++ spawned)[index]? = some next := by
  have within : index < tasks.length := (List.getElem?_eq_some_iff.mp present).1
  rw [List.getElem?_append_left (by simpa using within), List.getElem?_set_self within]

theorem getElem?_unmoved (different : other ≠ index) (present : tasks[other]? = some task) :
    (tasks.set index next ++ spawned)[other]? = some task := by
  have within : other < tasks.length := (List.getElem?_eq_some_iff.mp present).1
  rw [List.getElem?_append_left (by simpa using within),
    List.getElem?_set_ne (Ne.symm different), present]

theorem getElem?_called (found : (tasks ++ [next])[other]? = some task) :
    tasks[other]? = some task ∨ (other = tasks.length ∧ task = next) := by
  by_cases within : other < tasks.length
  · rw [List.getElem?_append_left within] at found
    exact .inl found
  · rw [List.getElem?_append_right (by omega), List.getElem?_singleton] at found
    split at found
    · exact .inr ⟨by omega, (Option.some.inj found).symm⟩
    · cases found

theorem getElem?_kept (present : tasks[index]? = some task) (found : tasks[other]? = some old) :
    (other = index ∧ old = task ∧ (tasks.set index next ++ spawned)[other]? = some next) ∨
      (other ≠ index ∧ (tasks.set index next ++ spawned)[other]? = some old) := by
  by_cases same : other = index
  · subst same
    rw [present] at found
    exact .inl ⟨rfl, (Option.some.inj found).symm, getElem?_moved present⟩
  · exact .inr ⟨same, getElem?_unmoved same found⟩

theorem countP_turned (counts : Task → Bool) (next : Task) (spawned : List Task)
    (present : tasks[index]? = some task) :
    (tasks.set index next ++ spawned).countP counts + (if counts task then 1 else 0) =
      tasks.countP counts + (if counts next then 1 else 0) + spawned.countP counts := by
  obtain ⟨within, same⟩ := List.getElem?_eq_some_iff.mp present
  have least : (if counts task then 1 else 0) ≤ tasks.countP counts := by
    split
    · rename_i counted
      exact List.countP_pos_iff.mpr ⟨task, List.mem_of_getElem? present, counted⟩
    · exact Nat.zero_le _
  rw [List.countP_append, List.countP_set within, same]
  omega

theorem sum_set {Total : Type*} [AddCommMonoid Total] (weight : Task → Total) (next : Task)
    (present : tasks[index]? = some task) :
    ((tasks.set index next).map weight).sum + weight task = (tasks.map weight).sum +
      weight next := by
  induction tasks generalizing index with
  | nil => cases present
  | cons _ _ ih =>
    cases index with
    | zero =>
      cases present
      simp only [List.set_cons_zero, List.map_cons, List.sum_cons]
      ac_rfl
    | succ =>
      have tail := ih present
      simp only [List.set_cons_succ, List.map_cons, List.sum_cons]
      rw [add_assoc, tail, add_assoc]

theorem sum_balanced {Total : Type*} [AddCancelCommMonoid Total] (weight : Task → Total)
    (present : tasks[index]? = some task) {finished left finishedNext leftNext all : Total}
    (before : finished + (tasks.map weight).sum + left = all)
    (handed : finishedNext + weight next + leftNext = finished + weight task + left) :
    finishedNext + ((tasks.set index next).map weight).sum + leftNext = all := by
  have moved := sum_set weight next present
  rw [← add_left_inj (weight task), ← before]
  calc finishedNext + ((tasks.set index next).map weight).sum + leftNext + weight task
      = finishedNext + leftNext + (((tasks.set index next).map weight).sum + weight task) := by ac_rfl
    _ = finishedNext + weight next + leftNext + (tasks.map weight).sum := by
        rw [moved]
        ac_rfl
    _ = finished + (tasks.map weight).sum + left + weight task := by
        rw [handed]
        ac_rfl

theorem sum_turned (weight : Task → Nat) (next : Task) (spawned : List Task)
    (present : tasks[index]? = some task) :
    ((tasks.set index next ++ spawned).map weight).sum + weight task =
      (tasks.map weight).sum + weight next + (spawned.map weight).sum := by
  rw [List.map_append, List.sum_append]
  have moved : ((tasks.set index next).map weight).sum + weight task =
      (tasks.map weight).sum + weight next :=
    sum_set weight next present
  omega

end Pool

variable {Effect : Type w} {trace : List Effect} {holds : Effect → List Effect → Prop}

/-- Every effect satisfies the property with respect to the effects before it. -/
def Throughout (holds : Effect → List Effect → Prop) (trace : List Effect) : Prop :=
  ∀ effect earlier, effect :: earlier <:+ trace → holds effect earlier

theorem throughout_nil : Throughout holds [] := by
  intro _ _ suffix
  cases List.suffix_nil.mp suffix

theorem throughout_cons :
    Throughout holds (effect :: trace) ↔ holds effect trace ∧ Throughout holds trace := by
  constructor
  · intro all
    exact ⟨all effect trace List.suffix_rfl, fun other earlier suffix =>
      all other earlier (suffix.trans (List.suffix_cons _ _))⟩
  · rintro ⟨here, before⟩ other earlier suffix
    rcases List.suffix_cons_iff.mp suffix with same | inside
    · cases same
      exact here
    · exact before other earlier inside

end DistributedOs.Semantics
