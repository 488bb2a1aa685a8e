import DistributedOs.Android.Transfers
import Mathlib.Algebra.Order.BigOperators.Group.List
import Mathlib.Algebra.Order.Group.Nat

/-! The Wi-Fi and the wake lock of the transfers. A release is not tied to an acquire of the same
thread: it is made whenever the lock is held. The locks are balanced as long as a thread that
releases is one that has acquired. -/

namespace DistributedOs.Android

open Semantics

/-- The thread holds neither lock. -/
def Task.settled (task : Task) : Bool :=
  task.given .wifi = task.taken .wifi && task.given .wake = task.taken .wake

/-- A thread finds a lock held only when it holds it itself, makes one only when there is none,
gives up only when it holds none, and no timer goes off while the wake lock is held. -/
def Task.clean (manager : Manager) (task : Task) (choice : Choice) : Bool :=
  match task.point, choice with
  | .performing (.ifHeld name :: _) _, _ =>
    !(manager.locks name).isHeld || task.given name < task.taken name
  | .performing (.create name :: _) _, _ => (manager.locks name).current.isNone
  | .working _, .throw => task.settled
  | .working attempt, .fail =>
    task.settled || !(task.role = .worker .download &&
      (maxRetries ≤ attempt + 1 || (manager.transfers task.id).any TransferState.cancelFlag))
  | .timing, _ => !(manager.locks .wake).isHeld
  | _, _ => true

def clean (pool : Pool Manager Task Took) : PoolLabel Call Choice → Bool
  | .call _ => true
  | .run index choice => (pool.tasks[index]?).all fun task => task.clean pool.shared choice

/-- No thread gives more than it took, one that has returned has given all, and the device has a
lock exactly while some thread is between its acquire and its release. -/
structure Balanced (pool : Pool Manager Task Took) : Prop where
  own : ∀ task ∈ pool.tasks, ∀ name, task.given name ≤ task.taken name
  ended : ∀ task ∈ pool.tasks, task.point = .returned → ∀ name, task.given name = task.taken name
  held : ∀ name, (pool.shared.locks name).held = true ↔
    ∃ task ∈ pool.tasks, task.given name < task.taken name

def Lock.count (lock : Lock) : Int := lock.current.elim 0 LockObject.count

theorem Lock.isHeld_iff (lock : Lock) : lock.isHeld = true ↔ 0 < lock.count := by
  unfold isHeld count
  cases lock.current <;> simp

/-- On the way to its transfer: one acquire at most. -/
structure Beginning (taken given : Nat) (name : LockName) (effects : List Effect) : Prop where
  once : effects.count (.acquire name) + taken ≤ given + 1
  quiet : .release name ∉ effects ∧ .ifHeld name ∉ effects

/-- At its end: what was acquired is still to be released, and no release stands but behind its
test. -/
structure Ending (taken given : Nat) (name : LockName) (effects : List Effect) : Prop where
  quiet : .acquire name ∉ effects ∧ .release name ∉ effects.tail
  tested : effects.head? = some (.release name) → given < taken
  owes : given < taken → .ifHeld name ∈ effects ∨ effects.head? = some (.release name)

def AtPoint (taken given : Nat) (name : LockName) : Point → Prop
  | .working _ => True
  | .performing effects (.working _) => Beginning taken given name effects
  | .performing effects .notifying | .performing effects .returned => Ending taken given name effects
  | .performing _ _ => False
  | _ => given = taken

structure Sound (task : Task) (name : LockName) : Prop where
  least : task.given name ≤ task.taken name
  most : task.taken name ≤ task.given name + 1
  here : AtPoint (task.taken name) (task.given name) name task.point

section
variable {taken given : Nat} {name : LockName} {effects : List Effect}

theorem given_eq_of_ended (ended : Ending taken given name []) (least : given ≤ taken) :
    given = taken := by
  by_contra different
  rcases ended.owes (by omega) with within | first
  · cases within
  · cases first

theorem atPoint_begun (begins : Beginning taken given name effects) :
    AtPoint taken given name (resumeAt effects (.working attempt)) := by
  unfold resumeAt
  split
  · trivial
  · exact begins

theorem atPoint_ended (ending : Ending taken given name effects) (least : given ≤ taken)
    (last : next = .notifying ∨ next = .returned) :
    AtPoint taken given name (resumeAt effects next) := by
  unfold resumeAt
  split
  · rename_i empty
    subst empty
    rcases last with rfl | rfl <;> exact given_eq_of_ended ending least
  · rcases last with rfl | rfl <;> exact ending

end

section
variable {manager : Manager} {task : Task} {effect : Effect} {effects : List Effect} {next : Point}
  {failed : Bool}

def Task.after (task : Task) (manager : Manager) (failed : Bool) (effect : Effect)
    (effects : List Effect) (next : Point) : Task :=
  (task.perform manager failed effect effects next).2

theorem taken_after (name : LockName) :
    (task.after manager failed effect effects next).taken name = task.taken name +
      if effect = .acquire name ∧ failed = false ∧ (manager.locks name).current.isSome then 1
      else 0 := by
  cases effect with
  | acquire lock =>
    simp only [Task.after, Task.perform, Effect.acquire.injEq]
    by_cases same : lock = name
    · subst same
      cases failed <;> cases (manager.locks lock).current <;> simp
    · split <;> simp [Function.update_of_ne (Ne.symm same), same]
  | _ => simp [Task.after, Task.perform]

theorem given_after (name : LockName) :
    (task.after manager failed effect effects next).given name = task.given name + if effect =
      .release name then 1 else 0 := by
  cases effect with
  | release lock =>
    simp only [Task.after, Task.perform, Effect.release.injEq]
    by_cases same : lock = name
    · subst same
      simp
    · simp [Function.update_of_ne (Ne.symm same), same]
  | _ => simp [Task.after, Task.perform]

/-- The count of a lock goes with what the thread takes and gives. -/
theorem count_onLocks (name : LockName)
    (fresh : effect = .create name → (manager.locks name).current = none)
    (holds : effect = .release name → 0 < (manager.locks name).count) :
    (effect.onLocks failed manager.locks name).count + (if effect = .release name then 1
      else 0 : Nat) =
      (manager.locks name).count +
        (if effect = .acquire name ∧ failed = false ∧ (manager.locks name).current.isSome then 1
          else 0 : Nat) := by
  cases effect with
  | create lock =>
    by_cases same : lock = name
    · subst same
      cases failed <;> simp [Effect.onLocks, Lock.create, Lock.count, fresh rfl]
    · cases failed <;> simp [Effect.onLocks, Function.update_of_ne (Ne.symm same)]
  | acquire lock =>
    by_cases same : lock = name
    · subst same
      cases failed <;> cases made : (manager.locks lock).current <;>
        simp [Effect.onLocks, Lock.acquire, Lock.count, made, LockObject.acquire]
    · cases failed <;> simp [Effect.onLocks, Function.update_of_ne (Ne.symm same), same]
  | release lock =>
    by_cases same : lock = name
    · subst same
      have positive := holds rfl
      cases made : (manager.locks lock).current with
      | none => simp [Lock.count, made] at positive
      | some =>
        simp only [Lock.count, made, Option.elim_some] at positive
        simp only [Effect.onLocks, Function.update_self, Lock.release, Lock.count, made,
          Option.map_some, Option.elim_some,
          LockObject.release, if_true, reduceCtorEq, false_and, if_false]
        split <;> omega
    · simp [Effect.onLocks, Function.update_of_ne (Ne.symm same), same]
  | _ => simp [Effect.onLocks]

theorem replaced_onLocks (name : LockName) (alone : (manager.locks name).replaced = [])
    (fresh : effect = .create name → (manager.locks name).current = none) :
    (effect.onLocks failed manager.locks name).replaced = [] := by
  cases effect with
  | create lock =>
    by_cases same : lock = name
    · subst same
      cases failed <;> simp [Effect.onLocks, Lock.create, fresh rfl, alone]
    · cases failed <;> simp [Effect.onLocks, Function.update_of_ne (Ne.symm same), alone]
  | acquire lock | release lock =>
    by_cases same : lock = name
    · subst same
      cases failed <;> simp [Effect.onLocks, Lock.acquire, Lock.release, alone]
    · cases failed <;> simp [Effect.onLocks, Function.update_of_ne (Ne.symm same), alone]
  | _ => exact alone

theorem rest_cases (effect : Effect) (effects : List Effect) (locks : LockName → Lock) :
    effect.rest locks effects = effects ∨
      (∃ name, effect = .ifMissing name ∧ effect.rest locks effects = .create name :: effects) ∨
      ∃ name, effect = .ifHeld name ∧ (locks name).isHeld = true ∧
      effect.rest locks effects = .release name :: effects := by
  cases effect with
  | ifMissing name =>
    simp only [Effect.rest]
    split
    · exact .inr (.inl ⟨name, rfl, rfl⟩)
    · exact .inl rfl
  | ifHeld name =>
    simp only [Effect.rest]
    split
    · rename_i held
      exact .inr (.inr ⟨name, rfl, held, rfl⟩)
    · exact .inl rfl
  | _ => exact .inl rfl

theorem beginning_after (here : Beginning (task.taken name) (task.given name) name
      (effect :: effects))
    (least : task.given name ≤ task.taken name) :
    Beginning ((task.after manager failed effect effects next).taken name)
        ((task.after manager failed effect effects next).given name) name
        (effect.rest manager.locks effects) ∧
      task.given name ≤ (task.after manager failed effect effects next).taken name ∧
      (task.after manager failed effect effects next).given name = task.given name := by
  obtain ⟨once, notRelease, notTest⟩ := here
  rw [List.mem_cons, not_or] at notRelease notTest
  have given : (task.after manager failed effect effects next).given name = task.given name := by
    rw [given_after, if_neg (Ne.symm notRelease.1), Nat.add_zero]
  have taken : (task.after manager failed effect effects next).taken name ≤
      task.taken name + if effect = .acquire name then 1 else 0 := by
    rw [taken_after]
    split
    · rename_i acquired
      rw [if_pos acquired.1]
    · omega
  have count : effects.count (.acquire name) +
      (task.after manager failed effect effects next).taken name ≤ task.given name + 1 := by
    rw [List.count_cons] at once
    simp only [beq_iff_eq] at once
    omega
  refine ⟨⟨?_, ?_⟩, ?_, given⟩
  · rw [given]
    rcases rest_cases effect effects manager.locks with same | ⟨lock, _, same⟩ | ⟨lock, _, _, same⟩
    · rwa [same]
    · rw [same, List.count_cons_of_ne (by simp)]
      exact count
    · rw [same, List.count_cons_of_ne (by simp)]
      exact count
  · rcases rest_cases effect effects manager.locks with same | ⟨lock, _, same⟩ | ⟨lock, tested, _, same⟩
    · rw [same]
      exact ⟨notRelease.2, notTest.2⟩
    · rw [same]
      exact ⟨by simp [notRelease.2], by simp [notTest.2]⟩
    · have different : lock ≠ name := by
        rintro rfl
        exact notTest.1 tested.symm
      rw [same]
      exact ⟨by simp [notRelease.2, Ne.symm different], by simp [notTest.2]⟩
  · rw [taken_after]
    omega

theorem ending_released (here : Ending taken given name (.release name :: effects))
    (most : taken ≤ given + 1) : Ending taken (given + 1) name effects := by
  obtain ⟨⟨notAcquire, notRelease⟩, _, _⟩ := here
  rw [List.mem_cons, not_or] at notAcquire
  rw [List.tail_cons] at notRelease
  refine ⟨⟨notAcquire.2, fun within => notRelease (List.mem_of_mem_tail within)⟩, ?_, ?_⟩
  · exact fun first => absurd (List.mem_of_head? first) notRelease
  · intro _
    omega

/-- Any other effect; a test that fails finds the lock given back by everybody. -/
theorem ending_rest
    (here : Ending taken given name (effect :: effects)) (unreleased : effect ≠ .release name)
    (guarded : effect = .ifHeld name → (locks name).isHeld = true → given < taken)
    (spent : (locks name).isHeld = false → taken ≤ given) :
    Ending taken given name (effect.rest locks effects) := by
  obtain ⟨⟨notAcquire, notRelease⟩, _, owes⟩ := here
  rw [List.mem_cons, not_or] at notAcquire
  rw [List.tail_cons] at notRelease
  rw [List.head?_cons] at owes
  have owed (more : given < taken) : .ifHeld name ∈ effect :: effects := by
    rcases owes more with within | first
    · exact within
    · exact absurd (Option.some.inj first) unreleased
  rcases rest_cases effect effects locks with same | ⟨lock, tests, same⟩ | ⟨lock, tests, held, same⟩
  · rw [same]
    refine ⟨⟨notAcquire.2, fun within => notRelease (List.mem_of_mem_tail within)⟩,
      fun first => absurd (List.mem_of_head? first) notRelease, fun more => .inl ?_⟩
    rcases List.mem_cons.mp (owed more) with now | later
    · -- the test was made, and failed
      subst now
      have notHeld : (locks name).isHeld = false := by
        by_contra held
        simp [Effect.rest, Bool.eq_true_of_not_eq_false held] at same
      exact absurd (spent notHeld) (by omega)
    · exact later
  · subst tests
    rw [same]
    refine ⟨⟨by simp [notAcquire.2], notRelease⟩, nofun, fun more => .inl ?_⟩
    simpa using owed more
  · subst tests
    rw [same]
    refine ⟨⟨by simp [notAcquire.2], notRelease⟩, ?_, fun more => ?_⟩
    · intro first
      cases first
      exact guarded rfl held
    · by_cases mine : lock = name
      · subst mine
        exact .inr rfl
      · exact .inl (by simpa [Ne.symm mine] using owed more)

theorem ending_after (here : Ending (task.taken name) (task.given name) name (effect :: effects))
    (guarded : effect = .ifHeld name → (manager.locks name).isHeld = true →
      task.given name < task.taken name)
    (spent : (manager.locks name).isHeld = false → task.taken name ≤ task.given name)
    (least : task.given name ≤ task.taken name) (most : task.taken name ≤ task.given name + 1) :
    Ending ((task.after manager failed effect effects next).taken name)
        ((task.after manager failed effect effects next).given name) name
        (effect.rest manager.locks effects) ∧
      (task.after manager failed effect effects next).given name ≤ task.taken name ∧
      (task.after manager failed effect effects next).taken name = task.taken name := by
  have taken : (task.after manager failed effect effects next).taken name = task.taken name := by
    have notAcquire := here.quiet.1
    rw [List.mem_cons, not_or] at notAcquire
    rw [taken_after, if_neg fun acquired => notAcquire.1 acquired.1.symm, Nat.add_zero]
  by_cases released : effect = .release name
  · subst released
    have holds := here.tested rfl
    have given : (task.after manager failed (.release name) effects next).given name =
        task.given name + 1 := by
      rw [given_after, if_pos rfl]
    rw [given, taken]
    exact ⟨ending_released here most, by omega, rfl⟩
  · have given : (task.after manager failed effect effects next).given name = task.given name := by
      rw [given_after, if_neg released, Nat.add_zero]
    rw [given, taken]
    exact ⟨ending_rest here released guarded spent, least, rfl⟩

theorem sound_after (sound : Sound task name)
    (here : task.point = .performing (effect :: effects) next)
    (guarded : effect = .ifHeld name → (manager.locks name).isHeld = true →
      task.given name < task.taken name)
    (spent : (manager.locks name).isHeld = false → task.taken name ≤ task.given name) :
    Sound (task.after manager failed effect effects next) name := by
  obtain ⟨least, most, stands⟩ := sound
  rw [here] at stands
  have ends (ending : Ending (task.taken name) (task.given name) name (effect :: effects))
    (last : next = .notifying ∨ next = .returned) :
      Sound (task.after manager failed effect effects next) name := by
    have ⟨ended, given, taken⟩ : Ending ((task.after manager failed effect effects next).taken name)
        ((task.after manager failed effect effects next).given name) name
        (effect.rest manager.locks effects) ∧ _ :=
      ending_after ending guarded spent least most
    have still : task.given name ≤ (task.after manager failed effect effects next).given name := by
      rw [given_after]
      omega
    have enough : (task.after manager failed effect effects next).given name ≤
        (task.after manager failed effect effects next).taken name := by omega
    exact ⟨enough, by omega, atPoint_ended ended enough last⟩
  cases next with
  | working attempt =>
    have ⟨begins, _, _⟩ :
      Beginning ((task.after manager failed effect effects (.working attempt)).taken name)
        ((task.after manager failed effect effects (.working attempt)).given name) name
        (effect.rest manager.locks effects) ∧ _ :=
      beginning_after stands least
    have once := begins.once
    exact ⟨by omega, by omega, atPoint_begun begins⟩
  | notifying => exact ends stands (.inl rfl)
  | returned => exact ends stands (.inr rfl)
  | _ => exact stands.elim

variable {taken given : Nat}

theorem ending_releasing (name : LockName) (rest : List Effect)
    (quiet : ∀ effect ∈ rest, effect = .record ∨ effect = .unregister ∨
      ∃ status, effect = .setStatus status) : Ending taken given name (releaseLocks ++ rest) := by
  have absent (effect : Effect) (locks : ∃ lock, effect = .acquire lock ∨ effect = .release lock) :
      effect ∉ rest := by
    intro within
    obtain ⟨_, rfl | rfl⟩ := locks <;> rcases quiet _ within with same | same | ⟨_, same⟩ <;> cases same
  refine ⟨⟨?_, ?_⟩, nofun, fun _ => .inl ?_⟩
  · simp [releaseLocks, absent (.acquire name) ⟨name, .inl rfl⟩]
  · simp [releaseLocks, absent (.release name) ⟨name, .inr rfl⟩]
  · cases name <;> simp [releaseLocks]

theorem ending_failing (name : LockName) : Ending taken given name failing :=
  ending_releasing name _ (by simp [addToHistory])

theorem ending_completing (name : LockName) : Ending taken given name completing :=
  ending_releasing name _ (by simp [addToHistory])

theorem ending_settled (settled : given = taken)
    (quiet : script = givingUp ∨ script = cancelling) : Ending taken given name script := by
  refine ⟨?_, ?_, fun more => absurd more (by omega)⟩
  · rcases quiet with rfl | rfl <;> simp [givingUp, cancelling, addToHistory]
  · rcases quiet with rfl | rfl <;> nofun

theorem beginning_settled (settled : given = taken) : Beginning taken given name beginning := by
  refine ⟨?_, by simp [beginning, acquireLocks]⟩
  have once : beginning.count (.acquire name) = 1 := by cases name <;> rfl
  omega

theorem settled_iff_forall : task.settled = true ↔ ∀ name, task.given name = task.taken name := by
  simp only [Task.settled, Bool.and_eq_true, decide_eq_true_eq]
  exact ⟨fun both name => by cases name <;> simp [both], fun all => ⟨all _, all _⟩⟩

theorem atPoint_decides
    (stands : AtPoint taken given name point) (decided : Decides kind state point choice next)
    (gives : ∀ attempt, point = .working attempt → next = .performing givingUp .returned →
      given = taken) :
    AtPoint taken given name next := by
  cases decided with
  | begun => exact beginning_settled stands
  | refused | failed => exact ending_failing name
  | refusedThrown | notifiedThrown => exact ending_settled stands (.inl rfl)
  | retried => trivial
  | completed => exact ending_completing name
  | exhausted attempt | thrown attempt => exact ending_settled (gives attempt rfl rfl) (.inl rfl)
  | notified => exact stands

variable {index : Nat} {choice : Choice} {turn : Turn Manager Task Took}

/-- What a clean turn leaves of a lock and of the thread. -/
structure Turned (manager : Manager) (task : Task) (name : LockName)
    (turn : Turn Manager Task Took) : Prop where
  sound : Sound turn.task name
  spawned : ∀ other ∈ turn.spawned, Sound other name ∧ other.taken name = 0 ∧ other.given name = 0
  alone : (turn.shared.locks name).replaced = []
  count : (turn.shared.locks name).count + turn.task.given name + task.taken name =
    (manager.locks name).count + task.given name + turn.task.taken name

theorem turned_aside {effects : List Took}
    (sound : Sound task name) (alone : (manager.locks name).replaced = [])
    (same : shared.locks = manager.locks)
    (stands : AtPoint (task.taken name) (task.given name) name point)
    (fresh : ∀ other ∈ spawned, Sound other name ∧ other.taken name = 0 ∧ other.given name = 0) :
    Turned manager task name { shared, task := { task with point }, spawned, effects } where
  sound := ⟨sound.least, sound.most, stands⟩
  spawned := fresh
  alone := by rw [same]; exact alone
  count := by rw [same]

theorem held_of_release (sound : Sound task name)
    (spent : (manager.locks name).isHeld = false → task.taken name ≤ task.given name)
    (here : task.point = .performing (.release name :: effects) next) :
    0 < (manager.locks name).count := by
  have stands := sound.here
  rw [here] at stands
  have holds : task.given name < task.taken name := by
    cases next with
    | working =>
      have begins : Beginning _ _ name (.release name :: effects) := stands
      exact absurd List.mem_cons_self begins.quiet.1
    | notifying | returned =>
      have ends : Ending _ _ name (.release name :: effects) := stands
      exact ends.tested rfl
    | _ => exact stands.elim
  rw [← Lock.isHeld_iff]
  by_contra notHeld
  exact absurd (spent (Bool.eq_false_iff.mpr notHeld)) (by omega)

theorem turned_perform (allowed : task.clean manager choice = true) (sound : Sound task name)
    (alone : (manager.locks name).replaced = [])
    (spent : (manager.locks name).isHeld = false → task.taken name ≤ task.given name)
    (here : task.point = .performing (effect :: effects) next) :
    Turned manager task name
      { shared := (task.perform manager failed effect effects next).1,
        task := (task.perform manager failed effect effects next).2
        spawned := [], effects := [] } := by
  have guarded : effect = .ifHeld name → (manager.locks name).isHeld = true →
      task.given name < task.taken name := by
    rintro rfl held
    simpa [Task.clean, here, held] using allowed
  have fresh : effect = .create name → (manager.locks name).current = none := by
    rintro rfl
    simpa [Task.clean, here] using allowed
  have holds : effect = .release name → 0 < (manager.locks name).count := by
    rintro rfl
    exact held_of_release sound spent here
  have moved : (effect.onLocks failed manager.locks name).count + _ = _ + _ :=
    count_onLocks name fresh holds
  refine ⟨sound_after sound here guarded spent, nofun, replaced_onLocks name alone fresh, ?_⟩
  have took : (task.after manager failed effect effects next).taken name = _ + _ := taken_after name
  have gave : (task.after manager failed effect effects next).given name = _ + _ := given_after name
  show (effect.onLocks failed manager.locks name).count +
    (task.after manager failed effect effects next).given name + _ =
    _ + (task.after manager failed effect effects next).taken name
  rw [took, gave]
  omega

theorem givingUp_decides
    (decided : Decides kind state point choice next) (here : point = .working attempt)
    (script : next = .performing givingUp .returned) :
    choice = .throw ∨ choice = .fail ∧ kind = .download ∧
      (maxRetries ≤ attempt + 1 ∨ state.cancelFlag = true) := by
  cases decided with
  | exhausted _ downloads reached =>
    cases here
    exact .inr ⟨rfl, downloads, reached⟩
  | thrown => exact .inl rfl
  | failed => exact absurd script (by decide)
  | completed => exact absurd script (by decide)
  | retried => cases script
  | _ => cases here

theorem settled_givingUp (works : task.role = .worker kind)
    (known : manager.transfers task.id = some state)
    (decided : Decides kind state task.point choice next) (here : task.point = .working attempt)
    (script : next = .performing givingUp .returned) (allowed : task.clean manager choice = true) :
    task.settled = true := by
  rcases givingUp_decides decided here script with rfl | ⟨rfl, rfl, last⟩
  · simpa [Task.clean, here] using allowed
  · have choices : task.settled = true ∨ attempt + 1 < maxRetries ∧ state.cancelFlag = false := by
      simpa [Task.clean, here, works, known] using allowed
    refine choices.resolve_right fun ⟨few, unset⟩ => ?_
    rcases last with _ | set
    · omega
    · rw [set] at unset
      cases unset

theorem count_timeout {lock after : Lock} (expired : lock.timeout = some after)
    (unheld : lock.isHeld = false) (counts : 0 ≤ lock.count) :
    after.count = lock.count ∧ after.replaced = lock.replaced := by
  have none : lock.count = 0 := by
    by_contra some
    rw [(Lock.isHeld_iff lock).mpr (by omega)] at unheld
    cases unheld
  unfold Lock.timeout at expired
  split at expired
  · cases expired
    refine ⟨?_, rfl⟩
    rw [none]
    unfold Lock.count at none ⊢
    cases made : lock.current with
    | none => rfl
    | some =>
      rw [made, Option.elim_some] at none
      simp [LockObject.release, none]
  · cases expired

theorem turned_moves (moves : Moves manager index task choice turn)
    (allowed : task.clean manager choice = true) {name : LockName} (sound : Sound task name)
    (alone : (manager.locks name).replaced = [])
    (spent : (manager.locks name).isHeld = false → task.taken name ≤ task.given name)
    (counts : ∀ name, 0 ≤ (manager.locks name).count) : Turned manager task name turn := by
  have stands := sound.here
  cases moves with
  | register _ _ here _ onward =>
    rw [here] at stands
    exact turned_aside sound alone (by rfl) (by rcases onward with rfl | rfl <;> exact stands) nofun
  | connect _ here | assign _ here =>
    rw [here] at stands
    exact turned_aside sound alone (by rfl) (by exact stands) nofun
  | launch _ _ _ here onward =>
    rw [here] at stands
    refine turned_aside sound alone (by rfl) (by rcases onward with rfl | rfl <;> exact stands)
      fun other within => ?_
    rw [List.mem_singleton.mp within]
    exact ⟨⟨Nat.le_refl 0, Nat.zero_le 1, rfl⟩, rfl, rfl⟩
  | dispatch state here | miss _ here =>
    rw [here] at stands
    exact turned_aside sound alone (by rfl) (by exact stands) nofun
  | find _ _ here =>
    rw [here] at stands
    exact turned_aside sound alone (by rfl) (ending_settled stands (.inr rfl)) nofun
  | decide _ _ _ _ works known decided =>
    refine turned_aside sound alone (by rfl)
      (atPoint_decides stands decided fun attempt here script => ?_) nofun
    exact settled_iff_forall.mp (settled_givingUp works known decided here script allowed) name
  | perform _ _ _ _ _ here => exact turned_perform allowed sound alone spent here
  | timeout _ lock here expired =>
    rw [here] at stands
    have unheld : (manager.locks .wake).isHeld = false := by simpa [Task.clean, here] using allowed
    obtain ⟨after, same⟩ := count_timeout expired unheld (counts .wake)
    refine ⟨⟨sound.least, sound.most, stands⟩, nofun, ?_, ?_⟩
    · cases name with
      | wifi => exact alone
      | wake => exact same.trans alone
    · cases name with
      | wifi => rfl
      | wake =>
        show lock.count + _ + _ = (manager.locks .wake).count + _ + _
        rw [after]

end

/-- Every acquire that has not been given back is in the count of the one object of its lock. -/
structure Counted (pool : Pool Manager Task Took) : Prop where
  sound : ∀ task ∈ pool.tasks, ∀ name, Sound task name
  alone : ∀ name, (pool.shared.locks name).replaced = []
  count : ∀ name, (pool.shared.locks name).count + (pool.tasks.map fun task => task.given name).sum =
    (pool.tasks.map fun task => task.taken name).sum

theorem counted_initial : Counted initial := ⟨nofun, fun _ => rfl, fun _ => rfl⟩

theorem counts_of_counted (counted : Counted pool) (name : LockName) :
    0 ≤ (pool.shared.locks name).count := by
  have lower := List.sum_le_sum fun (task : Task) within => (counted.sound task within name).least
  have count := counted.count name
  omega

theorem spent_of_counted (counted : Counted pool)
    (unheld : (pool.shared.locks name).isHeld = false) (member : task ∈ pool.tasks) :
    task.taken name ≤ task.given name := by
  by_contra more
  have lower : ∀ other ∈ pool.tasks, other.given name ≤ other.taken name := fun other within =>
    (counted.sound other within name).least
  have strictly := List.sum_lt_sum (fun other : Task => other.given name)
    (fun other => other.taken name) lower ⟨task, member, by omega⟩
  have count := counted.count name
  rw [(Lock.isHeld_iff _).mpr (by omega)] at unheld
  cases unheld

theorem counted_step (counted : Counted pool)
    (allowed : clean pool label = true) (taken : Pool.step transferring pool label = some after) :
    Counted after := by
  rcases Pool.step_cases taken with ⟨call, rfl, rfl⟩ | ⟨_, choice, task, turn, rfl, present, turned, rfl⟩
  · refine ⟨fun task within name => ?_, counted.alone, fun name => ?_⟩
    · rcases List.mem_append.mp within with within | new
      · exact counted.sound task within name
      · rw [List.mem_singleton.mp new]
        cases call <;> exact ⟨Nat.le_refl 0, Nat.zero_le 1, rfl⟩
    · have none : (transferring.start call).given name = 0 ∧
          (transferring.start call).taken name = 0 := by
        cases call <;> exact ⟨rfl, rfl⟩
      simpa [none] using counted.count name
  · have permitted : task.clean pool.shared choice = true := by simpa [clean, present] using allowed
    have member := List.mem_of_getElem? present
    have moved (name : LockName) : Turned pool.shared task name turn :=
      turned_moves (moves_of_turn turned) permitted (counted.sound task member name) (counted.alone name)
        (fun unheld => spent_of_counted counted unheld member) (counts_of_counted counted)
    refine ⟨fun other within name => ?_, fun name => (moved name).alone, fun name => ?_⟩
    · obtain ⟨_, found⟩ := List.mem_iff_getElem?.mp within
      rcases Pool.getElem?_turned found with ⟨_, rfl⟩ | ⟨_, found⟩ | ⟨_, found⟩
      · exact (moved name).sound
      · exact counted.sound other (List.mem_of_getElem? found) name
      · exact ((moved name).spawned other (List.mem_of_getElem? found)).1
    · have before := counted.count name
      have balance := (moved name).count
      have given := Pool.sum_turned (fun other : Task => other.given name) turn.task turn.spawned present
      have taken := Pool.sum_turned (fun other : Task => other.taken name) turn.task turn.spawned present
      have noneGiven : (turn.spawned.map fun other => other.given name).sum = 0 :=
        List.sum_eq_zero (by simpa using fun other within => ((moved name).spawned other within).2.2)
      have noneTaken : (turn.spawned.map fun other => other.taken name).sum = 0 :=
        List.sum_eq_zero (by simpa using fun other within => ((moved name).spawned other within).2.1)
      simp only at given taken ⊢
      omega

theorem balanced_of_counted (counted : Counted pool) : Balanced pool where
  own := fun task member name => (counted.sound task member name).least
  ended := by
    intro task member returned name
    have stands := (counted.sound task member name).here
    rw [returned] at stands
    exact stands
  held := by
    intro name
    have device : (pool.shared.locks name).held = (pool.shared.locks name).isHeld := by
      unfold Lock.held Lock.isHeld
      rw [counted.alone name, List.append_nil]
      cases (pool.shared.locks name).current <;> simp
    rw [device, Lock.isHeld_iff]
    have count := counted.count name
    constructor
    · intro _
      exact List.exists_lt_of_sum_lt (fun task : Task => task.given name)
        (fun task => task.taken name) (by omega)
    · rintro ⟨_, member, _⟩
      by_contra zero
      have unheld : (pool.shared.locks name).isHeld = false := by
        rw [Bool.eq_false_iff, Ne, Lock.isHeld_iff]
        exact zero
      exact absurd (spent_of_counted counted unheld member) (by omega)

/-- In a run whose turns are all clean. -/
theorem balanced_clean {labels : List (PoolLabel Call Choice)} {final : Pool Manager Task Took}
    (run : Execution (Pool.step transferring) (fun pool label => clean pool label = true) initial
      labels final) : Balanced final := by
  refine balanced_of_counted ?_
  exact run.invariant Counted
    (fun _ _ _ holds allowed taken => counted_step holds allowed taken) counted_initial

/-- The download completes, and the upload that comes after it fails. -/
def twoTransfers : List (PoolLabel Call Choice) :=
  sampleStart ++ turns 1 (List.replicate 9 Choice.proceed) ++ PoolLabel.call (.start 8 .upload) ::
    turns 2 (List.replicate 4 Choice.proceed) ++ turns 3
      (List.replicate 7 Choice.proceed ++ Choice.fail :: List.replicate 7 Choice.proceed)

def bothReturned (pool : Pool Manager Task Took) : Bool :=
  pool.tasks.all fun task => task.point = .returned

theorem balanced_clean_sample :
    ∃ final, Execution (Pool.step transferring) (fun pool label => clean pool label = true) initial
      twoTransfers final ∧
      Balanced final ∧ bothReturned final = true := by
  obtain ⟨final, run, good⟩ := exists_execution bothReturned
    (show (replayWhere (Pool.step transferring) clean initial twoTransfers).any _ = true by decide)
  exact ⟨final, run, balanced_clean run, good⟩

/-- What thread `index` took and gave of the Wi-Fi lock, where it stands, and whether the device has
the lock. -/
def wifiCounts (pool : Pool Manager Task Took) (index : Nat) : Option (Point × Nat × Nat) × Bool :=
  ((pool.tasks[index]?).map fun task => (task.point, task.taken .wifi, task.given .wifi),
    (pool.shared.locks .wifi).held)

def exhaustedRun : List (PoolLabel Call Choice) :=
  sampleStart ++ turns 1 (List.replicate 3 Choice.fail ++ List.replicate 3 Choice.proceed)

/-- An upload fails its storage check while the bytes of the download are arriving. -/
def refusedRun : List (PoolLabel Call Choice) :=
  sampleStart ++ PoolLabel.call (.start 8 .upload) :: turns 2 (List.replicate 4 Choice.proceed) ++
    turns 3 (Choice.proceed :: Choice.fail :: List.replicate 2 Choice.proceed)

/-- A download that has used up its retries keeps the lock; and an upload that fails its storage
check gives back the lock of a download whose bytes are arriving. -/
theorem not_balanced :
    (∃ final, Execution (Pool.step transferring) anything initial exhaustedRun final ∧
      wifiCounts final 1 = (some (.returned, 1, 0), true)) ∧
    ∃ final, Execution (Pool.step transferring) anything initial refusedRun final ∧
      (wifiCounts final 1).1 = some (.working 0, 1, 0) ∧
      (final.tasks[3]?).map (fun task => (task.taken .wifi, task.given .wifi)) = some (0, 1) ∧
      (final.shared.locks .wifi).held = false := by
  constructor
  · obtain ⟨final, run, good⟩ := exists_execution
      (fun pool => wifiCounts pool 1 = (some (.returned, 1, 0), true))
      (show (replayWhere (Pool.step transferring) (fun _ _ => true) initial
        exhaustedRun).any _ = true by decide)
    exact ⟨final, run.plain, of_decide_eq_true good⟩
  · obtain ⟨final, run, good⟩ := exists_execution
      (fun pool => (wifiCounts pool 1).1 = some (.working 0, 1, 0) ∧
        (pool.tasks[3]?).map (fun task => (task.taken .wifi, task.given .wifi)) = some (0, 1) ∧
        (pool.shared.locks .wifi).held = false)
      (show (replayWhere (Pool.step transferring) (fun _ _ => true) initial
        refusedRun).any _ = true by decide)
    exact ⟨final, run.plain, of_decide_eq_true good⟩

end DistributedOs.Android
