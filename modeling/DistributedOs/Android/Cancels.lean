import DistributedOs.Android.Transfers
import Mathlib.Data.List.Nodup

/-! A cancel against the worker of the same transfer. A transfer is taken up by its worker or by one
cancel; where nobody else takes it up, it gets one record and keeps the status it ended with. -/

namespace DistributedOs.Android

open Semantics

def takenUp (pool : Pool Manager Task Took) (id : Nat) : Bool := id ∈ pool.trace.map Prod.fst

/-- The worker is dispatched, a cancel finds the transfer and the status is set to connecting only
while nobody has taken the transfer up, and nothing throws after the record of the worker. -/
def Task.orderly (pool : Pool Manager Task Took) (task : Task) (choice : Choice) : Bool :=
  match task.point, choice with
  | .connecting, _ | .waiting, _ => !takenUp pool task.id
  | .finding, _ => !((pool.shared.transfers task.id).any TransferState.active && takenUp pool task.id)
  | .notifying, .throw => false
  | _, _ => true

def orderly (pool : Pool Manager Task Took) : PoolLabel Call Choice → Bool
  | .call _ => true
  | .run index choice => (pool.tasks[index]?).all fun task => task.orderly pool choice

inductive Phase where
  | opened
  | decided
  | recorded
  | closed

def Phase.Matches (state : TransferState) : Phase → Prop
  | .opened => state.status.terminal = false ∧ state.active = true ∧ state.records = []
  | .decided => state.status.terminal = true ∧ state.active = true ∧ state.records = []
  | .recorded => state.status.terminal = true ∧ state.active = true ∧ state.records = [state.status]
  | .closed => state.status.terminal = true ∧ state.active = false ∧ state.records = [state.status]

/-- The phase after an effect, if the effect fits the phase. After the record comes nothing but the
removal. -/
def Effect.phaseAfter : Phase → Effect → Option Phase
  | .opened, .setStatus status => some (if status.terminal then .decided else .opened)
  | .decided, .record => some .recorded
  | .recorded, .unregister => some .closed
  | .closed, .remove => some .closed
  | _, .setStatus _ | _, .record | _, .unregister | _, .remove | .recorded, _ => none
  | phase, _ => some phase

def phaseAtEnd (phase : Phase) : List Effect → Option Phase
  | [] => some phase
  | effect :: effects => (effect.phaseAfter phase).bind fun next => phaseAtEnd next effects

def Phase.Before : Phase → Point → Prop
  | .opened, .working _ | .closed, .notifying | .closed, .returned => True
  | _, _ => False

/-- What the thread that has taken a transfer up knows of it. -/
def Stands (state : TransferState) : Point → Prop
  | .checking | .working _ => Phase.opened.Matches state
  | .notifying | .returned => Phase.closed.Matches state
  | .performing effects next =>
    ∃ phase final, phase.Matches state ∧ phaseAtEnd phase effects = some final ∧ final.Before next
  | _ => False

variable {phase : Phase} {state : TransferState}

theorem matches_onTransfer {effect : Effect} (here : phase.Matches state)
    (fits : effect.phaseAfter phase = some next) : next.Matches (effect.onTransfer state) := by
  cases effect with
  | setStatus status =>
    cases phase <;> cases fits
    by_cases ended : status.terminal = true
    · rw [if_pos ended]
      exact ⟨ended, here.2⟩
    · rw [if_neg ended]
      exact ⟨Bool.eq_false_iff.mpr ended, here.2⟩
  | record =>
    cases phase <;> cases fits
    obtain ⟨ended, active, records⟩ := here
    exact ⟨ended, active, by simp [Effect.onTransfer, records]⟩
  | unregister =>
    cases phase <;> cases fits
    exact ⟨here.1, rfl, here.2.2⟩
  | remove =>
    cases phase <;> cases fits
    exact ⟨here.1, rfl, here.2.2⟩
  | setCancelFlag | cancelJob | ifMissing | create | acquire | ifHeld | release =>
    cases phase <;> cases fits <;> exact here

theorem status_onTransfer {effect : Effect} (here : phase.Matches state)
    (fits : effect.phaseAfter phase = some next) (ended : state.status.terminal = true) :
    (effect.onTransfer state).status = state.status := by
  cases effect with
  | setStatus =>
    cases phase <;> cases fits
    simp [here.1] at ended
  | _ => rfl

theorem phaseAtEnd_rest {effect : Effect} (fits : effect.phaseAfter phase = some next)
    (locks : LockName → Lock) (effects : List Effect) :
    phaseAtEnd next (effect.rest locks effects) = phaseAtEnd next effects := by
  cases effect with
  | ifMissing =>
    simp only [Effect.rest]
    split
    · cases phase <;> cases fits <;> rfl
    · rfl
  | ifHeld =>
    simp only [Effect.rest]
    split
    · cases phase <;> cases fits <;> rfl
    · rfl
  | _ => rfl

variable {next : Point}

theorem stands_resumeAt
    (here : phase.Matches state) (ends : phaseAtEnd phase effects = some final)
    (fits : final.Before next) :
    Stands state (resumeAt effects next) := by
  unfold resumeAt
  split
  · rename_i empty
    subst empty
    cases ends
    cases phase <;> cases next <;> first | exact fits.elim | exact here
  · exact ⟨phase, final, here, ends, fits⟩

theorem matches_congr (here : phase.Matches state)
    (status : after.status = state.status) (active : after.active = state.active)
    (records : after.records = state.records) :
    phase.Matches after := by
  cases phase <;> simpa only [Phase.Matches, status, active, records] using here

variable {point : Point}

theorem stands_congr (here : Stands state point)
    (status : after.status = state.status) (active : after.active = state.active)
    (records : after.records = state.records) :
    Stands after point := by
  cases point with
  | checking | working =>
    exact matches_congr (show Phase.opened.Matches state from here) status active records
  | notifying | returned =>
    exact matches_congr (show Phase.closed.Matches state from here) status active records
  | performing =>
    obtain ⟨phase, final, begun, ends, fits⟩ := here
    exact ⟨phase, final, matches_congr begun status active records, ends, fits⟩
  | _ => exact here.elim

theorem stands_decides (stands : Stands state point)
    (decided : Decides kind state point choice next)
    (quiet : ¬ (point = .notifying ∧ choice = .throw)) : Stands state next := by
  have script (effects : List Effect) (final : Phase) (after : Point)
    (opened : Phase.opened.Matches state)
      (ends : phaseAtEnd .opened effects = some final) (fits : final.Before after) :
      Stands state (.performing effects after) :=
    ⟨.opened, final, opened, ends, fits⟩
  cases decided with
  | begun => exact script beginning .opened _ stands rfl trivial
  | refused | failed => exact script failing .closed _ stands rfl trivial
  | retried => exact stands
  | completed => exact script completing .closed _ stands rfl trivial
  | exhausted | thrown | refusedThrown => exact script givingUp .closed _ stands rfl trivial
  | notified => exact stands
  | notifiedThrown => exact absurd ⟨rfl, rfl⟩ quiet

/-- No transfer is lost, and none that has ended ends again in another way. -/
def TerminalKept (before after : Manager) : Prop :=
  ∀ id state, before.transfers id = some state →
    ∃ later, after.transfers id = some later ∧
    (state.status.terminal = true → later.status = state.status)

theorem terminalKept_refl (manager : Manager) : TerminalKept manager manager :=
  fun _ state known => ⟨state, known, fun _ => rfl⟩

/-- A point at which the thread has taken its transfer up. -/
def Point.engaged : Point → Bool
  | .checking | .working _ | .notifying | .performing .. => true
  | _ => false

theorem engaged_of_decides
    (decided : Decides kind state point choice next) : point.engaged = true := by
  cases decided <;> rfl

structure Accounted (pool : Pool Manager Task Took) : Prop where
  owner : ∀ id index, (id, index) ∈ pool.trace →
    ∃ task state, pool.tasks[index]? = some task ∧ task.id = id ∧
    pool.shared.transfers id = some state ∧ Stands state task.point
  fresh : ∀ id state, pool.shared.transfers id = some state → takenUp pool id = false →
    Phase.opened.Matches state
  engaged : ∀ index (task : Task), pool.tasks[index]? = some task → task.point.engaged = true →
    (task.id, index) ∈ pool.trace
  single : (pool.trace.map Prod.fst).Nodup

theorem takenUp_iff {id : Nat} : takenUp pool id = true ↔ ∃ index, (id, index) ∈ pool.trace := by
  simp [takenUp]

theorem accounted_initial : Accounted initial where
  owner := nofun
  fresh := nofun
  engaged := nofun
  single := .nil

section
variable {pool : Pool Manager Task Took} {index : Nat} {task : Task}

/-- A turn of a thread that has not taken its transfer up, and does not take it up: what others know
of the transfers stays true. -/
theorem accounted_aside (accounted : Accounted pool) (present : pool.tasks[index]? = some task)
    (absent : (task.id, index) ∉ pool.trace) (shared : Manager) (next : Point) (spawned : List Task)
    (quiet : next.engaged = false) (waiting : ∀ other ∈ spawned, other.point.engaged = false)
    (kept : ∀ id state, pool.shared.transfers id = some state → takenUp pool id = true →
      ∃ after, shared.transfers id = some after ∧ after.status = state.status ∧
      after.active = state.active ∧
        after.records = state.records)
    (opened : ∀ id state, shared.transfers id = some state → takenUp pool id = false →
      Phase.opened.Matches state) :
    Accounted { shared, tasks := pool.tasks.set index { task with point := next } ++ spawned,
                trace := [] ++ pool.trace } where
  owner := by
    intro id owner took
    obtain ⟨other, state, found, rfl, known, stands⟩ := accounted.owner id owner took
    obtain ⟨after, knownAfter, status, active, records⟩ := kept other.id state known
      (takenUp_iff.mpr ⟨owner, took⟩)
    have apart : owner ≠ index := by
      rintro rfl
      rw [present] at found
      cases found
      exact absent took
    exact ⟨other, after, Pool.getElem?_unmoved apart found, rfl, knownAfter,
      stands_congr stands status active records⟩
  fresh := opened
  engaged := by
    intro other moved found engaged
    rcases Pool.getElem?_turned found with ⟨_, rfl⟩ | ⟨_, found⟩ | ⟨_, found⟩
    · simp [quiet] at engaged
    · exact accounted.engaged other moved found engaged
    · rw [waiting moved (List.mem_of_getElem? found)] at engaged
      cases engaged
  single := accounted.single

/-- A turn that takes up a transfer that nobody has taken up. -/
theorem accounted_takeUp (accounted : Accounted pool) (present : pool.tasks[index]? = some task)
    (free : takenUp pool task.id = false) {state : TransferState}
    (known : pool.shared.transfers task.id = some state) (next : Point)
    (stands : Phase.opened.Matches state → Stands state next) :
    Accounted { shared := pool.shared, tasks := pool.tasks.set index { task with point := next } ++ []
                trace := [(task.id, index)] ++ pool.trace } where
  owner := by
    intro id owner took
    rcases List.mem_cons.mp took with same | before
    · cases same
      exact ⟨_, state, Pool.getElem?_moved present, rfl, known, stands (accounted.fresh _ _ known free)⟩
    · obtain ⟨other, held, found, rfl, knownHeld, stands⟩ := accounted.owner id owner before
      have apart : owner ≠ index := by
        rintro rfl
        rw [present] at found
        cases found
        cases free.symm.trans (takenUp_iff.mpr ⟨_, before⟩)
      exact ⟨other, held, Pool.getElem?_unmoved apart found, rfl, knownHeld, stands⟩
  fresh := by
    intro id held knownHeld untaken
    have before : takenUp pool id = false := by
      simp only [takenUp, List.cons_append, List.nil_append, List.map_cons, List.mem_cons,
        decide_eq_false_iff_not, not_or] at untaken
      exact decide_eq_false untaken.2
    exact accounted.fresh id held knownHeld before
  engaged := by
    intro other moved found engaged
    rcases Pool.getElem?_turned found with ⟨rfl, rfl⟩ | ⟨_, found⟩ | ⟨_, found⟩
    · exact List.mem_cons_self
    · exact List.mem_cons_of_mem _ (accounted.engaged other moved found engaged)
    · cases found
  single := by
    refine List.nodup_cons.mpr ⟨?_, accounted.single⟩
    simpa [takenUp] using free

/-- A turn of the thread that has taken the transfer up. -/
theorem accounted_onward (accounted : Accounted pool) (present : pool.tasks[index]? = some task)
    (took : (task.id, index) ∈ pool.trace) (shared : Manager) (moved : Task)
    (same : moved.id = task.id)
    (others : ∀ id, id ≠ task.id → shared.transfers id = pool.shared.transfers id)
    {after : TransferState} (known : shared.transfers task.id = some after)
    (stands : Stands after moved.point) :
    Accounted { shared, tasks := pool.tasks.set index moved ++ [], trace := [] ++ pool.trace } where
  owner := by
    intro id owner here
    by_cases mine : id = task.id
    · subst mine
      have again : owner = index := by
        have unique := List.inj_on_of_nodup_map accounted.single here took rfl
        exact congrArg Prod.snd unique
      subst again
      exact ⟨moved, after, Pool.getElem?_moved present, same, known, stands⟩
    · obtain ⟨other, held, found, rfl, knownHeld, standsHeld⟩ := accounted.owner id owner here
      have apart : owner ≠ index := by
        rintro rfl
        rw [present] at found
        cases found
        exact mine rfl
      exact ⟨other, held, Pool.getElem?_unmoved apart found,
        rfl, by rw [others _ mine, knownHeld], standsHeld⟩
  fresh := by
    intro id held knownHeld untaken
    have apart : id ≠ task.id := by
      rintro rfl
      cases untaken.symm.trans (takenUp_iff.mpr ⟨index, took⟩)
    exact accounted.fresh id held (by rw [← others _ apart, knownHeld]) untaken
  engaged := by
    intro other moved' found engaged
    rcases Pool.getElem?_turned found with ⟨rfl, rfl⟩ | ⟨_, found⟩ | ⟨_, found⟩
    · rwa [same]
    · exact accounted.engaged other moved' found engaged
    · cases found
  single := accounted.single

/-- What the thread that has taken the transfer up does next, it does to its own transfer, and its
status stays. -/
theorem onward_moves
    (known : pool.shared.transfers task.id = some state) (stands : Stands state task.point)
    (allowed : task.orderly pool choice = true) (moves : Moves pool.shared index task choice turn) :
    turn.task.id = task.id ∧ turn.spawned = [] ∧ turn.effects = [] ∧
      (∀ id, id ≠ task.id → turn.shared.transfers id = pool.shared.transfers id) ∧
      ∃ after, turn.shared.transfers task.id = some after ∧ Stands after turn.task.point ∧
        (state.status.terminal = true → after.status = state.status) := by
  cases moves with
  | decide _ _ _ _ _ knownHere decided =>
    rw [known] at knownHere
    cases knownHere
    have quiet : ¬ (task.point = .notifying ∧ choice = .throw) := by
      rintro ⟨here, thrown⟩
      simp [Task.orderly, here, thrown] at allowed
    exact ⟨rfl, rfl, rfl, fun _ _ =>
      rfl, state, known, stands_decides stands decided quiet, fun _ => rfl⟩
  | perform _ _ effect _ _ here =>
    rw [here] at stands
    obtain ⟨_, _, begun, ends, fits⟩ := stands
    obtain ⟨_, moved, ends⟩ := Option.bind_eq_some_iff.mp ends
    refine ⟨rfl, rfl, rfl, fun id different => Manager.update_other different _, effect.onTransfer state,
      Manager.update_self known _, ?_, status_onTransfer begun moved⟩
    exact stands_resumeAt (matches_onTransfer begun moved) ((phaseAtEnd_rest moved ..).trans ends) fits
  | register _ _ here | connect _ here | launch _ _ _ here | assign _ here | dispatch _ here
    | find _ _ here | miss _ here
    | timeout _ _ here =>
    rw [here] at stands
    exact stands.elim

theorem accounted_same (accounted : Accounted pool) (present : pool.tasks[index]? = some task)
    (absent : (task.id, index) ∉ pool.trace) (shared : Manager)
    (same : shared.transfers = pool.shared.transfers) (next : Point) (spawned : List Task)
    (quiet : next.engaged = false) (waiting : ∀ other ∈ spawned, other.point.engaged = false) :
    Accounted { shared, tasks := pool.tasks.set index { task with point := next } ++ spawned,
                trace := [] ++ pool.trace } := by
  refine accounted_aside accounted present absent shared next spawned quiet waiting ?_ ?_
  · intro id state known _
    exact ⟨state, by rw [same, known], rfl, rfl, rfl⟩
  · intro id state known untaken
    exact accounted.fresh id state (same ▸ known) untaken

/-- A turn that changes one transfer, but nothing that matters when somebody has taken it up. -/
theorem accounted_update (accounted : Accounted pool) (present : pool.tasks[index]? = some task)
    (absent : (task.id, index) ∉ pool.trace) (next : Point) (quiet : next.engaged = false)
    (change : TransferState → TransferState)
    (untouched : takenUp pool task.id = true → ∀ state, (change state).status = state.status ∧
      (change state).active = state.active ∧
      (change state).records = state.records)
    (opens : ∀ state, Phase.opened.Matches state → Phase.opened.Matches (change state)) :
    Accounted { shared := pool.shared.update task.id change
                tasks := pool.tasks.set index { task with point := next } ++ []
                trace := [] ++ pool.trace } ∧
      TerminalKept pool.shared (pool.shared.update task.id change) := by
  refine ⟨accounted_aside accounted present absent _ next [] quiet nofun ?_ ?_, ?_⟩
  · intro id state known taken
    by_cases mine : id = task.id
    · subst mine
      exact ⟨_, Manager.update_self known _, untouched taken state⟩
    · exact ⟨state, (Manager.update_other mine _).trans known, rfl, rfl, rfl⟩
  · intro id _ known untaken
    obtain ⟨state, before, ⟨rfl, rfl⟩ | ⟨_, rfl⟩⟩ := Manager.update_cases known
    · exact opens state (accounted.fresh _ state before untaken)
    · exact accounted.fresh id _ before untaken
  · intro id state known
    by_cases mine : id = task.id
    · subst mine
      refine ⟨_, Manager.update_self known _, fun ended => ?_⟩
      cases taken : takenUp pool task.id with
      | true => exact (untouched taken state).1
      | false => cases ended.symm.trans (accounted.fresh _ state known taken).1
    · exact ⟨state, (Manager.update_other mine _).trans known, fun _ => rfl⟩

theorem accounted_register (accounted : Accounted pool) (present : pool.tasks[index]? = some task)
    (absent : (task.id, index) ∉ pool.trace) (next : Point) (quiet : next.engaged = false)
    (unknown : pool.shared.transfers task.id = none) :
    Accounted { shared := { pool.shared with
                  transfers := Function.update pool.shared.transfers task.id (some registered) }
                tasks := pool.tasks.set index { task with point := next } ++ []
                trace := [] ++ pool.trace } ∧
      TerminalKept pool.shared { pool.shared with
        transfers := Function.update pool.shared.transfers task.id (some registered) } := by
  have elsewhere (id : Nat) (different : id ≠ task.id) :
      Function.update pool.shared.transfers task.id (some registered) id = pool.shared.transfers id :=
    Function.update_of_ne different _ _
  have other (id : Nat) (state : TransferState) (before : pool.shared.transfers id = some state) :
      id ≠ task.id := by
    rintro rfl
    rw [unknown] at before
    cases before
  refine ⟨accounted_aside accounted present absent _ next [] quiet nofun ?_ ?_, ?_⟩
  · intro id state before _
    exact ⟨state, (elsewhere id (other id state before)).trans before, rfl, rfl, rfl⟩
  · intro id state after untaken
    by_cases mine : id = task.id
    · subst mine
      simp only [Function.update_self] at after
      cases after
      exact ⟨rfl, rfl, rfl⟩
    · exact accounted.fresh id state ((elsewhere id mine).symm.trans after) untaken
  · intro id state before
    exact ⟨state, (elsewhere id (other id state before)).trans before, fun _ => rfl⟩

theorem accounted_turned (accounted : Accounted pool) (present : pool.tasks[index]? = some task)
    (allowed : task.orderly pool choice = true) (moves : Moves pool.shared index task choice turn) :
    Accounted { shared := turn.shared, tasks := pool.tasks.set index turn.task ++ turn.spawned,
                trace := turn.effects ++ pool.trace } ∧
      TerminalKept pool.shared turn.shared := by
  by_cases took : (task.id, index) ∈ pool.trace
  · obtain ⟨_, state, found, _, known, stands⟩ := accounted.owner _ _ took
    rw [present] at found
    cases found
    obtain ⟨same, spawned, effects, others, after, knownAfter, standsAfter, kept⟩ := onward_moves
      known stands allowed moves
    rw [spawned, effects]
    refine ⟨accounted_onward accounted present took turn.shared turn.task same others knownAfter
      standsAfter, fun id held knownHeld => ?_⟩
    by_cases mine : id = task.id
    · subst mine
      rw [known] at knownHeld
      cases knownHeld
      exact ⟨after, knownAfter, kept⟩
    · exact ⟨held, by rw [others id mine, knownHeld], fun _ => rfl⟩
  · have idle : task.point.engaged ≠ true :=
      fun engaged => took (accounted.engaged index task present engaged)
    cases moves with
    | register _ next _ unknown onward =>
      have quiet : next.engaged = false := by rcases onward with rfl | rfl <;> rfl
      exact accounted_register accounted present took next quiet unknown
    | connect _ here =>
      have free : takenUp pool task.id = false := by simpa [Task.orderly, here] using allowed
      exact accounted_update accounted present took .launching rfl
        _ (fun taken => nomatch free.symm.trans taken)
          fun state opened => ⟨rfl, opened.2⟩
    | launch _ _ next _ onward =>
      have quiet : next.engaged = false := by rcases onward with rfl | rfl <;> rfl
      exact ⟨accounted_same accounted present took _ rfl next _ quiet (by simp [Point.engaged]),
        terminalKept_refl _⟩
    | assign =>
      exact accounted_update accounted present took .returned rfl _ (fun _ state => ⟨rfl, rfl, rfl⟩)
        fun state opened => matches_congr opened rfl rfl rfl
    | dispatch _ here known =>
      have free : takenUp pool task.id = false := by simpa [Task.orderly, here] using allowed
      exact ⟨accounted_takeUp accounted present free known .checking id, terminalKept_refl _⟩
    | find _ _ here known active =>
      have free : takenUp pool task.id = false := by
        simpa [Task.orderly, here, known, active] using allowed
      refine ⟨accounted_takeUp accounted present free known _ fun opened => ?_, terminalKept_refl _⟩
      exact ⟨.opened, .closed, opened, rfl, trivial⟩
    | miss =>
      exact ⟨accounted_same accounted present took _ rfl .returned [] rfl nofun, terminalKept_refl _⟩
    | timeout _ lock =>
      have sameTransfers := accounted_same accounted present took
        { pool.shared with locks := Function.update pool.shared.locks .wake lock } rfl
          .returned [] rfl nofun
      exact ⟨sameTransfers, terminalKept_refl _⟩
    | decide _ _ _ _ _ _ decided => exact absurd (engaged_of_decides decided) idle
    | perform _ _ _ _ _ here =>
      exact absurd (by rw [here]; rfl) idle

end

theorem accounted_step (accounted : Accounted pool)
    (allowed : orderly pool label = true) (taken : Pool.step transferring pool label = some after) :
    Accounted after ∧ TerminalKept pool.shared after.shared := by
  rcases Pool.step_cases taken with ⟨call, rfl, rfl⟩
    | ⟨index, choice, task, _, rfl, present, turned, rfl⟩
  · refine ⟨⟨?_, accounted.fresh, ?_, accounted.single⟩, terminalKept_refl _⟩
    · intro id index took
      obtain ⟨task, state, found, same, known, stands⟩ := accounted.owner id index took
      have within := (List.getElem?_eq_some_iff.mp found).1
      exact ⟨task, state, by rw [List.getElem?_append_left within, found], same, known, stands⟩
    · intro index task found engaged
      rcases Pool.getElem?_called found with found | ⟨_, rfl⟩
      · exact accounted.engaged index task found engaged
      · cases call <;> cases engaged
  · have permitted : task.orderly pool choice = true := by simpa [orderly, present] using allowed
    exact accounted_turned accounted present permitted (moves_of_turn turned)

/-- The thread is between the two updates of `addToHistory`. -/
def Task.AmidAddToHistory (task : Task) : Prop :=
  ∃ effects next, task.point = .performing (.unregister :: effects) next

/-- One record at most, which has the status, and exactly one when the thread that ends the transfer
is done; and an entry in exactly one of the two collections, but between the two updates of
`addToHistory`. -/
structure Settles (pool : Pool Manager Task Took) (id : Nat) (state : TransferState) : Prop where
  once : state.records.length ≤ 1
  same : ∀ status ∈ state.records, status = state.status
  somewhere : state.active = true ∨ state.records ≠ []
  exclusive : (state.active = true ↔ state.records = []) ↔ ∀ task ∈ pool.tasks, task.id = id →
    ¬ task.AmidAddToHistory
  ended : ∀ index task, (id, index) ∈ pool.trace → pool.tasks[index]? = some task →
    task.point = .returned →
    state.records.length = 1 ∧ state.active = false ∧ state.status.terminal = true

theorem both_iff (here : phase.Matches state) :
    (state.active = true ∧ state.records ≠ []) ↔ phase = .recorded := by
  cases phase with
  | opened | decided => simp [here.2.2]
  | recorded => simp [here.2.1, here.2.2]
  | closed => simp [here.2.1]

theorem phaseAtEnd_recorded (ends : phaseAtEnd .recorded effects = some final)
    (fits : final.Before next) : ∃ rest, effects = .unregister :: rest := by
  cases effects with
  | nil =>
    cases ends
    exact fits.elim
  | cons effect effects =>
    obtain ⟨_, moved, _⟩ := Option.bind_eq_some_iff.mp ends
    cases effect <;> first | exact ⟨effects, rfl⟩ | cases moved

theorem stands_unregister_iff (stands : Stands state point) :
    (state.active = true ∧ state.records ≠ []) ↔
      ∃ effects next, point = .performing (.unregister :: effects) next := by
  cases point with
  | checking | working =>
    exact iff_of_false (fun both =>
      nomatch (both_iff (show Phase.opened.Matches state from stands)).mp both) nofun
  | notifying | returned =>
    exact iff_of_false (fun both =>
      nomatch (both_iff (show Phase.closed.Matches state from stands)).mp both) nofun
  | performing _ next =>
    obtain ⟨phase, _, here, ends, fits⟩ := stands
    rw [both_iff here]
    constructor
    · rintro rfl
      obtain ⟨rest, rfl⟩ := phaseAtEnd_recorded ends fits
      exact ⟨rest, next, rfl⟩
    · rintro ⟨_, _, same⟩
      cases same
      obtain ⟨_, moved, _⟩ := Option.bind_eq_some_iff.mp ends
      cases phase <;> first | rfl | cases moved
  | _ => exact stands.elim

theorem exists_phase (stands : Stands state point) : ∃ phase : Phase, phase.Matches state := by
  cases point with
  | checking | working => exact ⟨.opened, stands⟩
  | notifying | returned => exact ⟨.closed, stands⟩
  | performing =>
    obtain ⟨phase, _, here, _⟩ := stands
    exact ⟨phase, here⟩
  | _ => exact stands.elim

theorem engaged_of_amid {task : Task} (amid : task.AmidAddToHistory) :
    task.point.engaged = true := by
  obtain ⟨_, _, here⟩ := amid
  rw [here]
  rfl

theorem owner_unique (accounted : Accounted pool) {id index other : Nat}
    (one : (id, index) ∈ pool.trace) (two : (id, other) ∈ pool.trace) : index = other :=
  congrArg Prod.snd (List.inj_on_of_nodup_map accounted.single one two rfl)

/-- A transfer is recorded and still active just while a thread is amid `addToHistory` for it. -/
theorem recorded_active_iff (accounted : Accounted pool) {id : Nat}
    (known : pool.shared.transfers id = some state) :
    ¬ (state.active = true ∧ state.records ≠ []) ↔ ∀ other ∈ pool.tasks, other.id = id →
      ¬ other.AmidAddToHistory := by
  by_cases taken : takenUp pool id = true
  · obtain ⟨index, took⟩ := takenUp_iff.mp taken
    obtain ⟨task, _, found, rfl, knownHeld, stands⟩ := accounted.owner id index took
    rw [known] at knownHeld
    cases knownHeld
    rw [stands_unregister_iff stands]
    constructor
    · intro apart other member same amid
      obtain ⟨place, foundOther⟩ := List.mem_iff_getElem?.mp member
      have alsoTook := accounted.engaged place other foundOther (engaged_of_amid amid)
      rw [same] at alsoTook
      cases owner_unique accounted took alsoTook
      rw [found] at foundOther
      cases foundOther
      exact apart amid
    · exact fun apart => apart task (List.mem_of_getElem? found) rfl
  · have opened := accounted.fresh id state known (Bool.eq_false_iff.mpr taken)
    refine iff_of_true (fun both => both.2 opened.2.2) ?_
    intro other member same amid
    obtain ⟨place, foundOther⟩ := List.mem_iff_getElem?.mp member
    have took := accounted.engaged place other foundOther (engaged_of_amid amid)
    exact taken (takenUp_iff.mpr ⟨place, same ▸ took⟩)

theorem settles_of_accounted (accounted : Accounted pool) {id : Nat}
    (known : pool.shared.transfers id = some state) : Settles pool id state := by
  have reached : ∃ phase : Phase, phase.Matches state := by
    by_cases taken : takenUp pool id = true
    · obtain ⟨index, took⟩ := takenUp_iff.mp taken
      obtain ⟨task, held, _, _, knownHeld, stands⟩ := accounted.owner id index took
      rw [known] at knownHeld
      cases knownHeld
      exact exists_phase stands
    · exact ⟨.opened, accounted.fresh id state known (Bool.eq_false_iff.mpr taken)⟩
  obtain ⟨phase, here⟩ := reached
  refine ⟨?_, ?_, ?_, ?_, ?_⟩
  · cases phase <;> simp [here.2.2]
  · cases phase <;> simp [here.2.2]
  · cases phase <;> simp [here.2.1, here.2.2]
  · have single : (state.active = true ↔ state.records = []) ↔
        ¬ (state.active = true ∧ state.records ≠ []) := by
      cases phase <;> simp [here.2.1, here.2.2]
    rw [single]
    exact recorded_active_iff accounted known
  · intro index _ took found returned
    obtain ⟨_, _, foundOwned, _, knownHeld, stands⟩ := accounted.owner id index took
    rw [found] at foundOwned
    cases foundOwned
    rw [known] at knownHeld
    cases knownHeld
    rw [returned] at stands
    obtain ⟨ended, gone, records⟩ : Phase.closed.Matches state := stands
    exact ⟨by rw [records, List.length_singleton], gone, ended⟩

/-- In a run in which each transfer is taken up once. -/
theorem settles_orderly {labels : List (PoolLabel Call Choice)} {final : Pool Manager Task Took}
    (run : Execution (Pool.step transferring) (fun pool label => orderly pool label = true)
      initial labels final) :
    (∀ id state, final.shared.transfers id = some state → Settles final id state) ∧
      EveryStep (Pool.step transferring)
        (fun before _ after => TerminalKept before.shared after.shared) initial labels := by
  constructor
  · have accounted : Accounted final :=
      run.invariant Accounted
        (fun _ _ _ holds allowed taken => (accounted_step holds allowed taken).1) accounted_initial
    exact fun id state known => settles_of_accounted accounted known
  · exact run.everyStep Accounted accounted_initial fun _ _ _ holds allowed taken =>
      accounted_step holds allowed taken

def sampleCancel : List (PoolLabel Call Choice) :=
  .call (.cancelTransfer 7) :: turns 2 (List.replicate 7 .proceed)

def Shows (pool : Pool Manager Task Took) (id : Nat) (good : TransferState → Bool) : Bool :=
  (pool.shared.transfers id).any good

/-- The download runs to its end, and a late cancel finds nothing. -/
theorem settles_orderly_sample :
    ∃ final state, Execution (Pool.step transferring)
      (fun pool label => orderly pool label = true) initial
        (sampleStart ++ turns 1 (List.replicate 9 .proceed) ++
          [.call (.cancelTransfer 7), .run 2 .proceed]) final ∧
      final.shared.transfers 7 = some state ∧ state.records = [.completed] ∧
      Settles final 7 state := by
  obtain ⟨final, run, good⟩ := exists_execution
    (fun pool => Shows pool 7 fun state => state.records = [.completed])
    (show (replayWhere (Pool.step transferring) orderly initial
      (sampleStart ++ turns 1 (List.replicate 9 .proceed) ++
        [.call (.cancelTransfer 7), .run 2 .proceed])).any _ = true by decide)
  obtain ⟨state, known, records⟩ := (Option.any_eq_true _ _).mp good
  exact ⟨final, state, run, known, by simpa using records, (settles_orderly run).1 7 state known⟩

/-- Cancelled while its bytes arrive, the download is recorded twice, and ends as failed; and
without any cancel it is for a moment in both collections. -/
theorem not_settles :
    (∃ final state, Execution (Pool.step transferring) anything initial
        (sampleStart ++ sampleCancel ++ .run 1 .fail :: turns 1 (List.replicate 3 .proceed)) final ∧
      final.shared.transfers 7 = some state ∧ state.status = .failed ∧
      state.records = [.failed, .cancelled]) ∧
    ∃ final state, Execution (Pool.step transferring) anything initial
      (sampleStart ++ turns 1 (List.replicate 7 .proceed)) final ∧
        final.shared.transfers 7 = some state ∧ state.active = true ∧
        state.records = [.completed] := by
  constructor
  · obtain ⟨final, run, good⟩ := exists_execution
      (fun pool => Shows pool 7 fun state => state.status = .failed ∧
        state.records = [.failed, .cancelled])
      (show (replayWhere (Pool.step transferring) (fun _ _ => true) initial
        (sampleStart ++ sampleCancel ++ .run 1 .fail :: turns 1 (List.replicate 3 .proceed))).any
          _ = true by decide)
    obtain ⟨state, known, shown⟩ := (Option.any_eq_true _ _).mp good
    have ⟨failed, records⟩ := of_decide_eq_true shown
    exact ⟨final, state, run.plain, known, failed, records⟩
  · obtain ⟨final, run, good⟩ := exists_execution
      (fun pool => Shows pool 7 fun state => state.active = true ∧ state.records = [.completed])
      (show (replayWhere (Pool.step transferring) (fun _ _ => true) initial
        (sampleStart ++ turns 1 (List.replicate 7 .proceed))).any _ = true by decide)
    obtain ⟨state, known, shown⟩ := (Option.any_eq_true _ _).mp good
    have ⟨active, records⟩ := of_decide_eq_true shown
    exact ⟨final, state, run.plain, known, active, records⟩

end DistributedOs.Android
