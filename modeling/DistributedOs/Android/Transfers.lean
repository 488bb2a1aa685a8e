import DistributedOs.Semantics.TaskPool
import Mathlib.Logic.Function.Basic

/-! The threads of `FileTransferManager`: who starts a transfer, its worker, and who cancels it.
They share the state of each transfer and the two locks. An exit of the worker is a script of
effects, taken one at a time. -/

namespace DistributedOs.Android

open Semantics

inductive TransferStatus where
  | queued
  | connecting
  | transferring
  | completed
  | failed
  | cancelled
  | paused
  deriving DecidableEq

def TransferStatus.terminal : TransferStatus → Bool
  | .completed | .failed | .cancelled => true
  | _ => false

/-- `active` is the entry in `activeTransfers`, `records` what the history has of the transfer. -/
structure TransferState where
  status : TransferStatus
  cancelFlag : Bool
  jobAssigned : Bool
  jobCancelled : Bool
  active : Bool
  records : List TransferStatus
  deriving DecidableEq

inductive LockName where
  | wifi
  | wake
  deriving DecidableEq

/-- A reference-counted lock. A timed acquire leaves a timer that gives the lock back; timers are
dropped when the count gets to zero. -/
structure LockObject where
  count : Int
  timers : Nat
  deriving DecidableEq

/-- The field of the manager, and the objects that were in it before. -/
structure Lock where
  current : Option LockObject
  replaced : List LockObject
  deriving DecidableEq

def LockObject.acquire (timed : Bool) (lock : LockObject) : LockObject :=
  { count := lock.count + 1, timers := if timed then (if lock.count = 0 then 1 else lock.timers + 1)
    else lock.timers }

/-- A release too many throws, after a Wi-Fi lock has counted it and a wake lock, the timed one, has
not. -/
def LockObject.release (timed : Bool) (lock : LockObject) : LockObject :=
  { count := if timed then max 0 (lock.count - 1)
    else lock.count - 1, timers := if lock.count ≤ 1 then 0 else lock.timers }

namespace Lock

def isHeld (lock : Lock) : Bool := lock.current.any (0 < ·.count)

/-- The device has the lock, through any of its objects. -/
def held (lock : Lock) : Bool := (lock.current.toList ++ lock.replaced).any (0 < ·.count)

def create (lock : Lock) : Lock :=
  { current := some ⟨0, 0⟩, replaced := lock.current.toList ++ lock.replaced }

def acquire (timed : Bool) (lock : Lock) : Lock :=
  { lock with current := lock.current.map (LockObject.acquire timed) }

def release (timed : Bool) (lock : Lock) : Lock :=
  { lock with current := lock.current.map (LockObject.release timed) }

def timeout (lock : Lock) : Option Lock :=
  if lock.current.any (0 < ·.timers) then
    some { lock with current := lock.current.map fun object =>
      let given := object.release true
      { given with timers := given.timers - 1 } }
  else none

end Lock

structure Manager where
  transfers : Nat → Option TransferState
  locks : LockName → Lock

inductive Effect where
  | setStatus (status : TransferStatus)
  | setCancelFlag
  | cancelJob
  | record
  | unregister
  | remove
  | ifMissing (lock : LockName)
  | create (lock : LockName)
  | acquire (lock : LockName)
  | ifHeld (lock : LockName)
  | release (lock : LockName)
  deriving DecidableEq

/-- A lock is created when a test finds none, and released when a test finds it held. -/
def acquireLocks : List Effect :=
  [.ifMissing .wifi, .acquire .wifi, .ifMissing .wake, .acquire .wake]

def releaseLocks : List Effect := [.ifHeld .wifi, .ifHeld .wake]

def addToHistory : List Effect := [.record, .unregister]

/-- The worker goes on to transfer the file. -/
def beginning : List Effect := .setStatus .transferring :: acquireLocks

def failing : List Effect := releaseLocks ++ .setStatus .failed :: addToHistory

/-- The retries of a download are used up, or an exception was caught. -/
def givingUp : List Effect := .setStatus .failed :: addToHistory

def completing : List Effect := releaseLocks ++ .setStatus .completed :: addToHistory

def cancelling : List Effect :=
  [.setCancelFlag, .setStatus .cancelled, .cancelJob] ++ addToHistory ++ [.remove]

inductive Kind where
  | download
  | upload
  | resend
  deriving DecidableEq

inductive Role where
  | starter (kind : Kind)
  | worker (kind : Kind)
  | canceller
  | timer
  deriving DecidableEq

/-- Where a thread is. `performing` is in the middle of a script. -/
inductive Point where
  | registering
  | connecting
  | launching
  | assigning
  | waiting
  | checking
  | working (attempt : Nat)
  | notifying
  | finding
  | timing
  | performing (effects : List Effect) (next : Point)
  | returned
  deriving DecidableEq

/-- `taken` and `given` count the acquires and releases of the thread; nothing reads them. -/
structure Task where
  id : Nat
  role : Role
  point : Point
  taken : LockName → Nat := fun _ => 0
  given : LockName → Nat := fun _ => 0

/-- How an operation of the thread ends: `fail` is a failed check, transfer or acquire. -/
inductive Choice where
  | proceed
  | fail
  | throw
  deriving DecidableEq

inductive Call where
  | start (id : Nat) (kind : Kind)
  | cancelTransfer (id : Nat)
  | timeout

def Task.start : Call → Task
  | .start id kind => { id, role := .starter kind, point := .registering }
  | .cancelTransfer id => { id, role := .canceller, point := .finding }
  | .timeout => { id := 0, role := .timer, point := .timing }

/-- A transfer is taken up by the thread that dispatches its worker, or that finds it in order to
cancel it. Nothing reads the trace. -/
abbrev Took := Nat × Nat

def Manager.update (manager : Manager) (id : Nat)
    (change : TransferState → TransferState) : Manager :=
  { manager with transfers := Function.update manager.transfers id ((manager.transfers id).map change) }

theorem Manager.update_self {manager : Manager} {id : Nat}
    (known : manager.transfers id = some state) (change : TransferState → TransferState) :
    (manager.update id change).transfers id = some (change state) := by
  simp [Manager.update, known]

theorem Manager.update_other {manager : Manager} {id other : Nat} (different : other ≠ id)
    (change : TransferState → TransferState) :
    (manager.update id change).transfers other = manager.transfers other :=
  Function.update_of_ne different _ _

theorem Manager.update_cases {manager : Manager} {id other : Nat} {after : TransferState}
    (known : (manager.update id change).transfers other = some after) :
    ∃ state, manager.transfers other = some state ∧
      ((other = id ∧ after = change state) ∨ (other ≠ id ∧ after = state)) := by
  by_cases same : other = id
  · subst same
    simp only [Manager.update, Function.update_self, Option.map_eq_some_iff] at known
    obtain ⟨state, before, changed⟩ := known
    exact ⟨state, before, .inl ⟨rfl, changed.symm⟩⟩
  · rw [Manager.update_other same] at known
    exact ⟨after, known, .inr ⟨same, rfl⟩⟩

def Effect.onTransfer (effect : Effect) (state : TransferState) : TransferState :=
  match effect with
  | .setStatus status => { state with status }
  | .setCancelFlag => { state with cancelFlag := true }
  | .cancelJob => { state with jobCancelled := state.jobAssigned || state.jobCancelled }
  | .record => { state with records := state.status :: state.records }
  | .unregister | .remove => { state with active := false }
  | _ => state

def Effect.mayFail : Effect → Bool
  | .create _ | .acquire _ => true
  | _ => false

def Effect.onLocks (effect : Effect) (failed : Bool) (locks : LockName → Lock) : LockName → Lock :=
  match effect with
  | .create name => if failed then locks else Function.update locks name (locks name).create
  | .acquire name =>
    if failed then locks else Function.update locks name ((locks name).acquire (name = .wake))
  | .release name => Function.update locks name ((locks name).release (name = .wake))
  | _ => locks

/-- What is left of a script; a test that holds puts first what it guards. -/
def Effect.rest (effect : Effect) (locks : LockName → Lock) (effects : List Effect) : List Effect :=
  match effect with
  | .ifMissing name => if (locks name).current.isNone then .create name :: effects else effects
  | .ifHeld name => if (locks name).isHeld then .release name :: effects else effects
  | _ => effects

def resumeAt (effects : List Effect) (next : Point) : Point :=
  if effects = [] then next else .performing effects next

def Task.perform (manager : Manager) (task : Task) (failed : Bool) (effect : Effect)
    (effects : List Effect) (next : Point) :
    Manager × Task :=
  ({ (manager.update task.id effect.onTransfer) with locks := effect.onLocks failed manager.locks },
    { task with
      point := resumeAt (effect.rest manager.locks effects) next
      taken := match effect with
        | .acquire name =>
          if failed || (manager.locks name).current.isNone then task.taken
          else Function.update task.taken name (task.taken name + 1)
        | _ => task.taken
      given := match effect with
        | .release name => Function.update task.given name (task.given name + 1)
        | _ => task.given })

/-- The next point of a thread that has only looked at the state, or changed that of its own
transfer. -/
def Task.goOn (task : Task) (manager : Manager) (point : Point) : Option (Turn Manager Task Took) :=
  some { shared := manager, task := { task with point }, spawned := [], effects := [] }

/-- The thread takes its transfer up. -/
def Task.takeUp (task : Task) (manager : Manager) (index : Nat)
    (point : Point) : Option (Turn Manager Task Took) :=
  some { shared := manager, task := { task with point }, spawned := [], effects := [(task.id, index)] }

def registered : TransferState :=
  { status := .queued, cancelFlag := false, jobAssigned := false, jobCancelled := false,
    active := true, records := [] }

def maxRetries : Nat := 3

/-- `startDownload`, `startUpload` and `resendTransfer`, which keeps the status and the job to
itself. -/
def Task.turnStarter (manager : Manager) (task : Task)
    (kind : Kind) : Option (Turn Manager Task Took) :=
  match task.point with
  | .registering =>
    if (manager.transfers task.id).isNone then
      task.goOn { manager with transfers := Function.update manager.transfers task.id (some registered) }
        (if kind = .resend then .launching else .connecting)
    else none
  | .connecting => task.goOn (manager.update task.id ({ · with status := .connecting })) .launching
  | .launching =>
    some { shared := manager
           task := { task with point := if kind = .resend then .returned else .assigning }
           spawned := [{ id := task.id, role := .worker kind, point := .waiting }]
           effects := [] }
  | .assigning => task.goOn (manager.update task.id ({ · with jobAssigned := true })) .returned
  | _ => none

/-- A job that was cancelled before it was dispatched never runs; later the cancel does not reach
it. A resend has no file to open. -/
def Task.turnWorker (manager : Manager) (index : Nat) (task : Task) (kind : Kind)
    (state : TransferState) (choice : Choice) :
    Option (Turn Manager Task Took) :=
  match task.point, choice with
  | .waiting, .proceed => if state.jobCancelled then none else task.takeUp manager index .checking
  | .checking, .proceed =>
    if kind = .resend then none else task.goOn manager (.performing beginning (.working 0))
  | .checking, .fail =>
    if kind = .resend then none else task.goOn manager (.performing failing .returned)
  | .checking, .throw => task.goOn manager (.performing givingUp .returned)
  | .working _, .proceed => task.goOn manager (.performing completing .notifying)
  | .working attempt, .fail =>
    if kind = .download then
      if maxRetries ≤ attempt + 1 ∨ state.cancelFlag = true then
        task.goOn manager (.performing givingUp .returned)
      else task.goOn manager (.working (attempt + 1))
    else task.goOn manager (.performing failing .returned)
  | .working _, .throw => task.goOn manager (.performing givingUp .returned)
  | .notifying, .proceed => task.goOn manager .returned
  | .notifying, .throw => task.goOn manager (.performing givingUp .returned)
  | _, _ => none

/-- `cancelTransfer` looks the transfer up. -/
def Task.turnCanceller (manager : Manager) (index : Nat)
    (task : Task) : Option (Turn Manager Task Took) :=
  match task.point with
  | .finding =>
    if (manager.transfers task.id).any TransferState.active then task.takeUp manager index
      (.performing cancelling .returned)
    else task.goOn manager .returned
  | _ => none

def Task.turnTimer (manager : Manager) (task : Task) : Option (Turn Manager Task Took) :=
  match task.point with
  | .timing =>
    (manager.locks .wake).timeout.bind fun lock =>
      task.goOn { manager with locks := Function.update manager.locks .wake lock } .returned
  | _ => none

def Task.turn (manager : Manager) (index : Nat) (task : Task)
    (choice : Choice) : Option (Turn Manager Task Took) :=
  match task.point with
  | .performing (effect :: effects) next =>
    let failed := choice = .fail
    if choice = .throw ∨ (failed ∧ effect.mayFail = false) then none
    else
      let (manager, task) := task.perform manager failed effect effects next
      some { shared := manager, task, spawned := [], effects := [] }
  | _ =>
    match task.role with
    | .starter kind => task.turnStarter manager kind
    | .worker kind =>
      (manager.transfers task.id).bind fun state => task.turnWorker manager index kind state choice
    | .canceller => task.turnCanceller manager index
    | .timer => task.turnTimer manager

def transferring : Behaviour Manager Task Took Call Choice where
  start := Task.start
  turn := Task.turn

def initial : Pool Manager Task Took :=
  { shared := { transfers := fun _ => none, locks := fun _ => { current := none, replaced := [] } },
    tasks := [], trace := [] }

/-- A download, up to where its bytes arrive. -/
def sampleStart : List (PoolLabel Call Choice) :=
  .call (.start 7 .download) :: turns 0 (List.replicate 4 .proceed) ++ turns 1
  (List.replicate 9 .proceed)

/-- Where the worker can go on from a point without touching the state. -/
inductive Decides (kind : Kind) (state : TransferState) : Point → Choice → Point → Prop where
  | begun : Decides kind state .checking .proceed (.performing beginning (.working 0))
  | refused : Decides kind state .checking .fail (.performing failing .returned)
  | refusedThrown : Decides kind state .checking .throw (.performing givingUp .returned)
  | retried (attempt : Nat) : Decides kind state (.working attempt) .fail (.working (attempt + 1))
  | completed (attempt : Nat) :
    Decides kind state (.working attempt) .proceed (.performing completing .notifying)
  | failed (attempt : Nat) : Decides kind state (.working attempt) .fail (.performing failing .returned)
  | exhausted (attempt : Nat) (downloads : kind = .download)
    (last : maxRetries ≤ attempt + 1 ∨ state.cancelFlag = true) :
      Decides kind state (.working attempt) .fail (.performing givingUp .returned)
  | thrown (attempt : Nat) :
    Decides kind state (.working attempt) .throw (.performing givingUp .returned)
  | notified : Decides kind state .notifying .proceed .returned
  | notifiedThrown : Decides kind state .notifying .throw (.performing givingUp .returned)

inductive Moves (manager : Manager) (index : Nat)
    (task : Task) : Choice → Turn Manager Task Took → Prop where
  | register (choice : Choice) (next : Point) (here : task.point = .registering)
    (unknown : manager.transfers task.id = none)
      (onward : next = .launching ∨ next = .connecting) :
      Moves manager index task choice
        { shared := { manager with transfers := Function.update manager.transfers task.id (some registered) }
          task := { task with point := next }, spawned := [], effects := [] }
  | connect (choice : Choice) (here : task.point = .connecting) :
      Moves manager index task choice
        { shared := manager.update task.id ({ · with status := .connecting }),
          task := { task with point := .launching }
          spawned := [], effects := [] }
  | launch (choice : Choice) (kind : Kind) (next : Point) (here : task.point = .launching)
      (onward : next = .returned ∨ next = .assigning) :
      Moves manager index task choice
        { shared := manager, task := { task with point := next }
          spawned := [{ id := task.id, role := .worker kind, point := .waiting }], effects := [] }
  | assign (choice : Choice) (here : task.point = .assigning) :
      Moves manager index task choice
        { shared := manager.update task.id ({ · with jobAssigned := true }),
          task := { task with point := .returned }
          spawned := [], effects := [] }
  | dispatch (state : TransferState) (here : task.point = .waiting)
    (known : manager.transfers task.id = some state)
      (runs : state.jobCancelled = false) :
      Moves manager index task .proceed
        { shared := manager, task := { task with point := .checking }, spawned := [],
          effects := [(task.id, index)] }
  | find (choice : Choice) (state : TransferState) (here : task.point = .finding)
    (known : manager.transfers task.id = some state)
      (active : state.active = true) :
      Moves manager index task choice
        { shared := manager,
          task := { task with point := .performing cancelling .returned }, spawned := []
          effects := [(task.id, index)] }
  | miss (choice : Choice) (here : task.point = .finding)
    (gone : (manager.transfers task.id).any TransferState.active = false) :
      Moves manager index task choice
        { shared := manager, task := { task with point := .returned }, spawned := [], effects := [] }
  | decide (choice : Choice) (next : Point) (kind : Kind) (state : TransferState)
    (works : task.role = .worker kind)
      (known : manager.transfers task.id = some state)
      (decided : Decides kind state task.point choice next) :
      Moves manager index task choice
        { shared := manager, task := { task with point := next }, spawned := [], effects := [] }
  | perform (choice : Choice) (failed : Bool) (effect : Effect) (effects : List Effect) (next : Point)
      (here : task.point = .performing (effect :: effects) next) :
      Moves manager index task choice
        { shared := (task.perform manager failed effect effects next).1,
          task := (task.perform manager failed effect effects next).2
          spawned := [], effects := [] }
  | timeout (choice : Choice) (lock : Lock) (here : task.point = .timing)
    (expired : (manager.locks .wake).timeout = some lock) :
      Moves manager index task choice
        { shared := { manager with locks := Function.update manager.locks .wake lock },
          task := { task with point := .returned }
          spawned := [], effects := [] }

variable {manager : Manager} {index : Nat} {task : Task} {choice : Choice}
  {turn : Turn Manager Task Took}

theorem moves_of_turnStarter (turned : task.turnStarter manager kind = some turn) :
    Moves manager index task choice turn := by
  unfold Task.turnStarter at turned
  split at turned
  · rename_i here
    split at turned
    · rename_i unknown
      cases turned
      exact .register choice _ here (Option.isNone_iff_eq_none.mp unknown) (by split <;> simp)
    · cases turned
  · rename_i here
    cases turned
    exact .connect choice here
  · rename_i here
    cases turned
    exact .launch choice kind _ here (by split <;> simp)
  · rename_i here
    cases turned
    exact .assign choice here
  · cases turned

theorem moves_of_turnWorker (works : task.role = .worker kind)
    (known : manager.transfers task.id = some state)
    (turned : task.turnWorker manager index kind state choice = some turn) :
    Moves manager index task choice turn := by
  have move (next : Point) (decided : Decides kind state task.point choice next)
    (gone : task.goOn manager next = some turn) :
      Moves manager index task choice turn := by
    cases gone
    exact .decide choice next kind state works known decided
  unfold Task.turnWorker at turned
  split at turned
  · rename_i here
    split at turned
    · cases turned
    · rename_i runs
      cases turned
      exact .dispatch state here known (by simpa using runs)
  · rename_i here
    split at turned
    · cases turned
    · exact move _ (here ▸ .begun) turned
  · rename_i here
    split at turned
    · cases turned
    · exact move _ (here ▸ .refused) turned
  · rename_i here
    exact move _ (here ▸ .refusedThrown) turned
  · rename_i attempt here
    exact move _ (here ▸ .completed attempt) turned
  · rename_i attempt here
    split at turned
    · rename_i downloads
      split at turned
      · rename_i last
        exact move _ (here ▸ .exhausted attempt downloads last) turned
      · exact move _ (here ▸ .retried attempt) turned
    · exact move _ (here ▸ .failed attempt) turned
  · rename_i attempt here
    exact move _ (here ▸ .thrown attempt) turned
  · rename_i here
    exact move _ (here ▸ .notified) turned
  · rename_i here
    exact move _ (here ▸ .notifiedThrown) turned
  · cases turned

theorem moves_of_turnCanceller (turned : task.turnCanceller manager index = some turn) :
    Moves manager index task choice turn := by
  unfold Task.turnCanceller at turned
  split at turned
  · rename_i here
    split at turned
    · rename_i found
      obtain ⟨state, known, active⟩ := (Option.any_eq_true _ _).mp found
      cases turned
      exact .find choice state here known active
    · rename_i gone
      cases turned
      exact .miss choice here (by simpa using gone)
  · cases turned

theorem moves_of_turnTimer (turned : task.turnTimer manager = some turn) :
    Moves manager index task choice turn := by
  unfold Task.turnTimer at turned
  split at turned
  · rename_i here
    obtain ⟨lock, expired, went⟩ := Option.bind_eq_some_iff.mp turned
    cases went
    exact .timeout choice lock here expired
  · cases turned

theorem moves_of_turn (turned : task.turn manager index choice = some turn) :
    Moves manager index task choice turn := by
  unfold Task.turn at turned
  split at turned
  · rename_i effect effects next here
    simp only at turned
    split at turned
    · cases turned
    · cases turned
      exact .perform choice _ effect effects next here
  · split at turned
    · exact moves_of_turnStarter turned
    · rename_i works
      obtain ⟨_, known, turned⟩ := Option.bind_eq_some_iff.mp turned
      exact moves_of_turnWorker works known turned
    · exact moves_of_turnCanceller turned
    · exact moves_of_turnTimer turned

end DistributedOs.Android
