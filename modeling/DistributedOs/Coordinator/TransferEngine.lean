import DistributedOs.Coordinator.System

/-! The `TransferEngine` methods of the coordinator, next to its procedures: `pause`, `resume`,
`cancel` and `status` of a transfer, and the runs that `StreamEngine` keeps under ids of its
own. A method takes its turns like a procedure; `pause` and `resume` hold the lock of
`states` to their end, and whoever wants the engine waits while a run holds it. -/

namespace DistributedOs.Coordinator

open Semantics DistributedOs.Session DistributedOs.Transfer

/-- What `StreamEngine` keeps of a run, and what `resume` returns. -/
structure TransferHandle where
  state : TransferStatus
  progress : TransferProgress
  deriving DecidableEq

inductive EngineReply where
  | done
  | handle (id : String) (handle : TransferHandle)
  | progress (progress : TransferProgress)

inductive EngineMethod where
  | pauseStates (id : String)
  | pauseModel (id : String)
  | resumeStates (id : String)
  | resumeModel (id : String)
  | cancelToken (id reason : String)
  | cancelEngine (id reason : String)
  | cancelStates (id reason : String)
  | cancelModel (id reason : String)
  | cancelEvent (id reason : String)
  | status (id : String)
  | returned (id : String) (result : Except TransferError EngineReply)

inductive EngineCall where
  | pause (id : String)
  | resume (id : String)
  | cancel (id reason : String)
  | status (id : String)

def EngineCall.start : EngineCall → EngineMethod
  | .pause id => .pauseStates id
  | .resume id => .resumeStates id
  | .cancel id reason => .cancelToken id reason
  | .status id => .status id

/-- `current` is the run that holds the engine. `executed` lists, newest first, which task the
engine ran under which id, and `cancelled` the ids that a `cancel` has marked: histories
that no method reads. -/
structure EngineState where
  pool : TransferCoordinator
  active : AList fun _ : String => TransferHandle
  current : Option String
  methods : List EngineMethod
  statesHeld : Option Nat
  events : List TransferEvent
  executed : List (Nat × String)
  cancelled : List String

/-- Every choice of the environment; `begin` gives a run the id that `StreamEngine` draws for
it and the sizes it finds on the disk, `sent` is the end of one of its sources. -/
inductive EngineLabel where
  | call (call : EngineCall)
  | method (index : Nat)
  | pool (label : Label)
  | begin (index : Nat) (uuid : String) (total : UInt64) (filesTotal : Nat)
  | sent (bytesSent : UInt64)

def Task.uploading : Task → Bool
  | .uploadFiles (.engine _ _ _ .uploading) => true
  | .engineStart (.uploading _) => true
  | .startTransfer (.engine _ .uploading) => true
  | _ => false

namespace EngineState

def new (deviceId deviceName : String) : EngineState :=
  { pool := .new deviceId deviceName, active := ∅, current := none, methods := [],
    statesHeld := none, events := [],
    executed := [], cancelled := [] }

def access (state : EngineState) : Label → Option Access
  | .call _ => none
  | .run index choice => state.pool.tasks[index]?.map (Task.access · choice)

/-- `states` is locked, or the turn is one that `begin` has to take. -/
def blocked (state : EngineState) (label : Label) : Bool :=
  match state.access label with
  | some (.insertStatus ..) => state.statesHeld.isSome
  | some (.beginUpload ..) => true
  | _ => false

def modifyCurrent (state : EngineState) (change : TransferHandle → TransferHandle) :
    AList fun _ : String => TransferHandle :=
  match state.current with
  | none => state.active
  | some uuid =>
    match state.active.lookup uuid with
    | none => state.active
    | some handle => state.active.insert uuid (change handle)

def addSent (bytesSent : UInt64) (handle : TransferHandle) : TransferHandle :=
  { handle with progress := { handle.progress with bytesSent } }

def finished (state : EngineState) : Label → AList fun _ : String => TransferHandle
  | .run index (.uploaded progress) =>
    if state.pool.tasks[index]?.any Task.uploading then
      state.modifyCurrent fun handle => { addSent progress.bytesSent handle with state := .completed }
    else state.active
  | .run index (.failure error) =>
    if state.pool.tasks[index]?.any Task.uploading then
      state.modifyCurrent fun handle => { handle with state := .failed error }
    else state.active
  | _ => state.active

def opening (total : UInt64) (filesTotal : Nat) : TransferHandle :=
  { state := .running,
    progress := { bytesSent := 0, bytesTotal := total, filesCompleted := 0, filesTotal } }

def write (state : EngineState) (self : Nat) (access : Access) : Option EngineState :=
  (state.pool.shared.perform self access).map fun (_, shared, _) =>
  { state with pool := { state.pool with shared } }

def lookupStatus (state : EngineState) (id : String) : Except TransferError EngineReply :=
  match state.active.lookup id with
  | some handle => .ok (.progress handle.progress)
  | none => .error (.fromAnyhow ("Transfer not found: " ++ id))

/-- One turn of a method; none when it has to wait for a lock, or is over. -/
def turn (state : EngineState) (self : Nat) : EngineMethod → Option (EngineState × EngineMethod)
  | .pauseStates id =>
    if state.statesHeld.isSome then none
    else if state.pool.shared.states.lookup id = some .running then
      (state.write self (.insertStatus id .paused)).map fun state =>
      ({ state with statesHeld := some self }, .pauseModel id)
    else some (state, .returned id (.error (.internal "transfer not active")))
  | .pauseModel id =>
    (state.write self (.setModelStatus id .paused)).map fun state =>
      ({ state with statesHeld := none }, .returned id (.ok .done))
  | .resumeStates id =>
    if state.statesHeld.isSome then none
    else match state.pool.shared.states.lookup id with
      | some .paused | some (.failed _) =>
        (state.write self (.insertStatus id .running)).map fun state =>
          ({ state with statesHeld := some self }, .resumeModel id)
      | _ => some (state, .returned id (.error (.internal "transfer cannot be resumed")))
  | .resumeModel id =>
    (state.write self (.setModelStatus id .running)).map fun state =>
      ({ state with statesHeld := none },
        .returned id (.ok (.handle id { state := .running, progress := .default })))
  | .cancelToken id reason =>
    (state.write self (.cancelToken id reason)).map fun state => (state, .cancelEngine id reason)
  | .cancelEngine id reason =>
    if state.pool.shared.engineHeld.isSome then none
    else some ({ state with active := state.active.erase id }, .cancelStates id reason)
  | .cancelStates id reason =>
    if state.statesHeld.isSome then none
    else (state.write self (.insertStatus id (.failed ("cancelled: " ++ reason)))).map fun state =>
      ({ state with cancelled := id :: state.cancelled }, .cancelModel id reason)
  | .cancelModel id reason =>
    (state.write self (.setModelStatus id (.failed ("cancelled: " ++ reason)))).map fun state =>
      (state, .cancelEvent id reason)
  | .cancelEvent id reason =>
    some ({ state with
      events := if state.pool.shared.eventChannels id then .cancelled id reason :: state.events
        else state.events },
      .returned id (.ok .done))
  | .status id =>
    if state.pool.shared.engineHeld.isSome then none
    else some (state, .returned id (state.lookupStatus id))
  | .returned .. => none

def step (state : EngineState) : EngineLabel → Option EngineState
  | .call call => some { state with methods := state.methods ++ [call.start] }
  | .method index =>
    state.methods[index]?.bind fun method =>
      (state.turn index method).map fun (after, next) =>
      { after with methods := after.methods.set index next }
  | .pool label =>
    if state.blocked label then none
    else (Coordinator.step state.pool label).map fun pool =>
    { state with pool, active := state.finished label }
  | .begin index uuid total filesTotal =>
    match state.access (.run index .proceed) with
    | some (.beginUpload ..) =>
      (Coordinator.step state.pool (.run index .proceed)).map fun pool =>
        { state with
          pool, active := state.active.insert uuid (opening total filesTotal), current := some uuid
          executed := (index, uuid) :: state.executed }
    | _ => none
  | .sent bytesSent =>
    if state.pool.tasks.any Task.uploading then
      some { state with active := state.modifyCurrent (addSent bytesSent) }
    else none

variable {state after : EngineState} {label : EngineLabel}

/-- Every step is a new method, a turn of one, a step of the pool, the beginning of an upload,
or the end of one of its sources. -/
theorem step_cases (taken : state.step label = some after) :
    (∃ call, label = .call call ∧ after = { state with methods := state.methods ++ [call.start] }) ∨
      (∃ index method turned next, label = .method index ∧ state.methods[index]? = some method ∧
        state.turn index method = some (turned, next) ∧
        after = { turned with methods := turned.methods.set index next }) ∨
      (∃ inner pool, label = .pool inner ∧ state.blocked inner = false ∧
        Coordinator.step state.pool inner = some pool ∧
        after = { state with pool, active := state.finished inner }) ∨
      (∃ index uuid total filesTotal sessionId fileId resumeOffset pool,
        label = .begin index uuid total filesTotal ∧
        state.access (.run index .proceed) = some (.beginUpload sessionId fileId resumeOffset) ∧
        Coordinator.step state.pool (.run index .proceed) = some pool ∧
        after = { state with
          pool, active := state.active.insert uuid (opening total filesTotal), current := some uuid
          executed := (index, uuid) :: state.executed }) ∨
      ∃ bytesSent, label = .sent bytesSent ∧
      after = { state with active := state.modifyCurrent (addSent bytesSent) } := by
  cases label with
  | call call => exact .inl ⟨call, rfl, (Option.some.inj taken).symm⟩
  | method index =>
    obtain ⟨method, present, rest⟩ := Option.bind_eq_some_iff.mp taken
    obtain ⟨⟨turned, next⟩, took, ended⟩ := Option.map_eq_some_iff.mp rest
    exact .inr (.inl ⟨index, method, turned, next, rfl, present, took, ended.symm⟩)
  | pool inner =>
    simp only [step] at taken
    split at taken
    · cases taken
    · rename_i free
      obtain ⟨pool, stepped, ended⟩ := Option.map_eq_some_iff.mp taken
      exact .inr (.inr (.inl ⟨inner, pool, rfl, by simpa using free, stepped, ended.symm⟩))
  | begin index uuid total filesTotal =>
    simp only [step] at taken
    split at taken
    · rename_i sessionId fileId resumeOffset begins
      obtain ⟨pool, stepped, ended⟩ := Option.map_eq_some_iff.mp taken
      exact .inr (.inr (.inr (.inl
        ⟨index, uuid, total, filesTotal, sessionId, fileId, resumeOffset, pool, rfl, begins,
          stepped, ended.symm⟩)))
    · cases taken
  | sent bytesSent =>
    simp only [step] at taken
    split at taken
    · exact .inr (.inr (.inr (.inr ⟨bytesSent, rfl, (Option.some.inj taken).symm⟩)))
    · cases taken

theorem write_spec {access : Access} (written : state.write self access = some after) :
    ∃ reply shared effects, state.pool.shared.perform self access = some (reply, shared, effects) ∧
      after = { state with pool := { state.pool with shared } } := by
  obtain ⟨⟨reply, shared, effects⟩, performed, ended⟩ := Option.map_eq_some_iff.mp written
  exact ⟨reply, shared, effects, performed, ended.symm⟩

end EngineState

/-- `start_transfer` has begun its upload, under this id of the engine. -/
def sending (uuid : String) : List EngineLabel :=
  ([.pool (.call (.startTransfer sent))] : List EngineLabel) ++
    (turns 0 (List.replicate 6 Choice.proceed ++ [Choice.capabilities "{}"] ++
      List.replicate 6 Choice.proceed)).map EngineLabel.pool ++
    ([.begin 0 uuid 5 1] : List EngineLabel)

end DistributedOs.Coordinator
