import DistributedOs.Semantics.TaskPool
import DistributedOs.Coordinator.Procedures

/-! The coordinator as a pool of tasks over the maps and locks its procedures share. -/

namespace DistributedOs.Coordinator

open Semantics DistributedOs.Session DistributedOs.Transfer

inductive Task where
  | startSession (point : StartSession)
  | uploadFiles (point : UploadFiles)
  | incomingSession (point : IncomingSession)
  | respondSession (point : RespondSession)
  | cancelSession (point : CancelSession)
  | sessionEventStream (point : SessionEventStream)
  | engineStart (point : EngineStart)
  | startTransfer (point : StartTransfer)

namespace Task

def access : Task → Choice → Access
  | .startSession point, choice => point.access choice
  | .uploadFiles point, choice => point.access choice
  | .incomingSession point, choice => point.access choice
  | .respondSession point, choice => point.access choice
  | .cancelSession point, choice => point.access choice
  | .sessionEventStream point, choice => point.access choice
  | .engineStart point, choice => point.access choice
  | .startTransfer point, choice => point.access choice

def resume : Task → Reply → Choice → Option Task
  | .startSession point, reply, choice => (point.resume reply choice).map .startSession
  | .uploadFiles point, reply, choice => (point.resume reply choice).map .uploadFiles
  | .incomingSession point, reply, choice => (point.resume reply choice).map .incomingSession
  | .respondSession point, reply, choice => (point.resume reply choice).map .respondSession
  | .cancelSession point, reply, choice => (point.resume reply choice).map .cancelSession
  | .sessionEventStream point, reply, choice => (point.resume reply choice).map .sessionEventStream
  | .engineStart point, reply, choice => (point.resume reply choice).map .engineStart
  | .startTransfer point, reply, choice => (point.resume reply choice).map .startTransfer

def spawned : Task → List Task
  | .startSession (.spawn offer accept) => [.uploadFiles (.register (StartSession.upload offer accept))]
  | _ => []

def isReturned : Task → Bool
  | .startSession (.returned ..) => true
  | .uploadFiles (.returned ..) => true
  | .incomingSession (.returned ..) => true
  | .respondSession (.returned ..) => true
  | .cancelSession (.returned ..) => true
  | .sessionEventStream (.returned ..) => true
  | .engineStart (.returned ..) => true
  | .startTransfer (.returned ..) => true
  | _ => false

end Task

/-- What a turn does that others can observe or that the properties speak about. -/
inductive Effect where
  | session (caller : Nat) (op : SessionOp) (admitted : Bool)
  | emitted (caller : Nat) (event : SessionEvent)
  | emittedTransfer (caller : Nat) (event : TransferEvent)
  | decided (caller connection : Nat) (decision : Decision)
  | dropped (caller connection : Nat)
  | timedOut (connection : Nat)
  | wrote (caller : Nat) (message : SessionMessage)
  | uploadBegun (caller : Nat) (sessionId fileId : String) (resumeOffset : Option UInt64)
  | returned (caller : Nat) (task : Task)

/-- `tokens` holds the reason a token was cancelled with; a token, and a responder's
channel, is named by the task that made it. -/
structure Shared where
  sessions : SessionManager
  responders : AList fun _ : String => Nat
  respondersHeld : Option Nat
  oneshots : Nat → Oneshot
  cancelTokens : AList fun _ : String => Nat
  tokens : Nat → Option String
  engineHeld : Option Nat
  sessionEventChannels : String → Bool
  eventChannels : String → Bool
  states : AList fun _ : String => TransferStatus
  transfers : AList fun _ : String => TransferModel
  deviceId : String
  deviceName : String

def SessionOp.admitted (manager : SessionManager) : SessionOp → Bool
  | .updateState id state error => (manager.updateState id state error).1
  | _ => true

def SessionOp.reply (manager : SessionManager) (op : SessionOp) : Reply :=
  match op with
  | .updateState .. => .updated (SessionOp.admitted manager op)
  | _ => .done

namespace Shared

/-- Dropping the sender left in the map closes the channel of its receiver. -/
def dropResponder (shared : Shared) (id : String) : Nat → Oneshot :=
  match shared.responders.lookup id with
  | some connection => Function.update shared.oneshots connection .dropped
  | none => shared.oneshots

def dropEffects (shared : Shared) (self : Nat) (id : String) : List Effect :=
  match shared.responders.lookup id with
  | some connection => [.dropped self connection]
  | none => []

/-- One access by task `self`; none when it has to wait for a lock. -/
def perform (shared : Shared) (self : Nat) : Access → Option (Reply × Shared × List Effect)
  | .idle => some (.done, shared, [])
  | .session op =>
    some (SessionOp.reply shared.sessions op, { shared with sessions := op.apply shared.sessions },
      [.session self op (SessionOp.admitted shared.sessions op)])
  | .openSessionChannel id =>
    some (.done, { shared with sessionEventChannels := Function.update shared.sessionEventChannels id true }, [])
  | .emit event =>
    some (.done, shared, if shared.sessionEventChannels event.sessionId then [.emitted self event]
      else [])
  | .openEventChannel id =>
    some (.done, { shared with eventChannels := Function.update shared.eventChannels id true }, [])
  | .emitEvent event =>
    some (.done, shared, if shared.eventChannels event.transferId then [.emittedTransfer self event]
      else [])
  | .insertResponder id =>
    if shared.respondersHeld.isSome then none
    else some (.done, { shared with
      responders := shared.responders.insert id self, oneshots := shared.dropResponder id },
        shared.dropEffects self id)
  | .removeResponder id =>
    if shared.respondersHeld.isSome then none
    else some (.done, { shared with
      responders := shared.responders.erase id, oneshots := shared.dropResponder id },
        shared.dropEffects self id)
  | .takeResponder id =>
    if shared.respondersHeld.isSome then none
    else some (.responder (shared.responders.lookup id), { shared with
      responders := shared.responders.erase id, respondersHeld := some self }, [])
  | .unlockResponders => some (.done, { shared with respondersHeld := none }, [])
  | .readIdentity => some (.identity shared.deviceId shared.deviceName, shared, [])
  | .send connection decision =>
    some (.done, { shared with oneshots := Function.update shared.oneshots connection (.sent decision) },
      [.decided self connection decision])
  | .receive => some (.decision (shared.oneshots self), shared, [])
  | .expire => some (.done, shared, [.timedOut self])
  | .write message => some (.done, shared, [.wrote self message])
  | .insertToken id =>
    some (.done, { shared with cancelTokens := shared.cancelTokens.insert id self }, [])
  | .removeToken id => some (.done, { shared with cancelTokens := shared.cancelTokens.erase id }, [])
  | .cancelToken id reason =>
    some (.done, { shared with tokens := match shared.cancelTokens.lookup id with
      | some token => Function.update shared.tokens token (some reason)
      | none => shared.tokens }, [])
  | .readToken => some (.token (shared.tokens self), shared, [])
  | .lockEngine =>
    if shared.engineHeld.isSome then none else some (.done, { shared with engineHeld := some self }, [])
  | .unlockEngine => some (.done, { shared with engineHeld := none }, [])
  | .beginUpload sessionId fileId resumeOffset =>
    some (.done, shared, [.uploadBegun self sessionId fileId resumeOffset])
  | .insertStatus id status => some (.done, { shared with states := shared.states.insert id status }, [])
  | .insertModel model =>
    some (.done, { shared with transfers := shared.transfers.insert model.id model }, [])
  | .setModelStatus id status =>
    some (.done, { shared with transfers := match shared.transfers.lookup id with
      | some model => shared.transfers.insert id { model with status }
      | none => shared.transfers }, [])

end Shared

inductive Call where
  | startSession (sessionId peerId : String) (files : List FileMeta)
  | connection
  | acceptSession (sessionId : String) (request : Nat)
  | rejectSession (sessionId : String) (request : Nat) (reason : String)
  | cancelSession (sessionId reason : String)
  | sessionEventStream (sessionId : String)
  | engineStart (sessionId peerId : String) (direction : TransferDirection)
  | startTransfer (transfer : Transfer)

def Call.start : Call → Task
  | .startSession sessionId peerId files => .startSession (.findPeer sessionId peerId files)
  | .connection => .incomingSession .read
  | .acceptSession sessionId request => .respondSession (Coordinator.acceptSession sessionId request)
  | .rejectSession sessionId request reason =>
    .respondSession (Coordinator.rejectSession sessionId request reason)
  | .cancelSession sessionId reason => .cancelSession (.cancel sessionId reason)
  | .sessionEventStream sessionId => .sessionEventStream (.openChannel sessionId)
  | .engineStart sessionId peerId direction => .engineStart (.create sessionId peerId direction)
  | .startTransfer transfer => .startTransfer (.insertToken transfer)

def Task.returnEffects (self : Nat) (task : Task) : List Effect :=
  if task.isReturned then [.returned self task] else []

def turn (shared : Shared) (self : Nat) (task : Task)
    (choice : Choice) : Option (Turn Shared Task Effect) :=
  (shared.perform self (task.access choice)).bind fun (reply, shared, effects) =>
    (task.resume reply choice).map fun next =>
      { shared, task := next, spawned := task.spawned, effects := next.returnEffects self ++ effects }

def behaviour : Behaviour Shared Task Effect Call Choice := { start := Call.start, turn }

abbrev TransferCoordinator := Pool Shared Task Effect

abbrev Label := PoolLabel Call Choice

def step : TransferCoordinator → Label → Option TransferCoordinator := Pool.step behaviour

def Shared.new (deviceId deviceName : String) : Shared :=
  { sessions := .new 100, responders := ∅, respondersHeld := none, oneshots := fun _ => .pending,
    cancelTokens := ∅, tokens := fun _ => none, engineHeld := none,
      sessionEventChannels := fun _ => false,
    eventChannels := fun _ => false, states := ∅, transfers := ∅, deviceId, deviceName }

def TransferCoordinator.new (deviceId deviceName : String) : TransferCoordinator :=
  { shared := .new deviceId deviceName, tasks := [], trace := [] }

variable {pool : TransferCoordinator} {label : Label}

/-- One turn of the task with this number: the access it made and where it went. -/
structure Ran (pool : TransferCoordinator) (index : Nat) (choice : Choice) where
  task : Task
  reply : Reply
  shared : Shared
  effects : List Effect
  moved : Task
  present : pool.tasks[index]? = some task
  performed : pool.shared.perform index (task.access choice) = some (reply, shared, effects)
  resumed : task.resume reply choice = some moved

namespace Ran

variable {index : Nat} {choice : Choice}

def after (ran : Ran pool index choice) : TransferCoordinator :=
  { shared := ran.shared, tasks := pool.tasks.set index ran.moved ++ ran.task.spawned,
    trace := ran.moved.returnEffects index ++ (ran.effects ++ pool.trace) }

def access (ran : Ran pool index choice) : Access := ran.task.access choice

end Ran

theorem step_cases (taken : step pool label = some final) :
    (∃ call, label = .call call ∧ final = { pool with tasks := pool.tasks ++ [call.start] }) ∨
      ∃ index choice, label = .run index choice ∧
        ∃ ran : Ran pool index choice, final = ran.after := by
  rcases Pool.step_cases taken with called | ⟨index, choice, task, _, rfl, present, turned, rfl⟩
  · exact .inl called
  · obtain ⟨⟨reply, shared, effects⟩, performed, rest⟩ := Option.bind_eq_some_iff.mp turned
    obtain ⟨moved, resumed, rfl⟩ := Option.map_eq_some_iff.mp rest
    refine .inr ⟨index, choice, rfl,
      ⟨task, reply, shared, effects, moved, present, performed, resumed⟩, ?_⟩
    simp [Ran.after]

def offered : FileMeta := .new "f" "notes.txt" 5

def incomingRequest : SessionRequestPayload :=
  { sessionId := "s", sourceDeviceId := "a", sourceDeviceName := "laptop", files := [offered],
    protocolVersion := "1.0.0" }

def acceptAll : SessionAcceptPayload :=
  { sessionId := "t", targetDeviceId := "b", targetDeviceName := "phone", acceptedFileIds := [],
    resumeOffsets := ∅ }

def sent : Transfer :=
  { sessionId := "t", peerAddr := "10.0.0.2:9000", source := "/home/notes.txt",
    fileName := "notes.txt", totalBytes := 5,
    resumeOffset := none }

def uploadProgress : TransferProgress :=
  { bytesSent := 5, bytesTotal := 5, filesCompleted := 1, filesTotal := 1 }

/-- A peer sends a request under the id "s", and the connection waits for the user. -/
def requested (connection : Nat) : List Label :=
  turns connection ([.message .request (.request incomingRequest)] ++ List.replicate 4 .proceed)

/-- `start_session` under the id "t", up to the reply of the peer. -/
def offering (task : Nat) : List Label :=
  turns task ([.peer (some { name := "phone", address := "10.0.0.2:9000" })] ++
    List.replicate 7 .proceed)

end DistributedOs.Coordinator
