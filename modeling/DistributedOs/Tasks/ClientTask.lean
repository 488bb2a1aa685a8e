import DistributedOs.Protocol.Connection
import DistributedOs.Tasks.File

/-! The file task of the command line: one request on a connection, and then the first result that
the connection delivers. -/

namespace DistributedOs.Tasks

open Discovery (Uuid)
open DistributedOs.Protocol
open DistributedOs.Protocol.Wire (WsConnection SerdeJson NetworkError Frame)

structure ClientFileTask where
  target : NodeId
  cliId : NodeId
  op : String
  path : String
  content : Option String
  compressed : Bool
  conn : WsConnection

/-- `task_request`; its id is a random one. -/
def taskRequest (taskId : TaskId) (sender : NodeId) (target : Option NodeId) (kind : String)
    (payload : Json) : TaskRequest :=
  { taskId, sender, target, kind, payload }

def networkErrorText : NetworkError → String
  | .serialisation error => "serialisation error: " ++ error
  | .deserialisation error => "deserialisation error: " ++ error
  | .webSocket error => "websocket error: " ++ error

section
variable (json : SerdeJson)

theorem recvFrom_shorter
    (received : WsConnection.recvFrom json connected sink stream = (.ok (some message), later)) :
    later.stream.length < stream.length := by
  induction stream with
  | nil => cases received
  | cons frame _ ih =>
    rw [List.length_cons]
    cases frame with
    | text content =>
      cases parsed : json.fromStr content with
      | error =>
        rw [WsConnection.recvFrom, parsed] at received
        cases received
      | ok =>
        rw [WsConnection.recvFrom, parsed] at received
        cases received
        exact Nat.lt_succ_self _
    | close => cases received
    | failure => cases received
    | binary => exact Nat.lt_succ_of_lt (ih received)
    | ping => exact Nat.lt_succ_of_lt (ih received)
    | pong => exact Nat.lt_succ_of_lt (ih received)

/-- `while let Ok(Some(msg)) = self.conn.recv().await`. -/
def awaitResult (conn : WsConnection) : Except TaskError TaskResult :=
  match _ : conn.recv json with
  | (.ok (some message), later) =>
    match message with
    | .taskResult res => .ok res
    | .error code message => .error (.executionFailed (code ++ ": " ++ message))
    | _ => awaitResult later
  | _ => .error (.executionFailed "Connection closed")
termination_by conn.stream.length
decreasing_by exact recvFrom_shorter json ‹_›

namespace ClientFileTask

def request (task : ClientFileTask) (taskId : TaskId) : TaskRequest :=
  taskRequest taskId task.cliId (some task.target) "file_transfer"
    (clientPayload task.op task.path task.content task.compressed)

def send (task : ClientFileTask) (messageId : Uuid) (taken : Except String Unit) (taskId : TaskId) :
    Except NetworkError Unit × WsConnection :=
  task.conn.send json messageId taken (.taskRequest (task.request taskId))

def consumed (task : ClientFileTask) (messageId : Uuid) (taken : Except String Unit)
    (taskId : TaskId) :
    Except TaskError TaskResult :=
  match task.send json messageId taken taskId with
  | (.error error, _) => .error (.executionFailed (networkErrorText error))
  | (.ok (), conn) => awaitResult json conn

/-- `execute`; the output has the result's value alone. -/
def execute (task : ClientFileTask) (messageId : Uuid) (taken : Except String Unit)
    (taskId : TaskId) :
    Except TaskError Json :=
  (task.consumed json messageId taken taskId).map TaskResult.result

/-- What is consumed answers the request that was sent. -/
def Correlated (task : ClientFileTask) (messageId : Uuid) (taken : Except String Unit)
    (taskId : TaskId) : Prop :=
  ∀ res, task.consumed json messageId taken taskId = .ok res → res.taskId = taskId

end ClientFileTask

/-- The messages that come before the connection is closed or fails. -/
def delivered : List Frame → List Wire.Message
  | .text content :: frames =>
    match json.fromStr content with
    | .ok envelope => envelope.message :: delivered frames
    | .error _ => []
  | .close :: _ => []
  | .failure _ :: _ => []
  | [] => []
  | _ :: frames => delivered frames

end

def endsWait : Wire.Message → Prop
  | .taskResult _ => True
  | .error _ _ => True
  | _ => False

def firstResult : List Wire.Message → Except TaskError TaskResult
  | .taskResult res :: _ => .ok res
  | .error code message :: _ => .error (.executionFailed (code ++ ": " ++ message))
  | _ :: messages => firstResult messages
  | [] => .error (.executionFailed "Connection closed")

variable {json : SerdeJson}

theorem awaitResult_unfold (conn : WsConnection) :
    awaitResult json conn =
      match conn.recv json with
      | (.ok (some (.taskResult res)), _) => .ok res
      | (.ok (some (.error code message)), _) => .error (.executionFailed (code ++ ": " ++ message))
      | (.ok (some _), later) => awaitResult json later
      | _ => .error (.executionFailed "Connection closed") := by
  rw [awaitResult]
  split
  · next message later received =>
    cases message <;> simp only [received]
  · next none_left =>
    cases received : conn.recv json with
    | mk outcome later =>
      cases outcome with
      | error => rfl
      | ok message =>
        cases message with
        | none => rfl
        | some message => exact absurd received (none_left message later)

theorem awaitResult_eq (conn : WsConnection) :
    awaitResult json conn = firstResult (delivered json conn.stream) := by
  obtain ⟨_, stream, _⟩ := conn
  induction stream with
  | nil => exact awaitResult_unfold _
  | cons frame _ ih =>
    rw [awaitResult_unfold] at ih ⊢
    cases frame with
    | text content =>
      rw [WsConnection.recv, WsConnection.recvFrom, delivered]
      cases parsed : json.fromStr content with
      | error => rfl
      | ok envelope =>
        rw [← awaitResult_unfold] at ih
        dsimp only
        cases envelope.message <;> first | exact ih | rfl
    | close => rfl
    | failure => rfl
    | binary => exact ih
    | ping => exact ih
    | pong => exact ih

theorem firstResult_ok_iff (messages : List Wire.Message) (res : TaskResult) :
    firstResult messages = .ok res ↔
      ∃ before after, messages = before ++ .taskResult res :: after ∧
      ∀ message ∈ before, ¬ endsWait message := by
  induction messages with
  | nil => simp [firstResult]
  | cons message messages ih =>
    by_cases ends : endsWait message
    · have first : ∀ {before after}, message :: messages = before ++ .taskResult res :: after →
          (∀ message ∈ before, ¬ endsWait message) → message = .taskResult res := by
        intro before after arrived earlier
        cases before with
        | nil => exact (List.cons.inj arrived).1
        | cons =>
          exact absurd ends (earlier message ((List.cons.inj arrived).1 ▸ List.mem_cons_self))
      constructor
      · intro same
        cases message with
        | taskResult =>
          cases same
          exact ⟨[], messages, rfl, List.forall_mem_nil _⟩
        | error => cases same
        | _ => exact absurd ends id
      · rintro ⟨before, after, arrived, earlier⟩
        rw [first arrived earlier]
        rfl
    · have skipped : firstResult (message :: messages) = firstResult messages := by
        cases message <;> first | rfl | exact absurd trivial ends
      rw [skipped, ih]
      constructor
      · rintro ⟨before, after, rfl, earlier⟩
        exact ⟨message :: before, after, rfl, List.forall_mem_cons.mpr ⟨ends, earlier⟩⟩
      · rintro ⟨before, after, arrived, earlier⟩
        cases before with
        | nil =>
          cases arrived
          exact absurd trivial ends
        | cons _ before =>
          cases arrived
          exact ⟨before, after, rfl, fun message mem => earlier message (List.mem_cons_of_mem _ mem)⟩

theorem stream_send (task : ClientFileTask) (messageId : Uuid) (taken : Except String Unit)
    (taskId : TaskId) :
    (task.send json messageId taken taskId).2.stream = task.conn.stream := by
  unfold ClientFileTask.send WsConnection.send
  split
  · rfl
  · cases taken <;> rfl

/-- The task ends at the first result, whichever task it is of; so it gives back its own exactly
when the first one is. -/
theorem correlated_iff (task : ClientFileTask) (messageId : Uuid) (taken : Except String Unit)
    (taskId : TaskId) :
    task.Correlated json messageId taken taskId ↔
      ((task.send json messageId taken taskId).1 = .ok () →
        ∀ before res after, delivered json task.conn.stream = before ++ .taskResult res :: after →
          (∀ message ∈ before, ¬ endsWait message) → res.taskId = taskId) := by
  unfold ClientFileTask.Correlated ClientFileTask.consumed
  have same : (task.send json messageId taken taskId).2.stream = _ :=
    stream_send task messageId taken taskId
  rcases sent : task.send json messageId taken taskId with ⟨_ | _, _⟩
  · exact ⟨nofun, nofun⟩
  · simp only [sent] at same
    simp only [awaitResult_eq, same, firstResult_ok_iff, forall_const]
    constructor
    · intro own before res after arrived earlier
      exact own res ⟨before, after, arrived, earlier⟩
    · rintro own res ⟨before, after, arrived, earlier⟩
      exact own before res after arrived earlier

/-- The result of an earlier request comes late: it is taken for the result of this one, and its
value is given back. -/
theorem not_correlated_late_result :
    ∃ (json : SerdeJson) (task : ClientFileTask) (late : TaskResult),
      task.execute json .nil (.ok ()) .nil = .ok late.result ∧ late.taskId ≠ .nil ∧
        ¬ task.Correlated json .nil (.ok ()) .nil := by
  let earlier : Uuid := ⟨List.replicate 16 1, by decide⟩
  let late : TaskResult :=
    { taskId := earlier, sender := .nil, target := none, status := .completed, result := .object [],
      error := none, completedAt := 0 }
  let frames := [Frame.text (Wire.sampleText (.new .nil (.taskResult late)))]
  let task : ClientFileTask :=
    { target := .nil, cliId := .nil, op := "read", path := "notes", content := none, compressed := false
      conn := { sink := [], stream := frames, connected := true } }
  have other : late.taskId ≠ .nil := by decide
  have consumed : task.consumed Wire.sampleJson .nil (.ok ()) .nil = .ok late := by
    have first : (task.send Wire.sampleJson .nil (.ok ()) .nil).2.stream = frames :=
      stream_send task .nil (.ok ()) .nil
    have arrived : delivered Wire.sampleJson frames = [.taskResult late] := by
      simp only [frames, delivered, Wire.fromStr_sampleText]
      rfl
    change awaitResult Wire.sampleJson (task.send Wire.sampleJson .nil (.ok ()) .nil).2 = _
    rw [awaitResult_eq, first, arrived]
    rfl
  refine ⟨Wire.sampleJson, task, late, ?_, other, fun own => other (own late consumed)⟩
  rw [ClientFileTask.execute, consumed]
  rfl

end DistributedOs.Tasks
