import DistributedOs.Tasks.File

/-! The tasks of an agent, which a registry makes of requests. The platform is what its
providers answer. -/

namespace DistributedOs.Tasks

open DistributedOs.Protocol Semantics

inductive ClipboardAction where
  | get
  | set (content : String)
  deriving DecidableEq

inductive Task where
  | ping (id : TaskId)
  | clipboard (id : TaskId) (action : ClipboardAction)
  | notifications (request : TaskRequest)
  | terminal (request : TaskRequest)
  | fileTransfer (request : TaskRequest)

def Task.id : Task → TaskId
  | .ping id => id
  | .clipboard id _ => id
  | .notifications request | .terminal request | .fileTransfer request => request.taskId

structure Providers where
  getText : Except String String
  setText : String → Except String Unit
  notify : String → String → Except String Unit
  execute : String → List String → Except String String
  read : String → Except String Bytes
  write : String → Bytes → Except String Unit

/-- The answers of one moment, as the files they are about. -/
def Providers.files : FileProvider Providers where
  read := fun providers path => providers.read path
  write := fun providers path data => (providers.write path data, providers)

def asArray : Json → Option (List Json)
  | .array items => some items
  | _ => none

def success : Json := .object [("success", .bool true)]

section Tasks

variable (codecs : Codecs)

/-- The `execute` of each task. -/
def Task.execute (task : Task) (providers : Providers) : Except TaskError Json :=
  match task with
  | .ping _ => .ok success
  | .clipboard _ .get =>
    match providers.getText with
    | .ok text => .ok (.object [("content", .string text)])
    | .error error => .error (.executionFailed ("Failed to get clipboard text: " ++ error))
  | .clipboard _ (.set content) =>
    match providers.setText content with
    | .ok () => .ok success
    | .error error => .error (.executionFailed ("Failed to set clipboard text: " ++ error))
  | .notifications request =>
    let title := ((request.payload.get "title").bind Json.asStr).getD "PDOS Notification"
    let body := ((request.payload.get "body").bind Json.asStr).getD ""
    match providers.notify title body with
    | .ok () => .ok success
    | .error error => .error (.executionFailed ("Notification failed: " ++ error))
  | .terminal request =>
    match (request.payload.get "command").bind Json.asStr with
    | none => .error (.invalidRequest "Missing 'command' field")
    | some command =>
      let args := (((request.payload.get "args").bind asArray).map fun items =>
        items.filterMap Json.asStr).getD []
      match providers.execute command args with
      | .ok output => .ok (.object [("success", .bool true), ("output", .string output)])
      | .error error => .error (.executionFailed ("Terminal execution failed: " ++ error))
  | .fileTransfer request => (executeFile codecs Providers.files request.payload providers).1

variable (serdeError : Json → String)

/-- A tagged enumeration is read from an object, or from an array that starts with the tag. -/
def clipboardAction (payload : Json) : Except TaskError ClipboardAction :=
  let invalid := Except.error (.invalidRequest ("Invalid clipboard payload: " ++ serdeError payload))
  match payload with
  | .object _ =>
    match (payload.get "action").bind Json.asStr with
    | some "get" => .ok .get
    | some "set" =>
      match (payload.get "content").bind Json.asStr with
      | some content => .ok (.set content)
      | none => invalid
    | _ => invalid
  | .array [.string "get"] => .ok .get
  | .array [.string "set", .string content] => .ok (.set content)
  | _ => invalid

abbrev TaskFactory := TaskRequest → Except TaskError Task

abbrev TaskRegistry := List (String × TaskFactory)

def agentRegistry : TaskRegistry :=
  [("ping", fun request => .ok (.ping request.taskId)),
    ("clipboard", fun request => do
      let action ← clipboardAction serdeError request.payload
      .ok (.clipboard request.taskId action)),
    ("notifications", fun request => .ok (.notifications request)),
    ("terminal", fun request => .ok (.terminal request)),
    ("file_transfer", fun request => .ok (.fileTransfer request))]

end Tasks

def createTask (registry : TaskRegistry) (request : TaskRequest) : Except TaskError Task :=
  match registry.lookup request.kind with
  | some factory => factory request
  | none => .error (.executionFailed ("No task handler registered for kind: " ++ request.kind))

def KeepsIds (registry : TaskRegistry) : Prop :=
  ∀ request task, createTask registry request = .ok task → task.id = request.taskId

theorem mem_of_lookup {registry : TaskRegistry}
    (found : registry.lookup kind = some factory) : (kind, factory) ∈ registry := by
  obtain ⟨_, _, split, _⟩ := List.lookup_eq_some_iff.mp found
  simp [split]

theorem keepsIds_agentRegistry (serdeError : Json → String) :
    KeepsIds (agentRegistry serdeError) := by
  intro request _ created
  unfold createTask at created
  split at created
  · rename_i found
    have member := mem_of_lookup found
    simp only [agentRegistry, List.mem_cons, Prod.mk.injEq, List.not_mem_nil, or_false] at member
    rcases member with ⟨_, rfl⟩ | ⟨_, rfl⟩ | ⟨_, rfl⟩ | ⟨_, rfl⟩ | ⟨_, rfl⟩
    · cases created
      rfl
    · simp only at created
      cases read : clipboardAction serdeError request.payload with
      | error =>
        rw [read] at created
        cases created
      | ok =>
        rw [read] at created
        cases created
        rfl
    · cases created
      rfl
    · cases created
      rfl
    · cases created
      rfl
  · cases created

end DistributedOs.Tasks
