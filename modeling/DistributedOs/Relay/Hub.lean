import DistributedOs.Relay.Registry
import DistributedOs.Semantics.Execution

/-! The relay hub: connections that identify themselves as nodes and send messages, served side
by side. One step is one access to the registry with the send that goes with it. -/

namespace DistributedOs.Relay

open DistributedOs.Protocol Semantics
open Discovery (Uuid)

/-- A text frame as far as `serde_json::from_str` reads it; any other frame, an error or the
end of the stream is `other`. -/
inductive Frame where
  | text (parsed : Except String Envelope)
  | other

/-- A connection is `leaving` when its message loop has ended and its entry is not cleaned up. -/
inductive ConnectionPhase where
  | identifying
  | serving (nodeId : NodeId)
  | leaving (nodeId : NodeId)
  | closed
  deriving DecidableEq

/-- `outbox` is what its channel has carried; a channel whose write task has ended takes no more. -/
structure Connection where
  connectionId : Uuid
  phase : ConnectionPhase
  writerRuns : Bool
  outbox : List Envelope

inductive HubEvent where
  | identified (nodeId : NodeId) (connection : Nat)
  | disconnected (connection : Nat)
  deriving DecidableEq

/-- The history is newest first. -/
structure Hub where
  registry : Registry
  connections : List Connection
  history : List HubEvent

/-- What the environment decides in a dispatch: the id of the envelope made in it, and the
order in which the registry is listed. -/
structure DispatchChoice where
  messageId : Uuid
  values : List ConnectedNode

inductive HubLabel where
  | accept (connectionId : Uuid)
  | identify (connection : Nat) (frame : Frame)
  | message (connection : Nat) (frame : Frame) (choice : DispatchChoice)
  | cleanup (connection : Nat)
  | writerEnds (connection : Nat)

def platformName : Platform → String
  | .mac => "Mac Node"
  | .android => "Android Device"
  | .windows => "Windows Node"
  | .linux => "Linux Node"
  | _ => "Node"

/-- The name a node is given: its platform and the first eight characters of its id. -/
def nodeName (nodeId : NodeId) (platform : Platform) : String :=
  platformName platform ++ " (" ++ String.ofList (nodeId.toText.toList.take 8) ++ ")"

def identify (registry : Registry) (frame : Frame) (tx : Nat) (connectionId : Uuid) :
    Option (NodeId × Registry) :=
  match frame with
  | .other => none
  | .text parsed =>
    match decode parsed with
    | .ok { message := .heartbeat sender payload, .. } =>
      some (sender, registry.upsertFromHeartbeat sender (nodeName sender payload.platform)
        payload.platform
        payload.capabilities payload tx connectionId)
    | _ => none

def targetOffline : Message := .error "target_offline" "target node is not connected"

section Dispatch

variable (toLowercase : String → String)

/-- The registry after a message, and the message sent, with the channel it is sent on. -/
def dispatch (registry : Registry) (parsed : Except String Envelope) (tx : Nat)
    (values : List ConnectedNode) :
    Registry × Option (Nat × Message) :=
  match decode parsed with
  | .error error => (registry, some (tx, .error "decode_error" error.toText))
  | .ok envelope =>
    match envelope.message with
    | .heartbeat sender payload => (registry.updateHeartbeat sender payload, some (tx, .heartbeatAck))
    | .deviceListRequest _ => (registry, some (tx, .deviceListResponse (deviceList values)))
    | .searchRequest request =>
      (registry, some (tx, .searchResponse request.requestId (search toLowercase request.query values)))
    | .pairRequest request =>
      match registry.getTx request.target with
      | some targetTx => (registry, some (targetTx, envelope.message))
      | none => (registry, some (tx, targetOffline))
    | .pairResponse response =>
      match registry.getTx response.target with
      | some targetTx => (registry, some (targetTx, envelope.message))
      | none => (registry, none)
    | .taskRequest request =>
      match request.target with
      | some target =>
        match registry.getTx target with
        | some targetTx => (registry, some (targetTx, envelope.message))
        | none => (registry, some (tx, targetOffline))
      | none => (registry, none)
    | .taskResult result =>
      match result.target with
      | some target =>
        match registry.getTx target with
        | some targetTx => (registry, some (targetTx, envelope.message))
        | none => (registry, none)
      | none => (registry, none)
    | _ => (registry, none)

end Dispatch

/-- A send on a channel whose write task has ended is lost. -/
def Connection.receive (connection : Connection) (envelope : Envelope) : Connection :=
  if connection.writerRuns then { connection with outbox := connection.outbox ++ [envelope] }
  else connection

namespace Hub

def new : Hub := { registry := ∅, connections := [], history := [] }

def update (hub : Hub) (index : Nat) (connection : Connection) : List Connection :=
  hub.connections.set index connection

def send (connections : List Connection) (tx : Nat) (envelope : Envelope) : List Connection :=
  connections.modify tx fun connection => connection.receive envelope

variable (toLowercase : String → String)

def step (hub : Hub) : HubLabel → Option Hub
  | .accept connectionId =>
    some { hub with
      connections := hub.connections ++
        [{ connectionId, phase := .identifying, writerRuns := true, outbox := [] }] }
  | .identify index frame =>
    match hub.connections[index]? with
    | some connection =>
      if connection.phase = .identifying then
        match Relay.identify hub.registry frame index connection.connectionId with
        | some (nodeId, registry) =>
          some
            { registry, connections := hub.update index { connection with phase := .serving nodeId }
              history := .identified nodeId index :: hub.history }
        | none =>
          some { hub with connections := hub.update index { connection with phase := .closed, writerRuns := false } }
      else none
    | none => none
  | .message index frame choice =>
    match hub.connections[index]? with
    | some connection =>
      match connection.phase, frame with
      | .serving _, .text parsed =>
        if choice.values.Perm hub.registry.values then
          match dispatch toLowercase hub.registry parsed index choice.values with
          | (registry, some (tx, message)) =>
            some { hub with registry, connections := send hub.connections tx (.new choice.messageId message) }
          | (registry, none) => some { hub with registry }
        else none
      | .serving nodeId, .other =>
        some { hub with connections := hub.update index { connection with phase := .leaving nodeId } }
      | _, _ => none
    | none => none
  | .cleanup index =>
    match hub.connections[index]? with
    | some connection =>
      match connection.phase with
      | .leaving nodeId =>
        some
          { registry := hub.registry.remove nodeId connection.connectionId
            connections := hub.update index { connection with phase := .closed, writerRuns := false }
            history := .disconnected index :: hub.history }
      | _ => none
    | none => none
  | .writerEnds index =>
    match hub.connections[index]? with
    | some connection =>
      some { hub with connections := hub.update index { connection with writerRuns := false } }
    | none => none

/-- A random connection id is none of those given before. -/
def fresh (hub : Hub) : HubLabel → Prop
  | .accept connectionId => connectionId ∉ hub.connections.map Connection.connectionId
  | _ => True

end Hub

def lastIdentified (nodeId : NodeId) : List HubEvent → Option Nat
  | [] => none
  | .identified named connection :: earlier =>
    if named = nodeId then some connection else lastIdentified nodeId earlier
  | .disconnected _ :: earlier => lastIdentified nodeId earlier

def owner (history : List HubEvent) (nodeId : NodeId) : Option Nat :=
  (lastIdentified nodeId history).filter fun connection => .disconnected connection ∉ history

/-- The entry of a node is there exactly while the connection that identified as it last is not
disconnected, and it is that connection's. -/
structure Hub.Current (hub : Hub) : Prop where
  owned : ∀ nodeId, hub.registry.getTx nodeId = owner hub.history nodeId
  belongs : ∀ nodeId node, hub.registry.lookup nodeId = some node → node.nodeId = nodeId ∧
    ∃ connection, hub.connections[node.tx]? = some connection ∧
    connection.connectionId = node.connectionId

def Connection.ServedAs (connection : Connection) (nodeId : NodeId) : Prop :=
  connection.phase = .serving nodeId ∨ connection.phase = .leaving nodeId ∨ connection.phase = .closed

/-- Connections keep their ids and what they were identified as, and stay closed. -/
def Grows (before after : List Connection) : Prop :=
  ∀ (index : Nat) (connection : Connection), before[index]? = some connection →
    ∃ later : Connection, after[index]? = some later ∧ later.connectionId = connection.connectionId ∧
    (∀ nodeId, connection.ServedAs nodeId → later.ServedAs nodeId) ∧
    (connection.phase = .closed → later.phase = .closed)

variable {hub after : Hub} {connections : List Connection} {connection later : Connection}
  {index : Nat} {nodeId : NodeId}

theorem Grows.append (last : Connection) : Grows connections (connections ++ [last]) := by
  intro _ connection found
  refine ⟨connection, ?_, rfl, fun _ served => served, fun closed => closed⟩
  rw [List.getElem?_append_left (List.getElem?_eq_some_iff.mp found).1, found]

theorem Grows.set (found : connections[index]? = some connection)
    (sameId : later.connectionId = connection.connectionId)
    (served : ∀ nodeId, connection.ServedAs nodeId → later.ServedAs nodeId)
    (closed : connection.phase = .closed → later.phase = .closed) :
    Grows connections (connections.set index later) := by
  intro other before here
  by_cases same : index = other
  · subst same
    cases found.symm.trans here
    refine ⟨later, ?_, sameId, served, closed⟩
    rw [List.getElem?_set_self (List.getElem?_eq_some_iff.mp found).1]
  · refine ⟨before, ?_, rfl, fun _ served => served, fun closed => closed⟩
    rw [List.getElem?_set_ne same, here]

theorem map_connectionId_set (found : connections[index]? = some connection)
    (sameId : later.connectionId = connection.connectionId) :
    (connections.set index later).map Connection.connectionId =
      connections.map Connection.connectionId := by
  have inside : index < (connections.map Connection.connectionId).length := by
    rw [List.length_map]
    exact (List.getElem?_eq_some_iff.mp found).1
  rw [List.map_set, sameId]
  apply List.ext_getElem?
  intro other
  by_cases here : index = other
  · subst here
    rw [List.getElem?_set_self inside, List.getElem?_map, found]
    rfl
  · rw [List.getElem?_set_ne here]

@[simp] theorem connectionId_receive (connection : Connection) (envelope : Envelope) :
    (connection.receive envelope).connectionId = connection.connectionId := by
  unfold Connection.receive
  split <;> rfl

@[simp] theorem phase_receive (connection : Connection) (envelope : Envelope) :
    (connection.receive envelope).phase = connection.phase := by
  unfold Connection.receive
  split <;> rfl

theorem Grows.send (connections : List Connection) (tx : Nat) (envelope : Envelope) :
    Grows connections (Hub.send connections tx envelope) := by
  intro index connection found
  refine ⟨if tx = index then connection.receive envelope else connection, ?_, ?_, ?_, ?_⟩
  · rw [Hub.send, List.getElem?_modify, found]
    rfl
  · split <;> simp
  · intro _ served
    unfold Connection.ServedAs at served ⊢
    split <;> simpa using served
  · intro closed
    split <;> simpa using closed

theorem map_connectionId_send (connections : List Connection) (tx : Nat) (envelope : Envelope) :
    (Hub.send connections tx envelope).map Connection.connectionId =
      connections.map Connection.connectionId := by
  apply List.ext_getElem?
  intro index
  rw [List.getElem?_map, List.getElem?_map, Hub.send, List.getElem?_modify]
  cases connections[index]? with
  | none => rfl
  | some =>
    simp only [Option.map_some]
    split <;> simp

def directedTo : Message → Option (Option NodeId)
  | .pairRequest request => some (some request.target)
  | .pairResponse response => some (some response.target)
  | .taskRequest request => some request.target
  | .taskResult result => some result.target
  | _ => none

/-- The messages whose sender hears of a target that is not connected. -/
def isRequest : Message → Bool
  | .pairRequest _ | .taskRequest _ => true
  | _ => false

variable {toLowercase : String → String} {registry : Registry} {parsed : Except String Envelope}
  {tx : Nat} {values : List ConnectedNode} {envelope : Envelope} {target : Option NodeId}

/-- A directed message is sent on to its target; without one, a request is answered. -/
theorem dispatch_directed (decoded : decode parsed = .ok envelope)
    (directed : directedTo envelope.message = some target) :
    dispatch toLowercase registry parsed tx values =
      (registry,
        match target.map registry.getTx with
        | some (some targetTx) => some (targetTx, envelope.message)
        | some none => if isRequest envelope.message then some (tx, targetOffline) else none
        | none => none) := by
  obtain ⟨_, _, message⟩ := envelope
  unfold dispatch
  rw [decoded]
  cases message with
  | pairRequest request =>
    cases directed
    cases found : registry.getTx request.target <;> simp [found, isRequest]
  | pairResponse response =>
    cases directed
    cases found : registry.getTx response.target <;> simp [found, isRequest]
  | taskRequest request =>
    cases directed
    cases named : request.target with
    | none => simp [named]
    | some target => cases found : registry.getTx target <;> simp [named, found, isRequest]
  | taskResult result =>
    cases directed
    cases named : result.target with
    | none => simp [named]
    | some target => cases found : registry.getTx target <;> simp [named, found, isRequest]
  | heartbeat | heartbeatAck | searchRequest | searchResponse | deviceListRequest
    | deviceListResponse | session | error =>
    cases directed

theorem dispatch_undirected (decoded : decode parsed = .ok envelope)
    (undirected : directedTo envelope.message = none) :
    ∃ answer, dispatch toLowercase registry parsed tx values =
      (match envelope.message with
        | .heartbeat sender payload => registry.updateHeartbeat sender payload
        | _ => registry, answer) ∧ ∀ channel message, answer = some (channel, message) →
          channel = tx ∧ directedTo message = none := by
  obtain ⟨_, _, message⟩ := envelope
  unfold dispatch
  rw [decoded]
  cases message with
  | pairRequest | pairResponse | taskRequest | taskResult => cases undirected
  | heartbeat | searchRequest | deviceListRequest =>
    refine ⟨some (tx, _), rfl, ?_⟩
    intro _ _ same
    cases same
    exact ⟨rfl, rfl⟩
  | heartbeatAck | searchResponse | deviceListResponse | session | error =>
    exact ⟨none, rfl, by simp⟩

theorem dispatch_malformed (failed : decode parsed = .error error) :
    dispatch toLowercase registry parsed tx values =
      (registry, some (tx, .error "decode_error" error.toText)) := by
  unfold dispatch
  rw [failed]

theorem dispatch_registry (toLowercase : String → String) (registry : Registry)
    (parsed : Except String Envelope) (tx : Nat) (values : List ConnectedNode) :
    (dispatch toLowercase registry parsed tx values).1 = registry ∨
      ∃ sender payload, (dispatch toLowercase registry parsed tx values).1 =
      registry.updateHeartbeat sender payload := by
  cases decoded : decode parsed with
  | error => exact .inl (by rw [dispatch_malformed decoded])
  | ok envelope =>
    cases directed : directedTo envelope.message with
    | some => exact .inl (by rw [dispatch_directed decoded directed])
    | none =>
      obtain ⟨_, dispatched, _⟩ := dispatch_undirected decoded directed
      rw [dispatched]
      cases envelope.message with
      | heartbeat sender payload => exact .inr ⟨sender, payload, rfl⟩
      | _ => exact .inl rfl

/-- A text is taken from a connection that serves a node. The registry and what is sent are its
dispatch's. -/
theorem Hub.of_message (taken : Hub.step toLowercase hub
      (.message index (.text parsed) choice) = some after) :
    ∃ connection nodeId, hub.connections[index]? = some connection ∧
      connection.phase = .serving nodeId ∧
      after =
        { hub with
          registry := (dispatch toLowercase hub.registry parsed index choice.values).1
          connections :=
            match (dispatch toLowercase hub.registry parsed index choice.values).2 with
            | some (tx, message) => Hub.send hub.connections tx (.new choice.messageId message)
            | none => hub.connections } := by
  simp only [Hub.step] at taken
  split at taken
  · rename_i connection found
    split at taken
    · rename_i nodeId _ serving same
      cases Frame.text.inj same
      refine ⟨connection, nodeId, found, serving, ?_⟩
      split at taken
      · split at taken
        · rename_i registry _ _ dispatched
          cases taken
          rw [dispatched]
        · rename_i dispatched
          cases taken
          rw [dispatched]
      · cases taken
    · rename_i absurd
      cases absurd
    · cases taken
  · cases taken

end DistributedOs.Relay
