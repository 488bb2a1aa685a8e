import DistributedOs.Protocol.Message
import Mathlib.Data.List.AList
import Mathlib.Data.List.Infix

/-! The registry of the relay: the connected nodes, each with the channel of its connection.
Channels are named by the number of their connection, and a listing of the map is given by
the environment. -/

namespace DistributedOs.Relay

open DistributedOs.Protocol
open Discovery (Uuid)

structure ConnectedNode where
  nodeId : NodeId
  name : String
  platform : Platform
  capabilities : List Capability
  version : String
  status : NodeStatus
  lastSeen : Nat
  tx : Nat
  connectionId : Uuid
  deriving DecidableEq

abbrev Registry := AList fun _ : NodeId => ConnectedNode

namespace Registry

def upsertFromHeartbeat (registry : Registry) (nodeId : NodeId) (name : String)
    (platform : Platform) (capabilities : List Capability) (payload : HeartbeatPayload) (tx : Nat)
    (connectionId : Uuid) : Registry :=
  registry.insert nodeId
    { nodeId, name, platform, capabilities, version := payload.version, status := .online
      lastSeen := payload.timestamp, tx, connectionId }

def heartbeat (payload : HeartbeatPayload) (node : ConnectedNode) : ConnectedNode :=
  { node with status := .online, version := payload.version, lastSeen := payload.timestamp }

def Repeats (payload : HeartbeatPayload) (node : ConnectedNode) : Prop :=
  node.status = .online ∧ node.version = payload.version ∧ node.lastSeen = payload.timestamp

theorem heartbeat_eq_iff :
    heartbeat payload node = node ↔ Repeats payload node := by
  unfold Repeats
  constructor
  · intro same
    exact ⟨(congrArg ConnectedNode.status same).symm, (congrArg ConnectedNode.version same).symm,
      (congrArg ConnectedNode.lastSeen same).symm⟩
  · rintro ⟨status, version, lastSeen⟩
    rw [heartbeat, ← status, ← version, ← lastSeen]

def updateHeartbeat (registry : Registry) (nodeId : NodeId)
    (payload : HeartbeatPayload) : Registry :=
  match registry.lookup nodeId with
  | some node => registry.insert nodeId (heartbeat payload node)
  | none => registry

def remove (registry : Registry) (nodeId : NodeId) (connectionId : Uuid) : Registry :=
  match registry.lookup nodeId with
  | some node => if node.connectionId = connectionId then registry.erase nodeId else registry
  | none => registry

def getTx (registry : Registry) (nodeId : NodeId) : Option Nat :=
  (registry.lookup nodeId).map ConnectedNode.tx

def values (registry : Registry) : List ConnectedNode := registry.entries.map Sigma.snd

end Registry

def deviceList (values : List ConnectedNode) : List NodeSummary :=
  values.map fun node =>
    { id := node.nodeId, name := node.name, platform := node.platform, status := node.status
      lastSeen := some node.lastSeen, capabilities := node.capabilities }

section Search

variable (toLowercase : String → String)

def contains (text part : String) : Bool := part.toList <:+: text.toList

/-- The score in tenths. -/
def scoreNode (node : ConnectedNode) (q : String) : Nat :=
  if q.isEmpty then 10
  else if node.status.toText = q then 10
  else if node.platform.toText = q then 10
  else if contains (toLowercase node.nodeId.toText) q then 9
  else if contains (toLowercase node.name) q then 8
  else if contains (toLowercase node.version) q then 8
  else if contains node.platform.toText q then 7
  else
    let tagged := "capability=".toList.isPrefixOf q.toList
    let targetCap := if tagged then String.ofList (q.toList.drop "capability=".length) else q
    if node.capabilities.any fun capability => contains (toLowercase capability.toText) targetCap then
      if tagged then 10 else 6
    else 0

def search (query : String) (values : List ConnectedNode) : List SearchResult :=
  let q := toLowercase (trim query)
  let results := values.filterMap fun node =>
    let score := scoreNode toLowercase node q
    if 0 < score then
      some
        { nodeId := node.nodeId, name := node.name, platform := node.platform, status := node.status
          capabilities := node.capabilities, version := node.version, score }
    else none
  results.mergeSort fun first second => second.score ≤ first.score

end Search

namespace Registry

variable {registry : Registry} {nodeId other : NodeId} {node : ConnectedNode}

theorem lookup_updateHeartbeat (registry : Registry) (nodeId other : NodeId)
    (payload : HeartbeatPayload) :
    (registry.updateHeartbeat nodeId payload).lookup other =
      if other = nodeId then (registry.lookup other).map (heartbeat payload)
      else registry.lookup other := by
  unfold updateHeartbeat
  by_cases same : other = nodeId
  · subst same
    cases found : registry.lookup other with
    | none => simp [found]
    | some => simp
  · cases found : registry.lookup nodeId with
    | none => simp [same]
    | some => simp [same, AList.lookup_insert_ne same]

/-- An entry goes only when it carries the connection id. -/
theorem lookup_remove (registry : Registry) (nodeId other : NodeId) (connectionId : Uuid) :
    (registry.remove nodeId connectionId).lookup other =
      (registry.lookup other).filter fun node =>
      ¬(other = nodeId ∧ node.connectionId = connectionId) := by
  unfold remove
  by_cases same : other = nodeId
  · subst same
    cases found : registry.lookup other with
    | none => simp [found]
    | some node =>
      by_cases own : node.connectionId = connectionId
      · simp [own, AList.lookup_erase, Option.filter]
      · simp [own, found, Option.filter]
  · have kept : (registry.lookup other).filter
      (fun node => ¬(other = nodeId ∧ node.connectionId = connectionId)) =
        registry.lookup other := by
      cases registry.lookup other <;> simp [same, Option.filter]
    rw [kept]
    cases found : registry.lookup nodeId with
    | none => rfl
    | some node =>
      by_cases own : node.connectionId = connectionId
      · simp [own, AList.lookup_erase_ne same]
      · simp [own]

end Registry

end DistributedOs.Relay
