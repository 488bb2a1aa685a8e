import DistributedOs.Relay.Hub

/-! Whose entry the registry holds: a node's entry is that of the connection that identified as
it last, and only that connection's own disconnect removes it. -/

namespace DistributedOs.Relay

open DistributedOs.Protocol Semantics
open Discovery (Uuid)

variable {toLowercase : String → String} {hub after : Hub} {connections : List Connection}
  {connection later : Connection} {index : Nat} {nodeId other : NodeId} {registry : Registry}
  {history : List HubEvent}

theorem mem_of_lastIdentified (last : lastIdentified nodeId history = some index) :
    HubEvent.identified nodeId index ∈ history := by
  induction history with
  | nil => cases last
  | cons event _ ih =>
    cases event with
    | identified =>
      unfold lastIdentified at last
      split at last
      · rename_i same
        cases last
        simp [same]
      · exact List.mem_cons_of_mem _ (ih last)
    | disconnected => exact List.mem_cons_of_mem _ (ih last)

theorem owner_identified (named : NodeId) (index : Nat) (nodeId : NodeId)
    (still : .disconnected index ∉ history) :
    owner (.identified named index :: history) nodeId = if nodeId = named then some index
      else owner history nodeId := by
  have last : lastIdentified nodeId (.identified named index :: history) =
      if named = nodeId then some index else lastIdentified nodeId history := rfl
  rw [owner, last]
  by_cases same : named = nodeId
  · simp [same, still, Option.filter]
  · simp [same, Ne.symm same, owner]

theorem owner_disconnected (index : Nat) (nodeId : NodeId) :
    owner (.disconnected index :: history) nodeId = (owner history nodeId).filter (· ≠ index) := by
  have last : lastIdentified nodeId (.disconnected index :: history) =
      lastIdentified nodeId history := rfl
  rw [owner, owner, last, Option.filter_filter]
  congr 1
  funext connection
  by_cases here : connection = index
  · simp [here]
  · simp [here]

/-- What every step of the hub keeps: connection ids differ, and a connection knows whom it was
identified as and that it is closed. -/
structure Kept (hub : Hub) : Prop where
  current : hub.Current
  distinct : (hub.connections.map Connection.connectionId).Nodup
  served : ∀ nodeId index, .identified nodeId index ∈ hub.history →
    ∃ connection, hub.connections[index]? = some connection ∧ connection.ServedAs nodeId
  gone : ∀ index, .disconnected index ∈ hub.history →
    ∃ connection, hub.connections[index]? = some connection ∧ connection.phase = .closed

theorem Kept.new : Kept .new := by
  refine ⟨⟨fun _ => rfl, ?_⟩, List.nodup_nil, ?_, ?_⟩
  · intro nodeId _ found
    cases found
  · intro _ index member
    cases member
  · intro _ member
    cases member

theorem Kept.grow (kept : Kept hub) (grows : Grows hub.connections connections)
    (distinct : (connections.map Connection.connectionId).Nodup) :
    Kept { hub with connections } := by
  refine ⟨⟨kept.current.owned, ?_⟩, distinct, ?_, ?_⟩
  · intro nodeId node found
    obtain ⟨named, connection, here, sameId⟩ := kept.current.belongs nodeId node found
    obtain ⟨later, there, keptId, _⟩ := grows _ _ here
    exact ⟨named, later, there, keptId.trans sameId⟩
  · intro nodeId index member
    obtain ⟨connection, here, served⟩ := kept.served nodeId index member
    obtain ⟨later, there, _, keeps, _⟩ := grows _ _ here
    exact ⟨later, there, keeps nodeId served⟩
  · intro index member
    obtain ⟨_, here, closed⟩ := kept.gone index member
    obtain ⟨later, there, _, _, keeps⟩ := grows _ _ here
    exact ⟨later, there, keeps closed⟩

theorem Kept.set (kept : Kept hub) (found : hub.connections[index]? = some connection)
    (sameId : later.connectionId = connection.connectionId)
    (served : ∀ nodeId, connection.ServedAs nodeId → later.ServedAs nodeId)
    (closed : connection.phase = .closed → later.phase = .closed) :
    Kept { hub with connections := hub.update index later } := by
  refine kept.grow (.set found sameId served closed) ?_
  rw [Hub.update, map_connectionId_set found sameId]
  exact kept.distinct

theorem Kept.accept (kept : Kept hub)
    (fresh : connectionId ∉ hub.connections.map Connection.connectionId) (later : Connection)
    (named : later.connectionId = connectionId) :
    Kept { hub with connections := hub.connections ++ [later] } := by
  refine kept.grow (.append _) ?_
  rw [List.map_append, List.nodup_append]
  refine ⟨kept.distinct, by simp, ?_⟩
  intro _ member _ single
  rw [List.map_singleton, List.mem_singleton] at single
  intro same
  rw [same, single, named] at member
  exact fresh member

theorem Kept.leave (kept : Kept hub) (found : hub.connections[index]? = some connection)
    (serving : connection.phase = .serving nodeId) :
    Kept { hub with connections := hub.update index { connection with phase := .leaving nodeId } } := by
  refine kept.set found rfl ?_ ?_
  · intro _ served
    rw [Connection.ServedAs, serving] at served
    right
    left
    simpa using served
  · intro closed
    rw [serving] at closed
    cases closed

theorem Kept.updateHeartbeat (kept : Kept hub) (nodeId : NodeId) (payload : HeartbeatPayload) :
    Kept { hub with registry := hub.registry.updateHeartbeat nodeId payload } := by
  refine ⟨⟨?_, ?_⟩, kept.distinct, kept.served, kept.gone⟩
  · intro other
    rw [← kept.current.owned other, Registry.getTx, Registry.lookup_updateHeartbeat, Registry.getTx]
    split
    · rw [Option.map_map]
      rfl
    · rfl
  · intro other node found
    rw [Registry.lookup_updateHeartbeat] at found
    split at found
    · obtain ⟨before, here, rfl⟩ := Option.map_eq_some_iff.mp found
      exact kept.current.belongs other before here
    · exact kept.current.belongs other node found

theorem Kept.identify (kept : Kept hub) (found : hub.connections[index]? = some connection)
    (identifying : connection.phase = .identifying) (name : String) (platform : Platform)
    (capabilities : List Capability) (payload : HeartbeatPayload) :
    Kept
      { registry := hub.registry.upsertFromHeartbeat nodeId name platform capabilities payload index
          connection.connectionId
        connections := hub.update index { connection with phase := .serving nodeId }
        history := .identified nodeId index :: hub.history } := by
  have inside := (List.getElem?_eq_some_iff.mp found).1
  have grown : Kept { hub with connections := hub.update index { connection with phase := .serving nodeId } } := by
    refine kept.set found rfl ?_ ?_
    · intro other served
      rw [Connection.ServedAs, identifying] at served
      simp at served
    · intro closed
      rw [identifying] at closed
      cases closed
  have still : .disconnected index ∉ hub.history := by
    intro member
    obtain ⟨same, here, closed⟩ := kept.gone index member
    cases found.symm.trans here
    rw [identifying] at closed
    cases closed
  have here : (hub.update index { connection with phase := .serving nodeId })[index]? =
      some { connection with phase := .serving nodeId } := by
    rw [Hub.update, List.getElem?_set_self inside]
  refine ⟨⟨?_, ?_⟩, grown.distinct, ?_, ?_⟩
  · intro other
    rw [owner_identified _ _ _ still, ← kept.current.owned other, Registry.getTx, Registry.getTx,
      Registry.upsertFromHeartbeat]
    by_cases same : other = nodeId
    · subst same
      simp
    · simp [same, AList.lookup_insert_ne same]
  · intro other node entry
    rw [Registry.upsertFromHeartbeat] at entry
    by_cases same : other = nodeId
    · subst same
      rw [AList.lookup_insert] at entry
      cases entry
      exact ⟨rfl, _, here, rfl⟩
    · rw [AList.lookup_insert_ne same] at entry
      exact grown.current.belongs other node entry
  · intro other at_ member
    rcases List.mem_cons.mp member with first | before
    · cases first
      exact ⟨_, here, .inl rfl⟩
    · exact grown.served other at_ before
  · intro at_ member
    rcases List.mem_cons.mp member with first | before
    · cases first
    · exact grown.gone at_ before

/-- An entry carries a leaving connection's id under its own node exactly when that connection owns
it. -/
theorem Kept.own_iff (kept : Kept hub) (found : hub.connections[index]? = some connection)
    (leaving : connection.phase = .leaving nodeId) (entry : hub.registry.lookup other = some node) :
    (other = nodeId ∧ node.connectionId = connection.connectionId) ↔ node.tx = index := by
  obtain ⟨_, _, here, sameId⟩ := kept.current.belongs other node entry
  constructor
  · rintro ⟨_, mine⟩
    have first : (hub.connections.map Connection.connectionId)[node.tx]? =
        some connection.connectionId := by
      rw [List.getElem?_map, here, Option.map_some, sameId, mine]
    have second : (hub.connections.map Connection.connectionId)[index]? =
        some connection.connectionId := by
      rw [List.getElem?_map, found, Option.map_some]
    obtain ⟨inside, _⟩ := List.getElem?_eq_some_iff.mp first
    exact (List.getElem?_inj inside kept.distinct).mp (first.trans second.symm)
  · intro mine
    rw [mine] at here
    cases found.symm.trans here
    have last : owner hub.history other = some index := by
      rw [← kept.current.owned other, Registry.getTx, entry, Option.map_some, mine]
    have identified := mem_of_lastIdentified (Option.filter_eq_some_iff.mp last).1
    obtain ⟨_, there, served⟩ := kept.served other index identified
    cases found.symm.trans there
    rw [Connection.ServedAs, leaving] at served
    refine ⟨?_, sameId.symm⟩
    simpa [eq_comm] using served

theorem Kept.cleanup (kept : Kept hub) (found : hub.connections[index]? = some connection)
    (leaving : connection.phase = .leaving nodeId) :
    Kept
      { registry := hub.registry.remove nodeId connection.connectionId
        connections := hub.update index { connection with phase := .closed, writerRuns := false }
        history := .disconnected index :: hub.history } := by
  have inside := (List.getElem?_eq_some_iff.mp found).1
  have grown : Kept { hub with
      connections := hub.update index { connection with phase := .closed, writerRuns := false } } :=
    kept.set found rfl (fun _ _ => .inr (.inr rfl)) (fun _ => rfl)
  refine ⟨⟨?_, ?_⟩, grown.distinct, ?_, ?_⟩
  · intro other
    rw [owner_disconnected, ← kept.current.owned other, Registry.getTx, Registry.getTx,
      Registry.lookup_remove]
    cases entry : hub.registry.lookup other with
    | none => rfl
    | some node =>
      have mine := kept.own_iff found leaving entry
      by_cases same : node.tx = index
      · simp [Option.filter, mine.mpr same, same]
      · have notMine : ¬(other = nodeId ∧ node.connectionId = connection.connectionId) :=
          fun both => same (mine.mp both)
        simp only [Option.filter, Option.map_some]
        rw [if_pos (decide_eq_true notMine), if_pos (decide_eq_true same)]
        rfl
  · intro other node entry
    rw [Registry.lookup_remove] at entry
    exact grown.current.belongs other node (Option.filter_eq_some_iff.mp entry).1
  · intro other at_ member
    rcases List.mem_cons.mp member with first | before
    · cases first
    · exact grown.served other at_ before
  · intro at_ member
    rcases List.mem_cons.mp member with first | before
    · cases first
      exact ⟨_, by rw [Hub.update, List.getElem?_set_self inside], rfl⟩
    · exact grown.gone at_ before

theorem identify_some
    (identified : identify registry frame index connectionId = some (nodeId, next)) :
    ∃ name platform capabilities payload,
      next = registry.upsertFromHeartbeat nodeId name platform capabilities payload index
      connectionId := by
  unfold identify at identified
  split at identified
  · cases identified
  split at identified
  · cases identified
    exact ⟨_, _, _, _, rfl⟩
  · cases identified

theorem Kept.message (kept : Kept hub) (parsed : Except String Envelope)
    (values : List ConnectedNode) :
    Kept { hub with registry := (dispatch toLowercase hub.registry parsed index values).1 } := by
  rcases dispatch_registry toLowercase hub.registry parsed index values with same
    | ⟨sender, payload, beat⟩
  · rw [same]
    exact kept
  · rw [beat]
    exact kept.updateHeartbeat sender payload

theorem Kept.step (kept : Kept hub) (fresh : hub.fresh label)
    (taken : hub.step toLowercase label = some after) : Kept after := by
  cases label with
  | accept =>
    cases taken
    exact kept.accept fresh _ rfl
  | identify =>
    simp only [Hub.step] at taken
    split at taken
    · rename_i connection found
      split at taken
      · rename_i identifying
        split at taken
        · rename_i nodeId registry identified
          cases taken
          obtain ⟨name, platform, capabilities, payload, rfl⟩ := identify_some identified
          exact kept.identify found identifying name platform capabilities payload
        · cases taken
          refine kept.set found rfl ?_ (fun _ => rfl)
          exact fun _ _ => .inr (.inr rfl)
      · cases taken
    · cases taken
  | message index frame choice =>
    cases frame with
    | text parsed =>
      obtain ⟨connection, nodeId, found, serving, rfl⟩ := Hub.of_message taken
      have sent : Kept { hub with registry :=
        (dispatch toLowercase hub.registry parsed index choice.values).1 } :=
        kept.message parsed choice.values
      split
      · refine sent.grow (.send _ _ _) ?_
        rw [map_connectionId_send]
        exact kept.distinct
      · exact sent
    | other =>
      simp only [Hub.step] at taken
      split at taken
      · rename_i connection found
        split at taken
        · rename_i same
          cases same
        · rename_i nodeId serving _
          cases taken
          exact kept.leave found serving
        · cases taken
      · cases taken
  | cleanup =>
    simp only [Hub.step] at taken
    split at taken
    · rename_i connection found
      split at taken
      · rename_i leaving
        cases taken
        exact kept.cleanup found leaving
      · cases taken
    · cases taken
  | writerEnds =>
    simp only [Hub.step] at taken
    split at taken
    · rename_i found
      cases taken
      exact kept.set found rfl (fun _ served => served) (fun closed => closed)
    · cases taken

/-- In every run of the hub, however connections come, identify, send and go, the entry of a
node is that of the connection that identified as it last, until that one disconnects. -/
theorem current_of_run {labels : List HubLabel}
    (run : Execution (Hub.step toLowercase) Hub.fresh .new labels hub) : hub.Current := by
  have kept : Kept hub := by
    refine run.invariant Kept ?_ .new
    intro _ _ _ holding fresh taken
    exact holding.step fresh taken
  exact kept.current

instance (hub : Hub) (label : HubLabel) : Decidable (hub.fresh label) :=
  match label with
  | .accept connectionId =>
    inferInstanceAs (Decidable (connectionId ∉ hub.connections.map Connection.connectionId))
  | .identify .. | .message .. | .cleanup .. | .writerEnds .. => isTrue trivial

def sampleUuid (byte : UInt8) : Uuid := ⟨List.replicate 16 byte, List.length_replicate⟩

def sampleHeartbeat (sender : NodeId) (version : String) : Message :=
  .heartbeat sender
    { cpuUsage := 0, memoryUsage := 0, batteryLevel := none, platform := .linux, version,
      status := .online
      capabilities := [], timestamp := 0 }

def sampleFrame (message : Message) : Frame := .text (.ok (.new .nil message))

/-- A node comes back on a second connection, and then its first one is cleaned up. -/
theorem current_of_reconnect :
    ∃ hub : Hub, hub.Current ∧ hub.registry.getTx (sampleUuid 1) = some 1 ∧
      .disconnected 0 ∈ hub.history := by
  obtain ⟨hub, run, good⟩ := exists_execution
    (fun hub => hub.registry.getTx (sampleUuid 1) = some 1 ∧ .disconnected 0 ∈ hub.history)
    (show (replayWhere (Hub.step id) (fun hub label => hub.fresh label) Hub.new
      [.accept (sampleUuid 7), .identify 0 (sampleFrame (sampleHeartbeat (sampleUuid 1) "1")),
        .accept (sampleUuid 8),
        .identify 1 (sampleFrame (sampleHeartbeat (sampleUuid 1) "1")), .message 0 .other ⟨.nil, []⟩,
        .cleanup 0]).any _ = true by decide)
  have good := of_decide_eq_true good
  exact ⟨hub, current_of_run (run.weaken fun _ _ => of_decide_eq_true), good⟩

end DistributedOs.Relay
