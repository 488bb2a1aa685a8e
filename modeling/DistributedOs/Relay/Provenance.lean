import DistributedOs.Relay.Ownership

/-! Where what the hub sends on a connection comes from, and where an entry of its registry does. -/

namespace DistributedOs.Relay

open DistributedOs.Protocol Semantics

variable {toLowercase : String → String} {hub after : Hub} {label : HubLabel}
  {connections : List Connection} {connection later : Connection} {index other tx : Nat}
  {envelope : Envelope} {nodeId : NodeId}

/-- What is on a channel after a step was on it before, but for what the dispatch of a message has
put there. -/
def Extended (toLowercase : String → String) (hub : Hub) (label : HubLabel) (index : Nat)
    (later : Connection) : Prop :=
  ∃ connection, hub.connections[index]? = some connection ∧
    (later.outbox = connection.outbox ∨
      ∃ other parsed choice message, label = .message other (.text parsed) choice ∧
        (dispatch toLowercase hub.registry parsed other choice.values).2 = some (index, message) ∧
        later.outbox = connection.outbox ++ [.new choice.messageId message])

theorem extended_of_set (there : hub.connections[other]? = some before)
    (found : (hub.connections.set other changed)[index]? = some later)
    (outbox : changed.outbox = before.outbox) :
    Extended toLowercase hub label index later := by
  by_cases same : other = index
  · subst same
    rw [List.getElem?_set_self (List.getElem?_eq_some_iff.mp there).1] at found
    cases found
    exact ⟨before, there, .inl outbox⟩
  · rw [List.getElem?_set_ne same] at found
    exact ⟨later, found, .inl rfl⟩

theorem extended_of_send
    (sent : (dispatch toLowercase hub.registry parsed other choice.values).2 = some (tx, message))
    (found : (Hub.send hub.connections tx (.new choice.messageId message))[index]? = some later) :
    Extended toLowercase hub (.message other (.text parsed) choice) index later := by
  rw [Hub.send, List.getElem?_modify] at found
  obtain ⟨connection, here, rfl⟩ := Option.map_eq_some_iff.mp found
  refine ⟨connection, here, ?_⟩
  by_cases same : tx = index
  · subst same
    rw [if_pos rfl, Connection.receive]
    split
    · exact .inr ⟨other, parsed, choice, message, rfl, sent, rfl⟩
    · exact .inl rfl
  · rw [if_neg same]
    exact .inl rfl

/-- A connection is new and nothing was sent on it, or it has the channel it had. -/
theorem extended_of_step (taken : hub.step toLowercase label = some after)
    (found : after.connections[index]? = some later) :
    later.outbox = [] ∧ index = hub.connections.length ∨
      Extended toLowercase hub label index later := by
  cases label with
  | accept =>
    cases taken
    rcases Nat.lt_or_ge index hub.connections.length with inside | new
    · rw [List.getElem?_append_left inside] at found
      exact .inr ⟨later, found, .inl rfl⟩
    · rw [List.getElem?_append_right new] at found
      have within := (List.getElem?_eq_some_iff.mp found).1
      rw [List.length_singleton] at within
      obtain rfl := List.mem_singleton.mp (List.mem_of_getElem? found)
      exact .inl ⟨rfl, by omega⟩
  | identify =>
    simp only [Hub.step] at taken
    split at taken
    · rename_i before there
      split at taken
      · split at taken
        · cases taken
          exact .inr (extended_of_set there found rfl)
        · cases taken
          exact .inr (extended_of_set there found rfl)
      · cases taken
    · cases taken
  | message other frame =>
    cases frame with
    | text =>
      obtain ⟨before, _, there, _, rfl⟩ := Hub.of_message taken
      simp only at found
      split at found
      · rename_i sent
        exact .inr (extended_of_send sent found)
      · exact .inr ⟨later, found, .inl rfl⟩
    | other =>
      simp only [Hub.step] at taken
      split at taken
      · rename_i before there
        split at taken
        · rename_i same
          cases same
        · cases taken
          exact .inr (extended_of_set there found rfl)
        · cases taken
      · cases taken
  | cleanup =>
    simp only [Hub.step] at taken
    split at taken
    · rename_i before there
      split at taken
      · cases taken
        exact .inr (extended_of_set there found rfl)
      · cases taken
    · cases taken
  | writerEnds =>
    simp only [Hub.step] at taken
    split at taken
    · rename_i there
      cases taken
      exact .inr (extended_of_set there found rfl)
    · cases taken

theorem carried_of_step (taken : hub.step toLowercase label = some after)
    (found : after.connections[index]? = some later) (member : envelope ∈ later.outbox) :
    (∃ connection, hub.connections[index]? = some connection ∧ envelope ∈ connection.outbox) ∨
      ∃ other parsed choice, label = .message other (.text parsed) choice ∧
        (dispatch toLowercase hub.registry parsed other choice.values).2 =
        some (index, envelope.message) := by
  rcases extended_of_step taken found with ⟨empty, _⟩
    | ⟨connection, here, same | ⟨other, parsed, choice, _, rfl, sent, more⟩⟩
  · rw [empty] at member
    cases member
  · exact .inl ⟨connection, here, same ▸ member⟩
  · rw [more] at member
    rcases List.mem_append.mp member with before | new
    · exact .inl ⟨connection, here, before⟩
    · obtain rfl := List.mem_singleton.mp new
      exact .inr ⟨other, parsed, choice, rfl, sent⟩

theorem length_of_step (taken : hub.step toLowercase label = some after) :
    after.connections.length = hub.connections.length + match label with | .accept _ => 1 | _ => 0 := by
  cases label with
  | accept =>
    cases taken
    simp
  | identify =>
    simp only [Hub.step] at taken
    split at taken
    · split at taken
      · split at taken
        · cases taken
          exact List.length_set
        · cases taken
          exact List.length_set
      · cases taken
    · cases taken
  | message other frame =>
    cases frame with
    | text =>
      obtain ⟨_, _, _, _, rfl⟩ := Hub.of_message taken
      simp only
      split
      · rw [Hub.send, List.length_modify]
        rfl
      · rfl
    | other =>
      simp only [Hub.step] at taken
      split at taken
      · split at taken
        · rename_i same
          cases same
        · cases taken
          exact List.length_set
        · cases taken
      · cases taken
  | cleanup =>
    simp only [Hub.step] at taken
    split at taken
    · split at taken
      · cases taken
        exact List.length_set
      · cases taken
    · cases taken
  | writerEnds =>
    simp only [Hub.step] at taken
    split at taken
    · cases taken
      exact List.length_set
    · cases taken

namespace Registry

variable {registry : Registry} {node : NodeId}

theorem getTx_upsert
    (owned : (registry.upsertFromHeartbeat node name platform capabilities payload at_
      connectionId).getTx nodeId = some tx) :
    registry.getTx nodeId = some tx ∨ nodeId = node ∧ tx = at_ := by
  unfold getTx upsertFromHeartbeat at owned
  by_cases same : nodeId = node
  · subst same
    rw [AList.lookup_insert] at owned
    cases owned
    exact .inr ⟨rfl, rfl⟩
  · rw [AList.lookup_insert_ne same] at owned
    exact .inl owned

theorem getTx_updateHeartbeat (payload : HeartbeatPayload) :
    (registry.updateHeartbeat node payload).getTx nodeId = registry.getTx nodeId := by
  unfold getTx
  rw [lookup_updateHeartbeat]
  split
  · rw [Option.map_map]
    rfl
  · rfl

theorem getTx_remove (owned : (registry.remove node connectionId).getTx nodeId = some tx) :
    registry.getTx nodeId = some tx := by
  unfold getTx at owned ⊢
  rw [lookup_remove] at owned
  obtain ⟨_, kept, same⟩ := Option.map_eq_some_iff.mp owned
  rw [(Option.filter_eq_some_iff.mp kept).1, Option.map_some, same]

end Registry

theorem of_decode (decoded : decode parsed = .ok envelope) : parsed = .ok envelope := by
  unfold decode at decoded
  split at decoded
  · cases decoded
  · split at decoded
    · cases decoded
      rfl
    · cases decoded

theorem heartbeat_of_identify
    (identified : identify registry frame index connectionId = some (nodeId, next)) :
    ∃ envelope payload, frame = .text (.ok envelope) ∧
      envelope.message = .heartbeat nodeId payload := by
  unfold identify at identified
  split at identified
  · cases identified
  · rename_i parsed
    split at identified
    · rename_i decoded
      cases identified
      exact ⟨_, _, by rw [of_decode decoded], rfl⟩
    · cases identified

/-- A node is only ever entered for the connection whose first frame is its heartbeat. -/
theorem getTx_of_step (taken : hub.step toLowercase label = some after)
    (owned : after.registry.getTx nodeId = some tx) :
    hub.registry.getTx nodeId = some tx ∨
      ∃ envelope payload, label = .identify tx (.text (.ok envelope)) ∧
      envelope.message = .heartbeat nodeId payload := by
  cases label with
  | accept =>
    cases taken
    exact .inl owned
  | identify =>
    simp only [Hub.step] at taken
    split at taken
    · split at taken
      · split at taken
        · rename_i identified
          cases taken
          obtain ⟨envelope, payload, rfl, beat⟩ := heartbeat_of_identify identified
          obtain ⟨_, _, _, _, rfl⟩ := identify_some identified
          rcases Registry.getTx_upsert owned with before | ⟨rfl, rfl⟩
          · exact .inl before
          · exact .inr ⟨envelope, payload, rfl, beat⟩
        · cases taken
          exact .inl owned
      · cases taken
    · cases taken
  | message other frame choice =>
    cases frame with
    | text parsed =>
      obtain ⟨_, _, _, _, rfl⟩ := Hub.of_message taken
      rcases dispatch_registry toLowercase hub.registry parsed other choice.values with same
        | ⟨_, _, beat⟩
      · rw [same] at owned
        exact .inl owned
      · rw [beat, Registry.getTx_updateHeartbeat] at owned
        exact .inl owned
    | other =>
      simp only [Hub.step] at taken
      split at taken
      · split at taken
        · rename_i same
          cases same
        · cases taken
          exact .inl owned
        · cases taken
      · cases taken
  | cleanup =>
    simp only [Hub.step] at taken
    split at taken
    · split at taken
      · cases taken
        exact .inl (Registry.getTx_remove owned)
      · cases taken
    · cases taken
  | writerEnds =>
    simp only [Hub.step] at taken
    split at taken
    · cases taken
      exact .inl owned
    · cases taken

end DistributedOs.Relay
