import DistributedOs.Relay.Identity

/-! What becomes of a directed message: it reaches its target's channel, the sender is told of
an error, or it is lost. -/

namespace DistributedOs.Relay

open DistributedOs.Protocol Semantics

/-- The channel of one connection has carried one more envelope, and nothing else has changed. -/
def Delivered (connections : List Connection) (tx : Nat) (envelope : Envelope)
    (after : List Connection) : Prop :=
  ∃ connection, connections[tx]? = some connection ∧
    after = connections.set tx { connection with outbox := connection.outbox ++ [envelope] }

def Takes (connections : List Connection) (tx : Nat) : Prop :=
  ∃ connection, connections[tx]? = some connection ∧ connection.writerRuns

/-- The envelope is delivered once to the connection of its target, or an error is to its sender's. -/
def Routed (hub : Hub) (index : Nat) (envelope : Envelope) (after : List Connection) : Prop :=
  (∃ target node, directedTo envelope.message = some (some target) ∧
    hub.registry.lookup target = some node ∧
    Delivered hub.connections node.tx envelope after) ∨
  ∃ reply code text, reply.message = .error code text ∧ Delivered hub.connections index reply after

def Hub.Routes (hub : Hub) (label : HubLabel) (after : Hub) : Prop :=
  match label with
  | .message index (.text parsed) _ | .identify index (.text parsed) =>
    ∀ envelope, decode parsed = .ok envelope → (directedTo envelope.message).isSome →
      Routed hub index envelope after.connections
  | _ => True

/-- A directed message names its target. To a connected one it is sent on under the id it had,
on a channel that takes it; to another one it is a request, and its sender takes the answer. -/
def Hub.routable (hub : Hub) (index : Nat) (messageId : Discovery.Uuid)
    (envelope : Envelope) : Prop :=
  match directedTo envelope.message with
  | some (some target) =>
    match hub.registry.lookup target with
    | some node => messageId = envelope.messageId ∧ Takes hub.connections node.tx
    | none => isRequest envelope.message ∧ Takes hub.connections index
  | some none => False
  | none => True

/-- The directed messages are routable, and none of them is a connection's first message. -/
def Hub.routing (hub : Hub) : HubLabel → Prop
  | .message index (.text parsed) choice =>
    ∀ envelope, decode parsed = .ok envelope → hub.routable index choice.messageId envelope
  | .identify _ (.text parsed) =>
    ∀ envelope, decode parsed = .ok envelope → directedTo envelope.message = none
  | _ => True

variable {toLowercase : String → String} {connections : List Connection} {index tx : Nat}
  {envelope sent : Envelope} {parsed : Except String Envelope} {choice : DispatchChoice}
  {hub after : Hub} {label : HubLabel}

theorem not_delivered_of_outbox (found : connections[index]? = some connection)
    (here : more[index]? = some later) (same : later.outbox = connection.outbox) :
    ¬ Delivered connections index envelope more := by
  rintro ⟨_, found', rfl⟩
  cases found.symm.trans found'
  rw [List.getElem?_set_self (List.getElem?_eq_some_iff.mp found).1] at here
  cases here
  simp at same

theorem not_delivered_self : ¬ Delivered connections index envelope connections := by
  intro delivered
  have ⟨_, found, _⟩ := delivered
  exact not_delivered_of_outbox found found rfl delivered

theorem delivered_send_iff :
    Delivered connections index envelope (Hub.send connections tx sent) ↔
      index = tx ∧ envelope = sent ∧ Takes connections tx := by
  constructor
  · intro delivered
    have ⟨connection, found, _⟩ := delivered
    have here : (Hub.send connections tx sent)[index]? =
        some (if tx = index then connection.receive sent else connection) := by
      rw [Hub.send, List.getElem?_modify, found]
      rfl
    by_cases own : tx = index
    · subst own
      rw [if_pos rfl] at here
      by_cases runs : connection.writerRuns
      · obtain ⟨_, found', same⟩ := delivered
        cases found.symm.trans found'
        rw [same, List.getElem?_set_self (List.getElem?_eq_some_iff.mp found).1, Connection.receive,
          if_pos runs] at here
        have outbox := congrArg Connection.outbox (Option.some.inj here)
        exact ⟨rfl, by simpa using outbox, connection, found, runs⟩
      · rw [Connection.receive, if_neg runs] at here
        exact absurd delivered (not_delivered_of_outbox found here rfl)
    · rw [if_neg own] at here
      exact absurd delivered (not_delivered_of_outbox found here rfl)
  · rintro ⟨rfl, rfl, connection, found, runs⟩
    refine ⟨connection, found, ?_⟩
    rw [Hub.send, List.modify_eq_set_getElem?, found]
    simp [Connection.receive, runs]

theorem eq_new_iff (decoded : decode parsed = .ok envelope) (messageId : Discovery.Uuid) :
    envelope = .new messageId envelope.message ↔ messageId = envelope.messageId := by
  have version : envelope.version = protocolVersion := by
    unfold decode at decoded
    split at decoded
    · cases decoded
    · split at decoded
      · rename_i compatible
        cases decoded
        simpa [Envelope.isCompatible] using compatible
      · cases decoded
  constructor
  · intro same
    exact (congrArg Envelope.messageId same).symm
  · rintro rfl
    rw [Envelope.new, ← version]

theorem routed_iff (taken : Hub.step toLowercase hub
      (.message index (.text parsed) choice) = some after)
    (decoded : decode parsed = .ok envelope) (directed : (directedTo envelope.message).isSome) :
    Routed hub index envelope after.connections ↔ hub.routable index choice.messageId envelope := by
  obtain ⟨target, directed⟩ := Option.isSome_iff_exists.mp directed
  obtain ⟨_, _, _, _, rfl⟩ := Hub.of_message taken
  have notError : ∀ {code text : String}, envelope.message ≠ .error code text := by
    intro code text same
    rw [same] at directed
    cases directed
  simp only [dispatch_directed decoded directed, Hub.routable, directed]
  cases target with
  | none =>
    constructor
    · rintro (⟨named, _, same, _⟩ | ⟨reply, code, text, _, delivered⟩)
      · cases directed.symm.trans same
      · exact not_delivered_self delivered
    · exact False.elim
  | some named =>
    simp only [Option.map_some, Registry.getTx]
    cases found : hub.registry.lookup named with
    | some node =>
      simp only [Option.map_some]
      constructor
      · rintro (⟨other, holder, same, held, delivered⟩ | ⟨reply, code, text, isError, delivered⟩)
        · cases directed.symm.trans same
          cases found.symm.trans held
          obtain ⟨_, new, takes⟩ := delivered_send_iff.mp delivered
          exact ⟨(eq_new_iff decoded _).mp new, takes⟩
        · obtain ⟨_, new, _⟩ := delivered_send_iff.mp delivered
          rw [new] at isError
          exact absurd isError notError
      · rintro ⟨same, takes⟩
        exact .inl ⟨named, node, directed, found,
          delivered_send_iff.mpr ⟨rfl, (eq_new_iff decoded _).mpr same, takes⟩⟩
    | none =>
      simp only [Option.map_none]
      by_cases request : isRequest envelope.message
      · simp only [request, if_true, true_and]
        constructor
        · rintro (⟨other, holder, same, held, _⟩ | ⟨reply, code, text, _, delivered⟩)
          · cases directed.symm.trans same
            cases found.symm.trans held
          · exact (delivered_send_iff.mp delivered).2.2
        · intro takes
          exact .inr ⟨_, _, _, rfl, delivered_send_iff.mpr ⟨rfl, rfl, takes⟩⟩
      · simp only [request, Bool.false_eq_true, if_false, false_and, iff_false]
        rintro (⟨_, _, same, held, _⟩ | ⟨_, _, _, _, delivered⟩)
        · cases directed.symm.trans same
          cases found.symm.trans held
        · exact not_delivered_self delivered

theorem not_routed_of_identify
    (taken : Hub.step toLowercase hub (.identify index (.text parsed)) = some after)
    (decoded : decode parsed = .ok envelope) (directed : (directedTo envelope.message).isSome) :
    ¬ Routed hub index envelope after.connections := by
  have unidentified : ∀ connectionId,
      identify hub.registry (.text parsed) index connectionId = none := by
    intro _
    obtain ⟨version, messageId, message⟩ := envelope
    simp only [identify, decoded]
    cases message with
    | heartbeat => cases directed
    | _ => rfl
  simp only [Hub.step, unidentified] at taken
  split at taken
  · rename_i connection found
    split at taken
    · cases taken
      have lost : ∀ tx sent, ¬ Delivered hub.connections tx sent
          (hub.update index { connection with phase := .closed, writerRuns := false }) := by
        intro tx _ delivered
        have arrived := delivered
        obtain ⟨holder, held, _⟩ := arrived
        by_cases own : index = tx
        · subst own
          cases found.symm.trans held
          have here : (hub.update index
              { connection with phase := .closed, writerRuns := false })[index]? =
              some { connection with phase := .closed, writerRuns := false } :=
            List.getElem?_set_self (List.getElem?_eq_some_iff.mp found).1
          exact not_delivered_of_outbox held here rfl delivered
        · exact not_delivered_of_outbox held ((List.getElem?_set_ne own).trans held) rfl delivered
      rintro (⟨_, _, _, _, delivered⟩ | ⟨_, _, _, _, delivered⟩) <;> exact lost _ _ delivered
    · cases taken
  · cases taken

theorem routes_iff (taken : Hub.step toLowercase hub label = some after) : hub.Routes label after ↔
      hub.routing label := by
  cases label with
  | message _ frame =>
    cases frame with
    | text =>
      constructor
      · intro routes envelope decoded
        cases directed : directedTo envelope.message with
        | none => simp [Hub.routable, directed]
        | some =>
          have isDirected : (directedTo envelope.message).isSome := by rw [directed]; rfl
          exact (routed_iff taken decoded isDirected).mp (routes envelope decoded isDirected)
      · intro routing envelope decoded directed
        exact (routed_iff taken decoded directed).mpr (routing envelope decoded)
    | other => exact Iff.rfl
  | identify _ frame =>
    cases frame with
    | text =>
      constructor
      · intro routes envelope decoded
        by_contra directed
        have directed := Option.isSome_iff_ne_none.mpr directed
        exact not_routed_of_identify taken decoded directed (routes envelope decoded directed)
      · intro routing envelope decoded directed
        rw [routing envelope decoded] at directed
        cases directed
    | other => exact Iff.rfl
  | accept | cleanup | writerEnds => exact Iff.rfl

/-- From any state of the relay, a run routes every directed message exactly when all of them
are routable. -/
theorem routes_of_run {labels : List HubLabel}
    (run : Execution (Hub.step toLowercase) anything hub labels after) :
    EveryStep (Hub.step toLowercase) Hub.Routes hub labels ↔
      Execution (Hub.step toLowercase) Hub.routing hub labels after :=
  run.everyStep_iff (fun _ => True) trivial (fun _ _ _ _ _ => trivial) fun _ _ _ _ taken =>
  routes_iff taken

theorem routing_twoNodes (hub : Hub) : ∀ label ∈ twoNodes, hub.routing label := by
  have undirected (index : Nat) (node : UInt8) :
      hub.routing (.identify index (sampleFrame (sampleHeartbeat (sampleUuid node) "1"))) := by
    intro _ decoded
    cases (show decode (.ok (.new .nil (sampleHeartbeat (sampleUuid node) "1"))) =
      _ from rfl).symm.trans decoded
    rfl
  simp only [twoNodes, List.forall_mem_cons]
  exact ⟨trivial, undirected 0 1, trivial, undirected 1 2, by simp⟩

/-- A request reaches the node that it is for. -/
theorem routes_of_request :
    ∃ before hub : Hub, Hub.step id before
      (.message 0 (sampleFrame (sampleRequest (sampleUuid 2))) ⟨.nil, before.registry.values⟩) =
        some hub ∧
      (hub.connections[1]?).map (·.outbox.length) = (before.connections[1]?).map
      (·.outbox.length + 1) ∧
      EveryStep (Hub.step id) Hub.Routes .new
        (twoNodes ++
          [.message 0 (sampleFrame (sampleRequest (sampleUuid 2)))
            ⟨.nil, before.registry.values⟩]) := by
  obtain ⟨before, run, good⟩ := exists_execution
    (fun hub => (hub.connections[1]?.map Connection.writerRuns = some true &&
      (hub.registry.lookup (sampleUuid 2)).map ConnectedNode.tx = some 1) &&
        receives 0 1 (sampleRequest (sampleUuid 2)) hub)
    (show (replayWhere (Hub.step id) (fun _ _ => true) Hub.new twoNodes).any _ = true by decide)
  simp only [Bool.and_eq_true, decide_eq_true_eq] at good
  obtain ⟨⟨runs, entry⟩, more⟩ := good
  obtain ⟨hub, taken, received⟩ := (Option.any_eq_true _ _).mp more
  refine ⟨before, hub, taken, of_decide_eq_true received, ?_⟩
  have routing := (run.allow routing_twoNodes).append (.single ?_ taken)
  · exact (routes_of_run routing.plain).mpr routing
  · intro _ decoded
    obtain ⟨connection, found, runs⟩ := Option.map_eq_some_iff.mp runs
    obtain ⟨_, listed, tx⟩ := Option.map_eq_some_iff.mp entry
    cases (show decode (.ok (.new .nil (sampleRequest (sampleUuid 2)))) = _ from rfl).symm.trans decoded
    simp only [Hub.routable, sampleRequest, directedTo, Envelope.new, listed, tx]
    exact ⟨trivial, connection, found, runs⟩

def sampleResult (target : NodeId) : Message :=
  .taskResult
    { taskId := .nil, sender := sampleUuid 1, target := some target, status := .completed,
      result := .null, error := none
      completedAt := 0 }

/-- A result for a node that is not connected is lost. -/
theorem result_unrouted :
    ∃ (labels : List HubLabel) (hub : Hub), Execution (Hub.step id) anything .new labels hub ∧
      ¬ EveryStep (Hub.step id) Hub.Routes .new labels := by
  obtain ⟨before, run, good⟩ := exists_execution
    (fun hub => hub.registry.lookup (sampleUuid 2) = none ∧
      (Hub.step id hub (.message 0 (sampleFrame (sampleResult (sampleUuid 2)))
        ⟨.nil, hub.registry.values⟩)).isSome)
    (show (replayWhere (Hub.step id) (fun _ _ => true) Hub.new
      [.accept (sampleUuid 7), .identify 0 (sampleFrame (sampleHeartbeat (sampleUuid 1) "1"))]).any
        _ = true by decide)
  obtain ⟨absent, more⟩ := of_decide_eq_true good
  obtain ⟨hub, taken⟩ := Option.isSome_iff_exists.mp more
  refine ⟨_, hub, run.plain.append (.single trivial taken), fun every => ?_⟩
  have decoded : decode (.ok (.new .nil (sampleResult (sampleUuid 2)))) = .ok
      (.new .nil (sampleResult (sampleUuid 2))) := rfl
  have routed := every _ _ [] before hub rfl run.plain taken _ decoded rfl
  have routable := (routed_iff taken decoded rfl).mp routed
  simp [Hub.routable, sampleResult, directedTo, Envelope.new, absent, isRequest] at routable

end DistributedOs.Relay
