import DistributedOs.Relay.Ownership

/-! What a connection can do under another name. The relay knows whom a connection identified
as and goes by what its messages say instead, and it never calls `validate`. -/

namespace DistributedOs.Relay

open DistributedOs.Protocol Semantics
open Discovery (Uuid)

def claimedSender : Message → Option NodeId
  | .pairRequest request => some request.sender
  | .pairResponse response => some response.sender
  | .taskRequest request => some request.sender
  | .taskResult result => some result.sender
  | _ => none

/-- A message of the node leaves other nodes' entries alone, is sent on only as the node's and
only when valid, and is stored only when valid. -/
structure Confined (registry : Registry) (nodeId : NodeId) (parsed : Except String Envelope)
    (outcome : Registry × Option (Nat × Message)) : Prop where
  untouched : ∀ other ≠ nodeId, outcome.1.lookup other = registry.lookup other
  forwarded : ∀ channel message, outcome.2 = some (channel, message) → (directedTo message).isSome →
    claimedSender message = some nodeId ∧ validate message = .ok ()
  stored : ∀ envelope sender payload, decode parsed = .ok envelope →
    envelope.message = .heartbeat sender payload →
    (registry.lookup sender).isSome → validate envelope.message = .ok ()

/-- A heartbeat is for a node that is not connected, or it is valid and the sender's own or
changes nothing; a message to a connected node is valid and says it is from its sender. -/
def Honest (registry : Registry) (nodeId : NodeId) (parsed : Except String Envelope) : Prop :=
  ∀ envelope, decode parsed = .ok envelope →
    (∀ sender payload, envelope.message = .heartbeat sender payload →
      ∀ node, registry.lookup sender = some node →
      validate envelope.message = .ok () ∧ (sender = nodeId ∨ Registry.Repeats payload node)) ∧
    (∀ target, directedTo envelope.message = some (some target) → (registry.lookup target).isSome →
      claimedSender envelope.message = some nodeId ∧ validate envelope.message = .ok ())

variable {toLowercase : String → String} {registry : Registry} {nodeId : NodeId}
  {parsed : Except String Envelope} {tx : Nat} {values : List ConnectedNode} {envelope : Envelope}
  {hub after : Hub} {label : HubLabel}

theorem directedTo_targetOffline : directedTo targetOffline = none := rfl

/-- What is sent of a directed message that is directed itself is the message, to a connected node. -/
theorem forwarded_iff
    (decoded : decode parsed = .ok envelope)
    (directed : directedTo envelope.message = some target) :
    ((dispatch toLowercase registry parsed tx values).2 = some (channel, message) ∧
      (directedTo message).isSome) ↔
      message = envelope.message ∧ ∃ named node, target = some named ∧
      registry.lookup named = some node ∧ channel = node.tx := by
  rw [dispatch_directed decoded directed]
  cases target with
  | none => simp
  | some named =>
    simp only [Option.map_some, Registry.getTx]
    cases found : registry.lookup named with
    | none =>
      by_cases request : isRequest envelope.message <;> simp [request, found]
      rintro _ rfl
      simp [directedTo_targetOffline]
    | some node =>
      simp only [Option.map_some, Option.some.injEq, Prod.mk.injEq]
      constructor
      · rintro ⟨⟨rfl, rfl⟩, _⟩
        exact ⟨rfl, named, node, rfl, found, rfl⟩
      · rintro ⟨rfl, _, _, rfl, here, rfl⟩
        cases found.symm.trans here
        exact ⟨⟨rfl, rfl⟩, by rw [directed]; rfl⟩

theorem confined_of_malformed (failed : decode parsed = .error error) :
    Confined registry nodeId parsed (dispatch toLowercase registry parsed tx values) := by
  rw [dispatch_malformed failed]
  refine ⟨fun _ _ => rfl, ?_, ?_⟩
  · intro _ _ same directed
    cases same
    cases directed
  · intro _ _ _ decoded
    cases failed.symm.trans decoded

theorem confined_iff_directed (decoded : decode parsed = .ok envelope)
    (directed : directedTo envelope.message = some target) :
    Confined registry nodeId parsed (dispatch toLowercase registry parsed tx values) ↔
      ∀ named, target = some named → (registry.lookup named).isSome →
        claimedSender envelope.message = some nodeId ∧ validate envelope.message = .ok () := by
  constructor
  · intro confined named here found
    obtain ⟨node, found⟩ := Option.isSome_iff_exists.mp found
    have sent : (dispatch toLowercase registry parsed tx values).2 = some (node.tx, envelope.message) ∧
        (directedTo envelope.message).isSome :=
      (forwarded_iff decoded directed).mpr ⟨rfl, named, node, here, found, rfl⟩
    exact confined.forwarded _ _ sent.1 sent.2
  · intro honest
    refine ⟨?_, ?_, ?_⟩
    · intro other _
      rw [dispatch_directed decoded directed]
    · intro _ _ sent isDirected
      obtain ⟨rfl, named, _, here, found, _⟩ := (forwarded_iff decoded directed).mp ⟨sent, isDirected⟩
      exact honest named here (by rw [found]; rfl)
    · intro _ _ _ same beat
      cases decoded.symm.trans same
      rw [beat] at directed
      cases directed

/-- Only a heartbeat of a known node stores anything. -/
theorem confined_iff_undirected (decoded : decode parsed = .ok envelope)
    (undirected : directedTo envelope.message = none) :
    Confined registry nodeId parsed (dispatch toLowercase registry parsed tx values) ↔
      ∀ sender payload, envelope.message = .heartbeat sender payload →
      ∀ node, registry.lookup sender = some node →
        validate envelope.message = .ok () ∧ (sender = nodeId ∨ Registry.Repeats payload node) := by
  obtain ⟨_, dispatched, own⟩ := @dispatch_undirected toLowercase registry parsed tx values envelope
    decoded undirected
  rw [dispatched]
  constructor
  · intro confined sender payload beat node found
    refine ⟨confined.stored envelope sender payload decoded beat (by rw [found]; rfl), ?_⟩
    by_cases mine : sender = nodeId
    · exact .inl mine
    · right
      have same := confined.untouched sender mine
      rw [beat, Registry.lookup_updateHeartbeat, if_pos rfl, found, Option.map_some] at same
      exact Registry.heartbeat_eq_iff.mp (Option.some.inj same)
  · intro honest
    refine ⟨?_, ?_, ?_⟩
    · intro other different
      cases message : envelope.message with
      | heartbeat _ payload =>
        simp only
        rw [Registry.lookup_updateHeartbeat]
        split
        · rename_i same
          subst same
          cases found : registry.lookup other with
          | none => rfl
          | some node =>
            have kept := (honest other payload message node found).2.resolve_left different
            rw [Option.map_some, Registry.heartbeat_eq_iff.mpr kept]
        · rfl
      | _ => rfl
    · intro channel message sent isDirected
      rw [(own channel message sent).2] at isDirected
      cases isDirected
    · intro _ sender payload same beat found
      cases decoded.symm.trans same
      obtain ⟨node, found⟩ := Option.isSome_iff_exists.mp found
      exact (honest sender payload beat node found).1

/-- The relay confines a message exactly when the message confines itself. -/
theorem confined_iff :
    Confined registry nodeId parsed (dispatch toLowercase registry parsed tx values) ↔
      Honest registry nodeId parsed := by
  cases decoded : decode parsed with
  | error =>
    refine ⟨fun _ envelope same => ?_, fun _ => confined_of_malformed decoded⟩
    cases decoded.symm.trans same
  | ok envelope =>
    cases directed : directedTo envelope.message with
    | some =>
      rw [confined_iff_directed decoded directed]
      constructor
      · intro honest other same
        cases decoded.symm.trans same
        refine ⟨?_, fun named here => honest named (Option.some.inj (directed.symm.trans here))⟩
        intro _ _ beat
        rw [beat] at directed
        cases directed
      · intro honest named here
        exact (honest envelope decoded).2 named (here ▸ directed)
    | none =>
      rw [confined_iff_undirected decoded directed]
      constructor
      · intro honest _ same
        cases decoded.symm.trans same
        refine ⟨honest, fun named here => ?_⟩
        cases directed.symm.trans here
      · intro honest
        exact (honest envelope decoded).1

/-- The same of a step: a message of a node is confined to it, and the heartbeat that
identifies a connection is stored under its own name, and only when valid. -/
def Hub.Confines (toLowercase : String → String) (hub : Hub) (label : HubLabel)
    (after : Hub) : Prop :=
  match label with
  | .message index (.text parsed) choice =>
    ∀ connection nodeId, hub.connections[index]? = some connection → connection.phase = .serving nodeId →
      Confined hub.registry nodeId parsed
        (after.registry, (dispatch toLowercase hub.registry parsed index choice.values).2)
  | .identify _ (.text parsed) =>
    ∀ envelope sender payload, decode parsed = .ok envelope →
    envelope.message = .heartbeat sender payload →
      (∀ other ≠ sender, after.registry.lookup other = hub.registry.lookup other) ∧
        validate envelope.message = .ok ()
  | _ => True

def Hub.honest (hub : Hub) : HubLabel → Prop
  | .message index (.text parsed) _ =>
    ∀ connection nodeId, hub.connections[index]? = some connection → connection.phase = .serving nodeId →
      Honest hub.registry nodeId parsed
  | .identify _ (.text parsed) =>
    ∀ envelope sender payload, decode parsed = .ok envelope →
    envelope.message = .heartbeat sender payload →
      validate envelope.message = .ok ()
  | _ => True

theorem registry_of_identify
    (taken : Hub.step toLowercase hub (.identify index (.text parsed)) = some after)
    (decoded : decode parsed = .ok envelope) (beat : envelope.message = .heartbeat sender payload)
    (different : other ≠ sender) :
    after.registry.lookup other = hub.registry.lookup other := by
  obtain ⟨_, _, _⟩ := envelope
  cases beat
  simp only [Hub.step, identify, decoded] at taken
  split at taken
  · split at taken
    · cases taken
      exact AList.lookup_insert_ne different
    · cases taken
  · cases taken

/-- A step is confined exactly when it is honest. -/
theorem confines_iff (taken : Hub.step toLowercase hub label = some after) :
    hub.Confines toLowercase label after ↔ hub.honest label := by
  cases label with
  | message _ frame =>
    cases frame with
    | text =>
      obtain ⟨_, _, _, _, rfl⟩ := Hub.of_message taken
      unfold Hub.Confines Hub.honest
      refine forall_congr' fun connection => forall_congr' fun nodeId => imp_congr_right fun _ => ?_
      exact imp_congr_right fun _ => confined_iff
    | other => exact Iff.rfl
  | identify _ frame =>
    cases frame with
    | text =>
      constructor
      · intro confines envelope sender payload decoded beat
        exact (confines envelope sender payload decoded beat).2
      · intro honest envelope sender payload decoded beat
        exact ⟨fun other different => registry_of_identify taken decoded beat different,
          honest envelope sender payload decoded beat⟩
    | other => exact Iff.rfl
  | accept | cleanup | writerEnds => exact Iff.rfl

/-- A run of the relay confines every connection to the node it identified as exactly when all
its messages are honest. -/
theorem confines_of_run {labels : List HubLabel}
    (run : Execution (Hub.step toLowercase) anything hub labels after) :
    EveryStep (Hub.step toLowercase) (Hub.Confines toLowercase) hub labels ↔
      Execution (Hub.step toLowercase) Hub.honest hub labels after :=
  run.everyStep_iff (fun _ => True) trivial (fun _ _ _ _ _ => trivial) fun _ _ _ _ taken =>
  confines_iff taken

def sampleRequest (target : NodeId) : Message :=
  .taskRequest
    { taskId := .nil, sender := sampleUuid 1, target := some target, kind := "ping"
      payload := .null }

def twoNodes : List HubLabel :=
  [.accept (sampleUuid 7), .identify 0 (sampleFrame (sampleHeartbeat (sampleUuid 1) "1")),
    .accept (sampleUuid 8),
   .identify 1 (sampleFrame (sampleHeartbeat (sampleUuid 2) "1"))]

theorem honest_twoNodes (hub : Hub) : ∀ label ∈ twoNodes, hub.honest label := by
  have valid (index : Nat) (node : UInt8)
    (sound : validate (sampleHeartbeat (sampleUuid node) "1") = .ok ()) :
      hub.honest (.identify index (sampleFrame (sampleHeartbeat (sampleUuid node) "1"))) := by
    intro _ _ _ decoded _
    cases (show decode (.ok (.new .nil (sampleHeartbeat (sampleUuid node) "1"))) =
      _ from rfl).symm.trans decoded
    exact sound
  simp only [twoNodes, List.forall_mem_cons]
  exact ⟨trivial, valid 0 1 (by decide), trivial, valid 1 2 (by decide), by simp⟩

/-- The relay takes the message of a node and puts one more envelope on the channel of the
connection. -/
def receives (index tx : Nat) (message : Message) (hub : Hub) : Bool :=
  (Hub.step id hub (.message index (sampleFrame message) ⟨.nil, hub.registry.values⟩)).any fun after =>
    (after.connections[tx]?).map (·.outbox.length) = (hub.connections[tx]?).map (·.outbox.length + 1)

/-- One of two nodes sends the other one a request. -/
theorem confines_of_request :
    ∃ before hub : Hub, Hub.step id before
      (.message 0 (sampleFrame (sampleRequest (sampleUuid 2))) ⟨.nil, before.registry.values⟩) =
        some hub ∧
      (hub.connections[1]?).map (·.outbox.length) = (before.connections[1]?).map
      (·.outbox.length + 1) ∧
      EveryStep (Hub.step id) (Hub.Confines id) .new
        (twoNodes ++
          [.message 0 (sampleFrame (sampleRequest (sampleUuid 2)))
            ⟨.nil, before.registry.values⟩]) := by
  obtain ⟨before, run, good⟩ := exists_execution
    (fun hub => hub.connections[0]?.map Connection.phase = some (.serving (sampleUuid 1)) &&
      receives 0 1 (sampleRequest (sampleUuid 2)) hub)
    (show (replayWhere (Hub.step id) (fun _ _ => true) Hub.new twoNodes).any _ = true by decide)
  rw [Bool.and_eq_true, decide_eq_true_eq] at good
  obtain ⟨hub, taken, received⟩ := (Option.any_eq_true _ _).mp good.2
  refine ⟨before, hub, taken, of_decide_eq_true received, ?_⟩
  have honest := (run.allow honest_twoNodes).append (.single ?_ taken)
  · exact (confines_of_run honest.plain).mpr honest
  · intro _ _ here own _ decoded
    obtain ⟨_, found, phase⟩ := Option.map_eq_some_iff.mp good.1
    cases found.symm.trans here
    cases phase.symm.trans own
    cases (show decode (.ok (.new .nil (sampleRequest (sampleUuid 2)))) = _ from rfl).symm.trans decoded
    refine ⟨?_, fun target directed _ => ⟨rfl, by decide⟩⟩
    intro _ _ beat
    cases beat

/-- Another node's heartbeat changes that node's entry. -/
theorem heartbeat_unconfined :
    ∃ (labels : List HubLabel) (hub : Hub), Execution (Hub.step id) anything .new labels hub ∧
      ¬ EveryStep (Hub.step id) (Hub.Confines id) .new labels := by
  obtain ⟨before, run, good⟩ := exists_execution
    (fun hub => (hub.connections[0]?.map Connection.phase) = some (.serving (sampleUuid 1)) ∧
      (hub.registry.lookup (sampleUuid 2)).map ConnectedNode.version = some "1" ∧
      ((Hub.step id hub (.message 0 (sampleFrame (sampleHeartbeat (sampleUuid 2) "2"))
        ⟨.nil, hub.registry.values⟩)).any
        fun after => (after.registry.lookup (sampleUuid 2)).map ConnectedNode.version = some "2"))
    (show (replayWhere (Hub.step id) (fun _ _ => true) Hub.new twoNodes).any _ = true by decide)
  obtain ⟨serving, earlier, changed⟩ := of_decide_eq_true good
  obtain ⟨after, taken, later⟩ := (Option.any_eq_true _ _).mp changed
  obtain ⟨connection, found, phase⟩ := Option.map_eq_some_iff.mp serving
  refine ⟨_, after, run.plain.append (.single trivial taken), fun every => ?_⟩
  have confined := every _ _ [] before after rfl run.plain taken connection (sampleUuid 1) found phase
  have untouched := confined.untouched (sampleUuid 2) (by decide)
  rw [untouched, earlier] at later
  simp at later

end DistributedOs.Relay
