import DistributedOs.Relay.Provenance
import DistributedOs.Tasks.ClientTask
import DistributedOs.Tasks.Executions

/-! The commands of the command line tool, from the tool over the relay to the node that executes
them, and back. The tool takes the first result that comes for one of its own, without a look at its
id. -/

namespace DistributedOs.Runtime

open DistributedOs.Protocol Relay Semantics Tasks
open DistributedOs.Protocol.Wire (NetworkError)

/-- A command has a connection of its own and, at the end, an answer; a node is an agent. -/
inductive Role where
  | command (request : TaskRequest) (answer : Option (Except TaskError Json))
  | node (agent : Agent)

/-- Who is connected. Of what it has sent the relay has taken `delivered`, and of what the relay
sends it has read `read`. -/
structure Member where
  nodeId : NodeId
  role : Role
  sent : List Envelope
  delivered : Nat
  read : Nat

/-- The members are numbered as their connections are. -/
structure Network where
  hub : Hub
  members : List Member

inductive NetworkLabel where
  | command (connectionId messageId : Discovery.Uuid) (nodeId : NodeId) (payload : HeartbeatPayload)
    (taskId : TaskId)
      (target : NodeId) (kind : String) (arguments : Json)
  | node (connectionId messageId : Discovery.Uuid) (nodeId : NodeId) (payload : HeartbeatPayload)
  | request (index : Nat) (messageId : Discovery.Uuid)
  | sendFails (index : Nat) (error : NetworkError)
  | deliver (index : Nat) (choice : DispatchChoice)
  | hub (label : HubLabel)
  | act (index : Nat) (label : AgentLabel) (messageId : Discovery.Uuid)
  | say (index : Nat) (envelope : Envelope)
  | read (index : Nat)
  | closed (index : Nat)

/-- What the `execute` of the tool's tasks returns for a message, unless it waits for more. -/
def clientAnswer : Message → Option (Except TaskError Json)
  | .taskResult res => some (.ok res.result)
  | .error code message => some (.error (.executionFailed (code ++ ": " ++ message)))
  | _ => none

/-- What a node says besides its results: heartbeats of its own, and anything that is no task. -/
def sayable (nodeId : NodeId) : Message → Bool
  | .heartbeat sender _ => sender = nodeId
  | .taskRequest _ | .taskResult _ => false
  | _ => true

def Member.new (messageId : Discovery.Uuid) (nodeId : NodeId) (payload : HeartbeatPayload)
    (role : Role) : Member :=
  { nodeId, role, sent := [.new messageId (.heartbeat nodeId payload)], delivered := 0, read := 0 }

def Member.isCommand (member : Member) : Bool :=
  match member.role with
  | .command _ _ => true
  | .node _ => false

namespace Network

def new : Network := { hub := .new, members := [] }

/-- The steps of the hub that are about no frame of a member. -/
def frameless : HubLabel → Bool
  | .identify _ .other | .message _ .other _ | .cleanup _ | .writerEnds _ => true
  | .accept _ | .identify _ (.text _) | .message _ (.text _) _ => false

section Step

variable (toLowercase : String → String) (codecs : Codecs) (registry : TaskRegistry)

def join (network : Network) (connectionId : Discovery.Uuid) (member : Member) : Option Network :=
  (network.hub.step toLowercase (.accept connectionId)).map fun hub =>
  { hub, members := network.members ++ [member] }

def update (network : Network) (index : Nat) (member : Member) : Network :=
  { network with members := network.members.set index member }

def nextMessage (network : Network) (index : Nat) (member : Member) : Option Envelope :=
  match network.hub.connections[index]? with
  | some connection => connection.outbox[member.read]?
  | none => none

def nextFrame (network : Network) (index : Nat) (member : Member) (choice : DispatchChoice) :
    Option HubLabel :=
  match member.sent[member.delivered]?, network.hub.connections[index]? with
  | some envelope, some connection =>
    if connection.phase = .identifying then some (.identify index (.text (.ok envelope)))
    else some (.message index (.text (.ok envelope)) choice)
  | _, _ => none

def step (network : Network) : NetworkLabel → Option Network
  | .command connectionId messageId nodeId payload taskId target kind arguments =>
    network.join toLowercase connectionId
      (.new messageId nodeId payload
        (.command (taskRequest taskId nodeId (some target) kind arguments) none))
  | .node connectionId messageId nodeId payload =>
    network.join toLowercase connectionId (.new messageId nodeId payload (.node (.new nodeId)))
  | .request index messageId =>
    match network.members[index]? with
    | some member =>
      match member.role with
      | .command request none =>
        if member.sent.length = 1 then
          some (network.update index
            { member with sent := member.sent ++ [.new messageId (.taskRequest request)] })
        else none
      | _ => none
    | none => none
  | .sendFails index error =>
    -- the channel to the write task is closed; what has passed it is lost if it is never delivered
    match network.members[index]? with
    | some member =>
      match member.role with
      | .command request none =>
        if member.sent.length = 1 then
          some (network.update index
            { member with role := .command request (some (.error (.executionFailed (networkErrorText error)))) })
        else none
      | _ => none
    | none => none
  | .deliver index choice =>
    match network.members[index]? with
    | some member =>
      match network.nextFrame index member choice with
      | some label =>
        (network.hub.step toLowercase label).map fun hub =>
          { hub, members := network.members.set index { member with delivered := member.delivered + 1 } }
      | none => none
    | none => none
  | .hub label =>
    if frameless label then (network.hub.step toLowercase label).map fun hub => { network with hub }
    else none
  | .act index label messageId =>
    match network.members[index]? with
    | some member =>
      match member.role, label with
      | .node _, .receive _ => none
      | .node agent, label =>
        (agent.step codecs registry label).map fun later =>
          network.update index
            { member with
              role := .node later
              sent := member.sent ++ (later.sent.drop agent.sent.length).map fun entry =>
                .new messageId (.taskResult entry.2) }
      | _, _ => none
    | none => none
  | .say index envelope =>
    match network.members[index]? with
    | some member =>
      match member.role with
      | .node _ =>
        if sayable member.nodeId envelope.message then
          some (network.update index { member with sent := member.sent ++ [envelope] })
        else none
      | _ => none
    | none => none
  | .read index =>
    match network.members[index]? with
    | some member =>
      match network.nextMessage index member with
      | some envelope =>
        match member.role, envelope.message with
        | .command request none, message =>
          some (network.update index { member with
            role := .command request (clientAnswer message), read := member.read + 1 })
        | .command _ (some _), _ => none
        | .node agent, .taskRequest request =>
          (agent.step codecs registry (.receive request)).map fun later =>
            network.update index { member with role := .node later, read := member.read + 1 }
        | .node _, _ => some (network.update index { member with read := member.read + 1 })
      | none => none
    | none => none
  | .closed index =>
    match network.members[index]? with
    | some member =>
      match member.role with
      | .command request none =>
        some (network.update index
          { member with role := .command request (some (.error (.executionFailed "Connection closed"))) })
      | _ => none
    | none => none

end Step

/-- The id of a command is a random one, so no one else has it. -/
def fresh (network : Network) : NetworkLabel → Prop
  | .command _ _ nodeId _ _ _ _ _ => ∀ member ∈ network.members, member.nodeId ≠ nodeId
  | .node _ _ nodeId _ => ∀ member ∈ network.members, member.isCommand → member.nodeId ≠ nodeId
  | _ => True

end Network

variable {toLowercase : String → String} {codecs : Codecs} {registry : TaskRegistry}
  {network after : Network} {label : NetworkLabel} {member later : Member} {index : Nat}
  {request : TaskRequest} {envelope : Envelope}

/-- A command sends its heartbeat and its request, a node besides heartbeats its results and what is
no task. -/
structure Member.Sends (member : Member) (envelope : Envelope) : Prop where
  well : envelope.isCompatible = true ∨ ∃ agent, member.role = .node agent
  own : match envelope.message with
    | .heartbeat sender _ => sender = member.nodeId
    | .taskRequest request => ∃ answer, member.role = .command request answer
    | .taskResult result => ∃ agent, member.role = .node agent ∧ ∃ entry ∈ agent.sent, entry.2 = result
    | _ => ∃ agent, member.role = .node agent

structure Member.Later (before after : Member) : Prop where
  nodeId : after.nodeId = before.nodeId
  command : ∀ request answer, before.role = .command request answer →
    ∃ later, after.role = .command request later
  node : ∀ agent, before.role = .node agent → ∃ later, after.role = .node later ∧ agent.Grown later

theorem Member.Later.refl (member : Member) : member.Later member :=
  ⟨rfl, fun _ answer role => ⟨answer, role⟩, fun agent role => ⟨agent, role, .same rfl rfl rfl rfl⟩⟩

theorem Member.Later.role (nodeId : later.nodeId = member.nodeId)
    (role : later.role = member.role) : member.Later later :=
  ⟨nodeId, fun _ answer same => ⟨answer, role.trans same⟩, fun agent same =>
    ⟨agent, role.trans same, .same rfl rfl rfl rfl⟩⟩

theorem Member.Later.command_of (grown : member.Later later)
    (role : later.role = .command request answer) :
    ∃ before, member.role = .command request before := by
  cases was : member.role with
  | command asked before =>
    obtain ⟨further, same⟩ := grown.command asked before was
    cases role.symm.trans same
    exact ⟨before, rfl⟩
  | node agent =>
    obtain ⟨_, same, _⟩ := grown.node agent was
    cases role.symm.trans same

theorem Member.Sends.grow (sends : member.Sends envelope) (grown : member.Later later) :
    later.Sends envelope := by
  have node (isNode : ∃ agent, member.role = .node agent) : ∃ agent, later.role = .node agent := by
    obtain ⟨agent, role⟩ := isNode
    obtain ⟨further, role, _⟩ := grown.node agent role
    exact ⟨further, role⟩
  refine ⟨sends.well.imp_right node, ?_⟩
  have own := sends.own
  cases message : envelope.message with
  | heartbeat =>
    rw [message] at own
    exact own.trans grown.nodeId.symm
  | taskRequest request =>
    rw [message] at own
    obtain ⟨answer, role⟩ := own
    exact grown.command request answer role
  | taskResult =>
    rw [message] at own
    obtain ⟨agent, role, entry, sent, same⟩ := own
    obtain ⟨further, role, grown⟩ := grown.node agent role
    exact ⟨further, role, entry, grown.sent.subset sent, same⟩
  | heartbeatAck | pairRequest | pairResponse | searchRequest | searchResponse | deviceListRequest
    | deviceListResponse | session
  | error =>
    rw [message] at own
    exact node own

namespace Network

def Asks (network : Network) (request : TaskRequest) : Prop :=
  ∃ member ∈ network.members, ∃ answer, member.role = .command request answer

def Answers (network : Network) (result : TaskResult) : Prop :=
  ∃ member ∈ network.members, ∃ agent, member.role = .node agent ∧ ∃ entry ∈ agent.sent, entry.2 = result

def Hears (network : Network) (member : Member) : Message → Prop
  | .taskRequest request => request.target = some member.nodeId ∧ network.Asks request
  | .taskResult result => result.target = some member.nodeId ∧ network.Answers result
  | .error code text => Message.error code text = targetOffline ∨ ∃ agent, member.role = .node agent
  | _ => True

/-- What a command may return. -/
inductive Answered (codecs : Codecs) (registry : TaskRegistry) (network : Network)
    (request : TaskRequest) :
    Except TaskError Json → Prop where
  | executed {executor : Member} {agent : Agent} {outcome : Except TaskError Json}
    (present : executor ∈ network.members)
      (role : executor.role = .node agent) (target : request.target = some executor.nodeId)
      (ended : agent.Executed codecs registry request outcome) :
      Answered codecs registry network request (.ok (resultValue outcome))
  | offline : Answered codecs registry network request
    (.error (.executionFailed "target_offline: target node is not connected"))
  | closed : Answered codecs registry network request (.error (.executionFailed "Connection closed"))
  | unsent (error : NetworkError) :
      Answered codecs registry network request (.error (.executionFailed (networkErrorText error)))

def Grows (before after : Network) : Prop :=
  ∀ (index : Nat) (member : Member), before.members[index]? = some member →
    ∃ later, after.members[index]? = some later ∧ member.Later later

theorem Grows.mem (grows : network.Grows after) (present : member ∈ network.members) :
    ∃ later ∈ after.members, member.Later later := by
  obtain ⟨index, found⟩ := List.mem_iff_getElem?.mp present
  obtain ⟨later, there, grown⟩ := grows index member found
  exact ⟨later, List.mem_of_getElem? there, grown⟩

theorem Grows.same (members : after.members = network.members) : network.Grows after :=
  fun _ member found => ⟨member, by rw [members]; exact found, .refl member⟩

theorem Grows.update (found : network.members[index]? = some member) (grown : member.Later later)
    (members : after.members = network.members.set index later) : network.Grows after := by
  intro other before here
  rw [members]
  by_cases same : index = other
  · subst same
    cases found.symm.trans here
    exact ⟨later, List.getElem?_set_self (List.getElem?_eq_some_iff.mp found).1, grown⟩
  · exact ⟨before, (List.getElem?_set_ne same).trans here, .refl before⟩

theorem Asks.grow (asks : network.Asks request) (grows : network.Grows after) :
    after.Asks request := by
  obtain ⟨_, present, answer, role⟩ := asks
  obtain ⟨later, present, grown⟩ := grows.mem present
  exact ⟨later, present, grown.command request answer role⟩

theorem Answers.grow (answers : network.Answers result) (grows : network.Grows after) :
    after.Answers result := by
  obtain ⟨_, present, agent, role, entry, sent, same⟩ := answers
  obtain ⟨later, present, grown⟩ := grows.mem present
  obtain ⟨further, role, grown⟩ := grown.node agent role
  exact ⟨later, present, further, role, entry, grown.sent.subset sent, same⟩

theorem Hears.grow (hears : network.Hears member message) (grows : network.Grows after)
    (grown : member.Later later) :
    after.Hears later message := by
  cases message with
  | taskRequest => exact ⟨grown.nodeId ▸ hears.1, hears.2.grow grows⟩
  | taskResult => exact ⟨grown.nodeId ▸ hears.1, hears.2.grow grows⟩
  | error =>
    refine hears.imp_right ?_
    rintro ⟨agent, role⟩
    obtain ⟨further, role, _⟩ := grown.node agent role
    exact ⟨further, role⟩
  | heartbeat | heartbeatAck | pairRequest | pairResponse | searchRequest | searchResponse
    | deviceListRequest
  | deviceListResponse | session => trivial

theorem Answered.grow (answered : Answered codecs registry network request answer)
    (grows : network.Grows after) : Answered codecs registry after request answer := by
  cases answered with
  | executed present role target ended =>
    obtain ⟨_, present, grown⟩ := grows.mem present
    obtain ⟨_, role, grownAgent⟩ := grown.node _ role
    exact .executed present role (grown.nodeId ▸ target) (ended.grow grownAgent)
  | offline => exact .offline
  | closed => exact .closed
  | unsent error => exact .unsent error

/-- Entries of the registry are those of members under their own ids, no one has the id of a
command, and what is sent, on its way and answered comes from what was asked. -/
structure Kept (codecs : Codecs) (registry : TaskRegistry) (network : Network) : Prop where
  size : network.members.length = network.hub.connections.length
  owned : ∀ nodeId tx, network.hub.registry.getTx nodeId = some tx →
    ∃ member, network.members[tx]? = some member ∧ member.nodeId = nodeId
  alone : ∀ (first second : Nat) (one other : Member), network.members[first]? = some one →
    network.members[second]? = some other →
    ∀ request answer, one.role = .command request answer → one.nodeId = other.nodeId → first = second
  sender : ∀ member ∈ network.members, ∀ request answer, member.role = .command request answer →
    request.sender = member.nodeId
  sent : ∀ member ∈ network.members, ∀ envelope ∈ member.sent, member.Sends envelope
  heard : ∀ (index : Nat) (member : Member) (connection : Connection),
    network.members[index]? = some member →
    network.hub.connections[index]? = some connection → ∀ envelope ∈ connection.outbox,
    network.Hears member envelope.message
  nodes : ∀ member ∈ network.members, ∀ agent, member.role = .node agent → agent.nodeId = member.nodeId ∧
    agent.Genuine codecs registry ∧ ∀ request ∈ agent.requests,
    request.target = some member.nodeId ∧ network.Asks request
  answers : ∀ member ∈ network.members, ∀ request answer, member.role = .command request (some answer) →
    Answered codecs registry network request answer

theorem Kept.new : Kept codecs registry .new where
  size := rfl
  owned nodeId _ entry := by
    cases (AList.lookup_empty nodeId).symm.trans (Option.map_eq_some_iff.mp entry).choose_spec.1
  alone := fun _ _ _ _ found => nomatch found
  sender := fun _ present => nomatch present
  sent := fun _ present => nomatch present
  heard := fun _ _ _ found => nomatch found
  nodes := fun _ present => nomatch present
  answers := fun _ present => nomatch present

def Takes (network : Network) : HubLabel → Prop
  | .accept _ => False
  | .identify index (.text parsed) | .message index (.text parsed) _ =>
    ∃ member envelope, network.members[index]? = some member ∧ envelope ∈ member.sent ∧
    parsed = .ok envelope
  | _ => True

theorem Kept.hears_of_directed (kept : Kept codecs registry network)
    (found : network.members[index]? = some member) (sends : member.Sends envelope)
    (directed : directedTo envelope.message = some named)
    (owned : named.map network.hub.registry.getTx = some (some tx)) :
    ∃ receiver, network.members[tx]? = some receiver ∧ network.Hears receiver envelope.message := by
  have present := List.mem_of_getElem? found
  obtain ⟨nodeId, rfl, entry⟩ := Option.map_eq_some_iff.mp owned
  obtain ⟨receiver, there, same⟩ := kept.owned nodeId tx entry
  refine ⟨receiver, there, ?_⟩
  have own := sends.own
  cases carried : envelope.message with
  | taskRequest =>
    rw [carried] at own directed
    exact ⟨by rw [same]; exact Option.some.inj directed, member, present, own⟩
  | taskResult =>
    rw [carried] at own directed
    obtain ⟨agent, role, entry, answered⟩ := own
    exact ⟨by rw [same]; exact Option.some.inj directed, member, present, agent, role, entry, answered⟩
  | pairRequest | pairResponse => trivial
  | heartbeat | heartbeatAck | searchRequest | searchResponse | deviceListRequest
    | deviceListResponse | session | error =>
    rw [carried] at directed
    cases directed

/-- What the hub makes of a frame that a member has sent. -/
theorem Kept.hears_of_dispatch (kept : Kept codecs registry network)
    (found : network.members[index]? = some member) (sends : member.Sends envelope)
    (dispatched : (dispatch toLowercase network.hub.registry (.ok envelope) index values).2 =
      some (target, message)) :
    ∃ receiver, network.members[target]? = some receiver ∧ network.Hears receiver message := by
  cases decoded : decode (.ok envelope) with
  | error =>
    rw [dispatch_malformed decoded] at dispatched
    cases dispatched
    refine ⟨member, found, .inr (sends.well.resolve_left ?_)⟩
    intro compatible
    rw [decode, if_pos compatible] at decoded
    cases decoded
  | ok =>
    obtain rfl := Except.ok.inj (of_decode decoded)
    cases directed : directedTo envelope.message with
    | some =>
      rw [dispatch_directed decoded directed] at dispatched
      simp only at dispatched
      split at dispatched
      · rename_i owned
        cases dispatched
        exact kept.hears_of_directed found sends directed owned
      · split at dispatched
        · cases dispatched
          exact ⟨member, found, .inl rfl⟩
        · cases dispatched
      · cases dispatched
    | none =>
      unfold dispatch at dispatched
      rw [decoded] at dispatched
      obtain ⟨_, _, carried⟩ := envelope
      cases carried with
      | heartbeat | searchRequest | deviceListRequest =>
        cases dispatched
        exact ⟨member, found, trivial⟩
      | heartbeatAck | searchResponse | deviceListResponse | session | error => cases dispatched
      | pairRequest | pairResponse | taskRequest | taskResult => cases directed

theorem Kept.hubStep {hub : Hub} {act : HubLabel} (kept : Kept codecs registry network)
    (takes : network.Takes act) (taken : network.hub.step toLowercase act = some hub) :
    Kept codecs registry { network with hub } := by
  have size := length_of_step taken
  have grows : network.Grows { network with hub } := .same rfl
  refine ⟨?_, ?_, kept.alone, kept.sender, kept.sent, ?_, kept.nodes, ?_⟩
  · rw [kept.size, size]
    cases act with
    | accept => exact takes.elim
    | identify | message | cleanup | writerEnds => rfl
  · intro nodeId tx entry
    rcases getTx_of_step taken entry with before | ⟨envelope, _, rfl, beat⟩
    · exact kept.owned nodeId tx before
    · obtain ⟨member, sent, found, present, same⟩ := takes
      cases same
      have own := (kept.sent member (List.mem_of_getElem? found) envelope present).own
      rw [beat] at own
      exact ⟨member, found, own.symm⟩
  · intro index member _ found there envelope present
    rcases carried_of_step taken there present with ⟨before, here, held⟩ | ⟨_, _, _, rfl, dispatched⟩
    · exact kept.heard index member before found here envelope held
    · obtain ⟨sender, sent, from_, said, rfl⟩ := takes
      have sends := kept.sent sender (List.mem_of_getElem? from_) sent said
      obtain ⟨_, at_, hears⟩ := kept.hears_of_dispatch from_ sends dispatched
      cases found.symm.trans at_
      exact hears
  · intro member present request answer role
    exact (kept.answers member present request answer role).grow grows

theorem of_update (found : network.members[index]? = some member) (grown : member.Later later)
    (there : (network.update index later).members[other]? = some here) :
    ∃ before, network.members[other]? = some before ∧ before.Later here ∧
      ((other = index ∧ here = later ∧ before = member) ∨ here = before) := by
  by_cases same : index = other
  · subst same
    rw [update, List.getElem?_set_self (List.getElem?_eq_some_iff.mp found).1] at there
    cases there
    exact ⟨member, found, grown, .inl ⟨rfl, rfl, rfl⟩⟩
  · rw [update, List.getElem?_set_ne same] at there
    exact ⟨here, there, .refl here, .inr rfl⟩

/-- A step of one member, who only sends what a member of its kind does. -/
theorem Kept.update (kept : Kept codecs registry network)
    (found : network.members[index]? = some member) (grown : member.Later later)
    (sent : ∀ envelope ∈ later.sent, envelope ∈ member.sent ∨ later.Sends envelope)
    (nodes : ∀ agent, later.role = .node agent → agent.nodeId = later.nodeId ∧
      agent.Genuine codecs registry ∧
      ∀ request ∈ agent.requests, request.target = some later.nodeId ∧ network.Asks request)
    (answers : ∀ request answer, later.role = .command request (some answer) →
      Answered codecs registry network request answer) :
    Kept codecs registry (network.update index later) := by
  have grows : network.Grows (network.update index later) := .update found grown rfl
  have present := List.mem_of_getElem? found
  refine ⟨?_, ?_, ?_, ?_, ?_, ?_, ?_, ?_⟩
  · exact (List.length_set).trans kept.size
  · intro nodeId tx entry
    obtain ⟨before, there, same⟩ := kept.owned nodeId tx entry
    obtain ⟨further, there, grown⟩ := grows tx before there
    exact ⟨further, there, grown.nodeId.trans same⟩
  · intro first second _ _ here there request answer role same
    obtain ⟨before, here, grownOne, _⟩ := of_update found grown here
    obtain ⟨earlier, there, grownOther, _⟩ := of_update found grown there
    obtain ⟨was, role⟩ := grownOne.command_of role
    exact kept.alone first second before earlier here there request was role
      (grownOne.nodeId.symm.trans (same.trans grownOther.nodeId))
  · intro further inside request answer role
    obtain ⟨at_, there⟩ := List.mem_iff_getElem?.mp inside
    obtain ⟨before, there, grown, _⟩ := of_update found grown there
    obtain ⟨was, role⟩ := grown.command_of role
    exact (kept.sender before (List.mem_of_getElem? there) request was role).trans grown.nodeId.symm
  · intro further inside envelope frame
    obtain ⟨at_, there⟩ := List.mem_iff_getElem?.mp inside
    obtain ⟨before, there, grown, ⟨_, rfl, rfl⟩ | rfl⟩ := of_update found grown there
    · rcases sent envelope frame with old | new
      · exact (kept.sent before present envelope old).grow grown
      · exact new
    · exact kept.sent further (List.mem_of_getElem? there) envelope frame
  · intro at_ further connection there channel envelope inside
    obtain ⟨before, there, grown, _⟩ := of_update found grown there
    exact (kept.heard at_ before connection there channel envelope inside).grow grows grown
  · intro further inside agent role
    obtain ⟨at_, there⟩ := List.mem_iff_getElem?.mp inside
    obtain ⟨before, there, grown, ⟨_, rfl, rfl⟩ | rfl⟩ := of_update found grown there
    · have ⟨nodeId, genuine, asked⟩ := nodes agent role
      exact ⟨nodeId, genuine, fun request member => (asked request member).imp_right fun asks =>
        asks.grow grows⟩
    · have ⟨nodeId, genuine, asked⟩ := kept.nodes further (List.mem_of_getElem? there) agent role
      exact ⟨nodeId, genuine, fun request member => (asked request member).imp_right fun asks =>
        asks.grow grows⟩
  · intro further inside request answer role
    obtain ⟨_, there⟩ := List.mem_iff_getElem?.mp inside
    obtain ⟨_, there, grown, ⟨_, rfl, rfl⟩ | rfl⟩ := of_update found grown there
    · exact (answers request answer role).grow grows
    · exact (kept.answers further (List.mem_of_getElem? there) request answer role).grow grows

theorem Grows.join (members : after.members = network.members ++ [member]) :
    network.Grows after := by
  intro _ before found
  refine ⟨before, ?_, .refl before⟩
  rw [members, List.getElem?_append_left (List.getElem?_eq_some_iff.mp found).1]
  exact found

theorem of_join (found : (network.members ++ [member])[index]? = some later) :
    network.members[index]? = some later ∨ index = network.members.length ∧ later = member := by
  rcases Nat.lt_or_ge index network.members.length with inside | beyond
  · rw [List.getElem?_append_left inside] at found
    exact .inl found
  · rw [List.getElem?_append_right beyond] at found
    have last := List.mem_singleton.mp (List.mem_of_getElem? found)
    have within := (List.getElem?_eq_some_iff.mp found).1
    rw [List.length_singleton] at within
    exact .inr ⟨by omega, last⟩

/-- Someone new, whose id is no command's and, for a command, no one's. -/
theorem Kept.join (kept : Kept codecs registry network)
    (command : ∀ request answer, role = .command request answer →
      request.sender = nodeId ∧ answer = none ∧ ∀ member ∈ network.members, member.nodeId ≠ nodeId)
    (node : ∀ agent, role = .node agent → agent = .new nodeId)
    (apart : ∀ member ∈ network.members, ∀ request answer, member.role = .command request answer →
      member.nodeId ≠ nodeId)
    (taken : network.join toLowercase connectionId
      (.new messageId nodeId payload role) = some after) :
    Kept codecs registry after := by
  cases taken
  have grows : network.Grows
      { hub :=
          { network.hub with
            connections := network.hub.connections ++
              [{ connectionId, phase := .identifying, writerRuns := true, outbox := [] }] }
        members := network.members ++ [.new messageId nodeId payload role] } := .join rfl
  refine ⟨?_, ?_, ?_, ?_, ?_, ?_, ?_, ?_⟩
  · rw [List.length_append, List.length_append, kept.size]
    rfl
  · intro nodeId tx entry
    obtain ⟨before, there, same⟩ := kept.owned nodeId tx entry
    obtain ⟨further, there, grown⟩ := grows tx before there
    exact ⟨further, there, grown.nodeId.trans same⟩
  · intro first second one other here there request answer isCommand same
    rcases of_join here with here | ⟨rfl, rfl⟩ <;> rcases of_join there with there | ⟨rfl, rfl⟩
    · exact kept.alone first second one other here there request answer isCommand same
    · exact absurd same (apart one (List.mem_of_getElem? here) request answer isCommand)
    · exact absurd same.symm ((command request answer isCommand).2.2 other (List.mem_of_getElem? there))
    · rfl
  · intro member present request answer isCommand
    rcases List.mem_append.mp present with before | last
    · exact kept.sender member before request answer isCommand
    · obtain rfl := List.mem_singleton.mp last
      exact (command request answer isCommand).1
  · intro member present envelope sent
    rcases List.mem_append.mp present with before | last
    · exact kept.sent member before envelope sent
    · obtain rfl := List.mem_singleton.mp last
      obtain rfl := List.mem_singleton.mp sent
      exact ⟨.inl (decide_eq_true rfl), rfl⟩
  · intro index member connection found there envelope carried
    simp only at there
    rcases of_join found with before | ⟨last, _⟩
    · rw [List.getElem?_append_left (kept.size ▸ (List.getElem?_eq_some_iff.mp before).1)] at there
      exact (kept.heard index member connection before there envelope carried).grow grows (.refl member)
    · rw [last, kept.size, List.getElem?_concat_length] at there
      cases there
      cases carried
  · intro member present agent isNode
    rcases List.mem_append.mp present with before | last
    · have ⟨nodeId, genuine, asked⟩ := kept.nodes member before agent isNode
      exact ⟨nodeId, genuine, fun request taken => (asked request taken).imp_right fun asks =>
        asks.grow grows⟩
    · obtain rfl := List.mem_singleton.mp last
      obtain rfl := node agent isNode
      exact ⟨rfl, .new nodeId, fun _ taken => nomatch taken⟩
  · intro member present request answer isCommand
    rcases List.mem_append.mp present with before | last
    · exact (kept.answers member before request answer isCommand).grow grows
    · obtain rfl := List.mem_singleton.mp last
      cases (command request _ isCommand).2.1

theorem Kept.act (ids : KeepsIds registry) (kept : Kept codecs registry network)
    (found : network.members[index]? = some member) (role : member.role = .node agent)
    {label : AgentLabel} (taken : agent.step codecs registry label = some further)
    (asked : ∀ request, label = .receive request → request.target = some member.nodeId ∧
      network.Asks request)
    (nodeId : later.nodeId = member.nodeId) (isNode : later.role = .node further)
    (results : ∀ envelope ∈ later.sent, envelope ∈ member.sent ∨ ∃ entry ∈ further.sent,
      envelope.message = .taskResult entry.2) :
    Kept codecs registry (network.update index later) := by
  have ⟨sameId, genuine, requests⟩ := kept.nodes member (List.mem_of_getElem? found) agent role
  have ⟨grown, genuine⟩ := genuine.step ids taken
  refine kept.update found ⟨nodeId, ?_, ?_⟩ ?_ ?_ ?_
  · intro request answer isCommand
    cases role.symm.trans isCommand
  · intro before wasNode
    cases role.symm.trans wasNode
    exact ⟨further, isNode, grown⟩
  · intro envelope sent
    refine (results envelope sent).imp_right ?_
    rintro ⟨entry, made, message⟩
    exact ⟨.inr ⟨further, isNode⟩, by rw [message]; exact ⟨further, isNode, entry, made, rfl⟩⟩
  · intro _ same
    cases isNode.symm.trans same
    refine ⟨grown.nodeId.trans (sameId.trans nodeId.symm), genuine, ?_⟩
    intro request taking
    rw [nodeId]
    rw [Agent.requests_of_step taken] at taking
    rcases List.mem_append.mp taking with before | received
    · exact requests request before
    · cases label with
      | receive =>
        obtain rfl := List.mem_singleton.mp received
        exact asked request rfl
      | submit | dispatch | finish | panics | forward | writerEnds | close => cases received
  · intro _ _ isCommand
    cases isNode.symm.trans isCommand

theorem Kept.goOn (kept : Kept codecs registry network)
    (found : network.members[index]? = some member) (role : member.role = .command request none)
    (answered : ∀ result, answer = some result → Answered codecs registry network request result)
    (nodeId : later.nodeId = member.nodeId) (isCommand : later.role = .command request answer)
    (requested : ∀ envelope ∈ later.sent, envelope ∈ member.sent ∨
      ∃ messageId, envelope = .new messageId (.taskRequest request)) :
    Kept codecs registry (network.update index later) := by
  refine kept.update found ⟨nodeId, ?_, ?_⟩ ?_ ?_ ?_
  · intro asked _ wasCommand
    cases role.symm.trans wasCommand
    exact ⟨answer, isCommand⟩
  · intro agent wasNode
    cases role.symm.trans wasNode
  · intro envelope sent
    refine (requested envelope sent).imp_right ?_
    rintro ⟨_, rfl⟩
    exact ⟨.inl (decide_eq_true rfl), answer, isCommand⟩
  · intro _ isNode
    cases isCommand.symm.trans isNode
  · intro _ result same
    cases isCommand.symm.trans same
    exact answered result rfl

theorem Kept.same (kept : Kept codecs registry network)
    (found : network.members[index]? = some member) (nodeId : later.nodeId = member.nodeId)
    (role : later.role = member.role)
    (sent : ∀ envelope ∈ later.sent, envelope ∈ member.sent ∨ later.Sends envelope) :
    Kept codecs registry (network.update index later) := by
  have present := List.mem_of_getElem? found
  refine kept.update found (.role nodeId role) sent ?_ ?_
  · intro agent isNode
    rw [nodeId]
    exact kept.nodes member present agent (role.symm.trans isNode)
  · intro request answer isCommand
    exact kept.answers member present request answer (role.symm.trans isCommand)

theorem sends_of_sayable (role : member.role = .node agent)
    (good : sayable member.nodeId envelope.message = true) :
    member.Sends envelope := by
  refine ⟨.inr ⟨agent, role⟩, ?_⟩
  cases message : envelope.message with
  | heartbeat =>
    rw [message] at good
    exact of_decide_eq_true good
  | taskRequest | taskResult =>
    rw [message] at good
    cases good
  | heartbeatAck | pairRequest | pairResponse | searchRequest | searchResponse | deviceListRequest
    | deviceListResponse | session
  | error => exact ⟨agent, role⟩

theorem takes_of_nextFrame (found : network.members[index]? = some member)
    (next : network.nextFrame index member choice = some act) : network.Takes act := by
  unfold nextFrame at next
  split at next
  · rename_i envelope _ frame _
    have sent := List.mem_of_getElem? frame
    split at next
    · cases next
      exact ⟨member, envelope, found, sent, rfl⟩
    · cases next
      exact ⟨member, envelope, found, sent, rfl⟩
  · cases next

theorem takes_of_frameless (silent : frameless act = true) : network.Takes act := by
  cases act with
  | accept => cases silent
  | identify _ frame =>
    cases frame with
    | text => cases silent
    | other => trivial
  | message _ frame =>
    cases frame with
    | text => cases silent
    | other => trivial
  | cleanup | writerEnds => trivial

theorem Kept.hears_of_next (kept : Kept codecs registry network)
    (found : network.members[index]? = some member)
    (next : network.nextMessage index member = some envelope) :
    network.Hears member envelope.message := by
  unfold nextMessage at next
  split at next
  · rename_i connection there
    exact kept.heard index member connection found there envelope (List.mem_of_getElem? next)
  · cases next

/-- What a command makes of a message it hears is an answer to its own request. -/
theorem Kept.answered_of_hears (kept : Kept codecs registry network)
    (found : network.members[index]? = some member) (role : member.role = .command request none)
    (hears : network.Hears member message) (made : clientAnswer message = some answer) :
    Answered codecs registry network request answer := by
  have present := List.mem_of_getElem? found
  cases message with
  | taskResult result =>
    cases made
    obtain ⟨target, executor, inside, agent, isNode, entry, sent, rfl⟩ := hears
    have ⟨_, genuine, asked⟩ := kept.nodes executor inside agent isNode
    obtain ⟨other, _, _, executed, same⟩ := genuine.sent entry sent
    rw [same] at target ⊢
    -- the result is for the sender of a request that some command has, and no other has this id
    have ⟨_, _, _, here, _⟩ := executed
    obtain ⟨named, asker, among, before, isCommand⟩ := asked other (List.mem_of_getElem? here)
    have sender := kept.sender asker among other before isCommand
    obtain ⟨at_, there⟩ := List.mem_iff_getElem?.mp among
    have alone := kept.alone at_ index asker member there found other before isCommand
      (sender.symm.trans (Option.some.inj target))
    rw [alone, found] at there
    cases there
    cases role.symm.trans isCommand
    exact .executed inside isNode named executed
  | error =>
    cases made
    rcases hears with offline | ⟨_, isNode⟩
    · cases offline
      exact .offline
    · cases role.symm.trans isNode
  | heartbeat | heartbeatAck | pairRequest | pairResponse | taskRequest | searchRequest
    | searchResponse | deviceListRequest
  | deviceListResponse | session => cases made

theorem Kept.step (ids : KeepsIds registry) (kept : Kept codecs registry network)
    (fresh : network.fresh label)
    (taken : network.step toLowercase codecs registry label = some after) :
    Kept codecs registry after := by
  cases label with
  | command =>
    refine kept.join ?_ (fun _ isNode => by cases isNode)
      (fun member present _ _ _ => fresh member present) taken
    intro request answer isCommand
    cases isCommand
    exact ⟨rfl, rfl, fresh⟩
  | node =>
    refine kept.join (fun _ _ isCommand => by cases isCommand) ?_ ?_ taken
    · intro agent isNode
      exact (Role.node.inj isNode).symm
    · intro member present request answer role
      exact fresh member present (by rw [Member.isCommand, role])
  | request _ messageId =>
    simp only [Network.step] at taken
    split at taken
    · rename_i member found
      split at taken
      · rename_i request role
        split at taken
        · cases taken
          have waits : ∀ result, (none : Option (Except TaskError Json)) = some result →
              Answered codecs registry network request result := nofun
          refine kept.goOn found role waits rfl role ?_
          intro envelope sent
          exact (List.mem_append.mp sent).imp_right fun new => ⟨messageId, List.mem_singleton.mp new⟩
        · cases taken
      · cases taken
    · cases taken
  | sendFails _ error =>
    simp only [Network.step] at taken
    split at taken
    · rename_i member found
      split at taken
      · rename_i request role
        split at taken
        · cases taken
          refine kept.goOn found role ?_ rfl rfl (fun envelope sent => .inl sent)
          intro result same
          cases same
          exact .unsent error
        · cases taken
      · cases taken
    · cases taken
  | deliver =>
    simp only [Network.step] at taken
    split at taken
    · rename_i member found
      split at taken
      · rename_i act next
        obtain ⟨hub, stepped, rfl⟩ := Option.map_eq_some_iff.mp taken
        exact (kept.hubStep (takes_of_nextFrame found next) stepped).same found rfl rfl
          (fun envelope sent => .inl sent)
      · cases taken
    · cases taken
  | hub =>
    simp only [Network.step] at taken
    split at taken
    · rename_i silent
      obtain ⟨_, stepped, rfl⟩ := Option.map_eq_some_iff.mp taken
      exact kept.hubStep (takes_of_frameless silent) stepped
    · cases taken
  | act =>
    simp only [Network.step] at taken
    split at taken
    · rename_i member found
      split at taken
      · cases taken
      · rename_i agent role unreceived
        obtain ⟨further, stepped, rfl⟩ := Option.map_eq_some_iff.mp taken
        refine kept.act ids found role stepped
          (fun request same => absurd same (unreceived request)) rfl rfl ?_
        intro envelope sent
        refine (List.mem_append.mp sent).imp_right fun new => ?_
        obtain ⟨entry, made, rfl⟩ := List.mem_map.mp new
        exact ⟨entry, List.mem_of_mem_drop made, rfl⟩
      · cases taken
    · cases taken
  | say =>
    simp only [Network.step] at taken
    split at taken
    · rename_i member found
      split at taken
      · rename_i agent role
        split at taken
        · rename_i good
          cases taken
          refine kept.same found rfl rfl ?_
          intro other sent
          refine (List.mem_append.mp sent).imp_right fun new => ?_
          obtain rfl := List.mem_singleton.mp new
          exact (sends_of_sayable role good).grow (.role rfl rfl)
        · cases taken
      · cases taken
    · cases taken
  | read =>
    simp only [Network.step] at taken
    split at taken
    · rename_i member found
      split at taken
      · rename_i envelope next
        have hears := kept.hears_of_next found next
        split at taken
        · rename_i request role
          cases taken
          exact kept.goOn found role
            (fun answer made => kept.answered_of_hears found role hears made) rfl rfl
            (fun envelope sent => .inl sent)
        · cases taken
        · rename_i request role message
          obtain ⟨_, stepped, rfl⟩ := Option.map_eq_some_iff.mp taken
          rw [message] at hears
          refine kept.act ids found role stepped ?_ rfl rfl (fun envelope sent => .inl sent)
          intro _ same
          cases same
          exact hears
        · cases taken
          exact kept.same found rfl rfl (fun envelope sent => .inl sent)
      · cases taken
    · cases taken
  | closed =>
    simp only [Network.step] at taken
    split at taken
    · rename_i found
      split at taken
      · rename_i role
        cases taken
        refine kept.goOn found role ?_ rfl rfl (fun envelope sent => .inl sent)
        intro _ same
        cases same
        exact .closed
      · cases taken
    · cases taken

/-- In every run, however many commands and nodes come and go and whatever nodes say besides, a
command that ends with a result ends with that of its own request, as the node it names has executed
it. -/
theorem answered_of_run (ids : KeepsIds registry) {labels : List NetworkLabel}
    (run : Execution (Network.step toLowercase codecs registry) fresh .new labels network)
    (present : member ∈ network.members) {answer : Except TaskError Json}
    (role : member.role = .command request (some answer)) :
    Answered codecs registry network request answer := by
  have kept : Kept codecs registry network :=
    run.invariant (Kept codecs registry) (fun _ _ _ kept fresh taken => kept.step ids fresh taken) .new
  exact kept.answers member present request answer role

instance (network : Network) (label : NetworkLabel) : Decidable (network.fresh label) :=
  match label with
  | .command _ _ nodeId _ _ _ _ _ =>
    inferInstanceAs (Decidable (∀ member ∈ network.members, member.nodeId ≠ nodeId))
  | .node _ _ nodeId _ =>
    inferInstanceAs (Decidable (∀ member ∈ network.members, member.isCommand → member.nodeId ≠ nodeId))
  | .request .. | .sendFails .. | .deliver .. | .hub .. | .act .. | .say .. | .read .. | .closed .. =>
    isTrue trivial

def sampleBeat : HeartbeatPayload :=
  { cpuUsage := 0, memoryUsage := 0, batteryLevel := none, platform := .linux, version := "1",
    status := .online
    capabilities := [], timestamp := 0 }

def sampleRegistry : Relay.Registry :=
  let first := fun nodeId => Frame.text (.ok (.new .nil (.heartbeat nodeId sampleBeat)))
  match Relay.identify ∅ (first (sampleUuid 1)) 0 (sampleUuid 1) with
  | some (_, registry) =>
    ((Relay.identify registry (first (sampleUuid 2)) 1 (sampleUuid 2)).map Prod.snd).getD ∅
  | none => ∅

def samplePing : List NetworkLabel :=
  let choice := DispatchChoice.mk .nil sampleRegistry.values
  [.node (sampleUuid 1) .nil (sampleUuid 1) sampleBeat, .deliver 0 choice,
    .command (sampleUuid 2) .nil (sampleUuid 2) sampleBeat .nil (sampleUuid 1) "ping" .null,
    .deliver 1 choice,
    .request 1 .nil, .deliver 1 choice, .read 0, .act 0 .submit .nil, .act 0 .dispatch .nil,
    .act 0 (.finish 0 Agent.sampleProviders) .nil, .act 0 (.forward 0) .nil, .deliver 0 choice, .read 1]

def Member.hasAnswer (member : Member) : Bool :=
  match member.role with
  | .command _ (some _) => true
  | _ => false

theorem answered_of_samplePing :
    ∃ (network : Network) (member : Member) (request : TaskRequest) (answer : Except
      TaskError Json),
      Execution (step id sampleCodecs (agentRegistry fun _ => "")) fresh .new samplePing network ∧
      network.members[1]? = some member ∧ member.role = .command request (some answer) ∧
      Answered sampleCodecs (agentRegistry fun _ => "") network request answer := by
  obtain ⟨network, run, good⟩ := exists_execution
    (fun network => network.members[1]?.any Member.hasAnswer)
    (show (replayWhere (step id sampleCodecs (agentRegistry fun _ => ""))
      (fun network label => network.fresh label) .new
      samplePing).any _ = true by decide)
  have fresh := run.weaken fun _ _ => of_decide_eq_true
  obtain ⟨member, found, answered⟩ := (Option.any_eq_true _ _).mp good
  unfold Member.hasAnswer at answered
  split at answered
  · rename_i request answer role
    exact ⟨network, member, request, answer, fresh, found, role,
      answered_of_run (keepsIds_agentRegistry _) fresh (List.mem_of_getElem? found) role⟩
  · cases answered

end Network

end DistributedOs.Runtime
