import DistributedOs.Runtime.Commands
import Mathlib.Algebra.BigOperators.Fin
import Mathlib.Algebra.Order.BigOperators.Group.Finset

/-! How often a command is executed. Its request is sent once, every copy of it that reaches someone
is one that the relay has taken from it, and an agent executes what it receives once. -/

namespace DistributedOs.Runtime

open DistributedOs.Protocol Relay Semantics Tasks

variable {toLowercase : String → String} {codecs : Codecs} {registry : TaskRegistry}
  {network after : Network} {label : NetworkLabel} {hubRegistry : Relay.Registry}
  {member later : Member} {index : Nat} {nodeId : NodeId} {request : TaskRequest}
  {envelope : Envelope}

def asks (nodeId : NodeId) (envelope : Envelope) : Bool :=
  match envelope.message with
  | .taskRequest request => request.sender = nodeId
  | _ => false

def Member.received (nodeId : NodeId) (member : Member) : Nat :=
  match member.role with
  | .node agent => agent.requests.countP fun request => request.sender = nodeId
  | .command _ _ => 0

def Member.executions (nodeId : NodeId) (member : Member) : Nat :=
  match member.role with
  | .node agent => agent.executions nodeId
  | .command _ _ => 0

namespace Network

def reached (nodeId : NodeId) (network : Network) (index : Nat) : Nat :=
  match network.members[index]?, network.hub.connections[index]? with
  | some member, some connection =>
    member.received nodeId + (connection.outbox.drop member.read).countP (asks nodeId)
  | _, _ => 0

/-- The copies that the relay has taken from a member. -/
def passed (nodeId : NodeId) (network : Network) (index : Nat) : Nat :=
  match network.members[index]? with
  | some member => (member.sent.take member.delivered).countP (asks nodeId)
  | none => 0

/-- No copy is made on the way. -/
def Conserved (nodeId : NodeId) (network : Network) : Prop :=
  ∑ index ∈ Finset.range network.members.length, network.reached nodeId index ≤
    ∑ index ∈ Finset.range network.members.length, network.passed nodeId index

/-- Some copies pass from one member to another. -/
theorem Conserved.move (conserved : network.Conserved nodeId)
    (same : after.members.length = network.members.length)
    (inside : source < network.members.length)
    (arrives : ∀ index, after.reached nodeId index ≤
      network.reached nodeId index + if index = target then count else 0)
    (leaves : ∀ index, network.passed nodeId index + (if index = source then count else 0) ≤
      after.passed nodeId index) :
    after.Conserved nodeId := by
  unfold Conserved at conserved ⊢
  rw [same]
  have one (at_ : Nat) :
      ∑ index ∈ Finset.range network.members.length, (if index = at_ then count else 0) ≤ count := by
    rw [Finset.sum_ite_eq']
    split
    · exact Nat.le_refl _
    · exact Nat.zero_le _
  have all : ∑ index ∈ Finset.range network.members.length,
      (if index = source then count else 0) = count := by
    rw [Finset.sum_ite_eq', if_pos (Finset.mem_range.mpr inside)]
  calc ∑ index ∈ Finset.range network.members.length, after.reached nodeId index
      ≤ ∑ index ∈ Finset.range network.members.length,
      (network.reached nodeId index + if index = target then count else 0) :=
        Finset.sum_le_sum fun index _ => arrives index
    _ ≤ (∑ index ∈ Finset.range network.members.length, network.reached nodeId index) + count := by
        rw [Finset.sum_add_distrib]
        exact Nat.add_le_add_left (one target) _
    _ ≤ (∑ index ∈ Finset.range network.members.length, network.passed nodeId index) +
        count := Nat.add_le_add_right conserved _
    _ = ∑ index ∈ Finset.range network.members.length,
        (network.passed nodeId index + if index = source then count else 0) := by
        rw [Finset.sum_add_distrib, all]
    _ ≤ ∑ index ∈ Finset.range network.members.length,
        after.passed nodeId index := Finset.sum_le_sum fun index _ => leaves index

theorem Conserved.stay (conserved : network.Conserved nodeId)
    (same : after.members.length = network.members.length)
    (arrives : ∀ index, after.reached nodeId index ≤ network.reached nodeId index)
    (leaves : ∀ index, network.passed nodeId index ≤ after.passed nodeId index) :
    after.Conserved nodeId := by
  unfold Conserved at conserved ⊢
  rw [same]
  exact (Finset.sum_le_sum fun index _ => arrives index).trans
    (conserved.trans (Finset.sum_le_sum fun index _ => leaves index))

theorem reached_update_le (found : network.members[index]? = some member)
    (reads : ∀ connection, network.hub.connections[index]? = some connection →
      later.received nodeId + (connection.outbox.drop later.read).countP (asks nodeId) ≤
        member.received nodeId + (connection.outbox.drop member.read).countP (asks nodeId))
    (other : Nat) :
    (network.update index later).reached nodeId other ≤ network.reached nodeId other := by
  unfold reached Network.update
  by_cases same : index = other
  · subst same
    rw [List.getElem?_set_self (List.getElem?_eq_some_iff.mp found).1, found]
    split
    · rename_i connection here there
      cases here
      rw [there]
      exact reads connection there
    · exact Nat.zero_le _
  · rw [List.getElem?_set_ne same]

theorem passed_update_le (found : network.members[index]? = some member)
    (sends : (member.sent.take member.delivered).countP (asks nodeId) + more ≤
      (later.sent.take later.delivered).countP (asks nodeId))
    (other : Nat) :
    network.passed nodeId other + (if other = index then more else 0) ≤
      (network.update index later).passed nodeId other := by
  unfold passed Network.update
  by_cases same : index = other
  · subst same
    rw [List.getElem?_set_self (List.getElem?_eq_some_iff.mp found).1, found, if_pos rfl]
    exact sends
  · rw [List.getElem?_set_ne same, if_neg (Ne.symm same)]
    exact Nat.le_refl _

theorem Conserved.update (conserved : network.Conserved nodeId)
    (found : network.members[index]? = some member)
    (reads : ∀ connection, network.hub.connections[index]? = some connection →
      later.received nodeId + (connection.outbox.drop later.read).countP (asks nodeId) ≤
        member.received nodeId + (connection.outbox.drop member.read).countP (asks nodeId))
    (sent : member.sent <+: later.sent) (delivered : later.delivered = member.delivered) :
    (network.update index later).Conserved nodeId := by
  refine conserved.stay List.length_set (reached_update_le found reads) ?_
  intro other
  have sends : (member.sent.take member.delivered).countP (asks nodeId) + 0 ≤
      (later.sent.take later.delivered).countP (asks nodeId) := by
    rw [delivered]
    exact (sent.take _).sublist.countP_le
  exact Nat.le_trans (Nat.le_add_right _ _) (passed_update_le found sends other)

/-- What the hub sends that is a request is the request it has taken. -/
theorem asks_of_dispatch
    (dispatched : (dispatch toLowercase hubRegistry parsed tx values).2 = some (target, message))
    (asked : asks nodeId (.new messageId message) = true) :
    ∃ envelope, parsed = .ok envelope ∧ asks nodeId envelope = true := by
  cases decoded : decode parsed with
  | error =>
    rw [dispatch_malformed decoded] at dispatched
    cases dispatched
    cases asked
  | ok envelope =>
    refine ⟨envelope, of_decode decoded, ?_⟩
    cases directed : directedTo envelope.message with
    | some =>
      rw [dispatch_directed decoded directed] at dispatched
      simp only at dispatched
      split at dispatched
      · cases dispatched
        exact asked
      · split at dispatched
        · cases dispatched
          cases asked
        · cases dispatched
      · cases dispatched
    | none =>
      obtain ⟨_, same, answers⟩ := @dispatch_undirected toLowercase hubRegistry parsed tx values
        envelope decoded directed
      rw [same] at dispatched
      have undirected := (answers target message dispatched).2
      cases message with
      | taskRequest => cases undirected
      | heartbeat | heartbeatAck | pairRequest | pairResponse | taskResult | searchRequest
        | searchResponse | deviceListRequest
      | deviceListResponse | session | error => cases asked

theorem reached_of_hubStep {hub : Hub} (taken : network.hub.step toLowercase act = some hub)
    (size : network.members.length = network.hub.connections.length) (index : Nat) :
    reached nodeId { network with hub } index ≤ network.reached nodeId index ∨
      ∃ other envelope choice message, act = .message other (.text (.ok envelope)) choice ∧
        (dispatch toLowercase network.hub.registry (.ok envelope) other choice.values).2 =
        some (index, message) ∧
        asks nodeId envelope = true ∧
        reached nodeId { network with hub } index ≤ network.reached nodeId index + 1 := by
  unfold reached
  cases found : network.members[index]? with
  | none => exact .inl (Nat.zero_le _)
  | some member =>
    cases there : hub.connections[index]? with
    | none => exact .inl (Nat.zero_le _)
    | some =>
      simp only
      rcases extended_of_step taken there with ⟨_, _⟩
        | ⟨connection, here, same | ⟨other, _, choice, message, rfl, sent, more⟩⟩
      · have inside := (List.getElem?_eq_some_iff.mp found).1
        omega
      · rw [here, same]
        exact .inl (Nat.le_refl _)
      · rw [here, more]
        simp only
        rw [List.drop_append, List.countP_append]
        have few : ([Envelope.new choice.messageId message].drop
          (member.read - connection.outbox.length)).countP (asks nodeId) ≤
            [Envelope.new choice.messageId message].countP (asks nodeId) :=
            (List.drop_sublist _ _).countP_le
        cases asked : asks nodeId (.new choice.messageId message) with
        | false =>
          rw [List.countP_singleton, asked] at few
          exact .inl (by simp only [Bool.false_eq_true, if_false] at few; omega)
        | true =>
          obtain ⟨envelope, rfl, asking⟩ := asks_of_dispatch sent asked
          rw [List.countP_singleton, asked] at few
          exact .inr ⟨other, envelope, choice, message, rfl, sent,
            asking, by simp only [if_true] at few; omega⟩

theorem of_nextFrame (next : network.nextFrame index member choice = some act) :
    ∃ envelope, member.sent[member.delivered]? = some envelope ∧
      (act = .identify index (.text (.ok envelope)) ∨
        act = .message index (.text (.ok envelope)) choice) := by
  unfold nextFrame at next
  split at next
  · rename_i envelope _ frame _
    split at next
    · cases next
      exact ⟨envelope, frame, .inl rfl⟩
    · cases next
      exact ⟨envelope, frame, .inr rfl⟩
  · cases next

/-- A request that the hub takes makes one copy at most. -/
theorem Conserved.deliver (conserved : network.Conserved nodeId)
    (size : network.members.length = network.hub.connections.length)
    (found : network.members[index]? = some member)
    (next : network.nextFrame index member choice = some act) {hub : Hub}
    (taken : network.hub.step toLowercase act = some hub) :
    Conserved nodeId
      { hub, members := network.members.set index { member with delivered := member.delivered + 1 } } := by
  obtain ⟨envelope, frame, acts⟩ := of_nextFrame next
  have inside := (List.getElem?_eq_some_iff.mp found).1
  obtain ⟨target, only⟩ : ∃ target, ∀ at_ message,
      (dispatch toLowercase network.hub.registry (.ok envelope) index choice.values).2 =
      some (at_, message) → at_ = target := by
    cases dispatched : (dispatch toLowercase network.hub.registry (.ok envelope) index
      choice.values).2 with
    | none => exact ⟨0, fun _ _ same => nomatch same⟩
    | some sent => exact ⟨sent.1, fun at_ message same => by cases same; rfl⟩
  have served (other : Nat) : reached nodeId { network with hub } other ≤
      network.reached nodeId other + if other = target then [envelope].countP (asks nodeId) else 0 := by
    rcases reached_of_hubStep taken size other with less | ⟨_, _, _, message, same, sent, asking, more⟩
    · exact Nat.le_trans less (Nat.le_add_right _ _)
    · rcases acts with rfl | rfl
      · cases same
      · cases same
        rw [if_pos (only other message sent), List.countP_singleton, if_pos asking]
        exact more
  have arrives (other : Nat) :
      reached nodeId { hub, members :=
          network.members.set index { member with delivered := member.delivered + 1 } } other ≤
        network.reached nodeId other +
          if other = target then [envelope].countP (asks nodeId) else 0 := by
    have counted := @reached_update_le { network with hub } member
        { member with delivered := member.delivered + 1 } index nodeId found
      (fun _ _ => Nat.le_refl _) other
    exact Nat.le_trans counted (served other)
  have leaves (other : Nat) :
    network.passed nodeId other + (if other = index then [envelope].countP (asks nodeId) else 0) ≤
      passed nodeId { hub, members :=
        network.members.set index { member with delivered := member.delivered + 1 } } other := by
    refine passed_update_le found ?_ other
    rw [List.take_add_one, frame, List.countP_append]
    exact Nat.le_refl _
  exact conserved.move List.length_set inside arrives leaves

/-- Someone new has neither sent nor received a request. -/
theorem Conserved.join (conserved : network.Conserved nodeId)
    (size : network.members.length = network.hub.connections.length)
    (idle : (Member.new messageId named payload role).received nodeId = 0)
    (taken : network.join toLowercase connectionId (.new messageId named payload role) =
      some after) : after.Conserved nodeId := by
  obtain ⟨connection, empty, members, connections⟩ : ∃ connection : Connection, connection.outbox = [] ∧
      after.members = network.members ++ [.new messageId named payload role] ∧
      after.hub.connections = network.hub.connections ++ [connection] := by
    cases taken
    exact ⟨_, rfl, rfl, rfl⟩
  have last : after.reached nodeId network.members.length = 0 := by
    unfold reached
    rw [members, connections, List.getElem?_concat_length, size, List.getElem?_concat_length]
    simp only
    rw [idle, empty, List.drop_nil]
    rfl
  have sameReached : ∀ index ∈ Finset.range network.members.length,
      after.reached nodeId index = network.reached nodeId index := by
    intro index inside
    have within := Finset.mem_range.mp inside
    unfold reached
    rw [members, connections, List.getElem?_append_left within,
      List.getElem?_append_left (size ▸ within)]
  have samePassed : ∀ index ∈ Finset.range network.members.length,
      after.passed nodeId index = network.passed nodeId index := by
    intro _ inside
    unfold passed
    rw [members, List.getElem?_append_left (Finset.mem_range.mp inside)]
  unfold Conserved at conserved ⊢
  rw [members, List.length_append, List.length_singleton, Finset.sum_range_succ,
    Finset.sum_range_succ, last,
    Finset.sum_congr rfl sameReached, Finset.sum_congr rfl samePassed]
  exact Nat.le_trans conserved (Nat.le_add_right _ _)

def takes (nodeId : NodeId) : AgentLabel → Nat
  | .receive request => if request.sender = nodeId then 1 else 0
  | _ => 0

theorem received_act {label : AgentLabel} (role : member.role = .node agent)
    (taken : agent.step codecs registry label = some further)
    (isNode : later.role = .node further) :
    later.received nodeId = member.received nodeId + takes nodeId label := by
  unfold Member.received
  rw [role, isNode]
  simp only
  rw [Agent.requests_of_step taken, List.countP_append]
  cases label with
  | receive => simp [takes, List.countP_singleton]
  | submit | dispatch | finish | panics | forward | writerEnds | close => rfl

theorem Conserved.step (conserved : network.Conserved nodeId)
    (size : network.members.length = network.hub.connections.length)
    (taken : network.step toLowercase codecs registry label = some after) :
    after.Conserved nodeId := by
  cases label with
  | command | node =>
    exact conserved.join size rfl taken
  | request =>
    simp only [Network.step] at taken
    split at taken
    · rename_i member found
      split at taken
      · split at taken
        · cases taken
          exact conserved.update found (fun _ _ => Nat.le_refl _) (List.prefix_append _ _) rfl
        · cases taken
      · cases taken
    · cases taken
  | sendFails =>
    simp only [Network.step] at taken
    split at taken
    · rename_i member found
      split at taken
      · rename_i request role
        split at taken
        · cases taken
          refine conserved.update found (fun connection _ => ?_) List.prefix_rfl rfl
          rw [Member.received, Member.received, role]
        · cases taken
      · cases taken
    · cases taken
  | deliver =>
    simp only [Network.step] at taken
    split at taken
    · rename_i member found
      split at taken
      · rename_i act next
        obtain ⟨hub, stepped, rfl⟩ := Option.map_eq_some_iff.mp taken
        exact conserved.deliver size found next stepped
      · cases taken
    · cases taken
  | hub =>
    simp only [Network.step] at taken
    split at taken
    · rename_i silent
      obtain ⟨_, stepped, rfl⟩ := Option.map_eq_some_iff.mp taken
      refine conserved.stay rfl (fun index => ?_) (fun index => Nat.le_refl _)
      rcases reached_of_hubStep stepped size index with less | ⟨_, envelope, _, message, rfl, _⟩
      · exact less
      · cases silent
    · cases taken
  | act =>
    simp only [Network.step] at taken
    split at taken
    · rename_i member found
      split at taken
      · cases taken
      · rename_i performed _ _ agent role unreceived
        obtain ⟨further, stepped, rfl⟩ := Option.map_eq_some_iff.mp taken
        refine conserved.update found (fun connection _ => ?_) (List.prefix_append _ _) rfl
        rw [received_act role stepped rfl]
        cases performed with
        | receive request => exact absurd rfl (unreceived request)
        | submit | dispatch | finish | panics | forward | writerEnds | close => exact Nat.le_refl _
      · cases taken
    · cases taken
  | say =>
    simp only [Network.step] at taken
    split at taken
    · rename_i member found
      split at taken
      · split at taken
        · cases taken
          exact conserved.update found (fun _ _ => Nat.le_refl _) (List.prefix_append _ _) rfl
        · cases taken
      · cases taken
    · cases taken
  | read =>
    simp only [Network.step] at taken
    split at taken
    · rename_i member found
      split at taken
      · rename_i envelope next
        have skips (connection : Connection) :
            (connection.outbox.drop (member.read + 1)).countP (asks nodeId) ≤
              (connection.outbox.drop member.read).countP (asks nodeId) :=
          (List.drop_sublist_drop_left _ (Nat.le_succ _)).countP_le
        split at taken
        · rename_i request role
          cases taken
          refine conserved.update found (fun connection _ => ?_) List.prefix_rfl rfl
          rw [Member.received, Member.received, role]
          exact Nat.add_le_add_left (skips connection) _
        · cases taken
        · rename_i request role message
          obtain ⟨_, stepped, rfl⟩ := Option.map_eq_some_iff.mp taken
          refine conserved.update found (fun connection there => ?_) List.prefix_rfl rfl
          rw [received_act role stepped rfl]
          unfold nextMessage at next
          rw [there] at next
          rw [List.drop_eq_getElem_cons (List.getElem?_eq_some_iff.mp next).1,
            (List.getElem?_eq_some_iff.mp next).2, List.countP_cons]
          have asked : asks nodeId envelope = decide (request.sender = nodeId) := by rw [asks, message]
          rw [asked, takes]
          simp only [decide_eq_true_eq]
          omega
        · cases taken
          exact conserved.update found
            (fun connection _ => Nat.add_le_add_left (skips connection) _) List.prefix_rfl rfl
      · cases taken
    · cases taken
  | closed =>
    simp only [Network.step] at taken
    split at taken
    · rename_i found
      split at taken
      · rename_i role
        cases taken
        refine conserved.update found (fun connection _ => ?_) List.prefix_rfl rfl
        rw [Member.received, Member.received, role]
      · cases taken
    · cases taken

end Network

/-- A command has sent one request at most, and an agent executes no request twice. -/
def Member.Sparing (member : Member) : Prop :=
  match member.role with
  | .command _ _ =>
    member.sent.length ≤ 2 ∧ ∀ nodeId, member.sent.countP (asks nodeId) + 1 ≤ member.sent.length
  | .node agent => agent.Once

theorem Member.Sparing.newCommand (messageId : Discovery.Uuid) (nodeId : NodeId)
    (payload : HeartbeatPayload) (request : TaskRequest) :
    (Member.new messageId nodeId payload (.command request none)).Sparing :=
  ⟨Nat.le_succ _, fun _ => Nat.le_refl _⟩

theorem Member.Sparing.newNode (messageId : Discovery.Uuid) (nodeId : NodeId)
    (payload : HeartbeatPayload) :
    (Member.new messageId nodeId payload (.node (.new nodeId))).Sparing := Agent.Once.new nodeId

theorem Member.Sparing.same (sparing : member.Sparing) (role : later.role = member.role)
    (sent : later.sent = member.sent ∨ ∃ agent, member.role = .node agent) : later.Sparing := by
  unfold Sparing at sparing ⊢
  rw [role]
  cases kind : member.role with
  | command =>
    rw [kind] at sparing sent
    rcases sent with same | ⟨agent, isNode⟩
    · rw [same]
      exact sparing
    · cases isNode
  | node =>
    rw [kind] at sparing
    exact sparing

theorem Member.Sparing.command (sparing : member.Sparing)
    (role : member.role = .command request answer)
    (isCommand : later.role = .command request answer') (sent : later.sent = member.sent) :
    later.Sparing := by
  unfold Sparing at sparing ⊢
  rw [role] at sparing
  rw [isCommand, sent]
  exact sparing

theorem Member.Sparing.act {label : AgentLabel} (sparing : member.Sparing)
    (role : member.role = .node agent) (taken : agent.step codecs registry label = some further)
    (isNode : later.role = .node further) : later.Sparing := by
  unfold Sparing at sparing ⊢
  rw [role] at sparing
  rw [isNode]
  exact Agent.Once.step sparing taken

theorem Member.Sparing.send (sparing : member.Sparing)
    (role : member.role = .command request answer) (first : member.sent.length = 1)
    (messageId : Discovery.Uuid) :
    Member.Sparing
      { member with sent := member.sent ++ [.new messageId (.taskRequest request)] } := by
  unfold Sparing at sparing ⊢
  rw [role] at sparing ⊢
  simp only at sparing ⊢
  rw [List.length_append, first, List.length_singleton]
  refine ⟨Nat.le_refl _, fun nodeId => ?_⟩
  have none := sparing.2 nodeId
  have one : [Envelope.new messageId (.taskRequest request)].countP (asks nodeId) ≤ 1 :=
    List.countP_le_length
  rw [List.countP_append]
  omega

namespace Network

theorem sparing_of_update (sparing : ∀ member ∈ network.members, member.Sparing)
    (kept : later.Sparing) :
    ∀ member ∈ (network.update index later).members, member.Sparing := by
  intro member present
  rcases List.mem_or_eq_of_mem_set present with before | rfl
  · exact sparing member before
  · exact kept

theorem sparing_of_join (sparing : ∀ member ∈ network.members, member.Sparing)
    (kept : later.Sparing) (taken : network.join toLowercase connectionId later = some after) :
    ∀ member ∈ after.members, member.Sparing := by
  cases taken
  intro member present
  rcases List.mem_append.mp present with before | last
  · exact sparing member before
  · obtain rfl := List.mem_singleton.mp last
    exact kept

theorem sparing_of_step (sparing : ∀ member ∈ network.members, member.Sparing)
    (taken : network.step toLowercase codecs registry label = some after) :
    ∀ member ∈ after.members, member.Sparing := by
  cases label with
  | command _ messageId nodeId payload =>
    exact sparing_of_join sparing (.newCommand messageId nodeId payload _) taken
  | node _ messageId nodeId payload =>
    exact sparing_of_join sparing (.newNode messageId nodeId payload) taken
  | request _ messageId =>
    simp only [Network.step] at taken
    split at taken
    · rename_i member found
      have holds := sparing member (List.mem_of_getElem? found)
      split at taken
      · rename_i request role
        split at taken
        · rename_i first
          cases taken
          exact sparing_of_update sparing (holds.send role first messageId)
        · cases taken
      · cases taken
    · cases taken
  | sendFails =>
    simp only [Network.step] at taken
    split at taken
    · rename_i member found
      have holds := sparing member (List.mem_of_getElem? found)
      split at taken
      · rename_i request role
        split at taken
        · cases taken
          exact sparing_of_update sparing (holds.command role rfl rfl)
        · cases taken
      · cases taken
    · cases taken
  | deliver =>
    simp only [Network.step] at taken
    split at taken
    · rename_i member found
      have holds := sparing member (List.mem_of_getElem? found)
      split at taken
      · obtain ⟨hub, stepped, rfl⟩ := Option.map_eq_some_iff.mp taken
        exact sparing_of_update sparing (holds.same rfl (.inl rfl))
      · cases taken
    · cases taken
  | hub =>
    simp only [Network.step] at taken
    split at taken
    · obtain ⟨_, stepped, rfl⟩ := Option.map_eq_some_iff.mp taken
      exact sparing
    · cases taken
  | act =>
    simp only [Network.step] at taken
    split at taken
    · rename_i member found
      have holds := sparing member (List.mem_of_getElem? found)
      split at taken
      · cases taken
      · rename_i agent role _
        obtain ⟨further, stepped, rfl⟩ := Option.map_eq_some_iff.mp taken
        exact sparing_of_update sparing (holds.act role stepped rfl)
      · cases taken
    · cases taken
  | say =>
    simp only [Network.step] at taken
    split at taken
    · rename_i member found
      have holds := sparing member (List.mem_of_getElem? found)
      split at taken
      · rename_i agent role
        split at taken
        · cases taken
          exact sparing_of_update sparing (holds.same rfl (.inr ⟨agent, role⟩))
        · cases taken
      · cases taken
    · cases taken
  | read =>
    simp only [Network.step] at taken
    split at taken
    · rename_i member found
      have holds := sparing member (List.mem_of_getElem? found)
      split at taken
      · split at taken
        · rename_i request role
          cases taken
          exact sparing_of_update sparing (holds.command role rfl rfl)
        · cases taken
        · rename_i request role _
          obtain ⟨_, stepped, rfl⟩ := Option.map_eq_some_iff.mp taken
          exact sparing_of_update sparing (holds.act role stepped rfl)
        · cases taken
          exact sparing_of_update sparing (holds.same rfl (.inl rfl))
      · cases taken
    · cases taken
  | closed =>
    simp only [Network.step] at taken
    split at taken
    · rename_i member found
      have holds := sparing member (List.mem_of_getElem? found)
      split at taken
      · rename_i role
        cases taken
        exact sparing_of_update sparing (holds.command role rfl rfl)
      · cases taken
    · cases taken

theorem Kept.of_passed (kept : Kept codecs registry network)
    (found : network.members[index]? = some member)
    (some_passed : 0 < network.passed nodeId index) :
    member.nodeId = nodeId ∧ ∃ request answer, member.role = .command request answer := by
  have present := List.mem_of_getElem? found
  unfold passed at some_passed
  rw [found] at some_passed
  obtain ⟨envelope, taken, asked⟩ := List.countP_pos_iff.mp some_passed
  have own := (kept.sent member present envelope (List.mem_of_mem_take taken)).own
  unfold asks at asked
  split at asked
  · rename_i request message
    rw [message] at own
    obtain ⟨answer, role⟩ := own
    exact ⟨(kept.sender member present request answer role).symm.trans (of_decide_eq_true asked),
      request, answer, role⟩
  · cases asked

/-- The relay has taken one request of a node at most. -/
theorem Kept.passed_le (kept : Kept codecs registry network)
    (sparing : ∀ member ∈ network.members, member.Sparing)
    (nodeId : NodeId) :
    ∑ index ∈ Finset.range network.members.length, network.passed nodeId index ≤ 1 := by
  by_cases any : ∃ index < network.members.length, 0 < network.passed nodeId index
  · obtain ⟨index, inside, some_passed⟩ := any
    have found : network.members[index]? = some network.members[index] := List.getElem?_eq_getElem inside
    obtain ⟨named, request, answer, role⟩ := kept.of_passed found some_passed
    have single : ∀ other ∈ Finset.range network.members.length, other ≠ index →
        network.passed nodeId other = 0 := by
      intro other within apart
      have inside : other < network.members.length := Finset.mem_range.mp within
      have there : network.members[other]? = some network.members[other] :=
        List.getElem?_eq_getElem inside
      by_contra more
      have same := (kept.of_passed there (Nat.pos_of_ne_zero more)).1
      exact apart (kept.alone index other _ _ found there request answer role
        (named.trans same.symm)).symm
    rw [Finset.sum_eq_single_of_mem index (Finset.mem_range.mpr inside) single]
    have brief := sparing _ (List.getElem_mem inside)
    unfold Member.Sparing at brief
    rw [role] at brief
    have few : network.passed nodeId index ≤ network.members[index].sent.countP (asks nodeId) := by
      unfold passed
      rw [found]
      exact (List.take_sublist _ _).countP_le
    have one := brief.2 nodeId
    have two := brief.1
    omega
  · have none : ∀ index ∈ Finset.range network.members.length, network.passed nodeId index = 0 := by
      intro index inside
      by_contra more
      exact any ⟨index, Finset.mem_range.mp inside, Nat.pos_of_ne_zero more⟩
    rw [Finset.sum_eq_zero none]
    exact Nat.zero_le _

theorem sum_map_le {α : Type} (xs : List α) (weight : α → Nat) (bound : Nat → Nat)
    (within : ∀ (index : Nat) (x : α), xs[index]? = some x → weight x ≤ bound index) :
    (xs.map weight).sum ≤ ∑ index ∈ Finset.range xs.length, bound index := by
  induction xs using List.reverseRecOn with
  | nil => exact Nat.le_refl _
  | append_singleton xs last ih =>
    rw [List.map_append, List.sum_append, List.length_append, List.length_singleton,
      Finset.sum_range_succ]
    refine Nat.add_le_add (ih fun index x found => within index x ?_) ?_
    · rw [List.getElem?_append_left (List.getElem?_eq_some_iff.mp found).1]
      exact found
    · exact within xs.length last List.getElem?_concat_length

theorem Kept.executions_le (kept : Kept codecs registry network)
    (sparing : ∀ member ∈ network.members, member.Sparing) (conserved : network.Conserved nodeId) :
    (network.members.map (Member.executions nodeId)).sum ≤ 1 := by
  have counted := sum_map_le network.members (Member.executions nodeId) (network.reached nodeId) ?_
  · exact Nat.le_trans counted (Nat.le_trans conserved (kept.passed_le sparing nodeId))
  · intro _ member found
    have holds := sparing member (List.mem_of_getElem? found)
    unfold reached
    rw [found, List.getElem?_eq_getElem (kept.size ▸ (List.getElem?_eq_some_iff.mp found).1)]
    refine Nat.le_trans ?_ (Nat.le_add_right _ _)
    unfold Member.executions Member.received
    unfold Member.Sparing at holds
    cases role : member.role with
    | command => exact Nat.le_refl _
    | node =>
      rw [role] at holds
      exact Agent.executions_le holds nodeId

theorem Kept.alike (kept : Kept codecs registry network) (present : member ∈ network.members)
    (role : member.role = .command request answer) (there : later ∈ network.members)
    (same : member.nodeId = later.nodeId) : later = member := by
  obtain ⟨first, found⟩ := List.mem_iff_getElem?.mp present
  obtain ⟨second, at_⟩ := List.mem_iff_getElem?.mp there
  have index := kept.alone first second member later found at_ request answer role same
  rw [index, at_] at found
  exact Option.some.inj found

/-- In every run a command is executed once at most, by the node it names, and it has been executed
exactly once when it ends with a result. -/
theorem executed_once_of_run (ids : KeepsIds registry) {labels : List NetworkLabel}
    (run : Execution (Network.step toLowercase codecs registry) fresh .new labels network)
    (present : member ∈ network.members) {answer : Option (Except TaskError Json)}
    (role : member.role = .command request answer) :
    (network.members.map (Member.executions member.nodeId)).sum ≤ 1 ∧
      (∀ executor ∈ network.members, 0 < executor.executions member.nodeId →
        request.target = some executor.nodeId) ∧
      (∀ json, answer = some (.ok json) →
        (network.members.map (Member.executions member.nodeId)).sum = 1) := by
  obtain ⟨kept, conserved, sparing⟩ : Kept codecs registry network ∧ network.Conserved member.nodeId ∧
      ∀ member ∈ network.members, member.Sparing := by
    refine run.invariant
      (fun network => Kept codecs registry network ∧ network.Conserved member.nodeId ∧
        ∀ member ∈ network.members, member.Sparing) ?_
      ⟨.new, Nat.le_refl _, fun _ nothing => nomatch nothing⟩
    intro network label after ⟨kept, conserved, sparing⟩ fresh taken
    exact ⟨kept.step ids fresh taken, conserved.step kept.size taken, sparing_of_step sparing taken⟩
  have few := kept.executions_le sparing conserved
  have sender := kept.sender member present request answer role
  refine ⟨few, ?_, ?_⟩
  · intro executor inside executed
    unfold Member.executions at executed
    split at executed
    · rename_i agent isNode
      obtain ⟨entry, _, asked⟩ := List.countP_pos_iff.mp executed
      obtain ⟨other, here, same⟩ := (Option.any_eq_true _ _).mp asked
      obtain ⟨named, asker, among, before, isCommand⟩ :=
        (kept.nodes executor inside agent isNode).2.2 other (List.mem_of_getElem? here)
      have from_ := kept.sender asker among other before isCommand
      obtain rfl := kept.alike present role among ((of_decide_eq_true same).symm.trans from_)
      cases role.symm.trans isCommand
      exact named
    · cases executed
  · rintro json rfl
    have answered := kept.answers member present request (.ok json) role
    cases answered with
    | executed inside isNode target ended =>
      rename_i executor agent _
      obtain ⟨index, task, providers, here, _, recorded, _⟩ := ended
      have one : 0 < agent.executions member.nodeId :=
        List.countP_pos_iff.mpr ⟨_, recorded, by simp [here, sender]⟩
      have counted : agent.executions member.nodeId ≤
          (network.members.map (Member.executions member.nodeId)).sum := by
        refine List.single_le_sum (fun _ _ => Nat.zero_le _) _ (List.mem_map.mpr ⟨executor, inside, ?_⟩)
        rw [Member.executions, isNode]
      omega

def Member.hasResult (member : Member) : Bool :=
  match member.role with
  | .command _ (some (.ok _)) => true
  | _ => false

theorem executed_once_of_samplePing :
    ∃ (network : Network) (member : Member),
      Execution (step id sampleCodecs (agentRegistry fun _ => "")) fresh .new samplePing network ∧
      network.members[1]? = some member ∧
      (network.members.map (Member.executions member.nodeId)).sum = 1 := by
  obtain ⟨network, run, good⟩ := exists_execution
    (fun network => network.members[1]?.any Member.hasResult)
    (show (replayWhere (step id sampleCodecs (agentRegistry fun _ => ""))
      (fun network label => network.fresh label) .new
      samplePing).any _ = true by decide)
  have fresh := run.weaken fun _ _ => of_decide_eq_true
  obtain ⟨member, found, hasResult⟩ := (Option.any_eq_true _ _).mp good
  unfold Member.hasResult at hasResult
  split at hasResult
  · rename_i json role
    obtain ⟨_, _, once⟩ := executed_once_of_run (keepsIds_agentRegistry _) fresh
      (List.mem_of_getElem? found) role
    exact ⟨network, member, fresh, found, once json rfl⟩
  · cases hasResult

end Network

end DistributedOs.Runtime
