import DistributedOs.Relay.Ownership
import DistributedOs.Semantics.Watchdog

/-! The event loop of an agent and the relay it is connected to, as far as heartbeats go: the agent
sends one on every tick, the relay answers all but the first, and the agent gives the connection up
when no answer comes. -/

namespace DistributedOs.Runtime

open DistributedOs.Protocol Relay Semantics

/-- `HEARTBEAT_INTERVAL_SECS`, in milliseconds. -/
def heartbeatInterval : Nat := 15000

/-- `elapsed.num_seconds() > (HEARTBEAT_INTERVAL_SECS * 2 + 5)`: whole seconds are compared. -/
def tooLong (elapsed : Nat) : Bool := 35 < elapsed / 1000

theorem tooLong_iff (elapsed : Nat) : tooLong elapsed = true ↔ 36000 ≤ elapsed := by
  rw [tooLong, decide_eq_true_iff]
  omega

def isHeartbeat (envelope : Envelope) : Bool :=
  match envelope.message with
  | .heartbeat _ _ => true
  | _ => false

def isAck (envelope : Envelope) : Bool :=
  match envelope.message with
  | .heartbeatAck => true
  | _ => false

/-- The hub with the agent's connection to it. `sent` is what the agent's write task has sent, of
which the hub has taken `delivered`; of what the hub has sent back the agent has read `read`. -/
structure Session where
  hub : Hub
  connection : Nat
  nodeId : NodeId
  sent : List Envelope
  writing : Bool
  delivered : Nat
  read : Nat
  dog : Watchdog

/-- What is done by others is any step of the hub but the serving of this connection's messages.
What the agent sends besides heartbeats are results and answers. -/
inductive SessionLabel where
  | others (label : HubLabel)
  | deliver (choice : DispatchChoice)
  | tick (messageId : Discovery.Uuid) (payload : HeartbeatPayload)
  | read
  | send (envelope : Envelope)
  | writerEnds
  | pass (duration : Nat)
  | close

namespace Session

/-- A connection that was accepted, and the heartbeat that is to identify the agent. -/
def connect (hub : Hub) (connectionId messageId : Discovery.Uuid) (nodeId : NodeId)
    (payload : HeartbeatPayload) (now : Nat) : Session :=
  { hub :=
      { hub with
        connections := hub.connections ++
          [{ connectionId, phase := .identifying, writerRuns := true, outbox := [] }] }
    connection := hub.connections.length
    nodeId
    sent := [.new messageId (.heartbeat nodeId payload)]
    writing := true
    delivered := 0
    read := 0
    dog := .begin now }

/-- Whether a step of the hub is about the frames of a connection. -/
def serves (connection : Nat) : HubLabel → Bool
  | .identify other _ | .message other _ _ => other = connection
  | .accept _ | .cleanup _ | .writerEnds _ => false

/-- The write task sends what it is given, until it ends. -/
def write (session : Session) (envelope : Envelope) : List Envelope :=
  if session.writing then session.sent ++ [envelope] else session.sent

variable (toLowercase : String → String)

/-- What the hub does with the next frame: it identifies the agent, or dispatches the message. -/
def nextFrame (session : Session) (choice : DispatchChoice) : Option HubLabel :=
  match session.sent[session.delivered]?, session.hub.connections[session.connection]? with
  | some envelope, some connection =>
    if connection.phase = .identifying then some (.identify session.connection (.text (.ok envelope)))
    else some (.message session.connection (.text (.ok envelope)) choice)
  | _, _ => none

def nextMessage (session : Session) : Option Envelope :=
  match session.hub.connections[session.connection]? with
  | some connection => connection.outbox[session.read]?
  | none => none

def step (session : Session) : SessionLabel → Option Session
  | .others label =>
    if serves session.connection label then none
    else (session.hub.step toLowercase label).map fun hub => { session with hub }
  | .deliver choice =>
    match session.nextFrame choice with
    | some label =>
      (session.hub.step toLowercase label).map fun hub =>
      { session with hub, delivered := session.delivered + 1 }
    | none => none
  | .tick messageId payload =>
    (session.dog.step heartbeatInterval tooLong .tick).map fun dog =>
      if dog.watching = .running then
        { session with dog, sent := session.write (.new messageId (.heartbeat session.nodeId payload)) }
      else { session with dog }
  | .read =>
    match session.nextMessage with
    | some envelope =>
      if session.dog.watching = .running then
        if isAck envelope then
          (session.dog.step heartbeatInterval tooLong .sign).map fun dog =>
          { session with dog, read := session.read + 1 }
        else some { session with read := session.read + 1 }
      else none
    | none => none
  | .send envelope =>
    if isHeartbeat envelope then none
    else some { session with sent := session.write envelope }
  | .writerEnds => some { session with writing := false }
  | .pass duration =>
    (session.dog.step heartbeatInterval tooLong (.pass duration)).map fun dog => { session with dog }
  | .close => (session.dog.step heartbeatInterval tooLong .stop).map fun dog => { session with dog }

variable {toLowercase} {hub after : Hub} {label : HubLabel} {connection : Connection}
  {index tx : Nat} {envelope : Envelope} {connections : List Connection}

theorem getElem?_send (found : connections[index]? = some connection) (tx : Nat)
    (envelope : Envelope) :
    (Hub.send connections tx envelope)[index]? =
      some (if tx = index then connection.receive envelope else connection) := by
  rw [Hub.send, List.getElem?_modify, found]
  split <;> rfl

def beats (parsed : Except String Envelope) : Bool :=
  match decode parsed with
  | .ok envelope => isHeartbeat envelope
  | .error _ => false

/-- Whether a step of the hub takes a heartbeat from a connection it serves. -/
def acknowledges (index : Nat) : HubLabel → Bool
  | .message other (.text parsed) _ => other = index ∧ beats parsed
  | _ => false

theorem dispatch_of_beats (heard : beats parsed = true) (registry : Registry) (tx : Nat)
    (values : List ConnectedNode) :
    (dispatch toLowercase registry parsed tx values).2 = some (tx, .heartbeatAck) := by
  unfold beats at heard
  split at heard
  · rename_i envelope decoded
    obtain ⟨_, _, message⟩ := envelope
    cases message <;> simp [isHeartbeat] at heard
    simp only [dispatch, decoded]
  · cases heard

/-- A heartbeat is answered on its own channel, and nothing else with an acknowledgement. -/
theorem isAck_dispatch (registry : Registry) (parsed : Except String Envelope)
    (values : List ConnectedNode) (messageId : Discovery.Uuid)
    (sent : (dispatch toLowercase registry parsed tx values).2 = some (index, message)) :
    isAck (.new messageId message) = decide (tx = index ∧ beats parsed) := by
  rw [beats]
  cases decoded : decode parsed with
  | error =>
    rw [dispatch_malformed decoded] at sent
    cases sent
    simp [isAck, Envelope.new]
  | ok envelope =>
    cases directed : directedTo envelope.message with
    | some =>
      have unacknowledged : isAck (.new messageId message) = false := by
        rw [dispatch_directed decoded directed] at sent
        simp only at sent
        split at sent
        · cases sent
          cases same : envelope.message <;> simp [isAck, Envelope.new, same, directedTo] at directed ⊢
        · split at sent
          · cases sent
            rfl
          · cases sent
        · cases sent
      have unheard : isHeartbeat envelope = false := by
        cases same : envelope.message <;> simp [isHeartbeat, same, directedTo] at directed ⊢
      simp [unacknowledged, unheard]
    | none =>
      unfold dispatch at sent
      rw [decoded] at sent
      obtain ⟨_, _, carried⟩ := envelope
      cases carried with
      | heartbeat =>
        cases sent
        simp [isAck, isHeartbeat, Envelope.new]
      | searchRequest | deviceListRequest =>
        cases sent
        simp [isAck, isHeartbeat, Envelope.new]
      | heartbeatAck | searchResponse | deviceListResponse | session | error => cases sent
      | pairRequest | pairResponse | taskRequest | taskResult => cases directed

/-- What may become of a connection: the hub sends on it, an acknowledgement exactly when it has
taken a heartbeat from it, or it does not send any more, and it is identified by a frame of its own. -/
def Follows (index : Nat) (label : HubLabel) (connection : Connection)
    (connections : List Connection) : Prop :=
  ∃ (later : Connection) (more : List Envelope), connections[index]? = some later ∧
    later.outbox = connection.outbox ++ more ∧
    (later.writerRuns = true → connection.writerRuns = true) ∧
    (connection.phase ≠ .identifying → later.phase ≠ .identifying) ∧
    (connection.phase = .identifying → later.phase = .identifying ∨
      ∃ frame, label = .identify index frame) ∧
    more.countP isAck = if acknowledges index label ∧ connection.writerRuns then 1 else 0

theorem follows_of_same (same : connections[index]? = some connection)
    (silent : acknowledges index label = false) :
    Follows index label connection connections :=
  ⟨connection, [], same, by rw [List.append_nil], id, id, .inl, by simp [silent]⟩

theorem follows_of_set (found : connections[index]? = some connection)
    (there : connections[other]? = some before) (outbox : changed.outbox = before.outbox)
    (writer : changed.writerRuns = true → before.writerRuns = true)
    (phase : before.phase ≠ .identifying → changed.phase ≠ .identifying)
    (own : before.phase = .identifying → other = index → changed.phase = .identifying ∨
      ∃ frame, label = .identify index frame)
    (silent : acknowledges index label = false) :
    Follows index label connection (connections.set other changed) := by
  by_cases here : other = index
  · subst here
    cases there.symm.trans found
    exact ⟨changed, [], List.getElem?_set_self
      (List.getElem?_eq_some_iff.mp found).1, by rw [outbox, List.append_nil], writer,
      phase, fun identifying => own identifying rfl, by simp [silent]⟩
  · exact follows_of_same ((List.getElem?_set_ne here).trans found) silent

theorem follows_of_send
    (found : connections[index]? = some connection)
    (sent : (dispatch toLowercase registry parsed other choice.values).2 = some (target, message)) :
    Follows index (.message other (.text parsed) choice) connection
      (Hub.send connections target (.new choice.messageId message)) := by
  refine ⟨_, if target = index ∧ connection.writerRuns then [.new choice.messageId message] else [],
    getElem?_send found target _, ?_, ?_, ?_, ?_, ?_⟩
  · by_cases same : target = index <;> by_cases runs : connection.writerRuns <;>
      simp [same, runs, Connection.receive]
  · intro runs
    split at runs
    · unfold Connection.receive at runs
      split at runs <;> assumption
    · exact runs
  · intro not
    split <;> simpa using not
  · intro identifying
    left
    split <;> simpa using identifying
  · by_cases runs : connection.writerRuns
    · by_cases same : target = index
      · subst same
        have ack := isAck_dispatch registry parsed choice.values choice.messageId sent
        simp only [runs, and_true, if_true, acknowledges, List.countP_singleton, ack]
      · have silent : acknowledges index (.message other (.text parsed) choice) = false := by
          simp only [acknowledges, decide_eq_false_iff_not]
          rintro ⟨rfl, heard⟩
          rw [dispatch_of_beats heard] at sent
          cases sent
          exact same rfl
        simp [same, silent]
    · simp [runs]

theorem follows_of_step (taken : hub.step toLowercase label = some after)
    (found : hub.connections[index]? = some connection) :
    Follows index label connection after.connections := by
  cases label with
  | accept =>
    cases taken
    exact follows_of_same
      ((List.getElem?_append_left (List.getElem?_eq_some_iff.mp found).1).trans found) rfl
  | identify _ frame =>
    simp only [Hub.step] at taken
    split at taken
    · rename_i before there
      split at taken
      · rename_i identifying
        split at taken
        · cases taken
          exact follows_of_set found there rfl id (absurd identifying)
            (fun _ same => .inr ⟨frame, same ▸ rfl⟩) rfl
        · cases taken
          exact follows_of_set found there rfl (absurd · Bool.false_ne_true) (absurd identifying)
            (fun _ same => .inr ⟨frame, same ▸ rfl⟩) rfl
      · cases taken
    · cases taken
  | message other frame choice =>
    cases frame with
    | other =>
      simp only [Hub.step] at taken
      split at taken
      · rename_i before there
        split at taken
        · rename_i same
          cases same
        · rename_i serving _
          cases taken
          refine follows_of_set found there rfl id (fun _ closed => ?_) (fun identifying _ => ?_) rfl
          · cases closed
          · rw [serving] at identifying
            cases identifying
        · cases taken
      · cases taken
    | text parsed =>
      obtain ⟨before, nodeId, there, _, rfl⟩ := Hub.of_message taken
      cases sent : (dispatch toLowercase hub.registry parsed other choice.values).2 with
      | none =>
        have unheard : beats parsed = false := by
          by_contra heard
          rw [dispatch_of_beats (Bool.eq_true_of_not_eq_false heard)] at sent
          cases sent
        exact follows_of_same found (by simp [acknowledges, unheard])
      | some => exact follows_of_send found sent
  | cleanup =>
    simp only [Hub.step] at taken
    split at taken
    · rename_i before there
      split at taken
      · rename_i leaving
        cases taken
        refine follows_of_set found there rfl (fun running => ?_) (fun _ closed => ?_)
          (fun identifying _ => ?_) rfl
        · cases running
        · cases closed
        · rw [leaving] at identifying
          cases identifying
      · cases taken
    · cases taken
  | writerEnds =>
    simp only [Hub.step] at taken
    split at taken
    · rename_i there
      cases taken
      refine follows_of_set found there rfl (fun running => ?_) id
        (fun identifying _ => .inl identifying) rfl
      cases running
    · cases taken

theorem identified_of_step (taken : hub.step toLowercase (.identify index frame) = some after)
    (found : after.connections[index]? = some connection) : connection.phase ≠ .identifying := by
  simp only [Hub.step] at taken
  split at taken
  · rename_i there
    have inside := (List.getElem?_eq_some_iff.mp there).1
    split at taken
    · split at taken
      all_goals
        cases taken
        simp only [Hub.update, List.getElem?_set_self inside, Option.some.injEq] at found
        subst found
        intro identifying
        cases identifying
    · cases taken
  · cases taken

variable {session next : Session} {taking : SessionLabel} {late : Nat}

/-- The heartbeats the hub has taken from the agent. -/
def heard (session : Session) : Nat := (session.sent.take session.delivered).countP isHeartbeat

/-- The agent's first message is a heartbeat. From when that has identified it, the hub has
acknowledged the others it has taken, all of them while it still sends, and the agent has sent one
on each of its beats. -/
structure Kept (session : Session) (connection : Connection) : Prop where
  found : session.hub.connections[session.connection]? = some connection
  first : session.sent.head?.any isHeartbeat
  within : session.delivered ≤ session.sent.length
  compatible : ∀ envelope ∈ session.sent, isHeartbeat envelope = true → envelope.isCompatible = true
  identifying : connection.phase = .identifying → session.delivered = 0 ∧
    connection.outbox.countP isAck = 0
  answered : connection.phase ≠ .identifying → connection.outbox.countP isAck + 1 ≤ session.heard
  exactly : connection.phase ≠ .identifying → connection.writerRuns = true →
    connection.outbox.countP isAck + 1 = session.heard
  beats : session.sent.countP isHeartbeat ≤ session.dog.beats + 1
  read : session.read ≤ connection.outbox.length
  signs : session.dog.signs = (connection.outbox.take session.read).countP isAck

theorem Kept.connect (hub : Hub) (connectionId messageId : Discovery.Uuid) (nodeId : NodeId)
    (payload : HeartbeatPayload)
    (now : Nat) :
    ∃ connection, Kept (.connect hub connectionId messageId nodeId payload now) connection := by
  refine ⟨{ connectionId, phase := .identifying, writerRuns := true, outbox := [] }, ?_, rfl,
    Nat.zero_le _, ?_, fun _ => ⟨rfl, rfl⟩,
    fun not => absurd rfl not, fun not => absurd rfl not, ?_, Nat.le_refl _, rfl⟩
  · simp [Session.connect]
  · intro _ member _
    obtain rfl := List.mem_singleton.mp member
    rfl
  · simp [Session.connect, isHeartbeat, Envelope.new, Watchdog.begin]

theorem Kept.acks_le (kept : Kept session connection) :
    connection.outbox.countP isAck ≤ session.dog.beats := by
  have sent : session.heard ≤ session.sent.countP isHeartbeat := (List.take_sublist _ _).countP_le
  have beats := kept.beats
  by_cases identifying : connection.phase = .identifying
  · have unsent := (kept.identifying identifying).2
    omega
  · have answered := kept.answered identifying
    omega

theorem Kept.signs_lt (kept : Kept session connection) (next : session.nextMessage = some envelope)
    (ack : isAck envelope = true) : session.dog.signs < session.dog.beats := by
  simp only [nextMessage, kept.found] at next
  have more : (connection.outbox.take (session.read + 1)).countP isAck = session.dog.signs + 1 := by
    rw [List.take_add_one, next, List.countP_append, ← kept.signs]
    simp [ack]
  have all : (connection.outbox.take (session.read + 1)).countP isAck ≤ connection.outbox.countP isAck :=
    (List.take_sublist _ _).countP_le
  have acks := kept.acks_le
  omega

/-- What is sent later has not been taken yet. -/
theorem Kept.write (kept : Kept session connection) {dog : Watchdog}
    (compatible : isHeartbeat envelope = true → envelope.isCompatible = true)
    (signs : dog.signs = session.dog.signs)
    (beats : session.dog.beats + (if isHeartbeat envelope then 1 else 0) ≤ dog.beats) :
    Kept { session with dog, sent := session.write envelope } connection := by
  have heard : ({ session with dog, sent := session.write envelope } : Session).heard =
      session.heard := by
    simp only [Session.heard, Session.write]
    split
    · rw [List.take_append_of_le_length kept.within]
    · rfl
  refine ⟨kept.found, ?_, ?_, ?_, kept.identifying, ?_, ?_, ?_, kept.read, signs.trans kept.signs⟩
  · have first := kept.first
    simp only [Session.write]
    split
    · cases sent : session.sent with
      | nil =>
        rw [sent] at first
        cases first
      | cons =>
        rw [sent] at first
        exact first
    · exact first
  · have within := kept.within
    simp only [Session.write]
    split
    · rw [List.length_append]
      exact Nat.le_add_right_of_le within
    · exact within
  · intro other member heartbeat
    simp only [Session.write] at member
    split at member
    · rcases List.mem_append.mp member with old | new
      · exact kept.compatible other old heartbeat
      · obtain rfl := List.mem_singleton.mp new
        exact compatible heartbeat
    · exact kept.compatible other member heartbeat
  · intro served
    rw [heard]
    exact kept.answered served
  · intro served runs
    rw [heard]
    exact kept.exactly served runs
  · have before := kept.beats
    simp only [Session.write]
    split
    · rw [List.countP_append, List.countP_singleton]
      omega
    · omega

/-- Others may send on the connection too, but nothing that acknowledges a heartbeat. -/
theorem Kept.others (kept : Kept session connection)
    (others : serves session.connection label = false)
    (taken : session.hub.step toLowercase label = some after) :
    ∃ later, Kept { session with hub := after } later := by
  obtain ⟨later, more, found, outbox, writer, phase, own, acks⟩ := follows_of_step taken kept.found
  have silent : acknowledges session.connection label = false := by
    cases label with
    | message other frame =>
      cases frame with
      | text =>
        have elsewhere : ¬ other = session.connection := of_decide_eq_false others
        simp [acknowledges, elsewhere]
      | other => rfl
    | accept | identify | cleanup | writerEnds => rfl
  have unsent : more.countP isAck = 0 := by
    rw [acks, silent]
    simp
  have same : later.outbox.countP isAck = connection.outbox.countP isAck := by
    rw [outbox, List.countP_append, unsent, Nat.add_zero]
  have still : connection.phase = .identifying ↔ later.phase = .identifying := by
    constructor
    · intro identifying
      rcases own identifying with same | ⟨_, rfl⟩
      · exact same
      · simp [serves] at others
    · intro identifying
      by_contra served
      exact phase served identifying
  refine ⟨later, found, kept.first, kept.within, kept.compatible, ?_, ?_, ?_, kept.beats, ?_, ?_⟩
  · intro identifying
    rw [same]
    exact kept.identifying (still.mpr identifying)
  · intro served
    rw [same]
    exact kept.answered (mt still.mp served)
  · intro served runs
    rw [same]
    exact kept.exactly (mt still.mp served) (writer runs)
  · rw [outbox, List.length_append]
    exact Nat.le_add_right_of_le kept.read
  · rw [outbox, List.take_append_of_le_length kept.read]
    exact kept.signs

/-- The hub takes the next of the agent's messages. -/
theorem Kept.deliver (kept : Kept session connection)
    (frame : session.nextFrame choice = some label)
    (taken : session.hub.step toLowercase label = some after) :
    ∃ later, Kept { session with hub := after, delivered := session.delivered + 1 } later := by
  simp only [nextFrame, kept.found] at frame
  split at frame
  · rename_i envelope _ sent same
    cases same
    have inside := (List.getElem?_eq_some_iff.mp sent).1
    have member : envelope ∈ session.sent := List.mem_of_getElem? sent
    have taken_heard :
        ({ session with hub := after, delivered := session.delivered + 1 } : Session).heard =
          session.heard + if isHeartbeat envelope then 1 else 0 := by
      simp only [heard]
      rw [List.take_add_one, sent, List.countP_append]
      simp
    split at frame
    · rename_i identifying
      cases frame
      obtain ⟨later, more, found, outbox, writer, phase, own, acks⟩ := follows_of_step taken kept.found
      have ⟨zero, unsent⟩ := kept.identifying identifying
      have beat : isHeartbeat envelope = true := by
        have first := kept.first
        rw [List.head?_eq_getElem?, ← zero, sent] at first
        exact first
      have heard : session.heard = 0 := by rw [Session.heard, zero, List.take_zero, List.countP_nil]
      rw [heard, if_pos beat] at taken_heard
      have unanswered : later.outbox.countP isAck = 0 := by
        rw [outbox, List.countP_append, unsent, acks]
        simp [acknowledges]
      have served := identified_of_step taken found
      refine ⟨later, found, kept.first, inside, kept.compatible, fun not =>
        absurd not served, fun _ => ?_, fun _ _ => ?_,
        kept.beats, ?_, ?_⟩
      · rw [taken_heard, unanswered]
      · rw [taken_heard, unanswered]
      · rw [outbox, List.length_append]
        exact Nat.le_add_right_of_le kept.read
      · rw [outbox, List.take_append_of_le_length kept.read]
        exact kept.signs
    · rename_i served
      cases frame
      obtain ⟨later, more, found, outbox, writer, phase, _, acks⟩ := follows_of_step taken kept.found
      have beats : Session.beats (.ok envelope) = isHeartbeat envelope := by
        simp only [Session.beats, decode]
        cases beat : isHeartbeat envelope with
        | true => simp [kept.compatible envelope member beat, beat]
        | false =>
          split
          · rename_i accepted
            split at accepted
            · cases accepted
              exact beat
            · cases accepted
          · rfl
      have acknowledged : more.countP isAck = if isHeartbeat envelope ∧ connection.writerRuns then 1
          else 0 := by
        rw [acks]
        simp [acknowledges, beats]
      refine ⟨later, found, kept.first, inside, kept.compatible, fun not =>
        absurd not (phase served), fun _ => ?_, fun _ runs => ?_,
        kept.beats, ?_, ?_⟩
      · have before := kept.answered served
        rw [taken_heard, outbox, List.countP_append, acknowledged]
        by_cases beat : isHeartbeat envelope = true <;> by_cases runs :
          connection.writerRuns = true <;> simp [beat, runs] <;> omega
      · have before := kept.exactly served (writer runs)
        rw [taken_heard, outbox, List.countP_append, acknowledged, writer runs]
        by_cases beat : isHeartbeat envelope = true <;> simp [beat] <;> omega
      · rw [outbox, List.length_append]
        exact Nat.le_add_right_of_le kept.read
      · rw [outbox, List.take_append_of_le_length kept.read]
        exact kept.signs
  · cases frame

/-- A running agent does not let a tick wait for longer than `late`. -/
def Punctual (late : Nat) (session : Session) : SessionLabel → Prop
  | .pass duration => Watchdog.Punctual heartbeatInterval late session.dog (.pass duration)
  | _ => True

/-- When a tick comes, all heartbeats that ticks have sent but the last one have been acknowledged. -/
def Answering (session : Session) : SessionLabel → Prop
  | .tick _ _ => session.dog.beats ≤ session.dog.signs + 1
  | _ => True

/-- A step is at most one of the watchdog, which only hears of acknowledgements of its own
heartbeats. -/
theorem dog_of_step (late : Nat) (kept : Kept session connection)
    (taken : session.step toLowercase taking = some next) :
    next.dog = session.dog ∨
      ∃ watch, session.dog.step heartbeatInterval tooLong watch = some next.dog ∧
      (session.Punctual late taking → session.dog.Punctual heartbeatInterval late watch) ∧
      (session.Answering taking → session.dog.Answering 1 watch) := by
  cases taking with
  | others =>
    simp only [step] at taken
    split at taken
    · cases taken
    · obtain ⟨hub, _, rfl⟩ := Option.map_eq_some_iff.mp taken
      exact .inl rfl
  | deliver =>
    simp only [step] at taken
    split at taken
    · obtain ⟨_, _, rfl⟩ := Option.map_eq_some_iff.mp taken
      exact .inl rfl
    · cases taken
  | tick =>
    obtain ⟨dog, watched, rfl⟩ := Option.map_eq_some_iff.mp taken
    refine .inr ⟨.tick, ?_, fun _ => trivial, id⟩
    rw [watched]
    split <;> rfl
  | read =>
    simp only [step] at taken
    split at taken
    · rename_i coming
      split at taken
      · split at taken
        · rename_i ack
          obtain ⟨dog, watched, rfl⟩ := Option.map_eq_some_iff.mp taken
          exact .inr ⟨.sign, watched, fun _ => trivial, fun _ => kept.signs_lt coming ack⟩
        · cases taken
          exact .inl rfl
      · cases taken
    · cases taken
  | send =>
    simp only [step] at taken
    split at taken
    · cases taken
    · cases taken
      exact .inl rfl
  | writerEnds =>
    cases taken
    exact .inl rfl
  | pass duration =>
    obtain ⟨dog, watched, rfl⟩ := Option.map_eq_some_iff.mp taken
    exact .inr ⟨.pass duration, watched, id, fun _ => trivial⟩
  | close =>
    obtain ⟨_, watched, rfl⟩ := Option.map_eq_some_iff.mp taken
    exact .inr ⟨.stop, watched, fun _ => trivial, fun _ => trivial⟩

theorem Kept.watch (kept : Kept session connection) {dog : Watchdog}
    (beats : dog.beats = session.dog.beats) (signs : dog.signs = session.dog.signs) :
    Kept { session with dog } connection :=
  ⟨kept.found, kept.first, kept.within, kept.compatible, kept.identifying, kept.answered, kept.exactly,
    by rw [beats]; exact kept.beats, kept.read, signs.trans kept.signs⟩

theorem Kept.step (kept : Kept session connection)
    (taken : session.step toLowercase taking = some next) :
    ∃ later, Kept next later := by
  cases taking with
  | others =>
    simp only [Session.step] at taken
    split at taken
    · cases taken
    · rename_i others
      obtain ⟨hub, stepped, rfl⟩ := Option.map_eq_some_iff.mp taken
      exact kept.others (Bool.eq_false_iff.mpr others) stepped
  | deliver =>
    simp only [Session.step] at taken
    split at taken
    · rename_i frame
      obtain ⟨_, stepped, rfl⟩ := Option.map_eq_some_iff.mp taken
      exact kept.deliver frame stepped
    · cases taken
  | tick =>
    obtain ⟨dog, watched, rfl⟩ := Option.map_eq_some_iff.mp taken
    obtain ⟨running, _, ⟨_, rfl⟩ | ⟨_, rfl⟩⟩ := Watchdog.of_step watched
    · exact ⟨connection, kept.watch rfl rfl⟩
    · simp only [running, if_true]
      exact ⟨connection, kept.write (fun _ => rfl) rfl (Nat.le_refl _)⟩
  | read =>
    simp only [Session.step] at taken
    split at taken
    · rename_i envelope coming
      simp only [nextMessage, kept.found] at coming
      have inside := (List.getElem?_eq_some_iff.mp coming).1
      have counted : (connection.outbox.take (session.read + 1)).countP isAck =
          session.dog.signs + if isAck envelope then 1 else 0 := by
        rw [List.take_add_one, coming, List.countP_append, ← kept.signs]
        simp
      split at taken
      · split at taken
        · rename_i ack
          obtain ⟨dog, watched, rfl⟩ := Option.map_eq_some_iff.mp taken
          obtain ⟨_, rfl⟩ := Watchdog.of_step watched
          rw [if_pos ack] at counted
          exact ⟨connection, kept.found, kept.first, kept.within, kept.compatible, kept.identifying,
            kept.answered, kept.exactly,
            kept.beats, inside, counted.symm⟩
        · rename_i other
          cases taken
          rw [if_neg other] at counted
          exact ⟨connection, kept.found, kept.first, kept.within, kept.compatible, kept.identifying,
            kept.answered, kept.exactly,
            kept.beats, inside, counted.symm⟩
      · cases taken
    · cases taken
  | send =>
    simp only [Session.step] at taken
    split at taken
    · cases taken
    · rename_i other
      cases taken
      exact ⟨connection, kept.write (fun beat => absurd beat other) rfl
        (by rw [if_neg other]; exact Nat.le_refl _)⟩
  | writerEnds =>
    cases taken
    exact ⟨connection, kept.found, kept.first, kept.within, kept.compatible, kept.identifying,
      kept.answered, kept.exactly,
      kept.beats, kept.read, kept.signs⟩
  | pass =>
    obtain ⟨dog, watched, rfl⟩ := Option.map_eq_some_iff.mp taken
    have did := Watchdog.of_step watched
    simp only at did
    subst did
    exact ⟨connection, kept.watch rfl rfl⟩
  | close =>
    obtain ⟨_, watched, rfl⟩ := Option.map_eq_some_iff.mp taken
    obtain ⟨_, rfl⟩ := Watchdog.of_step watched
    exact ⟨connection, kept.watch rfl rfl⟩

variable {connectionId messageId : Discovery.Uuid} {nodeId : NodeId} {payload : HeartbeatPayload}
  {now : Nat} {labels : List SessionLabel}

theorem Kept.run
    (run : Execution (Session.step toLowercase) anything
      (Session.connect hub connectionId messageId nodeId payload now) labels
      session) :
    ∃ connection, Kept session connection :=
  run.invariant (fun session => ∃ connection, Kept session connection)
    (fun _ _ _ ⟨_, kept⟩ _ taken => kept.step taken)
    (Kept.connect hub connectionId messageId nodeId payload now)

/-- Whatever else happens at the hub and on the connection, an agent that has been identified has
been sent an acknowledgement for each later heartbeat that the hub has taken, while the hub still
sends, and never one more. -/
theorem acknowledged_of_run
    (run : Execution (Session.step toLowercase) anything
      (connect hub connectionId messageId nodeId payload now) labels session) :
    ∃ connection, session.hub.connections[session.connection]? = some connection ∧
      (connection.phase = .identifying → connection.outbox.countP isAck = 0) ∧
      (connection.phase ≠ .identifying → connection.outbox.countP isAck + 1 ≤ session.heard ∧
        (connection.writerRuns = true → connection.outbox.countP isAck + 1 = session.heard)) ∧
      session.dog.signs ≤ session.dog.beats := by
  obtain ⟨connection, kept⟩ := Kept.run run
  refine ⟨connection, kept.found, fun identifying => (kept.identifying identifying).2,
    fun served => ⟨kept.answered served, kept.exactly served⟩, ?_⟩
  have read : session.dog.signs ≤ connection.outbox.countP isAck := by
    rw [kept.signs]
    exact (List.take_sublist _ _).countP_le
  exact read.trans kept.acks_le

theorem Watched.step (kept : Kept session connection)
    (watched : session.dog.Watched heartbeatInterval 36000 late)
    (punctual : session.Punctual late taking)
    (taken : session.step toLowercase taking = some next) :
    next.dog.Watched heartbeatInterval 36000 late := by
  rcases dog_of_step late kept taken with same | ⟨_, stepped, timely, _⟩
  · rw [same]
    exact watched
  · exact watched.step tooLong_iff (timely punctual) stepped

/-- An agent gives its connection up only when it has read no acknowledgement for 36 seconds, and it
never goes on without one for 51 seconds, besides what its ticks are late. -/
theorem watched_of_run
    (run : Execution (Session.step toLowercase) (Punctual late)
      (connect hub connectionId messageId nodeId payload now) labels session) :
    (∀ time, session.dog.watching = .gaveUp time → session.dog.last + 36000 ≤ time ∧
      time < session.dog.last + 51000 + late) ∧
      (session.dog.watching = .running → session.dog.now < session.dog.last + 51000 + late) := by
  have ⟨_, watched⟩ := run.invariant
    (fun session => (∃ connection, Kept session connection) ∧
      session.dog.Watched heartbeatInterval 36000 late)
    (fun _ _ _ ⟨⟨_, kept⟩, watched⟩ punctual taken =>
      ⟨kept.step taken, Watched.step kept watched punctual taken⟩)
    ⟨Kept.connect hub connectionId messageId nodeId payload now, .begin now (by decide)⟩
  have interval : heartbeatInterval = 15000 := rfl
  refine ⟨fun time gaveUp => ⟨(watched.never time gaveUp).1, ?_⟩, fun running => ?_⟩
  · have soon := watched.bounded time (.inl gaveUp)
    omega
  · have soon := watched.running_lt running
    omega

/-- With ticks less than six seconds late, an agent whose heartbeats are each acknowledged before
the second tick after it never gives its connection up. -/
theorem unbroken_of_run (soon : late < 6000)
    (run : Execution (Session.step toLowercase) (fun session taking =>
      session.Punctual late taking ∧ session.Answering taking)
        (connect hub connectionId messageId nodeId payload now) labels session) (time : Nat) :
    session.dog.watching ≠ .gaveUp time := by
  have enough : ∀ elapsed, elapsed ≤ heartbeatInterval * (1 + 1) + late → tooLong elapsed = false := by
    intro _ _
    have interval : heartbeatInterval = 15000 := rfl
    rw [Bool.eq_false_iff, Ne, tooLong_iff]
    omega
  have ⟨_, _, answered⟩ := run.invariant
    (fun session => (∃ connection, Kept session connection) ∧
      session.dog.Watched heartbeatInterval 36000 late ∧
      session.dog.Answered heartbeatInterval)
    (fun session taking next ⟨⟨_, kept⟩, watched, answered⟩ ⟨punctual, answering⟩ taken => by
      refine ⟨kept.step taken, Watched.step kept watched punctual taken, ?_⟩
      rcases dog_of_step late kept taken with same | ⟨_, stepped, _, timely⟩
      · rw [same]
        exact answered
      · exact answered.step enough watched (timely answering) stepped)
    ⟨Kept.connect hub connectionId messageId nodeId payload now, .begin now (by decide),
      ⟨by simp [Session.connect, Watchdog.begin], nofun⟩⟩
  exact answered.unended time

instance (late : Nat) (session : Session) (taking : SessionLabel) :
    Decidable (session.Punctual late taking) :=
  match taking with
  | .pass duration => inferInstanceAs (Decidable (session.dog.watching = .running →
      session.dog.now + duration ≤ session.dog.next heartbeatInterval + late))
  | .others .. | .deliver .. | .tick .. | .read | .send .. | .writerEnds | .close => isTrue trivial

instance (session : Session) (taking : SessionLabel) : Decidable (session.Answering taking) :=
  match taking with
  | .tick .. => inferInstanceAs (Decidable (session.dog.beats ≤ session.dog.signs + 1))
  | .others .. | .deliver .. | .pass .. | .read | .send .. | .writerEnds | .close => isTrue trivial

def samplePayload : HeartbeatPayload :=
  { cpuUsage := 0, memoryUsage := 0, batteryLevel := none, platform := .linux, version := "1",
    status := .online
    capabilities := [], timestamp := 0 }

/-- The start of a session with an empty hub. -/
def sampleSession : Session := connect .new .nil .nil .nil samplePayload 0

def sampleValues : List ConnectedNode :=
  match identify ∅ (.text (.ok (.new .nil (.heartbeat .nil samplePayload)))) 0 .nil with
  | some (_, registry) => registry.values
  | none => []

/-- The agent is identified, and its first heartbeat on a tick is acknowledged before the second
one. -/
def answeredBeat : List SessionLabel :=
  [.deliver ⟨.nil, []⟩, .pass heartbeatInterval, .tick .nil samplePayload,
    .deliver ⟨.nil, sampleValues⟩, .read,
    .pass heartbeatInterval, .tick .nil samplePayload]

/-- No one answers, and the agent gives up on its third tick. -/
def unansweredBeats : List SessionLabel :=
  [.pass heartbeatInterval, .tick .nil samplePayload, .pass heartbeatInterval, .tick .nil samplePayload,
    .pass heartbeatInterval, .tick .nil samplePayload]

theorem acknowledged_of_answeredBeat :
    ∃ session, Execution (Session.step id) anything sampleSession answeredBeat session ∧
      session.dog.signs = 1 ∧
      ∃ connection, session.hub.connections[session.connection]? = some connection ∧
      (connection.phase = .identifying → connection.outbox.countP isAck = 0) ∧
      (connection.phase ≠ .identifying → connection.outbox.countP isAck + 1 ≤ session.heard ∧
        (connection.writerRuns = true → connection.outbox.countP isAck + 1 = session.heard)) ∧
      session.dog.signs ≤ session.dog.beats := by
  obtain ⟨session, run, good⟩ := exists_execution (fun session => session.dog.signs = 1)
    (show (replayWhere (Session.step id) (fun _ _ => true) sampleSession
      answeredBeat).any _ = true by decide)
  exact ⟨session, run.plain, of_decide_eq_true good, acknowledged_of_run run.plain⟩

theorem watched_of_unansweredBeats :
    ∃ session, Execution (Session.step id) (Punctual 0) sampleSession unansweredBeats session ∧
      session.dog.watching = .gaveUp 45000 ∧
      (∀ time, session.dog.watching = .gaveUp time → session.dog.last + 36000 ≤ time ∧
        time < session.dog.last + 51000 + 0) ∧
      (session.dog.watching = .running → session.dog.now < session.dog.last + 51000 + 0) := by
  obtain ⟨session, run, good⟩ := exists_execution (fun session => session.dog.watching = .gaveUp 45000)
    (show (replayWhere (Session.step id) (fun session taking => session.Punctual 0 taking)
      sampleSession unansweredBeats).any _ = true
      by decide)
  have punctual := run.weaken fun _ _ => of_decide_eq_true
  exact ⟨session, punctual, of_decide_eq_true good, watched_of_run punctual⟩

theorem unbroken_of_answeredBeat :
    ∃ session, Execution (Session.step id)
      (fun session taking => session.Punctual 0 taking ∧ session.Answering taking) sampleSession
      answeredBeat session ∧ session.dog.beats = 2 ∧ session.dog.watching ≠ .gaveUp 30000 := by
  obtain ⟨session, run, good⟩ := exists_execution (fun session => session.dog.beats = 2)
    (show (replayWhere (Session.step id) (fun session taking => session.Punctual 0 taking ∧
      session.Answering taking) sampleSession
      answeredBeat).any _ = true by decide)
  have timely := run.weaken fun _ _ => of_decide_eq_true
  exact ⟨session, timely, of_decide_eq_true good, unbroken_of_run (by decide) timely 30000⟩

end Session

end DistributedOs.Runtime
