import DistributedOs.Runtime.Heartbeats

/-! An agent that serves peers directly. It takes one connection after the other and runs the same
event loop on each, with its heartbeats, while the clients of this mode send heartbeats and task
requests. -/

namespace DistributedOs.Runtime

open DistributedOs.Protocol Relay Semantics

/-- What a client has sent over its connection, and whether it has closed it. -/
structure PeerConnection where
  sent : List Envelope
  closed : Bool

/-- Where `serve` is; it returns when a handshake fails. -/
inductive ServeState where
  | listening
  | handshaking (connection : Nat)
  | session (connection : Nat) (read : Nat) (dog : Watchdog)
  | returned

structure PeerSession where
  connection : Nat
  dog : Watchdog

/-- Connections are numbered as they come, and the first `accepted` have been accepted. The history
is newest first. -/
structure PeerServer where
  now : Nat
  connections : List PeerConnection
  accepted : Nat
  state : ServeState
  history : List PeerSession

inductive PeerServerLabel where
  | connect
  | sendHeartbeat (connection : Nat) (messageId : Discovery.Uuid) (nodeId : NodeId)
    (payload : HeartbeatPayload)
  | sendTask (connection : Nat) (messageId : Discovery.Uuid) (request : TaskRequest)
  | disconnect (connection : Nat)
  | accept
  | acceptFails
  | handshake (succeeds : Bool)
  | read
  | streamEnds
  | tick
  | pass (duration : Nat)

namespace PeerServer

def new : PeerServer :=
  { now := 0, connections := [], accepted := 0, state := .listening, history := [] }

def send (server : PeerServer) (connection : Nat) (envelope : Envelope) : Option PeerServer :=
  match server.connections[connection]? with
  | some peer =>
    if peer.closed then none
    else some { server with
      connections := server.connections.set connection { peer with sent := peer.sent ++ [envelope] } }
  | none => none

/-- The event loop goes on, or it is over and the next connection is awaited. -/
def goOn (server : PeerServer) (connection read : Nat) (dog : Watchdog) : PeerServer :=
  if dog.watching = .running then { server with state := .session connection read dog }
  else { server with state := .listening, history := { connection, dog } :: server.history }

def step (server : PeerServer) : PeerServerLabel → Option PeerServer
  | .connect =>
    some { server with connections := server.connections ++ [{ sent := [], closed := false }] }
  | .sendHeartbeat connection messageId nodeId payload =>
    server.send connection (.new messageId (.heartbeat nodeId payload))
  | .sendTask connection messageId request =>
    server.send connection (.new messageId (.taskRequest request))
  | .disconnect connection =>
    match server.connections[connection]? with
    | some peer =>
      some { server with connections := server.connections.set connection { peer with closed := true } }
    | none => none
  | .accept =>
    match server.state with
    | .listening =>
      if server.accepted < server.connections.length then
        some { server with state := .handshaking server.accepted, accepted := server.accepted + 1 }
      else none
    | _ => none
  | .acceptFails =>
    match server.state with
    | .listening => some server
    | _ => none
  | .handshake succeeds =>
    match server.state with
    | .handshaking connection =>
      if succeeds then some { server with state := .session connection 0 (.begin server.now) }
      else some { server with state := .returned }
    | _ => none
  | .read =>
    match server.state with
    | .session connection read dog =>
      match server.connections[connection]?.bind fun peer => peer.sent[read]? with
      | some envelope =>
        if isAck envelope then
          (dog.step heartbeatInterval tooLong .sign).map fun dog => server.goOn connection (read + 1) dog
        else some { server with state := .session connection (read + 1) dog }
      | none => none
    | _ => none
  | .streamEnds =>
    match server.state with
    | .session connection read dog =>
      (dog.step heartbeatInterval tooLong .stop).map fun dog => server.goOn connection read dog
    | _ => none
  | .tick =>
    match server.state with
    | .session connection read dog =>
      (dog.step heartbeatInterval tooLong .tick).map fun dog => server.goOn connection read dog
    | _ => none
  | .pass duration =>
    if 0 < duration then
      match server.state with
      | .session connection read dog =>
        (dog.step heartbeatInterval tooLong (.pass duration)).map fun dog =>
          { server with now := server.now + duration, state := .session connection read dog }
      | _ => some { server with now := server.now + duration }
    else none

/-- A session does not let a tick wait for longer than `late`. -/
def Punctual (late : Nat) (server : PeerServer) : PeerServerLabel → Prop
  | .pass duration =>
    match server.state with
    | .session _ _ dog => dog.Punctual heartbeatInterval late (.pass duration)
    | _ => True
  | _ => True

variable {server after : PeerServer} {label : PeerServerLabel} {late connection read : Nat}
  {dog : Watchdog}

/-- A session that is over, and when: its client or its third tick has ended it. -/
structure Over (late : Nat) (session : PeerSession) : Prop where
  ended : ∃ time, (session.dog.watching = .gaveUp time ∨ session.dog.watching = .ended time) ∧
    time ≤ session.dog.start + 45000 + late
  third : ∀ time, session.dog.watching = .gaveUp time → session.dog.beats = 2 ∧
    session.dog.start + 45000 ≤ time

/-- Sessions come in the order of their connections and do not overlap, and none has been
acknowledged. -/
structure Kept (late : Nat) (server : PeerServer) : Prop where
  unacknowledged : ∀ peer ∈ server.connections, ∀ envelope ∈ peer.sent, isAck envelope = false
  current : ∀ connection, server.state = .handshaking connection → connection < server.accepted ∧
    ∀ session ∈ server.history, session.connection < connection
  silent : ∀ connection read dog, server.state = .session connection read dog →
    dog.Silent heartbeatInterval late 3 ∧ dog.watching = .running ∧ dog.now = server.now ∧
    connection < server.accepted ∧
      ∀ session ∈ server.history, session.connection < connection ∧ session.dog.now ≤ dog.start
  bygone : ∀ session ∈ server.history, Over late session ∧ session.connection < server.accepted ∧
    session.dog.now ≤ server.now
  ordered : server.history.Pairwise fun later earlier =>
    earlier.connection < later.connection ∧ earlier.dog.now ≤ later.dog.start

theorem Kept.new (late : Nat) : Kept late .new where
  unacknowledged := by simp [PeerServer.new]
  current := nofun
  silent := nofun
  bygone := by simp [PeerServer.new]
  ordered := .nil

theorem silent_of_step (soon : late < 6000)
    (silent : dog.Silent heartbeatInterval late 3)
    (taken : dog.step heartbeatInterval tooLong watch = some next) (unsigned : watch ≠ .sign)
    (punctual : dog.Punctual heartbeatInterval late watch) :
    next.Silent heartbeatInterval late 3 := by
  have interval : heartbeatInterval = 15000 := rfl
  refine silent.step ?_ ?_ unsigned punctual taken
  · intro elapsed _
    rw [Bool.eq_false_iff, Ne, tooLong_iff]
    omega
  · intro _ _
    rw [tooLong_iff]
    omega

theorem Kept.connections {connections : List PeerConnection} (kept : Kept late server)
    (unacknowledged : ∀ peer ∈ connections, ∀ envelope ∈ peer.sent, isAck envelope = false) :
    Kept late { server with connections } :=
  ⟨unacknowledged, kept.current, kept.silent, kept.bygone, kept.ordered⟩

theorem Kept.send (kept : Kept late server) (other : isAck envelope = false)
    (taken : server.send connection envelope = some after) : Kept late after := by
  unfold PeerServer.send at taken
  split at taken
  · rename_i peer found
    split at taken
    · cases taken
    · cases taken
      refine kept.connections ?_
      intro changed member sent inside
      rcases List.mem_or_eq_of_mem_set member with old | rfl
      · exact kept.unacknowledged changed old sent inside
      · rcases List.mem_append.mp inside with before | new
        · exact kept.unacknowledged peer (List.mem_of_getElem? found) sent before
        · rw [List.mem_singleton.mp new]
          exact other
  · cases taken

/-- The loop of a session turns, and its watchdog may have ended it. -/
theorem Kept.goOn (kept : Kept late server) (state : server.state = .session connection read dog)
    (silent : next.Silent heartbeatInterval late 3) (start : next.start = dog.start)
    (now : next.now = dog.now) (bygone : next.watching ≠ .running →
      ∃ time, (next.watching = .gaveUp time ∨ next.watching = .ended time) ∧ time ≤ next.now) :
    Kept late (server.goOn connection reached next) := by
  have interval : heartbeatInterval = 15000 := rfl
  obtain ⟨_, _, sameNow, accepted, earlier⟩ := kept.silent connection read dog state
  unfold PeerServer.goOn
  split
  · rename_i running
    refine ⟨kept.unacknowledged, nofun, ?_, kept.bygone, kept.ordered⟩
    intro _ _ _ same
    cases same
    exact ⟨silent, running, now.trans sameNow, accepted, by rw [start]; exact earlier⟩
  · rename_i stopped
    obtain ⟨time, ended, _⟩ := bygone stopped
    refine ⟨kept.unacknowledged, nofun, nofun, ?_, List.pairwise_cons.mpr ⟨?_, kept.ordered⟩⟩
    · intro session member
      rcases List.mem_cons.mp member with rfl | old
      · refine ⟨⟨⟨time, ended, ?_⟩, ?_⟩, accepted, (now.trans sameNow).le⟩
        · rcases ended with gaveUp | closed
          · exact (silent.gaveUp time gaveUp).2.2
          · exact silent.ended time closed
        · intro at_ gaveUp
          have ⟨_, _, _⟩ := silent.gaveUp at_ gaveUp
          exact ⟨by simp only; omega, by simp only; omega⟩
      · exact kept.bygone session old
    · intro session old
      rw [start]
      exact earlier session old

theorem Kept.step (soon : late < 6000) (kept : Kept late server)
    (punctual : server.Punctual late label) (taken : server.step label = some after) :
    Kept late after := by
  cases label with
  | connect =>
    cases taken
    refine kept.connections ?_
    intro peer member envelope inside
    rcases List.mem_append.mp member with old | new
    · exact kept.unacknowledged peer old envelope inside
    · rw [List.mem_singleton.mp new] at inside
      cases inside
  | sendHeartbeat => exact kept.send rfl taken
  | sendTask => exact kept.send rfl taken
  | disconnect =>
    simp only [PeerServer.step] at taken
    split at taken
    · rename_i peer found
      cases taken
      refine kept.connections ?_
      intro changed member envelope inside
      rcases List.mem_or_eq_of_mem_set member with old | rfl
      · exact kept.unacknowledged changed old envelope inside
      · exact kept.unacknowledged peer (List.mem_of_getElem? found) envelope inside
    · cases taken
  | accept =>
    simp only [PeerServer.step] at taken
    split at taken
    · split at taken
      · cases taken
        refine ⟨kept.unacknowledged, ?_, nofun, ?_, kept.ordered⟩
        · intro connection same
          cases same
          exact ⟨Nat.lt_succ_self _, fun session member => (kept.bygone session member).2.1⟩
        · intro session member
          have ⟨bygone, accepted, past⟩ := kept.bygone session member
          exact ⟨bygone, Nat.lt_succ_of_lt accepted, past⟩
      · cases taken
    · cases taken
  | acceptFails =>
    simp only [PeerServer.step] at taken
    split at taken
    · cases taken
      exact kept
    · cases taken
  | handshake =>
    simp only [PeerServer.step] at taken
    split at taken
    · rename_i connection state
      have ⟨accepted, earlier⟩ := kept.current connection state
      split at taken
      · cases taken
        refine ⟨kept.unacknowledged, nofun, ?_, kept.bygone, kept.ordered⟩
        intro other read dog same
        cases same
        exact ⟨.begin server.now (by decide), rfl, rfl, accepted,
          fun session member => ⟨earlier session member, (kept.bygone session member).2.2⟩⟩
      · cases taken
        exact ⟨kept.unacknowledged, nofun, nofun, kept.bygone, kept.ordered⟩
    · cases taken
  | read =>
    simp only [PeerServer.step] at taken
    split at taken
    · rename_i connection read dog state
      split at taken
      · rename_i envelope found
        obtain ⟨peer, there, sent⟩ := Option.bind_eq_some_iff.mp found
        have other := kept.unacknowledged peer (List.mem_of_getElem? there) envelope
          (List.mem_of_getElem? sent)
        rw [other] at taken
        cases taken
        refine ⟨kept.unacknowledged, nofun, ?_, kept.bygone, kept.ordered⟩
        intro same position watchdog state'
        cases state'
        exact kept.silent connection read dog state
      · cases taken
    · cases taken
  | streamEnds =>
    simp only [PeerServer.step] at taken
    split at taken
    · rename_i connection read dog state
      obtain ⟨next, watched, rfl⟩ := Option.map_eq_some_iff.mp taken
      have ⟨silent, _⟩ := kept.silent connection read dog state
      have later := silent_of_step soon silent watched nofun trivial
      obtain ⟨_, rfl⟩ := Watchdog.of_step watched
      exact kept.goOn state later rfl rfl fun _ => ⟨dog.now, .inr rfl, Nat.le_refl _⟩
    · cases taken
  | tick =>
    simp only [PeerServer.step] at taken
    split at taken
    · rename_i connection read dog state
      obtain ⟨next, watched, rfl⟩ := Option.map_eq_some_iff.mp taken
      have ⟨silent, _⟩ := kept.silent connection read dog state
      have later := silent_of_step soon silent watched nofun trivial
      obtain ⟨running, _, ⟨_, rfl⟩ | ⟨_, rfl⟩⟩ := Watchdog.of_step watched
      · exact kept.goOn state later rfl rfl fun _ => ⟨dog.now, .inl rfl, Nat.le_refl _⟩
      · exact kept.goOn state later rfl rfl fun stopped => absurd running stopped
    · cases taken
  | pass duration =>
    simp only [PeerServer.step] at taken
    split at taken
    · split at taken
      · rename_i connection read dog state
        obtain ⟨_, watched, rfl⟩ := Option.map_eq_some_iff.mp taken
        have ⟨silent, running, sameNow, accepted, earlier⟩ := kept.silent connection read dog state
        have timely : dog.Punctual heartbeatInterval late (.pass duration) := by
          simp only [PeerServer.Punctual, state] at punctual
          exact punctual
        have later := silent_of_step soon silent watched nofun timely
        have did := Watchdog.of_step watched
        simp only at did
        subst did
        refine ⟨kept.unacknowledged, nofun, ?_, ?_, kept.ordered⟩
        · intro _ _ _ same
          cases same
          exact ⟨later, running, by simp only [sameNow], accepted, earlier⟩
        · intro session member
          have ⟨bygone, accepted, past⟩ := kept.bygone session member
          exact ⟨bygone, accepted, Nat.le_add_right_of_le past⟩
      · rename_i elsewhere
        cases taken
        refine ⟨kept.unacknowledged, kept.current, ?_, ?_, kept.ordered⟩
        · intro connection read dog state
          exact absurd state (elsewhere connection read dog)
        · intro session member
          have ⟨bygone, accepted, past⟩ := kept.bygone session member
          exact ⟨bygone, accepted, Nat.le_add_right_of_le past⟩
    · cases taken

/-- However clients connect, send and go, an agent that serves peers directly serves them one after
the other in the order in which they came, and ends every session itself at the third tick if its
client does not before. -/
theorem sessions_of_run {labels : List PeerServerLabel} (soon : late < 6000)
    (run : Execution PeerServer.step (Punctual late) .new labels server) :
    (∀ session ∈ server.history, Over late session) ∧
      (server.history.Pairwise fun later earlier =>
        earlier.connection < later.connection ∧ earlier.dog.now ≤ later.dog.start) ∧
      ∀ connection read dog, server.state = .session connection read dog →
        server.now ≤ dog.start + 45000 + late ∧
          ∀ session ∈ server.history, session.connection < connection ∧
          session.dog.now ≤ dog.start := by
  have interval : heartbeatInterval = 15000 := rfl
  have kept := run.invariant (Kept late)
    (fun _ _ _ kept punctual taken => kept.step soon punctual taken) (.new late)
  refine ⟨fun session member => (kept.bygone session member).1, kept.ordered, ?_⟩
  intro connection read dog state
  have ⟨silent, running, _, _, earlier⟩ := kept.silent connection read dog state
  have most := silent.now_le running
  exact ⟨by omega, earlier⟩

instance (late : Nat) (dog : Watchdog)
    (duration : Nat) : Decidable (dog.Punctual heartbeatInterval late (.pass duration)) :=
  inferInstanceAs (Decidable (dog.watching = .running →
    dog.now + duration ≤ dog.next heartbeatInterval + late))

instance (late : Nat) (server : PeerServer) (label : PeerServerLabel) :
    Decidable (server.Punctual late label) :=
  match label with
  | .pass duration =>
    match state : server.state with
    | .session _ _ dog =>
      decidable_of_iff (dog.Punctual heartbeatInterval late (.pass duration))
        (by simp [PeerServer.Punctual, state])
    | .listening | .handshaking _ | .returned => isTrue (by simp [PeerServer.Punctual, state])
  | .connect | .sendHeartbeat .. | .sendTask .. | .disconnect .. | .accept | .acceptFails
    | .handshake .. | .read | .streamEnds
  | .tick => isTrue trivial

/-- A client connects, asks for a task and stays, and a second one waits until the session of the
first is over. -/
def twoPeers : List PeerServerLabel :=
  [.connect, .sendTask 0 .nil
    { taskId := .nil, sender := .nil, target := none, kind := "ping", payload := .null },
      .connect, .accept,
    .handshake true, .read, .pass heartbeatInterval, .tick, .pass heartbeatInterval, .tick,
    .pass heartbeatInterval, .tick,
    .accept, .handshake true]

theorem sessions_of_twoPeers :
    ∃ server, Execution PeerServer.step (Punctual 0) new twoPeers server ∧
      server.history.map PeerSession.connection = [0] ∧
      (∀ session ∈ server.history, Over 0 session) ∧
      (server.history.Pairwise fun later earlier =>
        earlier.connection < later.connection ∧ earlier.dog.now ≤ later.dog.start) ∧
      ∀ connection read dog, server.state = .session connection read dog →
        server.now ≤ dog.start + 45000 + 0 ∧
          ∀ session ∈ server.history, session.connection < connection ∧
          session.dog.now ≤ dog.start := by
  obtain ⟨server, run, good⟩ := exists_execution
    (fun server => server.history.map PeerSession.connection = [0])
    (show (replayWhere PeerServer.step (fun server label => server.Punctual 0 label) new
      twoPeers).any _ = true by decide)
  have punctual := run.weaken fun _ _ => of_decide_eq_true
  exact ⟨server, punctual, of_decide_eq_true good, sessions_of_run (by decide) punctual⟩

end PeerServer

end DistributedOs.Runtime
