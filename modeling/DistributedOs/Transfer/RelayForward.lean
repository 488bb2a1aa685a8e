import DistributedOs.Semantics.Pump
import DistributedOs.Semantics.Table
import DistributedOs.Transfer.RelayServer

/-! What the fallback relay does for a pair of connections: it greets both of them, and two spawned
tasks copy what either one sends after its header to the other, while the loop goes on serving. -/

namespace DistributedOs.Transfer

open Semantics

def forwardBuffer : Nat := 65536

/-- `ok_msg`: a single zero byte. -/
def okMessage : Bytes := [0]

/-- What a connection has sent that `handle_peer` has not read: all that comes after the header. -/
def PeerStream.payload (peer : PeerStream) : Bytes := peer.sent.drop (4 + ofBe (peer.sent.take 4))

/-- One spawned `forward`, from the read half of one connection to the write half of another, which
takes nothing when it could not be greeted. -/
structure Forward where
  reader : Nat
  writer : Nat
  writable : Bool
  pump : Pump UInt8

/-- Two connections of a pairing, in either order. -/
def Pairing.Joins (pairing : Pairing) (reader writer : Nat) : Prop :=
  reader = pairing.second ∧ writer = pairing.first.stream ∨ reader = pairing.first.stream ∧
  writer = pairing.second

/-- The server, its tasks, and what has been written to each connection. -/
structure RelaySystem where
  server : RelayServer
  forwards : List Forward
  received : Nat → Bytes

/-- A step of the server, with whether the second and the first peer of a pairing can be greeted, or
one of a task. -/
inductive RelaySystemLabel where
  | server (label : RelayLabel) (toSecond toFirst : Bool)
  | forward (index : Nat) (move : PumpMove)

namespace RelaySystem

def new : RelaySystem := { server := .new, forwards := [], received := fun _ => [] }

/-- What a `write_all` of the greeting comes to, whose result is ignored. -/
def greeting (written : Bool) : Bytes := if written then okMessage else []

/-- What is written to a connection comes after what was written before. -/
def deliver (received : Nat → Bytes) (stream : Nat) (bytes : Bytes) : Nat → Bytes :=
  fun other => if other = stream then received other ++ bytes else received other

/-- Both peers are greeted, the one that came last first, and the two tasks are spawned. -/
def spawn (system : RelaySystem) (after : RelayServer) (pairing : Pairing)
    (toSecond toFirst : Bool) : RelaySystem :=
  { server := after
    forwards := system.forwards ++
      [{ reader := pairing.second, writer := pairing.first.stream, writable := toFirst, pump := .new },
        { reader := pairing.first.stream, writer := pairing.second, writable := toSecond, pump := .new }]
    received := deliver (deliver system.received pairing.second (greeting toSecond))
      pairing.first.stream (greeting toFirst) }

def made (before after : RelayServer) : Option Pairing :=
  if before.pairings.length < after.pairings.length then after.pairings.head? else none

def serverStep (system : RelaySystem) (label : RelayLabel) (toSecond toFirst : Bool) :
    Option RelaySystem :=
  (system.server.step label).map fun after =>
    match made system.server after with
    | some pairing => system.spawn after pairing toSecond toFirst
    | none => { system with server := after }

/-- What a move of a task makes of the system. -/
def moved (system : RelaySystem) (index : Nat) (forward : Forward)
    (result : Pump UInt8 × Bytes) : RelaySystem :=
  { system with
    forwards := system.forwards.set index { forward with pump := result.1 }
    received := deliver system.received forward.writer result.2 }

/-- Whether the connection that a task writes to allows the move. -/
def admits (forward : Forward) : PumpMove → Bool
  | .write _ => forward.writable
  | .read _ | .readEnd | .readFails | .writeFails => true

def forwardStep (system : RelaySystem) (index : Nat) (move : PumpMove) : Option RelaySystem :=
  match system.forwards[index]? with
  | none => none
  | some forward =>
    match system.server.streams[forward.reader]? with
    | none => none
    | some peer =>
      if admits forward move then
        (forward.pump.step forwardBuffer peer.payload peer.ended move).map (system.moved index forward)
      else none

def step (system : RelaySystem) : RelaySystemLabel → Option RelaySystem
  | .server label toSecond toFirst => system.serverStep label toSecond toFirst
  | .forward index move => system.forwardStep index move

variable {system after : RelaySystem} {server next : RelayServer} {label : RelayLabel}
  {peer : PeerStream} {sessionId : String} {stream index : Nat} {forward : Forward}
  {toSecond toFirst : Bool} {move : PumpMove} {pairing : Pairing}

theorem header_of_read (read : readSessionId peer = .session sessionId) :
    4 ≤ peer.sent.length ∧ 4 + ofBe (peer.sent.take 4) ≤ peer.sent.length := by
  unfold readSessionId at read
  simp only at read
  by_cases short : peer.sent.length < 4
  · rw [if_pos short] at read
    split at read <;> cases read
  · rw [if_neg short] at read
    split at read
    · cases read
    · split at read
      · split at read <;> cases read
      · rename_i whole
        rw [List.length_drop] at whole
        omega

theorem payload_append (read : readSessionId peer = .session sessionId) (more : Bytes)
    (ended : Bool) :
    ({ sent := peer.sent ++ more, ended } : PeerStream).payload = peer.payload ++ more := by
  have ⟨four, whole⟩ := header_of_read read
  simp only [PeerStream.payload]
  rw [List.take_append_of_le_length four, List.drop_append_of_le_length whole]

/-- A connection that the server knows stays known, and sends nothing after its end. -/
theorem peer_of_step (taken : server.step label = some next)
    (found : server.streams[stream]? = some peer) :
    ∃ more ended, next.streams[stream]? = some { sent := peer.sent ++ more, ended } ∧
      (peer.ended = true → more = [] ∧ ended = true) := by
  have same : next.streams = server.streams →
      ∃ more ended, next.streams[stream]? = some { sent := peer.sent ++ more, ended } ∧
      (peer.ended = true → more = [] ∧ ended = true) := by
    intro unchanged
    exact ⟨[], peer.ended, by rw [unchanged, found, List.append_nil], fun shut => ⟨rfl, shut⟩⟩
  have changes : ∀ other before more ended, server.streams[other]? = some before →
      (before.ended = true → more = [] ∧ ended = true) →
      next.streams = server.streams.set other { sent := before.sent ++ more, ended } →
      ∃ more ended, next.streams[stream]? = some { sent := peer.sent ++ more, ended } ∧
        (peer.ended = true → more = [] ∧ ended = true) := by
    intro other before more ended there closed changed
    by_cases here : other = stream
    · subst here
      cases there.symm.trans found
      refine ⟨more, ended, ?_, closed⟩
      rw [changed, List.getElem?_set_self (List.getElem?_eq_some_iff.mp found).1]
    · refine ⟨[], peer.ended, ?_, fun shut => ⟨rfl, shut⟩⟩
      rw [changed, List.getElem?_set_ne here, found, List.append_nil]
  have did := RelayServer.of_step taken
  cases label with
  | connect =>
    refine ⟨[], peer.ended, ?_, fun shut => ⟨rfl, shut⟩⟩
    rw [did]
    simp only
    rw [List.getElem?_append_left (List.getElem?_eq_some_iff.mp found).1, found, List.append_nil]
  | send other bytes =>
    obtain ⟨before, there, unended, rfl⟩ := did
    refine changes other before bytes before.ended there (fun shut => ?_) rfl
    cases unended.symm.trans shut
  | close other =>
    obtain ⟨before, there, rfl⟩ := did
    refine changes other before [] true there (fun _ => ⟨rfl, rfl⟩) ?_
    simp only [List.append_nil]
  | serve =>
    obtain ⟨_, _, ⟨_, _, rfl⟩ | ⟨_, rfl⟩⟩ := did
    · refine same ?_
      unfold RelayServer.join
      split <;> rfl
    · exact same rfl
  | acceptFails | tick =>
    cases did
    exact same rfl
  | accept =>
    obtain ⟨_, rfl⟩ := did
    exact same rfl
  | wake =>
    obtain ⟨_, _, _, _, rfl⟩ := did
    exact same rfl

theorem presents_of_step (taken : server.step label = some next)
    (presents : server.Presents stream sessionId) :
    next.Presents stream sessionId := by
  obtain ⟨_, found, read⟩ := Option.map_eq_some_iff.mp presents
  obtain ⟨more, ended, later, _⟩ := peer_of_step taken found
  rw [RelayServer.Presents, later]
  exact congrArg some (RelayServer.readSessionId_append read more ended)

/-- What the writer of a task has received: the greeting, if it could be greeted, and a copy of what
the reader has sent after its header. -/
structure Relays (server : RelayServer) (received : Nat → Bytes) (forward : Forward)
    (peer : PeerStream) (copied : Bytes) :
    Prop where
  sends : server.streams[forward.reader]? = some peer
  headed : ∃ sessionId, readSessionId peer = .session sessionId
  received : received forward.writer = greeting forward.writable ++ copied
  blocked : forward.writable = false → copied = []
  copies : Pump.Copies forwardBuffer peer.payload peer.ended copied forward.pump

/-- Tasks and pairings belong together, no two tasks write to one connection, and a connection that
no task writes to has received nothing. -/
structure Kept (system : RelaySystem) : Prop where
  server : system.server.Kept
  presented : ∀ pairing ∈ system.server.pairings,
    ∃ sessionId, system.server.Presents pairing.first.stream sessionId ∧
    system.server.Presents pairing.second sessionId
  spawned : ∀ pairing ∈ system.server.pairings, ∀ reader writer, pairing.Joins reader writer →
    ∃ forward ∈ system.forwards, forward.reader = reader ∧ forward.writer = writer
  paired : ∀ forward ∈ system.forwards, ∃ pairing ∈ system.server.pairings,
    pairing.Joins forward.reader forward.writer
  relays : ∀ forward ∈ system.forwards, ∃ peer copied,
    Relays system.server system.received forward peer copied
  apart : system.forwards.Pairwise fun one other => one.writer ≠ other.writer
  quiet : ∀ stream, (∀ forward ∈ system.forwards, forward.writer ≠ stream) → system.received stream = []

theorem Kept.new : Kept .new where
  server := .new
  presented := by simp [RelaySystem.new, RelayServer.new]
  spawned := by simp [RelaySystem.new, RelayServer.new]
  paired := by simp [RelaySystem.new]
  relays := by simp [RelaySystem.new]
  apart := .nil
  quiet := fun _ _ => rfl

theorem deliver_self (received : Nat → Bytes) (stream : Nat) (bytes : Bytes) :
    deliver received stream bytes stream = received stream ++ bytes := if_pos rfl

theorem deliver_ne (different : other ≠ stream) (received : Nat → Bytes) (bytes : Bytes) :
    deliver received stream bytes other = received other := if_neg different

theorem Relays.serverStep {received : Nat → Bytes}
    (relays : Relays server received forward peer copied) (taken : server.step label = some next) :
    ∃ later, Relays next received forward later copied := by
  obtain ⟨more, ended, found, closed⟩ := peer_of_step taken relays.sends
  obtain ⟨sessionId, read⟩ := relays.headed
  have payload := payload_append read more ended
  refine ⟨_, found, ⟨sessionId, RelayServer.readSessionId_append read more ended⟩, relays.received,
    relays.blocked, ?_⟩
  refine relays.copies.grow (payload ▸ List.prefix_append _ _) ?_
  intro shut
  have ⟨noMore, overLater⟩ := closed shut
  exact ⟨by rw [payload, noMore, List.append_nil], overLater⟩

theorem Relays.congr {received changed : Nat → Bytes}
    (relays : Relays server received forward peer copied)
    (same : changed forward.writer = received forward.writer) :
    Relays server changed forward peer copied :=
  ⟨relays.sends, relays.headed, same.trans relays.received, relays.blocked, relays.copies⟩

theorem Kept.serve (kept : Kept system) (taken : system.server.step label = some next)
    (same : next.pairings = system.server.pairings) : Kept { system with server := next } where
  server := kept.server.step taken
  presented := by
    intro pairing member
    obtain ⟨sessionId, first, second⟩ := kept.presented pairing (same ▸ member)
    exact ⟨sessionId, presents_of_step taken first, presents_of_step taken second⟩
  spawned := fun pairing member => kept.spawned pairing (same ▸ member)
  paired := by
    intro forward member
    obtain ⟨pairing, inside, joins⟩ := kept.paired forward member
    exact ⟨pairing, same ▸ inside, joins⟩
  relays := by
    intro forward member
    obtain ⟨_, copied, relays⟩ := kept.relays forward member
    obtain ⟨later, still⟩ := relays.serverStep taken
    exact ⟨later, copied, still⟩
  apart := kept.apart
  quiet := kept.quiet

theorem Relays.new {received : Nat → Bytes}
    (presents : server.Presents reader sessionId) (greeted : received writer = greeting writable) :
    ∃ peer copied, Relays server received
      { reader, writer, writable, pump := .new } peer copied := by
  obtain ⟨peer, found, read⟩ := Option.map_eq_some_iff.mp presents
  exact ⟨peer, [], found, ⟨sessionId, read⟩, by rw [greeted, List.append_nil], fun _ => rfl, .new _ _ _⟩

theorem Kept.unwritten (kept : Kept system) (taken : system.server.step .serve = some next)
    (made : next.pairings = pairing :: system.server.pairings)
    (inside : stream ∈ [pairing.first.stream, pairing.second]) :
    ∀ forward ∈ system.forwards, forward.writer ≠ stream := by
  intro forward member
  obtain ⟨earlier, paired, joins⟩ := kept.paired forward member
  have ⟨_, _, fresh, _⟩ := kept.server.pairing taken made
  have ⟨notFirst, notSecond⟩ := fresh earlier paired stream inside
  rcases joins with ⟨_, writes⟩ | ⟨_, writes⟩
  · exact writes ▸ notFirst.symm
  · exact writes ▸ notSecond.symm

theorem Kept.spawn (kept : Kept system) (taken : system.server.step .serve = some next)
    (made : next.pairings = pairing :: system.server.pairings) (toSecond toFirst : Bool) :
    Kept (system.spawn next pairing toSecond toFirst) := by
  have ⟨⟨sessionId, first, second⟩, differ, _, _⟩ := kept.server.pairing taken made
  have firstUnwritten : ∀ forward ∈ system.forwards, forward.writer ≠ pairing.first.stream :=
    kept.unwritten taken made (by simp)
  have secondUnwritten : ∀ forward ∈ system.forwards, forward.writer ≠ pairing.second :=
    kept.unwritten taken made (by simp)
  have others : ∀ stream, stream ≠ pairing.first.stream → stream ≠ pairing.second →
      (system.spawn next pairing toSecond toFirst).received stream = system.received stream := by
    intro stream notFirst notSecond
    simp only [RelaySystem.spawn]
    rw [deliver_ne notFirst, deliver_ne notSecond]
  have firstReceived :
      (system.spawn next pairing toSecond toFirst).received pairing.first.stream = greeting toFirst := by
    simp only [RelaySystem.spawn]
    rw [deliver_self, deliver_ne differ, kept.quiet _ firstUnwritten, List.nil_append]
  have secondReceived :
      (system.spawn next pairing toSecond toFirst).received pairing.second = greeting toSecond := by
    simp only [RelaySystem.spawn]
    rw [deliver_ne differ.symm, deliver_self, kept.quiet _ secondUnwritten, List.nil_append]
  refine ⟨kept.server.step taken, ?_, ?_, ?_, ?_, ?_, ?_⟩
  · intro earlier member
    rcases List.mem_cons.mp (made ▸ member) with rfl | old
    · exact ⟨sessionId, presents_of_step taken first, presents_of_step taken second⟩
    · obtain ⟨name, one, other⟩ := kept.presented earlier old
      exact ⟨name, presents_of_step taken one, presents_of_step taken other⟩
  · intro earlier member reader writer joins
    rcases List.mem_cons.mp (made ▸ member) with rfl | old
    · rcases joins with ⟨rfl, rfl⟩ | ⟨rfl, rfl⟩
      · exact ⟨_, List.mem_append_right _ List.mem_cons_self, rfl, rfl⟩
      · exact ⟨_, List.mem_append_right _ (List.mem_cons_of_mem _ List.mem_cons_self), rfl, rfl⟩
    · obtain ⟨forward, inside, reads, writes⟩ := kept.spawned earlier old reader writer joins
      exact ⟨forward, List.mem_append_left _ inside, reads, writes⟩
  · intro forward member
    have here : pairing ∈ next.pairings := made ▸ List.mem_cons_self
    rcases List.mem_append.mp member with old | new
    · obtain ⟨earlier, inside, joins⟩ := kept.paired forward old
      exact ⟨earlier, made ▸ List.mem_cons_of_mem _ inside, joins⟩
    · rcases List.mem_pair.mp new with rfl | rfl
      · exact ⟨pairing, here, .inl ⟨rfl, rfl⟩⟩
      · exact ⟨pairing, here, .inr ⟨rfl, rfl⟩⟩
  · intro forward member
    rcases List.mem_append.mp member with old | new
    · obtain ⟨_, copied, relays⟩ := kept.relays forward old
      obtain ⟨later, still⟩ := relays.serverStep taken
      exact ⟨later, copied,
        still.congr (others _ (firstUnwritten forward old) (secondUnwritten forward old))⟩
    · rcases List.mem_pair.mp new with rfl | rfl
      · exact Relays.new (presents_of_step taken second) firstReceived
      · exact Relays.new (presents_of_step taken first) secondReceived
  · refine List.pairwise_append.mpr ⟨kept.apart, List.pairwise_pair.mpr differ, ?_⟩
    intro forward old _ new
    rcases List.mem_pair.mp new with rfl | rfl
    · exact firstUnwritten forward old
    · exact secondUnwritten forward old
  · intro stream unwritten
    have notFirst := unwritten _ (List.mem_append_right _ List.mem_cons_self)
    have notSecond := unwritten _ (List.mem_append_right _ (List.mem_cons_of_mem _ List.mem_cons_self))
    rw [others stream (Ne.symm notFirst) (Ne.symm notSecond)]
    exact kept.quiet stream fun forward old => unwritten forward (List.mem_append_left _ old)

/-- What a step does: the server's, with a pairing or without one, and a task's. -/
theorem of_step (taken : system.step taking = some after) :
    match taking with
    | .server label toSecond toFirst =>
      ∃ next, system.server.step label = some next ∧
        (next.pairings = system.server.pairings ∧ after = { system with server := next } ∨
          label = .serve ∧ ∃ pairing, next.pairings = pairing :: system.server.pairings ∧
            after = system.spawn next pairing toSecond toFirst)
    | .forward index move =>
      ∃ forward peer result, system.forwards[index]? = some forward ∧
        system.server.streams[forward.reader]? = some peer ∧ admits forward move = true ∧
        forward.pump.step forwardBuffer peer.payload peer.ended move = some result ∧
        after = system.moved index forward result := by
  cases taking with
  | server =>
    obtain ⟨next, served, rfl⟩ := Option.map_eq_some_iff.mp taken
    refine ⟨next, served, ?_⟩
    rcases RelayServer.pairings_of_step served with same | ⟨rfl, pairing, paired⟩
    · left
      have unmade : made system.server next = none := by
        rw [made, same, if_neg (Nat.lt_irrefl _)]
      exact ⟨same, by rw [unmade]⟩
    · right
      have new : made system.server next = some pairing := by
        rw [made, paired, List.length_cons, if_pos (Nat.lt_succ_self _), List.head?_cons]
      exact ⟨rfl, pairing, paired, by rw [new]⟩
  | forward =>
    simp only [step, forwardStep] at taken
    split at taken
    · cases taken
    · rename_i forward found
      split at taken
      · cases taken
      · rename_i peer sends
        split at taken
        · rename_i admitted
          obtain ⟨result, moves, rfl⟩ := Option.map_eq_some_iff.mp taken
          exact ⟨forward, peer, result, found, sends, admitted, moves, rfl⟩
        · cases taken

theorem piece_of_admits {result : Pump UInt8 × Bytes} {source : Bytes} {ended : Bool}
    (admitted : admits forward move = true)
    (taken : forward.pump.step forwardBuffer source ended move = some result)
    (blocked : forward.writable = false) :
    result.2 = [] := by
  cases move with
  | write =>
    rw [admits, blocked] at admitted
    cases admitted
  | read | readEnd | readFails | writeFails =>
    simp only [Pump.step] at taken
    split at taken <;> cases taken
    rfl

theorem Kept.task {result : Pump UInt8 × Bytes} (kept : Kept system)
    (found : system.forwards[index]? = some forward)
    (sends : system.server.streams[forward.reader]? = some peer)
    (admitted : admits forward move = true)
    (taken : forward.pump.step forwardBuffer peer.payload peer.ended move = some result) :
    Kept (system.moved index forward result) := by
  have member : forward ∈ system.forwards := List.mem_of_getElem? found
  have changed : ∀ other ∈ system.forwards.set index { forward with pump := result.1 },
      other = { forward with pump := result.1 } ∨ other ∈ system.forwards ∧
      other.writer ≠ forward.writer :=
    fun _ => mem_set_key kept.apart found
  refine ⟨kept.server, kept.presented, ?_, ?_, ?_, ?_, ?_⟩
  · intro pairing paired reader writer joins
    obtain ⟨other, among, reads, writes⟩ := kept.spawned pairing paired reader writer joins
    have kind : other = forward ∧ _ ∨
        other ∈ system.forwards.set index { forward with pump := result.1 } :=
      mem_set_of_mem found among
    rcases kind with ⟨rfl, here⟩ | still
    · exact ⟨_, here, reads, writes⟩
    · exact ⟨other, still, reads, writes⟩
  · intro other among
    rcases changed other among with rfl | ⟨old, _⟩
    · exact kept.paired forward member
    · exact kept.paired other old
  · intro other among
    rcases changed other among with rfl | ⟨old, different⟩
    · obtain ⟨_, copied, relays⟩ := kept.relays forward member
      cases sends.symm.trans relays.sends
      refine ⟨peer, copied ++ result.2, sends, relays.headed, ?_, ?_, relays.copies.step taken⟩
      · simp only [moved]
        rw [deliver_self, relays.received, List.append_assoc]
      · intro blocked
        rw [relays.blocked blocked, piece_of_admits admitted taken blocked, List.append_nil]
    · obtain ⟨peer, copied, relays⟩ := kept.relays other old
      exact ⟨peer, copied, relays.congr (deliver_ne different _ _)⟩
  · exact pairwise_set_key kept.apart found rfl
  · intro stream unwritten
    have old : ∀ other ∈ system.forwards, other.writer ≠ stream := by
      intro other among
      have kind : other = forward ∧ _ ∨
          other ∈ system.forwards.set index { forward with pump := result.1 } :=
        mem_set_of_mem found among
      rcases kind with ⟨rfl, here⟩ | still
      · exact unwritten { other with pump := result.1 } here
      · exact unwritten other still
    simp only [moved]
    rw [deliver_ne (Ne.symm (old forward member))]
    exact kept.quiet stream old

theorem Kept.step (kept : Kept system) (taken : system.step taking = some after) : Kept after := by
  have did := of_step taken
  cases taking with
  | server _ toSecond toFirst =>
    obtain ⟨_, served, ⟨same, rfl⟩ | ⟨rfl, _, paired, rfl⟩⟩ := did
    · exact kept.serve served same
    · exact kept.spawn served paired toSecond toFirst
  | forward =>
    obtain ⟨_, _, _, found, sends, admitted, moves, rfl⟩ := did
    exact kept.task found sends admitted moves

theorem Kept.run (run : Execution RelaySystem.step anything .new labels system) : Kept system :=
  run.invariant Kept (fun _ _ _ kept _ taken => kept.step taken) .new

/-- What one peer of a pair receives: the greeting, if it comes through, and then the front of what
the other one sends after its header, of which the relay holds a buffer at most. All of it is there
when the task has finished, as the sender has. -/
def Relayed (system : RelaySystem) (reader writer : Nat) : Prop :=
  ∃ forward ∈ system.forwards, ∃ peer greeted copied,
    forward.reader = reader ∧ forward.writer = writer ∧ system.server.streams[reader]? = some peer ∧
      system.received writer = greeting greeted ++ copied ∧ copied <+: peer.payload ∧
      forward.pump.taken ≤ copied.length + forwardBuffer ∧
      (forward.pump.state = .finished → peer.ended = true ∧ copied = peer.payload)

theorem Kept.relayed (kept : Kept system) (paired : pairing ∈ system.server.pairings)
    (joins : pairing.Joins reader writer) : system.Relayed reader writer := by
  obtain ⟨forward, member, rfl, rfl⟩ := kept.spawned pairing paired reader writer joins
  obtain ⟨peer, copied, relays⟩ := kept.relays forward member
  refine ⟨forward, member, peer, forward.writable, copied, rfl, rfl, relays.sends, relays.received,
    relays.copies.isFront,
    relays.copies.taken_le, ?_⟩
  intro finished
  have ⟨whole, shut⟩ := relays.copies.eq_of_finished finished
  exact ⟨shut, whole⟩

/-- Whatever is going on, the two peers of a pair have presented one session and receive what the
other one sends, and a connection in no pair receives nothing. -/
theorem relayed_of_run {labels : List RelaySystemLabel}
    (run : Execution RelaySystem.step anything .new labels system) :
    (∀ pairing ∈ system.server.pairings,
      (∃ sessionId, system.server.Presents pairing.first.stream sessionId ∧
        system.server.Presents pairing.second sessionId) ∧
        ∀ reader writer, pairing.Joins reader writer → system.Relayed reader writer) ∧
      ∀ stream, (∀ pairing ∈ system.server.pairings, stream ≠ pairing.first.stream ∧
        stream ≠ pairing.second) →
        system.received stream = [] := by
  have kept := Kept.run run
  refine ⟨fun pairing paired =>
    ⟨kept.presented pairing paired, fun _ _ joins => kept.relayed paired joins⟩, ?_⟩
  intro stream alone
  refine kept.quiet stream ?_
  intro forward member same
  obtain ⟨pairing, paired, joins⟩ := kept.paired forward member
  have ⟨notFirst, notSecond⟩ := alone pairing paired
  rcases joins with ⟨_, writes⟩ | ⟨_, writes⟩
  · exact notFirst (same.symm.trans writes)
  · exact notSecond (same.symm.trans writes)

/-- Two peers of the session `a`, of which the first one waits for its time, and what the second one
sends then. -/
def pairedAndSent : List RelaySystemLabel :=
  (RelayServer.twoPeers ++
    [RelayLabel.tick peerTimeout, .wake, .accept, .serve, .send 1 [104, 105]]).map
      (.server · true true) ++
    [.forward 0 (.read 2), .forward 0 (.write 1)]

/-- Part of it has been written to the first peer, after the greeting. -/
theorem relayed_of_pairedAndSent :
    ∃ system : RelaySystem, Execution RelaySystem.step anything new pairedAndSent system ∧
      system.received 0 = [0, 104] ∧ system.received 1 = [0] ∧
      ∃ pairing ∈ system.server.pairings, system.Relayed pairing.second pairing.first.stream := by
  obtain ⟨system, run, good⟩ := exists_execution
    (fun system => system.received 0 = [0, 104] ∧ system.received 1 = [0] ∧
      (system.server.pairings.any fun pairing => pairing.second = 1 ∧ pairing.first.stream = 0))
    (show (replayWhere RelaySystem.step (fun _ _ => true) new pairedAndSent).any _ = true by decide)
  obtain ⟨first, second, paired⟩ := of_decide_eq_true good
  obtain ⟨pairing, member, _⟩ := List.any_eq_true.mp paired
  have ⟨pairs, _⟩ := relayed_of_run run.plain
  exact ⟨system, run.plain, first, second, pairing, member,
    (pairs pairing member).2 _ _ (.inl ⟨rfl, rfl⟩)⟩

def withCopy (system : RelaySystem) (index : Nat) (forward : Forward)
    (copy : Pump UInt8 × Bytes) : RelaySystem :=
  { system with
    forwards := system.forwards.set index { forward with pump := copy.1 }
    received := fun stream => if stream = forward.writer then okMessage ++ copy.2
      else system.received stream }

theorem step_withCopy (found : system.forwards[index]? = some forward)
    (sends : system.server.streams[forward.reader]? = some peer)
    (writable : forward.writable = true) {copy next : Pump UInt8 × Bytes}
    (taken : Pump.copying forwardBuffer peer.payload peer.ended copy move = some next) :
    RelaySystem.step (system.withCopy index forward copy) (.forward index move) =
      some (system.withCopy index forward next) := by
  obtain ⟨_, moves, rfl⟩ := Option.map_eq_some_iff.mp taken
  have here : (system.withCopy index forward copy).forwards[index]? =
      some { forward with pump := copy.1 } :=
    List.getElem?_set_self (List.getElem?_eq_some_iff.mp found).1
  have there : (system.withCopy index forward copy).server.streams[forward.reader]? = some peer := sends
  have admitted : admits { forward with pump := copy.1 } move = true := by
    cases move <;> simp [admits, writable]
  simp only [RelaySystem.step, forwardStep, here, there, admitted, if_true, moves, Option.map_some]
  refine congrArg some ?_
  simp only [moved, withCopy, List.set_set, RelaySystem.mk.injEq, true_and]
  funext stream
  by_cases same : stream = forward.writer
  · simp only [deliver, same, if_true, List.append_assoc]
  · simp only [deliver, if_neg same]

/-- Nothing in the system stops a running task: whatever the other connections do, steps of the task
alone bring all that has been sent to the greeted peer, finish when the sender has, and touch
nothing else. -/
theorem exists_forwarding {labels : List RelaySystemLabel}
    (run : Execution RelaySystem.step anything .new labels system)
    (found : system.forwards[index]? = some forward) (running : forward.pump.state = .running)
    (writable : forward.writable = true) :
    ∃ peer moves pump, system.server.streams[forward.reader]? = some peer ∧
      Execution RelaySystem.step anything system (List.map (.forward index) moves)
        (system.withCopy index forward (pump, peer.payload)) ∧
      pump.state = if peer.ended then .finished else .running := by
  obtain ⟨peer, copied, relays⟩ := (Kept.run run).relays forward (List.mem_of_getElem? found)
  obtain ⟨moves, pump, copies, stops⟩ := relays.copies.exists_run (by decide) running
  refine ⟨peer, moves, pump, relays.sends, ?_, stops⟩
  have lifted := copies.lift (system.withCopy index forward) (RelaySystemLabel.forward index)
    fun _ _ _ _ taken => step_withCopy found relays.sends writable taken
  have same : system.withCopy index forward (forward.pump, copied) = system := by
    obtain ⟨place, here⟩ := List.getElem?_eq_some_iff.mp found
    have received : (fun stream => if stream = forward.writer then okMessage ++ copied
      else system.received stream) =
        system.received := by
      funext stream
      split
      · rename_i writes
        rw [writes, relays.received, writable, greeting, if_pos rfl]
      · rfl
    simp only [withCopy, received]
    rw [← here, List.set_getElem_self place]
  rwa [same] at lifted

theorem exists_forwarding_of_pairedAndSent :
    ∃ (system : RelaySystem) (forward : Forward),
      Execution RelaySystem.step anything new pairedAndSent system ∧
      system.forwards[0]? = some forward ∧
      ∃ peer moves pump, system.server.streams[forward.reader]? = some peer ∧
        Execution RelaySystem.step anything system (List.map (.forward 0) moves)
          (system.withCopy 0 forward (pump, peer.payload)) ∧
        pump.state = if peer.ended then .finished else .running := by
  obtain ⟨system, run, good⟩ := exists_execution
    (fun system => system.forwards[0]?.any fun forward => forward.pump.state = .running ∧
      forward.writable = true)
    (show (replayWhere RelaySystem.step (fun _ _ => true) new pairedAndSent).any _ = true by decide)
  obtain ⟨forward, found, ready⟩ := (Option.any_eq_true _ _).mp good
  have ⟨running, writable⟩ := of_decide_eq_true ready
  exact ⟨system, forward, run.plain, found, exists_forwarding run.plain found running writable⟩

end RelaySystem

end DistributedOs.Transfer
