import DistributedOs.Semantics.Codec
import DistributedOs.Semantics.Execution
import DistributedOs.Semantics.Utf8
import Mathlib.Data.List.AList

/-! The fallback relay, which pairs TCP connections by the session id they present. Its loop
serves one connection at a time, and the first one of a session by waiting for another. -/

namespace DistributedOs.Transfer

open Semantics

/-- `PEER_TIMEOUT`, in milliseconds. -/
def peerTimeout : Nat := 30000

structure PeerStream where
  sent : Bytes
  ended : Bool

/-- Connections are numbered as they come. -/
structure RelayPeer where
  sessionId : String
  stream : Nat
  connectedAt : Nat

/-- The second peer takes the first one from its slot. -/
structure Pairing where
  first : RelayPeer
  second : Nat
  time : Nat

/-- Where the accept loop is: awaiting a connection, in `handle_peer` reading a header, or in it
asleep until a peer's wait is over. -/
inductive Serving where
  | accepting
  | reading (stream : Nat)
  | waiting (sessionId : String) (wakes : Nat)
  deriving DecidableEq

/-- The first `accepted` connections have been accepted. The pairings are newest first. -/
structure RelayServer where
  now : Nat
  streams : List PeerStream
  accepted : Nat
  serving : Serving
  sessions : AList fun _ : String => Option RelayPeer
  pairings : List Pairing

inductive RelayLabel where
  | connect
  | send (stream : Nat) (bytes : Bytes)
  | close (stream : Nat)
  | acceptFails
  | accept
  | serve
  | wake
  | tick (duration : Nat)

inductive ReadSession where
  | session (id : String)
  | rejected
  | pending
  deriving DecidableEq

/-- The two `read_exact` of a header: a length of four bytes, and the id. -/
def readSessionId (stream : PeerStream) : ReadSession :=
  let short := if stream.ended then ReadSession.rejected else .pending
  if stream.sent.length < 4 then short
  else
    let idLen := ofBe (stream.sent.take 4)
    if idLen = 0 ∨ 256 < idLen then .rejected
    else if (stream.sent.drop 4).length < idLen then short
    else .session (fromUtf8Lossy ((stream.sent.drop 4).take idLen))

namespace RelayServer

def new : RelayServer :=
  { now := 0, streams := [], accepted := 0, serving := .accepting, sessions := ∅, pairings := [] }

def join (server : RelayServer) (stream : Nat) (sessionId : String) : RelayServer :=
  match server.sessions.lookup sessionId with
  | some (some first) =>
    { server with
      serving := .accepting
      sessions := server.sessions.insert sessionId none
      pairings := { first, second := stream, time := server.now } :: server.pairings }
  | some none | none =>
    { server with
      serving := .waiting sessionId (server.now + peerTimeout)
      sessions := server.sessions.insert sessionId
        (some { sessionId, stream, connectedAt := server.now }) }

/-- Time passes while the loop waits for something. -/
def idle (server : RelayServer) (duration : Nat) : Bool :=
  match server.serving with
  | .accepting => server.accepted = server.streams.length
  | .reading stream => (server.streams[stream]?.map readSessionId) = some .pending
  | .waiting _ wakes => server.now + duration ≤ wakes

def step (server : RelayServer) : RelayLabel → Option RelayServer
  | .connect => some { server with streams := server.streams ++ [{ sent := [], ended := false }] }
  | .send stream bytes =>
    match server.streams[stream]? with
    | some peer =>
      if peer.ended then none
      else some { server with streams := server.streams.set stream { peer with sent := peer.sent ++ bytes } }
    | none => none
  | .close stream =>
    match server.streams[stream]? with
    | some peer => some { server with streams := server.streams.set stream { peer with ended := true } }
    | none => none
  | .acceptFails => if server.serving = .accepting then some server else none
  | .accept =>
    if server.serving = .accepting ∧ server.accepted < server.streams.length then
      some { server with serving := .reading server.accepted, accepted := server.accepted + 1 }
    else none
  | .serve =>
    match server.serving with
    | .reading stream =>
      match server.streams[stream]?.map readSessionId with
      | some (.session sessionId) => some (server.join stream sessionId)
      | some .rejected => some { server with serving := .accepting }
      | some .pending | none => none
    | _ => none
  | .wake =>
    match server.serving with
    | .waiting _ wakes => if wakes ≤ server.now then some { server with serving := .accepting } else none
    | _ => none
  | .tick duration =>
    if 0 < duration ∧ server.idle duration then some { server with now := server.now + duration }
    else none

def Presents (server : RelayServer) (stream : Nat) (sessionId : String) : Prop :=
  server.streams[stream]?.map readSessionId = some (.session sessionId)

/-- It has presented the id and is not served yet, or it is in the slot and not timed out. -/
def Waits (server : RelayServer) (stream : Nat) (sessionId : String) : Prop :=
  server.Presents stream sessionId ∧
    (server.accepted ≤ stream ∨ server.serving = .reading stream ∨
      ∃ peer, server.sessions.lookup sessionId = some (some peer) ∧ peer.stream = stream ∧
        server.now < peer.connectedAt + peerTimeout)

/-- Two peers of one session are paired with each other, the first one within its time, and
neither of them before. -/
structure PairedWell (server : RelayServer) (pairing : Pairing) : Prop where
  same : ∃ sessionId, server.Presents pairing.first.stream sessionId ∧
    server.Presents pairing.second sessionId
  differ : pairing.first.stream ≠ pairing.second
  inTime : pairing.time < pairing.first.connectedAt + peerTimeout
  once : ∀ earlier ∈ server.pairings, ∀ stream ∈ [pairing.first.stream, pairing.second],
    stream ≠ earlier.first.stream ∧ stream ≠ earlier.second

/-- No time passes while two peers of one session wait, whoever else is waiting, and pairings
are made well. -/
def Fair (server : RelayServer) (label : RelayLabel) (after : RelayServer) : Prop :=
  match label with
  | .tick _ =>
    ∀ first second sessionId, first ≠ second → server.Waits first sessionId →
    ¬ server.Waits second sessionId
  | .serve => ∀ pairing, after.pairings = pairing :: server.pairings → server.PairedWell pairing
  | _ => True

/-- The first connection that is still to be paired: the one that is read, the one that the loop
sleeps for, or the next to be accepted. -/
def held (server : RelayServer) : Nat :=
  match server.serving with
  | .accepting => server.accepted
  | .reading stream => stream
  | .waiting _ wakes => if server.now < wakes then server.accepted - 1 else server.accepted

/-- Two connections present one id. -/
def sharesId (server : RelayServer) (first second : Nat) : Bool :=
  match server.streams[first]?.map readSessionId, server.streams[second]?.map readSessionId with
  | some (.session one), some (.session other) => one = other
  | _, _ => false

/-- A header that is served has an id which no connection before it has presented, and time
passes only while those still to be paired present different ids. -/
def calm (server : RelayServer) : RelayLabel → Bool
  | .tick _ =>
    decide (∀ second < server.streams.length, ∀ first < second, server.held ≤ first →
      server.sharesId first second = false)
  | .serve =>
    match server.serving with
    | .reading stream => decide (∀ first < stream, server.sharesId first stream = false)
    | _ => true
  | _ => true

variable {server after : RelayServer} {peer : PeerStream} {stream other : Nat} {sessionId : String}
  {more : Bytes} {label : RelayLabel} {streams : List PeerStream} {first : RelayPeer}

theorem of_step (taken : server.step label = some after) :
    match label with
    | .connect => after = { server with streams := server.streams ++ [{ sent := [], ended := false }] }
    | .send stream bytes =>
      ∃ peer, server.streams[stream]? = some peer ∧ peer.ended = false ∧
        after = { server with streams := server.streams.set stream { peer with sent := peer.sent ++ bytes } }
    | .close stream =>
      ∃ peer, server.streams[stream]? = some peer ∧
        after = { server with streams := server.streams.set stream { peer with ended := true } }
    | .acceptFails => after = server
    | .accept =>
      server.serving = .accepting ∧
      after = { server with serving := .reading server.accepted, accepted := server.accepted + 1 }
    | .serve =>
      ∃ stream, server.serving = .reading stream ∧
        ((∃ sessionId, server.Presents stream sessionId ∧ after = server.join stream sessionId) ∨
          server.streams[stream]?.map readSessionId = some .rejected ∧
          after = { server with serving := .accepting })
    | .wake =>
      ∃ sessionId wakes, server.serving = .waiting sessionId wakes ∧ wakes ≤ server.now ∧
        after = { server with serving := .accepting }
    | .tick duration => after = { server with now := server.now + duration } := by
  cases label with
  | connect =>
    cases taken
    rfl
  | send =>
    simp only [RelayServer.step] at taken
    split at taken
    · rename_i peer found
      split at taken
      · cases taken
      · rename_i going
        cases taken
        exact ⟨peer, found, by simpa using going, rfl⟩
    · cases taken
  | close =>
    simp only [RelayServer.step] at taken
    split at taken
    · rename_i peer found
      cases taken
      exact ⟨peer, found, rfl⟩
    · cases taken
  | acceptFails | tick =>
    simp only [RelayServer.step] at taken
    split at taken
    · cases taken
      rfl
    · cases taken
  | accept =>
    simp only [RelayServer.step] at taken
    split at taken
    · rename_i ready
      cases taken
      exact ⟨ready.1, rfl⟩
    · cases taken
  | serve =>
    simp only [RelayServer.step] at taken
    split at taken
    · rename_i stream reading
      refine ⟨stream, reading, ?_⟩
      split at taken
      · rename_i sessionId presents
        cases taken
        exact .inl ⟨sessionId, presents, rfl⟩
      · rename_i rejected
        cases taken
        exact .inr ⟨rejected, rfl⟩
      · cases taken
      · cases taken
    · cases taken
  | wake =>
    simp only [RelayServer.step] at taken
    split at taken
    · rename_i sessionId wakes waiting
      split at taken
      · rename_i due
        cases taken
        exact ⟨sessionId, wakes, waiting, due, rfl⟩
      · cases taken
    · cases taken

/-- A whole header has been read, whatever comes after it. -/
theorem readSessionId_append (read : readSessionId peer = .session sessionId) (more : Bytes)
    (ended : Bool) :
    readSessionId { sent := peer.sent ++ more, ended } = .session sessionId := by
  unfold readSessionId at read ⊢
  simp only at read ⊢
  by_cases short : peer.sent.length < 4
  · rw [if_pos short] at read
    split at read <;> cases read
  · rw [if_neg short] at read
    have long : ¬ (peer.sent ++ more).length < 4 := by
      rw [List.length_append]
      omega
    rw [if_neg long, List.take_append_of_le_length (by omega), List.drop_append_of_le_length (by omega)]
    split at read
    · cases read
    · rename_i allowed
      rw [if_neg allowed]
      split at read
      · split at read <;> cases read
      · rename_i whole
        have there : ¬ (peer.sent.drop 4 ++ more).length < ofBe (peer.sent.take 4) := by
          rw [List.length_append]
          omega
        rw [if_neg there, List.take_append_of_le_length (by omega), read]

/-- Every connection is still there, and so is the header it has sent. -/
def Grown (server : RelayServer) (streams : List PeerStream) : Prop :=
  ∀ stream sessionId, server.Presents stream sessionId →
  streams[stream]?.map readSessionId = some (.session sessionId)

theorem grown_append (server : RelayServer)
    (last : PeerStream) : server.Grown (server.streams ++ [last]) := by
  intro _ _ presents
  obtain ⟨_, found, _⟩ := Option.map_eq_some_iff.mp presents
  rw [List.getElem?_append_left (List.getElem?_eq_some_iff.mp found).1]
  exact presents

theorem grown_set (found : server.streams[stream]? = some peer) (more : Bytes) (ended : Bool) :
    server.Grown (server.streams.set stream { sent := peer.sent ++ more, ended }) := by
  intro other _ presents
  by_cases same : stream = other
  · subst same
    rw [Presents, found] at presents
    rw [List.getElem?_set_self (List.getElem?_eq_some_iff.mp found).1, Option.map_some]
    exact congrArg some (readSessionId_append (Option.some.inj presents) more ended)
  · rw [List.getElem?_set_ne same]
    exact presents

theorem Presents.unique (presents : server.Presents stream sessionId)
    (also : server.Presents stream name) : sessionId = name := by
  have same := presents.symm.trans also
  cases same
  rfl

/-- A connection whose header has been read: it will not be read again. -/
def Served (server : RelayServer) (stream : Nat) : Prop :=
  stream < server.accepted ∧ server.serving ≠ .reading stream

/-- A slot holds a served connection of its session, which is in no pairing, and which has
timed out unless the loop is waiting for it. Pairings are of served connections. -/
structure Kept (server : RelayServer) : Prop where
  reading : ∀ stream, server.serving = .reading stream → stream + 1 = server.accepted
  sleeping : ∀ sessionId wakes, server.serving = .waiting sessionId wakes →
    ∃ peer, server.sessions.lookup sessionId = some (some peer) ∧ peer.stream + 1 = server.accepted ∧
      wakes = peer.connectedAt + peerTimeout
  slots : ∀ sessionId peer, server.sessions.lookup sessionId = some (some peer) →
    server.Served peer.stream ∧ server.Presents peer.stream sessionId
  late : ∀ sessionId peer, server.sessions.lookup sessionId = some (some peer) →
    peer.connectedAt + peerTimeout ≤ server.now ∨
    server.serving = .waiting sessionId (peer.connectedAt + peerTimeout)
  paired : ∀ pairing ∈ server.pairings, ∀ stream ∈ [pairing.first.stream, pairing.second],
    server.Served stream ∧
    ∀ sessionId peer, server.sessions.lookup sessionId = some (some peer) → peer.stream ≠ stream
  pairedLate : ∀ pairing ∈ server.pairings, pairing.first.connectedAt + peerTimeout ≤ pairing.time

theorem Kept.new : Kept .new where
  reading := by simp [RelayServer.new]
  sleeping := by simp [RelayServer.new]
  slots := by simp [RelayServer.new]
  late := by simp [RelayServer.new]
  paired := by simp [RelayServer.new]
  pairedLate := by simp [RelayServer.new]

theorem Kept.grow (kept : Kept server) (grown : server.Grown streams) :
    Kept { server with streams } where
  reading := kept.reading
  sleeping := kept.sleeping
  slots := fun sessionId peer occupied =>
    ⟨(kept.slots sessionId peer occupied).1, grown _ _ (kept.slots sessionId peer occupied).2⟩
  late := kept.late
  paired := kept.paired
  pairedLate := kept.pairedLate

theorem Kept.free (kept : Kept server)
    (passed : ∀ sessionId wakes, server.serving = .waiting sessionId wakes → wakes ≤ server.now) :
    Kept { server with serving := .accepting } where
  reading := by simp
  sleeping := by simp
  slots := by
    intro sessionId peer occupied
    exact ⟨⟨(kept.slots sessionId peer occupied).1.1, by simp⟩, (kept.slots sessionId peer occupied).2⟩
  late := by
    intro sessionId peer occupied
    left
    rcases kept.late sessionId peer occupied with late | waiting
    · exact late
    · exact passed _ _ waiting
  paired := by
    intro pairing member stream inside
    exact ⟨⟨(kept.paired pairing member stream inside).1.1, by simp⟩,
      (kept.paired pairing member stream inside).2⟩
  pairedLate := kept.pairedLate

theorem Kept.accept (kept : Kept server) (accepting : server.serving = .accepting) :
    Kept { server with serving := .reading server.accepted, accepted := server.accepted + 1 } where
  reading := by
    rintro stream same
    cases same
    rfl
  sleeping := by simp
  slots := by
    intro sessionId peer occupied
    have ⟨⟨served, _⟩, presents⟩ := kept.slots sessionId peer occupied
    refine ⟨⟨Nat.lt_succ_of_lt served, ?_⟩, presents⟩
    intro same
    exact absurd (Serving.reading.inj same) (Nat.ne_of_gt served)
  late := by
    intro sessionId peer occupied
    rcases kept.late sessionId peer occupied with late | waiting
    · exact .inl late
    · rw [accepting] at waiting
      cases waiting
  paired := by
    intro pairing member stream inside
    have ⟨⟨served, _⟩, apart⟩ := kept.paired pairing member stream inside
    refine ⟨⟨Nat.lt_succ_of_lt served, ?_⟩, apart⟩
    intro same
    exact absurd (Serving.reading.inj same) (Nat.ne_of_gt served)
  pairedLate := kept.pairedLate

theorem Kept.read (kept : Kept server) (reading : server.serving = .reading stream) :
    stream < server.accepted :=
  Nat.lt_of_succ_le (Nat.le_of_eq (kept.reading stream reading))

theorem Kept.late_of_reading (kept : Kept server) (reading : server.serving = .reading stream)
    (occupied : server.sessions.lookup sessionId = some (some first)) :
    first.connectedAt + peerTimeout ≤ server.now := by
  rcases kept.late sessionId first occupied with late | waiting
  · exact late
  · rw [reading] at waiting
    cases waiting

theorem join_occupied (occupied : server.sessions.lookup sessionId = some (some first)) :
    server.join stream sessionId =
      { server with
        serving := .accepting
        sessions := server.sessions.insert sessionId none
        pairings := { first, second := stream, time := server.now } :: server.pairings } := by
  unfold join
  rw [occupied]

theorem join_vacant (vacant : ∀ first, server.sessions.lookup sessionId ≠ some (some first)) :
    server.join stream sessionId =
      { server with
        serving := .waiting sessionId (server.now + peerTimeout)
        sessions := server.sessions.insert sessionId (some { sessionId, stream, connectedAt := server.now }) } := by
  unfold join
  split
  · rename_i first occupied
    exact absurd occupied (vacant first)
  · rfl
  · rfl

theorem Kept.pair (kept : Kept server) (reading : server.serving = .reading stream)
    (occupied : server.sessions.lookup sessionId = some (some first)) :
    Kept (server.join stream sessionId) := by
  have ⟨firstServed, firstPresents⟩ := kept.slots sessionId first occupied
  have held : ∀ name peer, (server.sessions.insert sessionId none).lookup name = some (some peer) →
      name ≠ sessionId ∧ server.sessions.lookup name = some (some peer) := by
    intro name peer inserted
    by_cases same : name = sessionId
    · subst same
      simp at inserted
    · rw [AList.lookup_insert_ne same] at inserted
      exact ⟨same, inserted⟩
  rw [join_occupied occupied]
  refine ⟨by simp, by simp, ?_, ?_, ?_, ?_⟩
  · intro name peer inserted
    have ⟨_, before⟩ := held name peer inserted
    have ⟨served, presents⟩ := kept.slots name peer before
    exact ⟨⟨served.1, by simp⟩, presents⟩
  · intro name peer inserted
    exact .inl (kept.late_of_reading reading (held name peer inserted).2)
  · intro pairing member other inside
    rcases List.mem_cons.mp member with here | earlier
    · subst here
      rcases List.mem_pair.mp inside with here | here
      · subst here
        refine ⟨⟨firstServed.1, by simp⟩, ?_⟩
        intro name peer inserted same
        have ⟨different, before⟩ := held name peer inserted
        have presents := (kept.slots name peer before).2
        rw [same] at presents
        exact different (presents.unique firstPresents)
      · subst here
        refine ⟨⟨kept.read reading, by simp⟩, ?_⟩
        intro name peer inserted same
        have served := (kept.slots name peer (held name peer inserted).2).1
        exact served.2 (by rw [reading, same])
    · have ⟨served, apart⟩ := kept.paired pairing earlier other inside
      exact ⟨⟨served.1, by simp⟩, fun name peer inserted => apart name peer (held name peer inserted).2⟩
  · intro pairing member
    rcases List.mem_cons.mp member with here | earlier
    · subst here
      exact kept.late_of_reading reading occupied
    · exact kept.pairedLate pairing earlier

theorem Kept.wait (kept : Kept server) (reading : server.serving = .reading stream)
    (presents : server.Presents stream sessionId)
    (vacant : ∀ first, server.sessions.lookup sessionId ≠ some (some first)) :
    Kept (server.join stream sessionId) := by
  have held : ∀ name peer, (server.sessions.insert sessionId
      (some { sessionId, stream, connectedAt := server.now })).lookup name = some (some peer) →
      (name = sessionId ∧ peer = { sessionId, stream, connectedAt := server.now }) ∨
        server.sessions.lookup name = some (some peer) := by
    intro name peer inserted
    by_cases same : name = sessionId
    · subst same
      rw [AList.lookup_insert] at inserted
      exact .inl ⟨rfl, (Option.some.inj (Option.some.inj inserted)).symm⟩
    · rw [AList.lookup_insert_ne same] at inserted
      exact .inr inserted
  rw [join_vacant vacant]
  refine ⟨by simp, ?_, ?_, ?_, ?_, kept.pairedLate⟩
  · intro name _ same
    cases same
    exact ⟨_, AList.lookup_insert _, kept.reading _ reading, rfl⟩
  · intro name peer inserted
    rcases held name peer inserted with ⟨rfl, rfl⟩ | before
    · exact ⟨⟨kept.read reading, by simp⟩, presents⟩
    · have ⟨served, presents⟩ := kept.slots name peer before
      exact ⟨⟨served.1, by simp⟩, presents⟩
  · intro name peer inserted
    rcases held name peer inserted with ⟨rfl, rfl⟩ | before
    · exact .inr rfl
    · exact .inl (kept.late_of_reading reading before)
  · intro pairing member other inside
    have ⟨served, apart⟩ := kept.paired pairing member other inside
    refine ⟨⟨served.1, by simp⟩, ?_⟩
    intro name peer inserted same
    rcases held name peer inserted with ⟨rfl, rfl⟩ | before
    · cases same
      exact served.2 reading
    · exact apart name peer before same

theorem Kept.serve (kept : Kept server) (reading : server.serving = .reading stream)
    (presents : server.Presents stream sessionId) : Kept (server.join stream sessionId) := by
  by_cases vacant : ∀ first, server.sessions.lookup sessionId ≠ some (some first)
  · exact kept.wait reading presents vacant
  · obtain ⟨_, occupied⟩ := not_forall_not.mp vacant
    exact kept.pair reading occupied

theorem Kept.step (kept : Kept server) (taken : server.step label = some after) : Kept after := by
  have did := of_step taken
  cases label with
  | connect =>
    cases did
    exact kept.grow (grown_append server _)
  | send _ bytes =>
    obtain ⟨peer, found, _, rfl⟩ := did
    exact kept.grow (grown_set found bytes peer.ended)
  | close =>
    obtain ⟨peer, found, rfl⟩ := did
    have grown := grown_set found [] true
    rw [List.append_nil] at grown
    exact kept.grow grown
  | acceptFails =>
    cases did
    exact kept
  | accept =>
    obtain ⟨accepting, rfl⟩ := did
    exact kept.accept accepting
  | serve =>
    obtain ⟨_, reading, ⟨sessionId, presents, rfl⟩ | ⟨_, rfl⟩⟩ := did
    · exact kept.serve reading presents
    · exact kept.free (by simp [reading])
  | wake =>
    obtain ⟨sessionId, _, waiting, due, rfl⟩ := did
    refine kept.free ?_
    intro _ _ same
    rw [waiting] at same
    cases same
    exact due
  | tick =>
    cases did
    refine ⟨kept.reading, kept.sleeping, kept.slots, ?_, kept.paired, kept.pairedLate⟩
    intro sessionId peer occupied
    rcases kept.late sessionId peer occupied with _ | waiting
    · exact .inl (by simp only; omega)
    · exact .inr waiting

theorem pairing_of_step (taken : server.step .serve = some after)
    (paired : after.pairings = pairing :: server.pairings) :
    ∃ sessionId, server.serving = .reading pairing.second ∧
      server.Presents pairing.second sessionId ∧
      server.sessions.lookup sessionId = some (some pairing.first) ∧ pairing.time = server.now := by
  have unpaired : server.pairings ≠ pairing :: server.pairings :=
    (List.cons_ne_self pairing server.pairings).symm
  obtain ⟨_, reading, ⟨sessionId, presents, rfl⟩ | ⟨_, rfl⟩⟩ := of_step taken
  · by_cases vacant : ∀ first, server.sessions.lookup sessionId ≠ some (some first)
    · rw [join_vacant vacant] at paired
      exact absurd paired unpaired
    · obtain ⟨_, occupied⟩ := not_forall_not.mp vacant
      rw [join_occupied occupied] at paired
      have ⟨here, _⟩ := List.cons.inj paired
      subst here
      exact ⟨sessionId, reading, presents, occupied, rfl⟩
  · exact absurd paired unpaired

/-- A pairing joins two peers of a session, neither of them paired before, and comes when the
first one has timed out. -/
theorem Kept.pairing {pairing : Pairing} (kept : Kept server)
    (taken : server.step .serve = some after)
    (paired : after.pairings = pairing :: server.pairings) :
    (∃ sessionId, server.Presents pairing.first.stream sessionId ∧
      server.Presents pairing.second sessionId) ∧
      pairing.first.stream ≠ pairing.second ∧
      (∀ earlier ∈ server.pairings, ∀ stream ∈ [pairing.first.stream, pairing.second],
        stream ≠ earlier.first.stream ∧ stream ≠ earlier.second) ∧
      pairing.first.connectedAt + peerTimeout ≤ pairing.time := by
  obtain ⟨sessionId, reading, presents, occupied, now⟩ := pairing_of_step taken paired
  have ⟨served, firstPresents⟩ := kept.slots sessionId _ occupied
  have unread : pairing.first.stream ≠ pairing.second := by
    intro same
    exact served.2 (by rw [reading, same])
  refine ⟨⟨sessionId, firstPresents, presents⟩, unread, ?_, ?_⟩
  · intro earlier member stream inside
    have apart : ∀ other ∈ [earlier.first.stream, earlier.second], stream ≠ other := by
      intro other among
      have ⟨otherServed, free⟩ := kept.paired earlier member other among
      rcases List.mem_pair.mp inside with here | here
      · subst here
        exact free sessionId _ occupied
      · subst here
        intro same
        exact otherServed.2 (by rw [reading, same])
    exact ⟨apart _ (by simp), apart _ (by simp)⟩
  · rw [now]
    exact kept.late_of_reading reading occupied

theorem pairings_of_step (taken : server.step label = some after) :
    after.pairings = server.pairings ∨ label = .serve ∧
      ∃ pairing, after.pairings = pairing :: server.pairings := by
  have did := of_step taken
  cases label with
  | serve =>
    obtain ⟨_, _, ⟨_, _, rfl⟩ | ⟨_, rfl⟩⟩ := did
    · unfold join
      split
      · exact .inr ⟨rfl, _, rfl⟩
      · exact .inl rfl
      · exact .inl rfl
    · exact .inl rfl
  | connect | acceptFails | tick =>
    cases did
    exact .inl rfl
  | send =>
    obtain ⟨_, _, _, rfl⟩ := did
    exact .inl rfl
  | close =>
    obtain ⟨_, _, rfl⟩ := did
    exact .inl rfl
  | accept =>
    obtain ⟨_, rfl⟩ := did
    exact .inl rfl
  | wake =>
    obtain ⟨_, _, _, _, rfl⟩ := did
    exact .inl rfl

theorem Kept.not_pairedWell {pairing : Pairing} (kept : Kept server)
    (taken : server.step .serve = some after)
    (paired : after.pairings = pairing :: server.pairings) : ¬ server.PairedWell pairing := by
  intro well
  have ⟨_, _, _, late⟩ := kept.pairing taken paired
  exact absurd well.inTime (Nat.not_lt.mpr late)

theorem Kept.unpaired (kept : Kept server) (taken : server.step label = some after)
    (fair : Fair server label after) :
    after.pairings = server.pairings := by
  rcases pairings_of_step taken with same | ⟨rfl, pairing, paired⟩
  · exact same
  · exact absurd (fair pairing paired) (kept.not_pairedWell taken paired)

/-- A run that is fair throughout pairs no one. -/
theorem unpaired_of_fair (run : Execution step anything server labels after)
    (kept : Kept server) (fair : EveryStep step Fair server labels) :
    after.pairings = server.pairings := by
  induction run with
  | done => rfl
  | next _ taken _ ih =>
    rw [ih (kept.step taken) (fair.tail taken), kept.unpaired taken (fair.head taken)]

theorem sharesId_iff {first second : Nat} : server.sharesId first second = true ↔
    ∃ sessionId, server.Presents first sessionId ∧ server.Presents second sessionId := by
  unfold sharesId Presents
  constructor
  · intro shared
    split at shared
    · rename_i one _ presents also
      have same := of_decide_eq_true shared
      subst same
      exact ⟨one, presents, also⟩
    · cases shared
  · rintro ⟨_, presents, also⟩
    simp [presents, also]

theorem Kept.held_le (kept : Kept server) : server.held ≤ server.accepted := by
  unfold held
  split
  · exact Nat.le_refl _
  · rename_i reading
    exact Nat.le_of_lt (kept.read reading)
  · split <;> omega

/-- Those that wait are the connections from the first one that is still to be paired. -/
theorem Kept.waits_iff (kept : Kept server) :
    server.Waits stream sessionId ↔ server.Presents stream sessionId ∧ server.held ≤ stream := by
  constructor
  · rintro ⟨presents, later | reading | ⟨peer, occupied, rfl, inTime⟩⟩
    · exact ⟨presents, Nat.le_trans kept.held_le later⟩
    · exact ⟨presents, by simp [held, reading]⟩
    · refine ⟨presents, ?_⟩
      rcases kept.late sessionId peer occupied with _ | waiting
      · omega
      · obtain ⟨sleeper, here, last, _⟩ := kept.sleeping _ _ waiting
        rw [occupied] at here
        cases here
        simp only [held, waiting, if_pos inTime]
        omega
  · rintro ⟨presents, later⟩
    refine ⟨presents, ?_⟩
    unfold held at later
    split at later
    · exact .inl later
    · rename_i other reading
      rcases Nat.eq_or_lt_of_le later with rfl | further
      · exact .inr (.inl reading)
      · exact .inl (by rw [← kept.reading other reading]; exact further)
    · rename_i name wakes waiting
      obtain ⟨sleeper, here, _, _⟩ := kept.sleeping name wakes waiting
      split at later
      · rename_i asleep
        rcases Nat.lt_or_ge stream server.accepted with _ | unserved
        · have same : sleeper.stream = stream := by omega
          have own := (kept.slots name sleeper here).2
          rw [same] at own
          rw [presents.unique own]
          exact .inr (.inr ⟨sleeper, here, same, by omega⟩)
        · exact .inl unserved
      · exact .inl later

theorem readSessionId_settled (settled : readSessionId peer ≠ .pending)
    (more : Bytes) (ended : Bool) (silent : peer.ended = true → more = [])
    (stays : peer.ended = true → ended = true) :
    readSessionId { sent := peer.sent ++ more, ended } = readSessionId peer := by
  cases read : readSessionId peer with
  | session => exact readSessionId_append read more ended
  | pending => exact absurd read settled
  | rejected =>
    by_cases closed : peer.ended = true
    · obtain ⟨_, _⟩ := peer
      cases closed
      rw [silent rfl, stays rfl, List.append_nil]
      exact read
    · unfold readSessionId at read ⊢
      simp only [closed, Bool.false_eq_true, if_false] at read ⊢
      by_cases short : peer.sent.length < 4
      · rw [if_pos short] at read
        cases read
      · have long : ¬ (peer.sent ++ more).length < 4 := by
          rw [List.length_append]
          omega
        rw [if_neg short] at read
        rw [if_neg long, List.take_append_of_le_length (by omega)]
        split at read
        · rename_i refused
          rw [if_pos refused]
        · split at read <;> cases read

/-- A served connection's header was read to its end, and its peer is in the slot of its id. -/
structure Settled (server : RelayServer) : Prop where
  read : ∀ stream, server.Served stream →
    ∃ read, server.streams[stream]?.map readSessionId = some read ∧ read ≠ .pending
  occupied : ∀ stream sessionId, server.Served stream → server.Presents stream sessionId →
    ∃ first, server.sessions.lookup sessionId = some (some first)

theorem Settled.new : Settled .new where
  read := by simp [Served, RelayServer.new]
  occupied := by simp [Served, RelayServer.new]

/-- What is sent or closed leaves the headers of those that are served. -/
theorem Settled.grow (settled : Settled server)
    (same : ∀ stream, server.Served stream →
      streams[stream]?.map readSessionId = server.streams[stream]?.map readSessionId) :
    Settled { server with streams } where
  read := by
    intro stream served
    obtain ⟨read, found, whole⟩ := settled.read stream served
    exact ⟨read, (same stream served).trans found, whole⟩
  occupied := by
    intro stream sessionId served presents
    exact settled.occupied stream sessionId served ((same stream served).symm.trans presents)

theorem Settled.set (settled : Settled server) (found : server.streams[stream]? = some peer)
    (more : Bytes) (ended : Bool) (silent : peer.ended = true → more = [])
    (stays : peer.ended = true → ended = true) :
    Settled { server with streams := server.streams.set stream { sent := peer.sent ++ more, ended } } := by
  refine settled.grow ?_
  intro other served
  by_cases same : stream = other
  · subst same
    obtain ⟨_, was, whole⟩ := settled.read stream served
    rw [found] at was
    cases was
    rw [List.getElem?_set_self (List.getElem?_eq_some_iff.mp found).1, found, Option.map_some,
      Option.map_some,
      readSessionId_settled whole more ended silent stays]
  · rw [List.getElem?_set_ne same]

theorem Settled.step (settled : Settled server) (taken : server.step label = some after)
    (unpaired : after.pairings = server.pairings) : Settled after := by
  have did := of_step taken
  cases label with
  | connect =>
    cases did
    refine settled.grow ?_
    intro stream served
    obtain ⟨_, found, _⟩ := settled.read stream served
    obtain ⟨_, here, _⟩ := Option.map_eq_some_iff.mp found
    rw [List.getElem?_append_left (List.getElem?_eq_some_iff.mp here).1]
  | send _ bytes =>
    obtain ⟨peer, found, going, rfl⟩ := did
    exact settled.set found bytes peer.ended (by simp [going]) id
  | close =>
    obtain ⟨_, found, rfl⟩ := did
    have closed := settled.set found [] true (fun _ => rfl) (fun _ => rfl)
    rwa [List.append_nil] at closed
  | acceptFails =>
    cases did
    exact settled
  | accept =>
    obtain ⟨accepting, rfl⟩ := did
    have before : ∀ stream,
        Served { server with
          serving := .reading server.accepted, accepted := server.accepted + 1 } stream →
        server.Served stream := by
      rintro stream ⟨early, unread⟩
      refine ⟨Nat.lt_of_le_of_ne (Nat.le_of_lt_succ early) ?_, by simp [accepting]⟩
      intro same
      exact unread (by rw [same])
    exact ⟨fun stream served => settled.read stream (before stream served),
      fun stream sessionId served => settled.occupied stream sessionId (before stream served)⟩
  | serve =>
    obtain ⟨stream, reading, ⟨sessionId, presents, rfl⟩ | ⟨rejected, rfl⟩⟩ := did
    · have vacant : ∀ first, server.sessions.lookup sessionId ≠ some (some first) := by
        intro _ occupied
        rw [join_occupied occupied] at unpaired
        exact absurd unpaired.symm (List.cons_ne_self _ _).symm
      have before : ∀ other, (server.join stream sessionId).Served other → other ≠ stream →
          server.Served other := by
        rintro other ⟨early, _⟩ different
        rw [join_vacant vacant] at early
        refine ⟨early, ?_⟩
        rw [reading]
        intro same
        exact different (Serving.reading.inj same).symm
      refine ⟨?_, ?_⟩
      · intro other served
        rw [join_vacant vacant]
        by_cases same : other = stream
        · subst same
          exact ⟨_, presents, by simp⟩
        · exact settled.read other (before other served same)
      · intro other name served named
        have there : server.Presents other name := by
          rw [join_vacant vacant] at named
          exact named
        rw [join_vacant vacant]
        dsimp only
        by_cases same : name = sessionId
        · subst same
          exact ⟨_, AList.lookup_insert _⟩
        · rw [AList.lookup_insert_ne same]
          refine settled.occupied other name (before other served ?_) there
          rintro rfl
          exact same (there.unique presents)
    · have before : ∀ other, Served { server with serving := .accepting } other → other ≠ stream →
          server.Served other := by
        rintro other ⟨early, _⟩ different
        refine ⟨early, ?_⟩
        rw [reading]
        intro same
        exact different (Serving.reading.inj same).symm
      refine ⟨?_, ?_⟩
      · intro other served
        by_cases same : other = stream
        · subst same
          exact ⟨_, rejected, by simp⟩
        · exact settled.read other (before other served same)
      · intro other name served named
        refine settled.occupied other name (before other served ?_) named
        rintro rfl
        exact absurd (Option.some.inj (rejected.symm.trans named)) (by simp)
  | wake =>
    obtain ⟨_, _, waiting, _, rfl⟩ := did
    have before : ∀ stream, Served { server with serving := .accepting } stream →
        server.Served stream := by
      rintro stream ⟨early, _⟩
      exact ⟨early, by simp [waiting]⟩
    exact ⟨fun stream served => settled.read stream (before stream served),
      fun stream name served => settled.occupied stream name (before stream served)⟩
  | tick =>
    cases did
    exact ⟨settled.read, settled.occupied⟩

theorem Kept.tick_iff (kept : Kept server) :
    Fair server (.tick duration) after ↔ server.calm (.tick duration) = true := by
  simp only [Fair, calm, decide_eq_true_iff]
  constructor
  · intro fair second _ first earlier later
    by_contra shared
    obtain ⟨sessionId, presents, also⟩ := sharesId_iff.mp ((Bool.not_eq_false _).mp shared)
    exact fair first second sessionId (Nat.ne_of_lt earlier) (kept.waits_iff.mpr ⟨presents, later⟩)
      (kept.waits_iff.mpr ⟨also, by omega⟩)
  · intro apart first second sessionId different waits also
    have ⟨presents, firstLater⟩ := kept.waits_iff.mp waits
    have ⟨alsoPresents, secondLater⟩ := kept.waits_iff.mp also
    have inside {stream : Nat} (presents : server.Presents stream sessionId) :
        stream < server.streams.length := by
      obtain ⟨_, found, _⟩ := Option.map_eq_some_iff.mp presents
      exact (List.getElem?_eq_some_iff.mp found).1
    rcases Nat.lt_or_gt_of_ne different with earlier | earlier
    · have none := apart second (inside alsoPresents) first earlier firstLater
      rw [sharesId_iff.mpr ⟨sessionId, presents, alsoPresents⟩] at none
      cases none
    · have none := apart first (inside presents) second earlier secondLater
      rw [sharesId_iff.mpr ⟨sessionId, alsoPresents, presents⟩] at none
      cases none

/-- A pairing comes when an earlier connection has presented the id, and never in time. -/
theorem Kept.serve_iff (kept : Kept server) (settled : Settled server)
    (taken : server.step .serve = some after) :
    Fair server .serve after ↔ server.calm .serve = true := by
  constructor
  · intro fair
    obtain ⟨stream, reading, ⟨sessionId, presents, rfl⟩ | ⟨rejected, rfl⟩⟩ := of_step taken
    · simp only [calm, reading, decide_eq_true_iff]
      intro first earlier
      by_contra shared
      obtain ⟨name, firstPresents, also⟩ := sharesId_iff.mp ((Bool.not_eq_false _).mp shared)
      cases also.unique presents
      have served : server.Served first := by
        refine ⟨Nat.lt_trans earlier (kept.read reading), ?_⟩
        rw [reading]
        intro same
        exact absurd (Serving.reading.inj same) (Nat.ne_of_gt earlier)
      obtain ⟨_, occupied⟩ := settled.occupied first sessionId served firstPresents
      have paired : (server.join stream sessionId).pairings = _ :=
        congrArg pairings (join_occupied occupied)
      exact kept.not_pairedWell taken paired (fair _ paired)
    · simp only [calm, reading, decide_eq_true_iff]
      intro _ _
      by_contra shared
      obtain ⟨_, _, also⟩ := sharesId_iff.mp ((Bool.not_eq_false _).mp shared)
      exact absurd (Option.some.inj (rejected.symm.trans also)) (by simp)
  · intro quiet pairing paired
    obtain ⟨sessionId, reading, presents, occupied, _⟩ := pairing_of_step taken paired
    have ⟨⟨_, unread⟩, firstPresents⟩ := kept.slots sessionId _ occupied
    simp only [calm, reading, decide_eq_true_iff] at quiet
    have before : pairing.first.stream < pairing.second := by
      have last := kept.reading _ reading
      rw [reading] at unread
      have different : pairing.second ≠ pairing.first.stream := fun same => unread (by rw [same])
      omega
    have none := quiet _ before
    rw [sharesId_iff.mpr ⟨sessionId, firstPresents, presents⟩] at none
    cases none

/-- A run is fair throughout exactly when no header is served whose id an earlier connection has
presented, and no time passes while two connections with one id are to be paired: the server
pairs no one in time. -/
theorem fair_of_run {labels : List RelayLabel} (run : Execution step anything .new labels server) :
    (EveryStep step Fair .new labels ↔
      Execution step (fun server label => server.calm label = true) .new labels server) ∧
      (EveryStep step Fair .new labels → server.pairings = []) := by
  refine ⟨?_, unpaired_of_fair run .new⟩
  refine run.everyStep_iff_of_related (fun server => server.Kept ∧ server.Settled) ⟨.new, .new⟩ ?_ ?_
  · rintro server label after ⟨kept, settled⟩ taken fair
    exact ⟨kept.step taken, settled.step taken (kept.unpaired taken fair)⟩
  · rintro _ label _ ⟨kept, settled⟩ taken
    cases label with
    | tick => exact kept.tick_iff
    | serve => exact kept.serve_iff settled taken
    | _ => simp [Fair, calm]

def sampleHeader : Bytes := [0, 0, 0, 1, 97]

/-- Peers of two sessions wait and time out, a third connection is refused, and a fourth one
presents the first id again and is not served yet. -/
def calmPeers : List RelayLabel :=
  [.connect, .send 0 sampleHeader, .accept, .serve, .connect, .send 1 [0, 0, 0, 1, 98],
    .tick peerTimeout, .wake,
    .accept, .serve, .tick 5000, .connect, .send 2 [0, 0, 0, 0], .tick 25000, .wake, .accept,
    .serve, .tick 1000,
    .connect, .accept, .tick 10, .send 3 sampleHeader]

theorem fair_of_calmPeers : EveryStep step Fair new calmPeers := by
  obtain ⟨_, run, _⟩ := exists_execution (fun _ => true)
    (show (replayWhere step calm new calmPeers).any _ = true by decide)
  exact (fair_of_run run.plain).1.mpr run

/-- Two connections with the same header: the first is served and waits. -/
def twoPeers : List RelayLabel :=
  [.connect, .connect, .send 0 sampleHeader, .send 1 sampleHeader, .accept, .serve]

/-- Two peers of one session are there and the loop sleeps. The second one is then paired
with the first, which has timed out. -/
theorem peers_unfair :
    ∃ server : RelayServer, Execution step anything new
      (twoPeers ++ [.tick peerTimeout, .wake, .accept, .serve]) server ∧
      (server.pairings.map fun pairing => pairing.time) = [peerTimeout] ∧
      ¬ EveryStep step Fair new (twoPeers ++ [.tick peerTimeout, .wake, .accept, .serve]) := by
  obtain ⟨server, run, paired⟩ := exists_execution
    (fun server => (server.pairings.map fun pairing => pairing.time) = [peerTimeout])
    (show (replayWhere step (fun _ _ => true) new
      (twoPeers ++ [.tick peerTimeout, .wake, .accept, .serve])).any _ = true
      by decide)
  obtain ⟨before, waiting, good⟩ := exists_execution
    (fun server => server.accepted = 1 ∧ server.now = 0 ∧
      server.streams[0]?.map readSessionId = some (.session "a") ∧
      server.streams[1]?.map readSessionId = some (.session "a") ∧
      ((server.sessions.lookup "a").any fun slot => slot.any fun peer => peer.stream = 0 ∧
        peer.connectedAt = 0))
    (show (replayWhere step (fun _ _ => true) new twoPeers).any _ = true by decide)
  obtain ⟨_, now, first, second, occupied⟩ := of_decide_eq_true good
  obtain ⟨_, found, occupied⟩ := (Option.any_eq_true _ _).mp occupied
  obtain ⟨peer, rfl, own⟩ := (Option.any_eq_true _ _).mp occupied
  have ⟨stream, since⟩ := of_decide_eq_true own
  refine ⟨server, run.plain, of_decide_eq_true paired, fun every => ?_⟩
  obtain ⟨_, reached, rest⟩ := run.split
  cases reached.unique waiting
  cases rest with
  | next _ ticked =>
    have fair := every twoPeers _ _ before _ rfl waiting.plain ticked
    refine fair 0 1 "a" (by decide) ⟨first, .inr (.inr ⟨peer, found, stream, ?_⟩)⟩
      ⟨second, .inl (by omega)⟩
    rw [now, since]
    decide

end RelayServer

end DistributedOs.Transfer
