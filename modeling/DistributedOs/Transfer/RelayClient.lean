import DistributedOs.Reliable.Frame
import DistributedOs.Transfer.RelayForward

/-! The clients of the fallback relay. A call of `connect_to_relay` sends its header and waits for
the greeting within a time of its own, while the relay pairs connections at its own pace. -/

namespace DistributedOs.Transfer

open Semantics
open Reliable (utf8)

/-- The time for the header and the greeting, in milliseconds. -/
def pairingTimeout : Nat := 5000

/-- Where a call is, once it is connected: before each of its two writes, before the read, or
returned. -/
inductive CallStage where
  | connected
  | lengthSent
  | idSent
  | ok
  | failed
  deriving DecidableEq

structure RelayClient where
  stream : Nat
  sessionId : String
  connectedAt : Nat
  stage : CallStage

/-- The relay with all the calls there have been. -/
structure RelayNetwork where
  relay : RelaySystem
  clients : List RelayClient

/-- A step of the relay or of some other connection, or one of a call. A call that fails does so for
any reason: its time is over, or a write or the read fails. -/
inductive RelayNetworkLabel where
  | relay (label : RelaySystemLabel)
  | connect (sessionId : String)
  | sendLength (index : Nat)
  | sendId (index : Nat)
  | readOk (index : Nat)
  | fails (index : Nat)

namespace RelayNetwork

def new : RelayNetwork := { relay := .new, clients := [] }

def serve (relay : RelaySystem) (label : RelayLabel) : Option RelaySystem :=
  relay.step (.server label false false)

/-- Only the call itself uses its connection before it has returned it. -/
def foreign (clients : List RelayClient) : RelaySystemLabel → Bool
  | .server (.send stream _) _ _ | .server (.close stream) _ _ =>
    clients.all fun client => client.stream ≠ stream ∨ client.stage = .ok
  | .server _ _ _ | .forward _ _ => true

/-- The time of a call is not over. -/
def inTime (network : RelayNetwork) (client : RelayClient) : Bool :=
  network.relay.server.now ≤ client.connectedAt + pairingTimeout

def advance (network : RelayNetwork) (index : Nat) (client : RelayClient) (stage : CallStage)
    (relay : RelaySystem) :
    RelayNetwork :=
  { relay, clients := network.clients.set index { client with stage } }

def step (network : RelayNetwork) : RelayNetworkLabel → Option RelayNetwork
  | .relay label =>
    if foreign network.clients label then (network.relay.step label).map fun relay =>
      { network with relay } else none
  | .connect sessionId =>
    (serve network.relay .connect).map fun relay =>
      { relay
        clients := network.clients ++
          [{ stream := network.relay.server.streams.length, sessionId, connectedAt := network.relay.server.now,
             stage := .connected }] }
  | .sendLength index =>
    match network.clients[index]? with
    | some client =>
      if client.stage = .connected ∧ network.inTime client then
        (serve network.relay (.send client.stream (toBe 4 (utf8 client.sessionId).length))).map
          (network.advance index client .lengthSent)
      else none
    | none => none
  | .sendId index =>
    match network.clients[index]? with
    | some client =>
      if client.stage = .lengthSent ∧ network.inTime client then
        (serve network.relay (.send client.stream (utf8 client.sessionId))).map
        (network.advance index client .idSent)
      else none
    | none => none
  | .readOk index =>
    match network.clients[index]? with
    | some client =>
      if client.stage = .idSent ∧ network.inTime client ∧
          ¬ (network.relay.received client.stream).isEmpty then
        some (network.advance index client .ok network.relay)
      else none
    | none => none
  | .fails index =>
    match network.clients[index]? with
    | some client =>
      if client.stage ≠ .ok ∧ client.stage ≠ .failed then
        (serve network.relay (.close client.stream)).map (network.advance index client .failed)
      else none
    | none => none

variable {network after : RelayNetwork} {relay next : RelaySystem} {server later : RelayServer}
  {client : RelayClient} {label : RelayLabel} {peer : PeerStream} {stream index : Nat}
  {sessionId : String} {pairing : Pairing}

/-- Time does not go back. -/
theorem now_of_step (taken : server.step label = some later) : server.now ≤ later.now := by
  have did := RelayServer.of_step taken
  cases label with
  | serve =>
    obtain ⟨_, _, ⟨_, _, rfl⟩ | ⟨_, rfl⟩⟩ := did
    · unfold RelayServer.join
      split <;> exact Nat.le_refl _
    · exact Nat.le_refl _
  | send =>
    obtain ⟨_, _, _, rfl⟩ := did
    exact Nat.le_refl _
  | close =>
    obtain ⟨_, _, rfl⟩ := did
    exact Nat.le_refl _
  | connect | acceptFails =>
    cases did
    exact Nat.le_refl _
  | accept =>
    obtain ⟨_, rfl⟩ := did
    exact Nat.le_refl _
  | wake =>
    obtain ⟨_, _, _, _, rfl⟩ := did
    exact Nat.le_refl _
  | tick =>
    cases did
    exact Nat.le_add_right _ _

/-- A peer that is put in a slot is put there now. -/
theorem slot_of_step (taken : server.step label = some later)
    (occupied : later.sessions.lookup sessionId = some (some first)) :
    (∃ name, server.sessions.lookup name = some (some first)) ∨ first.connectedAt = server.now := by
  have did := RelayServer.of_step taken
  cases label with
  | serve =>
    obtain ⟨_, _, ⟨name, _, rfl⟩ | ⟨_, rfl⟩⟩ := did
    · by_cases here : sessionId = name
      · subst here
        unfold RelayServer.join at occupied
        split at occupied
        · rw [AList.lookup_insert] at occupied
          cases occupied
        all_goals
          rw [AList.lookup_insert] at occupied
          cases occupied
          exact .inr rfl
      · unfold RelayServer.join at occupied
        split at occupied
        all_goals
          rw [AList.lookup_insert_ne here] at occupied
          exact .inl ⟨sessionId, occupied⟩
    · exact .inl ⟨sessionId, occupied⟩
  | send =>
    obtain ⟨_, _, _, rfl⟩ := did
    exact .inl ⟨sessionId, occupied⟩
  | close =>
    obtain ⟨_, _, rfl⟩ := did
    exact .inl ⟨sessionId, occupied⟩
  | connect | acceptFails | tick =>
    cases did
    exact .inl ⟨sessionId, occupied⟩
  | accept =>
    obtain ⟨_, rfl⟩ := did
    exact .inl ⟨sessionId, occupied⟩
  | wake =>
    obtain ⟨_, _, _, _, rfl⟩ := did
    exact .inl ⟨sessionId, occupied⟩

/-- A connection that no one sends on or closes stays as it is. -/
theorem untouched_of_step (taken : server.step label = some later)
    (found : server.streams[stream]? = some peer) (unsent : ∀ bytes, label ≠ .send stream bytes)
    (unclosed : label ≠ .close stream) : later.streams[stream]? = some peer := by
  have did := RelayServer.of_step taken
  cases label with
  | serve =>
    obtain ⟨other, _, ⟨_, _, rfl⟩ | ⟨_, rfl⟩⟩ := did
    · unfold RelayServer.join
      split <;> exact found
    · exact found
  | send other bytes =>
    obtain ⟨before, _, _, rfl⟩ := did
    have different : other ≠ stream := fun same => unsent bytes (same ▸ rfl)
    exact (List.getElem?_set_ne different).trans found
  | close other =>
    obtain ⟨_, _, rfl⟩ := did
    have different : other ≠ stream := fun same => unclosed (same ▸ rfl)
    exact (List.getElem?_set_ne different).trans found
  | connect =>
    cases did
    exact (List.getElem?_append_left (List.getElem?_eq_some_iff.mp found).1).trans found
  | acceptFails | tick =>
    cases did
    exact found
  | accept =>
    obtain ⟨_, rfl⟩ := did
    exact found
  | wake =>
    obtain ⟨_, _, _, _, rfl⟩ := did
    exact found

/-- How the relay may change, as far as it matters to a call. -/
structure Changes (relay next : RelaySystem) : Prop where
  time : relay.server.now ≤ next.server.now
  slots : ∀ sessionId first, next.server.sessions.lookup sessionId = some (some first) →
    (∃ name, relay.server.sessions.lookup name = some (some first)) ∨
    first.connectedAt = relay.server.now
  pairings : next.server.pairings = relay.server.pairings ∨ ∃ pairing,
    next.server.pairings = pairing :: relay.server.pairings ∧ pairing.time = relay.server.now ∧
      (∃ name, relay.server.sessions.lookup name = some (some pairing.first)) ∧
      ∀ earlier ∈ relay.server.pairings, pairing.first.stream ≠ earlier.second
  received : ∀ stream, relay.received stream ≠ [] → next.received stream ≠ []

theorem deliver_ne_nil {received : Nat → Bytes} (some_received : received stream ≠ []) (other : Nat)
    (bytes : Bytes) :
    RelaySystem.deliver received other bytes stream ≠ [] := by
  unfold RelaySystem.deliver
  split
  · exact List.append_ne_nil_of_left_ne_nil some_received _
  · exact some_received

theorem changes_of_step (kept : relay.Kept) (taken : relay.step taking = some next) :
    Changes relay next := by
  have did := RelaySystem.of_step taken
  cases taking with
  | server =>
    obtain ⟨_, served, ⟨same, rfl⟩ | ⟨rfl, pairing, paired, rfl⟩⟩ := did
    · exact ⟨now_of_step served, fun _ _ => slot_of_step served, .inl same, fun _ => id⟩
    · refine ⟨now_of_step served, fun _ _ => slot_of_step served, .inr ⟨pairing, paired, ?_⟩, ?_⟩
      · obtain ⟨sessionId, _, _, occupied, time⟩ := RelayServer.pairing_of_step served paired
        have ⟨_, _, fresh, _⟩ := kept.server.pairing served paired
        exact ⟨time, ⟨sessionId, occupied⟩, fun earlier member =>
          (fresh earlier member _ List.mem_cons_self).2⟩
      · exact fun stream before => deliver_ne_nil (deliver_ne_nil before _ _) _ _
  | forward =>
    obtain ⟨_, _, _, _, _, _, _, rfl⟩ := did
    exact ⟨Nat.le_refl _, fun sessionId _ occupied => .inl ⟨sessionId, occupied⟩, .inl rfl,
      fun stream before => deliver_ne_nil before _ _⟩

/-- What a call sends. -/
def header (client : RelayClient) : Bytes :=
  toBe 4 (utf8 client.sessionId).length ++ utf8 client.sessionId

/-- What a call has sent when it is at a stage. A connection that has been returned is not the
call's any more. -/
def HasSent (client : RelayClient) (sent : Bytes) : Prop :=
  match client.stage with
  | .connected => sent = []
  | .lengthSent => sent = toBe 4 (utf8 client.sessionId).length
  | .idSent => sent = header client
  | .failed => sent <+: header client
  | .ok => True

/-- A call's connection is as old in the relay as in the call, or younger, and has been greeted as
the second one of a pair when it has been returned. -/
structure Sound (relay : RelaySystem) (client : RelayClient) : Prop where
  short : (utf8 client.sessionId).length < 2 ^ 32
  sends : ∃ peer, relay.server.streams[client.stream]? = some peer ∧ HasSent client peer.sent
  since : client.connectedAt ≤ relay.server.now
  slots : ∀ sessionId first, relay.server.sessions.lookup sessionId = some (some first) →
    first.stream = client.stream → client.connectedAt ≤ first.connectedAt
  firsts : ∀ pairing ∈ relay.server.pairings, pairing.first.stream = client.stream →
    client.connectedAt ≤ pairing.first.connectedAt
  greeted : client.stage = .ok → relay.received client.stream ≠ [] ∧
    (∃ pairing ∈ relay.server.pairings, pairing.second = client.stream) ∧
    ∀ pairing ∈ relay.server.pairings, pairing.first.stream ≠ client.stream

/-- The calls have a connection each, and pairings were made at some time. -/
structure Kept (network : RelayNetwork) : Prop where
  relay : network.relay.Kept
  past : ∀ pairing ∈ network.relay.server.pairings, pairing.time ≤ network.relay.server.now
  sound : ∀ client ∈ network.clients, Sound network.relay client
  apart : network.clients.Pairwise fun one other => one.stream ≠ other.stream

theorem Kept.new : Kept .new where
  relay := .new
  past := by simp [RelayNetwork.new, RelaySystem.new, RelayServer.new]
  sound := by simp [RelayNetwork.new]
  apart := .nil

theorem Sound.changes (sound : Sound relay client) (changes : Changes relay next)
    (still : stage = .ok → client.stage = .ok)
    (sends : ∃ peer, next.server.streams[client.stream]? = some peer ∧
      HasSent { client with stage } peer.sent) :
    Sound next { client with stage } where
  short := sound.short
  sends := sends
  since := Nat.le_trans sound.since changes.time
  slots := by
    intro sessionId first occupied same
    rcases changes.slots sessionId first occupied with ⟨name, before⟩ | now
    · exact sound.slots name first before same
    · exact now ▸ sound.since
  firsts := by
    intro pairing member same
    rcases changes.pairings with unchanged | ⟨new, added, _, ⟨name, occupied⟩, _⟩
    · exact sound.firsts pairing (unchanged ▸ member) same
    · rcases List.mem_cons.mp (added ▸ member) with rfl | old
      · exact sound.slots name _ occupied same
      · exact sound.firsts pairing old same
  greeted := by
    intro ok
    obtain ⟨received, ⟨pairing, member, second⟩, notFirst⟩ := sound.greeted (still ok)
    rcases changes.pairings with unchanged | ⟨_, added, _, _, fresh⟩
    · exact ⟨changes.received _ received, ⟨pairing, unchanged ▸ member, second⟩,
        fun other inside => notFirst other (unchanged ▸ inside)⟩
    · refine ⟨changes.received _ received, ⟨pairing, added ▸ List.mem_cons_of_mem _ member, second⟩, ?_⟩
      intro other inside
      rcases List.mem_cons.mp (added ▸ inside) with rfl | old
      · exact second ▸ fresh pairing member
      · exact notFirst other old

theorem Kept.past_of_changes (kept : Kept network) (changes : Changes network.relay next) :
    ∀ pairing ∈ next.server.pairings, pairing.time ≤ next.server.now := by
  intro pairing member
  rcases changes.pairings with unchanged | ⟨_, added, now, _, _⟩
  · exact Nat.le_trans (kept.past pairing (unchanged ▸ member)) changes.time
  · rcases List.mem_cons.mp (added ▸ member) with rfl | old
    · exact now ▸ changes.time
    · exact Nat.le_trans (kept.past pairing old) changes.time

theorem Kept.advance (kept : Kept network) (found : network.clients[index]? = some client)
    (changes : Changes network.relay next) (relayKept : next.Kept)
    (own : Sound next { client with stage })
    (others : ∀ stream peer, stream ≠ client.stream →
      network.relay.server.streams[stream]? = some peer →
      next.server.streams[stream]? = some peer) : Kept
        (network.advance index client stage next) := by
  refine ⟨relayKept, kept.past_of_changes changes, ?_, pairwise_set_key kept.apart found rfl⟩
  intro other among
  rcases mem_set_key kept.apart found among with rfl | ⟨old, elsewhere⟩
  · exact own
  · have sound := kept.sound other old
    obtain ⟨peer, sends, sent⟩ := sound.sends
    exact sound.changes changes id ⟨peer, others _ _ elsewhere sends, sent⟩

/-- What other connections and the tasks do leaves the calls what they have. -/
theorem Sound.foreign {clients : List RelayClient} (sound : Sound relay client) (kept : relay.Kept)
    (allowed : foreign clients taking = true) (member : client ∈ clients)
    (taken : relay.step taking = some next) :
    Sound next client := by
  refine sound.changes (changes_of_step kept taken) id ?_
  obtain ⟨peer, found, sent⟩ := sound.sends
  have did := RelaySystem.of_step taken
  cases taking with
  | forward =>
    obtain ⟨_, _, _, _, _, _, _, rfl⟩ := did
    exact ⟨peer, found, sent⟩
  | server label =>
    have reached : ∃ later, relay.server.step label = some later ∧ next.server = later := by
      obtain ⟨later, served, ⟨_, rfl⟩ | ⟨_, _, _, rfl⟩⟩ := did
      · exact ⟨later, served, rfl⟩
      · exact ⟨later, served, rfl⟩
    obtain ⟨_, served, same⟩ := reached
    rw [same]
    by_cases returned : client.stage = .ok
    · obtain ⟨_, _, there, _⟩ := RelaySystem.peer_of_step served found
      refine ⟨_, there, ?_⟩
      simp only [HasSent, returned]
    · refine ⟨peer, untouched_of_step served found ?_ ?_, sent⟩
      · intro _ targeted
        subst targeted
        rcases of_decide_eq_true (List.all_eq_true.mp allowed client member) with elsewhere | ok
        · exact elsewhere rfl
        · exact returned ok
      · intro targeted
        subst targeted
        rcases of_decide_eq_true (List.all_eq_true.mp allowed client member) with elsewhere | ok
        · exact elsewhere rfl
        · exact returned ok

theorem serve_eq (taken : serve relay label = some next) (unserved : label ≠ .serve) :
    relay.server.step label = some next.server ∧ next = { relay with server := next.server } := by
  obtain ⟨_, served, ⟨_, rfl⟩ | ⟨same, _⟩⟩ := RelaySystem.of_step taken
  · exact ⟨served, rfl⟩
  · exact absurd same unserved

def Short (_ : RelayNetwork) : RelayNetworkLabel → Prop
  | .connect sessionId => (utf8 sessionId).length < 2 ^ 32
  | _ => True

/-- A new call has a new connection. -/
theorem Kept.connect (kept : Kept network) (short : (utf8 sessionId).length < 2 ^ 32)
    (taken : serve network.relay .connect = some next) :
    Kept
      { relay := next
        clients := network.clients ++
          [{ stream := network.relay.server.streams.length, sessionId, connectedAt := network.relay.server.now,
             stage := .connected }] } := by
  have changes := changes_of_step kept.relay taken
  obtain ⟨served, same⟩ := serve_eq taken nofun
  have connected := RelayServer.of_step served
  simp only at connected
  have known : ∀ stream name, network.relay.server.Presents stream name →
      stream < network.relay.server.streams.length := by
    intro _ name presents
    obtain ⟨peer, found, _⟩ := Option.map_eq_some_iff.mp presents
    exact (List.getElem?_eq_some_iff.mp found).1
  refine ⟨kept.relay.step taken, kept.past_of_changes changes, ?_, ?_⟩
  · intro client member
    rcases List.mem_append.mp member with old | new
    · have sound := kept.sound client old
      obtain ⟨peer, found, sent⟩ := sound.sends
      exact sound.changes changes id ⟨peer, untouched_of_step served found nofun nofun, sent⟩
    · obtain rfl := List.mem_singleton.mp new
      refine ⟨short, ⟨{ sent := [], ended := false }, ?_, rfl⟩, changes.time, ?_, ?_, nofun⟩
      · rw [connected]
        simp
      · intro name first occupied same
        rw [connected] at occupied
        have inside := known _ _ (kept.relay.server.slots name first occupied).2
        exact absurd same (Nat.ne_of_lt inside)
      · intro pairing member same
        rw [connected] at member
        obtain ⟨_, first, _⟩ := kept.relay.presented pairing member
        exact absurd same (Nat.ne_of_lt (known _ _ first))
  · refine List.pairwise_append.mpr ⟨kept.apart, List.pairwise_singleton _ _, ?_⟩
    intro client old _ new
    obtain rfl := List.mem_singleton.mp new
    obtain ⟨_, found, _⟩ := (kept.sound client old).sends
    exact Nat.ne_of_lt (List.getElem?_eq_some_iff.mp found).1

theorem Kept.send (kept : Kept network) (found : network.clients[index]? = some client)
    (unreturned : stage ≠ .ok)
    (sent : ∀ before, HasSent client before → HasSent { client with stage } (before ++ bytes))
    (taken : serve network.relay (.send client.stream bytes) = some next) :
    Kept (network.advance index client stage next) := by
  have changes := changes_of_step kept.relay taken
  have sound := kept.sound client (List.mem_of_getElem? found)
  obtain ⟨peer, own, before⟩ := sound.sends
  obtain ⟨served, _⟩ := serve_eq taken nofun
  obtain ⟨_, there, _, did⟩ := RelayServer.of_step served
  cases own.symm.trans there
  refine kept.advance found changes (kept.relay.step taken)
    (sound.changes changes (absurd · unreturned) ?_) ?_
  · refine ⟨{ peer with sent := peer.sent ++ bytes }, ?_, sent _ before⟩
    rw [did]
    exact List.getElem?_set_self (List.getElem?_eq_some_iff.mp own).1
  · intro _ _ elsewhere found
    refine untouched_of_step served found ?_ nofun
    intro _ targeted
    exact elsewhere (RelayLabel.send.inj targeted).1.symm

theorem HasSent.failed (has : HasSent client sent) (unreturned : client.stage ≠ .ok) :
    HasSent { client with stage := .failed } sent := by
  simp only [HasSent] at has ⊢
  split at has
  · exact has ▸ List.nil_prefix
  · exact has ▸ List.prefix_append _ _
  · exact has ▸ List.prefix_rfl
  · exact has
  · exact absurd ‹_› unreturned

theorem Kept.fails (kept : Kept network) (found : network.clients[index]? = some client)
    (unreturned : client.stage ≠ .ok)
    (taken : serve network.relay (.close client.stream) = some next) :
    Kept (network.advance index client .failed next) := by
  have changes := changes_of_step kept.relay taken
  have sound := kept.sound client (List.mem_of_getElem? found)
  obtain ⟨peer, own, before⟩ := sound.sends
  obtain ⟨served, _⟩ := serve_eq taken nofun
  obtain ⟨_, there, did⟩ := RelayServer.of_step served
  cases own.symm.trans there
  refine kept.advance found changes (kept.relay.step taken) (sound.changes changes nofun ?_) ?_
  · refine ⟨{ peer with ended := true }, ?_, before.failed unreturned⟩
    rw [did]
    exact List.getElem?_set_self (List.getElem?_eq_some_iff.mp own).1
  · intro _ _ elsewhere found
    refine untouched_of_step served found nofun ?_
    intro targeted
    exact elsewhere (RelayLabel.close.inj targeted).symm

/-- The greeting comes within a call's time to the second peer of a pair only: the first one has
been waiting for longer than that. -/
theorem Kept.readOk (kept : Kept network) (found : network.clients[index]? = some client)
    (inTime : network.relay.server.now ≤ client.connectedAt + pairingTimeout)
    (greeted : network.relay.received client.stream ≠ []) :
    Kept (network.advance index client .ok network.relay) := by
  have unchanged : Changes network.relay network.relay :=
    ⟨Nat.le_refl _, fun name _ occupied => .inl ⟨name, occupied⟩, .inl rfl, fun _ => id⟩
  have sound := kept.sound client (List.mem_of_getElem? found)
  have notFirst : ∀ pairing ∈ network.relay.server.pairings, pairing.first.stream ≠ client.stream := by
    intro pairing member same
    have late := kept.relay.server.pairedLate pairing member
    have before := kept.past pairing member
    have younger := sound.firsts pairing member same
    simp only [peerTimeout, pairingTimeout] at late inTime
    omega
  have second : ∃ pairing ∈ network.relay.server.pairings, pairing.second = client.stream := by
    by_contra alone
    refine greeted (kept.relay.quiet client.stream ?_)
    intro forward member writes
    obtain ⟨pairing, inside, ⟨_, first⟩ | ⟨_, second⟩⟩ := kept.relay.paired forward member
    · exact notFirst pairing inside (first.symm.trans writes)
    · exact alone ⟨pairing, inside, second.symm.trans writes⟩
  refine kept.advance found unchanged kept.relay ?_ fun _ _ _ there => there
  obtain ⟨peer, own, _⟩ := sound.sends
  exact ⟨sound.short, ⟨peer, own, trivial⟩, sound.since, sound.slots, sound.firsts, fun _ =>
    ⟨greeted, second, notFirst⟩⟩

theorem Kept.step (kept : Kept network) (short : Short network taking)
    (taken : network.step taking = some after) : Kept after := by
  cases taking with
  | relay =>
    simp only [RelayNetwork.step] at taken
    split at taken
    · rename_i allowed
      obtain ⟨next, relayed, rfl⟩ := Option.map_eq_some_iff.mp taken
      exact ⟨kept.relay.step relayed, kept.past_of_changes (changes_of_step kept.relay relayed),
        fun client member =>
        (kept.sound client member).foreign kept.relay allowed member relayed, kept.apart⟩
    · cases taken
  | connect =>
    simp only [RelayNetwork.step] at taken
    obtain ⟨next, served, rfl⟩ := Option.map_eq_some_iff.mp taken
    exact kept.connect short served
  | sendLength =>
    simp only [RelayNetwork.step] at taken
    split at taken
    · rename_i client found
      split at taken
      · rename_i ready
        obtain ⟨next, served, rfl⟩ := Option.map_eq_some_iff.mp taken
        refine kept.send found nofun ?_ served
        intro before has
        simp only [HasSent, ready.1] at has
        simp only [HasSent, has, List.nil_append]
      · cases taken
    · cases taken
  | sendId =>
    simp only [RelayNetwork.step] at taken
    split at taken
    · rename_i client found
      split at taken
      · rename_i ready
        obtain ⟨next, served, rfl⟩ := Option.map_eq_some_iff.mp taken
        refine kept.send found nofun ?_ served
        intro _ has
        simp only [HasSent, ready.1] at has
        simp only [HasSent, has, header]
      · cases taken
    · cases taken
  | readOk =>
    simp only [RelayNetwork.step] at taken
    split at taken
    · rename_i client found
      split at taken
      · rename_i ready
        cases taken
        refine kept.readOk found (of_decide_eq_true ready.2.1) ?_
        intro none
        exact ready.2.2 (List.isEmpty_iff.mpr none)
      · cases taken
    · cases taken
  | fails =>
    simp only [RelayNetwork.step] at taken
    split at taken
    · rename_i found
      split at taken
      · rename_i unreturned
        obtain ⟨_, served, rfl⟩ := Option.map_eq_some_iff.mp taken
        exact kept.fails found unreturned.1 served
      · cases taken
    · cases taken

theorem payload_header (short : (utf8 client.sessionId).length < 2 ^ 32)
    (part : peer.sent <+: header client) :
    peer.payload = [] := by
  have size := part.length_le
  rw [header, List.length_append, length_toBe] at size
  unfold PeerStream.payload
  rcases Nat.lt_or_ge peer.sent.length 4 with _ | enough
  · exact List.drop_of_length_le (by omega)
  · have front : peer.sent.take 4 = toBe 4 (utf8 client.sessionId).length := by
      obtain ⟨_, whole⟩ := part
      have same := congrArg (List.take 4) whole
      rwa [List.take_append_of_le_length enough, header, List.take_left' (length_toBe _ _)] at same
    rw [front, ofBe_toBe_of_lt (by simpa using short)]
    exact List.drop_of_length_le size

/-- A call that returns a connection has been paired as the second peer. When the first one is a
call too, that one never returns its connection, and after the greeting nothing comes through the
one that was returned. -/
theorem unanswered_of_run {labels : List RelayNetworkLabel}
    (run : Execution RelayNetwork.step Short .new labels network)
    (member : client ∈ network.clients) (returned : client.stage = .ok) :
    ∃ pairing ∈ network.relay.server.pairings, pairing.second = client.stream ∧
      ∀ other ∈ network.clients, other.stream = pairing.first.stream →
        other.stage ≠ .ok ∧ network.relay.received client.stream = okMessage := by
  have kept : Kept network :=
    run.invariant Kept (fun _ _ _ kept short taken => kept.step short taken) .new
  obtain ⟨received, ⟨pairing, inside, second⟩, _⟩ := (kept.sound client member).greeted returned
  refine ⟨pairing, inside, second, ?_⟩
  intro other among first
  have sound := kept.sound other among
  have unreturned : other.stage ≠ .ok := by
    intro ok
    exact (sound.greeted ok).2.2 pairing inside first.symm
  refine ⟨unreturned, ?_⟩
  obtain ⟨forward, _, peer, greeted, copied, _, _, sends, whole, part, _, _⟩ :=
    kept.relay.relayed inside (.inr ⟨rfl, rfl⟩)
  obtain ⟨_, own, sent⟩ := sound.sends
  rw [first, sends] at own
  cases own
  rw [payload_header sound.short (sent.failed unreturned)] at part
  rw [List.prefix_nil.mp part, List.append_nil, second] at whole
  cases greeted with
  | true => exact whole
  | false => exact absurd whole received

/-- Two calls with the session `a`. The first one waits its time and fails, and the relay goes on
waiting. -/
def twoCalls : List RelayNetworkLabel :=
  [.connect "a", .sendLength 0, .sendId 0, .relay (.server .accept true true),
    .relay (.server .serve true true),
    .relay (.server (.tick pairingTimeout) true true), .fails 0,
    .relay (.server (.tick (peerTimeout - pairingTimeout)) true true),
    .relay (.server .wake true true), .connect "a", .sendLength 1, .sendId 1,
    .relay (.server .accept true true),
    .relay (.server .serve true true), .readOk 1]

theorem unanswered_of_twoCalls :
    ∃ network client, Execution RelayNetwork.step Short new twoCalls network ∧
      client ∈ network.clients ∧
      client.stage = .ok ∧ ∃ pairing ∈ network.relay.server.pairings,
      pairing.second = client.stream ∧
        ∀ other ∈ network.clients, other.stream = pairing.first.stream →
          other.stage ≠ .ok ∧ network.relay.received client.stream = okMessage := by
  obtain ⟨network, run, good⟩ := exists_execution
    (fun network => network.clients.any fun client => client.stage = .ok)
    (show (replayWhere RelayNetwork.step
      (fun _ label => match label with
        | .connect sessionId => (utf8 sessionId).length < 2 ^ 32
        | _ => true) new twoCalls).any _ = true by decide)
  have short : Execution RelayNetwork.step Short new twoCalls network := by
    refine run.weaken fun network label allowed => ?_
    cases label with
    | connect sessionId =>
      have fits : (utf8 sessionId).length < 2 ^ 32 := of_decide_eq_true allowed
      exact fits
    | _ => trivial
  obtain ⟨client, member, ok⟩ := List.any_eq_true.mp good
  have returned := of_decide_eq_true ok
  exact ⟨network, client, short, member, returned, unanswered_of_run short member returned⟩

end RelayNetwork

end DistributedOs.Transfer
