import DistributedOs.Coordinator.Messages
import DistributedOs.Discovery.Wire
import DistributedOs.Semantics.Execution
import DistributedOs.Semantics.Table

/-! The registry of peers as the scanning loop fills it. The socket of the loop is an IPv4
one. Instants are nanoseconds, and the loop takes one datagram or one tick at a time. -/

namespace DistributedOs.Discovery

open Semantics DistributedOs.Coordinator

structure Ipv4Addr where
  a : UInt8
  b : UInt8
  c : UInt8
  d : UInt8
  deriving DecidableEq

def Ipv4Addr.toText (ip : Ipv4Addr) : String :=
  toString ip.a.toNat ++ "." ++ toString ip.b.toNat ++ "." ++ toString ip.c.toNat ++ "." ++
  toString ip.d.toNat

structure SocketAddr where
  ip : Ipv4Addr
  port : UInt16
  deriving DecidableEq

/-- `format!("{}:{}", ip, port)`, which is how a socket address is written as well. -/
def withPort (ip : Ipv4Addr) (port : UInt16) : String := ip.toText ++ ":" ++ toString port.toNat

def SocketAddr.toText (addr : SocketAddr) : String := withPort addr.ip addr.port

structure PeerInfo where
  id : String
  name : String
  address : String
  platform : String
  method : String
  lastSeen : Nat
  trusted : Bool
  version : String
  deriving DecidableEq

def PeerInfo.new (now : Nat) (id name address : String) : PeerInfo :=
  { id, name, address, platform := "", method := "", lastSeen := now, trusted := false, version := "" }

structure PeerManager where
  peers : AList fun _ : String => PeerInfo
  expiry : Nat

namespace PeerManager

def new (expiry : Nat) : PeerManager := { peers := ∅, expiry }

def register (manager : PeerManager) (peer : PeerInfo) : PeerManager :=
  { manager with peers := manager.peers.insert peer.id peer }

def get (manager : PeerManager) (id : String) : Option PeerInfo := manager.peers.lookup id

def isAlive (manager : PeerManager) (now : Nat) (peer : PeerInfo) : Bool :=
  now - peer.lastSeen < manager.expiry

def listAlive (manager : PeerManager) (now : Nat) : List PeerInfo :=
  (manager.peers.entries.map Sigma.snd).filter (manager.isAlive now)

def reapExpired (manager : PeerManager) (now : Nat) : PeerManager :=
  { manager with peers := retain (fun _ peer => manager.isAlive now peer) manager.peers }

def setTrusted (manager : PeerManager) (id : String) (trusted : Bool) : PeerManager :=
  match manager.peers.lookup id with
  | some peer => { manager with peers := manager.peers.insert id { peer with trusted } }
  | none => manager

end PeerManager

/-- What the callback is told, without the time of day and the trust, which is `Unknown`. -/
structure DeviceInfo where
  deviceId : String
  name : String
  deviceType : String
  addresses : List String
  transportFlags : UInt8
  protocolVersion : String

/-- What the loop does on an announcement or a response. -/
def PeerManager.announced (manager : PeerManager) (now : Nat) (announce : DiscoveryAnnounce)
    (peerAddr : SocketAddr) :
    PeerManager × Option DeviceInfo :=
  if (manager.get announce.deviceId).any (·.address = peerAddr.toText) then (manager, none)
  else
    let deviceInfo : DeviceInfo :=
      { deviceId := announce.deviceId, name := announce.deviceName, deviceType := announce.platform
        addresses := [withPort peerAddr.ip announce.transferPort],
          transportFlags := announce.transportFlags
        protocolVersion := "1.0.0" }
    let peerEntry :=
      { PeerInfo.new now announce.deviceId deviceInfo.name peerAddr.toText with
        method := "lan", platform := deviceInfo.deviceType }
    (manager.register peerEntry, some deviceInfo)

/-- An announcement as it was received. -/
structure Seen where
  deviceId : String
  ip : Ipv4Addr
  transferPort : UInt16
  time : Nat

/-- The history is that of the announcements, newest first. -/
structure RegistryState where
  manager : PeerManager
  now : Nat
  history : List Seen

inductive RegistryOp where
  | announcement (announce : DiscoveryAnnounce) (peerAddr : SocketAddr)
  | setTrusted (id : String) (trusted : Bool)
  | reapTick
  | advance (elapsed : Nat)

namespace RegistryState

def new (expiry now : Nat) : RegistryState := { manager := .new expiry, now, history := [] }

def step (state : RegistryState) : RegistryOp → Option RegistryState
  | .announcement announce peerAddr =>
    let seen : Seen :=
      { deviceId := announce.deviceId, ip := peerAddr.ip, transferPort := announce.transferPort,
        time := state.now }
    some { state with
      manager := (state.manager.announced state.now announce peerAddr).1
      history := seen :: state.history }
  | .setTrusted id trusted => some { state with manager := state.manager.setTrusted id trusted }
  | .reapTick => some { state with manager := state.manager.reapExpired state.now }
  | .advance elapsed => some { state with now := state.now + elapsed }

def latest (state : RegistryState) (id : String) : Option Seen :=
  state.history.find? (·.deviceId = id)

/-- What the registry is to say of the peers of the node `own`. -/
structure Sound (own : String) (state : RegistryState) : Prop where
  alive : ∀ id seen, id ≠ own → state.latest id = some seen →
    state.now - seen.time < state.manager.expiry →
    ∃ peer ∈ state.manager.listAlive state.now, peer.id = id
  address : ∀ id peer, state.manager.get id = some peer →
    ∃ seen, state.latest id = some seen ∧
    parseAddr peer.address = .ok (seen.ip.toText, seen.transferPort.toNat)
  notOwn : state.manager.get own = none

end RegistryState

def TrustKept (state : RegistryState) (op : RegistryOp) (after : RegistryState) : Prop :=
  ∀ announce peerAddr id peer, op = .announcement announce peerAddr → state.manager.get id = some peer →
    peer.trusted = true → ∃ again, after.manager.get id = some again ∧ again.trusted = true

/-- An announcement of another node, sent from its transfer port, that finds its peer under
the same address only if that was recorded at the same instant, and under another address
only if it is not trusted. -/
def RegistryState.benign (own : String) (state : RegistryState) : RegistryOp → Prop
  | .announcement announce peerAddr =>
    announce.deviceId ≠ own ∧ peerAddr.port = announce.transferPort ∧
      ∀ peer, state.manager.get announce.deviceId = some peer →
        if peer.address = peerAddr.toText then peer.lastSeen = state.now else peer.trusted = false
  | _ => True

theorem parsePort_toDigits (small : port < 65536) :
    parsePort (Nat.toDigits 10 port) = some port := by
  have digits (c : Char) (member : c ∈ Nat.toDigits 10 port) : c.isDigit = true :=
    Nat.isDigit_of_mem_toDigits (by decide) (by decide) member
  have value : (Nat.toDigits 10 port).foldl
      (fun value digit => value * 10 + (digit.toNat - '0'.toNat)) 0 = port := by
    have read := Nat.ofDigitChars_ten_toDigits (n := port)
    rw [Nat.ofDigitChars_eq_foldl] at read
    simpa only [Nat.mul_comm] using read
  cases written : Nat.toDigits 10 port with
  | nil => exact absurd written Nat.toDigits_ne_nil
  | cons first rest =>
    rw [written] at digits value
    have unsigned : first ≠ '+' := by
      rintro rfl
      exact absurd (digits '+' List.mem_cons_self) (by decide)
    have all : (first :: rest).all Char.isDigit = true := List.all_eq_true.mpr digits
    simp only [parsePort]
    split
    · rename_i same
      cases same
      exact absurd rfl unsigned
    · rw [all, value]
      simp [small]

theorem parseAddr_append (host : String) (small : port < 65536) :
    parseAddr (host ++ ":" ++ toString port) = .ok (host, port) := by
  have text : (host ++ ":" ++ toString port).toList = host.toList ++ ':' :: Nat.toDigits 10 port := by
    rw [String.toList_append, String.toList_append, Nat.toString_eq_ofList_toDigits,
      String.toList_ofList]
    simp
  have plain (c : Char) (member : c ∈ (Nat.toDigits 10 port).reverse) : decide (c ≠ ':') = true := by
    have digit := Nat.isDigit_of_mem_toDigits (b := 10) (by decide) (by decide)
      (List.mem_reverse.mp member)
    refine decide_eq_true fun same => ?_
    rw [same] at digit
    exact absurd digit (by decide)
  have reversed : (host.toList ++ ':' :: Nat.toDigits 10 port).reverse =
      (Nat.toDigits 10 port).reverse ++ ':' :: host.toList.reverse := by
    simp
  rw [parseAddr, text, if_pos (by simp)]
  simp only [reversed]
  rw [List.takeWhile_append_of_pos plain, List.dropWhile_append_of_pos plain]
  simp [parsePort_toDigits small]

theorem parseAddr_withPort (ip : Ipv4Addr) (port : UInt16) :
    parseAddr (withPort ip port) = .ok (ip.toText, port.toNat) :=
  parseAddr_append ip.toText port.toNat_lt

variable {own : String} {state after : RegistryState} {op : RegistryOp} {id : String}
  {peer : PeerInfo}

namespace PeerManager

theorem get_register (manager : PeerManager) (peer : PeerInfo) (id : String) :
    (manager.register peer).get id = if id = peer.id then some peer else manager.get id := by
  unfold register get
  split
  · rename_i same
    rw [same, AList.lookup_insert]
  · rename_i different
    exact AList.lookup_insert_ne different

theorem get_reapExpired (manager : PeerManager) (now : Nat) (id : String) :
    (manager.reapExpired now).get id = (manager.get id).filter (manager.isAlive now) :=
  lookup_retain _ _ id

theorem get_setTrusted (manager : PeerManager) (id other : String) (trusted : Bool) :
    (manager.setTrusted id trusted).get other =
      if other = id then (manager.get id).map fun peer => { peer with trusted }
      else manager.get other := by
  unfold get
  cases found : manager.peers.lookup id with
  | none =>
    have same : manager.setTrusted id trusted = manager := by
      rw [setTrusted, found]
    rw [same]
    split
    · rename_i same
      rw [same, found]
      rfl
    · rfl
  | some peer =>
    have updated : (manager.setTrusted id trusted).peers = manager.peers.insert id
        { peer with trusted } := by
      rw [setTrusted, found]
    rw [updated]
    split
    · rename_i same
      rw [same, AList.lookup_insert]
      rfl
    · rename_i different
      exact AList.lookup_insert_ne different

theorem mem_listAlive (manager : PeerManager) (now : Nat) (found : manager.get id = some peer)
    (fresh : now - peer.lastSeen < manager.expiry) : peer ∈ manager.listAlive now := by
  refine List.mem_filter.mpr ⟨List.mem_map.mpr ⟨⟨id, peer⟩, AList.mem_lookup_iff.mp found, rfl⟩, ?_⟩
  exact decide_eq_true fresh

end PeerManager

/-- The registry records the latest announcement of each peer, until that has expired. -/
structure Recorded (own : String) (state : RegistryState) : Prop where
  keyed : ∀ id peer, state.manager.get id = some peer → peer.id = id
  recorded : ∀ id peer, state.manager.get id = some peer →
    ∃ seen, state.latest id = some seen ∧ peer.lastSeen = seen.time ∧
    peer.address = withPort seen.ip seen.transferPort
  present : ∀ id seen, state.latest id = some seen → state.now - seen.time < state.manager.expiry →
    ∃ peer, state.manager.get id = some peer
  notOwn : state.latest own = none

theorem Recorded.new (own : String) (expiry now : Nat) : Recorded own (.new expiry now) := by
  constructor
  · intro id peer found
    cases found
  · intro id _ found
    cases found
  · intro _ _ found
    cases found
  · rfl

theorem Recorded.sound (recorded : Recorded own state) : state.Sound own := by
  constructor
  · intro id seen _ latest fresh
    obtain ⟨peer, found⟩ := recorded.present id seen latest fresh
    obtain ⟨_, latest', time, _⟩ := recorded.recorded id peer found
    cases latest.symm.trans latest'
    rw [← time] at fresh
    exact ⟨peer, state.manager.mem_listAlive state.now found fresh, recorded.keyed id peer found⟩
  · intro id peer found
    obtain ⟨seen, latest, _, address⟩ := recorded.recorded id peer found
    rw [address]
    exact ⟨seen, latest, parseAddr_withPort seen.ip seen.transferPort⟩
  · cases found : state.manager.get own with
    | none => rfl
    | some peer =>
      obtain ⟨_, latest, _⟩ := recorded.recorded own peer found
      rw [recorded.notOwn] at latest
      cases latest

theorem latest_cons (state : RegistryState) (seen : Seen) (manager : PeerManager) (id : String) :
    ({ state with manager, history := seen :: state.history } : RegistryState).latest id =
      if seen.deviceId = id then some seen else state.latest id := by
  simp only [RegistryState.latest, List.find?_cons]
  split <;> simp_all

theorem announced_register {manager : PeerManager} {now : Nat}
    (absent : (manager.get announce.deviceId).any (·.address = peerAddr.toText) = false) :
    ∃ entry : PeerInfo, entry.id = announce.deviceId ∧ entry.lastSeen = now ∧
      entry.address = peerAddr.toText ∧
      (manager.announced now announce peerAddr).1 = manager.register entry := by
  refine ⟨{ PeerInfo.new now announce.deviceId announce.deviceName peerAddr.toText with
    method := "lan", platform := announce.platform }, rfl, rfl, rfl, ?_⟩
  rw [PeerManager.announced, if_neg (by simp [absent])]

/-- An announcement either finds its peer under the address it came from, and then changes
nothing, or registers the peer anew. -/
theorem announced_cases (manager : PeerManager) (now : Nat) (announce : DiscoveryAnnounce)
    (peerAddr : SocketAddr) :
    (∃ peer, manager.get announce.deviceId = some peer ∧ peer.address = peerAddr.toText ∧
      (manager.announced now announce peerAddr).1 = manager) ∨
    ((∀ peer, manager.get announce.deviceId = some peer → peer.address ≠ peerAddr.toText) ∧
      ∃ entry : PeerInfo, entry.id = announce.deviceId ∧ entry.lastSeen = now ∧
      entry.address = peerAddr.toText ∧
        (manager.announced now announce peerAddr).1 = manager.register entry) := by
  cases found : manager.get announce.deviceId with
  | none => exact .inr ⟨(fun _ other => nomatch other), announced_register (by rw [found]; rfl)⟩
  | some peer =>
    by_cases same : peer.address = peerAddr.toText
    · refine .inl ⟨peer, rfl, same, ?_⟩
      rw [PeerManager.announced, if_pos (by simp [found, same])]
    · refine .inr ⟨fun other stored => Option.some.inj stored ▸ same, announced_register ?_⟩
      simp [found, same]

theorem Recorded.announced_again (recorded : Recorded own state) (another : seen.deviceId ≠ own)
    (found : state.manager.get seen.deviceId = some peer) (time : peer.lastSeen = seen.time)
    (address : peer.address = withPort seen.ip seen.transferPort) :
    Recorded own { state with history := seen :: state.history } := by
  refine ⟨recorded.keyed, fun id peer' found' => ?_, fun id seen' latest fresh => ?_, ?_⟩
  · rw [latest_cons]
    split
    · rename_i same
      subst same
      cases found.symm.trans found'
      exact ⟨seen, rfl, time, address⟩
    · exact recorded.recorded id peer' found'
  · rw [latest_cons] at latest
    split at latest
    · rename_i same
      subst same
      exact ⟨peer, found⟩
    · exact recorded.present id seen' latest fresh
  · rw [latest_cons, if_neg another]
    exact recorded.notOwn

theorem Recorded.register (recorded : Recorded own state) (another : seen.deviceId ≠ own)
    (named : peer.id = seen.deviceId) (time : peer.lastSeen = seen.time)
    (address : peer.address = withPort seen.ip seen.transferPort) :
    Recorded own
      { state with manager := state.manager.register peer, history := seen :: state.history } := by
  refine ⟨fun id peer' found => ?_, fun id peer' found => ?_, fun id seen' latest fresh => ?_, ?_⟩
  · rw [PeerManager.get_register] at found
    split at found
    · rename_i same
      cases found
      exact same.symm
    · exact recorded.keyed id peer' found
  · rw [PeerManager.get_register] at found
    rw [latest_cons]
    split at found
    · rename_i same
      cases found
      rw [if_pos (same.trans named).symm]
      exact ⟨seen, rfl, time, address⟩
    · rename_i other
      rw [if_neg fun same => other (same.symm.trans named.symm)]
      exact recorded.recorded id peer' found
  · rw [PeerManager.get_register]
    rw [latest_cons] at latest
    split
    · exact ⟨peer, rfl⟩
    · rename_i other
      rw [if_neg fun same => other (same.symm.trans named.symm)] at latest
      exact recorded.present id seen' latest fresh
  · rw [latest_cons, if_neg another]
    exact recorded.notOwn

theorem Recorded.announcement (recorded : Recorded own state)
    (benign : state.benign own (.announcement announce peerAddr))
    (taken : state.step (.announcement announce peerAddr) = some after) : Recorded own after := by
  obtain ⟨another, port, again⟩ := benign
  have announced : peerAddr.toText = withPort peerAddr.ip announce.transferPort := by
    rw [SocketAddr.toText, port]
  cases taken
  rcases announced_cases state.manager state.now announce peerAddr with
    ⟨peer, found, address, same⟩ | ⟨_, entry, named, time, address, registered⟩
  · have instant : peer.lastSeen = state.now := by
      have permitted := again peer found
      rwa [if_pos address] at permitted
    rw [same]
    exact recorded.announced_again another found instant (address.trans announced)
  · rw [registered]
    exact recorded.register another named time (address.trans announced)

namespace PeerManager

theorem of_get_setTrusted {manager : PeerManager}
    (found : (manager.setTrusted id trusted).get other = some peer) :
    ∃ before, manager.get other = some before ∧ before.id = peer.id ∧
      before.lastSeen = peer.lastSeen ∧
      before.address = peer.address := by
  rw [get_setTrusted] at found
  split at found
  · rename_i same
    subst same
    obtain ⟨before, present, rfl⟩ := Option.map_eq_some_iff.mp found
    exact ⟨before, present, rfl, rfl, rfl⟩
  · exact ⟨peer, found, rfl, rfl, rfl⟩

@[simp] theorem expiry_setTrusted (manager : PeerManager) (id : String) (trusted : Bool) :
    (manager.setTrusted id trusted).expiry = manager.expiry := by
  unfold setTrusted
  split <;> rfl

end PeerManager

theorem Recorded.setTrusted (recorded : Recorded own state) (id : String) (trusted : Bool) :
    Recorded own { state with manager := state.manager.setTrusted id trusted } := by
  constructor
  · intro other peer found
    obtain ⟨before, present, same, _⟩ := PeerManager.of_get_setTrusted found
    rw [← same]
    exact recorded.keyed other before present
  · intro other peer found
    obtain ⟨before, present, _, lastSeen, address⟩ := PeerManager.of_get_setTrusted found
    rw [← lastSeen, ← address]
    exact recorded.recorded other before present
  · intro other seen latest fresh
    rw [PeerManager.expiry_setTrusted] at fresh
    obtain ⟨peer, present⟩ := recorded.present other seen latest fresh
    rw [PeerManager.get_setTrusted]
    split
    · rename_i same
      rw [← same, present]
      exact ⟨_, rfl⟩
    · exact ⟨peer, present⟩
  · exact recorded.notOwn

theorem Recorded.reapExpired (recorded : Recorded own state) :
    Recorded own { state with manager := state.manager.reapExpired state.now } := by
  have kept (id : String) (peer : PeerInfo) :
      (state.manager.reapExpired state.now).get id = some peer ↔
        state.manager.get id = some peer ∧ state.manager.isAlive state.now peer = true := by
    rw [PeerManager.get_reapExpired, Option.filter_eq_some_iff]
  constructor
  · intro id peer found
    exact recorded.keyed id peer ((kept id peer).mp found).1
  · intro id peer found
    exact recorded.recorded id peer ((kept id peer).mp found).1
  · intro id seen latest fresh
    obtain ⟨peer, present⟩ := recorded.present id seen latest fresh
    obtain ⟨_, latest', time, _⟩ := recorded.recorded id peer present
    cases Eq.trans latest.symm latest'
    refine ⟨peer, (kept id peer).mpr ⟨present, ?_⟩⟩
    rw [← time] at fresh
    exact decide_eq_true fresh
  · exact recorded.notOwn

theorem Recorded.advance (recorded : Recorded own state) (elapsed : Nat) :
    Recorded own { state with now := state.now + elapsed } := by
  refine ⟨recorded.keyed, recorded.recorded, fun id seen latest fresh => ?_, recorded.notOwn⟩
  apply recorded.present id seen latest
  dsimp only at fresh
  omega

theorem Recorded.step (recorded : Recorded own state) (benign : state.benign own op)
    (taken : state.step op = some after) : Recorded own after := by
  cases op with
  | announcement => exact recorded.announcement benign taken
  | setTrusted id trusted =>
    cases taken
    exact recorded.setTrusted id trusted
  | reapTick =>
    cases taken
    exact recorded.reapExpired
  | advance elapsed =>
    cases taken
    exact recorded.advance elapsed

theorem trustKept_of_benign (benign : state.benign own op) (taken : state.step op = some after) :
    TrustKept state op after := by
  rintro announce peerAddr _ peer rfl found trusted
  obtain ⟨_, _, again⟩ := benign
  cases taken
  rcases announced_cases state.manager state.now announce peerAddr with
    ⟨_, _, _, same⟩ | ⟨moved, entry, name, _, _, registered⟩
  · exact ⟨peer, by rw [same]; exact found, trusted⟩
  · refine ⟨peer, ?_, trusted⟩
    rw [registered, PeerManager.get_register, if_neg]
    · exact found
    · intro this
      rw [this, name] at found
      have untrusted := again peer found
      rw [if_neg (moved peer found), trusted] at untrusted
      cases untrusted

/-- In a run of benign steps the registry is sound throughout, and no trust is cleared. -/
theorem registry_sound (own : String) (expiry now : Nat) (ops : List RegistryOp)
    (final : RegistryState)
    (run : Execution RegistryState.step (RegistryState.benign own) (.new expiry now) ops final) :
    EveryStep RegistryState.step (fun state op after => after.Sound own ∧ TrustKept state op after)
      (.new expiry now) ops :=
  run.everyStep (Recorded own) (.new own expiry now) fun _ _ _ recorded benign taken =>
    have next := recorded.step benign taken
    ⟨next, next.sound, trustKept_of_benign benign taken⟩

/-- The expiry the coordinator sets, 120 seconds. -/
def peerExpiry : Nat := 120 * 1000000000

def phoneIp : Ipv4Addr := ⟨192, 168, 1, 10⟩

/-- A phone announces itself from its transfer port, once. -/
theorem announced_once_sound :
    EveryStep RegistryState.step
      (fun state op after => after.Sound "self" ∧ TrustKept state op after)
      (.new peerExpiry 0)
      [.announcement (phone "Alice") ⟨phoneIp, 18250⟩, .setTrusted phoneId.toText true,
        .advance 60000000000, .reapTick] := by
  refine registry_sound "self" peerExpiry 0 _ _
    (.next ⟨by decide, rfl, ?_⟩ rfl (.next trivial rfl (.next trivial rfl (.next trivial rfl .done))))
  intro _ found
  cases found

/-- A phone that announces itself from another port is registered under that port. -/
theorem wrong_port_unsound :
    ¬ EveryStep RegistryState.step
      (fun state op after => after.Sound "self" ∧ TrustKept state op after)
      (.new peerExpiry 0) [.announcement (phone "Alice") ⟨phoneIp, 50000⟩] := by
  intro every
  have sound := (every [] _ [] _ _ rfl .done rfl).1
  obtain ⟨_, latest, address⟩ := sound.address phoneId.toText _ rfl
  cases latest
  have same := Prod.mk.inj (Except.ok.inj (address.symm.trans (parseAddr_withPort phoneIp 50000)))
  exact absurd same.2 (by decide)

end DistributedOs.Discovery
