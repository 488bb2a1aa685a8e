import DistributedOs.Semantics.Table

/-! The trust store and the pairing manager. Instants are nanoseconds, and the operations of
a manager run one after the other. The file that `trust` saves the map to is read only when a
store is loaded; it is part of the models of several stores, with the outcomes that a write has.
Nothing reads the time of first trust. -/

namespace DistributedOs.Pairing

open Semantics

structure TrustEntry where
  peerId : String
  fingerprint : String
  peerName : String
  deriving DecidableEq

structure TofuStore where
  entries : AList fun _ : String => TrustEntry

/-- What becomes of a `fs::write`, whose errors are ignored: it is done, the file could not be
opened, or it is left cut off. -/
inductive WriteOutcome where
  | written
  | unopened
  | cut

namespace TofuStore

def isTrusted (store : TofuStore) (peerId fingerprint : String) : Bool :=
  match store.entries.lookup peerId with
  | some entry => entry.fingerprint = fingerprint
  | none => false

def trust (store : TofuStore) (peerId fingerprint peerName : String) : TofuStore :=
  { entries := store.entries.insert peerId { peerId, fingerprint, peerName } }

def fingerprintFor (store : TofuStore) (peerId : String) : Option String :=
  (store.entries.lookup peerId).map TrustEntry.fingerprint

@[simp] theorem fingerprintFor_trust (store : TofuStore)
    (peerId fingerprint peerName other : String) :
    (store.trust peerId fingerprint peerName).fingerprintFor other =
      if other = peerId then some fingerprint else store.fingerprintFor other := by
  by_cases same : other = peerId
  · subst same
    simp [trust, fingerprintFor]
  · simp [trust, fingerprintFor, same, AList.lookup_insert_ne same]

end TofuStore

/-- `PAIRING_REQUEST_TTL`, 120 seconds. -/
def pairingRequestTtl : Nat := 120 * 1000000000

inductive PairingStatus where
  | unknown
  | pending (requestId : String) (isIncoming : Bool)
  | trusted
  | blocked
  deriving DecidableEq, Repr

structure PairingRequest where
  requestId : String
  deviceId : String
  deviceName : String
  fingerprint : String
  isIncoming : Bool
  expiresAt : Nat
  createdAt : Nat
  deriving DecidableEq

def PairingRequest.isExpired (request : PairingRequest) (now : Nat) : Bool :=
  request.expiresAt ≤ now

structure PairingRequestPayload where
  requestId : String
  deviceId : String
  deviceName : String
  fingerprint : String
  createdAt : Nat
  deriving DecidableEq

structure PairingConfirmPayload where
  requestId : String
  deviceId : String
  deviceName : String
  fingerprint : String
  accepted : Bool
  deriving DecidableEq

structure PairingManager where
  tofuStore : TofuStore
  pending : AList fun _ : String => PairingRequest
  blocked : List String

namespace PairingManager

def new (tofuStore : TofuStore) : PairingManager := { tofuStore, pending := ∅, blocked := [] }

/-- The request id is a random UUID, here given by the environment. -/
def requestPairing (manager : PairingManager) (now : Nat) (requestId : String) (createdAt : Nat)
    (deviceId deviceName ourFingerprint : String) : PairingManager × PairingRequestPayload :=
  let request : PairingRequest :=
    { requestId, deviceId, deviceName, fingerprint := ourFingerprint, isIncoming := false
      expiresAt := now + pairingRequestTtl, createdAt }
  ({ manager with pending := manager.pending.insert requestId request },
    { requestId, deviceId, deviceName, fingerprint := ourFingerprint, createdAt })

def incomingRequest (manager : PairingManager) (now : Nat) (payload : PairingRequestPayload) :
    PairingManager × PairingRequest :=
  let request : PairingRequest :=
    { requestId := payload.requestId, deviceId := payload.deviceId, deviceName := payload.deviceName
      fingerprint := payload.fingerprint, isIncoming := true, expiresAt := now + pairingRequestTtl
      createdAt := payload.createdAt }
  ({ manager with pending := manager.pending.insert request.requestId request }, request)

def confirmPairing (manager : PairingManager) (now : Nat) (requestId : String) :
    PairingManager × Bool :=
  match manager.pending.lookup requestId with
  | some request =>
    let removed := { manager with pending := manager.pending.erase requestId }
    if request.isExpired now then (removed, false)
    else
      ({ removed with
          tofuStore := manager.tofuStore.trust request.deviceId request.fingerprint
            request.deviceName }, true)
  | none => (manager, false)

def rejectPairing (manager : PairingManager) (requestId : String) : PairingManager × Bool :=
  ({ manager with pending := manager.pending.erase requestId },
    (manager.pending.lookup requestId).isSome)

def acceptRemoteConfirmation (manager : PairingManager) (payload : PairingConfirmPayload) :
    PairingManager :=
  let tofuStore :=
    if payload.accepted then
      manager.tofuStore.trust payload.deviceId payload.fingerprint payload.deviceName
    else manager.tofuStore
  { manager with tofuStore, pending := manager.pending.erase payload.requestId }

/-- `values` are the pending requests in the order the map iterates them. -/
def trustStatus (manager : PairingManager) (values : List PairingRequest)
    (deviceId : String) : PairingStatus :=
  if manager.blocked.any (· = deviceId) then .blocked
  else if (manager.tofuStore.fingerprintFor deviceId).isSome then .trusted
  else
    match values.find? (·.deviceId = deviceId) with
    | some request => .pending request.requestId request.isIncoming
    | none => .unknown

def blockPeer (manager : PairingManager) (deviceId : String) : PairingManager :=
  { manager with blocked := manager.blocked ++ [deviceId] }

def unblockPeer (manager : PairingManager) (deviceId : String) : PairingManager :=
  { manager with blocked := manager.blocked.filter (· ≠ deviceId) }

def reapExpired (manager : PairingManager) (now : Nat) : PairingManager × Nat :=
  let pending := retain (fun _ request => !request.isExpired now) manager.pending
  ({ manager with pending }, manager.pending.entries.length - pending.entries.length)

end PairingManager

theorem fingerprintFor_confirmPairing (manager : PairingManager) (now : Nat)
    (requestId deviceId fingerprint : String) :
    (manager.confirmPairing now requestId).1.tofuStore.fingerprintFor deviceId = some fingerprint ↔
      (∃ request, manager.pending.lookup requestId = some request ∧ request.isExpired now = false ∧
        request.deviceId = deviceId ∧ request.fingerprint = fingerprint) ∨
      (manager.tofuStore.fingerprintFor deviceId = some fingerprint ∧
        ∀ request, manager.pending.lookup requestId = some request → request.isExpired now = false →
          request.deviceId ≠ deviceId) := by
  unfold PairingManager.confirmPairing
  cases found : manager.pending.lookup requestId with
  | none => simp
  | some request =>
    cases expired : request.isExpired now with
    | true => simp [expired]
    | false =>
      by_cases same : deviceId = request.deviceId
      · simp [same, expired]
      · simp [same, Ne.symm same, expired]

theorem fingerprintFor_acceptRemoteConfirmation (manager : PairingManager)
    (payload : PairingConfirmPayload) (deviceId : String) :
    (manager.acceptRemoteConfirmation payload).tofuStore.fingerprintFor deviceId =
      if payload.accepted = true ∧ deviceId = payload.deviceId then some payload.fingerprint
      else manager.tofuStore.fingerprintFor deviceId := by
  unfold PairingManager.acceptRemoteConfirmation
  cases accepted : payload.accepted with
  | false => simp
  | true => simp

theorem trustStatus_pending_iff (manager : PairingManager) (values : List PairingRequest)
    (deviceId requestId : String) (isIncoming : Bool) :
    manager.trustStatus values deviceId = .pending requestId isIncoming ↔
      deviceId ∉ manager.blocked ∧ (manager.tofuStore.fingerprintFor deviceId).isSome = false ∧
        ∃ request, values.find? (·.deviceId = deviceId) = some request ∧
        request.requestId = requestId ∧
          request.isIncoming = isIncoming := by
  unfold PairingManager.trustStatus
  by_cases blocked : deviceId ∈ manager.blocked
  · simp [blocked]
  · cases trusted : (manager.tofuStore.fingerprintFor deviceId).isSome with
    | true => simp [blocked]
    | false =>
      cases found : values.find? (·.deviceId = deviceId) with
      | none => simp [blocked]
      | some => simp [blocked]

end DistributedOs.Pairing
