import DistributedOs.Pairing.Manager

/-! The pairing of two devices: one requests it, the other's user confirms it, and the
confirmation goes back. The payloads reach the other side as they are. -/

namespace DistributedOs.Pairing

/-- A device with its identity and its manager. The fingerprint is derived from the device id. -/
structure Device where
  deviceId : String
  deviceName : String
  fingerprint : String
  manager : PairingManager

/-- `TransferCoordinator::request_pairing`, with the payload it is to send. -/
def Device.requestPairing (device : Device) (now : Nat) (requestId : String) (createdAt : Nat)
    (deviceId : String) :
    Device × PairingRequestPayload :=
  let (manager, payload) :=
    device.manager.requestPairing now requestId createdAt deviceId device.deviceName device.fingerprint
  ({ device with manager }, payload)

def Device.confirmation (device : Device) (requestId : String) : PairingConfirmPayload :=
  { requestId, deviceId := device.deviceId, deviceName := device.deviceName,
    fingerprint := device.fingerprint
    accepted := true }

/-- When the three steps that look at the clock are made. -/
structure Schedule where
  requested : Nat
  received : Nat
  confirmed : Nat

/-- `a` requests the pairing with `b`, whose user confirms it. -/
def exchange (a b : Device) (schedule : Schedule) (requestId : String)
    (createdAt : Nat) : Device × Device :=
  let (a, payload) := a.requestPairing schedule.requested requestId createdAt b.deviceId
  let (incoming, request) := b.manager.incomingRequest schedule.received payload
  let (confirmed, _) := incoming.confirmPairing schedule.confirmed request.requestId
  ({ a with manager := a.manager.acceptRemoteConfirmation (b.confirmation requestId) },
    { b with manager := confirmed })

/-- A store has come to trust one device under its fingerprint, and trusts every other as before. -/
structure PinsOnly (before after : TofuStore) (deviceId fingerprint : String) : Prop where
  pinned : after.fingerprintFor deviceId = some fingerprint
  others : ∀ other, other ≠ deviceId → after.fingerprintFor other = before.fingerprintFor other

/-- Each side trusts exactly the other. -/
structure Paired (a b a' b' : Device) : Prop where
  requester : PinsOnly a.manager.tofuStore a'.manager.tofuStore b.deviceId b.fingerprint
  confirmer : PinsOnly b.manager.tofuStore b'.manager.tofuStore a.deviceId a.fingerprint

variable {a b : Device} {schedule : Schedule} {requestId : String} {createdAt : Nat}

theorem pinsOnly_trust (store : TofuStore) (deviceId fingerprint name : String) :
    PinsOnly store (store.trust deviceId fingerprint name) deviceId fingerprint := by
  constructor
  · simp
  · intro _ different
    simp [different]

theorem confirmPairing_incoming (manager : PairingManager) (payload : PairingRequestPayload)
    (inTime : now < received + pairingRequestTtl) :
    ((manager.incomingRequest received payload).1.confirmPairing now
      payload.requestId).1.tofuStore =
      manager.tofuStore.trust payload.deviceId payload.fingerprint payload.deviceName := by
  have pending : ¬ received + pairingRequestTtl ≤ now := by omega
  simp [PairingManager.incomingRequest, PairingManager.confirmPairing, PairingRequest.isExpired, pending]

theorem exchange_stores (a b : Device) (requestId : String) (createdAt : Nat)
    (inTime : schedule.confirmed < schedule.received + pairingRequestTtl) :
    (exchange a b schedule requestId createdAt).1.manager.tofuStore =
        a.manager.tofuStore.trust b.deviceId b.fingerprint b.deviceName ∧
      (exchange a b schedule requestId createdAt).2.manager.tofuStore =
        b.manager.tofuStore.trust b.deviceId a.fingerprint a.deviceName :=
  ⟨rfl, confirmPairing_incoming b.manager _ inTime⟩

/-- The pairing does what it is for exactly when the confirmer's store has the two pins before,
those of the requester and of itself under the requester's fingerprint. -/
theorem exchange_pairs_iff (distinct : a.deviceId ≠ b.deviceId)
    (inTime : schedule.confirmed < schedule.received + pairingRequestTtl) :
    Paired a b (exchange a b schedule requestId createdAt).1
      (exchange a b schedule requestId createdAt).2 ↔
      b.manager.tofuStore.fingerprintFor a.deviceId = some a.fingerprint ∧
        b.manager.tofuStore.fingerprintFor b.deviceId = some a.fingerprint := by
  obtain ⟨requester, confirmer⟩ := exchange_stores a b requestId createdAt inTime
  constructor
  · intro paired
    have pinned := paired.confirmer.pinned
    have own := paired.confirmer.others b.deviceId distinct.symm
    rw [confirmer, TofuStore.fingerprintFor_trust] at pinned own
    rw [if_neg distinct] at pinned
    rw [if_pos rfl] at own
    exact ⟨pinned, own.symm⟩
  · rintro ⟨trusted, own⟩
    refine ⟨?_, ?_, fun other different => ?_⟩
    · rw [requester]
      exact pinsOnly_trust _ _ _ _
    · rw [confirmer, TofuStore.fingerprintFor_trust, if_neg distinct, trusted]
    · rw [confirmer, TofuStore.fingerprintFor_trust]
      split
      · rename_i same
        rw [same, own]
      · rfl

/-- A device as it starts, trusting nobody. -/
def freshDevice (deviceId deviceName fingerprint : String) : Device :=
  { deviceId, deviceName, fingerprint, manager := .new { entries := ∅ } }

/-- Two devices that trust nobody: the confirmer comes to trust itself. -/
theorem fresh_devices_unpaired :
    ¬ Paired (freshDevice "a" "Alice" "fa") (freshDevice "b" "Bob" "fb")
      (exchange (freshDevice "a" "Alice" "fa") (freshDevice "b" "Bob" "fb") ⟨0, 1, 2⟩ "r" 0).1
      (exchange (freshDevice "a" "Alice" "fa") (freshDevice "b" "Bob" "fb") ⟨0, 1, 2⟩ "r" 0).2 := by
  intro paired
  exact absurd paired.confirmer.pinned (by decide)

/-- The confirmer has both pins already. -/
def pinnedConfirmer : Device :=
  { freshDevice "b" "Bob" "fb" with
    manager := .new (TofuStore.trust (TofuStore.trust { entries := ∅ } "a" "fa" "Alice")
      "b" "fa" "Alice") }

theorem pinned_confirmer_pairs : Paired (freshDevice "a" "Alice" "fa") pinnedConfirmer
    (exchange (freshDevice "a" "Alice" "fa") pinnedConfirmer ⟨0, 1, 2⟩ "r" 0).1
    (exchange (freshDevice "a" "Alice" "fa") pinnedConfirmer ⟨0, 1, 2⟩ "r" 0).2 :=
  (exchange_pairs_iff (by decide) (by decide)).mpr ⟨by decide, by decide⟩

end DistributedOs.Pairing
