import DistributedOs.Pairing.Pins

/-! What the queries of a pairing manager say of a blocked device. Through `tofu_store` the
manager's store is used apart from the manager: it is trusted in, verified against and reloaded. -/

namespace DistributedOs.Pairing

open Semantics

namespace PairingManager

def isTrusted (manager : PairingManager) (deviceId : String) : Bool :=
  (manager.tofuStore.fingerprintFor deviceId).isSome

def verifyFingerprint (manager : PairingManager) (deviceId fingerprint : String) : Bool :=
  manager.tofuStore.isTrusted deviceId fingerprint

end PairingManager

/-- A reload that finds the file changed takes what the file parses to. -/
inductive ManagedOp where
  | pairing (op : PairingOp)
  | trust (peerId fingerprint peerName : String)
  | verify (peerId peerName : String) (endEntity : List UInt8)
  | reload (file : TofuStore)

def PairingState.withStore (state : PairingState) (store : TofuStore) : PairingState :=
  { state with manager.tofuStore := store }

def PairingState.manage (sha256 : List UInt8 → List UInt8) (state : PairingState) :
    ManagedOp → Option PairingState
  | .pairing op => state.step op
  | .trust peerId fingerprint peerName =>
    some (state.withStore (state.manager.tofuStore.trust peerId fingerprint peerName))
  | .verify peerId peerName endEntity =>
    some (state.withStore (state.manager.tofuStore.verifyServerCert sha256 peerId peerName endEntity).1)
  | .reload file => some (state.withStore file)

/-- In whatever order the pending requests are iterated, the queries agree on who is trusted; and
none accepts a blocked device. -/
structure PairingManager.Consistent (manager : PairingManager) : Prop where
  agree : ∀ deviceId values, values.Perm manager.values →
    (manager.isTrusted deviceId = true ↔ manager.trustStatus values deviceId = .trusted)
  untrusted : ∀ deviceId ∈ manager.blocked, manager.isTrusted deviceId = false
  unverified : ∀ deviceId ∈ manager.blocked, ∀ fingerprint,
    manager.verifyFingerprint deviceId fingerprint = false

/-- Nobody is blocked who has a pin, and nobody who is blocked gets one. -/
def PairingState.separates (state : PairingState) : ManagedOp → Prop
  | .pairing (.confirmPairing shown) =>
    ∀ request, state.manager.pending.lookup shown.requestId = some request →
    request.isExpired state.now = false →
      request.deviceId ∉ state.manager.blocked
  | .pairing (.acceptRemoteConfirmation payload) =>
    payload.accepted = true → payload.deviceId ∉ state.manager.blocked
  | .pairing (.blockPeer deviceId) => state.manager.tofuStore.fingerprintFor deviceId = none
  | .trust peerId _ _ => peerId ∉ state.manager.blocked
  | .verify peerId _ _ =>
    state.manager.tofuStore.fingerprintFor peerId = none → peerId ∉ state.manager.blocked
  | .reload file => ∀ deviceId ∈ state.manager.blocked, file.fingerprintFor deviceId = none
  | _ => True

def PairingManager.Separate (manager : PairingManager) : Prop :=
  ∀ deviceId ∈ manager.blocked, manager.tofuStore.fingerprintFor deviceId = none

variable {sha256 : List UInt8 → List UInt8} {state after : PairingState}

theorem TofuStore.isTrusted_iff (store : TofuStore) (deviceId fingerprint : String) :
    store.isTrusted deviceId fingerprint = true ↔
      store.fingerprintFor deviceId = some fingerprint := by
  unfold TofuStore.isTrusted TofuStore.fingerprintFor
  cases store.entries.lookup deviceId with
  | none => simp
  | some => simp

theorem trustStatus_trusted_iff (manager : PairingManager) (values : List PairingRequest)
    (deviceId : String) :
    manager.trustStatus values deviceId = .trusted ↔ deviceId ∉ manager.blocked ∧
      manager.isTrusted deviceId = true := by
  unfold PairingManager.trustStatus PairingManager.isTrusted
  by_cases blocked : deviceId ∈ manager.blocked
  · simp [blocked]
  · cases pinned : (manager.tofuStore.fingerprintFor deviceId).isSome with
    | true => simp [blocked]
    | false => cases values.find? (·.deviceId = deviceId) <;> simp [blocked]

theorem consistent_iff (manager : PairingManager) : manager.Consistent ↔ manager.Separate := by
  constructor
  · intro consistent deviceId blocked
    simpa [PairingManager.isTrusted] using consistent.untrusted deviceId blocked
  · intro separate
    have untrusted : ∀ deviceId ∈ manager.blocked, manager.isTrusted deviceId = false := by
      intro deviceId blocked
      rw [PairingManager.isTrusted, separate deviceId blocked]
      rfl
    refine ⟨fun deviceId values _ => ?_, untrusted, fun deviceId blocked fingerprint => ?_⟩
    · rw [trustStatus_trusted_iff]
      constructor
      · intro trusted
        refine ⟨fun blocked => ?_, trusted⟩
        rw [untrusted deviceId blocked] at trusted
        cases trusted
      · exact And.right
    · rw [Bool.eq_false_iff, ne_eq, PairingManager.verifyFingerprint, TofuStore.isTrusted_iff,
        separate deviceId blocked]
      exact nofun

theorem separate_trust {manager : PairingManager} (separate : manager.Separate)
    (pending : AList fun _ : String => PairingRequest) (peerId fingerprint peerName : String) :
    PairingManager.Separate
        { tofuStore := manager.tofuStore.trust peerId fingerprint peerName, pending,
          blocked := manager.blocked } ↔
      peerId ∉ manager.blocked := by
  constructor
  · intro kept blocked
    have pinned := kept peerId blocked
    rw [TofuStore.fingerprintFor_trust, if_pos rfl] at pinned
    cases pinned
  · intro unblocked deviceId blocked
    have other : deviceId ≠ peerId := fun same => unblocked (same ▸ blocked)
    rw [TofuStore.fingerprintFor_trust, if_neg other]
    exact separate deviceId blocked

theorem separate_confirmPairing (separate : state.manager.Separate) (shown : PairingRequest) :
    (state.manager.confirmPairing state.now shown.requestId).1.Separate ↔
      state.separates (.pairing (.confirmPairing shown)) := by
  simp only [PairingManager.confirmPairing, PairingState.separates]
  cases state.manager.pending.lookup shown.requestId with
  | none =>
    refine ⟨fun _ _ found => ?_, fun _ => separate⟩
    cases found
  | some request =>
    simp only [Option.some.injEq, forall_eq']
    cases request.isExpired state.now with
    | true =>
      refine ⟨fun _ fresh => ?_, fun _ => separate⟩
      cases fresh
    | false => exact (separate_trust separate _ _ _ _).trans (imp_iff_right rfl).symm

theorem separate_acceptRemoteConfirmation (separate : state.manager.Separate)
    (payload : PairingConfirmPayload) :
    (state.manager.acceptRemoteConfirmation payload).Separate ↔
      state.separates (.pairing (.acceptRemoteConfirmation payload)) := by
  simp only [PairingManager.acceptRemoteConfirmation, PairingState.separates]
  cases payload.accepted with
  | false =>
    refine ⟨fun _ accepted => ?_, fun _ => separate⟩
    cases accepted
  | true => exact (separate_trust separate _ _ _ _).trans (imp_iff_right rfl).symm

theorem separate_verify (separate : state.manager.Separate) (peerId peerName : String)
    (endEntity : List UInt8) :
    (state.withStore
      (state.manager.tofuStore.verifyServerCert sha256 peerId peerName
        endEntity).1).manager.Separate ↔
      state.separates (.verify peerId peerName endEntity) := by
  simp only [TofuStore.verifyServerCert, PairingState.separates]
  split
  · next trusted =>
    have pinned := (TofuStore.isTrusted_iff _ _ _).mp trusted
    refine ⟨fun _ unpinned => ?_, fun _ => separate⟩
    cases pinned.symm.trans unpinned
  · cases pinned : state.manager.tofuStore.fingerprintFor peerId with
    | none => exact (separate_trust separate _ _ _ _).trans (imp_iff_right rfl).symm
    | some =>
      refine ⟨fun _ unpinned => ?_, fun _ => separate⟩
      cases unpinned

theorem separate_blockPeer (separate : state.manager.Separate) (deviceId : String) :
    (state.manager.blockPeer deviceId).Separate ↔
      state.separates (.pairing (.blockPeer deviceId)) := by
  constructor
  · exact fun kept => kept deviceId (List.mem_append_right _ List.mem_cons_self)
  · intro unpinned other blocked
    rcases List.mem_append.mp blocked with blocked | same
    · exact separate other blocked
    · exact List.mem_singleton.mp same ▸ unpinned

theorem separate_iff (separate : state.manager.Separate) {op : ManagedOp}
    (taken : state.manage sha256 op = some after) :
    after.manager.Separate ↔ state.separates op := by
  cases op with
  | reload =>
    cases taken
    exact Iff.rfl
  | trust =>
    cases taken
    exact separate_trust separate _ _ _ _
  | verify peerId peerName endEntity =>
    cases taken
    exact separate_verify separate peerId peerName endEntity
  | pairing op =>
    cases op with
    | confirmPairing shown =>
      cases taken
      exact separate_confirmPairing separate shown
    | acceptRemoteConfirmation payload =>
      cases taken
      exact separate_acceptRemoteConfirmation separate payload
    | blockPeer deviceId =>
      cases taken
      exact separate_blockPeer separate deviceId
    | unblockPeer =>
      cases taken
      exact ⟨fun _ => trivial, fun _ other blocked => separate other (List.mem_of_mem_filter blocked)⟩
    | trustStatus =>
      simp only [PairingState.manage, PairingState.step, Option.ite_none_right_eq_some,
        Option.some.injEq] at taken
      rw [← taken.2]
      exact ⟨fun _ => trivial, fun _ => separate⟩
    | requestPairing | incomingRequest | rejectPairing | reapExpired | advance =>
      cases taken
      exact ⟨fun _ => trivial, fun _ => separate⟩

theorem consistent_new (store : TofuStore)
    (now : Nat) : (PairingState.new store now).manager.Consistent :=
  (consistent_iff _).mpr fun _ blocked => (nomatch blocked)

/-- The queries are consistent throughout a run exactly when its steps keep the blocked and the
pinned apart. -/
theorem consistent_throughout_iff (sha256 : List UInt8 → List UInt8) (store : TofuStore) (now : Nat)
    (ops : List ManagedOp) (final : PairingState)
    (run : Execution (PairingState.manage sha256) anything (.new store now) ops final) :
    EveryState (PairingState.manage sha256) (fun state => state.manager.Consistent)
      (.new store now) ops ↔
      Execution (PairingState.manage sha256) PairingState.separates (.new store now) ops final := by
  refine Iff.trans (everyState_iff_everyStep ?_) ?_
  · exact consistent_new store now
  refine run.everyState_iff (fun _ => True) trivial (fun _ _ _ _ _ => trivial)
    (consistent_new store now) ?_
  intro _ _ _ _ consistent taken
  rw [consistent_iff] at consistent ⊢
  exact separate_iff consistent taken

/-- A device that is blocked, and another one that is trusted. -/
theorem consistent_apart :
    EveryState (PairingState.manage certificateSha256)
      (fun state => state.manager.Consistent) (.new ⟨∅⟩ 0)
      [.pairing (.blockPeer "m"), .pairing (.incomingRequest aliceRequest),
        .pairing (.confirmPairing aliceShown)] := by
  refine (consistent_throughout_iff certificateSha256 ⟨∅⟩ 0 _ _
    (.next trivial rfl (.next trivial rfl (.next trivial rfl .done)))).mpr
      (.next rfl rfl (.next trivial rfl (.next ?_ rfl .done)))
  intro _ found _
  cases found
  decide

/-- A trusted device is blocked: its status is blocked, and yet it is trusted and its fingerprint
verified. -/
theorem not_consistent_blocked :
    ∃ state, Execution (PairingState.manage certificateSha256) anything (.new ⟨∅⟩ 0)
        [.pairing (.incomingRequest aliceRequest), .pairing (.confirmPairing aliceShown),
          .pairing (.blockPeer "a")] state ∧
      state.manager.trustStatus state.manager.values "a" = .blocked ∧
      state.manager.isTrusted "a" = true ∧
        state.manager.verifyFingerprint "a" "f" = true ∧ ¬ state.manager.Consistent := by
  refine ⟨_, .next trivial rfl
    (.next trivial rfl (.next trivial rfl .done)), by decide, by decide, by decide, ?_⟩
  intro consistent
  have refused := consistent.untrusted "a" (by decide)
  revert refused
  decide

end DistributedOs.Pairing
