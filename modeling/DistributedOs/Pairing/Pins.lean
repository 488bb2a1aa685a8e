import DistributedOs.Pairing.Grounds
import DistributedOs.Semantics.Codec

/-! Who replaces the pin of a device. A TLS verifier holds a trust store of its own, for which
it is given the id and the name of the peer it is to meet. -/

namespace DistributedOs.Pairing

open Semantics

section
variable (sha256 : List UInt8 → List UInt8)

def TofuStore.fingerprint (der : List UInt8) : String :=
  String.ofList ((sha256 der).flatMap lowerHex)

def TofuStore.verifyServerCert (store : TofuStore) (peerId peerName : String)
    (endEntity : List UInt8) :
    TofuStore × Bool :=
  let fp := TofuStore.fingerprint sha256 endEntity
  if store.isTrusted peerId fp then (store, true)
  else if (store.fingerprintFor peerId).isNone then (store.trust peerId fp peerName, true)
  else (store, false)

/-- The pairing manager with its store, the stores of the verifiers, and what the files of the
stores parse to. -/
structure TrustState where
  pairing : PairingState
  verifiers : Nat → TofuStore
  files : String → TofuStore

/-- A verification is made in the store of a verifier, or in the manager's. `saving` is what
becomes of the write when the step trusts a fingerprint. -/
inductive TrustOp where
  | pairing (op : PairingOp) (saving : WriteOutcome)
  | verify (holder : Option Nat) (peerId peerName : String) (endEntity : List UInt8)
    (saving : WriteOutcome)

def TrustOp.saving : TrustOp → WriteOutcome
  | .pairing _ saving => saving
  | .verify _ _ _ _ saving => saving

def TrustState.store (state : TrustState) : Option Nat → TofuStore
  | none => state.pairing.manager.tofuStore
  | some verifier => state.verifiers verifier

def TrustState.withStore (state : TrustState) (store : TofuStore) : Option Nat → TrustState
  | none => { state with pairing.manager.tofuStore := store }
  | some verifier => { state with verifiers := Function.update state.verifiers verifier store }

/-- A call of `TofuStore::trust`. -/
structure Trusting where
  holder : Option Nat
  deviceId : String
  fingerprint : String

/-- The call that a step makes, if it makes one. -/
def TrustState.trusting (state : TrustState) : TrustOp → Option Trusting
  | .pairing (.confirmPairing shown) _ =>
    match state.pairing.manager.pending.lookup shown.requestId with
    | some request =>
      if request.isExpired state.pairing.now then none
      else some { holder := none, deviceId := request.deviceId, fingerprint := request.fingerprint }
    | none => none
  | .pairing (.acceptRemoteConfirmation payload) _ =>
    if payload.accepted then
      some { holder := none, deviceId := payload.deviceId, fingerprint := payload.fingerprint }
    else none
  | .pairing _ _ => none
  | .verify holder peerId _ endEntity _ =>
    if ((state.store holder).fingerprintFor peerId).isNone then
      some { holder, deviceId := peerId, fingerprint := TofuStore.fingerprint sha256 endEntity }
    else none

variable (path : Option Nat → String)

/-- `save`: the whole map of the store is written over the file, which may be left cut off. -/
def TrustState.save (state : TrustState) (holder : Option Nat)
    (saving : WriteOutcome) : TrustState :=
  match saving with
  | .written => { state with files := Function.update state.files (path holder) (state.store holder) }
  | .unopened => state
  | .cut => { state with files := Function.update state.files (path holder) ⟨∅⟩ }

/-- The operation on the stores in memory. -/
def TrustState.turn (state : TrustState) : TrustOp → Option TrustState
  | .pairing op _ => (state.pairing.step op).map fun pairing => { state with pairing }
  | .verify holder peerId peerName endEntity _ =>
    some (state.withStore
      ((state.store holder).verifyServerCert sha256 peerId peerName endEntity).1 holder)

def TrustState.step (state : TrustState) (op : TrustOp) : Option TrustState :=
  (state.turn sha256 op).map fun turned =>
    match state.trusting sha256 op with
    | some trusting => turned.save path trusting.holder op.saving
    | none => turned

end

def TrustOp.confirms (op : TrustOp) (deviceId fingerprint : String) : Prop :=
  ∃ shown saving, op = .pairing (.confirmPairing shown) saving ∧ shown.deviceId = deviceId ∧
    shown.fingerprint = fingerprint

/-- A pin of one map is in the other, or one that the user confirms stands for it. -/
def TrustOp.Keeps (op : TrustOp) (before after : TofuStore) : Prop :=
  ∀ deviceId pinned, before.fingerprintFor deviceId = some pinned →
    after.fingerprintFor deviceId = some pinned ∨
      ∃ fingerprint, after.fingerprintFor deviceId = some fingerprint ∧ op.confirms deviceId fingerprint

/-- A pin stays, in each store and each file, unless the user confirms the new one. -/
structure PinsKept (state : TrustState) (op : TrustOp) (after : TrustState) : Prop where
  stores : ∀ holder, op.Keeps (state.store holder) (after.store holder)
  files : ∀ file, op.Keeps (state.files file) (after.files file)

/-- A store or file has no pin of the device, has this one, or the user is shown this one. -/
def TrustOp.Admits (op : TrustOp) (store : TofuStore) (deviceId fingerprint : String) : Prop :=
  ∀ pinned, store.fingerprintFor deviceId = some pinned → pinned = fingerprint ∨
  op.confirms deviceId fingerprint

/-- Where a fingerprint is trusted, the store admits it, and so does the file, whose other pins
are in the store; a file that is left cut off had no pins. -/
def TrustState.agreeable (sha256 : List UInt8 → List UInt8) (path : Option Nat → String)
    (state : TrustState) (op : TrustOp) : Prop :=
  ∀ trusting, state.trusting sha256 op = some trusting →
    op.Admits (state.store trusting.holder) trusting.deviceId trusting.fingerprint ∧
      match op.saving with
      | .written =>
        op.Admits (state.files (path trusting.holder)) trusting.deviceId trusting.fingerprint ∧
          ∀ deviceId ≠ trusting.deviceId, ∀ pinned,
            (state.files (path trusting.holder)).fingerprintFor deviceId = some pinned →
              (state.store trusting.holder).fingerprintFor deviceId = some pinned ∨
                ∃ fingerprint, (state.store trusting.holder).fingerprintFor deviceId = some fingerprint ∧
                  op.confirms deviceId fingerprint
      | .unopened => True
      | .cut => ∀ deviceId, (state.files (path trusting.holder)).fingerprintFor deviceId = none

variable {sha256 : List UInt8 → List UInt8} {path : Option Nat → String}
  {state turned after : TrustState} {op : TrustOp} {trusting : Trusting} {store : TofuStore}
  {holder other : Option Nat}

theorem store_withStore (state : TrustState) (store : TofuStore) (holder other : Option Nat) :
    (state.withStore store holder).store other = if other = holder then store
      else state.store other := by
  cases holder with
  | none => cases other <;> rfl
  | some =>
    cases other with
    | none => rfl
    | some => simp [TrustState.withStore, TrustState.store, Function.update_apply]

@[simp] theorem store_save (state : TrustState) (holder other : Option Nat)
    (saving : WriteOutcome) :
    (state.save path holder saving).store other = state.store other := by
  cases saving <;> cases other <;> rfl

theorem TrustOp.Keeps.refl (op : TrustOp) (store : TofuStore) : op.Keeps store store :=
  fun _ _ before => .inl before

/-- The map in which one more fingerprint is trusted keeps the pins of another map exactly when
that one admits it and its other pins are there. -/
theorem keeps_iff {before now : TofuStore}
    (trusted : ∀ other, store.fingerprintFor other = if other = deviceId then some fingerprint
      else now.fingerprintFor other) :
    op.Keeps before store ↔ op.Admits before deviceId fingerprint ∧
      ∀ other ≠ deviceId, ∀ pinned, before.fingerprintFor other = some pinned →
        now.fingerprintFor other = some pinned ∨
          ∃ given, now.fingerprintFor other = some given ∧ op.confirms other given := by
  constructor
  · intro keeps
    constructor
    · intro pinned found
      have kept := keeps deviceId pinned found
      rw [trusted, if_pos rfl] at kept
      rcases kept with same | ⟨_, same, confirms⟩
      · exact .inl (Option.some.inj same).symm
      · cases same
        exact .inr confirms
    · intro other different pinned found
      have kept := keeps other pinned found
      rwa [trusted, if_neg different] at kept
  · intro ⟨admits, others⟩ other pinned found
    rw [trusted]
    by_cases same : other = deviceId
    · subst same
      rw [if_pos rfl]
      rcases admits pinned found with rfl | confirms
      · exact .inl rfl
      · exact .inr ⟨fingerprint, rfl, confirms⟩
    · rw [if_neg same]
      exact others other same pinned found

theorem trusting_confirmPairing
    (found : state.pairing.manager.pending.lookup shown.requestId = some request)
    (fresh : request.isExpired state.pairing.now = false) :
    state.trusting sha256 (.pairing (.confirmPairing shown) saving) =
      some { holder := none, deviceId := request.deviceId, fingerprint := request.fingerprint } := by
  simp [TrustState.trusting, found, fresh]

theorem fingerprintFor_verifyServerCert (store : TofuStore) (peerId peerName : String)
    (endEntity : List UInt8)
    (other : String) :
    (store.verifyServerCert sha256 peerId peerName endEntity).1.fingerprintFor other =
      if (store.fingerprintFor peerId).isNone = true ∧
      other = peerId then some (TofuStore.fingerprint sha256 endEntity)
      else store.fingerprintFor other := by
  unfold TofuStore.verifyServerCert
  by_cases trusted : store.isTrusted peerId (TofuStore.fingerprint sha256 endEntity) = true
  · have pinned : (store.fingerprintFor peerId).isNone = false := by
      unfold TofuStore.isTrusted at trusted
      split at trusted
      · rename_i found
        simp [TofuStore.fingerprintFor, found]
      · cases trusted
    simp [trusted, pinned]
  · by_cases first : (store.fingerprintFor peerId).isNone = true
    · simp [trusted, first]
    · simp [trusted, first]

/-- What a turn does to the stores: the map of one may get one fingerprint more. -/
theorem store_of_turn (taken : state.turn sha256 op = some turned) (other : Option Nat)
    (deviceId : String) :
    (turned.store other).fingerprintFor deviceId =
      match state.trusting sha256 op with
      | some trusting =>
        if other = trusting.holder ∧ deviceId = trusting.deviceId then some trusting.fingerprint
        else (state.store other).fingerprintFor deviceId
      | none => (state.store other).fingerprintFor deviceId := by
  cases op with
  | verify holder peerId =>
    cases taken
    rw [store_withStore]
    by_cases same : other = holder
    · subst same
      rw [if_pos rfl, fingerprintFor_verifyServerCert]
      by_cases first : ((state.store other).fingerprintFor peerId).isNone = true
      · simp [TrustState.trusting, first]
      · simp [TrustState.trusting, first]
    · rw [if_neg same]
      by_cases first : ((state.store holder).fingerprintFor peerId).isNone = true
      · simp [TrustState.trusting, first, same]
      · simp [TrustState.trusting, first]
  | pairing op =>
    obtain ⟨_, ran, rfl⟩ := Option.map_eq_some_iff.mp taken
    cases op with
    | confirmPairing shown =>
      cases ran
      cases found : state.pairing.manager.pending.lookup shown.requestId with
      | none =>
        cases other <;> simp [TrustState.trusting, TrustState.store,
          PairingManager.confirmPairing, found]
      | some request =>
        cases expired : request.isExpired state.pairing.now with
        | true =>
          cases other <;> simp [TrustState.trusting, TrustState.store,
            PairingManager.confirmPairing, found, expired]
        | false =>
          cases other <;> simp [TrustState.trusting, TrustState.store,
            PairingManager.confirmPairing, found, expired]
    | acceptRemoteConfirmation payload =>
      cases ran
      cases accepted : payload.accepted with
      | false =>
        cases other <;> simp [TrustState.trusting, TrustState.store,
          PairingManager.acceptRemoteConfirmation, accepted]
      | true =>
        cases other <;> simp [TrustState.trusting, TrustState.store,
          PairingManager.acceptRemoteConfirmation, accepted]
    | trustStatus =>
      simp only [PairingState.step, Option.ite_none_right_eq_some, Option.some.injEq] at ran
      rw [← ran.2]
      cases other <;> rfl
    | requestPairing | incomingRequest | rejectPairing | blockPeer | unblockPeer
      | reapExpired | advance =>
      cases ran
      cases other <;> rfl

theorem files_of_turn (taken : state.turn sha256 op = some turned) :
    turned.files = state.files := by
  cases op with
  | pairing =>
    obtain ⟨_, _, rfl⟩ := Option.map_eq_some_iff.mp taken
    rfl
  | verify holder =>
    cases taken
    cases holder <;> rfl

theorem keeps_update (same : replaced = files) {file : String} :
    (∀ other, op.Keeps (files other) (Function.update replaced file store other)) ↔
      op.Keeps (files file) store := by
  subst same
  constructor
  · intro keeps
    have here := keeps file
    rwa [Function.update_self] at here
  · intro keeps other
    by_cases here : other = file
    · rw [here, Function.update_self]
      exact keeps
    · rw [Function.update_of_ne here]
      exact .refl op _

/-- A step keeps the pins exactly when it is agreeable. -/
theorem pinsKept_iff (taken : state.step sha256 path op = some after) :
    PinsKept state op after ↔ state.agreeable sha256 path op := by
  obtain ⟨turned, ran, rfl⟩ := Option.map_eq_some_iff.mp taken
  have stores := store_of_turn ran
  have files := files_of_turn ran
  cases calls : state.trusting sha256 op with
  | none =>
    simp only [calls] at stores
    refine iff_of_true ⟨?_, ?_⟩ (fun trusting same => absurd (calls.symm.trans same) (by simp))
    · intro holder deviceId pinned before
      exact .inl ((stores holder deviceId).trans before)
    · intro file
      simp only [files]
      exact .refl op _
  | some trusting =>
    simp only [calls] at stores ⊢
    have own : ∀ deviceId, (turned.store trusting.holder).fingerprintFor deviceId =
        if deviceId = trusting.deviceId then some trusting.fingerprint
        else (state.store trusting.holder).fingerprintFor deviceId := by
      intro deviceId
      rw [stores]
      simp
    have inStore : op.Keeps (state.store trusting.holder) (turned.store trusting.holder) ↔
        op.Admits (state.store trusting.holder) trusting.deviceId trusting.fingerprint :=
      (keeps_iff own).trans (and_iff_left fun other _ pinned found => .inl found)
    have others : (∀ holder, op.Keeps (state.store holder)
        ((turned.save path trusting.holder op.saving).store holder)) ↔
        op.Admits (state.store trusting.holder) trusting.deviceId trusting.fingerprint := by
      simp only [store_save]
      refine ⟨fun keeps => inStore.mp (keeps trusting.holder), fun admits holder => ?_⟩
      by_cases same : holder = trusting.holder
      · rw [same]
        exact inStore.mpr admits
      · intro deviceId pinned before
        left
        rw [stores, if_neg fun both => same both.1, before]
    have onDisk : (∀ file,
      op.Keeps (state.files file) ((turned.save path trusting.holder op.saving).files file)) ↔
        match op.saving with
        | .written =>
          op.Admits (state.files (path trusting.holder)) trusting.deviceId trusting.fingerprint ∧
            ∀ deviceId ≠ trusting.deviceId, ∀ pinned,
              (state.files (path trusting.holder)).fingerprintFor deviceId = some pinned →
                (state.store trusting.holder).fingerprintFor deviceId = some pinned ∨
                  ∃ fingerprint, (state.store trusting.holder).fingerprintFor deviceId =
                  some fingerprint ∧
                    op.confirms deviceId fingerprint
        | .unopened => True
        | .cut => ∀ deviceId, (state.files (path trusting.holder)).fingerprintFor deviceId = none := by
      cases op.saving with
      | written => exact (keeps_update files).trans (keeps_iff own)
      | unopened =>
        refine iff_of_true (fun file => ?_) trivial
        simp only [TrustState.save, files]
        exact .refl op _
      | cut =>
        refine (keeps_update files).trans ?_
        constructor
        · intro keeps deviceId
          refine Option.eq_none_iff_forall_ne_some.mpr fun pinned before => ?_
          rcases keeps deviceId pinned before with same | ⟨_, same, _⟩ <;> cases same
        · intro none deviceId _ before
          rw [none deviceId] at before
          cases before
    constructor
    · intro kept _ same
      cases calls.symm.trans same
      exact ⟨others.mp kept.stores, onDisk.mp kept.files⟩
    · intro agreeable
      obtain ⟨inMemory, saved⟩ := agreeable trusting calls
      exact ⟨others.mpr inMemory, onDisk.mpr saved⟩

/-- A run keeps the pins throughout exactly when its steps are agreeable. -/
theorem pins_kept_iff (sha256 : List UInt8 → List UInt8) (path : Option Nat → String)
    (start final : TrustState) (ops : List TrustOp)
    (run : Execution (TrustState.step sha256 path) anything start ops final) :
    EveryStep (TrustState.step sha256 path) PinsKept start ops ↔
      Execution (TrustState.step sha256 path) (TrustState.agreeable sha256 path) start ops final :=
  run.everyStep_iff (fun _ => True) trivial (fun _ _ _ _ _ => trivial) fun _ _ _ _ taken =>
  pinsKept_iff taken

/-- The certificate of the runs below, and SHA-256 as far as they use it. -/
def certificate : List UInt8 := [0x61, 0x62, 0x63]

def certificateSha256 (_ : List UInt8) : List UInt8 :=
  [0xba, 0x78, 0x16, 0xbf, 0x8f, 0x01, 0xcf, 0xea, 0x41, 0x41, 0x40, 0xde, 0x5d, 0xae, 0x22, 0x23,
    0xb0, 0x03, 0x61, 0xa3, 0x96, 0x17, 0x7a, 0x9c, 0xb4, 0x10, 0xff, 0x61, 0xf2, 0x00, 0x15, 0xad]

def nobodyTrusted : TrustState :=
  { pairing := .new ⟨∅⟩ 0, verifiers := fun _ => ⟨∅⟩, files := fun _ => ⟨∅⟩ }

/-- The manager and the first verifier have one file, the other verifiers another. -/
def samplePath (holder : Option Nat) : String :=
  if holder = none ∨ holder = some 0 then "tofu.json" else "other.json"

/-- A pairing that the user confirms, a remote confirmation that agrees with it, a verification
of the paired device, which saves nothing, and first use in the store of another verifier. -/
def confirmedRun : List TrustOp :=
  [.pairing (.incomingRequest aliceRequest) .written, .pairing (.confirmPairing aliceShown) .written,
    .pairing (.acceptRemoteConfirmation
      { requestId := "s", deviceId := "a", deviceName := "Alice", fingerprint := "f",
        accepted := true }) .written,
    .verify none "a" "Alice" certificate .cut, .verify (some 1) "b" "Bob" certificate .written]

theorem confirmed_kept :
    EveryStep (TrustState.step certificateSha256 samplePath) PinsKept nobodyTrusted
      confirmedRun := by
  refine (pins_kept_iff certificateSha256 samplePath nobodyTrusted _ confirmedRun
    (.next trivial rfl (.next trivial rfl
      (.next trivial rfl (.next trivial rfl (.next trivial rfl .done)))))).mpr
      (.next ?_ rfl (.next ?_ rfl (.next ?_ rfl (.next ?_ rfl (.next ?_ rfl .done)))))
  · intro trusting same
    cases same
  · intro trusting same
    rw [trusting_confirmPairing (show _ = some aliceShown from rfl) (by decide)] at same
    cases same
    refine ⟨fun pinned found => ?_, fun pinned found => ?_, fun deviceId _ pinned found => ?_⟩ <;>
      cases found
  · intro trusting same
    cases same
    refine ⟨fun pinned found => ?_, fun pinned found => ?_, fun deviceId _ pinned found => .inl found⟩
    · cases found
      exact .inl rfl
    · cases found
      exact .inl rfl
  · intro trusting same
    cases same
  · intro _ same
    cases same
    refine ⟨fun pinned found => ?_, fun pinned found => ?_, fun deviceId _ pinned found => ?_⟩ <;>
      cases found

/-- A remote confirmation replaces the pin of a paired device; and a first use in the store of a
verifier that was loaded before writes the paired device out of the file. -/
theorem confirmation_repins :
    ¬ EveryStep (TrustState.step certificateSha256 samplePath) PinsKept nobodyTrusted
        [.pairing (.incomingRequest aliceRequest) .written,
          .pairing (.confirmPairing aliceShown) .written,
          .pairing (.acceptRemoteConfirmation
            { requestId := "s", deviceId := "a", deviceName := "Alice", fingerprint := "e",
              accepted := true }) .written] ∧
      ¬ EveryStep (TrustState.step certificateSha256 samplePath) PinsKept nobodyTrusted
        [.pairing (.incomingRequest aliceRequest) .written,
          .pairing (.confirmPairing aliceShown) .written,
          .verify (some 0) "b" "Bob" certificate .written] := by
  constructor
  · intro every
    have kept := every [_, _] _ [] _ _ rfl (.next trivial rfl (.next trivial rfl .done)) rfl
    rcases kept.stores none "a" "f" rfl with same | ⟨_, _, _, _, other, _⟩
    · exact absurd same (by decide)
    · cases other
  · intro every
    have kept := every [_, _] _ [] _ _ rfl (.next trivial rfl (.next trivial rfl .done)) rfl
    rcases kept.files "tofu.json" "a" "f" rfl with same | ⟨_, _, _, _, other, _⟩
    · exact absurd same (by decide)
    · cases other

end DistributedOs.Pairing
