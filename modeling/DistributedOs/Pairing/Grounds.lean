import DistributedOs.Pairing.Manager
import DistributedOs.Semantics.Execution
import Mathlib.Data.List.Perm.Basic

/-! Sequences of operations on a pairing manager, and on what grounds a device becomes trusted
in them. The history records which request was registered under an id and not settled since,
apart from the manager's own table. -/

namespace DistributedOs.Pairing

open Semantics

/-- A user confirms the request that was shown, of which the manager is given the id. The map
of pending requests is iterated in the order of `values`. -/
inductive PairingOp where
  | requestPairing (requestId : String) (createdAt : Nat) (deviceId deviceName ourFingerprint : String)
  | incomingRequest (payload : PairingRequestPayload)
  | confirmPairing (shown : PairingRequest)
  | rejectPairing (requestId : String)
  | acceptRemoteConfirmation (payload : PairingConfirmPayload)
  | trustStatus (deviceId : String) (values : List PairingRequest)
  | blockPeer (deviceId : String)
  | unblockPeer (deviceId : String)
  | reapExpired
  | advance (elapsed : Nat)

inductive PairingEvent where
  | registered (request : PairingRequest)
  | settled (requestId : String)

/-- The manager, the clock and the history, newest first. -/
structure PairingState where
  manager : PairingManager
  now : Nat
  history : List PairingEvent

def PairingManager.values (manager : PairingManager) : List PairingRequest :=
  manager.pending.entries.map Sigma.snd

def PairingState.step (state : PairingState) : PairingOp → Option PairingState
  | .requestPairing requestId createdAt deviceId deviceName ourFingerprint =>
    let manager := (state.manager.requestPairing state.now requestId createdAt deviceId deviceName
      ourFingerprint).1
    some { state with
      manager
      history := .registered
        { requestId, deviceId, deviceName, fingerprint := ourFingerprint, isIncoming := false
          expiresAt := state.now + pairingRequestTtl, createdAt } :: state.history }
  | .incomingRequest payload =>
    let (manager, request) := state.manager.incomingRequest state.now payload
    some { state with manager, history := .registered request :: state.history }
  | .confirmPairing shown =>
    some { state with
      manager := (state.manager.confirmPairing state.now shown.requestId).1
      history := .settled shown.requestId :: state.history }
  | .rejectPairing requestId =>
    some { state with
      manager := (state.manager.rejectPairing requestId).1
      history := .settled requestId :: state.history }
  | .acceptRemoteConfirmation payload =>
    some { state with
      manager := state.manager.acceptRemoteConfirmation payload
      history := .settled payload.requestId :: state.history }
  | .trustStatus _ values => if values.Perm state.manager.values then some state else none
  | .blockPeer deviceId => some { state with manager := state.manager.blockPeer deviceId }
  | .unblockPeer deviceId => some { state with manager := state.manager.unblockPeer deviceId }
  | .reapExpired => some { state with manager := (state.manager.reapExpired state.now).1 }
  | .advance elapsed => some { state with now := state.now + elapsed }

def outstanding (requestId : String) : List PairingEvent → Option PairingRequest
  | [] => none
  | .registered request :: earlier =>
    if request.requestId = requestId then some request else outstanding requestId earlier
  | .settled settled :: earlier => if settled = requestId then none else outstanding requestId earlier

/-- It has not expired either. -/
def PairingState.Awaits (state : PairingState) (requestId : String)
    (request : PairingRequest) : Prop :=
  outstanding requestId state.history = some request ∧ request.isExpired state.now = false

/-- What makes a device trusted: the user confirms an incoming request of the device, or the
device confirms an outgoing request for it. -/
def PairingState.Grounds (state : PairingState) (op : PairingOp)
    (deviceId fingerprint : String) : Prop :=
  match op with
  | .confirmPairing shown =>
    shown.deviceId = deviceId ∧ shown.fingerprint = fingerprint ∧
      ∃ request, state.Awaits shown.requestId request ∧ request.isIncoming = true ∧
        request.deviceId = deviceId ∧ request.fingerprint = fingerprint
  | .acceptRemoteConfirmation payload =>
    payload.accepted = true ∧ payload.deviceId = deviceId ∧ payload.fingerprint = fingerprint ∧
      ∃ request, state.Awaits payload.requestId request ∧ request.isIncoming = false ∧
      request.deviceId = deviceId
  | _ => False

/-- A step trusts on these grounds only, and a request reported pending has not expired. -/
structure Justified (state : PairingState) (op : PairingOp) (after : PairingState) : Prop where
  trusted : ∀ deviceId fingerprint, after.manager.tofuStore.fingerprintFor deviceId = some fingerprint →
    state.manager.tofuStore.fingerprintFor deviceId = some fingerprint ∨
    state.Grounds op deviceId fingerprint
  reported : ∀ deviceId values requestId isIncoming, op = .trustStatus deviceId values →
    state.manager.trustStatus values deviceId = .pending requestId isIncoming →
      ∃ request, state.Awaits requestId request

/-- A confirm finds under the id, unless expired, the incoming request that was shown; an
accepted remote confirmation finds an outgoing request for its device that has not expired;
either may also repeat a pin. The request a status is read off has not expired. -/
def PairingState.proper (state : PairingState) : PairingOp → Prop
  | .confirmPairing shown =>
    ∀ request, state.manager.pending.lookup shown.requestId = some request →
    request.isExpired state.now = false →
      state.manager.tofuStore.fingerprintFor request.deviceId = some request.fingerprint ∨
        (request.isIncoming = true ∧ shown.deviceId = request.deviceId ∧
          shown.fingerprint = request.fingerprint)
  | .acceptRemoteConfirmation payload =>
    payload.accepted = true →
      state.manager.tofuStore.fingerprintFor payload.deviceId = some payload.fingerprint ∨
        ∃ request, state.manager.pending.lookup payload.requestId = some request ∧
          request.isExpired state.now = false ∧ request.isIncoming = false ∧
          request.deviceId = payload.deviceId
  | .trustStatus deviceId values =>
    deviceId ∈ state.manager.blocked ∨ (state.manager.tofuStore.fingerprintFor deviceId).isSome = true ∨
      ∀ request, values.find? (·.deviceId = deviceId) = some request →
      request.isExpired state.now = false
  | _ => True

/-- The table holds each request under its own id, and as far as they have not expired, the
requests that are outstanding. -/
structure Tracked (state : PairingState) : Prop where
  keyed : ∀ requestId request, state.manager.pending.lookup requestId = some request →
    request.requestId = requestId
  awaits : ∀ requestId request, state.Awaits requestId request ↔
    state.manager.pending.lookup requestId = some request ∧ request.isExpired state.now = false

def PairingState.new (store : TofuStore) (now : Nat) : PairingState :=
  { manager := .new store, now, history := [] }

variable {state after : PairingState} {op : PairingOp} {requestId : String}
  {request : PairingRequest}

theorem Tracked.new (store : TofuStore) (now : Nat) : Tracked (.new store now) := by
  constructor
  · intro requestId request found
    cases found
  · intro _ _
    constructor
    · rintro ⟨registered, _⟩
      cases registered
    · rintro ⟨found, _⟩
      cases found

theorem Tracked.registered (tracked : Tracked state) (request : PairingRequest) :
    Tracked { state with
      manager := { state.manager with pending := state.manager.pending.insert request.requestId request }
      history := .registered request :: state.history } := by
  constructor
  · intro requestId other found
    by_cases same : requestId = request.requestId
    · subst same
      simp only [AList.lookup_insert, Option.some.injEq] at found
      rw [← found]
    · simp only [AList.lookup_insert_ne same] at found
      exact tracked.keyed requestId other found
  · intro requestId other
    have before := tracked.awaits requestId other
    unfold PairingState.Awaits at before ⊢
    by_cases same : requestId = request.requestId
    · subst same
      simp [outstanding]
    · simp only [outstanding, if_neg (Ne.symm same), AList.lookup_insert_ne same]
      exact before

theorem Tracked.settled (tracked : Tracked state) (requestId : String) (manager : PairingManager)
    (erased : manager.pending = state.manager.pending.erase requestId) :
    Tracked { state with manager, history := .settled requestId :: state.history } := by
  constructor
  · intro other request found
    rw [erased] at found
    by_cases same : other = requestId
    · rw [same, AList.lookup_erase] at found
      cases found
    · rw [AList.lookup_erase_ne same] at found
      exact tracked.keyed other request found
  · intro other request
    have before := tracked.awaits other request
    unfold PairingState.Awaits at before ⊢
    simp only [erased]
    by_cases same : other = requestId
    · subst same
      simp [outstanding]
    · simp only [outstanding, if_neg (Ne.symm same), AList.lookup_erase_ne same]
      exact before

theorem Tracked.advance (tracked : Tracked state) (elapsed : Nat) :
    Tracked { state with now := state.now + elapsed } := by
  refine ⟨tracked.keyed, fun requestId request => ?_⟩
  have before := tracked.awaits requestId request
  have fresher : request.isExpired (state.now + elapsed) = false →
      request.isExpired state.now = false := by
    simp only [PairingRequest.isExpired, decide_eq_false_iff_not]
    omega
  unfold PairingState.Awaits at before ⊢
  constructor
  · rintro ⟨registered, fresh⟩
    exact ⟨(before.mp ⟨registered, fresher fresh⟩).1, fresh⟩
  · rintro ⟨found, fresh⟩
    exact ⟨(before.mpr ⟨found, fresher fresh⟩).1, fresh⟩

theorem Tracked.reapExpired (tracked : Tracked state) :
    Tracked { state with manager := (state.manager.reapExpired state.now).1 } := by
  have kept (requestId : String) (request : PairingRequest) :
      (state.manager.reapExpired state.now).1.pending.lookup requestId = some request ↔
        state.manager.pending.lookup requestId = some request ∧ request.isExpired state.now = false := by
    unfold PairingManager.reapExpired
    rw [lookup_retain, Option.filter_eq_some_iff, Bool.not_eq_true']
  constructor
  · intro requestId request found
    exact tracked.keyed requestId request ((kept requestId request).mp found).1
  · intro requestId request
    have before := tracked.awaits requestId request
    unfold PairingState.Awaits at before ⊢
    rw [kept, and_assoc, and_self]
    exact before

theorem Tracked.step (tracked : Tracked state) (taken : state.step op = some after) :
    Tracked after := by
  cases op with
  | requestPairing requestId createdAt deviceId deviceName ourFingerprint =>
    cases taken
    exact tracked.registered
      { requestId, deviceId, deviceName, fingerprint := ourFingerprint, isIncoming := false
        expiresAt := state.now + pairingRequestTtl, createdAt }
  | incomingRequest =>
    cases taken
    exact tracked.registered _
  | confirmPairing shown =>
    cases taken
    refine tracked.settled shown.requestId _ ?_
    unfold PairingManager.confirmPairing
    split
    · split <;> rfl
    · rename_i absent
      exact (erase_absent absent).symm
  | rejectPairing requestId =>
    cases taken
    exact tracked.settled requestId _ rfl
  | acceptRemoteConfirmation payload =>
    cases taken
    exact tracked.settled payload.requestId _ rfl
  | trustStatus =>
    simp only [PairingState.step, Option.ite_none_right_eq_some, Option.some.injEq] at taken
    rw [← taken.2]
    exact tracked
  | blockPeer deviceId | unblockPeer deviceId =>
    cases taken
    exact ⟨tracked.keyed, tracked.awaits⟩
  | reapExpired =>
    cases taken
    exact tracked.reapExpired
  | advance elapsed =>
    cases taken
    exact tracked.advance elapsed

theorem Tracked.lookup_of_mem (tracked : Tracked state) (listed : request ∈ state.manager.values) :
    state.manager.pending.lookup request.requestId = some request := by
  obtain ⟨⟨requestId, found⟩, stored, rfl⟩ := List.mem_map.mp listed
  have present := AList.mem_lookup_iff.mpr stored
  have key : found.requestId = requestId := tracked.keyed requestId found present
  rw [key]
  exact present

theorem justified_confirmPairing (tracked : Tracked state) (shown : PairingRequest)
    (taken : state.step (.confirmPairing shown) = some after) :
    Justified state (.confirmPairing shown) after ↔ state.proper (.confirmPairing shown) := by
  cases taken
  constructor
  · intro justified request found fresh
    have pinned := (fingerprintFor_confirmPairing state.manager state.now shown.requestId _ _).mpr
      (.inl ⟨request, found, fresh, rfl, rfl⟩)
    refine (justified.trusted _ _ pinned).imp_right ?_
    rintro ⟨device, fingerprint, other, awaited, incoming, _, _⟩
    cases found.symm.trans ((tracked.awaits _ _).mp awaited).1
    exact ⟨incoming, device, fingerprint⟩
  · intro proper
    refine ⟨fun deviceId fingerprint pinned => ?_, fun _ _ _ _ other => nomatch other⟩
    obtain ⟨request, found, fresh, rfl, rfl⟩ | ⟨before, _⟩ :=
      (fingerprintFor_confirmPairing state.manager state.now shown.requestId _ _).mp pinned
    · refine (proper request found fresh).imp_right fun ⟨incoming, device, fingerprint⟩ => ?_
      exact ⟨device, fingerprint, request, (tracked.awaits _ _).mpr ⟨found, fresh⟩, incoming, rfl, rfl⟩
    · exact .inl before

theorem justified_acceptRemoteConfirmation (tracked : Tracked state)
    (payload : PairingConfirmPayload)
    (taken : state.step (.acceptRemoteConfirmation payload) = some after) :
    Justified state (.acceptRemoteConfirmation payload) after ↔
      state.proper (.acceptRemoteConfirmation payload) := by
  cases taken
  have confirmed := fingerprintFor_acceptRemoteConfirmation state.manager payload
  constructor
  · intro justified accepted
    have pinned := confirmed payload.deviceId
    rw [if_pos ⟨accepted, rfl⟩] at pinned
    refine (justified.trusted _ _ pinned).imp_right ?_
    rintro ⟨_, _, _, request, awaited, outgoing, device⟩
    have ⟨found, fresh⟩ := (tracked.awaits _ _).mp awaited
    exact ⟨request, found, fresh, outgoing, device⟩
  · intro proper
    refine ⟨fun deviceId fingerprint pinned => ?_, fun _ _ _ _ other => nomatch other⟩
    rw [confirmed] at pinned
    split at pinned
    · rename_i named
      obtain ⟨accepted, rfl⟩ := named
      cases pinned
      refine (proper accepted).imp_right fun ⟨request, found, fresh, outgoing, device⟩ => ?_
      exact ⟨accepted, rfl, rfl, request, (tracked.awaits _ _).mpr ⟨found, fresh⟩, outgoing, device⟩
    · exact .inl pinned

theorem justified_trustStatus (tracked : Tracked state) (deviceId : String)
    (values : List PairingRequest)
    (taken : state.step (.trustStatus deviceId values) = some after) :
    Justified state (.trustStatus deviceId values) after ↔
      state.proper (.trustStatus deviceId values) := by
  simp only [PairingState.step, Option.ite_none_right_eq_some, Option.some.injEq] at taken
  obtain ⟨iterated, rfl⟩ := taken
  have stored (request : PairingRequest) (found : values.find? (·.deviceId = deviceId) = some request) :
      state.manager.pending.lookup request.requestId = some request :=
    tracked.lookup_of_mem (iterated.mem_iff.mp (List.mem_of_find?_eq_some found))
  constructor
  · intro justified
    by_cases blocked : deviceId ∈ state.manager.blocked
    · exact .inl blocked
    · cases trusted : (state.manager.tofuStore.fingerprintFor deviceId).isSome with
      | true => exact .inr (.inl trusted)
      | false =>
        refine .inr (.inr fun request found => ?_)
        obtain ⟨_, awaited⟩ := justified.reported deviceId values _ _ rfl
          ((trustStatus_pending_iff ..).mpr ⟨blocked, trusted, request, found, rfl, rfl⟩)
        have ⟨present, fresh⟩ := (tracked.awaits _ _).mp awaited
        cases (stored request found).symm.trans present
        exact fresh
  · intro proper
    refine ⟨fun _ _ pinned => .inl pinned, fun deviceId values requestId isIncoming same reported => ?_⟩
    cases same
    obtain ⟨free, untrusted, request, found, rfl, rfl⟩ := (trustStatus_pending_iff ..).mp reported
    rcases proper with blocked | trusted | fresh
    · exact absurd blocked free
    · rw [untrusted] at trusted
      cases trusted
    · exact ⟨request, (tracked.awaits _ _).mpr ⟨stored request found, fresh request found⟩⟩

theorem justified_iff (tracked : Tracked state) (taken : state.step op = some after) :
    Justified state op after ↔ state.proper op := by
  cases op with
  | confirmPairing shown => exact justified_confirmPairing tracked shown taken
  | acceptRemoteConfirmation payload => exact justified_acceptRemoteConfirmation tracked payload taken
  | trustStatus deviceId values => exact justified_trustStatus tracked deviceId values taken
  | requestPairing | incomingRequest | rejectPairing | blockPeer | unblockPeer | reapExpired | advance =>
    cases taken
    exact ⟨fun _ => trivial, fun _ =>
      ⟨fun _ _ pinned => .inl pinned, fun _ _ _ _ other => nomatch other⟩⟩

/-- A run trusts on good grounds throughout exactly when its steps are proper. -/
theorem grounded_iff (store : TofuStore) (now : Nat) (ops : List PairingOp) (final : PairingState)
    (run : Execution PairingState.step anything (.new store now) ops final) :
    EveryStep PairingState.step Justified (.new store now) ops ↔
      Execution PairingState.step PairingState.proper (.new store now) ops final :=
  run.everyStep_iff Tracked (.new store now) (fun _ _ _ tracked taken => tracked.step taken)
    fun _ _ _ tracked taken => justified_iff tracked taken

def aliceRequest : PairingRequestPayload :=
  { requestId := "r", deviceId := "a", deviceName := "Alice", fingerprint := "f", createdAt := 0 }

def aliceShown : PairingRequest :=
  { requestId := "r", deviceId := "a", deviceName := "Alice", fingerprint := "f", isIncoming := true
    expiresAt := pairingRequestTtl, createdAt := 0 }

theorem confirmed_grounded :
    EveryStep PairingState.step Justified (.new ⟨∅⟩ 0)
      [.incomingRequest aliceRequest, .confirmPairing aliceShown] := by
  refine (grounded_iff ⟨∅⟩ 0 _ _ (.next trivial rfl (.next trivial rfl .done))).mpr
    (.next trivial rfl (.next ?_ rfl .done))
  intro _ found _
  cases found
  exact .inr ⟨rfl, rfl, rfl⟩

/-- A confirmation that nobody asked for is trusted. -/
theorem unsolicited_ungrounded :
    ¬ EveryStep PairingState.step Justified (.new ⟨∅⟩ 0)
      [.acceptRemoteConfirmation
        { requestId := "r", deviceId := "m", deviceName := "Mallory", fingerprint := "e",
          accepted := true }] := by
  intro every
  have justified := every [] _ [] _ _ rfl .done rfl
  rcases justified.trusted "m" "e" rfl with pinned | ⟨_, _, _, _, ⟨registered, _⟩, _⟩
  · cases pinned
  · cases registered

end DistributedOs.Pairing
