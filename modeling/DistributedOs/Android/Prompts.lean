import DistributedOs.Android.Offers

/-! The prompts of the device: the notifications on display, the pending intents behind their
buttons, and the taps on their way to the service. What is kept for an offer, and the codes of its
intents, go by the clock value that the offer arrived at, cut to 32 bits. -/

namespace DistributedOs.Android.Prompts

open Semantics Offers

inductive Action where
  | accept
  | decline
  deriving DecidableEq

/-- An offer as it arrived, with the settings it was met with. -/
structure Arrival where
  offer : Offer
  currentTimeMillis : Int64
  autoAccept : Bool
  trustedPeers : List String

/-- A value of `pendingDownloads`, with the number of the offer. -/
structure Waiting where
  number : Nat
  data : Pending

/-- A tap on the notification of an offer, with the extra of the intent that it sent. -/
structure Tap where
  number : Nat
  action : Action
  notifId : Int32

structure Start where
  number : Nat
  offer : Offer
  download : Download

/-- Offers are numbered as they arrive. The intents go by request code and action; `handled` holds
the taps in the order in which the service has seen them. -/
structure Node where
  pendingDownloads : Int32 → Option Waiting
  trustedPeers : List String
  autoAccept : Bool
  encryptionEnabled : Bool
  shown : Int32 → Option Nat
  intents : Int32 → Action → Option Int32
  sent : List Tap
  arrivals : List Arrival
  handled : List Tap
  started : List Start

inductive Event where
  | signal (currentTimeMillis : Int64) (offer : Offer) (pairingCode : String)
  | tap (notifId : Int32) (action : Action)
  | deliver
  /-- The notification is dismissed, or another one takes its id. -/
  | hide (notifId : Int32)
  | setAutoAccept (value : Bool)
  | setEncryptionEnabled (value : Bool)
  /-- The code of the peer is scanned, or the peer is chosen in the list of devices. -/
  | addTrustedPeer (host : String)
  | removeTrustedPeer (host : String)

/-- `System.currentTimeMillis().toInt()`. -/
def toNotifId (currentTimeMillis : Int64) : Int32 := currentTimeMillis.toInt32

def requestCode (notifId : Int32) : Action → Int32
  | .accept => notifId * 2
  | .decline => notifId * 2 + 1

namespace Node

def startDownload (node : Node) (number : Nat) (offer : Offer) (senderHost : String) : Node :=
  { node with
    started := node.started ++ [
      { number, offer
        download :=
          { url := offer.url, filename := offer.filename, totalBytes := offer.size, peerIp := senderHost
            useEncryption := node.encryptionEnabled } }] }

def setPending (node : Node) (notifId : Int32) (pending : Option Waiting) : Node :=
  { node with pendingDownloads := Function.update node.pendingDownloads notifId pending }

/-- `PendingIntent.getService` with `FLAG_UPDATE_CURRENT`: an intent of the same code and action has
its extra replaced. -/
def getService (node : Node) (notifId : Int32) (action : Action) : Node :=
  let code := requestCode notifId action
  { node with
    intents := fun other kind => if other = code ∧ kind = action then some notifId
      else node.intents other kind }

def notify (node : Node) (notifId : Int32) (number : Nat) : Node :=
  { node with shown := Function.update node.shown notifId (some number) }

def cancelNotification (node : Node) (notifId : Int32) : Node :=
  { node with shown := Function.update node.shown notifId none }

def arrive (node : Node) (currentTimeMillis : Int64) (offer : Offer) : Node :=
  { node with
    arrivals := node.arrivals ++
      [{ offer, currentTimeMillis, autoAccept := node.autoAccept, trustedPeers := node.trustedPeers }] }

/-- The user is asked about the offer. -/
def prompt (node : Node) (currentTimeMillis : Int64) (offer : Offer)
    (pairingCode : String) : Node :=
  let notifId := toNotifId currentTimeMillis
  let number := node.arrivals.length
  let node := (node.arrive currentTimeMillis offer).setPending notifId
      (some { number, data := { offer, pairingCode } })
  ((node.getService notifId .accept).getService notifId .decline).notify notifId number

/-- Every command shows the notification of the service itself, which has the id 1. -/
def receive (node : Node) (tap : Tap) : Node :=
  { node.cancelNotification 1 with handled := node.handled ++ [tap] }

end Node

section
variable (uriHost : UriHost)

def autoAccepts (autoAccept : Bool) (trustedPeers : List String) (offer : Offer) : Option String :=
  (uriHost offer.url).join.filter fun senderHost => autoAccept && decide (senderHost ∈ trustedPeers)

def showAcceptDeclineNotification (node : Node) (currentTimeMillis : Int64) (offer : Offer)
    (pairingCode : String) : Node :=
  match autoAccepts uriHost node.autoAccept node.trustedPeers offer with
  | some senderHost =>
    (node.arrive currentTimeMillis offer).startDownload node.arrivals.length offer senderHost
  | none => node.prompt currentTimeMillis offer pairingCode

/-- `ACTION_ACCEPT_DOWNLOAD`. An address without a host brings the process down, and with it all
that was pending. -/
def onAccept (node : Node) (notifId : Int32) : Node :=
  match node.pendingDownloads notifId with
  | none => node
  | some { number, data } =>
    let node := (node.setPending notifId none).cancelNotification notifId
    match uriHost data.offer.url with
    | some none => { node with pendingDownloads := fun _ => none }
    | none => node.startDownload number data.offer ""
    | some (some senderHost) =>
      let node := if senderHost = "" then node
          else { node with trustedPeers := senderHost :: node.trustedPeers }
      node.startDownload number data.offer senderHost

/-- `ACTION_DECLINE_DOWNLOAD`. -/
def onDecline (node : Node) (notifId : Int32) : Node :=
  (node.setPending notifId none).cancelNotification notifId

def onStartCommand (node : Node) (tap : Tap) : Node :=
  match tap.action with
  | .accept => onAccept uriHost (node.receive tap) tap.notifId
  | .decline => onDecline (node.receive tap) tap.notifId

def step (node : Node) : Event → Option Node
  | .signal currentTimeMillis offer pairingCode =>
    some (showAcceptDeclineNotification uriHost node currentTimeMillis offer pairingCode)
  | .tap notifId action => do
    let number ← node.shown notifId
    let extra ← node.intents (requestCode notifId action) action
    some { node with sent := node.sent ++ [{ number, action, notifId := extra }] }
  | .deliver =>
    match node.sent with
    | [] => none
    | tap :: later => some (onStartCommand uriHost { node with sent := later } tap)
  | .hide notifId => some (node.cancelNotification notifId)
  | .setAutoAccept value => some { node with autoAccept := value }
  | .setEncryptionEnabled value => some { node with encryptionEnabled := value }
  | .addTrustedPeer host => some { node with trustedPeers := host :: node.trustedPeers }
  | .removeTrustedPeer host => some { node with trustedPeers := node.trustedPeers.filter (· ≠ host) }

end

/-- Whatever the settings are, nothing has arrived yet. -/
def fresh (trustedPeers : List String) (autoAccept encryptionEnabled : Bool) : Node :=
  { pendingDownloads := fun _ => none, trustedPeers, autoAccept, encryptionEnabled,
    shown := fun _ => none
    intents := fun _ _ => none, sent := [], arrivals := [], handled := [], started := [] }

/-- The first tap on the notification of an offer decides about it. -/
def Node.decision (node : Node) (number : Nat) : Option Action :=
  (node.handled.find? (·.number = number)).map Tap.action

/-- What the user has a right to. -/
structure Consent (uriHost : UriHost) (node : Node) : Prop where
  once : (node.started.map Start.number).Nodup
  asked : ∀ start ∈ node.started, ∃ arrival, node.arrivals[start.number]? = some arrival ∧
    Meant arrival.offer start.download ∧
    ((autoAccepts uriHost arrival.autoAccept arrival.trustedPeers arrival.offer).isSome = true ∨
      node.decision start.number = some .accept)
  accepted : ∀ number, node.decision number = some .accept → number ∈ node.started.map Start.number
  declined : ∀ number, node.decision number = some .decline → number ∉ node.started.map Start.number

/-- A prompt is made under an id that no tap on its way carries, and whose codes no other
notification on display has; an offer that is accepted has an address with a host, or a malformed
one. -/
def Separate (uriHost : UriHost) (node : Node) : Event → Prop
  | .signal currentTimeMillis offer _ =>
    autoAccepts uriHost node.autoAccept node.trustedPeers offer = none →
      (∀ tap ∈ node.sent, tap.notifId ≠ toNotifId currentTimeMillis) ∧
        ∀ notifId, (node.shown notifId).isSome = true → notifId ≠ toNotifId currentTimeMillis →
          notifId * 2 ≠ toNotifId currentTimeMillis * 2
  | .deliver =>
    ∀ tap waiting, node.sent.head? = some tap → tap.action = .accept →
    node.pendingDownloads tap.notifId = some waiting →
      uriHost waiting.data.offer.url ≠ some none
  | _ => True

section
variable {uriHost : UriHost} {node after : Node} {tap : Tap} {number : Nat} {event : Event}
  {action : Action}

theorem decision_append (extended : after.handled = node.handled ++ [tap]) (number : Nat) :
    after.decision number = (node.decision number).or (if tap.number = number then some tap.action
      else none) := by
  rw [Node.decision, Node.decision, extended, List.find?_append, Option.map_or]
  congr 1
  by_cases own : tap.number = number <;> simp [own]

/-- What a command leaves: the offer is no longer pending nor on display, and its download is
started if the tap has accepted it. -/
structure Handles (node : Node) (tap : Tap) (after : Node) : Prop where
  arrivals : after.arrivals = node.arrivals
  sent : after.sent = node.sent
  intents : after.intents = node.intents
  handled : after.handled = node.handled ++ [tap]
  pending : after.pendingDownloads = Function.update node.pendingDownloads tap.notifId none
  shown : ∀ notifId number, after.shown notifId = some number →
    node.shown notifId = some number ∧ (notifId ≠ tap.notifId ∨ node.pendingDownloads tap.notifId = none)
  accepts : tap.action = .accept → ∀ waiting, node.pendingDownloads tap.notifId = some waiting →
    ∃ start, after.started = node.started ++ [start] ∧ start.number = waiting.number ∧
    Meant waiting.data.offer start.download
  starts : tap.action = .decline ∨ node.pendingDownloads tap.notifId = none →
    after.started = node.started

theorem shown_cancelNotification {shown : Int32 → Option Nat}
    (displayed : Function.update shown cancelled none notifId = some number) :
    shown notifId = some number ∧ notifId ≠ cancelled := by
  by_cases same : notifId = cancelled
  · rw [same, Function.update_self] at displayed
    cases displayed
  · rw [Function.update_of_ne same] at displayed
    exact ⟨displayed, same⟩

theorem onAccept_none (pending : node.pendingDownloads notifId = none) :
    onAccept uriHost node notifId = node := by
  rw [onAccept, pending]

theorem onAccept_some (pending : node.pendingDownloads notifId = some waiting)
    (hosted : uriHost waiting.data.offer.url ≠ some none) :
    ∃ senderHost trustedPeers, onAccept uriHost node notifId =
      { (node.setPending notifId none).cancelNotification notifId with trustedPeers }.startDownload
      waiting.number waiting.data.offer
        senderHost := by
  simp only [onAccept, pending]
  cases host : uriHost waiting.data.offer.url with
  | none => exact ⟨_, _, rfl⟩
  | some senderHost =>
    cases senderHost with
    | none => exact (hosted host).elim
    | some senderHost =>
      refine ⟨senderHost, if senderHost = "" then node.trustedPeers
        else senderHost :: node.trustedPeers, ?_⟩
      simp only
      split <;> rfl

theorem handles_onStartCommand
    (hosted : tap.action = .accept → ∀ waiting, node.pendingDownloads tap.notifId = some waiting →
      uriHost waiting.data.offer.url ≠ some none) : Handles node tap
        (onStartCommand uriHost node tap) := by
  unfold onStartCommand
  cases action : tap.action with
  | accept =>
    simp only
    cases pending : node.pendingDownloads tap.notifId with
    | none =>
      have kept : (node.receive tap).pendingDownloads tap.notifId = none := pending
      rw [onAccept_none kept]
      exact {
        arrivals := rfl
        sent := rfl
        intents := rfl
        handled := rfl
        pending := (Function.update_eq_self_iff.mpr pending.symm).symm
        shown := fun notifId number displayed => ⟨(shown_cancelNotification displayed).1, .inr pending⟩
        accepts := by
          rw [pending]
          exact nofun
        starts := fun _ => rfl }
    | some waiting =>
      have found := hosted action waiting pending
      have kept : (node.receive tap).pendingDownloads tap.notifId = some waiting := pending
      obtain ⟨_, _, handled⟩ := onAccept_some kept found
      rw [handled]
      exact {
        arrivals := rfl
        sent := rfl
        intents := rfl
        handled := rfl
        pending := rfl
        shown := by
          intro notifId number displayed
          obtain ⟨inner, apart⟩ := shown_cancelNotification displayed
          exact ⟨(shown_cancelNotification inner).1, .inl apart⟩
        accepts := by
          intro _ _ held
          cases pending.symm.trans held
          exact ⟨_, rfl, rfl, rfl, rfl, rfl⟩
        starts := by
          rw [action, pending]
          rintro (decline | none)
          · cases decline
          · cases none }
  | decline =>
    exact {
      arrivals := rfl
      sent := rfl
      intents := rfl
      handled := rfl
      pending := rfl
      shown := by
        intro _ _ displayed
        obtain ⟨inner, apart⟩ := shown_cancelNotification displayed
        exact ⟨(shown_cancelNotification inner).1, .inl apart⟩
      accepts := by
        rw [action]
        exact nofun
      starts := fun _ => rfl }

/-- What holds as long as the prompts are kept apart. -/
structure Tracked (uriHost : UriHost) (node : Node) : Prop where
  consent : Consent uriHost node
  unknown : ∀ number, node.arrivals.length ≤ number → node.decision number = none ∧
    number ∉ node.started.map Start.number
  waiting : ∀ notifId waiting, node.pendingDownloads notifId = some waiting →
    node.decision waiting.number = none ∧ waiting.number ∉ node.started.map Start.number ∧
      ∃ arrival, node.arrivals[waiting.number]? = some arrival ∧ arrival.offer = waiting.data.offer ∧
        toNotifId arrival.currentTimeMillis = notifId
  displayed : ∀ notifId number, node.shown notifId = some number →
    (∃ data, node.pendingDownloads notifId = some { number, data }) ∧
      ∀ action, node.intents (requestCode notifId action) action = some notifId
  travelling : ∀ tap ∈ node.sent,
    (∃ data, node.pendingDownloads tap.notifId = some { number := tap.number, data }) ∨
    (node.pendingDownloads tap.notifId = none ∧ node.decision tap.number ≠ none)

theorem tracked_fresh (trustedPeers : List String) (autoAccept encryptionEnabled : Bool) :
    Tracked uriHost (fresh trustedPeers autoAccept encryptionEnabled) where
  consent := ⟨List.nodup_nil, nofun, nofun, nofun⟩
  unknown := fun _ _ => ⟨rfl, List.not_mem_nil⟩
  waiting := nofun
  displayed := nofun
  travelling := nofun

theorem getElem?_arrive (found : node.arrivals[number]? = some arrival) (currentTimeMillis : Int64)
    (offer : Offer) : (node.arrive currentTimeMillis offer).arrivals[number]? = some arrival :=
  List.getElem?_append_left (List.getElem?_eq_some_iff.mp found).1 |>.trans found

theorem tracked_autoAccept (tracked : Tracked uriHost node)
    (trusted : autoAccepts uriHost node.autoAccept node.trustedPeers offer = some senderHost) :
    Tracked uriHost
      ((node.arrive currentTimeMillis offer).startDownload node.arrivals.length offer
        senderHost) := by
  obtain ⟨undecided, unstarted⟩ := tracked.unknown node.arrivals.length (Nat.le_refl _)
  have numbers : ((node.arrive currentTimeMillis offer).startDownload node.arrivals.length offer
    senderHost).started.map Start.number =
      node.started.map Start.number ++ [node.arrivals.length] := List.map_append
  have other {number : Nat} (old : number ∉ node.started.map Start.number)
    (different : number ≠ node.arrivals.length) :
      number ∉ node.started.map Start.number ++ [node.arrivals.length] := by
    simp only [List.mem_append, List.mem_singleton, not_or]
    exact ⟨old, different⟩
  refine ⟨⟨?_, ?_, ?_, ?_⟩, ?_, ?_, tracked.displayed, tracked.travelling⟩
  · rw [numbers]
    refine List.nodup_append.mpr ⟨tracked.consent.once, List.pairwise_singleton _ _, ?_⟩
    rintro number member other new rfl
    cases List.mem_singleton.mp new
    exact unstarted member
  · intro start member
    rcases List.mem_append.mp member with before | new
    · obtain ⟨arrival, found, meant, asked⟩ := tracked.consent.asked start before
      exact ⟨arrival, getElem?_arrive found currentTimeMillis offer, meant, asked⟩
    · cases List.mem_singleton.mp new
      exact ⟨_, List.getElem?_concat_length, ⟨rfl, rfl, rfl⟩, .inl (Option.isSome_of_eq_some trusted)⟩
  · intro number accepted
    rw [numbers]
    exact List.mem_append_left _ (tracked.consent.accepted number accepted)
  · intro number declined
    rw [numbers]
    refine other (tracked.consent.declined number declined) ?_
    rintro rfl
    cases undecided.symm.trans declined
  · intro number late
    have later : node.arrivals.length < number := by
      simpa [Node.arrive, Node.startDownload, Nat.succ_le_iff] using late
    obtain ⟨none, old⟩ := tracked.unknown number later.le
    rw [numbers]
    exact ⟨none, other old (Nat.ne_of_gt later)⟩
  · intro notifId waiting pending
    obtain ⟨none, old, arrival, found, same, keyed⟩ := tracked.waiting notifId waiting pending
    rw [numbers]
    exact ⟨none, other old (Nat.ne_of_lt (List.getElem?_eq_some_iff.mp found).1), arrival,
      getElem?_arrive found currentTimeMillis offer, same, keyed⟩

theorem intents_prompt (currentTimeMillis : Int64) (offer : Offer) (pairingCode : String)
    (code : Int32) (action : Action) :
    (node.prompt currentTimeMillis offer pairingCode).intents code action =
      if code = requestCode (toNotifId currentTimeMillis) action then
        some (toNotifId currentTimeMillis) else node.intents code action := by
  cases action <;> simp [Node.prompt, Node.notify, Node.getService, Node.setPending, Node.arrive]

theorem requestCode_inj (same : requestCode first action = requestCode second action) :
    first * 2 = second * 2 := by
  cases action with
  | accept => exact same
  | decline => exact (Int32.add_left_inj 1).mp same

theorem tracked_prompt (tracked : Tracked uriHost node)
    (unsent : ∀ tap ∈ node.sent, tap.notifId ≠ toNotifId currentTimeMillis)
    (apart : ∀ notifId, (node.shown notifId).isSome = true → notifId ≠ toNotifId currentTimeMillis →
      notifId * 2 ≠ toNotifId currentTimeMillis * 2) (pairingCode : String) :
    Tracked uriHost (node.prompt currentTimeMillis offer pairingCode) := by
  obtain ⟨undecided, unstarted⟩ := tracked.unknown node.arrivals.length (Nat.le_refl _)
  have elsewhere {notifId : Int32} (other : notifId ≠ toNotifId currentTimeMillis) :
      (node.prompt currentTimeMillis offer pairingCode).pendingDownloads notifId =
      node.pendingDownloads notifId :=
    Function.update_of_ne other ..
  have here : (node.prompt currentTimeMillis offer pairingCode).pendingDownloads
    (toNotifId currentTimeMillis) =
      some { number := node.arrivals.length, data := { offer, pairingCode } } := Function.update_self ..
  refine ⟨⟨tracked.consent.once, ?_, tracked.consent.accepted, tracked.consent.declined⟩, ?_, ?_, ?_, ?_⟩
  · intro start member
    obtain ⟨arrival, found, meant, asked⟩ := tracked.consent.asked start member
    exact ⟨arrival, getElem?_arrive found currentTimeMillis offer, meant, asked⟩
  · intro number late
    have later : node.arrivals.length < number := by
      simpa [Node.prompt, Node.notify, Node.getService, Node.setPending, Node.arrive,
        Nat.succ_le_iff] using late
    exact tracked.unknown number later.le
  · intro notifId waiting pending
    by_cases same : notifId = toNotifId currentTimeMillis
    · subst same
      cases here.symm.trans pending
      exact ⟨undecided, unstarted, _, List.getElem?_concat_length, rfl, rfl⟩
    · rw [elsewhere same] at pending
      obtain ⟨none, old, arrival, found, same, keyed⟩ := tracked.waiting notifId waiting pending
      exact ⟨none, old, arrival, getElem?_arrive found currentTimeMillis offer, same, keyed⟩
  · intro notifId number displayed
    by_cases same : notifId = toNotifId currentTimeMillis
    · subst same
      have own : number = node.arrivals.length :=
        Option.some.inj (displayed.symm.trans (Function.update_self ..))
      exact ⟨⟨_, by rw [here, own]⟩, fun action => by rw [intents_prompt, if_pos rfl]⟩
    · have before : node.shown notifId = some number :=
        (Function.update_of_ne same ..).symm.trans displayed
      obtain ⟨pending, intents⟩ := tracked.displayed notifId number before
      rw [elsewhere same]
      refine ⟨pending, fun action => ?_⟩
      have codes : requestCode notifId action ≠ requestCode (toNotifId currentTimeMillis) action :=
        mt requestCode_inj (apart notifId (Option.isSome_of_eq_some before) same)
      rw [intents_prompt, if_neg codes, intents]
  · intro tap member
    rw [elsewhere (unsent tap member)]
    exact tracked.travelling tap member

theorem tracked_tap (tracked : Tracked uriHost node)
    (displayed : node.shown notifId = some number)
    (held : node.intents (requestCode notifId action) action = some extra) :
    Tracked uriHost { node with sent := node.sent ++ [{ number, action, notifId := extra }] } where
  consent := ⟨tracked.consent.once, tracked.consent.asked, tracked.consent.accepted,
    tracked.consent.declined⟩
  unknown := tracked.unknown
  waiting := tracked.waiting
  displayed := tracked.displayed
  travelling := by
    intro tap member
    rcases List.mem_append.mp member with before | new
    · exact tracked.travelling tap before
    · cases List.mem_singleton.mp new
      obtain ⟨pending, intents⟩ := tracked.displayed notifId number displayed
      cases (intents action).symm.trans held
      exact .inl pending

/-- A second tap on a notification does nothing more. -/
theorem tracked_again (tracked : Tracked uriHost node) (sent : node.sent = tap :: later)
    (handles : Handles { node with sent := later } tap after)
    (gone : node.pendingDownloads tap.notifId = none) (decided : node.decision tap.number ≠ none) :
    Tracked uriHost after := by
  have extended : after.handled = node.handled ++ [tap] := handles.handled
  have decisions (number : Nat) : after.decision number = node.decision number := by
    rw [decision_append extended]
    by_cases own : tap.number = number
    · obtain ⟨_, earlier⟩ := Option.ne_none_iff_exists'.mp decided
      rw [← own, earlier, Option.some_or]
    · rw [if_neg own, Option.or_none]
  have pending : after.pendingDownloads = node.pendingDownloads := by
    rw [handles.pending]
    exact Function.update_eq_self_iff.mpr gone.symm
  have started : after.started = node.started := handles.starts (.inr gone)
  refine ⟨⟨?_, ?_, ?_, ?_⟩, ?_, ?_, ?_, ?_⟩
  · rw [started]
    exact tracked.consent.once
  · rw [started, handles.arrivals]
    simp only [decisions]
    exact tracked.consent.asked
  · rw [started]
    simp only [decisions]
    exact tracked.consent.accepted
  · rw [started]
    simp only [decisions]
    exact tracked.consent.declined
  · rw [started, handles.arrivals]
    simp only [decisions]
    exact tracked.unknown
  · rw [started, handles.arrivals, pending]
    simp only [decisions]
    exact tracked.waiting
  · rw [pending, handles.intents]
    exact fun notifId number displayed =>
      tracked.displayed notifId number (handles.shown notifId number displayed).1
  · rw [pending, handles.sent]
    simp only [decisions]
    intro other member
    exact tracked.travelling other (by rw [sent]; exact List.mem_cons_of_mem tap member)

/-- The first tap on the notification of an offer, with the start that it brings if it accepts. -/
structure FirstTap (node : Node) (tap : Tap) (offer : Offer) (new : Option Start)
    (after : Node) : Prop where
  decisions : ∀ number, after.decision number = if tap.number = number then some tap.action
    else node.decision number
  started : after.started = node.started ++ new.toList
  starts : new.isSome = true ↔ tap.action = .accept
  own : ∀ start, new = some start → start.number = tap.number ∧ Meant offer start.download
  arrivals : after.arrivals = node.arrivals

theorem firstTap_of_handles (handles : Handles { node with sent := later } tap after)
    (held : node.pendingDownloads tap.notifId = some { number := tap.number, data })
    (undecided : node.decision tap.number = none) :
    ∃ new, FirstTap node tap data.offer new after := by
  have extended : after.handled = node.handled ++ [tap] := handles.handled
  have decisions (number : Nat) :
      after.decision number = if tap.number = number then some tap.action else node.decision number := by
    rw [decision_append extended]
    by_cases own : tap.number = number
    · rw [← own, undecided, Option.none_or, if_pos rfl]
    · rw [if_neg own, Option.or_none, if_neg own]
  cases action : tap.action with
  | accept =>
    obtain ⟨start, started, number, meant⟩ := handles.accepts action _ held
    refine ⟨some start, decisions, started, iff_of_true rfl action, ?_, handles.arrivals⟩
    intro _ equal
    cases equal
    exact ⟨number, meant⟩
  | decline =>
    refine ⟨none, decisions, ?_, iff_of_false nofun (by rw [action]; exact nofun), nofun,
      handles.arrivals⟩
    rw [handles.starts (.inl action)]
    exact (List.append_nil _).symm

namespace FirstTap

variable {offer : Offer} {new : Option Start} {arrival : Arrival}

theorem not_started (first : FirstTap node tap offer new after)
    (old : number ∉ node.started.map Start.number) (different : number ≠ tap.number) :
    number ∉ after.started.map Start.number := by
  rw [first.started, List.map_append, List.mem_append]
  rintro (before | later)
  · exact old before
  · obtain ⟨start, member, rfl⟩ := List.mem_map.mp later
    exact different (first.own start (Option.mem_toList.mp member)).1

theorem once (first : FirstTap node tap offer new after)
    (unstarted : tap.number ∉ node.started.map Start.number)
    (before : (node.started.map Start.number).Nodup) : (after.started.map Start.number).Nodup := by
  rw [first.started, List.map_append]
  refine List.nodup_append.mpr ⟨before, ?_, ?_⟩
  · cases new with
    | none => exact List.nodup_nil
    | some => exact List.pairwise_singleton _ _
  · rintro _ member _ later rfl
    obtain ⟨start, inside, rfl⟩ := List.mem_map.mp later
    rw [(first.own start (Option.mem_toList.mp inside)).1] at member
    exact unstarted member

/-- What the tap decides is done, and nothing else. -/
theorem consent (first : FirstTap node tap offer new after) (consent : Consent uriHost node)
    (unstarted : tap.number ∉ node.started.map Start.number)
    (found : node.arrivals[tap.number]? = some arrival) (same : arrival.offer = offer) :
    Consent uriHost after := by
  refine ⟨first.once unstarted consent.once, ?_, ?_, ?_⟩
  · intro start member
    rw [first.started] at member
    rw [first.arrivals, first.decisions]
    rcases List.mem_append.mp member with before | later
    · obtain ⟨arrival, found, meant, asked⟩ := consent.asked start before
      have different : tap.number ≠ start.number := by
        intro equal
        exact unstarted (equal ▸ List.mem_map_of_mem before)
      rw [if_neg different]
      exact ⟨arrival, found, meant, asked⟩
    · have inside := Option.mem_toList.mp later
      obtain ⟨number, _⟩ := first.own start inside
      have accepted := first.starts.mp (Option.isSome_of_mem inside)
      rw [number, if_pos rfl]
      exact ⟨arrival, found, by rwa [same], .inr (congrArg some accepted)⟩
  · intro number accepted
    rw [first.decisions] at accepted
    rw [first.started, List.map_append, List.mem_append]
    split at accepted
    · rename_i equal
      right
      obtain ⟨start, started⟩ := Option.isSome_iff_exists.mp
        (first.starts.mpr (Option.some.inj accepted))
      exact List.mem_map.mpr
        ⟨start, Option.mem_toList.mpr started, by rw [(first.own start started).1, equal]⟩
    · exact .inl (consent.accepted number accepted)
  · intro number declined
    rw [first.decisions] at declined
    split at declined
    · rename_i equal
      have none : new = none := by
        rw [← Option.not_isSome_iff_eq_none, first.starts, Option.some.inj declined]
        exact nofun
      rw [first.started, none, ← equal]
      simpa using unstarted
    · rename_i different
      exact first.not_started (consent.declined number declined) (Ne.symm different)

end FirstTap

theorem tracked_first (tracked : Tracked uriHost node) (sent : node.sent = tap :: later)
    (handles : Handles { node with sent := later } tap after)
    (held : node.pendingDownloads tap.notifId = some { number := tap.number, data }) :
    Tracked uriHost after := by
  obtain ⟨undecided, unstarted, arrival, found, same, keyed⟩ :
      node.decision tap.number = none ∧ tap.number ∉ node.started.map Start.number ∧
        ∃ arrival, node.arrivals[tap.number]? = some arrival ∧ arrival.offer = data.offer ∧
          toNotifId arrival.currentTimeMillis = tap.notifId := tracked.waiting _ _ held
  obtain ⟨_, first⟩ := firstTap_of_handles handles held undecided
  have elsewhere {notifId : Int32} (other : notifId ≠ tap.notifId) :
      after.pendingDownloads notifId = node.pendingDownloads notifId := by
    rw [handles.pending]
    exact Function.update_of_ne other ..
  refine ⟨first.consent tracked.consent unstarted found same, ?_, ?_, ?_, ?_⟩
  · rw [handles.arrivals]
    intro number late
    obtain ⟨none, fresh⟩ := tracked.unknown number late
    have different : number ≠ tap.number :=
      Nat.ne_of_gt (Nat.lt_of_lt_of_le (List.getElem?_eq_some_iff.mp found).1 late)
    rw [first.decisions, if_neg (Ne.symm different)]
    exact ⟨none, first.not_started fresh different⟩
  · intro notifId waiting pending
    have other : notifId ≠ tap.notifId := by
      rintro rfl
      rw [handles.pending, Function.update_self] at pending
      cases pending
    rw [elsewhere other] at pending
    obtain ⟨none, fresh, arrival', found', same', keyed'⟩ := tracked.waiting notifId waiting pending
    have different : waiting.number ≠ tap.number := by
      intro equal
      rw [equal, found] at found'
      cases found'
      exact other (keyed'.symm.trans keyed)
    rw [first.decisions, if_neg (Ne.symm different), handles.arrivals]
    exact ⟨none, first.not_started fresh different, arrival', found', same', keyed'⟩
  · intro notifId number displayed
    obtain ⟨before, apart⟩ := handles.shown notifId number displayed
    have other : notifId ≠ tap.notifId := by
      rcases apart with other | gone
      · exact other
      · cases gone.symm.trans held
    rw [elsewhere other, handles.intents]
    exact tracked.displayed notifId number before
  · rw [handles.sent]
    intro other member
    rw [first.decisions]
    have travelling := tracked.travelling other (by rw [sent]; exact List.mem_cons_of_mem tap member)
    by_cases same : other.notifId = tap.notifId
    · right
      rw [same, held] at travelling
      rcases travelling with ⟨_, pending⟩ | ⟨none, _⟩
      · have number : tap.number = other.number := congrArg Waiting.number (Option.some.inj pending)
        rw [same, handles.pending, Function.update_self, if_pos number]
        exact ⟨rfl, Option.some_ne_none _⟩
      · cases none
    · rw [elsewhere same]
      rcases travelling with pending | ⟨none, decided⟩
      · exact .inl pending
      · refine .inr ⟨none, ?_⟩
        split
        · exact Option.some_ne_none _
        · exact decided

theorem tracked_handles (tracked : Tracked uriHost node) (sent : node.sent = tap :: later)
    (handles : Handles { node with sent := later } tap after) : Tracked uriHost after := by
  rcases tracked.travelling tap (by rw [sent]; exact List.mem_cons_self) with ⟨_, held⟩ | ⟨gone, decided⟩
  · exact tracked_first tracked sent handles held
  · exact tracked_again tracked sent handles gone decided

theorem tracked_step (tracked : Tracked uriHost node) (separate : Separate uriHost node event)
    (taken : step uriHost node event = some after) : Tracked uriHost after := by
  cases event with
  | signal _ _ pairingCode =>
    cases taken
    unfold showAcceptDeclineNotification
    split
    · rename_i trusted
      exact tracked_autoAccept tracked trusted
    · rename_i asks
      obtain ⟨unsent, apart⟩ := separate asks
      exact tracked_prompt tracked unsent apart pairingCode
  | tap =>
    simp only [step, Option.bind_eq_bind, Option.bind_eq_some_iff, Option.some.injEq] at taken
    obtain ⟨number, displayed, _, held, rfl⟩ := taken
    exact tracked_tap tracked displayed held
  | deliver =>
    simp only [step] at taken
    split at taken
    · cases taken
    · rename_i tap _ sent
      cases taken
      refine tracked_handles tracked sent (handles_onStartCommand fun accepted waiting pending => ?_)
      exact separate tap waiting (by rw [sent]; rfl) accepted pending
  | hide =>
    cases taken
    exact {
      consent := ⟨tracked.consent.once, tracked.consent.asked, tracked.consent.accepted,
        tracked.consent.declined⟩
      unknown := tracked.unknown
      waiting := tracked.waiting
      displayed := fun other number displayed =>
        tracked.displayed other number (shown_cancelNotification displayed).1
      travelling := tracked.travelling }
  | setAutoAccept | setEncryptionEnabled | addTrustedPeer | removeTrustedPeer =>
    cases taken
    exact ⟨⟨tracked.consent.once, tracked.consent.asked, tracked.consent.accepted,
      tracked.consent.declined⟩, tracked.unknown,
      tracked.waiting, tracked.displayed, tracked.travelling⟩

end

/-- An id as the service without prompts has it. -/
def plainId (notifId : Int32) : Nat := notifId.toBitVec.toNat

/-- A tap decides about the offer that is pending under the id of its intent, if there is one. -/
def Node.decides (node : Node) (tap : Tap) : List Offers.Event :=
  match node.pendingDownloads tap.notifId, tap.action with
  | none, _ => []
  | some _, .accept => [.acceptDownload (plainId tap.notifId)]
  | some _, .decline => [.declineDownload (plainId tap.notifId)]

/-- What the service without prompts is told of an event. -/
def Node.forgotten (node : Node) : Event → List Offers.Event
  | .signal currentTimeMillis offer pairingCode =>
    [.signal (plainId (toNotifId currentTimeMillis)) offer pairingCode]
  | .deliver =>
    match node.sent with
    | [] => []
    | tap :: _ => node.decides tap
  | .tap .. | .hide _ => []
  | .setAutoAccept value => [.setAutoAccept value]
  | .setEncryptionEnabled value => [.setEncryptionEnabled value]
  | .addTrustedPeer host => [.addTrustedPeer host]
  | .removeTrustedPeer host => [.removeTrustedPeer host]

/-- Only an offer that is pending is decided about. -/
def OnPending (plain : Offers.Node) : Offers.Event → Prop
  | .acceptDownload notifId | .declineDownload notifId => (plain.pendingDownloads notifId).isSome = true
  | _ => True

/-- The service without prompts is in the same state, and may still keep what a crash has lost. -/
structure Forgets (node : Node) (plain : Offers.Node) : Prop where
  pending : ∀ notifId waiting, node.pendingDownloads notifId = some waiting →
    plain.pendingDownloads (plainId notifId) = some waiting.data
  trustedPeers : plain.trustedPeers = node.trustedPeers
  autoAccept : plain.autoAccept = node.autoAccept
  encryptionEnabled : plain.encryptionEnabled = node.encryptionEnabled
  started : plain.started = node.started.map fun start => (start.offer, start.download)

section
variable {uriHost : UriHost} {node after : Node} {plain : Offers.Node} {event : Event}

theorem forgets_startDownload (forgets : Forgets node plain) (number : Nat) (offer : Offer)
    (senderHost : String) :
    Forgets (node.startDownload number offer senderHost)
      (plain.startDownload offer senderHost) where
  pending := forgets.pending
  trustedPeers := forgets.trustedPeers
  autoAccept := forgets.autoAccept
  encryptionEnabled := forgets.encryptionEnabled
  started := by
    simp only [Node.startDownload, Offers.Node.startDownload, forgets.started,
      forgets.encryptionEnabled, List.map_append]
    rfl

theorem forgets_setPending (forgets : Forgets node plain) (notifId : Int32)
    (pending : Option Waiting) :
    Forgets (node.setPending notifId pending)
      (plain.setPending (plainId notifId) (pending.map Waiting.data)) where
  pending := by
    intro other waiting held
    simp only [Node.setPending, Offers.Node.setPending] at held ⊢
    by_cases same : other = notifId
    · subst same
      rw [Function.update_self] at held
      rw [if_pos rfl, held]
      rfl
    · rw [Function.update_of_ne same] at held
      have different : plainId other ≠ plainId notifId := by
        intro equal
        exact same (Int32.toBitVec.inj (BitVec.eq_of_toNat_eq equal))
      rw [if_neg different]
      exact forgets.pending other waiting held
  trustedPeers := forgets.trustedPeers
  autoAccept := forgets.autoAccept
  encryptionEnabled := forgets.encryptionEnabled
  started := forgets.started

theorem forgets_signal (forgets : Forgets node plain) (currentTimeMillis : Int64) (offer : Offer)
    (pairingCode : String) :
    Forgets (showAcceptDeclineNotification uriHost node currentTimeMillis offer pairingCode)
      (Offers.showAcceptDeclineNotification uriHost plain (plainId (toNotifId currentTimeMillis))
        offer pairingCode) := by
  have arrived : Forgets (node.arrive currentTimeMillis offer) plain :=
    ⟨forgets.pending, forgets.trustedPeers, forgets.autoAccept, forgets.encryptionEnabled,
      forgets.started⟩
  have prompted : Forgets (node.prompt currentTimeMillis offer pairingCode)
      (plain.setPending (plainId (toNotifId currentTimeMillis)) (some { offer, pairingCode })) := by
    have kept := forgets_setPending arrived (toNotifId currentTimeMillis)
      (some { number := node.arrivals.length, data := { offer, pairingCode } })
    exact ⟨kept.pending, kept.trustedPeers, kept.autoAccept, kept.encryptionEnabled, kept.started⟩
  unfold showAcceptDeclineNotification Offers.showAcceptDeclineNotification autoAccepts
  rw [forgets.autoAccept, forgets.trustedPeers]
  cases (uriHost offer.url).join with
  | none => exact prompted
  | some senderHost =>
    by_cases trusted : node.autoAccept = true ∧ senderHost ∈ node.trustedPeers
    · have accepts : (some senderHost).filter
        (fun senderHost => node.autoAccept && decide (senderHost ∈ node.trustedPeers)) =
          some senderHost := by simp [trusted]
      simp only [accepts, if_pos trusted]
      exact forgets_startDownload arrived _ offer senderHost
    · have asks : (some senderHost).filter
          (fun senderHost => node.autoAccept && decide (senderHost ∈ node.trustedPeers)) = none := by
        simpa using trusted
      simp only [asks, if_neg trusted]
      exact prompted

theorem forgets_onAccept (forgets : Forgets node plain)
    (held : node.pendingDownloads notifId = some waiting) :
    Forgets (onAccept uriHost node notifId) (Offers.onAccept uriHost plain (plainId notifId)) := by
  have kept := forgets_setPending forgets notifId none
  have cleared : Forgets ((node.setPending notifId none).cancelNotification notifId)
      (plain.setPending (plainId notifId) none) :=
    ⟨kept.pending, kept.trustedPeers, kept.autoAccept, kept.encryptionEnabled, kept.started⟩
  simp only [onAccept, held, Offers.onAccept, forgets.pending notifId waiting held]
  cases uriHost waiting.data.offer.url with
  | none => exact forgets_startDownload cleared _ _ _
  | some found =>
    cases found with
    | none =>
      exact ⟨(fun _ _ held => by cases held), cleared.trustedPeers, cleared.autoAccept,
        cleared.encryptionEnabled, cleared.started⟩
    | some senderHost =>
      refine forgets_startDownload ?_ _ _ _
      by_cases empty : senderHost = ""
      · simpa only [if_pos empty] using cleared
      · simp only [if_neg empty]
        exact ⟨cleared.pending, congrArg (senderHost :: ·) cleared.trustedPeers, cleared.autoAccept,
          cleared.encryptionEnabled, cleared.started⟩

/-- A tap on an offer that is no longer pending changes nothing that the service without prompts
has. -/
theorem forgets_late (forgets : Forgets node plain)
    (gone : node.pendingDownloads tap.notifId = none) :
    Forgets (onStartCommand uriHost node tap) plain := by
  have received : Forgets (node.receive tap) plain :=
    ⟨forgets.pending, forgets.trustedPeers, forgets.autoAccept, forgets.encryptionEnabled,
      forgets.started⟩
  unfold onStartCommand
  cases tap.action with
  | accept =>
    have kept : (node.receive tap).pendingDownloads tap.notifId = none := gone
    simpa only [onAccept_none kept] using received
  | decline =>
    refine ⟨fun notifId waiting held => ?_, received.trustedPeers, received.autoAccept,
      received.encryptionEnabled, received.started⟩
    have same : Function.update node.pendingDownloads tap.notifId none = node.pendingDownloads :=
      Function.update_eq_self_iff.mpr gone.symm
    exact forgets.pending notifId waiting ((congrFun same notifId).symm.trans held)

theorem forgets_onStartCommand (forgets : Forgets node plain) (tap : Tap) :
    ∃ later, Execution (Offers.step uriHost) OnPending plain (node.decides tap) later ∧
      Forgets (onStartCommand uriHost node tap) later := by
  unfold Node.decides
  cases held : node.pendingDownloads tap.notifId with
  | none => exact ⟨plain, .done, forgets_late forgets held⟩
  | some waiting =>
    have received : Forgets (node.receive tap) plain :=
      ⟨forgets.pending, forgets.trustedPeers, forgets.autoAccept, forgets.encryptionEnabled,
        forgets.started⟩
    have kept : (node.receive tap).pendingDownloads tap.notifId = some waiting := held
    have pending : (plain.pendingDownloads (plainId tap.notifId)).isSome = true := by
      rw [forgets.pending tap.notifId waiting held]
      rfl
    unfold onStartCommand
    cases tap.action with
    | accept => exact ⟨_, .single pending rfl, forgets_onAccept received kept⟩
    | decline =>
      have cleared := forgets_setPending received tap.notifId none
      exact ⟨_, .single pending rfl,
        ⟨cleared.pending, cleared.trustedPeers, cleared.autoAccept, cleared.encryptionEnabled,
          cleared.started⟩⟩

/-- The service without prompts follows each step of the device. -/
theorem forgets_step (forgets : Forgets node plain) (taken : step uriHost node event = some after) :
    ∃ later, Execution (Offers.step uriHost) OnPending plain (node.forgotten event) later ∧
      Forgets after later := by
  cases event with
  | signal currentTimeMillis offer pairingCode =>
    cases taken
    exact ⟨_, .single trivial rfl, forgets_signal forgets currentTimeMillis offer pairingCode⟩
  | tap =>
    simp only [step, Option.bind_eq_bind, Option.bind_eq_some_iff, Option.some.injEq] at taken
    obtain ⟨_, _, _, _, rfl⟩ := taken
    exact ⟨plain, .done,
      ⟨forgets.pending, forgets.trustedPeers, forgets.autoAccept, forgets.encryptionEnabled,
        forgets.started⟩⟩
  | deliver =>
    simp only [step] at taken
    split at taken
    · cases taken
    · rename_i tap later sent
      cases taken
      have rest : Forgets { node with sent := later } plain :=
        ⟨forgets.pending, forgets.trustedPeers, forgets.autoAccept, forgets.encryptionEnabled,
          forgets.started⟩
      have first : node.forgotten .deliver = node.decides tap := by rw [Node.forgotten, sent]
      rw [first]
      exact forgets_onStartCommand rest tap
  | hide =>
    cases taken
    exact ⟨plain, .done,
      ⟨forgets.pending, forgets.trustedPeers, forgets.autoAccept, forgets.encryptionEnabled,
        forgets.started⟩⟩
  | setAutoAccept =>
    cases taken
    exact ⟨_, .single trivial rfl,
      ⟨forgets.pending, forgets.trustedPeers, rfl, forgets.encryptionEnabled, forgets.started⟩⟩
  | setEncryptionEnabled =>
    cases taken
    exact ⟨_, .single trivial rfl,
      ⟨forgets.pending, forgets.trustedPeers, forgets.autoAccept, rfl, forgets.started⟩⟩
  | addTrustedPeer host =>
    cases taken
    exact ⟨_, .single trivial rfl, ⟨forgets.pending, congrArg (host :: ·) forgets.trustedPeers,
      forgets.autoAccept, forgets.encryptionEnabled, forgets.started⟩⟩
  | removeTrustedPeer host =>
    cases taken
    exact ⟨_, .single trivial rfl,
      ⟨forgets.pending, congrArg (List.filter (· ≠ host)) forgets.trustedPeers,
      forgets.autoAccept, forgets.encryptionEnabled, forgets.started⟩⟩

/-- The service without prompts meets the same offers and settings and, for every tap that the
device delivers on a pending offer, the same decision on it; it starts the same downloads. -/
theorem forgets_run {events : List Event}
    (run : Execution (step uriHost) anything node events after) (forgets : Forgets node plain) :
    ∃ later, Execution (Offers.step uriHost) OnPending plain
      (observed (step uriHost) Node.forgotten node events) later ∧
      Forgets after later :=
  run.simulated (fun _ _ _ _ _ taken forgets => forgets_step forgets taken) plain forgets

end

/-- In every run that keeps the prompts apart the user has been asked about all that was started,
and what was answered is done. -/
theorem consent_kept (uriHost : UriHost) {trustedPeers : List String}
    {autoAccept encryptionEnabled : Bool} {events : List Event} {node : Node}
    (run : Execution (step uriHost) (Separate uriHost)
      (fresh trustedPeers autoAccept encryptionEnabled) events node) :
    Consent uriHost node := by
  have tracked : Tracked uriHost node :=
    run.invariant (Tracked uriHost)
      (fun _ _ _ tracked separate taken => tracked_step tracked separate taken)
        (tracked_fresh trustedPeers autoAccept encryptionEnabled)
  exact tracked.consent

/-- Another file of the same sender. -/
def otherOffer : Offer :=
  { sampleOffer with url := "https://192.168.1.5:9001/photo.png", filename := "photo.png" }

def sampleEvents (first second : Int64) : List Event :=
  [.signal first sampleOffer "1234", .signal second otherOffer "5678",
    .tap (toNotifId first) .accept, .deliver]

theorem sample_separate :
    ∃ node, Execution (step sampleHost) (Separate sampleHost) (fresh [] false false)
      (sampleEvents 1000 2000) node := by
  refine ⟨_, .next ?_ rfl (.next ?_ rfl (.next trivial rfl (.next ?_ rfl .done)))⟩
  · exact fun _ => ⟨nofun, nofun⟩
  · refine fun _ => ⟨nofun, fun notifId displayed _ => ?_⟩
    by_cases first : notifId = toNotifId 1000
    · rw [first]
      decide
    · have hidden : Function.update (fun _ => none) (toNotifId 1000)
          (some 0) notifId = (none : Option Nat) :=
        Function.update_of_ne first ..
      cases (congrArg Option.isSome hidden).symm.trans displayed
  · intro _ _ _ _ _ hostless
    cases Option.some.inj hostless

/-- The service without prompts meets both offers and is told of the one decision. -/
theorem forgets_run_sample : ∃ node later,
    Execution (step sampleHost) anything (fresh [] false false) (sampleEvents 1000 2000) node ∧
      Execution (Offers.step sampleHost) OnPending Offers.fresh
        [.signal 1000 sampleOffer "1234", .signal 2000 otherOffer "5678",
          .acceptDownload 1000] later ∧
      Forgets node later := by
  obtain ⟨node, run⟩ := sample_separate
  have idle : Forgets (fresh [] false false) Offers.fresh :=
    ⟨(fun _ _ held => by cases held), rfl, rfl, rfl, rfl⟩
  obtain ⟨later, reached, forgets⟩ := forgets_run run.plain idle
  exact ⟨node, later, run.plain, reached, forgets⟩

theorem consent_kept_sample : ∃ node,
    Execution (step sampleHost) (Separate sampleHost) (fresh [] false false)
      (sampleEvents 1000 2000) node ∧ Consent sampleHost node := by
  obtain ⟨node, run⟩ := sample_separate
  exact ⟨node, run, consent_kept sampleHost run⟩

/-- Half the ids apart, the second offer is started by the tap on the first. -/
theorem other_offer_started : ∃ node,
    Execution (step sampleHost) anything (fresh [] false false)
      (sampleEvents 1000 (1000 + 2 ^ 31)) node ∧
      node.started.map Start.number = [1] ∧ ¬ Consent sampleHost node := by
  refine ⟨_, execution_iff_replay.mpr rfl, rfl, fun consent => ?_⟩
  obtain ⟨_, found, _, asked⟩ := consent.asked _ List.mem_cons_self
  cases found
  rcases asked with trusted | accepted
  · cases trusted
  · cases accepted

end DistributedOs.Android.Prompts
