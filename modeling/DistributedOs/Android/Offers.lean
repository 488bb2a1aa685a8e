import DistributedOs.Nio.Download
import DistributedOs.Semantics.Execution

/-! File offers of the dashboard, from the signal to the stored bytes. The fingerprint that comes
with an offer is kept with it while the user is asked, and goes no further; over TLS every
certificate is trusted. -/

namespace DistributedOs.Android.Offers

open Semantics Nio

structure Offer where
  url : String
  filename : String
  size : Nat
  fingerprint : String
  deriving DecidableEq

/-- The value of `pendingDownloads`. -/
structure Pending where
  offer : Offer
  pairingCode : String
  deriving DecidableEq

/-- The arguments of `startDownload`. -/
structure Download where
  url : String
  filename : String
  totalBytes : Nat
  peerIp : String
  useEncryption : Bool
  deriving DecidableEq

/-- The downloads that were started, each with the offer it was started for. -/
structure Node where
  pendingDownloads : Nat → Option Pending
  trustedPeers : List String
  autoAccept : Bool
  encryptionEnabled : Bool
  started : List (Offer × Download)

inductive Event where
  | signal (notifId : Nat) (offer : Offer) (pairingCode : String)
  | acceptDownload (notifId : Nat)
  | declineDownload (notifId : Nat)
  | setAutoAccept (value : Bool)
  | setEncryptionEnabled (value : Bool)
  | addTrustedPeer (host : String)
  | removeTrustedPeer (host : String)

/-- What `java.net.URI` makes of a text: nothing if it is malformed, and else its host, if it has
one. -/
abbrev UriHost := String → Option (Option String)

def Node.startDownload (node : Node) (offer : Offer) (senderHost : String) : Node :=
  { node with
    started := node.started ++ [(offer,
      { url := offer.url, filename := offer.filename, totalBytes := offer.size, peerIp := senderHost
        useEncryption := node.encryptionEnabled })] }

def Node.setPending (node : Node) (notifId : Nat) (pending : Option Pending) : Node :=
  { node with pendingDownloads := fun id => if id = notifId then pending else node.pendingDownloads id }

/-- A trusted sender is not asked about. -/
def showAcceptDeclineNotification (uriHost : UriHost) (node : Node) (notifId : Nat) (offer : Offer)
    (pairingCode : String) : Node :=
  match (uriHost offer.url).join with
  | some senderHost =>
    if node.autoAccept ∧ senderHost ∈ node.trustedPeers then node.startDownload offer senderHost
    else node.setPending notifId (some { offer, pairingCode })
  | none => node.setPending notifId (some { offer, pairingCode })

/-- The user has accepted. The host of a malformed text is the empty one; without a host the call
fails. -/
def onAccept (uriHost : UriHost) (node : Node) (notifId : Nat) : Node :=
  match node.pendingDownloads notifId with
  | none => node
  | some data =>
    let node := node.setPending notifId none
    match uriHost data.offer.url with
    | some none => node
    | none => node.startDownload data.offer ""
    | some (some senderHost) =>
      let node := if senderHost = "" then node
          else { node with trustedPeers := senderHost :: node.trustedPeers }
      node.startDownload data.offer senderHost

def step (uriHost : UriHost) (node : Node) : Event → Option Node
  | .signal notifId offer pairingCode =>
    some (showAcceptDeclineNotification uriHost node notifId offer pairingCode)
  | .acceptDownload notifId => some (onAccept uriHost node notifId)
  | .declineDownload notifId => some (node.setPending notifId none)
  | .setAutoAccept value => some { node with autoAccept := value }
  | .setEncryptionEnabled value => some { node with encryptionEnabled := value }
  | .addTrustedPeer host => some { node with trustedPeers := host :: node.trustedPeers }
  | .removeTrustedPeer host => some { node with trustedPeers := node.trustedPeers.filter (· ≠ host) }

def fresh : Node :=
  { pendingDownloads := fun _ => none, trustedPeers := [], autoAccept := false,
    encryptionEnabled := false, started := [] }

/-- A server, with the fingerprint of its certificate and its answers to the requests. -/
structure Server where
  certificate : String
  answers : List Answer

/-- `trustAllCerts`. -/
def checkServerTrusted (_certificate : String) : Bool := true

/-- `String.replace` of every `http:` by `https:`. -/
def replaceHttp : List Char → List Char
  | 'h' :: 't' :: 't' :: 'p' :: ':' :: rest => "https:".toList ++ replaceHttp rest
  | letter :: rest => letter :: replaceHttp rest
  | [] => []

/-- The address that is asked in the end. -/
def Download.downloadUrl (download : Download) : String :=
  if download.useEncryption ∧ "http:".toList.isPrefixOf download.url.toList then
    String.ofList (replaceHttp download.url.toList)
  else download.url

def Download.overTls (download : Download) : Bool :=
  "https://".toList.isPrefixOf download.downloadUrl.toList

/-- The free bytes, the output file and what is taken for the count of the bytes in it. -/
structure Storage where
  freeBytes : Nat
  output : Option Bytes
  existingBytes : Nat

/-- The retry loop: the file of the first success among the attempts. -/
def attempts (digest : Bytes → String) (tls : Bool) (existingBytes : Nat) :
    Nat → Option Bytes → List Answer → Option Bytes
  | 0, _, _ => none
  | _ + 1, _, [] => none
  | left + 1, old, answer :: answers =>
    let outcome := httpDownloadWithResume digest "" tls existingBytes old answer
    match outcome.result with
    | none => none
    | some result =>
      if result.success then outcome.file
      else attempts digest tls existingBytes left outcome.file answers

/-- `downloadFile`, up to the bytes that are stored when it completes. -/
def downloadFile (digest : Bytes → String) (uriHost : UriHost) (storage : Storage)
    (download : Download) (server : Server) :
    Option Bytes :=
  if storage.freeBytes < download.totalBytes then none
  else if (uriHost download.downloadUrl).join.isNone then none
  else if download.overTls && !checkServerTrusted server.certificate then none
  else attempts digest download.overTls storage.existingBytes 3 storage.output server.answers

/-- Whatever server answers: the bytes of a completed download came over TLS, from one with the
fingerprint of the offer. -/
def Authentic (digest : Bytes → String) (uriHost : UriHost) (storage : Storage) (offer : Offer)
    (download : Download) : Prop :=
  ∀ server bytes, downloadFile digest uriHost storage download server = some bytes →
    download.overTls = true ∧ server.certificate = offer.fingerprint

/-- There is room for the file, and an address to ask. -/
def Download.possible (uriHost : UriHost) (storage : Storage) (download : Download) : Bool :=
  download.totalBytes ≤ storage.freeBytes && (uriHost download.downloadUrl).join.isSome

section
variable {digest : Bytes → String} {uriHost : UriHost} {storage : Storage} {offer : Offer}
  {download : Download} {server : Server}

/-- `HTTP/1.1 200 OK` and no body. -/
def emptyAnswer : Answer := { pieces := [ascii "HTTP/1.1 200 OK\r\n\r\n"], broken := false }

theorem emptyAnswer_succeeds (digest : Bytes → String) (tls : Bool) (existingBytes : Nat)
    (old : Option Bytes) :
    ∃ result file, (httpDownloadWithResume digest "" tls existingBytes old emptyAnswer).result =
      some result ∧ result.success = true ∧
      (httpDownloadWithResume digest "" tls existingBytes old emptyAnswer).file = some file := by
  cases tls with
  | true =>
    have header : readTlsHeader tlsHeaderSize [] emptyAnswer.stream = (emptyAnswer.stream, []) := by rfl
    have status : statusCode emptyAnswer.stream = some 200 := by rfl
    have whole : emptyAnswer.broken = false := rfl
    simp [httpDownloadWithResume, httpsDownload, header, status, succeeded, whole, conclude]
  | false =>
    have split : splitHeader emptyAnswer.pieces.flatten =
        some (ascii "HTTP/1.1 200 OK\r\n\r\n", []) := by rfl
    have response := readResponse_eq emptyAnswer.pieces
    rw [split] at response
    obtain ⟨_, _, read, whole⟩ := response
    obtain ⟨none, nothing⟩ := List.append_eq_nil_iff.mp whole
    have status : statusCode (ascii "HTTP/1.1 200 OK\r\n\r\n") = some 200 := by rfl
    have begins : startPosition existingBytes 200 = 0 := by
      unfold startPosition
      split <;> omega
    have unbroken : emptyAnswer.broken = false := rfl
    simp [httpDownloadWithResume, read, none, nothing, status, succeeded, begins, transferAll,
      conclude, unbroken]

theorem downloadFile_possible (digest : Bytes → String)
    (possible : download.possible uriHost storage = true) (certificate : String) :
    ∃ server bytes, server.certificate = certificate ∧
      downloadFile digest uriHost storage download server = some bytes := by
  simp only [Download.possible, Bool.and_eq_true, decide_eq_true_eq] at possible
  obtain ⟨result, file, reported, success, stored⟩ :=
    emptyAnswer_succeeds digest download.overTls storage.existingBytes storage.output
  refine ⟨{ certificate, answers := [emptyAnswer] }, file, rfl, ?_⟩
  simp [downloadFile, Nat.not_lt.mpr possible.1, Option.isSome_iff_ne_none.mp possible.2,
    checkServerTrusted, attempts, reported,
    success, stored]

theorem authentic_iff : Authentic digest uriHost storage offer download ↔
      download.possible uriHost storage = false := by
  constructor
  · intro authentic
    by_contra possible
    obtain ⟨server, bytes, other, completed⟩ := downloadFile_possible digest
      (Bool.eq_true_of_not_eq_false possible)
      (offer.fingerprint ++ "0")
    have same := (authentic server bytes completed).2
    rw [other] at same
    have size := congrArg String.length same
    simp at size
  · intro impossible _ _ completed
    exfalso
    simp only [Download.possible, Bool.and_eq_false_iff, decide_eq_false_iff_not,
      Nat.not_le] at impossible
    unfold downloadFile at completed
    rcases impossible with room | nowhere
    · rw [if_pos room] at completed
      cases completed
    · split at completed
      · cases completed
      · rw [if_pos (by simpa using nowhere)] at completed
        cases completed

end

/-- A download is started with the address, the name and the size of an offer that was signalled. -/
def Meant (offer : Offer) (download : Download) : Prop :=
  download.url = offer.url ∧ download.filename = offer.filename ∧ download.totalBytes = offer.size

/-- The offers that are kept or were accepted are among the signalled ones. -/
structure Traced (signalled : Offer → Prop) (node : Node) : Prop where
  pending : ∀ notifId data, node.pendingDownloads notifId = some data → signalled data.offer
  started : ∀ offer download, (offer, download) ∈ node.started → signalled offer ∧ Meant offer download

section
variable {uriHost : UriHost} {node after : Node} {signalled : Offer → Prop}

theorem traced_startDownload (traced : Traced signalled node) (known : signalled offer)
    (senderHost : String) :
    Traced signalled (node.startDownload offer senderHost) := by
  refine ⟨traced.pending, fun other download member => ?_⟩
  rcases List.mem_append.mp member with before | new
  · exact traced.started other download before
  · cases List.mem_singleton.mp new
    exact ⟨known, rfl, rfl, rfl⟩

theorem traced_setPending (traced : Traced signalled node) (notifId : Nat)
    (known : ∀ data, pending = some data → signalled data.offer) :
    Traced signalled (node.setPending notifId pending) := by
  refine ⟨fun id data held => ?_, traced.started⟩
  simp only [Node.setPending] at held
  split at held
  · exact known data held
  · exact traced.pending id data held

theorem traced_onAccept (traced : Traced signalled node)
    (notifId : Nat) : Traced signalled (onAccept uriHost node notifId) := by
  unfold onAccept
  split
  · exact traced
  · rename_i data held
    have known := traced.pending notifId data held
    have cleared : Traced signalled (node.setPending notifId none) :=
      traced_setPending traced notifId nofun
    split
    · exact cleared
    · exact traced_startDownload cleared known _
    · refine traced_startDownload ?_ known _
      split
      · exact cleared
      · exact ⟨cleared.pending, cleared.started⟩

theorem traced_step (traced : Traced signalled node)
    (known : ∀ notifId offer pairingCode, event = .signal notifId offer pairingCode →
      signalled offer)
    (taken : step uriHost node event = some after) : Traced signalled after := by
  cases event with
  | signal notifId offer pairingCode =>
    cases taken
    have asked : Traced signalled (node.setPending notifId (some { offer, pairingCode })) := by
      refine traced_setPending traced notifId ?_
      rintro _ ⟨⟩
      exact known notifId offer pairingCode rfl
    unfold showAcceptDeclineNotification
    split
    · split
      · exact traced_startDownload traced (known notifId offer pairingCode rfl) _
      · exact asked
    · exact asked
  | acceptDownload notifId =>
    cases taken
    exact traced_onAccept traced notifId
  | declineDownload notifId =>
    cases taken
    exact traced_setPending traced notifId nofun
  | setAutoAccept | setEncryptionEnabled | addTrustedPeer | removeTrustedPeer =>
    cases taken
    exact ⟨traced.pending, traced.started⟩

end

theorem traced_run {signalled : Offer → Prop}
    (run : Execution (step uriHost) anything node events after) (traced : Traced signalled node)
    (known : ∀ notifId offer pairingCode, .signal notifId offer pairingCode ∈ events →
      signalled offer) : Traced signalled after := by
  induction run with
  | done => exact traced
  | next _ taken _ ih =>
    refine ih (traced_step traced ?_ taken) fun notifId offer pairingCode later => ?_
    · rintro notifId offer pairingCode rfl
      exact known notifId offer pairingCode List.mem_cons_self
    · exact known notifId offer pairingCode (List.mem_cons_of_mem _ later)

/-- The downloads that were started for an offer with a fingerprint are authentic. -/
def Safe (digest : Bytes → String) (uriHost : UriHost) (storage : Storage) (node : Node) : Prop :=
  ∀ offer download, (offer, download) ∈ node.started → offer.fingerprint ≠ "" →
  Authentic digest uriHost storage offer download

/-- In every run: what is started was offered, and it is safe only where no server can complete it. -/
theorem safe_iff (digest : Bytes → String) (uriHost : UriHost) (storage : Storage)
    {events : List Event} {node : Node}
    (run : Execution (step uriHost) anything fresh events node) :
    (∀ offer download, (offer, download) ∈ node.started →
      (∃ notifId pairingCode, .signal notifId offer pairingCode ∈ events) ∧ Meant offer download) ∧
    (Safe digest uriHost storage node ↔
      ∀ offer download, (offer, download) ∈ node.started → offer.fingerprint ≠ "" →
      download.possible uriHost storage = false) := by
  have nothing : Traced
      (fun offer => ∃ notifId pairingCode, .signal notifId offer pairingCode ∈ events)
      fresh := ⟨nofun, nofun⟩
  have traced := traced_run run nothing fun notifId offer pairingCode within =>
    ⟨notifId, pairingCode, within⟩
  exact ⟨traced.started, forall₄_congr fun _ _ _ _ => authentic_iff⟩

def sampleOffer : Offer :=
  { url := "https://192.168.1.5:9000/notes.txt", filename := "notes.txt", size := 0,
    fingerprint := "ab:cd" }

def sampleEvents : List Event := [.signal 7 sampleOffer "1234", .acceptDownload 7]

def sampleHost : UriHost := fun _ => some (some "192.168.1.5")

def sampleStorage (freeBytes : Nat) : Storage := { freeBytes, output := none, existingBytes := 0 }

def sampleDownload : Download :=
  { url := sampleOffer.url, filename := "notes.txt", totalBytes := 0, peerIp := "192.168.1.5",
    useEncryption := false }

def sampleNode : Node :=
  { fresh with trustedPeers := ["192.168.1.5"], started := [(sampleOffer, sampleDownload)] }

theorem sample_run : ∃ pendingDownloads, Execution (step sampleHost) anything fresh sampleEvents
      { sampleNode with pendingDownloads } :=
  ⟨_, execution_iff_replay.mpr rfl⟩

theorem safe_iff_sample : ∃ node, Execution (step sampleHost) anything fresh sampleEvents node ∧
    ¬ Safe (fun _ => "") sampleHost (sampleStorage 0) node := by
  obtain ⟨_, run⟩ := sample_run
  refine ⟨_, run, fun safe => ?_⟩
  have impossible := (safe_iff (fun _ => "") sampleHost (sampleStorage 0) run).2.mp safe
    sampleOffer sampleDownload
    List.mem_cons_self (by decide)
  cases impossible

/-- The accepted download completes although the server has another certificate than the one
offered. -/
theorem not_authentic : ∃ node server bytes,
      Execution (step sampleHost) anything fresh sampleEvents node ∧
    (sampleOffer, sampleDownload) ∈ node.started ∧ server.certificate ≠ sampleOffer.fingerprint ∧
    downloadFile (fun _ => "") sampleHost (sampleStorage 0) sampleDownload server = some bytes := by
  obtain ⟨_, run⟩ := sample_run
  obtain ⟨server, bytes, certificate, completed⟩ :=
    downloadFile_possible (fun _ => "")
      (show sampleDownload.possible sampleHost (sampleStorage 0) = true by rfl) "00:11"
  exact ⟨_, server, bytes, run, List.mem_cons_self, by rw [certificate]; decide, completed⟩

end DistributedOs.Android.Offers
