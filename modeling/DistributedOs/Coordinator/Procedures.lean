import DistributedOs.Coordinator.Messages

/-! The asynchronous procedures of the coordinator. Each is a type of program points
holding the locals that are live there, with the access made at a point (`access`) and
the point reached from it (`resume`). A choice a point does not offer resumes to none. -/

namespace DistributedOs.Coordinator

open DistributedOs.Session DistributedOs.Transfer

inductive EngineRun where
  | check
  | lock
  | recheck
  | upload
  | uploading
  | unlock (outcome : Except TransferError TransferProgress)

namespace EngineRun

def access (upload : Access) : EngineRun → Access
  | .check => .readToken
  | .lock => .lockEngine
  | .recheck => .readToken
  | .upload => upload
  | .uploading => .idle
  | .unlock _ => .unlockEngine

def resume : EngineRun → Reply → Choice → Option (EngineRun ⊕ Except TransferError TransferProgress)
  | .check, .token none, .proceed => some (.inl .lock)
  | .check, .token (some _), .proceed => some (.inr (.error (.cancelled "user cancelled before start")))
  | .lock, .done, .proceed => some (.inl .recheck)
  | .recheck, .token none, .proceed => some (.inl .upload)
  | .recheck, .token (some reason), .proceed =>
    some (.inl (.unlock (.error (.fromAnyhow ("cancelled: " ++ reason)))))
  | .upload, .done, .proceed => some (.inl .uploading)
  | .uploading, .done, .uploaded progress => some (.inl (.unlock (.ok progress)))
  | .uploading, .done, .failure error => some (.inl (.unlock (.error (.fromAnyhow error))))
  | .unlock outcome, .done, .proceed => some (.inr outcome)
  | _, _, _ => none

end EngineRun

structure Upload where
  sessionId : String
  files : List FileMeta
  acceptedFileIds : List String
  resumeOffsets : AList fun _ : String => UInt64

/-- The progress of a file is forwarded to the session by a task of its own, which is aborted when
the upload of the file returns: what it has not forwarded by then is lost, and nothing here waits
for it. -/
inductive UploadFiles where
  | register (upload : Upload)
  | engine (upload : Upload) (file : FileMeta) (remaining : List FileMeta) (run : EngineRun)
  | recordFile (upload : Upload) (file : FileMeta) (remaining : List FileMeta) (reported : Option UInt64)
  | decide (upload : Upload)
  | complete (upload : Upload)
  | announceCompleted (upload : Upload)
  | describe (upload : Upload)
  | classify (upload : Upload) (errMsg : String)
  | fail (upload : Upload) (state : SessionState) (errMsg : String)
  | announceFailed (upload : Upload) (errMsg : String)
  | unregister (upload : Upload)
  | returned (upload : Upload)

namespace UploadFiles

/-- An empty list of accepted ids accepts every file. -/
def accepts (upload : Upload) (file : FileMeta) : Bool :=
  upload.acceptedFileIds.isEmpty || upload.acceptedFileIds.contains file.fileId

def next (upload : Upload) : List FileMeta → UploadFiles
  | [] => .decide upload
  | file :: remaining =>
    if accepts upload file then .engine upload file remaining .check else next upload remaining

def access : UploadFiles → Choice → Access
  | .register upload, _ => .insertToken upload.sessionId
  | .engine upload file _ run, _ =>
    run.access (.beginUpload upload.sessionId file.fileId (upload.resumeOffsets.lookup file.fileId))
  | .recordFile upload file _ (some bytesSent), .forwarded =>
    .session (.updateFileProgress upload.sessionId file.fileId bytesSent false)
  | .recordFile upload file _ _, _ =>
    .session (.updateFileProgress upload.sessionId file.fileId file.size true)
  | .decide _, _ => .readToken
  | .complete upload, _ => .session (.updateState upload.sessionId .completed none)
  | .announceCompleted upload, _ => .emit (.sessionCompleted upload.sessionId (totalSize upload.files))
  | .describe _, _ => .readToken
  | .classify _ _, _ => .readToken
  | .fail upload state errMsg, _ => .session (.updateState upload.sessionId state (some errMsg))
  | .announceFailed upload errMsg, _ => .emit (.sessionFailed upload.sessionId errMsg)
  | .unregister upload, _ => .removeToken upload.sessionId
  | .returned _, _ => .idle

def resume : UploadFiles → Reply → Choice → Option UploadFiles
  | .register upload, .done, .proceed => some (next upload upload.files)
  | .engine upload file remaining run, reply, choice =>
    (run.resume reply choice).map fun
      | .inl run => .engine upload file remaining run
      | .inr (.ok progress) => .recordFile upload file remaining (some progress.bytesSent)
      | .inr (.error _) => .describe upload
  | .recordFile upload file remaining (some _), .done, .forwarded =>
    some (.recordFile upload file remaining none)
  | .recordFile upload _ remaining _, .done, .proceed => some (next upload remaining)
  | .decide upload, .token none, .proceed => some (.complete upload)
  | .decide upload, .token (some _), .proceed => some (.describe upload)
  | .complete upload, .updated _, .proceed => some (.announceCompleted upload)
  | .announceCompleted upload, .done, .proceed => some (.unregister upload)
  | .describe upload, .token none, .proceed => some (.classify upload "transfer failed")
  | .describe upload, .token (some _), .proceed => some (.classify upload "cancelled")
  | .classify upload errMsg, .token none, .proceed => some (.fail upload .failed errMsg)
  | .classify upload errMsg, .token (some _), .proceed => some (.fail upload .cancelled errMsg)
  | .fail upload _ errMsg, .updated _, .proceed => some (.announceFailed upload errMsg)
  | .announceFailed upload _, .done, .proceed => some (.unregister upload)
  | .unregister upload, .done, .proceed => some (.returned upload)
  | _, _, _ => none

end UploadFiles

structure Offer where
  sessionId : String
  peerId : String
  peerName : String
  address : String
  files : List FileMeta

inductive StartSession where
  | findPeer (sessionId peerId : String) (files : List FileMeta)
  | create (offer : Offer)
  | negotiate (offer : Offer)
  | openChannel (offer : Offer)
  | announceStarted (offer : Offer)
  | connect (offer : Offer)
  | identify (offer : Offer)
  | write (offer : Offer) (deviceId deviceName : String)
  | read (offer : Offer)
  | activate (offer : Offer) (accept : SessionAcceptPayload)
  | announceActive (offer : Offer) (accept : SessionAcceptPayload)
  | spawn (offer : Offer) (accept : SessionAcceptPayload)
  | fail (offer : Offer) (error : String) (result : Except TransferError String)
  | announceFailed (offer : Offer) (error : String) (result : Except TransferError String)
  | returned (sessionId : String) (result : Except TransferError String)

namespace StartSession

def request (offer : Offer) (deviceId deviceName : String) : SessionRequestPayload :=
  { sessionId := offer.sessionId, sourceDeviceId := deviceId, sourceDeviceName := deviceName,
    files := offer.files, protocolVersion := "1.0.0" }

def upload (offer : Offer) (accept : SessionAcceptPayload) : Upload :=
  { sessionId := offer.sessionId, files := offer.files, acceptedFileIds := accept.acceptedFileIds,
    resumeOffsets := accept.resumeOffsets }

def access : StartSession → Choice → Access
  | .create offer, _ =>
    .session (.create offer.sessionId offer.peerId offer.peerName .upload offer.files)
  | .negotiate offer, _ => .session (.updateState offer.sessionId .negotiating none)
  | .openChannel offer, _ => .openSessionChannel offer.sessionId
  | .announceStarted offer, _ =>
    .emit (.sessionStarted offer.sessionId offer.peerId offer.peerName (offer.files.map FileMeta.name))
  | .identify _, _ => .readIdentity
  | .write offer deviceId deviceName, .proceed => .write (.request (request offer deviceId deviceName))
  | .activate offer _, _ => .session (.updateState offer.sessionId .active none)
  | .announceActive offer _, _ => .emit (.sessionActive offer.sessionId)
  | .fail offer error _, _ => .session (.updateState offer.sessionId .failed (some error))
  | .announceFailed offer error _, _ => .emit (.sessionFailed offer.sessionId error)
  | _, _ => .idle

/-- The reply of the peer; a message that is neither Accept nor Reject is an error. -/
def receive (offer : Offer) : SessionMsgType → Payload → Option StartSession
  | .accept, .accept payload => some (.activate offer payload)
  | .accept, .malformed error =>
    some (.returned offer.sessionId (.error (.internal ("failed to parse accept payload: " ++ error))))
  | .accept, _ => none
  | .reject, .reject payload => some (.fail offer payload.reason (.ok offer.sessionId))
  | .reject, .malformed error =>
    some (.returned offer.sessionId (.error (.internal ("failed to parse reject payload: " ++ error))))
  | .reject, _ => none
  | other, _ =>
    let errMsg := "unexpected response message: " ++ debugName other
    some (.fail offer errMsg (.error (.networkUnstable errMsg)))

def resume : StartSession → Reply → Choice → Option StartSession
  | .findPeer sessionId _ _, .done, .peer none =>
    some (.returned sessionId (.error (.peerUnreachable "peer not found")))
  | .findPeer sessionId peerId files, .done, .peer (some peer) =>
    some (.create { sessionId, peerId, peerName := peer.name, address := peer.address, files })
  | .create offer, .done, .proceed => some (.negotiate offer)
  | .negotiate offer, .updated _, .proceed => some (.openChannel offer)
  | .openChannel offer, .done, .proceed => some (.announceStarted offer)
  | .announceStarted offer, .done, .proceed =>
    match parseAddr offer.address with
    | .ok _ => some (.connect offer)
    | .error error => some (.returned offer.sessionId (.error (.peerUnreachable error)))
  | .connect offer, .done, .proceed => some (.identify offer)
  | .connect offer, .done, .failure error =>
    some (.returned offer.sessionId (.error (.peerUnreachable ("failed to connect: " ++ error))))
  | .identify offer, .identity deviceId deviceName, .proceed => some (.write offer deviceId deviceName)
  -- `serde_json::to_vec` refuses a source path that is not UTF-8.
  | .identify offer, .identity _ _, .failure error =>
    some (.returned offer.sessionId (.error (.internal error)))
  | .write offer _ _, .done, .proceed => some (.read offer)
  | .write offer _ _, .done, .failure error =>
    some (.returned offer.sessionId
      (.error (.networkUnstable ("failed to write session request: " ++ error))))
  | .read offer, .done, .failure error =>
    some (.returned offer.sessionId (.error (.networkUnstable ("failed to read response: " ++ error))))
  | .read offer, .done, .message msgType payload => receive offer msgType payload
  | .activate offer accept, .updated _, .proceed => some (.announceActive offer accept)
  | .announceActive offer accept, .done, .proceed => some (.spawn offer accept)
  | .spawn offer _, .done, .proceed => some (.returned offer.sessionId (.ok offer.sessionId))
  | .fail offer error result, .updated _, .proceed => some (.announceFailed offer error result)
  | .announceFailed offer _ result, .done, .proceed => some (.returned offer.sessionId result)
  | _, _, _ => none

end StartSession

inductive IncomingSession where
  | read
  | create (request : SessionRequestPayload)
  | register (request : SessionRequestPayload)
  | openChannel (request : SessionRequestPayload)
  | announceRequested (request : SessionRequestPayload)
  | wait (request : SessionRequestPayload)
  | write (request : SessionRequestPayload) (decision : Decision)
  | record (request : SessionRequestPayload) (decision : Decision)
  | announce (request : SessionRequestPayload) (decision : Decision)
  | cleanup (request : SessionRequestPayload)
  | returned (sessionId : Option String) (result : Except String Unit)

namespace IncomingSession

def answer (sessionId : String) : Decision → SessionMessage
  | .accept payload => .accept payload
  | .reject reason => .reject { sessionId, reason }

def access : IncomingSession → Choice → Access
  | .create request, _ =>
    .session (.create request.sessionId request.sourceDeviceId request.sourceDeviceName
      .download request.files)
  | .register request, _ => .insertResponder request.sessionId
  | .openChannel request, _ => .openSessionChannel request.sessionId
  | .announceRequested request, _ =>
    .emit (.sessionRequested request.sessionId request.sourceDeviceId request.sourceDeviceName
      (request.files.map FileMeta.name))
  | .wait _, .proceed => .receive
  | .wait _, .timeout => .expire
  | .write request decision, .proceed => .write (answer request.sessionId decision)
  | .record request decision, _ =>
    .session (.updateState request.sessionId decision.verdict.state decision.verdict.error)
  | .announce request decision, _ => .emit (decision.verdict.event request.sessionId)
  | .cleanup request, _ => .removeResponder request.sessionId
  | _, _ => .idle

def resume : IncomingSession → Reply → Choice → Option IncomingSession
  | .read, .done, .failure error => some (.returned none (.error error))
  | .read, .done, .message .request (.request payload) => some (.create payload)
  | .read, .done, .message .request (.malformed error) => some (.returned none (.error error))
  | .read, .done, .message .request _ => none
  | .read, .done, .message other _ =>
    some (.returned none (.error ("Invalid message type (expected Request): " ++ debugName other)))
  | .create request, .done, .proceed => some (.register request)
  | .register request, .done, .proceed => some (.openChannel request)
  | .openChannel request, .done, .proceed => some (.announceRequested request)
  | .announceRequested request, .done, .proceed => some (.wait request)
  | .wait request, .decision (.sent decision), .proceed => some (.write request decision)
  | .wait request, .decision .dropped, .proceed =>
    some (.write request (.reject "rejected (internal error)"))
  | .wait request, .done, .timeout => some (.write request (.reject "timeout waiting for approval"))
  | .write request decision, .done, .proceed => some (.record request decision)
  | .write request _, .done, .failure error => some (.returned (some request.sessionId) (.error error))
  | .record request decision, .updated _, .proceed => some (.announce request decision)
  | .announce request _, .done, .proceed => some (.cleanup request)
  | .cleanup request, .done, .proceed => some (.returned (some request.sessionId) (.ok ()))
  | _, _, _ => none

end IncomingSession

structure Response where
  sessionId : String
  request : Nat
  verdict : Verdict

inductive RespondSession where
  | lock (response : Response)
  | identify (response : Response) (connection : Nat)
  | send (response : Response) (connection : Nat) (decision : Decision)
  | record (response : Response)
  | announce (response : Response)
  | unlock (response : Response)
  | returned (response : Response)

namespace RespondSession

def acceptPayload (sessionId deviceId deviceName : String) : SessionAcceptPayload :=
  { sessionId, targetDeviceId := deviceId, targetDeviceName := deviceName, acceptedFileIds := [],
    resumeOffsets := ∅ }

def access : RespondSession → Choice → Access
  | .lock response, _ => .takeResponder response.sessionId
  | .identify _ _, _ => .readIdentity
  | .send _ connection decision, _ => .send connection decision
  | .record response, _ =>
    .session (.updateState response.sessionId response.verdict.state response.verdict.error)
  | .announce response, _ => .emit (response.verdict.event response.sessionId)
  | .unlock _, _ => .unlockResponders
  | .returned _, _ => .idle

def resume : RespondSession → Reply → Choice → Option RespondSession
  | .lock response, .responder none, .proceed => some (.record response)
  | .lock response, .responder (some connection), .proceed =>
    match response.verdict with
    | .accept => some (.identify response connection)
    | .reject reason => some (.send response connection (.reject reason))
  | .identify response connection, .identity deviceId deviceName, .proceed =>
    some (.send response connection (.accept (acceptPayload response.sessionId deviceId deviceName)))
  | .send response _ _, .done, .proceed => some (.record response)
  | .record response, .updated _, .proceed => some (.announce response)
  | .announce response, .done, .proceed => some (.unlock response)
  | .unlock response, .done, .proceed => some (.returned response)
  | _, _, _ => none

end RespondSession

def acceptSession (sessionId : String) (request : Nat) : RespondSession :=
  .lock { sessionId, request, verdict := .accept }

def rejectSession (sessionId : String) (request : Nat) (reason : String) : RespondSession :=
  .lock { sessionId, request, verdict := .reject reason }

inductive CancelSession where
  | cancel (sessionId reason : String)
  | record (sessionId reason : String)
  | announce (sessionId reason : String)
  | returned (sessionId : String)

namespace CancelSession

def access : CancelSession → Choice → Access
  | .cancel sessionId reason, _ => .cancelToken sessionId reason
  | .record sessionId reason, _ => .session (.updateState sessionId .cancelled (some reason))
  | .announce sessionId reason, _ => .emit (.sessionCancelled sessionId reason)
  | .returned _, _ => .idle

def resume : CancelSession → Reply → Choice → Option CancelSession
  | .cancel sessionId reason, .done, .proceed => some (.record sessionId reason)
  | .record sessionId reason, .updated _, .proceed => some (.announce sessionId reason)
  | .announce sessionId _, .done, .proceed => some (.returned sessionId)
  | _, _, _ => none

end CancelSession

inductive SessionEventStream where
  | openChannel (sessionId : String)
  | returned (sessionId : String)

namespace SessionEventStream

def access : SessionEventStream → Choice → Access
  | .openChannel sessionId, _ => .openSessionChannel sessionId
  | .returned _, _ => .idle

def resume : SessionEventStream → Reply → Choice → Option SessionEventStream
  | .openChannel sessionId, .done, .proceed => some (.returned sessionId)
  | _, _, _ => none

end SessionEventStream

inductive EngineStart where
  | create (sessionId peerId : String) (direction : TransferDirection)
  | activate (sessionId : String)
  | lock (sessionId : String)
  | upload (sessionId : String)
  | uploading (sessionId : String)
  | unlock (sessionId : String) (outcome : Except TransferError TransferProgress)
  | updateProgress (sessionId : String) (progress : TransferProgress)
  | complete (sessionId : String) (progress : TransferProgress)
  | returned (sessionId : String) (result : Except TransferError TransferProgress)

namespace EngineStart

def directionName : TransferDirection → String
  | .upload => "Upload"
  | .download => "Download"

def access : EngineStart → Choice → Access
  | .create sessionId peerId direction, _ =>
    .session (.create sessionId peerId (directionName direction) direction [])
  | .activate sessionId, _ => .session (.updateState sessionId .active none)
  | .lock _, _ => .lockEngine
  | .upload sessionId, _ => .beginUpload sessionId sessionId none
  | .uploading _, _ => .idle
  | .unlock _ _, _ => .unlockEngine
  | .updateProgress sessionId progress, _ => .session (.updateProgress sessionId progress)
  | .complete sessionId _, _ => .session (.updateState sessionId .completed none)
  | .returned _ _, _ => .idle

def resume : EngineStart → Reply → Choice → Option EngineStart
  | .create sessionId _ _, .done, .proceed => some (.activate sessionId)
  | .activate sessionId, .updated _, .proceed => some (.lock sessionId)
  | .lock sessionId, .done, .proceed => some (.upload sessionId)
  | .upload sessionId, .done, .proceed => some (.uploading sessionId)
  | .uploading sessionId, .done, .uploaded progress => some (.unlock sessionId (.ok progress))
  | .uploading sessionId, .done, .failure error => some (.unlock sessionId (.error (.fromAnyhow error)))
  | .unlock sessionId (.ok progress), .done, .proceed => some (.updateProgress sessionId progress)
  | .unlock sessionId (.error error), .done, .proceed => some (.returned sessionId (.error error))
  | .updateProgress sessionId progress, .done, .proceed => some (.complete sessionId progress)
  | .complete sessionId progress, .updated _, .proceed => some (.returned sessionId (.ok progress))
  | _, _, _ => none

end EngineStart

structure Transfer where
  sessionId : String
  peerAddr : String
  source : String
  fileName : String
  totalBytes : UInt64
  resumeOffset : Option UInt64

inductive StartTransfer where
  | insertToken (transfer : Transfer)
  | openChannel (transfer : Transfer)
  | create (transfer : Transfer)
  | insertStatus (transfer : Transfer)
  | insertModel (transfer : Transfer)
  | announceStarted (transfer : Transfer)
  | handshake (transfer : Transfer)
  | setRemoteCaps (transfer : Transfer) (capsJson : String)
  | negotiate (transfer : Transfer)
  | activate (transfer : Transfer)
  | engine (transfer : Transfer) (run : EngineRun)
  | report (transfer : Transfer) (progress : TransferProgress)
  | updateProgress (transfer : Transfer) (progress : TransferProgress)
  | complete (transfer : Transfer) (progress : TransferProgress)
  | setCompleted (transfer : Transfer) (progress : TransferProgress)
  | setModelCompleted (transfer : Transfer) (progress : TransferProgress)
  | announceCompleted (transfer : Transfer) (progress : TransferProgress)
  | announceError (transfer : Transfer) (error : TransferError)
  | recordError (transfer : Transfer) (error : TransferError)
  | setFailed (transfer : Transfer) (error : TransferError)
  | setModelFailed (transfer : Transfer) (error : TransferError)
  | returned (sessionId : String) (result : Except TransferError String)

namespace StartTransfer

def model (transfer : Transfer) : TransferModel :=
  { id := transfer.sessionId, files := [transfer.source],
    totalBytes := transfer.totalBytes, sentBytes := 0,
    status := .running, peerId := transfer.peerAddr, peerName := transfer.peerAddr,
      direction := .upload }

def errorState (error : TransferError) : SessionState :=
  if error.kind = .cancelled then .cancelled else .failed

def errorEvent (transfer : Transfer) (error : TransferError) : TransferEvent :=
  if error.kind = .cancelled then .cancelled transfer.sessionId error.message
  else .failed transfer.sessionId error.message

def access : StartTransfer → Choice → Access
  | .insertToken transfer, _ => .insertToken transfer.sessionId
  | .openChannel transfer, _ => .openEventChannel transfer.sessionId
  | .create transfer, _ =>
    .session (.create transfer.sessionId transfer.peerAddr transfer.fileName .upload [])
  | .insertStatus transfer, _ => .insertStatus transfer.sessionId .running
  | .insertModel transfer, _ => .insertModel (model transfer)
  | .announceStarted transfer, _ =>
    .emitEvent (.started transfer.sessionId transfer.source transfer.totalBytes)
  | .handshake _, _ => .idle
  | .setRemoteCaps transfer capsJson, _ => .session (.setRemoteCaps transfer.sessionId capsJson)
  | .negotiate transfer, _ => .session (.updateState transfer.sessionId .negotiating none)
  | .activate transfer, _ => .session (.updateState transfer.sessionId .active none)
  | .engine transfer run, _ =>
    run.access (.beginUpload transfer.sessionId transfer.sessionId transfer.resumeOffset)
  | .report transfer progress, _ =>
    .emitEvent (.progress transfer.sessionId progress.bytesSent progress.bytesTotal)
  | .updateProgress transfer progress, _ => .session (.updateProgress transfer.sessionId progress)
  | .complete transfer _, _ => .session (.updateState transfer.sessionId .completed none)
  | .setCompleted transfer _, _ => .insertStatus transfer.sessionId .completed
  | .setModelCompleted transfer _, _ => .setModelStatus transfer.sessionId .completed
  | .announceCompleted transfer progress, _ =>
    .emitEvent (.completed transfer.sessionId progress.bytesTotal)
  | .announceError transfer error, _ => .emitEvent (errorEvent transfer error)
  | .recordError transfer error, _ =>
    .session (.updateState transfer.sessionId (errorState error) (some error.message))
  | .setFailed transfer error, _ => .insertStatus transfer.sessionId (.failed error.message)
  | .setModelFailed transfer error, _ => .setModelStatus transfer.sessionId (.failed error.message)
  | .returned _ _, _ => .idle

/-- A failed address or handshake returns at once, through `?`. -/
def resume : StartTransfer → Reply → Choice → Option StartTransfer
  | .insertToken transfer, .done, .proceed => some (.openChannel transfer)
  | .openChannel transfer, .done, .proceed => some (.create transfer)
  | .create transfer, .done, .proceed => some (.insertStatus transfer)
  | .insertStatus transfer, .done, .proceed => some (.insertModel transfer)
  | .insertModel transfer, .done, .proceed => some (.announceStarted transfer)
  | .announceStarted transfer, .done, .proceed =>
    match parseAddr transfer.peerAddr with
    | .ok _ => some (.handshake transfer)
    | .error error => some (.returned transfer.sessionId (.error (.internal error)))
  | .handshake transfer, .done, .failure error =>
    some (.returned transfer.sessionId (.error (.fromAnyhow error)))
  | .handshake transfer, .done, .capabilities capsJson => some (.setRemoteCaps transfer capsJson)
  | .setRemoteCaps transfer _, .done, .proceed => some (.negotiate transfer)
  | .negotiate transfer, .updated _, .proceed => some (.activate transfer)
  | .activate transfer, .updated _, .proceed => some (.engine transfer .check)
  | .engine transfer run, reply, choice =>
    (run.resume reply choice).map fun
      | .inl run => .engine transfer run
      | .inr (.ok progress) => .report transfer progress
      | .inr (.error error) => .announceError transfer error
  | .report transfer progress, .done, .proceed => some (.updateProgress transfer progress)
  | .updateProgress transfer progress, .done, .proceed => some (.complete transfer progress)
  | .complete transfer progress, .updated _, .proceed => some (.setCompleted transfer progress)
  | .setCompleted transfer progress, .done, .proceed => some (.setModelCompleted transfer progress)
  | .setModelCompleted transfer progress, .done, .proceed => some (.announceCompleted transfer progress)
  | .announceCompleted transfer _, .done, .proceed =>
    some (.returned transfer.sessionId (.ok transfer.sessionId))
  | .announceError transfer error, .done, .proceed => some (.recordError transfer error)
  | .recordError transfer error, .updated _, .proceed => some (.setFailed transfer error)
  | .setFailed transfer error, .done, .proceed => some (.setModelFailed transfer error)
  | .setModelFailed transfer error, .done, .proceed => some (.returned transfer.sessionId (.error error))
  | _, _, _ => none

end StartTransfer

end DistributedOs.Coordinator
