import DistributedOs.Coordinator.Procedures

/-! The moves of each procedure, one by one: from which point, on which reply and which choice
of the environment, it goes where. What a turn preserves is proved move by move. -/

namespace DistributedOs.Coordinator

open DistributedOs.Session DistributedOs.Transfer

variable {reply : Reply} {choice : Choice}

namespace UploadFiles

inductive Moves : UploadFiles → Reply → Choice → UploadFiles → Prop where
  | register (upload : Upload) (moved : UploadFiles) (first : moved = next upload upload.files) :
    Moves (.register upload) .done .proceed moved
  | engine (upload : Upload) (file : FileMeta) (remaining : List FileMeta)
    (run later : EngineRun) (reply : Reply)
      (choice : Choice) (ran : run.resume reply choice = some (.inl later)) :
    Moves (.engine upload file remaining run) reply choice (.engine upload file remaining later)
  | uploaded (upload : Upload) (file : FileMeta) (remaining : List FileMeta) (run : EngineRun)
    (progress : TransferProgress)
      (reply : Reply) (choice : Choice) (ran : run.resume reply choice = some (.inr (.ok progress))) :
    Moves (.engine upload file remaining run) reply choice
      (.recordFile upload file remaining (some progress.bytesSent))
  | failed (upload : Upload) (file : FileMeta) (remaining : List FileMeta) (run : EngineRun)
    (error : TransferError)
      (reply : Reply) (choice : Choice) (ran : run.resume reply choice = some (.inr (.error error))) :
    Moves (.engine upload file remaining run) reply choice (.describe upload)
  | forward (upload : Upload) (file : FileMeta) (remaining : List FileMeta) (bytesSent : UInt64) :
    Moves (.recordFile upload file remaining (some bytesSent)) .done .forwarded
      (.recordFile upload file remaining none)
  | recordFile (upload : Upload) (file : FileMeta) (remaining : List FileMeta) (reported : Option UInt64)
      (moved : UploadFiles) (later : moved = next upload remaining) :
    Moves (.recordFile upload file remaining reported) .done .proceed moved
  | decide (upload : Upload) : Moves (.decide upload) (.token none) .proceed (.complete upload)
  | interrupt (upload : Upload) (reason : String) :
    Moves (.decide upload) (.token (some reason)) .proceed (.describe upload)
  | complete (upload : Upload) (admitted : Bool) :
    Moves (.complete upload) (.updated admitted) .proceed (.announceCompleted upload)
  | announceCompleted (upload : Upload) :
    Moves (.announceCompleted upload) .done .proceed (.unregister upload)
  | describe (upload : Upload) :
    Moves (.describe upload) (.token none) .proceed (.classify upload "transfer failed")
  | describeCancelled (upload : Upload) (reason : String) :
    Moves (.describe upload) (.token (some reason)) .proceed (.classify upload "cancelled")
  | classify (upload : Upload) (errMsg : String) :
    Moves (.classify upload errMsg) (.token none) .proceed (.fail upload .failed errMsg)
  | classifyCancelled (upload : Upload) (errMsg reason : String) :
    Moves (.classify upload errMsg) (.token (some reason)) .proceed (.fail upload .cancelled errMsg)
  | fail (upload : Upload) (state : SessionState) (errMsg : String) (admitted : Bool) :
    Moves (.fail upload state errMsg) (.updated admitted) .proceed (.announceFailed upload errMsg)
  | announceFailed (upload : Upload) (errMsg : String) :
    Moves (.announceFailed upload errMsg) .done .proceed (.unregister upload)
  | unregister (upload : Upload) : Moves (.unregister upload) .done .proceed (.returned upload)

theorem moves_of_resume {point next : UploadFiles} (resumed : point.resume reply choice = some next) :
    Moves point reply choice next := by
  unfold resume at resumed
  split at resumed
  case h_1 upload => exact .register upload next (Option.some.inj resumed).symm
  case h_2 upload file remaining run =>
    obtain ⟨outcome, ran, same⟩ := Option.map_eq_some_iff.mp resumed
    cases outcome with
    | inl later =>
      cases same
      exact .engine upload file remaining run later reply choice ran
    | inr result =>
      cases result with
      | ok progress =>
        cases same
        exact .uploaded upload file remaining run progress reply choice ran
      | error error =>
        cases same
        exact .failed upload file remaining run error reply choice ran
  case h_4 upload file remaining reported =>
    exact .recordFile upload file remaining reported next (Option.some.inj resumed).symm
  case h_16 => cases resumed
  all_goals
    cases resumed
    constructor

end UploadFiles

namespace StartSession

inductive Moves : StartSession → Reply → Choice → StartSession → Prop where
  | missing (sessionId peerId : String) (files : List FileMeta) :
    Moves (.findPeer sessionId peerId files) .done (.peer none)
      (.returned sessionId (.error (.peerUnreachable "peer not found")))
  | findPeer (sessionId peerId : String) (files : List FileMeta) (peer : PeerInfo) :
    Moves (.findPeer sessionId peerId files) .done (.peer (some peer))
      (.create { sessionId, peerId, peerName := peer.name, address := peer.address, files })
  | create (offer : Offer) : Moves (.create offer) .done .proceed (.negotiate offer)
  | negotiate (offer : Offer) (admitted : Bool) :
    Moves (.negotiate offer) (.updated admitted) .proceed (.openChannel offer)
  | openChannel (offer : Offer) : Moves (.openChannel offer) .done .proceed (.announceStarted offer)
  | announceStarted (offer : Offer) (address : String × Nat)
    (parsed : parseAddr offer.address = .ok address) :
    Moves (.announceStarted offer) .done .proceed (.connect offer)
  | misaddressed (offer : Offer) (error : String) (parsed : parseAddr offer.address = .error error) :
    Moves (.announceStarted offer) .done .proceed
      (.returned offer.sessionId (.error (.peerUnreachable error)))
  | connect (offer : Offer) : Moves (.connect offer) .done .proceed (.identify offer)
  | unconnected (offer : Offer) (error : String) :
    Moves (.connect offer) .done (.failure error)
      (.returned offer.sessionId (.error (.peerUnreachable ("failed to connect: " ++ error))))
  | identify (offer : Offer) (deviceId deviceName : String) :
    Moves (.identify offer) (.identity deviceId deviceName) .proceed (.write offer deviceId deviceName)
  | unencoded (offer : Offer) (deviceId deviceName error : String) :
    Moves (.identify offer) (.identity deviceId deviceName) (.failure error)
      (.returned offer.sessionId (.error (.internal error)))
  | write (offer : Offer) (deviceId deviceName : String) :
    Moves (.write offer deviceId deviceName) .done .proceed (.read offer)
  | unwritten (offer : Offer) (deviceId deviceName error : String) :
    Moves (.write offer deviceId deviceName) .done (.failure error)
      (.returned offer.sessionId
        (.error (.networkUnstable ("failed to write session request: " ++ error))))
  | unread (offer : Offer) (error : String) :
    Moves (.read offer) .done (.failure error)
      (.returned offer.sessionId (.error (.networkUnstable ("failed to read response: " ++ error))))
  | accepted (offer : Offer) (payload : SessionAcceptPayload) :
    Moves (.read offer) .done (.message .accept (.accept payload)) (.activate offer payload)
  | rejected (offer : Offer) (payload : SessionRejectPayload) :
    Moves (.read offer) .done (.message .reject (.reject payload))
      (.fail offer payload.reason (.ok offer.sessionId))
  | malformedAccept (offer : Offer) (error : String) :
    Moves (.read offer) .done (.message .accept (.malformed error))
      (.returned offer.sessionId (.error (.internal ("failed to parse accept payload: " ++ error))))
  | malformedReject (offer : Offer) (error : String) :
    Moves (.read offer) .done (.message .reject (.malformed error))
      (.returned offer.sessionId (.error (.internal ("failed to parse reject payload: " ++ error))))
  | unexpected (offer : Offer) (msgType : SessionMsgType) (payload : Payload) (errMsg : String)
      (neither : msgType ≠ .accept ∧ msgType ≠ .reject)
      (described : errMsg = "unexpected response message: " ++ debugName msgType) :
    Moves (.read offer) .done (.message msgType payload)
      (.fail offer errMsg (.error (.networkUnstable errMsg)))
  | activate (offer : Offer) (accept : SessionAcceptPayload) (admitted : Bool) :
    Moves (.activate offer accept) (.updated admitted) .proceed (.announceActive offer accept)
  | announceActive (offer : Offer) (accept : SessionAcceptPayload) :
    Moves (.announceActive offer accept) .done .proceed (.spawn offer accept)
  | spawn (offer : Offer) (accept : SessionAcceptPayload) :
    Moves (.spawn offer accept) .done .proceed (.returned offer.sessionId (.ok offer.sessionId))
  | fail (offer : Offer) (error : String) (result : Except TransferError String) (admitted : Bool) :
    Moves (.fail offer error result) (.updated admitted) .proceed (.announceFailed offer error result)
  | announceFailed (offer : Offer) (error : String) (result : Except TransferError String) :
    Moves (.announceFailed offer error result) .done .proceed (.returned offer.sessionId result)

theorem moves_of_resume {point next : StartSession}
    (resumed : point.resume reply choice = some next) :
    Moves point reply choice next := by
  unfold resume at resumed
  split at resumed
  case h_6 offer =>
    split at resumed <;> cases resumed
    · rename_i address parsed
      exact .announceStarted offer address parsed
    · rename_i error parsed
      exact .misaddressed offer error parsed
  case h_14 offer msgType payload =>
    unfold receive at resumed
    split at resumed <;> cases resumed
    case h_7 notAccept notReject => exact .unexpected offer msgType payload _ (by simp_all) rfl
    all_goals constructor
  case h_20 => cases resumed
  all_goals
    cases resumed
    constructor

end StartSession

namespace IncomingSession

inductive Moves : IncomingSession → Reply → Choice → IncomingSession → Prop where
  | unread (error : String) : Moves .read .done (.failure error) (.returned none (.error error))
  | read (payload : SessionRequestPayload) :
    Moves .read .done (.message .request (.request payload)) (.create payload)
  | malformed (error : String) :
    Moves .read .done (.message .request (.malformed error)) (.returned none (.error error))
  | unexpected (msgType : SessionMsgType) (payload : Payload) (other : msgType ≠ .request) :
    Moves .read .done (.message msgType payload)
      (.returned none (.error ("Invalid message type (expected Request): " ++ debugName msgType)))
  | create (request : SessionRequestPayload) : Moves (.create request) .done .proceed (.register request)
  | register (request : SessionRequestPayload) :
    Moves (.register request) .done .proceed (.openChannel request)
  | openChannel (request : SessionRequestPayload) :
    Moves (.openChannel request) .done .proceed (.announceRequested request)
  | announceRequested (request : SessionRequestPayload) :
    Moves (.announceRequested request) .done .proceed (.wait request)
  | decided (request : SessionRequestPayload) (decision : Decision) :
    Moves (.wait request) (.decision (.sent decision)) .proceed (.write request decision)
  | dropped (request : SessionRequestPayload) :
    Moves (.wait request) (.decision .dropped) .proceed
      (.write request (.reject "rejected (internal error)"))
  | timedOut (request : SessionRequestPayload) :
    Moves (.wait request) .done .timeout (.write request (.reject "timeout waiting for approval"))
  | write (request : SessionRequestPayload) (decision : Decision) :
    Moves (.write request decision) .done .proceed (.record request decision)
  | unwritten (request : SessionRequestPayload) (decision : Decision) (error : String) :
    Moves (.write request decision) .done (.failure error)
      (.returned (some request.sessionId) (.error error))
  | record (request : SessionRequestPayload) (decision : Decision) (admitted : Bool) :
    Moves (.record request decision) (.updated admitted) .proceed (.announce request decision)
  | announce (request : SessionRequestPayload) (decision : Decision) :
    Moves (.announce request decision) .done .proceed (.cleanup request)
  | cleanup (request : SessionRequestPayload) :
    Moves (.cleanup request) .done .proceed (.returned (some request.sessionId) (.ok ()))

theorem moves_of_resume {point next : IncomingSession}
    (resumed : point.resume reply choice = some next) :
    Moves point reply choice next := by
  unfold resume at resumed
  split at resumed
  case h_4 | h_18 => cases resumed
  case h_5 other =>
    cases resumed
    exact .unexpected _ _ other
  all_goals
    cases resumed
    constructor

end IncomingSession

namespace RespondSession

inductive Moves : RespondSession → Reply → Choice → RespondSession → Prop where
  | unclaimed (response : Response) :
    Moves (.lock response) (.responder none) .proceed (.record response)
  | accept (response : Response) (connection : Nat) (accepts : response.verdict = .accept) :
    Moves (.lock response) (.responder (some connection)) .proceed (.identify response connection)
  | reject (response : Response) (connection : Nat) (reason : String)
    (rejects : response.verdict = .reject reason) :
    Moves (.lock response) (.responder (some connection)) .proceed
      (.send response connection (.reject reason))
  | identify (response : Response) (connection : Nat) (deviceId deviceName : String) :
    Moves (.identify response connection) (.identity deviceId deviceName) .proceed
      (.send response connection (.accept (acceptPayload response.sessionId deviceId deviceName)))
  | send (response : Response) (connection : Nat) (decision : Decision) :
    Moves (.send response connection decision) .done .proceed (.record response)
  | record (response : Response) (admitted : Bool) :
    Moves (.record response) (.updated admitted) .proceed (.announce response)
  | announce (response : Response) : Moves (.announce response) .done .proceed (.unlock response)
  | unlock (response : Response) : Moves (.unlock response) .done .proceed (.returned response)

theorem moves_of_resume {point next : RespondSession}
    (resumed : point.resume reply choice = some next) :
    Moves point reply choice next := by
  unfold resume at resumed
  split at resumed
  case h_2 response connection =>
    split at resumed <;> cases resumed
    · rename_i accepts
      exact .accept response connection accepts
    · rename_i reason rejects
      exact .reject response connection reason rejects
  case h_8 => cases resumed
  all_goals
    cases resumed
    constructor

end RespondSession

namespace CancelSession

inductive Moves : CancelSession → Reply → Choice → CancelSession → Prop where
  | cancel (sessionId reason : String) :
    Moves (.cancel sessionId reason) .done .proceed (.record sessionId reason)
  | record (sessionId reason : String) (admitted : Bool) :
    Moves (.record sessionId reason) (.updated admitted) .proceed (.announce sessionId reason)
  | announce (sessionId reason : String) :
    Moves (.announce sessionId reason) .done .proceed (.returned sessionId)

theorem moves_of_resume {point next : CancelSession}
    (resumed : point.resume reply choice = some next) :
    Moves point reply choice next := by
  unfold resume at resumed
  split at resumed <;> cases resumed <;> constructor

end CancelSession

namespace EngineStart

inductive Moves : EngineStart → Reply → Choice → EngineStart → Prop where
  | create (sessionId peerId : String) (direction : TransferDirection) :
    Moves (.create sessionId peerId direction) .done .proceed (.activate sessionId)
  | activate (sessionId : String) (admitted : Bool) :
    Moves (.activate sessionId) (.updated admitted) .proceed (.lock sessionId)
  | lock (sessionId : String) : Moves (.lock sessionId) .done .proceed (.upload sessionId)
  | upload (sessionId : String) : Moves (.upload sessionId) .done .proceed (.uploading sessionId)
  | uploaded (sessionId : String) (progress : TransferProgress) :
    Moves (.uploading sessionId) .done (.uploaded progress) (.unlock sessionId (.ok progress))
  | failed (sessionId error : String) :
    Moves (.uploading sessionId) .done (.failure error) (.unlock sessionId (.error (.fromAnyhow error)))
  | unlock (sessionId : String) (progress : TransferProgress) :
    Moves (.unlock sessionId (.ok progress)) .done .proceed (.updateProgress sessionId progress)
  | abandon (sessionId : String) (error : TransferError) :
    Moves (.unlock sessionId (.error error)) .done .proceed (.returned sessionId (.error error))
  | updateProgress (sessionId : String) (progress : TransferProgress) :
    Moves (.updateProgress sessionId progress) .done .proceed (.complete sessionId progress)
  | complete (sessionId : String) (progress : TransferProgress) (admitted : Bool) :
    Moves (.complete sessionId progress) (.updated admitted) .proceed
      (.returned sessionId (.ok progress))

theorem moves_of_resume {point next : EngineStart}
    (resumed : point.resume reply choice = some next) :
    Moves point reply choice next := by
  unfold resume at resumed
  split at resumed <;> cases resumed <;> constructor

end EngineStart

namespace StartTransfer

inductive Moves : StartTransfer → Reply → Choice → StartTransfer → Prop where
  | insertToken (transfer : Transfer) :
    Moves (.insertToken transfer) .done .proceed (.openChannel transfer)
  | openChannel (transfer : Transfer) : Moves (.openChannel transfer) .done .proceed (.create transfer)
  | create (transfer : Transfer) : Moves (.create transfer) .done .proceed (.insertStatus transfer)
  | insertStatus (transfer : Transfer) :
    Moves (.insertStatus transfer) .done .proceed (.insertModel transfer)
  | insertModel (transfer : Transfer) :
    Moves (.insertModel transfer) .done .proceed (.announceStarted transfer)
  | announceStarted (transfer : Transfer) (address : String × Nat)
    (parsed : parseAddr transfer.peerAddr = .ok address) :
    Moves (.announceStarted transfer) .done .proceed (.handshake transfer)
  | misaddressed (transfer : Transfer) (error : String)
    (parsed : parseAddr transfer.peerAddr = .error error) :
    Moves (.announceStarted transfer) .done .proceed
      (.returned transfer.sessionId (.error (.internal error)))
  | refused (transfer : Transfer) (error : String) :
    Moves (.handshake transfer) .done (.failure error)
      (.returned transfer.sessionId (.error (.fromAnyhow error)))
  | handshake (transfer : Transfer) (capsJson : String) :
    Moves (.handshake transfer) .done (.capabilities capsJson) (.setRemoteCaps transfer capsJson)
  | setRemoteCaps (transfer : Transfer) (capsJson : String) :
    Moves (.setRemoteCaps transfer capsJson) .done .proceed (.negotiate transfer)
  | negotiate (transfer : Transfer) (admitted : Bool) :
    Moves (.negotiate transfer) (.updated admitted) .proceed (.activate transfer)
  | activate (transfer : Transfer) (admitted : Bool) :
    Moves (.activate transfer) (.updated admitted) .proceed (.engine transfer .check)
  | engine (transfer : Transfer) (run later : EngineRun) (reply : Reply) (choice : Choice)
      (ran : run.resume reply choice = some (.inl later)) :
    Moves (.engine transfer run) reply choice (.engine transfer later)
  | uploaded (transfer : Transfer) (run : EngineRun) (progress : TransferProgress) (reply : Reply)
    (choice : Choice)
      (ran : run.resume reply choice = some (.inr (.ok progress))) :
    Moves (.engine transfer run) reply choice (.report transfer progress)
  | failed (transfer : Transfer) (run : EngineRun) (error : TransferError) (reply : Reply)
    (choice : Choice)
      (ran : run.resume reply choice = some (.inr (.error error))) :
    Moves (.engine transfer run) reply choice (.announceError transfer error)
  | report (transfer : Transfer) (progress : TransferProgress) :
    Moves (.report transfer progress) .done .proceed (.updateProgress transfer progress)
  | updateProgress (transfer : Transfer) (progress : TransferProgress) :
    Moves (.updateProgress transfer progress) .done .proceed (.complete transfer progress)
  | complete (transfer : Transfer) (progress : TransferProgress) (admitted : Bool) :
    Moves (.complete transfer progress) (.updated admitted) .proceed (.setCompleted transfer progress)
  | setCompleted (transfer : Transfer) (progress : TransferProgress) :
    Moves (.setCompleted transfer progress) .done .proceed (.setModelCompleted transfer progress)
  | setModelCompleted (transfer : Transfer) (progress : TransferProgress) :
    Moves (.setModelCompleted transfer progress) .done .proceed (.announceCompleted transfer progress)
  | announceCompleted (transfer : Transfer) (progress : TransferProgress) :
    Moves (.announceCompleted transfer progress) .done .proceed
      (.returned transfer.sessionId (.ok transfer.sessionId))
  | announceError (transfer : Transfer) (error : TransferError) :
    Moves (.announceError transfer error) .done .proceed (.recordError transfer error)
  | recordError (transfer : Transfer) (error : TransferError) (admitted : Bool) :
    Moves (.recordError transfer error) (.updated admitted) .proceed (.setFailed transfer error)
  | setFailed (transfer : Transfer) (error : TransferError) :
    Moves (.setFailed transfer error) .done .proceed (.setModelFailed transfer error)
  | setModelFailed (transfer : Transfer) (error : TransferError) :
    Moves (.setModelFailed transfer error) .done .proceed (.returned transfer.sessionId (.error error))

theorem moves_of_resume {point next : StartTransfer}
    (resumed : point.resume reply choice = some next) :
    Moves point reply choice next := by
  unfold resume at resumed
  split at resumed
  case h_6 transfer =>
    split at resumed <;> cases resumed
    · rename_i address parsed
      exact .announceStarted transfer address parsed
    · rename_i error parsed
      exact .misaddressed transfer error parsed
  case h_12 transfer run =>
    obtain ⟨outcome, ran, same⟩ := Option.map_eq_some_iff.mp resumed
    cases outcome with
    | inl later =>
      cases same
      exact .engine transfer run later reply choice ran
    | inr result =>
      cases result with
      | ok progress =>
        cases same
        exact .uploaded transfer run progress reply choice ran
      | error error =>
        cases same
        exact .failed transfer run error reply choice ran
  case h_23 => cases resumed
  all_goals
    cases resumed
    constructor

end StartTransfer

end DistributedOs.Coordinator
