import DistributedOs.Session.Wire
import DistributedOs.Session.ManagerInvariant
import DistributedOs.Transfer.Error

/-! What the coordinator's procedures exchange: with a peer (session payloads), with
the user interface (events), and with the state they share (accesses and replies). -/

namespace DistributedOs.Coordinator

open DistributedOs.Session DistributedOs.Transfer

structure PeerInfo where
  name : String
  address : String

structure SessionRequestPayload where
  sessionId : String
  sourceDeviceId : String
  sourceDeviceName : String
  files : List FileMeta
  protocolVersion : String

structure SessionAcceptPayload where
  sessionId : String
  targetDeviceId : String
  targetDeviceName : String
  acceptedFileIds : List String
  resumeOffsets : AList fun _ : String => UInt64

structure SessionRejectPayload where
  sessionId : String
  reason : String

inductive SessionMessage where
  | request (payload : SessionRequestPayload)
  | accept (payload : SessionAcceptPayload)
  | reject (payload : SessionRejectPayload)

/-- What the JSON text of a received message parses to. -/
inductive Payload where
  | request (payload : SessionRequestPayload)
  | accept (payload : SessionAcceptPayload)
  | reject (payload : SessionRejectPayload)
  | malformed (error : String)

def debugName : SessionMsgType → String
  | .request => "Request"
  | .accept => "Accept"
  | .reject => "Reject"
  | .progress => "Progress"
  | .complete => "Complete"
  | .failed => "Failed"

inductive SessionEvent where
  | sessionStarted (sessionId peerId peerName : String) (files : List String)
  | sessionRequested (sessionId peerId peerName : String) (files : List String)
  | sessionActive (sessionId : String)
  | sessionCompleted (sessionId : String) (totalBytes : UInt64)
  | sessionFailed (sessionId error : String)
  | sessionCancelled (sessionId reason : String)
  deriving DecidableEq

def SessionEvent.sessionId : SessionEvent → String
  | .sessionStarted sessionId .. => sessionId
  | .sessionRequested sessionId .. => sessionId
  | .sessionActive sessionId => sessionId
  | .sessionCompleted sessionId _ => sessionId
  | .sessionFailed sessionId _ => sessionId
  | .sessionCancelled sessionId _ => sessionId

/-- The session state an event announces; the first two only say that a session exists. -/
def SessionEvent.announces : SessionEvent → Option SessionState
  | .sessionStarted .. => none
  | .sessionRequested .. => none
  | .sessionActive _ => some .active
  | .sessionCompleted .. => some .completed
  | .sessionFailed .. => some .failed
  | .sessionCancelled .. => some .cancelled

inductive TransferEvent where
  | started (transferId file : String) (totalBytes : UInt64)
  | progress (transferId : String) (bytesSent bytesTotal : UInt64)
  | completed (transferId : String) (totalBytes : UInt64)
  | failed (transferId error : String)
  | cancelled (transferId reason : String)
  deriving DecidableEq

def TransferEvent.transferId : TransferEvent → String
  | .started transferId .. => transferId
  | .progress transferId .. => transferId
  | .completed transferId _ => transferId
  | .failed transferId _ => transferId
  | .cancelled transferId _ => transferId

inductive TransferStatus where
  | idle
  | running
  | paused
  | completed
  | failed (error : String)
  deriving DecidableEq

/-- `speed_mbps` and `created_at` are only displayed and left out. -/
structure TransferModel where
  id : String
  files : List String
  totalBytes : UInt64
  sentBytes : UInt64
  status : TransferStatus
  peerId : String
  peerName : String
  direction : TransferDirection
  deriving DecidableEq

def parsePort (port : List Char) : Option Nat :=
  let digits := match port with
    | '+' :: digits => digits
    | digits => digits
  if digits.isEmpty || !digits.all Char.isDigit then none
  else
    let value := digits.foldl (fun value digit => value * 10 + (digit.toNat - '0'.toNat)) 0
    if value < 65536 then some value else none

/-- `rsplit_once(':')`, then `u16::from_str` on what follows the last colon. -/
def parseAddr (addr : String) : Except String (String × Nat) :=
  if ':' ∈ addr.toList then
    let reversed := addr.toList.reverse
    match parsePort (reversed.takeWhile (· ≠ ':')).reverse with
    | some port => .ok (String.ofList ((reversed.dropWhile (· ≠ ':')).drop 1).reverse, port)
    | none => .error ("Invalid port in address: " ++ addr)
  else .error ("Invalid peer address (expected host:port): " ++ addr)

/-- The user's decision, and what it makes of the session. -/
inductive Verdict where
  | accept
  | reject (reason : String)

namespace Verdict

def state : Verdict → SessionState
  | .accept => .active
  | .reject _ => .failed

def error : Verdict → Option String
  | .accept => none
  | .reject reason => some reason

def event (sessionId : String) : Verdict → SessionEvent
  | .accept => .sessionActive sessionId
  | .reject reason => .sessionFailed sessionId reason

end Verdict

/-- What goes through a responder channel, `Result<SessionAcceptPayload, String>`. -/
inductive Decision where
  | accept (payload : SessionAcceptPayload)
  | reject (reason : String)

def Decision.verdict : Decision → Verdict
  | .accept _ => .accept
  | .reject reason => .reject reason

/-- A oneshot channel, seen by its receiver. -/
inductive Oneshot where
  | pending
  | sent (decision : Decision)
  | dropped

/-- One access to the shared state; a task does one of these in each turn. -/
inductive Access where
  | idle
  | session (op : SessionOp)
  | openSessionChannel (id : String)
  | emit (event : SessionEvent)
  | openEventChannel (id : String)
  | emitEvent (event : TransferEvent)
  | insertResponder (id : String)
  | removeResponder (id : String)
  | takeResponder (id : String)
  | unlockResponders
  | readIdentity
  | send (connection : Nat) (decision : Decision)
  | receive
  | expire
  | write (message : SessionMessage)
  | insertToken (id : String)
  | removeToken (id : String)
  | cancelToken (id reason : String)
  | readToken
  | lockEngine
  | unlockEngine
  | beginUpload (sessionId fileId : String) (resumeOffset : Option UInt64)
  | insertStatus (id : String) (status : TransferStatus)
  | insertModel (model : TransferModel)
  | setModelStatus (id : String) (status : TransferStatus)

inductive Reply where
  | done
  | updated (admitted : Bool)
  | responder (connection : Option Nat)
  | identity (deviceId deviceName : String)
  | decision (channel : Oneshot)
  | token (cancelled : Option String)

/-- What the environment decides at a turn: the network, the peer, the clock, the disk. -/
inductive Choice where
  | proceed
  | failure (error : String)
  | peer (found : Option PeerInfo)
  | message (msgType : SessionMsgType) (payload : Payload)
  | capabilities (capsJson : String)
  | timeout
  | forwarded
  | uploaded (progress : TransferProgress)

end DistributedOs.Coordinator
