import DistributedOs.Discovery.Wire
import Mathlib.Data.Rat.Defs

/-! The messages of the protocol, their envelope and the checks on inbound messages. A number
with a fraction is a rational; an instant is a number of nanoseconds. -/

namespace DistributedOs.Protocol

open Discovery (Uuid)

deriving instance DecidableEq for Uuid

abbrev NodeId := Uuid
abbrev TaskId := Uuid

inductive Platform where
  | mac
  | windows
  | linux
  | android
  | docker
  | vm
  | browser
  | nas
  | raspberryPi
  | cloud
  | wsl
  | unknown (name : String)
  deriving DecidableEq, Repr

inductive Capability where
  | compute
  | clipboard
  | fileStorage
  | fileTransfer
  | search
  | docker
  | aiModel
  | browser
  | notifications
  | camera
  | microphone
  | terminal
  | remoteExecution
  | unknown (name : String)
  deriving DecidableEq, Repr

inductive NodeStatus where
  | online
  | offline
  | busy
  | maintenance
  deriving DecidableEq, Repr

inductive TaskStatus where
  | pending
  | queued
  | running
  | completed
  | failed
  | cancelled
  deriving DecidableEq, Repr

def Platform.toText : Platform → String
  | .mac => "mac"
  | .windows => "windows"
  | .linux => "linux"
  | .android => "android"
  | .docker => "docker"
  | .vm => "vm"
  | .browser => "browser"
  | .nas => "nas"
  | .raspberryPi => "raspberry_pi"
  | .cloud => "cloud"
  | .wsl => "wsl"
  | .unknown name => name

def Capability.toText : Capability → String
  | .compute => "compute"
  | .clipboard => "clipboard"
  | .fileStorage => "file_storage"
  | .fileTransfer => "file_transfer"
  | .search => "search"
  | .docker => "docker"
  | .aiModel => "ai_model"
  | .browser => "browser"
  | .notifications => "notifications"
  | .camera => "camera"
  | .microphone => "microphone"
  | .terminal => "terminal"
  | .remoteExecution => "remote_execution"
  | .unknown name => name

def NodeStatus.toText : NodeStatus → String
  | .online => "online"
  | .offline => "offline"
  | .busy => "busy"
  | .maintenance => "maintenance"

/-- `serde_json::Value`. -/
inductive Json where
  | null
  | bool (value : Bool)
  | number (value : Rat)
  | string (value : String)
  | array (items : List Json)
  | object (fields : List (String × Json))

namespace Json

/-- A field of an object; nothing else has fields. -/
def get (key : String) : Json → Option Json
  | .object fields => fields.lookup key
  | _ => none

def asStr : Json → Option String
  | .string value => some value
  | _ => none

def asBool : Json → Option Bool
  | .bool value => some value
  | _ => none

end Json

structure HeartbeatPayload where
  cpuUsage : Rat
  memoryUsage : Rat
  batteryLevel : Option UInt8
  platform : Platform
  version : String
  status : NodeStatus
  capabilities : List Capability
  timestamp : Nat
  deriving DecidableEq

structure PairRequest where
  sender : NodeId
  target : NodeId
  name : String
  publicKey : String
  capabilities : List Capability
  pairCode : String
  deriving DecidableEq

structure PairResponse where
  sender : NodeId
  target : NodeId
  name : String
  publicKey : String
  accepted : Bool
  reason : Option String
  deriving DecidableEq

structure TaskRequest where
  taskId : TaskId
  sender : NodeId
  target : Option NodeId
  kind : String
  payload : Json

structure TaskResult where
  taskId : TaskId
  sender : NodeId
  target : Option NodeId
  status : TaskStatus
  result : Json
  error : Option String
  completedAt : Nat

structure SearchRequest where
  requestId : TaskId
  query : String
  deriving DecidableEq

/-- The score counts tenths. -/
structure SearchResult where
  nodeId : NodeId
  name : String
  platform : Platform
  status : NodeStatus
  capabilities : List Capability
  version : String
  score : Nat
  deriving DecidableEq

structure NodeSummary where
  id : NodeId
  name : String
  platform : Platform
  status : NodeStatus
  lastSeen : Option Nat
  capabilities : List Capability
  deriving DecidableEq

/-- The fields `from` and `to` are `sender` and `target` here. The session messages, which relay and
agent ignore, are one case without their fields. -/
inductive Message where
  | heartbeat (sender : NodeId) (payload : HeartbeatPayload)
  | heartbeatAck
  | pairRequest (request : PairRequest)
  | pairResponse (response : PairResponse)
  | taskRequest (request : TaskRequest)
  | taskResult (result : TaskResult)
  | searchRequest (request : SearchRequest)
  | searchResponse (requestId : TaskId) (results : List SearchResult)
  | deviceListRequest (sender : NodeId)
  | deviceListResponse (nodes : List NodeSummary)
  | session
  | error (code message : String)

def protocolVersion : UInt16 := 1

structure Envelope where
  version : UInt16
  messageId : Uuid
  message : Message

/-- The random message id is given by the environment. -/
def Envelope.new (messageId : Uuid) (message : Message) : Envelope :=
  { version := protocolVersion, messageId, message }

def Envelope.isCompatible (envelope : Envelope) : Bool := envelope.version = protocolVersion

inductive ProtocolError where
  | serialisation (error : String)
  | versionMismatch (expected received : UInt16)
  | validationFailed (reason : String)
  deriving DecidableEq

def ProtocolError.toText : ProtocolError → String
  | .serialisation error => "serialisation error: " ++ error
  | .versionMismatch expected received =>
    "protocol version mismatch: expected " ++ toString expected.toNat ++ ", received " ++
    toString received.toNat
  | .validationFailed reason => "validation failed: " ++ reason

/-- `Codec::decode` after the text has been parsed, or has failed to be. -/
def decode (parsed : Except String Envelope) : Except ProtocolError Envelope :=
  match parsed with
  | .error error => .error (.serialisation error)
  | .ok envelope =>
    if envelope.isCompatible then .ok envelope
    else .error (.versionMismatch protocolVersion envelope.version)

def isWhitespace (c : Char) : Bool :=
  let n := c.toNat
  (9 ≤ n && n ≤ 13) || n = 0x20 || n = 0x85 || n = 0xA0 || n = 0x1680 || (0x2000 ≤ n && n ≤ 0x200A) ||
    n = 0x2028 || n = 0x2029 || n = 0x202F || n = 0x205F || n = 0x3000

def trim (text : String) : String :=
  String.ofList ((text.toList.dropWhile isWhitespace).reverse.dropWhile isWhitespace).reverse

def isAsciiHexdigit (c : Char) : Bool :=
  ('0' ≤ c && c ≤ '9') || ('a' ≤ c && c ≤ 'f') || ('A' ≤ c && c ≤ 'F')

def isAsciiAlphanumeric (c : Char) : Bool :=
  ('0' ≤ c && c ≤ '9') || ('a' ≤ c && c ≤ 'z') || ('A' ≤ c && c ≤ 'Z')

def validateNodeIdNonzero (id : Uuid) : Except ProtocolError Unit :=
  if id = .nil then .error (.validationFailed "node_id must not be the nil UUID") else .ok ()

def validatePublicKey (key : String) : Except ProtocolError Unit :=
  if key.utf8ByteSize ≠ 64 || !key.toList.all isAsciiHexdigit then
    .error (.validationFailed "public_key must be a 64-character lowercase hex string")
  else .ok ()

def validatePairCodeFormat (code : String) : Except ProtocolError Unit :=
  if code.utf8ByteSize ≠ 6 || !code.toList.all isAsciiAlphanumeric then
    .error (.validationFailed "pair_code must be exactly 6 alphanumeric characters")
  else .ok ()

def validateNonempty (text reason : String) : Except ProtocolError Unit :=
  if text.isEmpty then .error (.validationFailed reason) else .ok ()

def validateRange (value : Rat) (reason : String) : Except ProtocolError Unit :=
  if value < 0 || 100 < value then .error (.validationFailed reason) else .ok ()

def validate : Message → Except ProtocolError Unit
  | .heartbeat sender payload => do
    validateNodeIdNonzero sender
    validateNonempty payload.version "heartbeat.payload.version must not be empty"
    validateRange payload.cpuUsage "heartbeat.payload.cpu_usage must be 0–100"
    validateRange payload.memoryUsage "heartbeat.payload.memory_usage must be 0–100"
  | .pairRequest request => do
    validateNodeIdNonzero request.sender
    validateNonempty (trim request.name) "pair_request.name must not be empty"
    validatePublicKey request.publicKey
    validatePairCodeFormat request.pairCode
  | .pairResponse response => do
    validateNodeIdNonzero response.sender
    validateNonempty (trim response.name) "pair_response.name must not be empty"
    validatePublicKey response.publicKey
  | .taskRequest request => do
    validateNodeIdNonzero request.sender
    validateNonempty (trim request.kind) "task_request.kind must not be empty"
  | .searchRequest request =>
    validateNonempty (trim request.query) "search_request.query must not be empty"
  | _ => .ok ()

end DistributedOs.Protocol
