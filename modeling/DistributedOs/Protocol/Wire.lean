import DistributedOs.Protocol.Message

/-! The messages with every field that goes over the wire, and the codec over them. `Message` has
what the relay and the agents look at; neither codec nor connection looks into a message. -/

namespace DistributedOs.Protocol.Wire

open Discovery (Uuid)

/-- A floating-point number; only a finite one has a JSON text. -/
inductive Number where
  | finite (value : Rat)
  | infinite (negative : Bool)
  | nan

def Number.IsFinite : Number → Prop
  | .finite _ => True
  | _ => False

structure HeartbeatPayload where
  cpuUsage : Number
  memoryUsage : Number
  batteryLevel : Option UInt8
  platform : Platform
  version : String
  status : NodeStatus
  capabilities : List Capability
  timestamp : Nat

structure SearchResult where
  nodeId : NodeId
  name : String
  platform : Platform
  status : NodeStatus
  capabilities : List Capability
  version : String
  score : Number

structure SessionRequest where
  sender : NodeId
  target : NodeId
  fileName : String
  fileSize : UInt64
  transferId : Option String
  chunkSize : UInt64
  parallel : Bool
  parallelStreams : UInt64

structure SessionAccept where
  sender : NodeId
  target : NodeId
  sessionId : String
  chunkSize : UInt64
  parallel : Bool
  parallelStreams : UInt64

structure SessionReject where
  sender : NodeId
  target : NodeId
  reason : String

structure SessionProgress where
  sessionId : String
  sender : NodeId
  bytesSent : UInt64
  bytesTotal : UInt64
  speedMbps : Number

structure SessionClose where
  sessionId : String
  sender : NodeId
  reason : Option String

inductive Message where
  | heartbeat (sender : NodeId) (payload : HeartbeatPayload)
  | heartbeatAck
  | pairRequest (request : PairRequest)
  | pairResponse (response : PairResponse)
  | taskRequest (request : TaskRequest)
  | taskResult (result : TaskResult)
  | searchRequest (request : SearchRequest)
  | searchResponse (requestId : TaskId) (results : List SearchResult)
  | deviceListRequest (sender : NodeId)
  | deviceListResponse (nodes : List NodeSummary)
  | sessionRequest (request : SessionRequest)
  | sessionAccept (accept : SessionAccept)
  | sessionReject (reject : SessionReject)
  | sessionProgress (progress : SessionProgress)
  | sessionClose (close : SessionClose)
  | error (code message : String)

/-- The floating-point fields are finite. -/
def Message.Finite : Message → Prop
  | .heartbeat _ payload => payload.cpuUsage.IsFinite ∧ payload.memoryUsage.IsFinite
  | .searchResponse _ results => ∀ result ∈ results, result.score.IsFinite
  | .sessionProgress progress => progress.speedMbps.IsFinite
  | _ => True

structure Envelope where
  version : UInt16
  messageId : Uuid
  message : Message

/-- The random message id is given by the environment. -/
def Envelope.new (messageId : Uuid) (message : Message) : Envelope :=
  { version := protocolVersion, messageId, message }

def Envelope.isCompatible (envelope : Envelope) : Bool := envelope.version = protocolVersion

/-- What `serde_json` makes of the derived types. -/
structure SerdeJson where
  toString : Envelope → Except String String
  fromStr : String → Except String Envelope

def SerdeJson.Lossless (json : SerdeJson) : Prop :=
  ∀ envelope : Envelope, envelope.message.Finite →
    ∃ text, json.toString envelope = .ok text ∧ json.fromStr text = .ok envelope

namespace Codec
variable (json : SerdeJson)

def encode (envelope : Envelope) : Except ProtocolError String :=
  match json.toString envelope with
  | .error error => .error (.serialisation error)
  | .ok text => .ok text

def decode (raw : String) : Except ProtocolError Envelope :=
  match json.fromStr raw with
  | .error error => .error (.serialisation error)
  | .ok envelope =>
    if envelope.isCompatible then .ok envelope
    else .error (.versionMismatch protocolVersion envelope.version)

theorem decode_eq_ok_iff : decode json raw = .ok envelope ↔ json.fromStr raw = .ok envelope ∧
      envelope.isCompatible := by
  unfold decode
  split
  · rename_i failed
    simp [failed]
  · rename_i here
    rw [here, Except.ok.injEq]
    split
    · rename_i compatible
      exact ⟨fun same => ⟨Except.ok.inj same, Except.ok.inj same ▸ compatible⟩, fun ⟨same, _⟩ =>
        congrArg _ same⟩
    · rename_i incompatible
      exact ⟨nofun, fun ⟨same, compatible⟩ => absurd (same ▸ compatible) incompatible⟩

theorem decode_encode (lossless : json.Lossless) (messageId : Uuid) (finite : message.Finite) :
    ∃ text, encode json (.new messageId message) = .ok text ∧
      decode json text = .ok (.new messageId message) := by
  obtain ⟨text, written, read⟩ := lossless (.new messageId message) finite
  refine ⟨text, ?_, (decode_eq_ok_iff json).mpr ⟨read, decide_eq_true rfl⟩⟩
  rw [encode, written]

end Codec

end DistributedOs.Protocol.Wire
