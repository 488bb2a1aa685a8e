import DistributedOs.Protocol.Wire
import DistributedOs.Semantics.Codec
import Mathlib.Data.Rat.Encodable
import Mathlib.Tactic.DeriveCountable

/-! The WebSocket connection and the messages it delivers, next to those the codec accepts. The
frames that arrive, and whether the socket takes a frame, are given by the environment. -/

namespace DistributedOs.Protocol.Wire

open Discovery (Uuid)
open Semantics (tally tally_injective)

/-- What the stream yields; after the last frame it yields `None`. -/
inductive Frame where
  | text (content : String)
  | binary (content : List UInt8)
  | ping
  | pong
  | close
  | failure (error : String)
  deriving DecidableEq

inductive NetworkError where
  | serialisation (error : String)
  | deserialisation (error : String)
  | webSocket (error : String)

structure WsConnection where
  sink : List Frame
  stream : List Frame
  connected : Bool

namespace WsConnection
variable (json : SerdeJson)

/-- The sink is given the frame, and says whether it took it. -/
def send (messageId : Uuid) (taken : Except String Unit) (connection : WsConnection)
    (message : Message) :
    Except NetworkError Unit × WsConnection :=
  match json.toString (.new messageId message) with
  | .error error => (.error (.serialisation error), connection)
  | .ok text =>
    let connection := { connection with sink := connection.sink ++ [.text text] }
    match taken with
    | .error error => (.error (.webSocket error), connection)
    | .ok () => (.ok (), connection)

def recvFrom (connected : Bool)
    (sink : List Frame) : List Frame → Except NetworkError (Option Message) × WsConnection
  | .text content :: stream =>
    match json.fromStr content with
    | .error error => (.error (.deserialisation error), { sink, stream, connected })
    | .ok envelope => (.ok (some envelope.message), { sink, stream, connected })
  | .close :: stream => (.ok none, { sink, stream, connected := false })
  | [] => (.ok none, { sink, stream := [], connected := false })
  | .failure error :: stream => (.error (.webSocket error), { sink, stream, connected })
  | _ :: stream => recvFrom connected sink stream

def recv (connection : WsConnection) : Except NetworkError (Option Message) × WsConnection :=
  recvFrom json connection.connected connection.sink connection.stream

/-- A number of calls of `recv`, up to the one that finds the connection closed. -/
def receive : Nat → WsConnection → List (Except NetworkError Message)
  | 0, _ => []
  | calls + 1, connection =>
    match recv json connection with
    | (.ok none, _) => []
    | (.ok (some message), connection) => .ok message :: receive calls connection
    | (.error error, connection) => .error error :: receive calls connection

end WsConnection

section
variable (json : SerdeJson)

/-- One entry for each text frame and each failure before the close: the message that the codec
accepts, if it does. -/
def accepted : List Frame → List (Option Message)
  | .text content :: frames =>
    (Codec.decode json content).toOption.map Envelope.message :: accepted frames
  | .failure _ :: frames => none :: accepted frames
  | .close :: _ => []
  | [] => []
  | _ :: frames => accepted frames

def texts : List Frame → List String
  | .text content :: frames => content :: texts frames
  | .close :: _ => []
  | [] => []
  | _ :: frames => texts frames

/-- Whatever the number of calls, each delivers a message or an error as the codec does. -/
def Agrees (frames : List Frame) : Prop :=
  ∀ (connection : WsConnection) (calls : Nat), connection.stream = frames →
    (connection.receive json calls).map Except.toOption = (accepted json frames).take calls

/-- The frame is malformed, or its version is ours. -/
def Compatible (content : String) : Prop :=
  ∀ envelope, json.fromStr content = .ok envelope → envelope.isCompatible

end

variable {json : SerdeJson}

theorem toOption_decode_iff (content : String) :
    (json.fromStr content).toOption.map Envelope.message =
        (Codec.decode json content).toOption.map Envelope.message ↔
      Compatible json content := by
  unfold Compatible Codec.decode
  cases parsed : json.fromStr content with
  | error => simp [Except.toOption]
  | ok envelope =>
    simp only [Except.ok.injEq, forall_eq']
    cases version : envelope.isCompatible <;> simp [Except.toOption]

/-- What the parser alone makes of the frames. -/
def parsed (json : SerdeJson) : List Frame → List (Option Message)
  | .text content :: frames => (json.fromStr content).toOption.map Envelope.message :: parsed json frames
  | .failure _ :: frames => none :: parsed json frames
  | .close :: _ => []
  | [] => []
  | _ :: frames => parsed json frames

theorem receive_recvFrom (calls : Nat) (connection : WsConnection) :
    (connection.receive json calls).map Except.toOption =
      (parsed json connection.stream).take calls := by
  obtain ⟨_, stream, _⟩ := connection
  induction stream generalizing calls with
  | nil => cases calls <;> rfl
  | cons frame _ ih =>
    cases calls with
    | zero => rfl
    | succ calls =>
      cases frame with
      | text content =>
        cases read : json.fromStr content with
        | error =>
          simpa [WsConnection.receive, WsConnection.recv, WsConnection.recvFrom, parsed, read,
            Except.toOption] using ih calls
        | ok =>
          simpa [WsConnection.receive, WsConnection.recv, WsConnection.recvFrom, parsed, read,
            Except.toOption] using ih calls
      | failure =>
        simpa [WsConnection.receive, WsConnection.recv, WsConnection.recvFrom, parsed,
          Except.toOption] using ih calls
      | close => rfl
      | binary | ping | pong =>
        simpa [WsConnection.receive, WsConnection.recv, WsConnection.recvFrom,
          parsed] using ih (calls + 1)

theorem parsed_eq_accepted_iff (frames : List Frame) :
    parsed json frames = accepted json frames ↔
      ∀ content ∈ texts frames, Compatible json content := by
  induction frames with
  | nil => simp [parsed, accepted, texts]
  | cons frame _ ih =>
    cases frame with
    | text =>
      simp only [parsed, accepted, texts, List.cons.injEq, List.forall_mem_cons, ih, toOption_decode_iff]
    | failure => simpa only [parsed, accepted, texts, List.cons.injEq, true_and] using ih
    | close => simp [parsed, accepted, texts]
    | binary | ping | pong => exact ih

theorem agrees_iff (frames : List Frame) :
    Agrees json frames ↔ ∀ content ∈ texts frames, Compatible json content := by
  rw [← parsed_eq_accepted_iff]
  constructor
  · intro agrees
    have equal := agrees { sink := [], stream := frames, connected := true }
      ((parsed json frames).length + (accepted json frames).length) rfl
    rw [receive_recvFrom, List.take_of_length_le (Nat.le_add_right _ _),
      List.take_of_length_le (Nat.le_add_left _ _)] at equal
    exact equal
  · intro equal _ _ here
    rw [receive_recvFrom, here, equal]

theorem sink_send (messageId : Uuid) (taken : Except String Unit) (connection : WsConnection)
    (message : Message) (written : Codec.encode json (.new messageId message) = .ok text) :
    (connection.send json messageId taken message).2.sink = connection.sink ++ [.text text] := by
  cases encoded : json.toString (.new messageId message) with
  | error =>
    rw [Codec.encode, encoded] at written
    cases written
  | ok =>
    rw [Codec.encode, encoded] at written
    cases written
    simp only [WsConnection.send, encoded]
    cases taken <;> rfl

/-- A frame of another version is delivered all the same; apart from those, connection and codec
agree both ways. -/
theorem connection_codec (json : SerdeJson) :
    (∀ frames, Agrees json frames ↔ ∀ content ∈ texts frames, Compatible json content) ∧
      (json.Lossless →
        ∀ (messageId : Uuid) (taken : Except String Unit) (connection : WsConnection)
          (message : Message),
        message.Finite →
        ∃ text, (connection.send json messageId taken message).2.sink =
        connection.sink ++ [.text text] ∧
          Codec.decode json text = .ok (.new messageId message)) := by
  refine ⟨agrees_iff, fun lossless messageId taken connection message finite => ?_⟩
  obtain ⟨text, written, read⟩ := Codec.decode_encode json lossless messageId finite
  exact ⟨text, sink_send messageId taken connection message written, read⟩

instance : Countable Uuid :=
  Function.Injective.countable (f := Uuid.bytes) fun ⟨_, _⟩ ⟨_, _⟩ same => by cases same; rfl

section
open Encodable (encode)

mutual
noncomputable def jsonCode : Json → Nat
  | .null => Nat.pair 0 0
  | .bool value => Nat.pair 1 (encode value)
  | .number value => Nat.pair 2 (encode value)
  | .string value => Nat.pair 3 (encode (value.toList.map Char.toNat))
  | .array items => Nat.pair 4 (itemsCode items)
  | .object fields => Nat.pair 5 (fieldsCode fields)

noncomputable def itemsCode : List Json → Nat
  | [] => 0
  | item :: items => Nat.pair (jsonCode item) (itemsCode items) + 1

noncomputable def fieldsCode : List (String × Json) → Nat
  | [] => 0
  | (key, value) :: fields =>
    Nat.pair (Nat.pair (encode (key.toList.map Char.toNat)) (jsonCode value)) (fieldsCode fields) + 1
end

theorem codes_inj {first second : String}
    (same : encode (first.toList.map Char.toNat) = encode (second.toList.map Char.toNat)) :
    first = second :=
  String.toList_inj.mp
    (List.map_injective_iff.mpr (fun _ _ => Char.toNat_inj.mp) (Encodable.encode_injective same))

mutual
theorem jsonCode_inj : ∀ first second, jsonCode first = jsonCode second → first = second
  | .null, second => by cases second <;> simp [jsonCode, Nat.pair_eq_pair]
  | .bool first, second => by
    cases second <;> simp [jsonCode, Nat.pair_eq_pair]
  | .number first, second => by
    cases second <;> simp [jsonCode, Nat.pair_eq_pair]
  | .string first, second => by
    cases second with
    | string =>
      intro same
      rw [codes_inj (Nat.pair_eq_pair.mp same).2]
    | _ => simp [jsonCode, Nat.pair_eq_pair]
  | .array first, second => by
    cases second with
    | array second =>
      simp only [jsonCode, Nat.pair_eq_pair, true_and, Json.array.injEq]
      exact itemsCode_inj first second
    | _ => simp [jsonCode, Nat.pair_eq_pair]
  | .object first, second => by
    cases second with
    | object second =>
      simp only [jsonCode, Nat.pair_eq_pair, true_and, Json.object.injEq]
      exact fieldsCode_inj first second
    | _ => simp [jsonCode, Nat.pair_eq_pair]

theorem itemsCode_inj : ∀ first second, itemsCode first = itemsCode second → first = second
  | [], [] => fun _ => rfl
  | [], _ :: _ => nofun
  | _ :: _, [] => nofun
  | first :: firsts, second :: seconds => by
    intro same
    obtain ⟨head, tail⟩ := Nat.pair_eq_pair.mp (Nat.succ.inj same)
    rw [jsonCode_inj first second head, itemsCode_inj firsts seconds tail]

theorem fieldsCode_inj : ∀ first second, fieldsCode first = fieldsCode second → first = second
  | [], [] => fun _ => rfl
  | [], (_, _) :: _ => nofun
  | (_, _) :: _, [] => nofun
  | (firstKey, first) :: firsts, (secondKey, second) :: seconds => by
    intro same
    obtain ⟨head, tail⟩ := Nat.pair_eq_pair.mp (Nat.succ.inj same)
    obtain ⟨key, value⟩ := Nat.pair_eq_pair.mp head
    rw [codes_inj key, jsonCode_inj first second value, fieldsCode_inj firsts seconds tail]
end

end

instance : Countable Json := ⟨jsonCode, jsonCode_inj⟩

deriving instance Countable for Number, Platform, Capability, NodeStatus, TaskStatus,
HeartbeatPayload, PairRequest,
  PairResponse, TaskRequest, TaskResult, SearchRequest, SearchResult, NodeSummary,
  SessionRequest, SessionAccept,
  SessionReject, SessionProgress, SessionClose, Message, Envelope

/-- An envelope with no more than a type, as the serialiser writes it. -/
def ackText (version : String) : String :=
  "\x7b\"version\":" ++ version ++
    ",\"message_id\":\"00000000-0000-0000-0000-000000000000\",\"type\":\"heartbeat_ack\"\x7d"

def ack (version : UInt16) : Envelope := { version, messageId := .nil, message := .heartbeatAck }

open Classical in
/-- The texts of two envelopes as they are, and some text of its own for every other one. -/
noncomputable def sampleText (envelope : Envelope) : String :=
  if envelope = ack 1 then ackText "1"
  else if envelope = ack 2 then ackText "2"
  else String.ofList (tally Envelope '1' envelope)

theorem ackText_ne_tally (version : String) (envelope : Envelope) :
    ackText version ≠ String.ofList (tally Envelope '1' envelope) := by
  intro same
  have heads := congrArg (fun text : String => text.toList.head?) same
  have first : (ackText version).toList.head? = some '\x7b' := by
    simp only [ackText, String.toList_append]
    rfl
  simp only [String.toList_ofList, tally, List.head?_replicate, first] at heads
  split at heads <;> simp at heads

theorem sampleText_injective : Function.Injective sampleText := by
  have versions : ackText "1" ≠ ackText "2" := by decide
  intro _ _ same
  simp only [sampleText] at same
  split at same
  · split at same
    · simp_all
    · split at same
      · exact absurd same versions
      · exact absurd same (ackText_ne_tally _ _)
  · split at same
    · split at same
      · exact absurd same.symm versions
      · split at same
        · simp_all
        · exact absurd same (ackText_ne_tally _ _)
    · split at same
      · exact absurd same.symm (ackText_ne_tally _ _)
      · split at same
        · exact absurd same.symm (ackText_ne_tally _ _)
        · exact tally_injective Envelope '1' (String.ofList_injective same)

open Classical in
noncomputable def sampleJson : SerdeJson :=
  { toString := fun envelope => .ok (sampleText envelope)
    fromStr := fun text =>
      if found : ∃ envelope, sampleText envelope = text then .ok found.choose
      else .error "expected value" }

theorem fromStr_sampleText (envelope : Envelope) :
    sampleJson.fromStr (sampleText envelope) = .ok envelope := by
  have found : ∃ other, sampleText other = sampleText envelope := ⟨envelope, rfl⟩
  simp only [sampleJson, dif_pos found]
  rw [sampleText_injective found.choose_spec]

theorem sampleJson_lossless : sampleJson.Lossless :=
  fun envelope _ => ⟨sampleText envelope, rfl, fromStr_sampleText envelope⟩

theorem fromStr_ackText_one : sampleJson.fromStr (ackText "1") = .ok (ack 1) := by
  have text : sampleText (ack 1) = ackText "1" := by simp [sampleText]
  exact text ▸ fromStr_sampleText (ack 1)

theorem fromStr_ackText_two : sampleJson.fromStr (ackText "2") = .ok (ack 2) := by
  have other : ack 2 ≠ ack 1 := by simp [ack]
  have text : sampleText (ack 2) = ackText "2" := by simp [sampleText, other]
  exact text ▸ fromStr_sampleText (ack 2)

/-- A ping between two acknowledgements of our version, and an acknowledgement sent. -/
theorem connection_codec_sample :
    Agrees sampleJson [.text (ackText "1"), .ping, .text (ackText "1"), .close] ∧
      ∃ text, (WsConnection.send sampleJson .nil (.ok ())
        { sink := [], stream := [], connected := true } .heartbeatAck).2.sink =
        [.text text] ∧ Codec.decode sampleJson text = .ok (.new .nil .heartbeatAck) := by
  constructor
  · refine ((connection_codec sampleJson).1 _).mpr ?_
    have compatible : Compatible sampleJson (ackText "1") := by
      intro _ parsed
      rw [fromStr_ackText_one] at parsed
      cases parsed
      rfl
    simpa [texts] using compatible
  · exact (connection_codec sampleJson).2 sampleJson_lossless .nil (.ok ()) _ .heartbeatAck trivial

/-- An acknowledgement of the next version is delivered; the codec refuses it. -/
theorem not_agrees_version :
    sampleJson.Lossless ∧
      (WsConnection.receive sampleJson 1
        { sink := [], stream := [.text (ackText "2")], connected := true }).map Except.toOption =
        [some .heartbeatAck] ∧
      Codec.decode sampleJson (ackText "2") = .error (.versionMismatch 1 2) ∧
      ¬ Agrees sampleJson [.text (ackText "2")] := by
  refine ⟨sampleJson_lossless, ?_, ?_, ?_⟩
  · simp [WsConnection.receive, WsConnection.recv, WsConnection.recvFrom, fromStr_ackText_two,
      Except.toOption, ack]
  · simp [Codec.decode, fromStr_ackText_two, Envelope.isCompatible, ack, protocolVersion]
  · intro agrees
    have compatible := (agrees_iff _).mp agrees (ackText "2") (by simp [texts]) _ fromStr_ackText_two
    exact absurd compatible (by decide)

end DistributedOs.Protocol.Wire
