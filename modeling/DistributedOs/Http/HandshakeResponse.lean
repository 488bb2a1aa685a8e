import DistributedOs.Http.Endings
import DistributedOs.Semantics.LossyText

/-! What `perform_handshake` makes of the bytes of a response, next to what its status line and its
body say. -/

namespace DistributedOs.Http.HandshakeResponse

open Semantics DistributedOs.Transfer
open Http.Endings (performHandshake bodyAfterHeaders contains_iff)
open Reliable (utf8 utf8_eq)
open DistributedOs.Transfer.TransferError (contains)

/-- CR LF CR LF. -/
def emptyLine : Bytes := [13, 10, 13, 10]

/-- `200 OK`. -/
def okText : Bytes := [50, 48, 48, 32, 79, 75]

/-- The first line, without its CR LF. -/
def statusLine : Bytes → Bytes
  | 13 :: 10 :: _ => []
  | byte :: rest => byte :: statusLine rest
  | [] => []

/-- What stands between the first two spaces of a line that begins with `HTTP/`. -/
def statusCode (response : Bytes) : Option Bytes :=
  let line := statusLine response
  if [72, 84, 84, 80, 47] <+: line then some (((line.dropWhile (· ≠ 32)).drop 1).takeWhile (· ≠ 32))
  else none

def body (response : Bytes) : Option Bytes := afterFirst emptyLine response

section
variable (parsePayload : String → Except String HandshakePayload)

/-- The connection is read to its end, in any number of reads. -/
def handshake (reads : List Bytes) : Except String HandshakePayload :=
  performHandshake parsePayload (.ok (fromUtf8Lossy reads.flatten))

/-- A JSON text is a text: bytes that are not UTF-8 are not the JSON of anything. -/
def Encodes (bytes : Bytes) (remote : HandshakePayload) : Prop :=
  ∃ text, bytes = utf8 text ∧ parsePayload text = .ok remote

/-- The outcome is what the status line and the body say. -/
def Faithful (reads : List Bytes) : Prop :=
  ∀ remote, handshake parsePayload reads = .ok remote ↔
    statusCode reads.flatten = some [50, 48, 48] ∧ ∃ bytes, body reads.flatten = some bytes ∧
    Encodes parsePayload bytes remote

/-- Where there is a body that parses, with replacement, `200 OK` occurs in the response exactly
when the status code is 200 and the body is UTF-8. -/
def Unconfused (response : Bytes) : Prop :=
  ∀ bytes, body response = some bytes → (∃ remote, parsePayload (fromUtf8Lossy bytes) = .ok remote) →
    (okText <:+: response ↔ statusCode response = some [50, 48, 48] ∧ ∃ text, bytes = utf8 text)

end

variable {parsePayload : String → Except String HandshakePayload}

theorem isAscii_emptyLine : ∀ byte ∈ emptyLine, IsAscii byte := by simp [emptyLine, IsAscii]

theorem isAscii_okText : ∀ byte ∈ okText, IsAscii byte := by simp [okText, IsAscii]

theorem bodyAfterHeaders_eq
    (text : List Char) : bodyAfterHeaders text = afterFirst (emptyLine.map asciiChar) text := by
  have pattern : emptyLine.map asciiChar = ['\r', '\n', '\r', '\n'] := by decide
  rw [pattern]
  fun_induction bodyAfterHeaders text with
  | case1 body => rfl
  | case2 first rest other ih =>
    rw [afterFirst, if_neg, ih]
    intro starts
    obtain ⟨later, whole⟩ := List.isPrefixOf_iff_prefix.mp starts
    cases whole
    exact other later rfl rfl
  | case3 => rfl

theorem contains_okText_iff (response : Bytes) : contains (lossy response) "200 OK" = true ↔
      okText <:+: response := by
  have same : "200 OK".toList = okText.map asciiChar := by decide
  rw [contains_iff, same]
  exact infix_lossy_iff (List.cons_ne_nil _ _) isAscii_okText response

theorem handshake_eq_ok_iff (reads : List Bytes) (remote : HandshakePayload) :
    handshake parsePayload reads = .ok remote ↔
      okText <:+: reads.flatten ∧ ∃ bytes, body reads.flatten = some bytes ∧
      parsePayload (fromUtf8Lossy bytes) = .ok remote := by
  have located : bodyAfterHeaders (lossy reads.flatten) = (body reads.flatten).map lossy := by
    rw [bodyAfterHeaders_eq]
    exact afterFirst_lossy (List.cons_ne_nil _ _) isAscii_emptyLine reads.flatten
  rw [← contains_okText_iff]
  simp only [handshake, performHandshake, bind, Except.bind, fromUtf8Lossy_eq,
    String.toList_ofList, located]
  cases body reads.flatten with
  | none => simp
  | some bytes =>
    cases contains (lossy reads.flatten) "200 OK" with
    | false => simp
    | true =>
      simp only [Option.map_some, if_true, true_and, Option.some.injEq, exists_eq_left']
      cases parsePayload (String.ofList (lossy bytes)) with
      | error => simp
      | ok => simp

theorem fromUtf8Lossy_utf8 (text : String) : fromUtf8Lossy (utf8 text) = text := by
  rw [utf8_eq]
  exact fromUtf8Lossy_encode text

/-- The outcome is what the response says exactly when the text `200 OK` occurs where the code says
so. -/
theorem handshake_faithful_iff (parsePayload : String → Except String HandshakePayload)
    (reads : List Bytes) :
    Faithful parsePayload reads ↔ Unconfused parsePayload reads.flatten := by
  unfold Faithful Unconfused
  simp only [handshake_eq_ok_iff]
  generalize reads.flatten = response
  constructor
  · rintro faithful bytes located ⟨remote, parsed⟩
    have same := faithful remote
    simp only [located, Option.some.injEq, exists_eq_left', parsed, and_true] at same
    rw [same]
    refine and_congr_right fun _ => ⟨?_, ?_⟩
    · rintro ⟨text, encoded, _⟩
      exact ⟨text, encoded⟩
    · rintro ⟨text, rfl⟩
      rw [fromUtf8Lossy_utf8] at parsed
      exact ⟨text, rfl, parsed⟩
  · intro unconfused remote
    constructor
    · rintro ⟨occurs, bytes, located, parsed⟩
      obtain ⟨code, text, rfl⟩ := (unconfused bytes located ⟨remote, parsed⟩).mp occurs
      rw [fromUtf8Lossy_utf8] at parsed
      exact ⟨code, _, located, text, rfl, parsed⟩
    · rintro ⟨code, _, located, text, rfl, parsed⟩
      have lossless : parsePayload (fromUtf8Lossy (utf8 text)) = .ok remote := by
        rw [fromUtf8Lossy_utf8, parsed]
      exact ⟨(unconfused _ located ⟨remote, lossless⟩).mpr ⟨code, text, rfl⟩, _, located, lossless⟩

def samplePayload : HandshakePayload := { protocolVersion := "1", nodeId := "a", nodeName := "b" }

def sampleText : String :=
  "\x7b\"protocol_version\":\"1\",\"node_id\":\"a\",\"node_name\":\"b\",\"direction\":\"upload\"," ++
    "\"features\":\x7b\"parallel_upload\":true,\"parallel_download\":false,\"resume\":true,\"compression\":false," ++
    "\"checksum\":true,\"zero_copy\":false,\"reliable\":true\x7d," ++
    "\"limits\":\x7b\"max_chunk_size_bytes\":2097152,\"min_chunk_size_bytes\":16384,\"max_parallel_streams\":8," ++
    "\"max_throughput_mbps\":null,\"min_throughput_mbps\":10.0,\"max_send_buffer_kb\":8192\x7d," ++
    "\"transport_support\":null\x7d"

/-- The parser, as far as the responses below need it. -/
def sampleParse (text : String) : Except String HandshakePayload :=
  if text = sampleText then .ok samplePayload else .error "expected value"

def missing : Bytes := utf8 ("HTTP/1.1 404 Not Found\r\nX-Note: not 200 OK\r\n\r\n" ++ sampleText)

def fine : Bytes := utf8 ("HTTP/1.1 200 Fine\r\n\r\n" ++ sampleText)

/-- A header that says `200 OK` makes a handshake of a failure, and without that text a success is
none. -/
theorem not_faithful_header :
    handshake sampleParse [missing] = .ok samplePayload ∧ statusCode missing = some [52, 48, 52] ∧
      ¬ Faithful sampleParse [missing] ∧
      (∀ remote, handshake sampleParse [fine] ≠ .ok remote) ∧ statusCode fine = some [50, 48, 48] ∧
      ¬ Faithful sampleParse [fine] := by
  have parsed : sampleParse sampleText = .ok samplePayload := if_pos rfl
  have body404 : body missing = some (utf8 sampleText) := by decide +kernel
  have body200 : body fine = some (utf8 sampleText) := by decide +kernel
  have code404 : statusCode missing = some [52, 48, 52] := by decide +kernel
  have code200 : statusCode fine = some [50, 48, 48] := by decide +kernel
  have accepted : handshake sampleParse [missing] = .ok samplePayload := by
    rw [handshake_eq_ok_iff, List.flatten_singleton, body404]
    exact ⟨by decide +kernel, _, rfl, by rw [fromUtf8Lossy_utf8, parsed]⟩
  have refused : ∀ remote, handshake sampleParse [fine] ≠ .ok remote := by
    intro _ shaken
    rw [handshake_eq_ok_iff, List.flatten_singleton] at shaken
    exact absurd shaken.1 (by decide +kernel)
  refine ⟨accepted, code404, fun faithful => ?_, refused, code200, fun faithful => ?_⟩
  · have code := ((faithful samplePayload).mp accepted).1
    rw [List.flatten_singleton, code404] at code
    cases code
  · refine refused samplePayload ((faithful samplePayload).mpr ?_)
    rw [List.flatten_singleton]
    exact ⟨code200, _, body200, sampleText, rfl, parsed⟩

end DistributedOs.Http.HandshakeResponse
