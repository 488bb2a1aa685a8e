import DistributedOs.Nio.Headers
import DistributedOs.Semantics.Execution

/-! Pairing by QR code: the service of the Mac with its one-purpose HTTP server, and the client of
the phone. Everything the service starts runs later, as a task on the main actor or on a server's. -/

namespace DistributedOs.Pairing.Qr

open Semantics Nio

/-- A member of a JSON object; a number is its text. -/
inductive Value where
  | string (text : String)
  | boolean (value : Bool)
  | number (text : String)
  deriving DecidableEq

abbrev Fields := List (String × Value)

/-- What `HttpURLConnection` makes of a response. -/
structure Answer where
  responseCode : Nat
  inputStream : String
  errorStream : Option String

/-- The platforms: the query item `token` as `URLComponents` finds it in an address, the JSON number
of a date, `JSONEncoder`, `HttpURLConnection` on the bytes of a response and `JSONObject` on a text.
The last two may throw, with a message or without one. -/
structure Platform where
  queryToken : String → Option String
  date : Nat → String
  encode : Fields → Option Bytes
  exchange : Bytes → Except (Option String) Answer
  parse : String → Except (Option String) Fields

inductive PairResult where
  | success (relayUrl nodeId nodeName : String)
  | error (message : String)
  deriving DecidableEq

def optBoolean (json : Fields) (name : String) (fallback : Bool) : Bool :=
  match json.lookup name with
  | some (.boolean value) => value
  | some (.string text) =>
    if text.toLower = "true" then true else if text.toLower = "false" then false else fallback
  | _ => fallback

def optString (json : Fields) (name fallback : String) : String :=
  match json.lookup name with
  | some (.string text) | some (.number text) => text
  | some (.boolean value) => toString value
  | none => fallback

def relayUrl (host : String) : String := "ws://" ++ host ++ ":7890"

/-- `PairingClient.pair`, after the bytes of the response have come. -/
def pair (platform : Platform) (host : String) (response : Bytes) : PairResult :=
  match platform.exchange response with
  | .error message => .error (message.getD "Connection failed")
  | .ok answer =>
    if answer.responseCode = 200 then
      match platform.parse answer.inputStream with
      | .error message => .error (message.getD "Connection failed")
      | .ok json =>
        if optBoolean json "accepted" false then
          .success (optString json "relay_url" (relayUrl host)) (optString json "node_id" "")
          (optString json "node_name" host)
        else .error (optString json "error" "Pairing rejected")
    else .error (answer.errorStream.getD ("HTTP " ++ toString answer.responseCode))

def requestLine (token : String) : List Char :=
  [' '].intercalate ["GET".toList, ("/pair?token=" ++ token).toList, "HTTP/1.1".toList]

/-- The time is in milliseconds. -/
structure PairingToken where
  value : String
  createdAt : Nat
  deriving DecidableEq

def tokenLifetime : Nat := 300 * 1000

def PairingToken.isValid (token : PairingToken) (now : Nat) : Bool :=
  now - token.createdAt < tokenLifetime

def isTokenValue (value : String) : Bool :=
  value.toList.length = 64 && value.toList.all fun c => c.isDigit || ('a' ≤ c && c ≤ 'f')

structure PairedDevice where
  id : String
  name : String
  platform : String
  relayURL : Option String
  pairedAt : Nat

def PairedDevice.fields (date : Nat → String) (device : PairedDevice) : Fields :=
  ("node_id", .string device.id) :: ("node_name", .string device.name) ::
  ("platform", .string device.platform) ::
    ((device.relayURL.map fun relayURL => ("relay_url", Value.string relayURL)).toList ++
      [("paired_at", Value.number (date device.pairedAt))])

/-- What the closure that answers the requests has captured; tokens are numbered as they are
generated. -/
structure Handler where
  id : Nat
  token : PairingToken
  nodeID : String
  nodeName : String
  ips : List String
  deriving DecidableEq

/-- `CharacterSet.newlines`. -/
def isNewline (c : Char) : Bool :=
  (10 ≤ c.toNat && c.toNat ≤ 13) || c.toNat ∈ [0x85, 0x2028, 0x2029]

def firstLine (request : String) : List Char := request.toList.takeWhile fun c => !isNewline c

def extractedToken (platform : Platform) (request : String) : Option String :=
  let first := firstLine request
  if "GET ".toList.isPrefixOf first then
    (first.splitOn ' ')[1]?.bind fun target => platform.queryToken (String.ofList target)
  else none

def Handler.device (handler : Handler) (now : Nat) : PairedDevice :=
  { id := handler.nodeID
    name := handler.nodeName
    platform := "mac"
    relayURL := some (relayUrl (handler.ips.head?.getD "127.0.0.1"))
    pairedAt := now }

/-- The status and the body. -/
def Handler.onRequest (platform : Platform) (handler : Handler) (now : Nat)
    (request : String) : Nat × Fields :=
  match extractedToken platform request with
  | none => (400, [("error", .string "Missing token")])
  | some token =>
    if handler.token.value = token ∧ handler.token.isValid now then
      (200, (handler.device now).fields platform.date)
    else (401, [("error", .string "Invalid or expired token")])

def reason (status : Nat) : String :=
  match status with
  | 200 => "OK"
  | 400 => "Bad Request"
  | 401 => "Unauthorized"
  | _ => ""

/-- A literal of several lines: a newline stands between two of them, and none after the last. -/
def literal : List String → Bytes
  | [] => []
  | [line] => ascii line
  | line :: lines => ascii line ++ 10 :: literal lines

def sendHTTPResponse (status : Nat) (data : Bytes) : Bytes :=
  literal
    [ "HTTP/1.1 " ++ toString status ++ " " ++ reason status ++ "\r"
    , "Content-Type: application/json\r"
    , "Content-Length: " ++ toString data.length ++ "\r"
    , "Connection: close\r"
    , "\r" ] ++ data

/-- The bytes that are written for the text that is received first. -/
def Handler.receive (platform : Platform) (handler : Handler) (now : Nat)
    (request : String) : Bytes :=
  let (status, body) := handler.onRequest platform now request
  match platform.encode body with
  | none => sendHTTPResponse 500 (ascii "\x7b\"error\":\"internal error\"\x7d")
  | some json => sendHTTPResponse status json

structure PairingSession where
  token : String
  port : Nat
  createdAt : Nat
  nodeID : String
  nodeName : String
  ipAddresses : List String
  deriving DecidableEq

def PairingSession.isValid (session : PairingSession) (now : Nat) : Bool :=
  now - session.createdAt < tokenLifetime

/-- The address in the QR code. -/
def PairingSession.host (session : PairingSession) : String :=
  session.ipAddresses.head?.getD "127.0.0.1"

/-- What is still to run: the tasks of `stop` and `start` on the main actor, the calls of the two on
the server that such a task has found, and the rest of the task of `start`. -/
inductive Job where
  | stopServer
  | startServer (handler : Handler)
  | callStop (server : Nat)
  | callStart (server : Nat) (handler : Handler)
  | finish (handler : Handler) (port : Nat)
  | fail
  deriving DecidableEq

structure Listener where
  port : Nat
  handler : Handler
  deriving DecidableEq

/-- Servers are numbered like the tokens they are made with; `listening` has the port of the
listener that a server refers to, and `listeners` are those not cancelled. The last three fields
record how many tokens there have been, how many when `stop` was last called, and which were
honoured. -/
structure Service where
  now : Nat
  server : Option Nat
  listening : Nat → Option Nat
  listeners : List Listener
  isActive : Bool
  session : Option PairingSession
  jobs : List Job
  count : Nat
  stopped : Nat
  honoured : List Nat

/-- A job may be run in any order; with it comes the port that a new listener gets, if it gets one. -/
inductive Event where
  | elapse (millis : Nat)
  | start (value nodeID nodeName : String) (ips : List String)
  | stop
  | run (index : Nat) (port : Option Nat)
  | request (port : Nat) (text : String)

namespace Service

def fresh : Service :=
  { now := 0, server := none, listening := fun _ => none, listeners := [], isActive := false,
    session := none, jobs := []
    count := 0, stopped := 0, honoured := [] }

variable (service : Service)

def queue (job : Job) : Service := { service with jobs := service.jobs ++ [job] }

def stop : Service :=
  { service.queue .stopServer with
    server := none, isActive := false, session := none, stopped := service.count }

def start (value nodeID nodeName : String) (ips : List String) : Service :=
  let service := service.stop
  if ips = [] then service
  else
    let handler :=
      { id := service.count, token := { value, createdAt := service.now }, nodeID, nodeName, ips }
    { service.queue (.startServer handler) with
      server := some service.count, count := service.count + 1 }

/-- `PairingServer.stop`. -/
def cancel (server : Nat) : Service :=
  match service.listening server with
  | none => service
  | some port =>
    { service with
      listening := fun other => if other = server then none else service.listening other
      listeners := service.listeners.filter fun listener => listener.port ≠ port }

/-- `PairingServer.start`. A new listener takes the place of another one, which is not cancelled. -/
def listen (server port : Nat) (handler : Handler) : Service :=
  { service with
    listening := fun other => if other = server then some port else service.listening other
    listeners := service.listeners ++ [{ port, handler }] }

def run (port : Option Nat) : Job → Option Service
  | .stopServer =>
    match service.server with
    | none => some service
    | some server => some (service.queue (.callStop server))
  | .startServer handler =>
    match service.server with
    | none => some (service.queue (.finish handler 0))
    | some server => some (service.queue (.callStart server handler))
  | .callStop server => some (service.cancel server)
  | .callStart server handler =>
    match port with
    | none => some (service.queue .fail)
    | some port =>
      if port = 0 ∨ port ∈ service.listeners.map Listener.port then none
      else some ((service.listen server port handler).queue (.finish handler port))
  | .finish handler port =>
    some { service with
      session := some
        { token := handler.token.value, port, createdAt := handler.token.createdAt,
          nodeID := handler.nodeID
          nodeName := handler.nodeName, ipAddresses := handler.ips }
      isActive := true }
  | .fail => some { service with isActive := false }

def reached (port : Nat) : Option Handler :=
  (service.listeners.find? fun listener => listener.port = port).map Listener.handler

/-- The bytes that a request gets, if there is a listener. -/
def respond (platform : Platform) (port : Nat) (text : String) : Option Bytes :=
  (service.reached port).map fun handler => handler.receive platform service.now text

def honours (platform : Platform) (port : Nat) (text : String) : Option Handler :=
  (service.reached port).filter fun handler => (handler.onRequest platform service.now text).1 = 200

end Service

def step (platform : Platform) (service : Service) : Event → Option Service
  | .elapse millis => some { service with now := service.now + millis }
  | .start value nodeID nodeName ips =>
    if isTokenValue value then some (service.start value nodeID nodeName ips) else none
  | .stop => some service.stop
  | .run index port =>
    match service.jobs[index]? with
    | none => none
    | some job => { service with jobs := service.jobs.eraseIdx index }.run port job
  | .request port text =>
    match service.honours platform port text with
    | none => some service
    | some handler => some { service with honoured := service.honoured ++ [handler.id] }

/-- What follows an empty line, which may lack its carriage return. -/
def afterEmptyLine : Bytes → Option Bytes
  | 10 :: rest => some rest
  | 13 :: 10 :: rest => some rest
  | _ => none

def splitResponse : Bytes → Option (Bytes × Bytes)
  | [] => none
  | byte :: rest =>
    match (if byte = 10 then afterEmptyLine rest else none) with
    | some body => some ([byte], body)
    | none => (splitResponse rest).map fun parts => (byte :: parts.1, parts.2)

def WellFormed (response : Bytes) : Prop :=
  ∃ head body, splitResponse response = some (head, body) ∧ contentLength head = some body.length

/-- The client's request with the token of a running session that has not expired, at its port. -/
def Service.Shown (service : Service) (session : PairingSession) (port : Nat)
    (text : String) : Prop :=
  service.session = some session ∧ service.isActive = true ∧ session.isValid service.now = true ∧
  port = session.port ∧
    firstLine text = requestLine session.token

/-- The token of the listener is named by a request, and not five minutes old. -/
def Service.names (platform : Platform) (service : Service) (port : Nat) (text : String)
    (handler : Handler) : Prop :=
  service.reached port = some handler ∧ extractedToken platform text = some handler.token.value ∧
    service.now < handler.token.createdAt + tokenLifetime

/-- A shown token pairs; and a token is honoured once, in time, and not after `stop`. -/
structure Proper (platform : Platform) (service : Service) (event : Event) : Prop where
  pairs : ∀ port text session, event = .request port text → service.Shown session port text →
    ∃ response, service.respond platform port text = some response ∧ WellFormed response ∧
      pair platform session.host response = .success
        (relayUrl session.host) session.nodeID session.nodeName
  once : ∀ port text handler, event = .request port text →
    service.honours platform port text = some handler →
    handler.id ∉ service.honoured
  timely : ∀ port text handler, event = .request port text →
    service.honours platform port text = some handler →
    service.now < handler.token.createdAt + tokenLifetime
  started : ∀ port text handler, event = .request port text →
    service.honours platform port text = some handler →
    service.stopped ≤ handler.id

/-- No shown token is sent, and a request that names a listener's token in time is the first, and
before `stop`. -/
def good (platform : Platform) (service : Service) : Event → Prop
  | .request port text =>
    (∀ session, ¬ service.Shown session port text) ∧
      ∀ handler, service.names platform port text handler → handler.id ∉ service.honoured ∧
      service.stopped ≤ handler.id
  | _ => True

variable {platform : Platform} {service after : Service} {handler : Handler}
  {bytes line rest : Bytes} {port now : Nat} {text : String}

theorem afterEmptyLine_return (plain : 10 ∉ bytes) : afterEmptyLine (13 :: bytes) = none := by
  cases bytes with
  | nil => rfl
  | cons =>
    unfold afterEmptyLine
    split
    · rename_i same
      cases same
    · rename_i same
      cases same
      exact absurd List.mem_cons_self plain
    · rfl

theorem splitResponse_eq_none (plain : 10 ∉ bytes) : splitResponse bytes = none := by
  induction bytes with
  | nil => rfl
  | cons _ _ ih =>
    have ⟨other, within⟩ := List.ne_and_not_mem_of_not_mem_cons plain
    simp [splitResponse, Ne.symm other, ih within]

theorem splitResponse_line (plain : 10 ∉ line) (follows : afterEmptyLine rest = none)
    (missing : splitResponse rest = none) :
    splitResponse (line ++ 10 :: rest) = none := by
  induction line with
  | nil => simp [splitResponse, follows, missing]
  | cons _ _ ih =>
    have ⟨other, within⟩ := List.ne_and_not_mem_of_not_mem_cons plain
    simp [splitResponse, Ne.symm other, ih within]

theorem ascii_append (first second : String) :
    ascii (first ++ second) = ascii first ++ ascii second := by
  simp [ascii]

theorem plain_digits (number : Nat) : 10 ∉ ascii (toString number) := by
  intro broken
  obtain ⟨digit, within, code⟩ := List.mem_map.mp broken
  rw [Nat.toString_eq_ofList_toDigits, String.toList_ofList] at within
  have ⟨least, most⟩ := Char.isDigit_iff_toNat.mp
    (Nat.isDigit_of_mem_toDigits (by decide) (by decide) within)
  have small : digit.toNat < 256 := most.trans_lt (by decide)
  have same := congrArg UInt8.toNat code
  rw [UInt8.toNat_ofNat_of_lt' small] at same
  rw [same] at least
  exact absurd least (by decide)

theorem plain_reason (status : Nat) : 10 ∉ ascii (reason status) := by
  unfold reason
  split <;> decide

theorem splitResponse_sendHTTPResponse (status : Nat) (compact : 10 ∉ bytes) :
    splitResponse (sendHTTPResponse status bytes) = none := by
  simp only [sendHTTPResponse, literal, List.append_assoc, List.cons_append]
  have last : splitResponse (ascii "\r" ++ bytes) = none := by
    refine splitResponse_eq_none fun broken => ?_
    rcases List.mem_append.mp broken with inside | inside
    · revert inside
      decide
    · exact compact inside
  have status : 10 ∉ ascii ("HTTP/1.1 " ++ toString status ++ " " ++ reason status ++ "\r") := by
    simp only [ascii_append, List.mem_append, not_or]
    exact ⟨⟨⟨⟨by decide, plain_digits status⟩, by decide⟩, plain_reason status⟩, by decide⟩
  have length : 10 ∉ ascii ("Content-Length: " ++ toString bytes.length ++ "\r") := by
    simp only [ascii_append, List.mem_append, not_or]
    exact ⟨⟨by decide, plain_digits bytes.length⟩, by decide⟩
  refine splitResponse_line status rfl (splitResponse_line (by decide) ?_ (splitResponse_line length rfl
    (splitResponse_line (by decide) ?_ last)))
  · simp only [ascii_append, List.append_assoc]
    rfl
  · exact afterEmptyLine_return compact

def Platform.Compact (platform : Platform) : Prop :=
  ∀ fields json, platform.encode fields = some json → 10 ∉ json

theorem splitResponse_receive (compact : platform.Compact) (handler : Handler) (now : Nat)
    (text : String) :
    splitResponse (handler.receive platform now text) = none := by
  simp only [Handler.receive]
  split
  · exact splitResponse_sendHTTPResponse 500 (by decide)
  · rename_i json encoded
    exact splitResponse_sendHTTPResponse _ (compact _ json encoded)

theorem not_wellFormed (compact : platform.Compact)
    (answered : service.respond platform port text = some response) : ¬ WellFormed response := by
  rintro ⟨_, _, ended, _⟩
  obtain ⟨handler, _, rfl⟩ := Option.map_eq_some_iff.mp answered
  rw [splitResponse_receive compact handler] at ended
  cases ended

theorem pair_thrown (thrown : platform.exchange response = .error message) :
    pair platform host response = .error (message.getD "Connection failed") := by
  simp only [pair, thrown]

theorem isValid_iff {token : PairingToken} : token.isValid now = true ↔
      now < token.createdAt + tokenLifetime := by
  rw [PairingToken.isValid, decide_eq_true_eq]
  have positive : 0 < tokenLifetime := by decide
  omega

theorem honours_iff : service.honours platform port text = some handler ↔
      service.names platform port text handler := by
  rw [Service.honours, Option.filter_eq_some_iff, Service.names, decide_eq_true_eq]
  apply and_congr_right
  intro _
  rw [← isValid_iff, Handler.onRequest]
  cases extractedToken platform text with
  | none => simp
  | some token =>
    rw [Option.some_inj, @eq_comm _ token]
    by_cases accepted : handler.token.value = token ∧ handler.token.isValid service.now = true
    · simp [accepted]
    · simp [accepted]

theorem step_honoured (honoured : service.honours platform port text = some handler) :
    step platform service (.request port text) =
      some { service with honoured := service.honoured ++ [handler.id] } := by
  simp only [step, honoured]

theorem step_refused (refused : service.honours platform port text = none) :
    step platform service (.request port text) = some service := by
  simp only [step, refused]

theorem plain_of_mem (digits : isTokenValue token = true) (within : c ∈ token.toList) :
    c ≠ ' ' ∧ isNewline c = false := by
  simp only [isTokenValue, Bool.and_eq_true, List.all_eq_true] at digits
  have digit := digits.2 c within
  have ⟨above, _⟩ : 48 ≤ c.toNat ∧ c.toNat ≤ 102 := by
    rcases (Bool.or_eq_true _ _).mp digit with decimal | letter
    · have ⟨least, most⟩ := Char.isDigit_iff_toNat.mp decimal
      exact ⟨least, most.trans (by decide)⟩
    · simp only [Bool.and_eq_true, decide_eq_true_eq, Char.le_def, UInt32.le_iff_toNat_le] at letter
      exact ⟨le_trans (by decide) letter.1, letter.2⟩
  refine ⟨?_, ?_⟩
  · rintro rfl
    exact absurd above (by decide)
  · simp only [isNewline, Bool.or_eq_false_iff, Bool.and_eq_false_iff,
      decide_eq_false_iff_not, List.mem_cons,
      List.not_mem_nil, or_false]
    refine ⟨?_, ?_⟩ <;> omega

theorem requestLine_eq (token : String) :
    requestLine token = "GET /pair?token=".toList ++ (token.toList ++ " HTTP/1.1".toList) := by
  simp [requestLine, List.intercalate]

theorem firstLine_requestLine (digits : isTokenValue token = true) (headers : List Char) :
    firstLine (String.ofList (requestLine token ++ '\r' :: '\n' :: headers)) =
      requestLine token := by
  have plain : ∀ c ∈ requestLine token, (!isNewline c) = true := by
    intro c within
    rw [requestLine_eq, List.mem_append, List.mem_append] at within
    have front : ("GET /pair?token=".toList ++ " HTTP/1.1".toList).all fun c => !isNewline c := by decide
    rw [List.all_eq_true] at front
    rcases within with before | inside | behind
    · exact front c (List.mem_append_left _ before)
    · simp [(plain_of_mem digits inside).2]
    · exact front c (List.mem_append_right _ behind)
  rw [firstLine, String.toList_ofList, List.takeWhile_append_of_pos plain]
  simp [isNewline]

theorem extractedToken_requestLine
    (read : platform.queryToken ("/pair?token=" ++ token) = some token)
    (digits : isTokenValue token = true) (sent : firstLine text = requestLine token) :
    extractedToken platform text = some token := by
  have parts : (requestLine token).splitOn ' ' =
      ["GET".toList, ("/pair?token=" ++ token).toList, "HTTP/1.1".toList] := by
    apply List.splitOn_intercalate
    · intro _ among
      simp only [List.mem_cons, List.not_mem_nil, or_false] at among
      rcases among with rfl | rfl | rfl
      · decide
      · rw [String.toList_append, List.mem_append, not_or]
        exact ⟨by decide, fun within => (plain_of_mem digits within).1 rfl⟩
      · decide
    · exact List.cons_ne_nil _ _
  have begins : "GET ".toList.isPrefixOf (requestLine token) = true := by
    rw [requestLine_eq]
    rfl
  simp only [extractedToken, sent, begins, if_true, parts]
  rw [List.getElem?_cons_succ, List.getElem?_cons_zero, Option.bind_some, String.ofList_toList, read]

theorem proper_iff_good (compact : platform.Compact) (event : Event) :
    Proper platform service event ↔ good platform service event := by
  cases event with
  | request port text =>
    constructor
    · intro proper
      constructor
      · intro session shown
        obtain ⟨_, answered, wellFormed, _⟩ := proper.pairs port text session rfl shown
        exact not_wellFormed compact answered wellFormed
      · intro handler named
        have honoured := honours_iff.mpr named
        exact ⟨proper.once port text handler rfl honoured, proper.started port text handler rfl honoured⟩
    · intro ⟨unshown, first⟩
      constructor
      · rintro _ _ session ⟨⟩ shown
        exact absurd shown (unshown session)
      · rintro _ _ handler ⟨⟩ honoured
        exact (first handler (honours_iff.mp honoured)).1
      · rintro _ _ handler ⟨⟩ honoured
        exact (honours_iff.mp honoured).2.2
      · rintro _ _ handler ⟨⟩ honoured
        exact (first handler (honours_iff.mp honoured)).2
  | elapse | start | stop | run =>
    refine ⟨fun _ => trivial, fun _ => ⟨?_, ?_, ?_, ?_⟩⟩ <;> rintro _ _ _ ⟨⟩

/-- In every run: the steps are proper exactly when no shown token is sent to its session, and each
request that names a listener's token in time is the first one and comes before `stop`. -/
theorem proper_iff (compact : platform.Compact) {events : List Event} {final : Service}
    (run : Execution (step platform) anything .fresh events final) :
    EveryStep (step platform) (fun service event _ => Proper platform service event) .fresh events ↔
      Execution (step platform) (good platform) .fresh events final :=
  run.everyStep_iff (fun _ => True) trivial (fun _ _ _ _ _ => trivial) fun _ event _ _ _ =>
  proper_iff_good compact event

def sampleToken : PairingToken :=
  { value := "0123456789abcdef0123456789abcdef0123456789abcdef0123456789abcdef", createdAt := 0 }

def sampleHandler : Handler :=
  { id := 0, token := sampleToken, nodeID := "mac-1", nodeName := "Studio", ips := ["192.168.1.2"] }

def sampleText (bytes : Bytes) : String :=
  String.ofList (bytes.map fun byte => Char.ofNat byte.toNat)

/-- Members of strings and numbers in compact form, and a response without its empty line throws. -/
def samplePlatform : Platform where
  queryToken address := if "/pair?token=".toList.isPrefixOf address.toList then
    some (String.ofList (address.toList.drop 12)) else none
  date now := toString (now / 1000)
  encode fields :=
    let member (field : String × Value) := "\"" ++ field.1 ++ "\":" ++
      match field.2 with
      | .string text => "\"" ++ text ++ "\""
      | .boolean value => toString value
      | .number text => text
    let json := ascii ("\x7b" ++ ",".intercalate (fields.map member) ++ "\x7d")
    if 10 ∈ json then none else some json
  exchange response :=
    match splitResponse response with
    | none => .error (some "unexpected end of stream")
    | some (head, body) =>
      .ok
        { responseCode := (statusCode head).getD 0, inputStream := sampleText body
          errorStream := none }
  parse _ := .error none

theorem samplePlatform_compact : samplePlatform.Compact := by
  intro _ _ encoded
  simp only [samplePlatform] at encoded
  split at encoded
  · cases encoded
  · cases encoded
    assumption

def sampleEvents : List Event :=
  [ .start sampleToken.value "mac-1" "Studio" ["192.168.1.2"], .run 0 none, .run 0 none,
    .run 0 none, .run 0 (some 51000)
  , .run 0 none ]

def sampleSession : PairingSession :=
  { token := sampleToken.value, port := 51000, createdAt := 0, nodeID := "mac-1",
    nodeName := "Studio", ipAddresses := ["192.168.1.2"] }

def sampleShown : Service :=
  { Service.fresh with
    server := some 0
    listening := fun server => if server = 0 then some 51000 else none
    listeners := [{ port := 51000, handler := sampleHandler }]
    isActive := true
    session := some sampleSession
    count := 1 }

def sampleRequest : String :=
  String.ofList (requestLine sampleToken.value ++ "\r\nHost: 192.168.1.2:51000\r\n\r\n".toList)

theorem sampleToken_digits : isTokenValue sampleToken.value = true := by decide +kernel

theorem sample_good : Execution (step samplePlatform)
      (good samplePlatform) .fresh sampleEvents sampleShown := by
  have started : step samplePlatform .fresh (.start sampleToken.value "mac-1" "Studio" ["192.168.1.2"]) =
      some (Service.fresh.start sampleToken.value "mac-1" "Studio" ["192.168.1.2"]) := by
    rw [step, if_pos sampleToken_digits]
  exact .next trivial started
    (.next trivial rfl (.next trivial rfl (.next trivial rfl (.next trivial rfl (.single trivial rfl)))))

theorem sample_run : Execution (step samplePlatform) anything .fresh sampleEvents sampleShown :=
  sample_good.plain

theorem sample_shown : sampleShown.Shown sampleSession 51000 sampleRequest :=
  ⟨rfl, rfl, rfl, rfl, firstLine_requestLine sampleToken_digits "Host: 192.168.1.2:51000\r\n\r\n".toList⟩

theorem sample_extracted :
    extractedToken samplePlatform sampleRequest = some sampleToken.value := by
  refine extractedToken_requestLine ?_ sampleToken_digits sample_shown.2.2.2.2
  decide +kernel

/-- The events after the session is shown: the client's request, and the end of the session. -/
def laterEvents : List Event := [.request 51000 sampleRequest, .stop, .run 0 none]

def sampleStopped : Service :=
  { sampleShown with server := none, isActive := false, session := none, stopped := 1, honoured := [0] }

theorem stopped_run : Execution (step samplePlatform) anything sampleShown laterEvents
      sampleStopped :=
  .next trivial (step_honoured (honours_iff.mpr ⟨rfl, sample_extracted, by decide⟩))
  (.next trivial rfl (.single trivial rfl))

def expiredEvents : List Event := [.elapse tokenLifetime, .request 51000 sampleRequest]

/-- Five minutes later the client's request is refused, as it should be. -/
theorem proper_iff_sample :
    ∃ final, Execution (step samplePlatform) anything .fresh sampleEvents sampleShown ∧
    Execution (step samplePlatform) anything sampleShown expiredEvents final ∧
    EveryStep (step samplePlatform)
      (fun service event _ => Proper samplePlatform service event) .fresh
        (sampleEvents ++ expiredEvents) := by
  set expired : Service := { sampleShown with now := tokenLifetime }
  have late : ∀ handler, ¬ expired.names samplePlatform 51000 sampleRequest handler := by
    rintro handler ⟨reached, _, young⟩
    cases reached
    exact absurd young (by decide)
  have unshown : ∀ session, ¬ expired.Shown session 51000 sampleRequest := by
    rintro _ ⟨current, _, valid, _⟩
    cases current
    cases valid
  have refused : expired.honours samplePlatform 51000 sampleRequest = none :=
    Option.eq_none_iff_forall_ne_some.mpr fun handler honoured => late handler (honours_iff.mp honoured)
  have ends : Execution (step samplePlatform) (good samplePlatform) sampleShown expiredEvents expired :=
    .next trivial rfl (.single ⟨unshown, fun handler named => absurd named (late handler)⟩
      (step_refused refused))
  have whole := sample_good.append ends
  exact ⟨expired, sample_run, ends.plain, (proper_iff samplePlatform_compact whole.plain).mpr whole⟩

theorem samplePlatform_exchange (endless : splitResponse response = none) :
    samplePlatform.exchange response = .error (some "unexpected end of stream") := by
  simp only [samplePlatform, endless]

/-- The client gets no well-formed response, and after `stop` the token is honoured a second time. -/
theorem not_paired :
    Execution (step samplePlatform) anything .fresh sampleEvents sampleShown ∧
    sampleShown.Shown sampleSession 51000 sampleRequest ∧
    (∃ response, sampleShown.respond samplePlatform 51000 sampleRequest = some response ∧
      ¬ WellFormed response ∧
      pair samplePlatform sampleSession.host response = .error "unexpected end of stream") ∧
    Execution (step samplePlatform) anything sampleShown laterEvents sampleStopped ∧
    sampleStopped.honours samplePlatform 51000 sampleRequest = some sampleHandler ∧
    sampleHandler.id ∈ sampleStopped.honoured ∧ sampleHandler.id < sampleStopped.stopped := by
  have answered : sampleShown.respond samplePlatform 51000 sampleRequest =
      some (sampleHandler.receive samplePlatform 0 sampleRequest) := rfl
  have throws := samplePlatform_exchange
    (splitResponse_receive samplePlatform_compact sampleHandler 0 sampleRequest)
  refine ⟨sample_run, sample_shown,
    ⟨_, answered, not_wellFormed samplePlatform_compact answered, ?_⟩, stopped_run, ?_, ?_, ?_⟩
  · exact pair_thrown throws
  · exact honours_iff.mpr ⟨rfl, sample_extracted, by decide⟩
  · exact List.mem_cons_self
  · decide

end DistributedOs.Pairing.Qr
