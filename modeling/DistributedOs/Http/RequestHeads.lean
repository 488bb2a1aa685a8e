import DistributedOs.Semantics.Heads
import DistributedOs.Nio.Headers
import DistributedOs.Http.NameDecoding
import DistributedOs.Semantics.LossyText
import Mathlib.Data.List.DropRight

/-! What an upload writes on its connection, and how the dashboard reads it back. -/

namespace DistributedOs.Http

open Semantics Reliable

def headField (name value : String) : HeadField := { name := name.toList, value := value.toList }

/-- The `header` of `upload_single_file` and `upload_directory`, and of the tasks of
`upload_parallel`, which name an offset and the size of the file as well. -/
def UploadRequest.head (host : String) (port : UInt16) (request : UploadRequest) : Head where
  first := "POST /api/receive-file HTTP/1.1".toList
  fields :=
    [headField "Host" (host ++ ":" ++ toString port.toNat),
      headField "Content-Type" "application/octet-stream",
      headField "X-Filename" request.filename] ++
      (request.offset.map fun offset => headField "X-Offset" (toString offset)).toList ++
      (request.totalSize.map fun size => headField "X-Total-Size" (toString size)).toList ++
      [headField "Content-Length" (toString request.content.length), headField "Connection" "close"]

def UploadRequest.headBytes (host : String) (port : UInt16) (request : UploadRequest) : Bytes :=
  utf8 (String.ofList (request.head host port).text)

def UploadRequest.wire (host : String) (port : UInt16) (request : UploadRequest) : Bytes :=
  request.headBytes host port ++ request.content

/-- The answer to a request whose head announces nothing, or the request, under the name as it is
written in its head, and the length that is announced. -/
inductive ReceivedUpload where
  | refused (status : Nat) (body : String)
  | read (request : UploadRequest) (contentLength : Nat)
  deriving DecidableEq

namespace Dashboard

/-- The loop of `handle_connection`, which reads one byte at a time. -/
def readHead (headerBuf : Bytes) : Bytes → Option (Bytes × Bytes)
  | [] => none
  | byte :: rest =>
    let headerBuf := headerBuf ++ [byte]
    if Nio.blankLine.isSuffixOf headerBuf then some (headerBuf, rest)
    else if 32768 < headerBuf.length then none
    else readHead headerBuf rest

def splitWhitespace (text : List Char) : List (List Char) :=
  (text.splitOnP Containment.isWhitespace).filter (· ≠ [])

/-- The method and the path of the request line, without the query. -/
def requestLine (headerStr : List Char) : Option (List Char × List Char) :=
  (lines headerStr).head?.map fun line =>
    let parts := splitWhitespace (line.rdropWhile (· = '\r'))
    (parts[0]?.getD "GET".toList, (parts[1]?.getD "/".toList).takeWhile (· ≠ '?'))

/-- The number after the first colon of the header's line, up to a second one. -/
def headerNumber (header : String) (headerStr : List Char) : Option Nat :=
  (headerLine header.toList headerStr).bind fun line =>
    (line.splitOn ':')[1]?.bind fun value => (parseU64 (Containment.trim value)).map UInt64.toNat

/-- `handle_connection` and the start of `handle_receive_file`, with what its loop reads of the
body. The other routes are left out. -/
def readUpload (timestamp : Nat) (stream : Bytes) : Option ReceivedUpload :=
  (readHead [] stream).bind fun (headerBuf, body) =>
    let headerStr := lossy headerBuf
    (requestLine headerStr).bind fun (method, path) =>
      if method = "POST".toList ∧ path = "/api/receive-file".toList then
        let contentLength := (headerNumber "content-length:" headerStr).getD 0
        if contentLength = 0 then some (.refused 400 "\x7b\"error\":\"Empty file\"\x7d")
        else
          let request :=
            { filename := Containment.tmpFilename (String.ofList headerStr) timestamp
              offset := headerNumber "x-offset:" headerStr
              totalSize := headerNumber "x-total-size:" headerStr
              content := body.take contentLength }
          some (.read request contentLength)
      else none

end Dashboard

variable {line rest body head stream taken : Bytes} {text : List Char} {parts : List Bytes}
  {host name : String} {port : UInt16} {request : UploadRequest} {written : Head}

theorem splitHeader_other (other : byte ≠ 13) (rest : Bytes) :
    Nio.splitHeader (byte :: rest) = (Nio.splitHeader rest).map fun parts =>
      (byte :: parts.1, parts.2) := by
  rw [Nio.splitHeader, if_neg]
  intro blank
  exact other (List.cons.inj blank).1

theorem splitHeader_line (plain : 13 ∉ line) (next : rest.take 2 ≠ [13, 10]) :
    Nio.splitHeader (line ++ 13 :: 10 :: rest) =
      (Nio.splitHeader rest).map fun parts => (line ++ 13 :: 10 :: parts.1, parts.2) := by
  induction line with
  | nil =>
    have more : ¬ (13 :: 10 :: rest).take 4 = Nio.blankLine :=
      fun blank => next (List.cons.inj (List.cons.inj blank).2).2
    rw [List.nil_append, Nio.splitHeader, if_neg more, splitHeader_other (by decide), Option.map_map]
    rfl
  | cons _ _ ih =>
    rw [List.mem_cons, not_or] at plain
    rw [List.cons_append, splitHeader_other (Ne.symm plain.1), ih plain.2, Option.map_map]
    rfl

theorem splitHeader_end (plain : 13 ∉ line) (body : Bytes) :
    Nio.splitHeader (line ++ 13 :: 10 :: 13 :: 10 :: body) =
      some (line ++ Nio.blankLine, body) := by
  induction line with
  | nil =>
    rw [List.nil_append, Nio.splitHeader, if_pos (by rfl)]
    rfl
  | cons _ _ ih =>
    rw [List.mem_cons, not_or] at plain
    rw [List.cons_append, splitHeader_other (Ne.symm plain.1), ih plain.2]
    rfl

/-- Lines are passed over up to the empty one. -/
theorem splitHeader_lines (nonempty : parts ≠ []) (plain : ∀ line ∈ parts, 13 ∉ line ∧ line ≠ [])
    (body : Bytes) :
    Nio.splitHeader (parts.flatMap (· ++ [13, 10]) ++ 13 :: 10 :: body) =
      some (parts.flatMap (· ++ [13, 10]) ++ [13, 10], body) := by
  induction parts with
  | nil => exact absurd rfl nonempty
  | cons line parts ih =>
    rw [List.forall_mem_cons] at plain
    cases parts with
    | nil =>
      have ended := splitHeader_end plain.1.1 body
      simpa [Nio.blankLine] using ended
    | cons second parts =>
      have later := ih (List.cons_ne_nil _ _) plain.2
      have begun :
          ((second :: parts).flatMap (· ++ [13, 10]) ++ 13 :: 10 :: body).take 2 ≠ [13, 10] := by
        have ⟨unbroken, filled⟩ := plain.2 second List.mem_cons_self
        cases second with
        | nil => exact absurd rfl filled
        | cons =>
          intro same
          exact unbroken (List.mem_cons.mpr (.inl (List.cons.inj same).1.symm))
      have whole : (line :: second :: parts).flatMap (· ++ [13, 10]) ++ 13 :: 10 :: body =
          line ++ 13 :: 10 :: ((second :: parts).flatMap (· ++ [13, 10]) ++ 13 :: 10 :: body) := by
        rw [List.flatMap_cons, List.append_assoc, List.append_assoc]
        rfl
      rw [whole, splitHeader_line plain.1.1 begun, later, List.flatMap_cons]
      simp

/-- A byte more ends the head only where the blank line ends with it. -/
theorem splitHeader_concat {byte : UInt8} (unended : Nio.splitHeader taken = none) :
    Nio.splitHeader (taken ++ [byte]) =
      if Nio.blankLine.isSuffixOf (taken ++ [byte]) then some (taken ++ [byte], []) else none := by
  cases split : Nio.splitHeader (taken ++ [byte]) with
  | none =>
    rw [if_neg]
    intro blank
    have ended := Nio.splitHeader_isSome (List.isSuffixOf_iff_suffix.mp blank)
    rw [split] at ended
    cases ended
  | some found =>
    obtain ⟨head, body⟩ := found
    have whole := Nio.splitHeader_eq split
    have blank := Nio.blankLine_suffix split
    cases body using List.reverseRecOn with
    | nil =>
      rw [List.append_nil] at whole
      rw [whole, if_pos (List.isSuffixOf_iff_suffix.mpr blank)]
    | append_singleton body =>
      -- then the head was there already
      rw [← List.append_assoc] at whole
      obtain ⟨earlier, _⟩ := List.append_inj' whole rfl
      obtain ⟨_, found⟩ := Option.isSome_iff_exists.mp (Nio.splitHeader_isSome blank)
      rw [earlier, Nio.splitHeader_append found body] at unended
      cases unended

theorem splitHeader_front (whole : Nio.splitHeader head = some (head, [])) (front : stream <+: head)
    (shorter : stream.length < head.length) :
    Nio.splitHeader stream = none := by
  obtain ⟨rest, rfl⟩ := front
  cases split : Nio.splitHeader stream with
  | none => rfl
  | some =>
    rw [Nio.splitHeader_append split rest] at whole
    obtain ⟨_, ended⟩ := Prod.mk.inj (Option.some.inj whole)
    have missing := congrArg List.length ended
    rw [List.length_append] at shorter missing
    rw [List.length_nil] at missing
    omega

theorem carriage_notMem (plain : OneLine text) : 13 ∉ text.flatMap String.utf8EncodeChar := by
  intro member
  obtain ⟨c, inside, byte⟩ := List.mem_flatMap.mp member
  by_cases ascii : c.toNat < 128
  · rw [utf8EncodeChar_ascii ascii, List.mem_singleton] at byte
    have code := congrArg UInt8.toNat byte
    rw [UInt8.toNat_ofNat', Nat.mod_eq_of_lt (Nat.lt_trans ascii (by decide))] at code
    have same : c = '\r' := Char.toNat_inj.mp code.symm
    rw [same] at inside
    exact plain.carriage inside
  · have high := utf8EncodeChar_high (Nat.le_of_not_lt ascii) byte
    exact absurd high (by decide)

theorem flatMap_utf8_ne_nil (nonempty : text ≠ []) : text.flatMap String.utf8EncodeChar ≠ [] := by
  cases text with
  | nil => exact absurd rfl nonempty
  | cons c =>
    intro empty
    rw [List.flatMap_cons] at empty
    have short := congrArg List.length (List.append_eq_nil_iff.mp empty).1
    rw [String.length_utf8EncodeChar, List.length_nil] at short
    exact absurd short (Nat.ne_of_gt c.utf8Size_pos)

theorem utf8_text (written : Head) : utf8 (String.ofList written.text) =
    (written.lines.map (·.flatMap String.utf8EncodeChar)).flatMap (· ++ [13, 10]) ++ [13, 10] := by
  have ends : crlf.flatMap String.utf8EncodeChar = [13, 10] := by decide
  rw [utf8_eq, String.toList_ofList, Head.text, List.flatMap_append, List.flatMap_assoc, ends,
    List.flatMap_map]
  congr 1
  refine List.flatMap_congr fun line _ => ?_
  rw [List.flatMap_append, ends]

theorem splitHeader_head (sound : written.WellFormed) (body : Bytes) :
    Nio.splitHeader (utf8 (String.ofList written.text) ++ body) =
      some (utf8 (String.ofList written.text), body) := by
  have plain : ∀ line ∈ written.lines.map (·.flatMap String.utf8EncodeChar), 13 ∉ line ∧ line ≠ [] := by
    intro _ member
    obtain ⟨text, inside, rfl⟩ := List.mem_map.mp member
    have ⟨single, filled⟩ := sound.lines text inside
    exact ⟨carriage_notMem single, flatMap_utf8_ne_nil filled⟩
  rw [utf8_text, List.append_assoc]
  exact splitHeader_lines (List.cons_ne_nil _ _) plain body

theorem splitHeader_sent (sound : written.WellFormed)
    (arrived : stream <+: utf8 (String.ofList written.text) ++ body) :
    Nio.splitHeader stream =
      if (utf8 (String.ofList written.text)).length ≤ stream.length then
        some (utf8 (String.ofList written.text),
          stream.drop (utf8 (String.ofList written.text)).length)
      else none := by
  have whole := splitHeader_head sound []
  rw [List.append_nil] at whole
  split
  · rename_i enough
    obtain ⟨rest, rfl⟩ := List.prefix_of_prefix_length_le (List.prefix_append _ body) arrived enough
    rw [splitHeader_head sound rest, List.drop_left]
  · rename_i shorter
    exact splitHeader_front whole
      (List.prefix_of_prefix_length_le arrived (List.prefix_append _ body) (by omega)) (by omega)

theorem isDigit_toString {number : Nat} (member : c ∈ (toString number).toList) :
    c.isDigit = true := by
  rw [Nat.toString_eq_repr, Nat.toList_repr] at member
  exact Nat.isDigit_of_mem_toDigits (by decide) (by decide) member

theorem oneLine_toString (number : Nat) : OneLine (toString number).toList :=
  ⟨fun member => absurd (isDigit_toString member) (by decide), fun member =>
    absurd (isDigit_toString member) (by decide)⟩

theorem oneLine_urlencode (name : String) : OneLine (urlencode name).toList :=
  ⟨fun member => absurd (isEncoded_urlencode name _ member) (by decide),
    fun member => absurd (isEncoded_urlencode name _ member) (by decide)⟩

theorem oneLine_host (single : OneLine host.toList)
    (port : UInt16) : OneLine (host ++ ":" ++ toString port.toNat).toList := by
  rw [String.toList_append, String.toList_append]
  exact (single.append ⟨by decide, by decide⟩).append (oneLine_toString port.toNat)

/-- Nothing that ends a line or the name. -/
def isHeader (name : String) : Bool := name.toList.all fun c => c ≠ ':' && c ≠ '\r' && c ≠ '\n'

theorem wellFormed_field (plain : isHeader header = true) (single : OneLine value.toList) :
    (headField header value).WellFormed := by
  have other : ∀ c ∈ header.toList, c ≠ ':' ∧ c ≠ '\r' ∧ c ≠ '\n' := by
    simpa [isHeader, and_assoc] using plain
  exact ⟨⟨fun member => (other _ member).2.1 rfl, fun member => (other _ member).2.2 rfl⟩,
    fun member => (other _ member).1 rfl, single⟩

theorem wellFormed_option (plain : isHeader header = true) (number : Option Nat) :
    ∀ field ∈ (number.map fun number => headField header (toString number)).toList,
      field.WellFormed := by
  intro _ member
  obtain ⟨number, _, rfl⟩ := Option.map_eq_some_iff.mp (Option.mem_toList.mp member)
  exact wellFormed_field plain (oneLine_toString number)

theorem wellFormed_head (single : OneLine host.toList) (named : request.filename = urlencode name)
    (port : UInt16) :
    (request.head host port).WellFormed := by
  have first : OneLine "POST /api/receive-file HTTP/1.1".toList := ⟨by decide, by decide⟩
  have kind : OneLine "application/octet-stream".toList := ⟨by decide, by decide⟩
  have close : OneLine "close".toList := ⟨by decide, by decide⟩
  have filename : OneLine request.filename.toList := named ▸ oneLine_urlencode name
  refine ⟨first, List.cons_ne_nil _ _, ?_⟩
  refine List.forall_mem_append.mpr
    ⟨List.forall_mem_append.mpr ⟨List.forall_mem_append.mpr ⟨?_, ?_⟩, ?_⟩, ?_⟩
  · rw [List.forall_mem_cons, List.forall_mem_cons, List.forall_mem_singleton]
    exact ⟨wellFormed_field rfl (oneLine_host single port), wellFormed_field rfl kind,
      wellFormed_field rfl filename⟩
  · exact wellFormed_option rfl request.offset
  · exact wellFormed_option rfl request.totalSize
  · rw [List.forall_mem_cons, List.forall_mem_singleton]
    exact ⟨wellFormed_field rfl (oneLine_toString _), wellFormed_field rfl close⟩

/-- A reader of heads that takes one byte more at a time, for as long as they are not longer than a
limit. -/
structure ReadsHead (limit : Nat) (read : Bytes → Bytes → Option (Bytes × Bytes)) : Prop where
  closed : ∀ taken, read taken [] = none
  ended : ∀ taken byte rest, taken.length < limit → Nio.blankLine.isSuffixOf (taken ++ [byte]) = true →
    read taken (byte :: rest) = some (taken ++ [byte], rest)
  goesOn : ∀ taken byte rest, taken.length + 1 < limit →
    Nio.blankLine.isSuffixOf (taken ++ [byte]) = false →
    read taken (byte :: rest) = read (taken ++ [byte]) rest
  full : ∀ taken byte rest, taken.length + 1 = limit →
    Nio.blankLine.isSuffixOf (taken ++ [byte]) = false →
    read taken (byte :: rest) = none

variable {limit : Nat} {read : Bytes → Bytes → Option (Bytes × Bytes)}

theorem length_lt_of_splitHeader (unended : Nio.splitHeader taken = none)
    (split : Nio.splitHeader (taken ++ rest) = some (head, body)) :
    taken.length < head.length := by
  by_contra within
  have front : head <+: taken := by
    refine List.prefix_of_prefix_length_le ?_ (List.prefix_append taken rest) (Nat.le_of_not_lt within)
    exact ⟨body, (Nio.splitHeader_eq split).symm⟩
  obtain ⟨_, ended⟩ := Option.isSome_iff_exists.mp (Nio.splitHeader_isSome (Nio.blankLine_suffix split))
  obtain ⟨later, rfl⟩ := front
  rw [Nio.splitHeader_append ended later] at unended
  cases unended

theorem ReadsHead.onward (reads : ReadsHead limit read) (unended : Nio.splitHeader taken = none)
    (within : taken.length < limit)
    (stream : Bytes) : read taken stream = (Nio.splitHeader (taken ++ stream)).filter fun parts =>
      parts.1.length ≤ limit := by
  induction stream generalizing taken with
  | nil =>
    rw [reads.closed, List.append_nil, unended]
    rfl
  | cons byte rest ih =>
    have next := @splitHeader_concat taken byte unended
    have size : (taken ++ [byte]).length = taken.length + 1 := List.length_append
    rw [List.append_cons]
    cases blank : Nio.blankLine.isSuffixOf (taken ++ [byte]) with
    | true =>
      rw [blank, if_pos rfl] at next
      rw [reads.ended taken byte rest within blank, Nio.splitHeader_append next rest, Option.filter_some,
        if_pos (by rw [size]; exact decide_eq_true within)]
      rfl
    | false =>
      rw [blank, if_neg Bool.false_ne_true] at next
      rcases Nat.lt_or_ge (taken.length + 1) limit with room | _
      · rw [reads.goesOn taken byte rest room blank]
        exact ih next (by omega)
      · rw [reads.full taken byte rest (by omega) blank]
        cases split : Nio.splitHeader (taken ++ [byte] ++ rest) with
        | none => rfl
        | some =>
          have longer := length_lt_of_splitHeader next split
          rw [Option.filter_some, if_neg]
          rw [decide_eq_true_iff]
          omega

theorem ReadsHead.eq (reads : ReadsHead limit read) (positive : 0 < limit) (stream : Bytes) :
    read [] stream = (Nio.splitHeader stream).filter fun parts => parts.1.length ≤ limit := by
  have empty : ([] : Bytes).length < limit := positive
  exact reads.onward rfl empty stream

namespace Dashboard

theorem readsHead : ReadsHead 32769 readHead := by
  refine ⟨fun _ => rfl, ?_, ?_, ?_⟩
  · intro taken byte rest _ blank
    simp only [readHead, blank, if_true]
  · intro taken byte rest _ open_
    have size : (taken ++ [byte]).length = taken.length + 1 := List.length_append
    simp only [readHead, open_, Bool.false_eq_true, if_false,
      if_neg (show ¬ 32768 < (taken ++ [byte]).length by omega)]
  · intro taken byte _ _ open_
    have size : (taken ++ [byte]).length = taken.length + 1 := List.length_append
    simp only [readHead, open_, Bool.false_eq_true, if_false,
      if_pos (show 32768 < (taken ++ [byte]).length by omega)]

theorem trim_blank (filled : ∀ c ∈ text, Containment.isWhitespace c = false) :
    Containment.trim (' ' :: text) = text := by
  have stays {chars : List Char} (filled : ∀ c ∈ chars, Containment.isWhitespace c = false) :
      chars.dropWhile Containment.isWhitespace = chars := by
    cases chars with
    | nil => rfl
    | cons c => exact List.dropWhile_cons_of_neg (Bool.eq_false_iff.mp (filled c List.mem_cons_self))
  have blank : Containment.isWhitespace ' ' = true := rfl
  rw [Containment.trim, List.dropWhile_cons_of_pos blank, stays filled,
    stays fun c member => filled c (List.mem_reverse.mp member), List.reverse_reverse]

theorem isWhitespace_digit (digit : c.isDigit = true) : Containment.isWhitespace c = false := by
  obtain ⟨_, _⟩ := Char.isDigit_iff_toNat.mp digit
  have zero : '0'.toNat = 48 := rfl
  have nine : '9'.toNat = 57 := rfl
  simp only [Containment.isWhitespace, Bool.or_eq_false_iff, Bool.and_eq_false_iff,
    decide_eq_false_iff_not]
  omega

variable {spelled header : String} {lower : List Char}

theorem headerNumber_text {number : Nat} (sound : written.WellFormed) (small : number < 2 ^ 64)
    (spelling : spelled.toList = lower ++ [':']) (plain : ':' ∉ lower)
    (other : beginsWith spelled.toList written.first = false)
    (found : written.fields.find? (HeadField.named lower) =
      some (headField header (toString number))) :
    headerNumber spelled written.text = some number := by
  have field := sound.fields _ (List.mem_of_find?_eq_some found)
  have digits : (toString number).toList = Nat.toDigits 10 number := by
    rw [Nat.toString_eq_repr, Nat.toList_repr]
  have colon : ':' ∉ (headField header (toString number)).value :=
    fun member => absurd (isDigit_toString member) (by decide)
  have value : Containment.trim (' ' :: (toString number).toList) = Nat.toDigits 10 number := by
    rw [trim_blank fun c member => isWhitespace_digit (isDigit_toString member), digits]
  rw [spelling] at other
  rw [headerNumber, spelling, sound.headerLine plain other, found, Option.map_some,
    Option.bind_some, field.split colon, List.getElem?_cons_succ, List.getElem?_cons_zero,
    Option.bind_some,
    show (headField header (toString number)).value = (toString number).toList from rfl, value,
      parseU64_toDigits small,
    Option.map_some, UInt64.toNat_ofNat_of_lt' small]

theorem headerNumber_none (sound : written.WellFormed) (spelling : spelled.toList = lower ++ [':'])
    (plain : ':' ∉ lower) (other : beginsWith spelled.toList written.first = false)
    (missing : written.fields.find? (HeadField.named lower) = none) :
    headerNumber spelled written.text = none := by
  rw [spelling] at other
  rw [headerNumber, spelling, sound.headerLine plain other, missing]
  rfl

theorem first_head (host : String) (port : UInt16) (request : UploadRequest) :
    (request.head host port).first = "POST /api/receive-file HTTP/1.1".toList := rfl

theorem headerNumber_contentLength (single : OneLine host.toList)
    (named : request.filename = urlencode name) (small : request.content.length < 2 ^ 64)
    (port : UInt16) :
    headerNumber "content-length:" (request.head host port).text = some request.content.length := by
  have found : (request.head host port).fields.find? (HeadField.named "content-length".toList) =
      some (headField "Content-Length" (toString request.content.length)) := by
    unfold UploadRequest.head
    cases request.offset <;> cases request.totalSize <;> rfl
  exact headerNumber_text (wellFormed_head single named port) small (by decide) (by decide)
    (by rw [first_head]; decide) found

theorem headerNumber_offset (single : OneLine host.toList)
    (named : request.filename = urlencode name)
    (small : ∀ offset, request.offset = some offset → offset < 2 ^ 64) (port : UInt16) :
    headerNumber "x-offset:" (request.head host port).text = request.offset := by
  have sound : (request.head host port).WellFormed := wellFormed_head single named port
  have found : (request.head host port).fields.find? (HeadField.named "x-offset".toList) =
      request.offset.map fun offset => headField "X-Offset" (toString offset) := by
    unfold UploadRequest.head
    cases request.offset <;> cases request.totalSize <;> rfl
  cases given : request.offset with
  | none =>
    rw [given] at found
    exact headerNumber_none sound (by decide) (by decide) (by rw [first_head]; decide) found
  | some offset =>
    rw [given] at found
    exact headerNumber_text sound (small offset given) (by decide) (by decide)
      (by rw [first_head]; decide) found

theorem headerNumber_totalSize (single : OneLine host.toList)
    (named : request.filename = urlencode name)
    (small : ∀ size, request.totalSize = some size → size < 2 ^ 64) (port : UInt16) :
    headerNumber "x-total-size:" (request.head host port).text = request.totalSize := by
  have sound : (request.head host port).WellFormed := wellFormed_head single named port
  have found : (request.head host port).fields.find? (HeadField.named "x-total-size".toList) =
      request.totalSize.map fun size => headField "X-Total-Size" (toString size) := by
    unfold UploadRequest.head
    cases request.offset <;> cases request.totalSize <;> rfl
  cases given : request.totalSize with
  | none =>
    rw [given] at found
    exact headerNumber_none sound (by decide) (by decide) (by rw [first_head]; decide) found
  | some size =>
    rw [given] at found
    exact headerNumber_text sound (small size given) (by decide) (by decide)
      (by rw [first_head]; decide) found

theorem headLine_field {start value : String}
    (spelling : start.toList = header.toList ++ [':', ' ']) :
    headLine (start ++ value) = (headField header value).line ++ crlf := by
  rw [headLine, String.toList_append, spelling, HeadField.line, List.append_assoc,
    List.append_assoc, List.append_assoc]
  rfl

theorem exists_text_head (single : OneLine host.toList) (named : request.filename = urlencode name)
    (port : UInt16) :
    ∃ later, String.ofList (request.head host port).text = uploadHead ⟨host, single.newline⟩ port
      name later := by
  have fields : (request.head host port).fields = headField "Host"
    (host ++ ":" ++ toString port.toNat) ::
      headField "Content-Type" "application/octet-stream" :: headField "X-Filename" request.filename ::
        (request.head host port).fields.drop 3 := rfl
  have address : "Host: " ++ host ++ ":" ++ toString port.toNat = "Host: " ++
      (host ++ ":" ++ toString port.toNat) := by
    simp only [String.append_assoc]
  have hostLine := @headLine_field "Host" "Host: " (host ++ ":" ++ toString port.toNat) (by decide)
  have kindLine : headLine "Content-Type: application/octet-stream" =
      (headField "Content-Type" "application/octet-stream").line ++ crlf := by decide
  have nameLine := @headLine_field "X-Filename" "X-Filename: " request.filename (by decide)
  refine ⟨String.ofList
    ((((request.head host port).fields.drop 3).map HeadField.line).flatMap (· ++ crlf) ++ crlf), ?_⟩
  rw [uploadHead, String.toList_ofList, address, hostLine, kindLine, ← named, nameLine, Head.text,
    Head.lines, fields]
  simp only [List.map_cons, List.flatMap_cons, List.append_assoc]
  rfl

theorem tmpFilename_head (single : OneLine host.toList) (named : request.filename = urlencode name)
    (port : UInt16) (timestamp : Nat) :
    Containment.tmpFilename (String.ofList (request.head host port).text) timestamp =
      request.filename := by
  obtain ⟨_, front⟩ := exists_text_head single named port
  rw [Containment.tmpFilename, front, xFilename_uploadHead, Option.getD_some, named]

theorem requestLine_head (single : OneLine host.toList) (named : request.filename = urlencode name)
    (port : UInt16) :
    requestLine (request.head host port).text =
      some ("POST".toList, "/api/receive-file".toList) := by
  rw [requestLine, (wellFormed_head single named port).lines_text, Head.lines, List.cons_append,
    List.head?_cons, Option.map_some, first_head]
  decide

end Dashboard

/-- The numbers of a request fit, and its name is encoded. -/
structure UploadRequest.Sendable (request : UploadRequest) (name : String) : Prop where
  named : request.filename = urlencode name
  offset : ∀ offset, request.offset = some offset → offset < 2 ^ 64
  totalSize : ∀ size, request.totalSize = some size → size < 2 ^ 64
  content : request.content.length < 2 ^ 64

variable {file : Bytes} {displayName : String} {numStreams : Nat}

theorem length_content_le
    (sent : request ∈ uploadSingleFile displayName file ++
      uploadParallel displayName file numStreams) :
    request.content.length ≤ file.length := by
  rcases List.mem_append.mp sent with whole | part
  · obtain rfl := List.mem_singleton.mp whole
    exact Nat.le_refl _
  · have within := (uploadParallel_carries part).within
    omega

theorem sendable_of_sent (small : file.length < 2 ^ 64)
    (sent : request ∈ uploadSingleFile displayName file ++
      uploadParallel displayName file numStreams) :
    request.Sendable displayName := by
  have content := Nat.lt_of_le_of_lt (length_content_le sent) small
  rcases List.mem_append.mp sent with whole | part
  · obtain rfl := List.mem_singleton.mp whole
    refine ⟨rfl, fun offset given => ?_, fun size given => ?_, content⟩
    · cases given
    · cases given
  · have carries := uploadParallel_carries part
    have within := carries.within
    refine ⟨uploadParallel_filename part, fun offset given => ?_, fun size given => ?_, content⟩
    · rw [UploadRequest.start, given, Option.getD_some] at within
      omega
    · rw [carries.total] at given
      cases given
      exact small

def secondHalf : UploadRequest :=
  { filename := "a+b", offset := some 1, totalSize := some 2, content := [2] }

theorem secondHalf_sent :
    secondHalf ∈ uploadSingleFile "a b" [1, 2] ++ uploadParallel "a b" [1, 2] 2 := by
  decide

theorem length_headBytes_le (request : UploadRequest) (host : String) (port : UInt16) :
    (request.headBytes host port).length ≤ (request.wire host port).length := by
  rw [UploadRequest.wire, List.length_append]
  exact Nat.le_add_right _ _

theorem lossy_headBytes (request : UploadRequest) (host : String) (port : UInt16) :
    lossy (request.headBytes host port) = (request.head host port).text := by
  have decoded := fromUtf8Lossy_encode (String.ofList (request.head host port).text)
  rw [← utf8_eq, fromUtf8Lossy_eq] at decoded
  exact String.ofList_injective decoded

namespace Dashboard

/-- Wherever the connection breaks, the dashboard has the request with what arrived of its content,
or refuses it if it is to have none, unless the head is cut or longer than it reads. -/
theorem readUpload_of_sent (single : OneLine host.toList) (small : file.length < 2 ^ 64)
    (sent : request ∈ uploadSingleFile displayName file ++
      uploadParallel displayName file numStreams) (port : UInt16)
    (arrived : stream <+: request.wire host port) (timestamp : Nat) :
    readUpload timestamp stream =
      if (request.headBytes host port).length ≤ 32769 ∧
      (request.headBytes host port).length ≤ stream.length then
        if request.content = [] then some (.refused 400 "\x7b\"error\":\"Empty file\"\x7d")
        else some (.read
          { request with content := stream.drop (request.headBytes host port).length }
          request.content.length)
      else none := by
  have sendable := sendable_of_sent small sent
  have named := sendable.named
  have sound : (request.head host port).WellFormed := wellFormed_head single named port
  rw [readUpload, readsHead.eq (by decide), splitHeader_sent sound arrived]
  change (Option.filter _ (if (request.headBytes host port).length ≤ stream.length then
    some (request.headBytes host port, stream.drop (request.headBytes host port).length)
    else none)).bind _ = _
  by_cases whole : (request.headBytes host port).length ≤ stream.length
  · have content : stream.drop (request.headBytes host port).length <+: request.content := by
      have part := arrived.drop (request.headBytes host port).length
      rwa [UploadRequest.wire, List.drop_left] at part
    by_cases within : (request.headBytes host port).length ≤ 32769
    · rw [if_pos whole, if_pos ⟨within, whole⟩, Option.filter_some, if_pos (decide_eq_true within),
        Option.bind_some]
      simp only [lossy_headBytes, requestLine_head single named port, Option.bind_some,
        and_self, if_true,
        headerNumber_contentLength single named sendable.content port,
        headerNumber_offset single named sendable.offset port,
        headerNumber_totalSize single named sendable.totalSize port,
        tmpFilename_head single named port timestamp, Option.getD_some,
        List.take_of_length_le content.length_le, List.length_eq_zero_iff]
    · rw [if_pos whole, if_neg (fun both => within both.1), Option.filter_some,
        if_neg (by simpa using within)]
      rfl
  · rw [if_neg whole, if_neg fun both => whole both.2]
    rfl

theorem readUpload_of_half :
    readUpload 0 (secondHalf.wire "10.0.0.2" 8080) = some (.read secondHalf 1) := by
  have single : OneLine "10.0.0.2".toList := ⟨by decide, by decide⟩
  have read := readUpload_of_sent single (by decide) secondHalf_sent 8080 (List.prefix_refl _) 0
  have short : (secondHalf.headBytes "10.0.0.2" 8080).length ≤ 32769 := by decide +kernel
  have filled : secondHalf.content ≠ [] := List.cons_ne_nil _ _
  rw [read, if_pos ⟨short, length_headBytes_le _ _ _⟩, if_neg filled, UploadRequest.wire, List.drop_left]
  rfl

end Dashboard

end DistributedOs.Http
