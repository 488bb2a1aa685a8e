import DistributedOs.Http.Containment
import DistributedOs.Semantics.HeaderText
import DistributedOs.Semantics.LossyText

/-! The server that the dashboard starts for one download of an uploaded file. It looks at one read
of the request, and sends the file from the start of its range on; reads of the file and writes to
the client succeed. -/

namespace DistributedOs.Cli

open Semantics
open Http.Containment (trim)

/-- A file, with a size that the operating system can seek to. -/
structure ServedFile where
  content : Bytes
  small : content.length < 2 ^ 63

def ServedFile.size (file : ServedFile) : UInt64 := UInt64.ofNat file.content.length

/-- `underflows` says that a subtraction went below zero: a debug build panics, and a release build
goes on with the numbers modulo 2^64. -/
structure FileResponse where
  status : Nat
  contentRange : Option (UInt64 × UInt64 × UInt64)
  contentLength : UInt64
  body : Bytes
  underflows : Bool
  deriving DecidableEq

/-- The buffer of the one read, which leaves the rest of it zero. -/
def requestBuffer (firstRead : Bytes) : Bytes :=
  firstRead ++ List.replicate (4096 - firstRead.length) 0

def rangeName : List Char := "range:".toList

/-- The start of the first range of a `Range` line. -/
def rangeStart (line : List Char) : Option UInt64 :=
  (line.splitOn '=')[1]?.bind fun bytesRange =>
    (bytesRange.splitOn '-').head?.bind fun start => parseU64 (trim start)

def startOffset (firstRead : Bytes) : UInt64 :=
  ((headerLine rangeName (lossy (requestBuffer firstRead))).bind rangeStart).getD 0

/-- Where the file is read from; no file is sought beyond 2^63, and an error of `seek` is ignored. -/
def seekTo (start : UInt64) : Nat := if start.toNat < 2 ^ 63 then start.toNat else 0

def respond (file : ServedFile) (start : UInt64) : FileResponse :=
  if 0 < start then
    { status := 206, contentRange := some (start, file.size - 1, file.size),
      contentLength := file.size - start
      body := file.content.drop (seekTo start), underflows := file.size < start || file.size < 1 }
  else
    { status := 200, contentRange := none, contentLength := file.size, body := file.content
      underflows := false }

def serve (file : ServedFile) (firstRead : Bytes) : FileResponse :=
  respond file (startOffset firstRead)

/-- `range:`. -/
def rangeBytes : Bytes := [114, 97, 110, 103, 101, 58]

/-- A line of a request that is no `Range` field. -/
structure OtherLine where
  bytes : Bytes
  unbroken : 10 ∉ bytes
  other : ¬ rangeBytes <+: bytes.map lowerByte

def linesBytes (lines : List OtherLine) : Bytes :=
  (lines.map fun line => line.bytes ++ [10]).flatten

/-- `bytes`. -/
def unitBytes : Bytes := [98, 121, 116, 101, 115]

/-- A request with a range that starts at the number of `digits`: its first `Range` field and what
is around that, which may be the end of the range, another range and more lines. -/
structure RangeRequest where
  before : List OtherLine
  name : Bytes
  named : name.map lowerByte = rangeBytes
  gap : Bytes
  blank : ∀ byte ∈ gap, byte = 32 ∨ byte = 9
  unitName : Bytes
  unitNamed : unitName.map lowerByte = unitBytes
  digits : Bytes
  nonempty : digits ≠ []
  decimal : ∀ byte ∈ digits, 48 ≤ byte.toNat ∧ byte.toNat ≤ 57
  after : Bytes

namespace RangeRequest

/-- What stands before the `=` on the line. -/
def unit (request : RangeRequest) : Bytes := request.name ++ request.gap ++ request.unitName

/-- Everything before the digits. -/
def front (request : RangeRequest) : Bytes := linesBytes request.before ++ (request.unit ++ [61])

def bytes (request : RangeRequest) : Bytes := request.front ++ request.digits ++ 45 :: request.after

def start (request : RangeRequest) : Nat := decimalValue (request.digits.map asciiChar)

/-- The digits are in the first read, and a hyphen or the end of the buffer right after them. -/
def Brought (request : RangeRequest) (firstRead : Bytes) : Prop :=
  request.front ++ request.digits ++ [45] <+: firstRead ∨
    firstRead = request.front ++ request.digits ∧ 4096 ≤ firstRead.length

end RangeRequest

/-- What the answer to a range from `start` on is to be. -/
structure FileResponse.Answers (response : FileResponse) (file : ServedFile)
    (start : Nat) : Prop where
  noUnderflow : response.underflows = false
  within : start < file.content.length → response.body = file.content.drop start ∧
    response.contentLength.toNat = file.content.length - start ∧
    ∃ first last size, response.contentRange = some (first, last, size) ∧ first.toNat = start ∧
      last.toNat = file.content.length - 1 ∧ size.toNat = file.content.length
  beyond : file.content.length ≤ start → 400 ≤ response.status

variable {lines done : List OtherLine} {file : ServedFile} {firstRead line front rest : Bytes}
  {request : RangeRequest}

theorem rangeName_eq : rangeName = rangeBytes.map asciiChar := rfl

theorem isAscii_rangeBytes : ∀ byte ∈ rangeBytes, IsAscii byte := by simp [rangeBytes, IsAscii]

theorem newline_mem_lossy (line : Bytes) : '\n' ∈ lossy line ↔ 10 ∈ line :=
  @mem_lossy_iff 10 line (by simp [IsAscii])

theorem beginsWith_lossy (line : Bytes) : beginsWith rangeName (lossy line) = true ↔
      rangeBytes <+: line.map lowerByte := by
  rw [beginsWith_iff, rangeName_eq, prefix_lower_lossy_iff isAscii_rangeBytes]

def lineTexts (lines : List OtherLine) : List (List Char) := lines.map fun line => lossy line.bytes

theorem lineTexts_unbroken : ∀ text ∈ lineTexts lines, '\n' ∉ text := by
  rw [lineTexts, List.forall_mem_map]
  intro line _
  rw [newline_mem_lossy]
  exact line.unbroken

theorem lineTexts_skipped : ∀ text ∈ lineTexts lines, beginsWith rangeName text = false := by
  rw [lineTexts, List.forall_mem_map]
  intro line _
  rw [Bool.eq_false_iff, Ne, beginsWith_lossy]
  exact line.other

theorem lossy_lines (lines : List OtherLine) (rest : Bytes) :
    lossy (linesBytes lines ++ rest) = ((lineTexts lines).map (· ++ ['\n'])).flatten ++
      lossy rest := by
  induction lines with
  | nil => rfl
  | cons line lines ih =>
    have split : linesBytes (line :: lines) ++ rest = line.bytes ++
        10 :: (linesBytes lines ++ rest) := by
      simp [linesBytes]
    rw [split, lossy_append_ascii (by simp [IsAscii]), ih]
    simp [lineTexts]
    rfl

theorem rangeName_nonempty : rangeName ≠ [] := List.cons_ne_nil _ _

theorem rangeName_plain : '\r' ∉ rangeName := by decide

/-- Without a `Range` field the range starts at zero, and without `=` in it too. -/
theorem startOffset_zero (buffer : requestBuffer firstRead = linesBytes lines ++ line)
    (whole : 10 ∉ line) (none : ¬ rangeBytes <+: line.map lowerByte ∨ 61 ∉ line) :
    startOffset firstRead = 0 := by
  have unbroken : '\n' ∉ lossy line := by rwa [newline_mem_lossy]
  rw [startOffset, buffer, lossy_lines]
  cases begins : beginsWith rangeName (lossy line) with
  | false =>
    rw [headerLine_none rangeName_nonempty rangeName_plain lineTexts_unbroken lineTexts_skipped
      begins unbroken]
    rfl
  | true =>
    have noUnit : '=' ∉ lossy line := by
      rcases none with other | _
      · exact absurd ((beginsWith_lossy line).mp begins) other
      · rwa [show '=' = asciiChar 61 from rfl, mem_lossy_iff (by simp [IsAscii])]
    have found : headerLine rangeName
      (((lineTexts lines).map (· ++ ['\n'])).flatten ++ (lossy line ++ [])) =
        some (stripReturn (lossy line)) :=
      headerLine_found rangeName_nonempty rangeName_plain lineTexts_unbroken lineTexts_skipped
      begins unbroken (.inl rfl)
    rw [List.append_nil] at found
    have stripped : '=' ∉ stripReturn (lossy line) := by
      unfold stripReturn
      split
      · exact fun member => noUnit (List.mem_of_mem_dropLast member)
      · exact noUnit
    rw [found, Option.bind_some, rangeStart, List.splitOn_eq_singleton stripped]
    rfl

theorem trim_of_plain (plain : ∀ c ∈ text, Http.Containment.isWhitespace c = false) :
    trim text = text := by
  have keeps {text : List Char} (plain : ∀ c ∈ text, Http.Containment.isWhitespace c = false) :
      text.dropWhile Http.Containment.isWhitespace = text := by
    cases text with
    | nil => rfl
    | cons first => exact List.dropWhile_cons_of_neg (by simp [plain first List.mem_cons_self])
  rw [trim, keeps plain, keeps fun c member => plain c (List.mem_reverse.mp member),
    List.reverse_reverse]

theorem rangeStart_line {unit start more : List Char} (unitPlain : '=' ∉ unit)
    (plain : '=' ∉ start ∧ '-' ∉ start ∧ '\r' ∉ start)
    (ended : more = [] ∨ ∃ later, more = '-' :: later) :
    rangeStart (stripReturn (unit ++ '=' :: (start ++ more))) = parseU64 (trim start) := by
  obtain ⟨noUnit, noHyphen, noReturn⟩ := plain
  rcases ended with rfl | ⟨later, rfl⟩
  · rw [List.append_nil, stripReturn_of_not_mem (by decide) noReturn, rangeStart,
      List.splitOn_append_cons_self_of_not_mem unitPlain, List.splitOn_eq_singleton noUnit]
    simp [List.splitOn_eq_singleton noHyphen]
  · have split : unit ++ '=' :: (start ++ '-' :: later) = (unit ++ '=' :: start) ++
        '-' :: later := by simp
    obtain ⟨stripped, strip⟩ := stripReturn_append (c := '-') (by decide) (unit ++ '=' :: start) later
    have front : '=' ∉ start ++ ['-'] := by simpa using noUnit
    obtain ⟨_, _, first⟩ := splitOn_head front stripped
    have again : unit ++ '=' :: start ++ '-' :: stripped = unit ++
        '=' :: (start ++ ['-'] ++ stripped) := by simp
    rw [split, strip, again, rangeStart, List.splitOn_append_cons_self_of_not_mem unitPlain, first]
    simp [List.splitOn_append_cons_self_of_not_mem noHyphen]

/-- The digits of a number, or the zeros of the buffer. -/
def IsNumeral (byte : UInt8) : Prop := byte = 0 ∨ 48 ≤ byte.toNat ∧ byte.toNat ≤ 57

theorem IsNumeral.isAscii (numeral : IsNumeral byte) : IsAscii byte := by
  unfold IsAscii
  rcases numeral with rfl | _
  · decide
  · omega

theorem IsNumeral.plain (numeral : IsNumeral byte) :
    (asciiChar byte ≠ '=' ∧ asciiChar byte ≠ '-' ∧ asciiChar byte ≠ '\r' ∧ asciiChar byte ≠ '\n') ∧
      Http.Containment.isWhitespace (asciiChar byte) = false := by
  have all : ∀ number < 58, (number = 0 ∨ 48 ≤ number) →
      (asciiChar (UInt8.ofNat number) ≠ '=' ∧ asciiChar (UInt8.ofNat number) ≠ '-' ∧
        asciiChar (UInt8.ofNat number) ≠ '\r' ∧ asciiChar (UInt8.ofNat number) ≠ '\n') ∧
        Http.Containment.isWhitespace (asciiChar (UInt8.ofNat number)) = false := by
    decide +kernel
  rw [← UInt8.ofNat_toNat (x := byte)]
  rcases numeral with rfl | bounds
  · exact all 0 (by decide) (.inl rfl)
  · exact all byte.toNat (by omega) (.inr bounds.1)

namespace RangeRequest

theorem plain_of_lower {text lower : Bytes} (same : text.map lowerByte = lower)
    (plain : ∀ byte ∈ lower, IsAscii byte ∧ byte ≠ 61 ∧ byte ≠ 10) :
    ∀ byte ∈ text, IsAscii byte ∧ byte ≠ 61 ∧ byte ≠ 10 := by
  intro byte member
  have there : lowerByte byte ∈ lower := same ▸ List.mem_map_of_mem member
  obtain ⟨ascii, noUnit, noBreak⟩ := plain _ there
  refine ⟨isAscii_lowerByte.mp ascii, ?_, ?_⟩
  · rintro rfl
    exact noUnit rfl
  · rintro rfl
    exact noBreak rfl

theorem unit_plain (request : RangeRequest) :
    ∀ byte ∈ request.unit, IsAscii byte ∧ byte ≠ 61 ∧ byte ≠ 10 := by
  intro byte member
  rcases List.mem_append.mp member with member | last
  · rcases List.mem_append.mp member with name | gap
    · exact plain_of_lower request.named (by simp [rangeBytes, IsAscii]) byte name
    · rcases request.blank byte gap with rfl | rfl <;> simp [IsAscii]
  · exact plain_of_lower request.unitNamed (by simp [unitBytes, IsAscii]) byte last

theorem unit_absent (request : RangeRequest) (ascii : IsAscii byte) (absent : byte ∉ request.unit) :
    asciiChar byte ∉ request.unit.map asciiChar := by
  intro member
  obtain ⟨other, there, same⟩ := List.mem_map.mp member
  exact absent ((asciiChar_inj (request.unit_plain other there).1 ascii).mp same ▸ there)

theorem unit_begins (request : RangeRequest) (rest : List Char) :
    beginsWith rangeName (request.unit.map asciiChar ++ rest) = true := by
  have ascii : ∀ byte ∈ request.name, IsAscii byte := fun byte member =>
    (request.unit_plain byte (List.mem_append_left _ (List.mem_append_left _ member))).1
  have lower : (request.name.map asciiChar).map Char.toLower = rangeName := by
    rw [rangeName_eq, ← request.named, List.map_map, List.map_map]
    exact List.map_congr_left fun byte member => toLower_asciiChar (ascii byte member)
  rw [beginsWith_iff, unit, List.append_assoc, List.map_append, List.map_append, List.map_append,
    lower, List.append_assoc]
  exact List.prefix_append _ _

end RangeRequest

theorem lossy_ended {more : Bytes} (ended : more = [] ∨ ∃ later, more = 45 :: later) :
    ∃ text rest, lossy more = text ++ rest ∧ '\n' ∉ text ∧
      (rest = [] ∨ ∃ later, rest = '\n' :: later) ∧
      (text = [] ∨ ∃ later, text = '-' :: later) := by
  rcases ended with rfl | ⟨later, rfl⟩
  · exact ⟨[], [], rfl, List.not_mem_nil, .inl rfl, .inl rfl⟩
  · obtain ⟨text, rest, split, unbroken, stops⟩ := exists_line (lossy later)
    refine ⟨'-' :: text, rest, ?_, ?_, stops, .inr ⟨text, rfl⟩⟩
    · rw [lossy_ascii (by simp [IsAscii]), split]
      rfl
    · simp [unbroken]

theorem plain_of_numeral {number : Bytes} (numeral : ∀ byte ∈ number, IsNumeral byte) (c : Char)
    (member : c ∈ number.map asciiChar) :
    (c ≠ '=' ∧ c ≠ '-' ∧ c ≠ '\r' ∧ c ≠ '\n') ∧ Http.Containment.isWhitespace c = false := by
  obtain ⟨byte, there, rfl⟩ := List.mem_map.mp member
  exact (numeral byte there).plain

/-- The server reads the number that follows the unit, up to a hyphen or the end of what it has
read. -/
theorem startOffset_number {number more : Bytes}
    (buffer : requestBuffer firstRead = linesBytes lines ++
      (request.unit ++ 61 :: (number ++ more)))
    (numeral : ∀ byte ∈ number, IsNumeral byte) (ended : more = [] ∨ ∃ later, more = 45 :: later) :
    startOffset firstRead = (parseU64 (number.map asciiChar)).getD 0 := by
  have unitAscii : ∀ byte ∈ request.unit, IsAscii byte := fun byte member =>
    (request.unit_plain byte member).1
  have numberAscii : ∀ byte ∈ number, IsAscii byte := fun byte member => (numeral byte member).isAscii
  obtain ⟨text, rest, split, unbroken, stops, follows⟩ := lossy_ended ended
  have decoded : lossy (request.unit ++ 61 :: (number ++ more)) =
      (request.unit.map asciiChar ++ '=' :: (number.map asciiChar ++ text)) ++ rest := by
    rw [lossy_append unitAscii, lossy_ascii (by simp [IsAscii]), lossy_append numberAscii, split]
    simp
    rfl
  have numberPlain := plain_of_numeral numeral
  have noUnit : '=' ∉ request.unit.map asciiChar :=
    request.unit_absent (by simp [IsAscii]) fun member => (request.unit_plain 61 member).2.1 rfl
  have whole : '\n' ∉ request.unit.map asciiChar ++ '=' :: (number.map asciiChar ++ text) := by
    have noBreak : '\n' ∉ request.unit.map asciiChar :=
      request.unit_absent (by simp [IsAscii]) fun member => (request.unit_plain 10 member).2.2 rfl
    rw [List.mem_append, List.mem_cons, List.mem_append]
    rintro (member | same | member | member)
    · exact noBreak member
    · cases same
    · exact (numberPlain _ member).1.2.2.2 rfl
    · exact unbroken member
  rw [startOffset, buffer, lossy_lines, decoded,
    headerLine_found rangeName_nonempty rangeName_plain lineTexts_unbroken lineTexts_skipped
      (request.unit_begins _) whole stops,
    Option.bind_some, rangeStart_line noUnit
      ⟨fun member => (numberPlain _ member).1.1 rfl, fun member => (numberPlain _ member).1.2.1 rfl,
        fun member => (numberPlain _ member).1.2.2.1 rfl⟩ follows,
    trim_of_plain fun c member => (numberPlain c member).2]

theorem prefix_lines {tail : Bytes} (read : firstRead <+: linesBytes lines ++ tail) :
    (∃ (passed : List OtherLine) (next : OtherLine) (part : Bytes),
      firstRead = linesBytes passed ++ part ∧ part <+: next.bytes) ∨
      ∃ part, firstRead = linesBytes lines ++ part ∧ part <+: tail := by
  induction lines generalizing firstRead with
  | nil => exact .inr ⟨firstRead, rfl, read⟩
  | cons line lines ih =>
    have split : linesBytes (line :: lines) ++ tail = (line.bytes ++ [10]) ++
        (linesBytes lines ++ tail) := by
      simp [linesBytes]
    rw [split] at read
    rcases Nat.lt_or_ge line.bytes.length firstRead.length with longer | within
    · obtain ⟨_, whole⟩ := List.prefix_of_prefix_length_le (List.prefix_append _ _) read
        (by rw [List.length_append]; exact longer)
      rw [← whole] at read ⊢
      rcases ih ((List.prefix_append_right_inj _).mp read) with ⟨passed, next, part, same, prefix_⟩
        | ⟨part, same, prefix_⟩
      · exact .inl ⟨line :: passed, next, part, by rw [same]; simp [linesBytes], prefix_⟩
      · exact .inr ⟨part, by rw [same]; simp [linesBytes], prefix_⟩
    · rw [List.append_assoc] at read
      exact .inl ⟨[], line, firstRead, rfl,
        List.prefix_of_prefix_length_le read (List.prefix_append _ _) within⟩

/-- The zeros of the buffer. -/
def padding (firstRead : Bytes) : Bytes := List.replicate (4096 - firstRead.length) 0

theorem requestBuffer_eq (firstRead : Bytes) :
    requestBuffer firstRead = firstRead ++ padding firstRead :=
  rfl

theorem mem_padding (member : byte ∈ padding firstRead) : byte = 0 :=
  List.eq_of_mem_replicate member

theorem begins_part (begins : rangeBytes <+: (part ++ padding firstRead).map lowerByte) :
    rangeBytes <+: part.map lowerByte := by
  rw [List.map_append] at begins
  rcases Nat.lt_or_ge (part.map lowerByte).length rangeBytes.length with shorter | enough
  · obtain ⟨rest, whole⟩ := List.prefix_of_prefix_length_le (List.prefix_append _ _) begins
      (Nat.le_of_lt shorter)
    rw [← whole, List.prefix_append_right_inj] at begins
    cases rest with
    | nil => exact absurd (congrArg List.length whole) (by rw [List.append_nil]; omega)
    | cons byte =>
      obtain ⟨_, there, same⟩ := List.mem_map.mp (begins.subset List.mem_cons_self)
      rw [mem_padding there] at same
      have member : byte ∈ rangeBytes := whole ▸ List.mem_append_right _ List.mem_cons_self
      rw [← same] at member
      exact absurd member (by decide)
  · exact List.prefix_of_prefix_length_le begins (List.prefix_append _ _) enough

theorem startOffset_part {next : OtherLine} (read : firstRead = linesBytes lines ++ part)
    (prefix_ : part <+: next.bytes) : startOffset firstRead = 0 := by
  have buffer : requestBuffer firstRead = linesBytes lines ++ (part ++ padding firstRead) := by
    rw [requestBuffer_eq, ← List.append_assoc, ← read]
  refine startOffset_zero buffer (fun member => ?_) (.inl fun begins => ?_)
  · rcases List.mem_append.mp member with there | zero
    · exact next.unbroken (prefix_.subset there)
    · cases mem_padding zero
  · exact next.other ((begins_part begins).trans (prefix_.map lowerByte))

namespace RangeRequest

theorem digits_numeral (request : RangeRequest) : ∀ byte ∈ request.digits, IsNumeral byte :=
  fun byte member => .inr (request.decimal byte member)

theorem isDigit_digits {part : Bytes} (decimal : ∀ byte ∈ part, 48 ≤ byte.toNat ∧ byte.toNat ≤ 57) :
    (part.map asciiChar).all Char.isDigit = true := by
  rw [List.all_map, List.all_eq_true]
  intro byte member
  have all : ∀ number < 58, 48 ≤ number → (asciiChar (UInt8.ofNat number)).isDigit = true := by
    decide +kernel
  have here := all byte.toNat (by have bounds := decimal byte member; omega) (decimal byte member).1
  rwa [UInt8.ofNat_toNat] at here

theorem startOffset_brought (brought : request.Brought firstRead) (fits : request.start < 2 ^ 64) :
    (startOffset firstRead).toNat = request.start := by
  have number : startOffset firstRead = (parseU64 (request.digits.map asciiChar)).getD 0 := by
    rcases brought with ⟨rest, whole⟩ | ⟨whole, full⟩
    · have buffer : requestBuffer firstRead =
          linesBytes request.before ++
          (request.unit ++ 61 :: (request.digits ++ 45 :: (rest ++ padding firstRead))) := by
        rw [requestBuffer_eq]
        generalize padding firstRead = zeros
        rw [← whole, front]
        simp
      exact startOffset_number buffer request.digits_numeral (.inr ⟨_, rfl⟩)
    · have buffer : requestBuffer firstRead = linesBytes request.before ++
          (request.unit ++ 61 :: (request.digits ++ [])) := by
        have empty : padding firstRead = [] := by
          rw [padding, Nat.sub_eq_zero_of_le full, List.replicate_zero]
        rw [requestBuffer_eq, empty, whole, front]
        simp
      exact startOffset_number buffer request.digits_numeral (.inl rfl)
  have nonempty : request.digits.map asciiChar ≠ [] := by simpa using request.nonempty
  unfold start at fits ⊢
  rw [number, parseU64_digits nonempty (isDigit_digits request.decimal), if_pos fits, Option.getD_some,
    UInt64.toNat_ofNat_of_lt' fits]

/-- Of a number that is cut, the digits that the buffer ends with are read, or none. -/
theorem number_cut {number : Bytes}
    (read : firstRead = linesBytes request.before ++ (request.unit ++ [61] ++ number))
    (buffer : requestBuffer firstRead = linesBytes request.before ++
      (request.unit ++ 61 :: (number ++ padding firstRead)))
    (prefix_ : number <+: request.digits ++ 45 :: request.after)
    (cut : ¬ request.Brought firstRead) :
    10 * (startOffset firstRead).toNat ≤ request.start := by
  rcases Nat.lt_or_ge request.digits.length number.length with longer | within
  · refine absurd (.inl ?_) cut
    have digits : request.digits ++ [45] <+: number := by
      refine List.prefix_of_prefix_length_le ?_ prefix_ (by rw [List.length_append]; exact longer)
      exact (List.prefix_append_right_inj _).mpr (List.prefix_append [45] _)
    rw [read, front, List.append_assoc, List.append_assoc, List.prefix_append_right_inj]
    simpa using digits
  · have digits : number <+: request.digits :=
      List.prefix_of_prefix_length_le prefix_ (List.prefix_append _ _) within
    have numeral : ∀ byte ∈ number ++ padding firstRead, IsNumeral byte := by
      intro byte member
      rcases List.mem_append.mp member with there | zero
      · exact request.digits_numeral byte (digits.subset there)
      · exact .inl (mem_padding zero)
    have offset : startOffset firstRead =
        (parseU64 ((number ++ padding firstRead).map asciiChar)).getD 0 := by
      rw [← List.append_nil (number ++ padding firstRead)] at buffer
      exact startOffset_number buffer numeral (.inl rfl)
    rcases Nat.lt_or_ge firstRead.length 4096 with _ | full
    · -- a zero follows, and there is no number
      have zero : asciiChar 0 ∈ (number ++ padding firstRead).map asciiChar := by
        refine List.mem_map_of_mem (List.mem_append_right _ ?_)
        exact List.mem_replicate.mpr ⟨by omega, rfl⟩
      rw [offset, parseU64_none zero (by decide) (by decide)]
      exact Nat.zero_le _
    · obtain ⟨rest, whole⟩ := digits
      have empty : padding firstRead = [] := by
        rw [padding, Nat.sub_eq_zero_of_le full, List.replicate_zero]
      have more : rest ≠ [] := by
        rintro rfl
        refine cut (.inr ⟨?_, full⟩)
        rw [read, front, ← whole]
        simp
      have digitsMore : rest.map asciiChar ≠ [] := by simpa using more
      have tenth := decimalValue_append_le (number.map asciiChar) digitsMore
      rw [← List.map_append, whole] at tenth
      rw [empty, List.append_nil] at offset
      rw [offset]
      have least := parseU64_le
        (isDigit_digits fun byte member => request.decimal byte (whole ▸ List.mem_append_left _ member))
      unfold start
      omega

/-- A read that ends before the number does brings at most a tenth of it. -/
theorem startOffset_cut (read : firstRead <+: request.bytes) (cut : ¬ request.Brought firstRead) :
    10 * (startOffset firstRead).toNat ≤ request.start := by
  have split : request.bytes = linesBytes request.before ++
      (request.unit ++ 61 :: (request.digits ++ 45 :: request.after)) := by
    rw [bytes, front]
    simp
  rw [split] at read
  rcases prefix_lines read with ⟨_, _, part, same, prefix_⟩ | ⟨part, same, prefix_⟩
  · rw [startOffset_part same prefix_]
    exact Nat.zero_le _
  · have buffer : requestBuffer firstRead = linesBytes request.before ++
        (part ++ padding firstRead) := by
      rw [requestBuffer_eq, ← List.append_assoc, ← same]
    rcases Nat.lt_or_ge request.unit.length part.length with longer | within
    · -- the read goes beyond the `=`
      have unit : request.unit ++ [61] <+: part := by
        refine List.prefix_of_prefix_length_le ?_ prefix_ (by rw [List.length_append]; exact longer)
        exact (List.prefix_append_right_inj _).mpr (List.prefix_append [61] _)
      obtain ⟨_, rfl⟩ := unit
      rw [List.append_assoc, List.prefix_append_right_inj, List.singleton_append,
        List.prefix_cons_inj] at prefix_
      exact request.number_cut same (by simpa using buffer) prefix_ cut
    · have unit : part <+: request.unit :=
        List.prefix_of_prefix_length_le prefix_ (List.prefix_append _ _) within
      rw [startOffset_zero buffer ?_ (.inr ?_)]
      · exact Nat.zero_le _
      · intro member
        rcases List.mem_append.mp member with there | zero
        · exact (request.unit_plain 10 (unit.subset there)).2.2 rfl
        · cases mem_padding zero
      · intro member
        rcases List.mem_append.mp member with there | zero
        · exact (request.unit_plain 61 (unit.subset there)).2.1 rfl
        · cases mem_padding zero

end RangeRequest

theorem ServedFile.size_toNat (file : ServedFile) : file.size.toNat = file.content.length :=
  UInt64.toNat_ofNat_of_lt' (by
    have small := file.small
    rw [UInt64.size]
    omega)

theorem respond_body (file : ServedFile) (within : offset.toNat ≤ file.content.length) :
    (respond file offset).body = file.content.drop offset.toNat := by
  have small := file.small
  unfold respond
  split
  · rw [seekTo, if_pos (Nat.lt_of_le_of_lt within small)]
  · rename_i beginning
    have zero : offset.toNat = 0 := by
      rw [UInt64.lt_iff_toNat_lt, UInt64.toNat_zero] at beginning
      omega
    rw [zero, List.drop_zero]

/-- The answer to a range is right exactly within the file and beyond its first byte, where the
server has read the start that was asked for. -/
theorem respond_answers_iff (file : ServedFile) (offset : UInt64) (start : Nat) :
    (respond file offset).Answers file start ↔ 0 < start ∧ start < file.content.length ∧
      offset.toNat = start := by
  have size := file.size_toNat
  by_cases beginning : 0 < offset
  · have positive : 0 < offset.toNat := by rwa [UInt64.lt_iff_toNat_lt] at beginning
    constructor
    · intro answers
      rcases Nat.lt_or_ge start file.content.length with within | beyond
      · obtain ⟨_, _, _, _, _, range, same, _⟩ := answers.within within
        rw [respond, if_pos beginning] at range
        cases range
        exact ⟨same ▸ positive, within, same⟩
      · have fails := answers.beyond beyond
        rw [respond, if_pos beginning] at fails
        exact absurd fails (Nat.not_le.mpr (by decide : 206 < 400))
    · rintro ⟨_, within, rfl⟩
      have most : offset ≤ file.size := UInt64.le_iff_toNat_le.mpr (by omega)
      have least : (1 : UInt64) ≤ file.size := by
        rw [UInt64.le_iff_toNat_le, size, UInt64.toNat_one]
        omega
      refine ⟨?_, fun _ =>
        ⟨respond_body file (Nat.le_of_lt within), ?_, offset, file.size - 1, file.size, ?_, rfl, ?_,
          size⟩, fun beyond => ?_⟩
      · rw [respond, if_pos beginning, Bool.or_eq_false_iff, decide_eq_false_iff_not,
          decide_eq_false_iff_not]
        exact ⟨UInt64.not_lt.mpr most, UInt64.not_lt.mpr least⟩
      · rw [respond, if_pos beginning, UInt64.toNat_sub_of_le _ _ most, size]
      · rw [respond, if_pos beginning]
      · rw [UInt64.toNat_sub_of_le _ _ least, size, UInt64.toNat_one]
      · omega
  · refine iff_of_false (fun answers => ?_) fun ⟨positive, _, same⟩ => ?_
    · rcases Nat.lt_or_ge start file.content.length with within | beyond
      · obtain ⟨_, _, _, _, _, none, _⟩ := answers.within within
        rw [respond, if_neg beginning] at none
        cases none
      · have fails := answers.beyond beyond
        rw [respond, if_neg beginning] at fails
        exact absurd fails (Nat.not_le.mpr (by decide : 200 < 400))
    · rw [UInt64.lt_iff_toNat_lt, UInt64.toNat_zero] at beginning
      omega

theorem startOffset_plain (read : firstRead <+: linesBytes lines) : startOffset firstRead = 0 := by
  rw [← List.append_nil (linesBytes lines)] at read
  rcases prefix_lines read with ⟨_, _, _, same, prefix_⟩ | ⟨_, same, prefix_⟩
  · exact startOffset_part same prefix_
  · rw [List.prefix_nil.mp prefix_] at same
    have buffer : requestBuffer firstRead = linesBytes lines ++ ([] ++ padding firstRead) := by
      rw [requestBuffer_eq, List.nil_append, ← List.append_nil (linesBytes lines), ← same]
    refine startOffset_zero buffer (fun member => ?_) (.inl fun begins => ?_)
    · cases mem_padding member
    · cases List.prefix_nil.mp (begins_part begins)

theorem serve_plain (file : ServedFile) (read : firstRead <+: linesBytes lines) :
    (serve file firstRead).body = file.content := by
  rw [serve, startOffset_plain read]
  rfl

theorem startOffset_iff (read : firstRead <+: request.bytes) (fits : request.start < 2 ^ 64)
    (positive : 0 < request.start) :
    (startOffset firstRead).toNat = request.start ↔ request.Brought firstRead := by
  refine ⟨fun same => ?_, fun brought => request.startOffset_brought brought fits⟩
  by_contra cut
  have tenth := request.startOffset_cut read cut
  omega

theorem startOffset_le (read : firstRead <+: request.bytes) (fits : request.start < 2 ^ 64) :
    (startOffset firstRead).toNat ≤ request.start := by
  by_cases brought : request.Brought firstRead
  · exact Nat.le_of_eq (request.startOffset_brought brought fits)
  · have tenth := request.startOffset_cut read brought
    omega

theorem serve_answers_iff (file : ServedFile) (read : firstRead <+: request.bytes) :
    (serve file firstRead).Answers file request.start ↔
      0 < request.start ∧ request.start < file.content.length ∧ request.Brought firstRead := by
  have small := file.small
  rw [serve, respond_answers_iff]
  refine and_congr_right fun positive => and_congr_right fun within => ?_
  exact startOffset_iff read (by omega) positive

/-- A request for the rest, how much of it the server's read brings, and how much of the answer is
received. -/
structure ResumeRound where
  request : RangeRequest
  firstRead : Bytes
  read : firstRead <+: request.bytes
  received : Nat

def resume (file : ServedFile) (got : Bytes) (round : ResumeRound) : Bytes :=
  got ++ (serve file round.firstRead).body.take round.received

/-- The client asks for what it has not got, and the server reads the start of that range. -/
def ResumeRound.Reads (round : ResumeRound) (got : Bytes) : Prop :=
  round.request.start = got.length ∧ (got = [] ∨ round.request.Brought round.firstRead)

inductive Resumes (file : ServedFile) : List ResumeRound → Bytes → Prop
  | start : Resumes file [] []
  | next {rounds : List ResumeRound} {got : Bytes} {round : ResumeRound}
    (resumes : Resumes file rounds got)
    (reads : round.Reads got) : Resumes file (rounds ++ [round]) (resume file got round)

variable {got : Bytes} {round : ResumeRound} {rounds : List ResumeRound}

theorem drop_of_prefix {whole got : Bytes} (prefix_ : got <+: whole) :
    got ++ whole.drop got.length = whole := by
  obtain ⟨_, rfl⟩ := prefix_
  rw [List.drop_left]

/-- What is missing comes exactly where nothing has been received, or the start is read. -/
theorem completes_iff (prefix_ : got <+: file.content) (asked : round.request.start = got.length) :
    got ++ (serve file round.firstRead).body = file.content ↔
      got = [] ∨ round.request.Brought round.firstRead := by
  have small := file.small
  have most := prefix_.length_le
  have low := startOffset_le round.read (by omega)
  have body := respond_body file (Nat.le_trans low (by omega))
  rw [serve, body]
  have same : got ++ file.content.drop (startOffset round.firstRead).toNat = file.content ↔
      (startOffset round.firstRead).toNat = round.request.start := by
    rw [asked]
    constructor
    · intro complete
      have lengths := congrArg List.length complete
      rw [List.length_append, List.length_drop] at lengths
      omega
    · intro same
      rw [same, drop_of_prefix prefix_]
  rw [same]
  by_cases empty : got = []
  · rw [asked, empty, List.length_nil] at low ⊢
    exact iff_of_true (Nat.le_zero.mp low) (.inl rfl)
  · have received := List.length_pos_iff.mpr empty
    rw [or_iff_right empty]
    exact startOffset_iff round.read (by omega) (by omega)

theorem Resumes.begins (resumes : Resumes file rounds got) : got <+: file.content := by
  induction resumes with
  | start => exact List.nil_prefix
  | next _ reads ih =>
    have complete := (completes_iff ih reads.1).mpr reads.2
    rw [← complete]
    exact (List.prefix_append_right_inj _).mpr (List.take_prefix _ _)

/-- A request without a range gets the whole file. An answer to a range is right exactly where the
range starts beyond the first byte of the file and before its end, and the server's one read brings
its start. So a client that resumes has a beginning of the file as long as all starts are read, and
then the next answer completes it exactly where the start of that is read too, or all of the file is
missing. -/
theorem one_shot_answers (file : ServedFile) :
    (∀ (lines : List OtherLine) (firstRead : Bytes), firstRead <+: linesBytes lines →
      (serve file firstRead).body = file.content) ∧
      (∀ (request : RangeRequest) (firstRead : Bytes), firstRead <+: request.bytes →
        ((serve file firstRead).Answers file request.start ↔
          0 < request.start ∧ request.start < file.content.length ∧ request.Brought firstRead)) ∧
      ∀ (rounds : List ResumeRound) (got : Bytes), Resumes file rounds got → got <+: file.content ∧
        ∀ round : ResumeRound, round.request.start = got.length →
          (got ++ (serve file round.firstRead).body = file.content ↔
            got = [] ∨ round.request.Brought round.firstRead) :=
  ⟨fun _ _ read => serve_plain file read, fun _ _ read => serve_answers_iff file read,
    fun _ _ resumes => ⟨resumes.begins, fun _ asked => completes_iff resumes.begins asked⟩⟩

/-- `Range: bytes=3-`, on its own. -/
def fromThree : RangeRequest where
  before := []
  name := [82, 97, 110, 103, 101, 58]
  named := by decide
  gap := [32]
  blank := by simp
  unitName := unitBytes
  unitNamed := by decide
  digits := [51]
  nonempty := by decide
  decimal := by simp
  after := [13, 10, 13, 10]

def twoBytes : ServedFile := ⟨[7, 8], by decide⟩

def fourBytes : ServedFile := ⟨[7, 8, 9, 10], by decide⟩

theorem fromThree_brought : fromThree.Brought fromThree.bytes := .inl ⟨[13, 10, 13, 10], rfl⟩

/-- The client asks from the first byte on, nothing of which is read, and gets three of the four
bytes. -/
def threeReceived : ResumeRound where
  request := { fromThree with digits := [48], nonempty := by decide, decimal := by simp }
  firstRead := []
  read := List.nil_prefix
  received := 3

def restReceived : ResumeRound where
  request := fromThree
  firstRead := fromThree.bytes
  read := List.prefix_refl _
  received := 1

theorem one_shot_answers_fromThree :
    (serve fourBytes fromThree.bytes).Answers fourBytes fromThree.start ∧
      Resumes fourBytes [threeReceived] [7, 8, 9] ∧
      [7, 8, 9] ++ (serve fourBytes fromThree.bytes).body = fourBytes.content := by
  obtain ⟨plain, ranges, resuming⟩ := one_shot_answers fourBytes
  have whole : (serve fourBytes threeReceived.firstRead).body = fourBytes.content :=
    plain [] [] (List.prefix_refl _)
  have resumed : Resumes fourBytes [threeReceived] (resume fourBytes [] threeReceived) :=
    .next .start ⟨by decide, .inl rfl⟩
  rw [resume, whole] at resumed
  exact ⟨(ranges fromThree fromThree.bytes (List.prefix_refl _)).mpr
    ⟨by decide, by decide, fromThree_brought⟩, resumed,
    ((resuming [threeReceived] [7, 8, 9] resumed).2 restReceived (by decide)).mpr
    (.inr fromThree_brought)⟩

/-- A range beyond the end of the file underflows, and is answered as one within it. -/
theorem fromThree_underflows : (serve twoBytes fromThree.bytes).underflows = true ∧
      (serve twoBytes fromThree.bytes).status = 206 ∧
    ¬ (serve twoBytes fromThree.bytes).Answers twoBytes fromThree.start := by
  have start : startOffset fromThree.bytes = 3 :=
    UInt64.toNat_inj.mp (fromThree.startOffset_brought fromThree_brought (by decide))
  rw [serve, start]
  refine ⟨rfl, rfl, fun answers => ?_⟩
  cases answers.noUnderflow

end DistributedOs.Cli
