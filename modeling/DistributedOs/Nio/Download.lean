import DistributedOs.Nio.Contents

/-! `httpDownload` and `httpDownloadWithResume` from the answer of the server on. The digest is that
of SHA-256 in hexadecimal; writing to the opened file does not fail. -/

namespace DistributedOs.Nio

open Semantics

/-- What arrives from the server; a broken connection ends in an exception. -/
structure Answer where
  pieces : List Bytes
  broken : Bool

def Answer.stream (answer : Answer) : Bytes := answer.pieces.flatten

structure TransferResult where
  success : Bool
  bytesTransferred : Nat
  checksum : String
  errorMessage : String

/-- There is no result where the call throws, and no file where it was deleted or was never made. -/
structure Outcome where
  result : Option TransferResult
  file : Option Bytes

def transferChunkSize : Nat := 4194304

def writeAt (file : Bytes) (position : Nat) (data : Bytes) : Bytes :=
  if data = [] then file
  else file.take position ++ List.replicate (position - file.length) 0 ++ data ++ file.drop
    (position + data.length)

/-- Whether the loop threw, the bytes it counts and the file. A transfer to a position behind the
end of the file moves nothing, and so does one at the end of the stream. -/
def transferAll (broken : Bool) : Nat → Nat → Bytes → Bytes → Bool × Nat × Bytes
  | 0, totalRead, file, _ => (false, totalRead, file)
  | fuel + 1, totalRead, file, stream =>
    if file.length < totalRead then (false, totalRead, file)
    else if stream = [] then (broken, totalRead, file)
    else
      transferAll broken fuel (totalRead + (stream.take transferChunkSize).length)
        (writeAt file totalRead (stream.take transferChunkSize)) (stream.drop transferChunkSize)

/-- `TRUNCATE_EXISTING`, unless there is something to continue. -/
def opened (existingBytes : Nat) (old : Option Bytes) : Bytes :=
  if existingBytes = 0 then [] else old.getD []

/-- An answer with 200 starts again at the beginning. -/
def startPosition (existingBytes status : Nat) : Nat :=
  if 0 < existingBytes ∧ status = 200 then 0 else existingBytes

section Downloads

variable (digest : Bytes → String) (expectedChecksum : String)

/-- The check at the end, of the bytes that were hashed. -/
def conclude (mismatch : String → String) (hashed file : Bytes) (totalRead : Nat) : Outcome :=
  if expectedChecksum = "" then
    { result := some { success := true, bytesTransferred := totalRead, checksum := "", errorMessage := "" }
      file := some file }
  else if digest hashed = expectedChecksum then
    { result := some { success := true, bytesTransferred := totalRead, checksum := digest hashed, errorMessage := "" }
      file := some file }
  else
    { result := some { success := false, bytesTransferred := totalRead, checksum := digest hashed
                       errorMessage := mismatch (digest hashed) }
      file := none }

def readTlsHeader : Nat → Bytes → Bytes → Bytes × Bytes
  | 0, header, stream => (header, stream)
  | _ + 1, header, [] => (header, [])
  | limit + 1, header, byte :: stream =>
    if blankLine.isSuffixOf (header ++ [byte]) then (header ++ [byte], stream)
    else readTlsHeader limit (header ++ [byte]) stream

def tlsHeaderSize : Nat := 16384

/-- `StandardCharsets.US_ASCII`. -/
def usAscii (bytes : Bytes) : String :=
  String.ofList (bytes.map fun byte => if byte.toNat < 128 then Char.ofNat byte.toNat
    else Char.ofNat 0xFFFD)

def succeeded (status : Nat) : Bool := 200 ≤ status && status ≤ 299

/-- A status that is refused leaves the file alone. -/
def httpsDownload (old : Option Bytes) (answer : Answer) : Outcome :=
  let header := (readTlsHeader tlsHeaderSize [] answer.stream).1
  let rest := (readTlsHeader tlsHeaderSize [] answer.stream).2
  let status := (statusCode header).getD 0
  if answer.broken ∧ rest = [] ∧ header.length < tlsHeaderSize ∧ ¬ blankLine.isSuffixOf header then
    { result := none, file := old }
  else if succeeded status = false then
    { result := some { success := false, bytesTransferred := 0, checksum := ""
                       errorMessage := "Server returned " ++ toString status ++ ": " ++ usAscii
                         (header.take 100) }
      file := old }
  else if answer.broken then { result := none, file := some rest }
  else conclude digest expectedChecksum (fun _ => "Checksum mismatch") rest rest rest.length

/-- Over plain sockets: neither the status nor the length is looked at, and only the bytes that came
with the head are hashed. -/
def httpDownload (tls : Bool) (old : Option Bytes) (answer : Answer) : Outcome :=
  if tls then httpsDownload digest expectedChecksum old answer
  else match readResponse answer.pieces with
  | none => { result := none, file := some [] }
  | some response =>
    let received := transferAll answer.broken
      (response.rest.flatten.length + 1) response.leftover.length response.leftover
      response.rest.flatten
    if received.1 then { result := none, file := some received.2.2 }
    else
      conclude digest expectedChecksum
        (fun got => "Checksum mismatch: expected " ++ expectedChecksum ++ ", got " ++ got)
        response.leftover received.2.2 received.2.1

/-- Over plain sockets the status is looked at; an answer with 200 is written over what the file
holds. -/
def httpDownloadWithResume (tls : Bool) (existingBytes : Nat) (old : Option Bytes)
    (answer : Answer) : Outcome :=
  if tls then httpsDownload digest expectedChecksum old answer
  else match readResponse answer.pieces with
  | none => { result := none, file := some (opened existingBytes old) }
  | some response =>
    let status := (statusCode (response.head ++ response.leftover)).getD 0
    if succeeded status = false then
      { result := some { success := false, bytesTransferred := 0, checksum := ""
                         errorMessage := "Server returned " ++ toString status }
        file := some (opened existingBytes old) }
    else
      let received := transferAll answer.broken (response.rest.flatten.length + 1)
        (startPosition existingBytes status + response.leftover.length)
        (writeAt (opened existingBytes old) (startPosition existingBytes status) response.leftover)
        response.rest.flatten
      if received.1 then { result := none, file := some received.2.2 }
      else conclude digest expectedChecksum (fun _ => "Checksum mismatch") response.leftover
      received.2.2 received.2.1

/-- The whole content, in which the part that an answer carries begins where it was asked for, and
its sizes are the ones announced, with the checksum that was expected. -/
structure Complete (existingBytes : Nat) (old head body file : Bytes) : Prop where
  answered : ∃ status part, statusAt head = some status ∧ succeeded status = true ∧
    partOf status head body = some part ∧
    part.first = (if status = 206 then existingBytes else 0) ∧ part.first ≤ old.length ∧
    file = old.take part.first ++ part.data ∧ ∀ total ∈ part.announced, file.length = total
  checksum : expectedChecksum = "" ∨ digest file = expectedChecksum

def Reports (existingBytes : Nat) (old : Bytes) (answer : Answer) (outcome : Outcome) : Prop :=
  ∀ result, outcome.result = some result → result.success = true → ∃ head body file,
    splitHeader answer.stream = some (head, body) ∧ outcome.file = some file ∧
      Complete digest expectedChecksum existingBytes old head body file

end Downloads

variable {file data : Bytes} {position fuel : Nat} {broken : Bool}

theorem writeAt_inside (inside : position ≤ file.length) (data : Bytes) :
    writeAt file position data = file.take position ++
      (data ++ file.drop (position + data.length)) := by
  unfold writeAt
  split
  · rename_i empty
    rw [empty, List.nil_append, List.length_nil, Nat.add_zero, List.take_append_drop]
  · rw [Nat.sub_eq_zero_of_le inside, List.replicate_zero, List.append_nil, List.append_assoc]

theorem length_writeAt (inside : position ≤ file.length) (data : Bytes) :
    (writeAt file position data).length = max file.length (position + data.length) := by
  rw [writeAt_inside inside, List.length_append, List.length_append, List.length_take, List.length_drop]
  omega

theorem writeAt_writeAt (inside : position ≤ file.length) (data more : Bytes) :
    writeAt (writeAt file position data) (position + data.length) more = writeAt file position
      (data ++ more) := by
  have size := length_writeAt inside data
  rw [writeAt_inside (by omega), writeAt_inside inside, writeAt_inside inside, List.length_append]
  have front : (file.take position ++ data).length = position + data.length := by
    rw [List.length_append, List.length_take]
    omega
  rw [← List.append_assoc (file.take position), ← front, List.take_left,
    ← List.append_assoc (file.take position) (data ++ more),
    ← List.append_assoc (file.take position), List.append_assoc _ more, List.drop_append,
    List.drop_of_length_le (Nat.le_add_right _ _),
    List.nil_append, Nat.add_sub_cancel_left, List.drop_drop, front, Nat.add_assoc]

theorem transferAll_eq (inside : position ≤ file.length) (enough : data.length < fuel) :
    transferAll broken fuel position file data =
      (broken, position + data.length, writeAt file position data) := by
  induction fuel generalizing position file data with
  | zero => omega
  | succ _ ih =>
    rw [transferAll, if_neg (by omega)]
    split
    · rename_i empty
      rw [empty, List.length_nil, Nat.add_zero, writeAt, if_pos rfl]
    · rename_i some_
      have positive := List.length_pos_iff.mpr some_
      have parts := List.take_append_drop transferChunkSize data
      have size := congrArg List.length parts
      rw [List.length_append] at size
      have begun : 0 < (data.take transferChunkSize).length := by
        rw [List.length_take]
        unfold transferChunkSize
        omega
      have grown := length_writeAt inside (data.take transferChunkSize)
      rw [ih (by omega) (by omega), writeAt_writeAt inside, parts, Nat.add_assoc, size]

theorem transferAll_behind (behind : file.length < position) :
    transferAll broken (fuel + 1) position file data = (false, position, file) := if_pos behind

theorem writeAt_end (file data : Bytes) : writeAt file file.length data = file ++ data := by
  rw [writeAt_inside (Nat.le_refl _), List.take_length,
    List.drop_of_length_le (Nat.le_add_right _ _), List.append_nil]

variable {digest : Bytes → String} {expectedChecksum : String} {existingBytes : Nat} {old : Bytes}
  {answer : Answer} {outcome : Outcome} {hashed : Bytes} {mismatch : String → String}
  {totalRead : Nat}

/-- The bytes that are hashed do not have the checksum that was given. -/
def Mismatched (digest : Bytes → String) (expectedChecksum : String) (hashed : Bytes) : Prop :=
  expectedChecksum ≠ "" ∧ digest hashed ≠ expectedChecksum

theorem reports_of_throw (thrown : outcome.result = none) :
    Reports digest expectedChecksum existingBytes old answer outcome := by
  intro _ reported
  rw [thrown] at reported
  cases reported

theorem reports_of_failure {result : TransferResult} (reported : outcome.result = some result)
    (failure : result.success = false) :
    Reports digest expectedChecksum existingBytes old answer outcome := by
  intro _ same success
  rw [reported] at same
  cases same
  rw [failure] at success
  cases success

theorem reports_conclude_iff :
    Reports digest expectedChecksum existingBytes old answer
      (conclude digest expectedChecksum mismatch hashed file totalRead) ↔
      Mismatched digest expectedChecksum hashed ∨
      ∃ head body, splitHeader answer.stream = some (head, body) ∧
        Complete digest expectedChecksum existingBytes old head body file := by
  have success {checksum : String} (passed : ¬ Mismatched digest expectedChecksum hashed) :
      Reports digest expectedChecksum existingBytes old answer
          { result := some { success := true, bytesTransferred := totalRead, checksum, errorMessage := "" }
            file := some file } ↔
        Mismatched digest expectedChecksum hashed ∨
        ∃ head body, splitHeader answer.stream = some (head, body) ∧
          Complete digest expectedChecksum existingBytes old head body file := by
    constructor
    · intro reports
      obtain ⟨head, body, _, split, same, complete⟩ := reports _ rfl rfl
      cases same
      exact .inr ⟨head, body, split, complete⟩
    · rintro (failed | ⟨head, body, split, complete⟩) _ _ _
      · exact absurd failed passed
      · exact ⟨head, body, file, split, rfl, complete⟩
  unfold conclude
  split
  · rename_i none
    exact success fun failed => failed.1 none
  · split
    · rename_i same
      exact success fun failed => failed.2 same
    · rename_i given other
      exact iff_of_true (reports_of_failure rfl rfl) (.inl ⟨given, other⟩)

/-- The bytes of the body that come in the same read as the end of the head. -/
def Answer.leftover (answer : Answer) : Bytes :=
  ((readResponse answer.pieces).map Response.leftover).getD []

/-- The connection breaks, the bytes that are hashed are wrong, or the answer is complete. -/
def PlainSound (digest : Bytes → String) (expectedChecksum : String) (answer : Answer) : Prop :=
  ∀ head body, splitHeader answer.stream = some (head, body) → answer.broken = true ∨
    Mismatched digest expectedChecksum answer.leftover ∨
    Complete digest expectedChecksum 0 [] head body body

theorem reports_httpDownload_iff (digest : Bytes → String) (expectedChecksum : String)
    (old : Option Bytes) (answer : Answer) :
    Reports digest expectedChecksum 0 [] answer
      (httpDownload digest expectedChecksum false old answer) ↔
      PlainSound digest expectedChecksum answer := by
  unfold PlainSound
  have response := readResponse_eq answer.pieces
  cases split : splitHeader answer.stream with
  | none =>
    rw [show splitHeader answer.pieces.flatten = none from split] at response
    refine iff_of_true (reports_of_throw ?_) nofun
    simp only [httpDownload, response, Bool.false_eq_true, ↓reduceIte]
  | some parts =>
    rw [show splitHeader answer.pieces.flatten = some parts from split] at response
    obtain ⟨leftover, rest, read, whole⟩ := response
    have received : transferAll answer.broken
      (rest.flatten.length + 1) leftover.length leftover rest.flatten =
        (answer.broken, leftover.length + rest.flatten.length, parts.2) := by
      rw [transferAll_eq (Nat.le_refl _) (Nat.lt_succ_self _), writeAt_end, whole]
    have left : answer.leftover = leftover := by rw [Answer.leftover, read]; rfl
    cases broken : answer.broken with
    | true =>
      rw [broken] at received
      refine iff_of_true (reports_of_throw ?_) fun _ _ _ => .inl rfl
      simp only [httpDownload, read, received, broken, Bool.false_eq_true, ↓reduceIte]
    | false =>
      rw [broken] at received
      have outcome : httpDownload digest expectedChecksum false old answer =
        conclude digest expectedChecksum
          (fun got => "Checksum mismatch: expected " ++ expectedChecksum ++ ", got " ++ got)
          leftover parts.2
            (leftover.length + rest.flatten.length) := by
        simp only [httpDownload, read, received, broken, Bool.false_eq_true, ↓reduceIte]
      rw [outcome, reports_conclude_iff, split, left]
      constructor
      · rintro (failed | ⟨_, _, same, complete⟩) _ _ here
        · exact .inr (.inl failed)
        · cases same
          cases here
          exact .inr (.inr complete)
      · intro all
        rcases all parts.1 parts.2 rfl with thrown | failed | complete
        · cases thrown
        · exact .inl failed
        · exact .inr ⟨_, _, rfl, complete⟩

variable {limit : Nat} {header stream : Bytes}

def Answer.tlsParts (answer : Answer) : Bytes × Bytes :=
  readTlsHeader tlsHeaderSize [] answer.stream

theorem readTlsHeader_append (limit : Nat) (header stream : Bytes) :
    (readTlsHeader limit header stream).1 ++ (readTlsHeader limit header stream).2 =
      header ++ stream ∧
      (readTlsHeader limit header stream).1.length ≤ header.length + limit := by
  induction limit generalizing header stream with
  | zero => exact ⟨rfl, Nat.le_refl _⟩
  | succ _ ih =>
    cases stream with
    | nil => exact ⟨rfl, Nat.le_add_right _ _⟩
    | cons byte stream =>
      rw [readTlsHeader]
      split
      · rw [List.append_assoc, List.length_append, List.length_singleton]
        exact ⟨rfl, by omega⟩
      · obtain ⟨same, size⟩ := ih (header ++ [byte]) stream
        rw [List.append_assoc] at same
        rw [List.length_append, List.length_singleton] at size
        exact ⟨same, by omega⟩

theorem readTlsHeader_eq {head body : Bytes}
    (split : splitHeader (header ++ stream) = some (head, body))
    (before : header.length < head.length) (fits : head.length ≤ header.length + limit) :
    readTlsHeader limit header stream = (head, body) := by
  induction limit generalizing header stream with
  | zero => omega
  | succ _ ih =>
    have whole := splitHeader_eq split
    cases stream with
    | nil =>
      have size := congrArg List.length whole
      rw [List.append_nil, List.length_append] at size
      omega
    | cons byte stream =>
      have next : header ++ byte :: stream = (header ++ [byte]) ++ stream := by simp
      rw [next] at split whole
      rw [readTlsHeader]
      have grown : (header ++ [byte]).length = header.length + 1 := by simp
      split
      · rename_i blank
        obtain ⟨⟨_, more⟩, found⟩ := Option.isSome_iff_exists.mp
          (splitHeader_isSome (List.isSuffixOf_iff_suffix.mp blank))
        have again := splitHeader_append found stream
        rw [split] at again
        cases again
        have parts := splitHeader_eq found
        have none : more = [] := by
          have size := congrArg List.length parts
          rw [grown, List.length_append] at size
          exact List.length_eq_zero_iff.mp (by omega)
        rw [parts, none, List.append_nil, List.nil_append]
      · rename_i other
        refine ih split ?_ (by rw [grown]; omega)
        by_contra reached
        have same : header ++ [byte] = head := (List.append_inj whole (by omega)).1
        rw [same] at other
        exact other (List.isSuffixOf_iff_suffix.mpr (blankLine_suffix split))

/-- The connection breaks, the status or the hashed bytes are refused, or the answer is complete and
its head is not too long. -/
def TlsSound (digest : Bytes → String) (expectedChecksum : String) (answer : Answer) : Prop :=
  answer.broken = true ∨ succeeded ((statusCode answer.tlsParts.1).getD 0) = false ∨
    Mismatched digest expectedChecksum answer.tlsParts.2 ∨
    ∃ head body, splitHeader answer.stream = some (head, body) ∧ head.length ≤ tlsHeaderSize ∧
      Complete digest expectedChecksum 0 [] head body body

theorem tlsParts_eq {head body : Bytes} (split : splitHeader answer.stream = some (head, body))
    (fits : head.length ≤ tlsHeaderSize) : answer.tlsParts = (head, body) := by
  refine readTlsHeader_eq split ?_ ?_
  · exact (four_le_of_splitHeader split).trans_lt' (by decide)
  · rwa [List.length_nil, Nat.zero_add]

/-- What is read behind a head that is cut off is longer than the body. -/
theorem length_le_tlsParts {head body : Bytes}
    (split : splitHeader answer.stream = some (head, body)) :
    body.length ≤ answer.tlsParts.2.length := by
  by_cases fits : head.length ≤ tlsHeaderSize
  · rw [tlsParts_eq split fits]
  · obtain ⟨same, size⟩ := readTlsHeader_append tlsHeaderSize [] answer.stream
    have whole := congrArg List.length (same.trans (splitHeader_eq split))
    rw [List.length_append, List.length_append] at whole
    rw [List.length_nil, Nat.zero_add] at size
    unfold Answer.tlsParts
    omega

theorem tlsParts_eq_body {head body : Bytes} (split : splitHeader answer.stream = some (head, body))
    (complete : Complete digest expectedChecksum 0 [] head body answer.tlsParts.2) :
    answer.tlsParts.2 = body := by
  obtain ⟨_, _, _, _, carried, _, _, same, _⟩ := complete.answered
  rw [List.take_nil, List.nil_append] at same
  rcases decoded_cases (decoded_of_partOf carried) with whole | _
  · exact same.trans whole
  · have long := length_le_tlsParts split
    rw [same] at long
    omega

theorem reports_httpsDownload_iff (digest : Bytes → String) (expectedChecksum : String)
    (old : Option Bytes) (answer : Answer) :
    Reports digest expectedChecksum 0 [] answer (httpsDownload digest expectedChecksum old answer) ↔
      TlsSound digest expectedChecksum answer := by
  have cut := readTlsHeader_append tlsHeaderSize [] answer.stream
  unfold httpsDownload TlsSound
  rw [← Answer.tlsParts] at cut ⊢
  dsimp only
  split
  · rename_i thrown
    exact iff_of_true (reports_of_throw rfl) (.inl thrown.1)
  · split
    · rename_i refused
      exact iff_of_true (reports_of_failure rfl rfl) (.inr (.inl refused))
    · rename_i accepted
      split
      · rename_i broken
        exact iff_of_true (reports_of_throw rfl) (.inl broken)
      · rename_i sound
        rw [reports_conclude_iff]
        constructor
        · rintro (failed | ⟨head, body, split, complete⟩)
          · exact .inr (.inr (.inl failed))
          · have bodySame := tlsParts_eq_body split complete
            have headSame : answer.tlsParts.1 = head := by
              have parts := cut.1.trans (splitHeader_eq split)
              rw [bodySame] at parts
              exact List.append_cancel_right parts
            rw [headSame, List.length_nil, Nat.zero_add] at cut
            rw [bodySame] at complete
            exact .inr (.inr (.inr ⟨head, body, split, cut.2, complete⟩))
        · rintro (broken | refused | failed | ⟨head, body, split, fits, complete⟩)
          · exact absurd broken sound
          · exact absurd refused accepted
          · exact .inl failed
          · rw [tlsParts_eq split fits]
            exact .inr ⟨head, body, split, complete⟩

/-- The transfer would start behind the end of the file, and does not. -/
def Behind (existingBytes status : Nat) (old leftover : Bytes) : Prop :=
  status ≠ 200 ∧ old.length < existingBytes ∧ leftover = []

instance (existingBytes status : Nat) (old leftover : Bytes) :
    Decidable (Behind existingBytes status old leftover) :=
  inferInstanceAs (Decidable (_ ∧ _ ∧ _))

/-- The answer comes to lie where it belongs: a body that is its own data covers what a new one
replaces, or continues what there is to its end. The last is a file that the answer only repeats. -/
def Fits (existingBytes status : Nat) (old leftover body data : Bytes) : Prop :=
  (data = body ∧ (existingBytes = 0 ∨ (status = 200 ∧ old.length ≤ body.length) ∨
    (status = 206 ∧ old.length ≤ existingBytes + body.length))) ∨
  (existingBytes ≠ 0 ∧ status ≠ 200 ∧ status ≠ 206 ∧ old.length < existingBytes ∧
    leftover = [] ∧ old = data)

/-- The file after an answer, in terms of its two parts. -/
def placed (existingBytes status : Nat) (opened leftover rest : Bytes) : Bytes :=
  let position := startPosition existingBytes status
  let begun := writeAt opened position leftover
  if begun.length < position + leftover.length then begun
  else writeAt begun (position + leftover.length) rest

variable {status first : Nat} {leftover rest body : Bytes}

theorem length_writeAt_max (data_ne : data ≠ []) :
    (writeAt file position data).length = max file.length (position + data.length) := by
  rw [writeAt, if_neg data_ne]
  simp only [List.length_append, List.length_take, List.length_replicate, List.length_drop]
  omega

theorem placed_inside (inside : startPosition existingBytes status ≤ old.length) :
    placed existingBytes status old leftover rest = writeAt old (startPosition existingBytes status)
      (leftover ++ rest) := by
  have size := length_writeAt inside leftover
  rw [placed, if_neg (by omega), writeAt_writeAt inside]

theorem placed_outside (outside : old.length < startPosition existingBytes status) :
    placed existingBytes status old leftover rest =
      if leftover = [] then old
      else writeAt old (startPosition existingBytes status) leftover ++ rest := by
  unfold placed
  split
  · rename_i empty
    have begun : writeAt old (startPosition existingBytes status) [] = old := if_pos rfl
    dsimp only
    rw [empty, begun, List.length_nil, Nat.add_zero, if_pos outside]
  · rename_i some_
    have size : (writeAt old (startPosition existingBytes status) leftover).length = _ :=
      length_writeAt_max some_
    have ended : (writeAt old (startPosition existingBytes status) leftover).length =
        startPosition existingBytes status + leftover.length := by omega
    dsimp only
    rw [if_neg (by omega), ← ended, writeAt_end]

theorem writeAt_covers_iff (inside : position ≤ file.length) :
    writeAt file position data = file.take position ++ data ↔
      file.length ≤ position + data.length := by
  rw [writeAt_inside inside, List.append_cancel_left_eq, ← List.drop_eq_nil_iff]
  exact List.append_right_eq_self

theorem length_placed_outside (outside : old.length < startPosition existingBytes status)
    (some_ : leftover ≠ []) :
    (placed existingBytes status old leftover rest).length = startPosition existingBytes status +
      (leftover ++ rest).length := by
  have size : (writeAt old (startPosition existingBytes status) leftover).length = _ :=
    length_writeAt_max some_
  rw [placed_outside outside, if_neg some_, List.length_append, List.length_append]
  omega

theorem length_le_placed (start : startPosition existingBytes status = position)
    (inside : position ≤ old.length) (whole : leftover ++ rest = body) :
    position + body.length ≤ (placed existingBytes status old leftover rest).length := by
  subst start
  rw [placed_inside inside, whole, length_writeAt inside]
  exact Nat.le_max_right _ _

/-- The file is the whole content exactly when the answer fits. -/
theorem placed_eq_iff (whole : leftover ++ rest = body) (opened : existingBytes = 0 → old = [])
    (coded : data = body ∨ data.length < body.length)
    (begins : first = if status = 206 then existingBytes else 0) (inside : first ≤ old.length) :
    placed existingBytes status old leftover rest = old.take first ++ data ↔
      Fits existingBytes status old leftover body data := by
  have size : (old.take first ++ data).length = first + data.length := by
    rw [List.length_append, List.length_take, Nat.min_eq_left inside]
  by_cases zero : existingBytes = 0
  · have empty := opened zero
    subst zero empty
    have start : startPosition 0 status = 0 := by simp [startPosition]
    rw [placed_inside (by rw [start]; exact Nat.zero_le _), whole, start, writeAt_inside (Nat.zero_le _)]
    simp [Fits, eq_comm]
  have positive := Nat.pos_of_ne_zero zero
  by_cases full : status = 200
  · subst full
    have start : startPosition existingBytes 200 = 0 := if_pos ⟨positive, rfl⟩
    rw [if_neg (by decide)] at begins
    subst begins
    rcases coded with same | shorter
    · rw [placed_inside (by rw [start]; exact Nat.zero_le _), start, whole, same,
        writeAt_covers_iff (Nat.zero_le _)]
      simp [Fits, zero]
    · have long := length_le_placed start (Nat.zero_le old.length) whole
      refine iff_of_false (fun equal => ?_) ?_
      · rw [equal, size] at long
        omega
      · rintro (⟨same, _⟩ | ⟨_, other, _⟩)
        · exact absurd (congrArg List.length same) shorter.ne
        · exact other rfl
  have start : startPosition existingBytes status = existingBytes := if_neg fun both => full both.2
  by_cases part : status = 206
  · subst part
    rw [if_pos rfl] at begins
    subst begins
    rcases coded with same | shorter
    · rw [placed_inside (by rwa [start]), start, whole, same, writeAt_covers_iff inside]
      simp [Fits, zero]
    · have long := length_le_placed start inside whole
      refine iff_of_false (fun equal => ?_) ?_
      · rw [equal, size] at long
        omega
      · rintro (⟨same, _⟩ | ⟨_, _, other, _⟩)
        · exact absurd (congrArg List.length same) shorter.ne
        · exact other rfl
  · rw [if_neg part] at begins
    subst begins
    have notFits (another : ¬ (old.length < existingBytes ∧ leftover = [])) :
        ¬ Fits existingBytes status old leftover body data := by
      rintro (⟨_, none | full' | part'⟩ | ⟨_, _, _, outside, empty, _⟩)
      · exact zero none
      · exact full full'.1
      · exact part part'.1
      · exact another ⟨outside, empty⟩
    have shorter : data.length ≤ body.length := by
      rcases coded with same | shorter
      · exact (congrArg List.length same).le
      · exact shorter.le
    rcases Nat.lt_or_ge old.length existingBytes with outside | reached
    · by_cases none : leftover = []
      · rw [placed_outside (by rwa [start]), if_pos none]
        simp [Fits, zero, full, part, outside, none]
      · refine iff_of_false (fun equal => ?_) (notFits fun both => none both.2)
        have grown := congrArg List.length equal
        rw [length_placed_outside (by rwa [start]) none, start, whole, size] at grown
        omega
    · refine iff_of_false (fun equal => ?_) (notFits fun both => absurd both.1 (by omega))
      have long := length_le_placed start reached whole
      rw [equal, size] at long
      omega

theorem behind_iff : (writeAt old (startPosition existingBytes status) leftover).length <
    startPosition existingBytes status + leftover.length ↔
      Behind existingBytes status old leftover := by
  rcases Nat.lt_or_ge old.length (startPosition existingBytes status) with outside | inside
  · have partly : status ≠ 200 ∧ startPosition existingBytes status = existingBytes := by
      unfold startPosition at outside ⊢
      split at outside
      · omega
      · rename_i other
        exact ⟨fun full => other ⟨by omega, full⟩, if_neg other⟩
    by_cases none : leftover = []
    · have begun : writeAt old (startPosition existingBytes status) [] = old := if_pos rfl
      rw [none, begun, List.length_nil, Nat.add_zero]
      exact iff_of_true outside ⟨partly.1, by omega, rfl⟩
    · have size : (writeAt old (startPosition existingBytes status) leftover).length = _ :=
        length_writeAt_max none
      exact iff_of_false (by omega) fun behind => none behind.2.2
  · have size := length_writeAt inside leftover
    refine iff_of_false (by omega) fun behind => ?_
    have start : startPosition existingBytes status = existingBytes := if_neg fun both => behind.1 both.2
    have short := behind.2.1
    omega

theorem transferAll_placed (enough : rest.length < fuel) :
    ∃ totalRead, transferAll broken fuel (startPosition existingBytes status + leftover.length)
        (writeAt old (startPosition existingBytes status) leftover) rest =
      (broken && !decide (Behind existingBytes status old leftover), totalRead,
        placed existingBytes status old leftover rest) := by
  obtain ⟨fuel, rfl⟩ : ∃ less, fuel = less + 1 := ⟨fuel - 1, by omega⟩
  by_cases behind : Behind existingBytes status old leftover
  · have short := behind_iff.mpr behind
    refine ⟨startPosition existingBytes status + leftover.length, ?_⟩
    rw [transferAll_behind short, decide_eq_true behind, placed, if_pos short]
    simp
  · have long := mt behind_iff.mp behind
    refine ⟨startPosition existingBytes status + leftover.length + rest.length, ?_⟩
    rw [transferAll_eq (not_lt.mp long) enough, decide_eq_false behind, placed, if_neg long]
    simp

def Answer.readStatus (head : Bytes) (answer : Answer) : Nat :=
  (statusCode (head ++ answer.leftover)).getD 0

/-- The status is refused, the connection breaks while it is read from, the hashed bytes are wrong,
or the answer is complete with what the file holds and fits there. -/
def ResumeSound (digest : Bytes → String) (expectedChecksum : String) (existingBytes : Nat)
    (old : Bytes) (answer : Answer) : Prop :=
  ∀ head body, splitHeader answer.stream = some (head, body) →
  succeeded (answer.readStatus head) = false ∨
    (answer.broken = true ∧ ¬ Behind existingBytes (answer.readStatus head) old answer.leftover) ∨
    Mismatched digest expectedChecksum answer.leftover ∨
    ∃ status part, statusAt head = some status ∧ partOf status head body = some part ∧
      Fits existingBytes status old answer.leftover body part.data ∧
      Complete digest expectedChecksum existingBytes old head body (old.take part.first ++ part.data)

/-- The status is refused, the connection breaks while it is read from, or the hashed bytes decide. -/
theorem httpDownloadWithResume_cases (digest : Bytes → String) (expectedChecksum : String)
    {existingBytes : Nat} {old : Option Bytes} {answer : Answer} {head body : Bytes}
    (split : splitHeader answer.stream = some (head, body)) :
    (succeeded (answer.readStatus head) = false ∧ ∃ result,
        (httpDownloadWithResume digest expectedChecksum false existingBytes old answer).result =
        some result ∧
          result.success = false) ∨
      ((answer.broken = true ∧
        ¬ Behind existingBytes (answer.readStatus head)
          (opened existingBytes old) answer.leftover) ∧
          (httpDownloadWithResume digest expectedChecksum false existingBytes old answer).result =
          none) ∨
      succeeded (answer.readStatus head) = true ∧
        ¬ (answer.broken = true ∧
          ¬ Behind existingBytes (answer.readStatus head)
            (opened existingBytes old) answer.leftover) ∧
        ∃ totalRead rest, answer.leftover ++ rest = body ∧
          httpDownloadWithResume digest expectedChecksum false existingBytes old answer =
            conclude digest expectedChecksum (fun _ => "Checksum mismatch") answer.leftover
              (placed existingBytes (answer.readStatus head) (opened existingBytes old)
                answer.leftover rest) totalRead := by
  have response := readResponse_eq answer.pieces
  rw [show splitHeader answer.pieces.flatten = some (head, body) from split] at response
  obtain ⟨leftover, rest, read, whole⟩ := response
  have left : leftover = answer.leftover := by rw [Answer.leftover, read]; rfl
  rw [left] at read whole
  have isStatus : (statusCode (head ++ answer.leftover)).getD 0 = answer.readStatus head := rfl
  cases accepted : succeeded (answer.readStatus head) with
  | false =>
    refine .inl ⟨rfl, { success := false, bytesTransferred := 0, checksum := ""
                        errorMessage := "Server returned " ++ toString (answer.readStatus head) },
                          ?_, rfl⟩
    simp only [httpDownloadWithResume, read, isStatus, accepted, Bool.false_eq_true, ↓reduceIte]
  | true =>
    obtain ⟨totalRead, received⟩ : ∃ totalRead, transferAll answer.broken (rest.flatten.length + 1)
        (startPosition existingBytes (answer.readStatus head) + answer.leftover.length)
        (writeAt (opened existingBytes old) (startPosition existingBytes (answer.readStatus head))
          answer.leftover) rest.flatten = _ :=
      transferAll_placed (Nat.lt_succ_self _)
    by_cases thrown : answer.broken = true ∧
        ¬ Behind existingBytes (answer.readStatus head) (opened existingBytes old) answer.leftover
    · rw [thrown.1, decide_eq_false thrown.2] at received
      refine .inr (.inl ⟨thrown, ?_⟩)
      simp only [httpDownloadWithResume, read, isStatus, accepted, thrown.1, received,
        Bool.true_eq_false, Bool.false_eq_true,
        Bool.not_false, Bool.and_true, ↓reduceIte]
    · have quiet : (answer.broken &&
          !decide (Behind existingBytes (answer.readStatus head) (opened existingBytes old)
            answer.leftover)) = false := by
        by_contra loud
        simp only [Bool.not_eq_false, Bool.and_eq_true, Bool.not_eq_true',
          decide_eq_false_iff_not] at loud
        exact thrown loud
      refine .inr (.inr ⟨rfl, thrown, totalRead, rest.flatten, whole, ?_⟩)
      simp only [httpDownloadWithResume, read, isStatus, accepted, received, quiet,
        Bool.true_eq_false, Bool.false_eq_true,
        ↓reduceIte]

theorem reports_httpDownloadWithResume_iff (digest : Bytes → String) (expectedChecksum : String)
    (existingBytes : Nat) (old : Option Bytes) (answer : Answer) :
    Reports digest expectedChecksum existingBytes (opened existingBytes old) answer
        (httpDownloadWithResume digest expectedChecksum false existingBytes old answer) ↔
      ResumeSound digest expectedChecksum existingBytes (opened existingBytes old) answer := by
  unfold ResumeSound
  cases split : splitHeader answer.stream with
  | none =>
    have response := readResponse_eq answer.pieces
    rw [show splitHeader answer.pieces.flatten = none from split] at response
    refine iff_of_true (reports_of_throw ?_) nofun
    simp only [httpDownloadWithResume, response, Bool.false_eq_true, ↓reduceIte]
  | some parts =>
    rcases httpDownloadWithResume_cases digest expectedChecksum split with
      ⟨refused, result, reported, failure⟩ | ⟨broken, thrown⟩
      | ⟨accepted, unbroken, totalRead, rest, whole, outcome⟩
    · refine iff_of_true (reports_of_failure reported failure) ?_
      intro head body same
      cases same
      exact .inl refused
    · refine iff_of_true (reports_of_throw thrown) ?_
      intro _ _ same
      cases same
      exact .inr (.inl broken)
    · have fits (status : Nat) (part : Part) (found : statusAt parts.1 = some status)
        (carried : partOf status parts.1 parts.2 = some part)
          (begins : part.first = if status = 206 then existingBytes else 0)
          (inside : part.first ≤ (opened existingBytes old).length) :
          placed existingBytes (answer.readStatus parts.1)
            (opened existingBytes old) answer.leftover rest =
              (opened existingBytes old).take part.first ++ part.data ↔
            Fits existingBytes status (opened existingBytes old) answer.leftover parts.2 part.data := by
        have same : answer.readStatus parts.1 = status := by
          rw [Answer.readStatus, statusCode_of_statusAt found]
          rfl
        rw [same]
        exact placed_eq_iff whole (fun zero => if_pos zero)
          (decoded_cases (decoded_of_partOf carried)) begins inside
      rw [outcome, reports_conclude_iff, split]
      constructor
      · rintro (failed | ⟨_, _, same, complete⟩) _ _ here
        · exact .inr (.inr (.inl failed))
        · cases same
          cases here
          obtain ⟨status, part, found, _, carried, begins, inside, equal, _⟩ := complete.answered
          rw [equal] at complete
          exact .inr (.inr (.inr
            ⟨status, part, found, carried,
              (fits status part found carried begins inside).mp equal, complete⟩))
      · intro all
        rcases all parts.1 parts.2 rfl with refused | broken | failed
          | ⟨status, part, found, carried, fitting, complete⟩
        · rw [refused] at accepted
          cases accepted
        · exact absurd broken unbroken
        · exact .inl failed
        · obtain ⟨_, _, found', _, carried', begins, inside, _⟩ := complete.answered
          cases found.symm.trans found'
          cases carried.symm.trans carried'
          rw [← (fits status part found carried begins inside).mpr fitting] at complete
          exact .inr ⟨_, _, rfl, complete⟩

/-- A whole file of one byte, for three bytes that are to be continued. -/
def fullAnswer : Answer :=
  { pieces := [ascii "HTTP/1.1 200 OK\r\nContent-Length: 1\r\n\r\n", [9]], broken := false }

/-- The second part of three. -/
def middleAnswer : Answer :=
  { pieces := [ascii
      "HTTP/1.1 206 Partial Content\r\nContent-Range: bytes 3-5/10\r\nContent-Length: 3\r\n\r\n",
      [4, 5, 6]]
    broken := false }

def chunkedAnswer : Answer :=
  { pieces := [ascii "HTTP/1.1 200 OK\r\nTransfer-Encoding: chunked\r\n\r\n",
    ascii "3\r\nabc\r\n0\r\n\r\n"], broken := false }

end DistributedOs.Nio
