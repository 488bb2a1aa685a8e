import DistributedOs.Semantics.Pieces

/-! The head of an HTTP response as `NioTransfer` reads it: byte by byte as US-ASCII, with what came
in the same read behind it. -/

namespace DistributedOs.Nio

open Semantics

/-- `\r\n\r\n`. -/
def blankLine : Bytes := [13, 10, 13, 10]

def splitHeader : Bytes → Option (Bytes × Bytes)
  | [] => none
  | byte :: rest =>
    if (byte :: rest).take 4 = blankLine then some ((byte :: rest).take 4, (byte :: rest).drop 4)
    else (splitHeader rest).map fun parts => (byte :: parts.1, parts.2)

def isDigit (byte : UInt8) : Bool := 48 ≤ byte.toNat && byte.toNat ≤ 57

/-- The first result of a match, from left to right. -/
def findMatch {α : Type} (matchAt : Bytes → Option α) : Bytes → Option α
  | [] => matchAt []
  | byte :: rest => (matchAt (byte :: rest)).or (findMatch matchAt rest)

/-- `HTTP/1\.[01] (\d{3})`. -/
def statusAt (text : Bytes) : Option Nat :=
  match text.take 12 with
  | [72, 84, 84, 80, 47, 49, 46, minor, 32, a, b, c] =>
    if (minor = 48 ∨ minor = 49) ∧ isDigit a ∧ isDigit b ∧ isDigit c then
      some ((a.toNat - 48) * 100 + (b.toNat - 48) * 10 + (c.toNat - 48))
    else none
  | _ => none

def statusCode (text : Bytes) : Option Nat := findMatch statusAt text

def lower (byte : UInt8) : UInt8 := if 65 ≤ byte.toNat ∧ byte.toNat ≤ 90 then byte + 32 else byte

def isSpace (byte : UInt8) : Bool := byte = 32 || (9 ≤ byte.toNat && byte.toNat ≤ 13)

def decimal (digits : Bytes) : Nat :=
  digits.foldl (fun value digit => value * 10 + (digit.toNat - 48)) 0

def ascii (text : String) : Bytes := text.toList.map fun c => UInt8.ofNat c.toNat

/-- `Content-Length:\s*(\d+)`, without regard to case, and `toLongOrNull`. -/
def contentLengthAt (text : Bytes) : Option (Option Nat) :=
  if (text.take 15).map lower = ascii "content-length:" then
    let digits := ((text.drop 15).dropWhile isSpace).takeWhile isDigit
    if digits = [] then none
    else if decimal digits < 2 ^ 63 then some (some (decimal digits))
    else some none
  else none

def contentLength (text : Bytes) : Option Nat := (findMatch contentLengthAt text).join

/-- The head, what came in the same read behind it, and what is still to come. -/
structure Response where
  head : Bytes
  leftover : Bytes
  rest : List Bytes

/-- Reads of at most 8192 bytes until the blank line has come; the end of the stream throws. -/
def readHeaders : Nat → Bytes → List Bytes → Option Response
  | 0, _, _ => none
  | fuel + 1, headerData, pieces =>
    match readSome () 8192 pieces with
    | .error _ => none
    | .ok read =>
      match splitHeader (headerData ++ read.1) with
      | some parts => some { head := parts.1, leftover := parts.2, rest := read.2 }
      | none => readHeaders fuel (headerData ++ read.1) read.2

/-- Every read gets a byte, so one more than there are is fuel enough. -/
def readResponse (pieces : List Bytes) : Option Response :=
  readHeaders (pieces.flatten.length + 1) [] pieces

variable {text head body more : Bytes} {pieces rest : List Bytes} {fuel : Nat} {headerData : Bytes}
  {α : Type} {matchAt : Bytes → Option α} {width : Nat}

/-- A match looks at so many bytes. -/
structure Window (matchAt : Bytes → Option α) (width : Nat) : Prop where
  enough : ∀ text result, matchAt text = some result → width ≤ text.length
  beyond : ∀ text more, width ≤ text.length → matchAt (text ++ more) = matchAt text

theorem window_statusAt : Window statusAt 12 := by
  refine ⟨?_, ?_⟩
  · intro text _ found
    unfold statusAt at found
    split at found
    · rename_i whole
      have size := congrArg List.length whole
      rw [List.length_take] at size
      simp only [List.length_cons, List.length_nil] at size
      omega
    · cases found
  · intro _ _ enough
    rw [statusAt, List.take_append_of_le_length enough, statusAt]

theorem splitHeader_eq (split : splitHeader text = some (head, body)) : text = head ++ body := by
  induction text generalizing head with
  | nil => cases split
  | cons _ _ ih =>
    rw [splitHeader] at split
    split at split
    · cases split
      exact (List.take_append_drop 4 _).symm
    · obtain ⟨_, later, same⟩ := Option.map_eq_some_iff.mp split
      cases same
      rw [List.cons_append, ← ih later]

theorem four_le_of_splitHeader (split : splitHeader text = some (head, body)) :
    4 ≤ head.length := by
  induction text generalizing head with
  | nil => cases split
  | cons _ _ ih =>
    rw [splitHeader] at split
    split at split
    · rename_i blank
      cases split
      rw [blank]
      exact Nat.le_refl 4
    · obtain ⟨_, later, same⟩ := Option.map_eq_some_iff.mp split
      cases same
      exact (ih later).trans (Nat.le_succ _)

theorem blankLine_suffix (split : splitHeader text = some (head, body)) : blankLine <:+ head := by
  induction text generalizing head with
  | nil => cases split
  | cons _ _ ih =>
    rw [splitHeader] at split
    split at split
    · rename_i blank
      cases split
      exact ⟨[], blank.symm⟩
    · obtain ⟨_, later, same⟩ := Option.map_eq_some_iff.mp split
      cases same
      exact (ih later).trans (List.suffix_cons _ _)

theorem splitHeader_isSome (blank : blankLine <:+ text) : (splitHeader text).isSome = true := by
  induction text with
  | nil => cases List.suffix_nil.mp blank
  | cons _ _ ih =>
    rw [splitHeader]
    split
    · rfl
    · rename_i other
      rcases List.suffix_cons_iff.mp blank with whole | later
      · rw [← whole] at other
        exact absurd rfl other
      · rw [Option.isSome_map]
        exact ih later

theorem splitHeader_append (split : splitHeader text = some (head, body)) (more : Bytes) :
    splitHeader (text ++ more) = some (head, body ++ more) := by
  induction text generalizing head with
  | nil => cases split
  | cons byte rest ih =>
    have whole := split
    rw [splitHeader] at split
    rw [List.cons_append, splitHeader, ← List.cons_append]
    split at split
    · rename_i blank
      have four : 4 ≤ (byte :: rest).length := by
        rw [splitHeader_eq whole, List.length_append]
        exact (four_le_of_splitHeader whole).trans (Nat.le_add_right _ _)
      cases split
      rw [List.take_append_of_le_length four, List.drop_append_of_le_length four, if_pos blank]
    · rename_i other
      obtain ⟨_, later, same⟩ := Option.map_eq_some_iff.mp split
      cases same
      have four : 4 ≤ (byte :: rest).length := by
        rw [splitHeader_eq later, List.length_cons, List.length_append]
        have least := four_le_of_splitHeader later
        omega
      rw [List.take_append_of_le_length four, if_neg other, ih later]
      rfl

/-- While there is no blank line in what was read, the reads go on; then the head is what it is in
the stream. -/
private theorem readHeaders_eq (unfinished : splitHeader headerData = none)
    (enough : pieces.flatten.length < fuel) :
    match splitHeader (headerData ++ pieces.flatten) with
    | none => readHeaders fuel headerData pieces = none
    | some (head, body) =>
      ∃ leftover rest, readHeaders fuel headerData pieces = some { head, leftover, rest } ∧
      leftover ++ rest.flatten = body := by
  induction fuel generalizing headerData pieces with
  | zero => omega
  | succ fuel ih =>
    cases read : readSome () 8192 pieces with
    | error =>
      rw [(readSome_error read).2, List.append_nil, unfinished]
      simp only [readHeaders, read]
    | ok result =>
      have ⟨same, nonempty, _⟩ := readSome_ok (by decide) read
      have got := List.length_pos_iff.mpr nonempty
      cases split : splitHeader (headerData ++ result.1) with
      | none =>
        have fewer : result.2.flatten.length < fuel := by
          rw [same, List.length_append] at enough
          omega
        have later := ih split fewer
        rw [List.append_assoc, ← same] at later
        have goes : readHeaders (fuel + 1) headerData pieces = readHeaders fuel
            (headerData ++ result.1) result.2 := by
          simp only [readHeaders, read, split]
        rw [goes]
        exact later
      | some parts =>
        rw [same, ← List.append_assoc, splitHeader_append split]
        refine ⟨parts.2, result.2, ?_, rfl⟩
        simp only [readHeaders, read, split]

theorem readResponse_eq (pieces : List Bytes) :
    match splitHeader pieces.flatten with
    | none => readResponse pieces = none
    | some (head, body) =>
      ∃ leftover rest, readResponse pieces = some { head, leftover, rest } ∧
      leftover ++ rest.flatten = body := by
  have all := readHeaders_eq (show splitHeader [] = none from rfl)
    (Nat.lt_succ_self pieces.flatten.length)
  rw [List.nil_append] at all
  exact all

end DistributedOs.Nio
