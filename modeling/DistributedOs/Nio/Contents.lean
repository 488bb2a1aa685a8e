import DistributedOs.Nio.Headers

/-! What an answer carries by its head: the fields of a name, the chunked coding, and where a part
belongs. A content coding is the content's own; of the transfer codings a client that names none can
be sent chunks only. -/

namespace DistributedOs.Nio

open Semantics

def trim (text : Bytes) : Bytes := ((text.dropWhile isSpace).reverse.dropWhile isSpace).reverse

def fieldValues (name head : Bytes) : List Bytes :=
  ((head.splitOn 10).drop 1).filterMap fun line =>
    if (line.takeWhile (· ≠ 58)).map lower = name then
      some (trim ((line.dropWhile (· ≠ 58)).drop 1)) else none

def number (digits : Bytes) : Option Nat :=
  if digits ≠ [] ∧ digits.all isDigit then some (decimal digits) else none

def hexValue (digit : UInt8) : Option Nat :=
  if isDigit digit then some (digit.toNat - 48)
  else if 97 ≤ (lower digit).toNat ∧ (lower digit).toNat ≤ 102 then some ((lower digit).toNat - 87)
  else none

def chunkSize (line : Bytes) : Option Nat :=
  let digits := line.takeWhile fun byte => (hexValue byte).isSome
  if digits = [] then none
  else some (digits.foldl (fun size digit => size * 16 + (hexValue digit).getD 0) 0)

/-- The data of a chunked body. The last chunk is empty and has the trailer up to a blank line
behind it. -/
def dechunk : Nat → Bytes → Option Bytes
  | 0, _ => none
  | fuel + 1, body =>
    let rest := (body.dropWhile (· ≠ 10)).drop 1
    match chunkSize (body.takeWhile (· ≠ 10)) with
    | none => none
    | some 0 => if (splitHeader (13 :: 10 :: rest)).isSome then some [] else none
    | some size =>
      if (rest.drop size).take 2 = [13, 10] then
        (dechunk fuel (rest.drop (size + 2))).map (rest.take size ++ ·)
      else none

def transferCodings (head : Bytes) : List Bytes :=
  (((fieldValues (ascii "transfer-encoding") head).flatMap (·.splitOn 44)).map fun coding =>
    (trim coding).map lower).filter
    fun coding => coding ≠ ascii "identity"

/-- Every chunk takes a byte, so one more than there are is fuel enough. -/
def decoded (head body : Bytes) : Option Bytes :=
  match transferCodings head with
  | [] => some body
  | [coding] => if coding = ascii "chunked" then dechunk (body.length + 1) body else none
  | _ => none

structure ContentRange where
  first : Nat
  last : Nat
  total : Option Nat
  deriving DecidableEq

/-- `bytes 3-5/10`, or with `*` where the total is not known. -/
def contentRange (value : Bytes) : Option ContentRange :=
  if (value.take 6).map lower ≠ ascii "bytes " then none
  else match ((value.drop 6).splitOn 47).map (·.splitOn 45) with
  | [[first, last], [total]] =>
    match number (trim first), number (trim last) with
    | some first, some last =>
      if last < first then none
      else if trim total = [42] then some { first, last, total := none }
      else (number (trim total)).map fun total => { first, last, total := some total }
    | _, _ => none
  | _ => none

/-- The bytes that an answer carries, where they begin, and the sizes of the whole that it
announces. -/
structure Part where
  first : Nat
  data : Bytes
  announced : List Nat
  deriving DecidableEq

/-- No length counts beside a transfer coding. -/
def contentLengths (head : Bytes) : List Nat :=
  if transferCodings head = [] then
    ((fieldValues (ascii "content-length") head).flatMap (·.splitOn 44)).filterMap fun value =>
    number (trim value)
  else []

/-- An answer with 206 is a part, and without its range, or with several, there is no telling which. -/
def partOf (status : Nat) (head body : Bytes) : Option Part :=
  (decoded head body).bind fun data =>
    if status = 206 then
      match (fieldValues (ascii "content-range") head).map contentRange with
      | [some range] =>
        some { first := range.first, data
               announced := (range.last + 1) :: range.total.toList ++ (contentLengths head).map
                 (range.first + ·) }
      | _ => none
    else some { first := 0, data, announced := contentLengths head }

variable {body head data : Bytes} {fuel status : Nat} {part : Part}

theorem length_afterLine (size : chunkSize (body.takeWhile (· ≠ 10)) = some count) :
    ((body.dropWhile (· ≠ 10)).drop 1).length < body.length := by
  have parts := congrArg List.length (List.takeWhile_append_dropWhile (p := (· ≠ 10)) (l := body))
  have some_ : body.takeWhile (· ≠ 10) ≠ [] := by
    intro none
    rw [none] at size
    cases size
  have positive := List.length_pos_iff.mpr some_
  rw [List.length_append] at parts
  rw [List.length_drop]
  omega

theorem dechunk_shorter (read : dechunk fuel body = some data) : data.length < body.length := by
  induction fuel generalizing body data with
  | zero => cases read
  | succ _ ih =>
    rw [dechunk] at read
    split at read
    · cases read
    · rename_i last
      obtain ⟨_, done⟩ := Option.ite_none_right_eq_some.mp read
      cases done
      exact Nat.lt_of_le_of_lt (Nat.zero_le _) (length_afterLine last)
    · rename_i line
      have shorter := length_afterLine line
      obtain ⟨ends, later⟩ := Option.ite_none_right_eq_some.mp read
      obtain ⟨_, next, rfl⟩ := Option.map_eq_some_iff.mp later
      have left := ih next
      have two := congrArg List.length ends
      rw [List.length_take, List.length_drop] at two
      rw [List.length_drop] at left
      rw [List.length_append, List.length_take]
      simp only [List.length_cons, List.length_nil] at two
      omega

theorem decoded_cases (carried : decoded head body = some data) :
    data = body ∨ data.length < body.length := by
  unfold decoded at carried
  split at carried
  · exact .inl (Option.some.inj carried).symm
  · obtain ⟨_, read⟩ := Option.ite_none_right_eq_some.mp carried
    exact .inr (dechunk_shorter read)
  · cases carried

theorem decoded_of_partOf (carried : partOf status head body = some part) :
    decoded head body = some part.data := by
  obtain ⟨_, read, found⟩ := Option.bind_eq_some_iff.mp carried
  split at found
  · split at found
    · cases found
      exact read
    · cases found
  · cases found
    exact read

theorem statusCode_of_statusAt (found : statusAt head = some status) :
    statusCode (head ++ more) = some status := by
  have enough := window_statusAt.enough head status found
  have same := window_statusAt.beyond head more enough
  cases head with
  | nil => cases found
  | cons =>
    rw [List.cons_append] at same ⊢
    rw [statusCode, findMatch, same, found, Option.some_or]

example : decoded (ascii "HTTP/1.1 200 OK\r\nTransfer-Encoding: chunked\r\n\r\n")
  (ascii "3\r\nabc\r\n0\r\n\r\n") = some (ascii "abc") := by
  decide +kernel

end DistributedOs.Nio
