import Mathlib.Data.List.Induction
import Mathlib.Data.List.Infix
import Mathlib.Algebra.Group.Nat.Defs

/-! Header fields in a text: its lines, the first line under a name, and the number that a field
holds. -/

namespace DistributedOs.Semantics

/-- A line without the CR at its end. -/
def stripReturn (line : List Char) : List Char :=
  if line.getLast? = some '\r' then line.dropLast else line

def lines (text : List Char) : List (List Char) :=
  let parts := text.splitOn '\n'
  (if parts.getLast? = some [] then parts.dropLast else parts).map stripReturn

/-- The line in lower case begins with the name. Letters beyond ASCII become none of ASCII but i and
k, which a name is not to have. -/
def beginsWith (name line : List Char) : Bool := name.isPrefixOf (line.map Char.toLower)

def headerLine (name text : List Char) : Option (List Char) := (lines text).find? (beginsWith name)

def decimalValue (digits : List Char) : Nat :=
  digits.foldl (fun value digit => value * 10 + (digit.toNat - '0'.toNat)) 0

/-- A number may have a plus sign. -/
def withoutSign : List Char → List Char
  | '+' :: digits => digits
  | digits => digits

/-- `str::parse::<u64>`. -/
def parseU64 (text : List Char) : Option UInt64 :=
  let digits := withoutSign text
  if digits = [] ∨ !digits.all Char.isDigit then none
  else if decimalValue digits < 2 ^ 64 then some (UInt64.ofNat (decimalValue digits))
  else none

variable {name line text rest : List Char} {others : List (List Char)} {digits : List Char}

theorem beginsWith_iff : beginsWith name line = true ↔ name <+: line.map Char.toLower :=
  List.isPrefixOf_iff_prefix

theorem beginsWith_stripReturn (plain : '\r' ∉ name) :
    beginsWith name (stripReturn line) = beginsWith name line := by
  unfold stripReturn
  split
  · rename_i ends
    have whole := List.dropLast_append_getLast? '\r' ends
    rw [Bool.eq_iff_iff, beginsWith_iff, beginsWith_iff]
    conv_rhs => rw [← whole, List.map_append]
    constructor
    · intro begins
      exact begins.trans (List.prefix_append _ _)
    · intro begins
      rcases List.prefix_concat_iff.mp begins with same | shorter
      · rw [same] at plain
        exact absurd (List.mem_append_right _ List.mem_cons_self) plain
      · exact shorter
  · rfl

theorem headerLine_eq (nonempty : name ≠ []) (plain : '\r' ∉ name) (text : List Char) :
    headerLine name text = ((text.splitOn '\n').find? (beginsWith name)).map stripReturn := by
  have strip : beginsWith name ∘ stripReturn = beginsWith name :=
    funext fun line => beginsWith_stripReturn plain
  have empty : beginsWith name [] = false := by
    cases name with
    | nil => exact absurd rfl nonempty
    | cons => rfl
  rw [headerLine, lines, List.find?_map, strip]
  congr 1
  split
  · rename_i ends
    have whole := List.dropLast_append_getLast? [] ends
    conv_rhs => rw [← whole]
    rw [List.find?_append, List.find?_singleton, empty]
    simp
  · rfl

theorem find?_splitOn_lines (unbroken : ∀ line ∈ others, '\n' ∉ line)
    (skipped : ∀ line ∈ others, beginsWith name line = false) (rest : List Char) :
    (((others.map (· ++ ['\n'])).flatten ++ rest).splitOn '\n').find? (beginsWith name) =
      (rest.splitOn '\n').find? (beginsWith name) := by
  induction others with
  | nil => rfl
  | cons _ _ ih =>
    rw [List.forall_mem_cons] at unbroken skipped
    rw [List.map_cons, List.flatten_cons, List.append_assoc, List.append_assoc, List.singleton_append,
      List.splitOn_append_cons_self_of_not_mem unbroken.1, List.find?_cons_of_neg (by simp [skipped.1])]
    exact ih unbroken.2 skipped.2

theorem headerLine_found (nonempty : name ≠ []) (plain : '\r' ∉ name)
    (unbroken : ∀ line ∈ others, '\n' ∉ line)
    (skipped : ∀ line ∈ others, beginsWith name line = false) (begins : beginsWith name line = true)
    (whole : '\n' ∉ line) (ended : rest = [] ∨ ∃ later, rest = '\n' :: later) :
    headerLine name ((others.map (· ++ ['\n'])).flatten ++ (line ++ rest)) =
      some (stripReturn line) := by
  rw [headerLine_eq nonempty plain, find?_splitOn_lines unbroken skipped]
  rcases ended with rfl | ⟨_, rfl⟩
  · rw [List.append_nil, List.splitOn_eq_singleton whole, List.find?_cons_of_pos begins]
    rfl
  · rw [List.splitOn_append_cons_self_of_not_mem whole, List.find?_cons_of_pos begins]
    rfl

theorem headerLine_none (nonempty : name ≠ []) (plain : '\r' ∉ name)
    (unbroken : ∀ line ∈ others, '\n' ∉ line)
    (skipped : ∀ line ∈ others, beginsWith name line = false)
    (begins : beginsWith name line = false) (whole : '\n' ∉ line) :
    headerLine name ((others.map (· ++ ['\n'])).flatten ++ line) = none := by
  rw [headerLine_eq nonempty plain, find?_splitOn_lines unbroken skipped,
    List.splitOn_eq_singleton whole,
    List.find?_cons_of_neg (by simp [begins])]
  rfl

theorem stripReturn_append (other : c ≠ '\r') (front rest : List Char) :
    ∃ later, stripReturn (front ++ c :: rest) = front ++ c :: later := by
  unfold stripReturn
  split
  · rename_i ends
    rw [List.getLast?_append_cons] at ends
    cases rest with
    | nil => exact absurd (Option.some.inj ends) other
    | cons next rest =>
      refine ⟨(next :: rest).dropLast, ?_⟩
      rw [List.dropLast_append_of_ne_nil (List.cons_ne_nil _ _),
        List.dropLast_cons_of_ne_nil (List.cons_ne_nil _ _)]
  · exact ⟨rest, rfl⟩

theorem stripReturn_of_not_mem (other : c ≠ '\r') (plain : '\r' ∉ rest) (front : List Char) :
    stripReturn (front ++ c :: rest) = front ++ c :: rest := by
  refine if_neg fun ends => ?_
  rw [List.getLast?_append_cons] at ends
  rcases List.mem_cons.mp (List.mem_of_getLast? ends) with same | member
  · exact other same.symm
  · exact plain member

theorem exists_line (text : List Char) : ∃ line rest, text = line ++ rest ∧ '\n' ∉ line ∧
      (rest = [] ∨ ∃ later, rest = '\n' :: later) := by
  induction text with
  | nil => exact ⟨[], [], rfl, List.not_mem_nil, .inl rfl⟩
  | cons first text ih =>
    obtain ⟨line, rest, split, unbroken, ended⟩ := ih
    by_cases break_ : first = '\n'
    · exact ⟨[], first :: text, rfl, List.not_mem_nil, .inr ⟨text, by rw [break_]⟩⟩
    · refine ⟨first :: line, rest, by rw [split]; rfl, fun member => ?_, ended⟩
      rcases List.mem_cons.mp member with same | later
      · exact break_ same.symm
      · exact unbroken later

theorem splitOn_head (whole : separator ∉ front) (rest : List Char) :
    ∃ more parts, (front ++ rest).splitOn separator = (front ++ more) :: parts := by
  induction rest generalizing front with
  | nil => exact ⟨[], [], by rw [List.append_nil, List.splitOn_eq_singleton whole]⟩
  | cons first _ ih =>
    by_cases here : first = separator
    · subst here
      exact ⟨[], _, by rw [List.append_nil, List.splitOn_append_cons_self_of_not_mem whole]⟩
    · have longer : separator ∉ front ++ [first] := by
        intro member
        rcases List.mem_append.mp member with earlier | last
        · exact whole earlier
        · exact here (List.mem_singleton.mp last).symm
      obtain ⟨more, parts, split⟩ := ih longer
      refine ⟨first :: more, parts, ?_⟩
      rwa [List.append_assoc, List.append_assoc] at split

theorem decimalValue_concat (digits : List Char) (digit : Char) :
    decimalValue (digits ++ [digit]) = decimalValue digits * 10 + (digit.toNat - '0'.toNat) := by
  rw [decimalValue, List.foldl_append]
  rfl

theorem decimalValue_append_le (digits : List Char) (nonempty : more ≠ []) :
    10 * decimalValue digits ≤ decimalValue (digits ++ more) := by
  induction more using List.reverseRecOn with
  | nil => exact absurd rfl nonempty
  | append_singleton more _ ih =>
    rw [← List.append_assoc, decimalValue_concat]
    by_cases last : more = []
    · rw [last, List.append_nil]
      omega
    · have larger := ih last
      omega

theorem withoutSign_cons (unsigned : first ≠ '+') (digits : List Char) :
    withoutSign (first :: digits) = first :: digits := by
  unfold withoutSign
  split
  · rename_i same
    cases same
    exact absurd rfl unsigned
  · rfl

theorem parseU64_digits (nonempty : digits ≠ []) (all : digits.all Char.isDigit = true) :
    parseU64 digits = if decimalValue digits < 2 ^ 64 then some (UInt64.ofNat (decimalValue digits))
      else none := by
  cases digits with
  | nil => exact absurd rfl nonempty
  | cons first =>
    have unsigned : first ≠ '+' := by
      rintro rfl
      cases all
    rw [parseU64, withoutSign_cons unsigned]
    simp [all]

theorem parseU64_le (all : digits.all Char.isDigit = true) :
    ((parseU64 digits).getD 0).toNat ≤ decimalValue digits := by
  cases digits with
  | nil => exact Nat.zero_le _
  | cons =>
    rw [parseU64_digits (List.cons_ne_nil _ _) all]
    split
    · rename_i fits
      rw [Option.getD_some, UInt64.toNat_ofNat_of_lt' fits]
    · exact Nat.zero_le _

theorem parseU64_none (member : c ∈ text) (other : c.isDigit = false) (unsigned : c ≠ '+') :
    parseU64 text = none := by
  have remains : c ∈ withoutSign text := by
    unfold withoutSign
    split
    · exact (List.mem_cons.mp member).resolve_left unsigned
    · exact member
  have fails : (!(withoutSign text).all Char.isDigit) = true := by
    rw [Bool.not_eq_true', List.all_eq_false]
    exact ⟨c, remains, by rw [other]; exact Bool.false_ne_true⟩
  exact if_pos (.inr fails)

end DistributedOs.Semantics
