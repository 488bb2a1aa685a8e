import DistributedOs.Semantics.HeaderText
import Mathlib.Data.List.Find

/-! The head of a message: a first line, fields of a name and a value, and an empty line. What is
written so is read back by its lines. -/

namespace DistributedOs.Semantics

def crlf : List Char := ['\r', '\n']

/-- Nothing in the text ends a line. -/
structure OneLine (text : List Char) : Prop where
  carriage : '\r' ∉ text
  newline : '\n' ∉ text

structure HeadField where
  name : List Char
  value : List Char
  deriving DecidableEq

def HeadField.line (field : HeadField) : List Char := field.name ++ ':' :: ' ' :: field.value

def HeadField.named (name : List Char) (field : HeadField) : Bool :=
  decide (field.name.map Char.toLower = name)

structure HeadField.WellFormed (field : HeadField) : Prop where
  name : OneLine field.name
  plain : ':' ∉ field.name
  value : OneLine field.value

structure Head where
  first : List Char
  fields : List HeadField
  deriving DecidableEq

def Head.lines (head : Head) : List (List Char) := head.first :: head.fields.map HeadField.line

def Head.text (head : Head) : List Char := head.lines.flatMap (· ++ crlf) ++ crlf

structure Head.WellFormed (head : Head) : Prop where
  first : OneLine head.first
  nonempty : head.first ≠ []
  fields : ∀ field ∈ head.fields, field.WellFormed

variable {text name rest : List Char} {field : HeadField} {head : Head} {parts : List (List Char)}

theorem OneLine.append (first : OneLine text) (second : OneLine rest) : OneLine (text ++ rest) := by
  constructor
  · rw [List.mem_append, not_or]
    exact ⟨first.carriage, second.carriage⟩
  · rw [List.mem_append, not_or]
    exact ⟨first.newline, second.newline⟩

theorem HeadField.WellFormed.line (sound : field.WellFormed) : OneLine field.line :=
  have separator : OneLine [':', ' '] := ⟨by decide, by decide⟩
  sound.name.append (separator.append sound.value)

theorem Head.WellFormed.lines (sound : head.WellFormed) :
    ∀ line ∈ head.lines, OneLine line ∧ line ≠ [] := by
  intro _ member
  rcases List.mem_cons.mp member with rfl | member
  · exact ⟨sound.first, sound.nonempty⟩
  · obtain ⟨field, inside, rfl⟩ := List.mem_map.mp member
    exact ⟨(sound.fields field inside).line, List.append_ne_nil_of_right_ne_nil _ (List.cons_ne_nil _ _)⟩

theorem stripReturn_carriage (line : List Char) : stripReturn (line ++ ['\r']) = line := by
  rw [stripReturn, List.getLast?_append_of_ne_nil _ (List.cons_ne_nil _ _), if_pos (by rfl),
    List.dropLast_concat]

theorem splitOn_lines (single : ∀ line ∈ parts, OneLine line) (rest : List Char) :
    (parts.flatMap (· ++ crlf) ++ rest).splitOn '\n' = parts.map (· ++ ['\r']) ++
      rest.splitOn '\n' := by
  induction parts with
  | nil => rfl
  | cons line parts ih =>
    rw [List.forall_mem_cons] at single
    have ended : '\n' ∉ line ++ ['\r'] := by
      rw [List.mem_append, not_or]
      exact ⟨single.1.newline, by decide⟩
    have split : (line :: parts).flatMap (· ++ crlf) ++ rest = (line ++ ['\r']) ++
        '\n' :: (parts.flatMap (· ++ crlf) ++ rest) := by
      simp [crlf]
    rw [split, List.splitOn_append_cons_self_of_not_mem ended, ih single.2]
    rfl

theorem Head.WellFormed.lines_text (sound : head.WellFormed) :
    Semantics.lines head.text = head.lines ++ [[]] := by
  have split : head.text.splitOn '\n' = head.lines.map (· ++ ['\r']) ++ [['\r'], []] :=
    splitOn_lines (fun line member => (sound.lines line member).1) crlf
  have ended : (head.lines.map (· ++ ['\r']) ++ [['\r'], []]).getLast? = some [] :=
    List.getLast?_append_of_ne_nil _ (List.cons_ne_nil _ _)
  have whole : (head.lines.map (· ++ ['\r']) ++ [['\r'], []]).dropLast =
      head.lines.map (· ++ ['\r']) ++ [['\r']] := by
    rw [List.dropLast_append_of_ne_nil (List.cons_ne_nil _ _)]
    rfl
  have strip : stripReturn ∘ (· ++ ['\r']) = id := funext stripReturn_carriage
  rw [Semantics.lines, split]
  simp only [ended, if_true, whole]
  rw [List.map_append, List.map_map, strip, List.map_id]
  rfl

theorem eq_colon_of_toLower (lowered : c.toLower = ':') : c = ':' := by
  unfold Char.toLower at lowered
  split at lowered
  · rename_i upper
    have code : (c.val + ('a'.val - 'A'.val)).toNat = 58 := congrArg Char.toNat lowered
    have least : 65 ≤ c.val.toNat := upper.1
    have most : c.val.toNat ≤ 90 := upper.2
    have shift : ('a'.val - 'A'.val).toNat = 32 := rfl
    rw [UInt32.toNat_add, shift] at code
    omega
  · exact lowered

theorem colon_notMem_lower (plain : ':' ∉ text) : ':' ∉ text.map Char.toLower := by
  intro member
  obtain ⟨c, inside, lowered⟩ := List.mem_map.mp member
  rw [eq_colon_of_toLower lowered] at inside
  exact plain inside

theorem takeWhile_separator (plain : separator ∉ text) (rest : List Char) :
    (text ++ separator :: rest).takeWhile (· ≠ separator) = text := by
  rw [List.takeWhile_append_of_pos, List.takeWhile_cons_of_neg (by simp), List.append_nil]
  intro c member
  rw [decide_eq_true_iff]
  rintro rfl
  exact plain member

theorem HeadField.WellFormed.beginsWith (sound : field.WellFormed) (plain : ':' ∉ name) :
    beginsWith (name ++ [':']) field.line = field.named name := by
  have lowered : field.line.map Char.toLower = field.name.map Char.toLower ++
      ':' :: (' ' :: field.value).map Char.toLower := by
    rw [HeadField.line, List.map_append]
    rfl
  rw [Bool.eq_iff_iff, beginsWith_iff, HeadField.named, decide_eq_true_iff, lowered]
  constructor
  · rintro ⟨_, whole⟩
    rw [List.append_assoc, List.singleton_append] at whole
    have names := congrArg (List.takeWhile (· ≠ ':')) whole
    rw [takeWhile_separator plain, takeWhile_separator (colon_notMem_lower sound.plain)] at names
    exact names.symm
  · rintro rfl
    exact ⟨_, by rw [List.append_assoc, List.singleton_append]⟩

theorem Head.WellFormed.headerLine (sound : head.WellFormed) (plain : ':' ∉ name)
    (other : Semantics.beginsWith (name ++ [':']) head.first = false) :
    Semantics.headerLine (name ++ [':']) head.text = (head.fields.find? (HeadField.named name)).map
      HeadField.line := by
  have empty : Semantics.beginsWith (name ++ [':']) [] = false := by
    rw [Bool.eq_false_iff, Ne, beginsWith_iff]
    intro begins
    exact List.append_ne_nil_of_right_ne_nil name (List.cons_ne_nil _ _) (List.prefix_nil.mp begins)
  have same : ∀ field ∈ head.fields, (Semantics.beginsWith (name ++ [':']) ∘ HeadField.line) field =
      HeadField.named name field :=
    fun field member => (sound.fields field member).beginsWith plain
  rw [Semantics.headerLine, sound.lines_text, Head.lines, List.cons_append,
    List.find?_cons_of_neg (by rw [other]; exact Bool.false_ne_true),
    List.find?_append, List.find?_singleton, List.find?_map, List.find?_congr same, empty,
    if_neg Bool.false_ne_true, Option.or_none]

theorem HeadField.WellFormed.split (sound : field.WellFormed) (plain : ':' ∉ field.value) :
    field.line.splitOn ':' = [field.name, ' ' :: field.value] := by
  have value : ':' ∉ ' ' :: field.value := by
    rw [List.mem_cons, not_or]
    exact ⟨by decide, plain⟩
  rw [HeadField.line, List.splitOn_append_cons_self_of_not_mem sound.plain,
    List.splitOn_eq_singleton value]

theorem decimalValue_toDigits (number : Nat) : decimalValue (Nat.toDigits 10 number) = number := by
  have read := Nat.ofDigitChars_ten_toDigits (n := number)
  rw [Nat.ofDigitChars_eq_foldl] at read
  rw [decimalValue]
  simpa only [Nat.mul_comm] using read

theorem parseU64_toDigits (small : number < 2 ^ 64) :
    parseU64 (Nat.toDigits 10 number) = some (UInt64.ofNat number) := by
  have all : (Nat.toDigits 10 number).all Char.isDigit = true :=
    List.all_eq_true.mpr fun c => Nat.isDigit_of_mem_toDigits (by decide) (by decide)
  rw [parseU64_digits Nat.toDigits_ne_nil all, decimalValue_toDigits, if_pos small]

end DistributedOs.Semantics
