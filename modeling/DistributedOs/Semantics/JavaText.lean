import Mathlib.Data.List.Basic
import Mathlib.Algebra.Group.Nat.Defs

/-! Java strings: sequences of UTF-16 units. -/

namespace DistributedOs.Semantics.Java

abbrev Text := List UInt16

/-- The unit of a character of the basic plane. -/
def unit (c : Char) : UInt16 := UInt16.ofNat c.toNat

/-- A character beyond the basic plane is a pair of surrogates. -/
def encodeChar (c : Char) : Text :=
  if c.toNat < 0x10000 then [unit c]
  else [UInt16.ofNat (0xD800 + (c.toNat - 0x10000) / 0x400),
    UInt16.ofNat (0xDC00 + (c.toNat - 0x10000) % 0x400)]

def encode (chars : List Char) : Text := chars.flatMap encodeChar

def text (string : String) : Text := encode string.toList

variable {c : Char} {u : UInt16} {chars : List Char}

theorem encode_cons (c : Char)
    (chars : List Char) : encode (c :: chars) = encodeChar c ++ encode chars :=
  List.flatMap_cons

theorem encode_append (first second : List Char) :
    encode (first ++ second) = encode first ++ encode second :=
  List.flatMap_append

theorem text_append (first second : String) :
    text (first ++ second) = text first ++ text second := by
  rw [text, String.toList_append, encode_append]
  rfl

theorem toNat_unit (basic : c.toNat < 0x10000) : (unit c).toNat = c.toNat := by
  rw [unit, UInt16.toNat_ofNat']
  exact Nat.mod_eq_of_lt basic

theorem encodeChar_basic (basic : c.toNat < 0x10000) : encodeChar c = [unit c] := if_pos basic

theorem encodeChar_pair (beyond : ¬ c.toNat < 0x10000) :
    ∃ high low, encodeChar c = [high, low] ∧ 0xD800 ≤ high.toNat ∧ high.toNat < 0xDC00 ∧
      0xDC00 ≤ low.toNat ∧ low.toNat < 0xE000 := by
  have valid : c.toNat < 0x110000 := by
    rcases c.valid with low | ⟨_, high⟩
    · exact Nat.lt_trans low (by decide)
    · exact high
  refine ⟨_, _, if_neg beyond, ?_⟩
  rw [UInt16.toNat_ofNat', UInt16.toNat_ofNat']
  omega

theorem mem_encodeChar (scalar : u.toNat < 0xD800 ∨ 0xDFFF < u.toNat) :
    u ∈ encodeChar c ↔ c.toNat < 0x10000 ∧ u = unit c := by
  by_cases basic : c.toNat < 0x10000
  · rw [encodeChar_basic basic, List.mem_singleton]
    exact (and_iff_right basic).symm
  · obtain ⟨_, _, pair, _⟩ := encodeChar_pair basic
    rw [pair]
    refine iff_of_false ?_ (fun found => basic found.1)
    intro member
    rcases List.mem_cons.mp member with rfl | member
    · omega
    · cases List.mem_singleton.mp member
      omega

theorem unit_inj (basic : c.toNat < 0x10000) (too : other.toNat < 0x10000) :
    unit c = unit other ↔ c = other := by
  constructor
  · intro same
    have numbers := congrArg UInt16.toNat same
    rw [toNat_unit basic, toNat_unit too] at numbers
    exact Char.toNat_inj.mp numbers
  · exact congrArg unit

theorem scalar_unit (basic : c.toNat < 0x10000) :
    (unit c).toNat < 0xD800 ∨ 0xDFFF < (unit c).toNat := by
  rw [toNat_unit basic]
  rcases c.valid with low | ⟨high, _⟩
  · exact .inl low
  · exact .inr high

theorem unit_mem_encode (basic : c.toNat < 0x10000) : unit c ∈ encode chars ↔ c ∈ chars := by
  unfold encode
  rw [List.mem_flatMap]
  constructor
  · rintro ⟨_, member, inside⟩
    obtain ⟨small, same⟩ := (mem_encodeChar (scalar_unit basic)).mp inside
    rwa [(unit_inj basic small).mp same]
  · intro member
    exact ⟨c, member, (mem_encodeChar (scalar_unit basic)).mpr ⟨basic, rfl⟩⟩

theorem isDigit_toDigits (member : c ∈ Nat.toDigits 10 n) : c.isDigit = true :=
  Nat.isDigit_of_mem_toDigits (by decide) (by decide) member

theorem head_toDigits (positive : 0 < n) : (Nat.toDigits 10 n).head? ≠ some '0' := by
  induction n using Nat.strongRecOn with
  | ind n ih =>
    by_cases small : n < 10
    · rw [Nat.toDigits_of_lt_base small]
      have digits : ∀ n < 10, 0 < n → [Nat.digitChar n].head? ≠ some '0' := by decide
      exact digits n small positive
    · have smaller : 0 < n / 10 := by omega
      rw [Nat.toDigits_of_base_le (by decide) (by omega),
        List.head?_append_of_ne_nil _ Nat.toDigits_ne_nil]
      exact ih (n / 10) (by omega) smaller

def decimal (n : Nat) : Text := (Nat.toDigits 10 n).map unit

theorem mem_decimal (member : u ∈ decimal n) : 48 ≤ u.toNat ∧ u.toNat ≤ 57 := by
  obtain ⟨c, digit, rfl⟩ := List.mem_map.mp member
  obtain ⟨_, _⟩ := Char.isDigit_iff_toNat.mp (isDigit_toDigits digit)
  have zero : '0'.toNat = 48 := rfl
  have nine : '9'.toNat = 57 := rfl
  rw [toNat_unit (by omega)]
  omega

theorem decimal_ne_nil (n : Nat) : decimal n ≠ [] := by
  simp [decimal, Nat.toDigits_ne_nil]

theorem not_mem_decimal (other : u.toNat < 48 ∨ 57 < u.toNat) : u ∉ decimal n := by
  intro member
  have bounds := mem_decimal member
  omega

def decimalValue (digits : Text) : Nat :=
  digits.foldl (fun value u => value * 10 + (u.toNat - 48)) 0

theorem decimalValue_decimal (n : Nat) : decimalValue (decimal n) = n := by
  have read := Nat.ofDigitChars_ten_toDigits (n := n)
  rw [Nat.ofDigitChars_eq_foldl] at read
  have zero : '0'.toNat = 48 := rfl
  have nine : '9'.toNat = 57 := rfl
  have digits : (Nat.toDigits 10 n).map (fun c => (unit c).toNat - 48) =
      (Nat.toDigits 10 n).map fun c => c.toNat - 48 := by
    refine List.map_congr_left fun c member => ?_
    obtain ⟨_, _⟩ := Char.isDigit_iff_toNat.mp (isDigit_toDigits member)
    rw [toNat_unit (by omega)]
  have values : decimalValue (decimal n) =
      ((Nat.toDigits 10 n).map fun c => (unit c).toNat - 48).foldl
      (fun value digit => value * 10 + digit) 0 := by
    rw [decimalValue, decimal, List.foldl_map, List.foldl_map]
  rw [values, digits, List.foldl_map]
  simpa only [Nat.mul_comm, zero] using read

theorem text_toString (n : Nat) : text (toString n) = decimal n := by
  have digits : ∀ c ∈ Nat.toDigits 10 n, encodeChar c = [unit c] := by
    intro c member
    obtain ⟨_, _⟩ := Char.isDigit_iff_toNat.mp (isDigit_toDigits member)
    have nine : '9'.toNat = 57 := rfl
    exact encodeChar_basic (by omega)
  rw [text, Nat.toString_eq_ofList_toDigits, String.toList_ofList, encode, decimal,
    List.flatMap_congr digits]
  exact List.map_eq_flatMap.symm

end DistributedOs.Semantics.Java
