import DistributedOs.Semantics.Codec
import Mathlib.Tactic.IntervalCases

/-! Base64 with the standard alphabet and canonical padding. -/

namespace DistributedOs.Semantics.Base64

def symbol (value : Nat) : Char :=
  if value < 26 then Char.ofNat (65 + value)
  else if value < 52 then Char.ofNat (71 + value)
  else if value < 62 then Char.ofNat (value - 4)
  else if value = 62 then '+' else '/'

def symbolValue (c : Char) : Option Nat :=
  if 'A' ≤ c ∧ c ≤ 'Z' then some (c.toNat - 65)
  else if 'a' ≤ c ∧ c ≤ 'z' then some (c.toNat - 71)
  else if '0' ≤ c ∧ c ≤ '9' then some (c.toNat + 4)
  else if c = '+' then some 62
  else if c = '/' then some 63
  else none

/-- Four symbols for every three bytes, the last ones padded. -/
def encode : Bytes → List Char
  | first :: second :: third :: rest =>
    symbol (first.toNat / 4) :: symbol (first.toNat % 4 * 16 + second.toNat / 16) ::
      symbol (second.toNat % 16 * 4 + third.toNat / 64) :: symbol (third.toNat % 64) :: encode rest
  | [first, second] =>
    [symbol (first.toNat / 4), symbol (first.toNat % 4 * 16 + second.toNat / 16),
      symbol (second.toNat % 16 * 4), '=']
  | [first] => [symbol (first.toNat / 4), symbol (first.toNat % 4 * 16), '=', '=']
  | [] => []

def decode : List Char → Option Bytes
  | [] => some []
  | p :: q :: r :: s :: rest => do
    let first ← symbolValue p
    let second ← symbolValue q
    if r = '=' then
      if s = '=' ∧ rest = [] ∧ second % 16 = 0 then some [UInt8.ofNat (first * 4 + second / 16)]
      else none
    else
      let third ← symbolValue r
      if s = '=' then
        if rest = [] ∧ third % 4 = 0 then
          some [UInt8.ofNat (first * 4 + second / 16), UInt8.ofNat (second % 16 * 16 + third / 4)]
        else none
      else
        let fourth ← symbolValue s
        let more ← decode rest
        some (UInt8.ofNat (first * 4 + second / 16) :: UInt8.ofNat (second % 16 * 16 + third / 4) ::
          UInt8.ofNat (third % 4 * 64 + fourth) :: more)
  | _ => none

variable {value : Nat}

theorem symbolValue_symbol (small : value < 64) : symbolValue (symbol value) = some value := by
  interval_cases value <;> decide

theorem symbol_ne_pad (small : value < 64) : symbol value ≠ '=' := by
  interval_cases value <;> decide

theorem ofNat_eq (same : value = byte.toNat) : UInt8.ofNat value = byte := by
  subst same
  exact UInt8.ofNat_toNat

/-- Every byte string is read back. -/
theorem decode_encode (bytes : Bytes) : decode (encode bytes) = some bytes := by
  fun_induction encode bytes with
  | case1 first second third rest ih =>
    have one := first.toNat_lt
    have two := second.toNat_lt
    have three := third.toNat_lt
    rw [decode, symbolValue_symbol (by omega), symbolValue_symbol (by omega)]
    simp only [Option.bind_eq_bind, Option.bind_some]
    rw [if_neg (symbol_ne_pad (by omega)), symbolValue_symbol (by omega), Option.bind_some,
      if_neg (symbol_ne_pad (by omega)), symbolValue_symbol (by omega), Option.bind_some, ih,
      Option.bind_some]
    rw [ofNat_eq (by omega : _ = first.toNat), ofNat_eq (by omega : _ = second.toNat),
      ofNat_eq (by omega : _ = third.toNat)]
  | case2 first second =>
    have one := first.toNat_lt
    have two := second.toNat_lt
    rw [decode, symbolValue_symbol (by omega), symbolValue_symbol (by omega)]
    simp only [Option.bind_eq_bind, Option.bind_some]
    rw [if_neg (symbol_ne_pad (by omega)), symbolValue_symbol (by omega),
      Option.bind_some, if_pos trivial,
      if_pos ⟨trivial, by omega⟩, ofNat_eq (by omega : _ = first.toNat),
      ofNat_eq (by omega : _ = second.toNat)]
  | case3 first =>
    have one := first.toNat_lt
    rw [decode, symbolValue_symbol (by omega), symbolValue_symbol (by omega)]
    simp only [Option.bind_eq_bind, Option.bind_some]
    rw [if_pos trivial, if_pos ⟨trivial, trivial, by omega⟩, ofNat_eq (by omega : _ = first.toNat)]
  | case4 => rfl

end DistributedOs.Semantics.Base64
