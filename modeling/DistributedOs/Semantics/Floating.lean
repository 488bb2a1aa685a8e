import Mathlib.Algebra.Order.Round
import Mathlib.Data.Rat.Floor
import Mathlib.Tactic.Linarith
import Mathlib.Tactic.NormNum

/-! Floating-point numbers as a parameter: a type with the operations a program uses of them and
no law about any. What holds over every such type holds whatever the rounding; where the size of a
result matters, the finite numbers are rationals and results are rounded with a relative error. -/

namespace DistributedOs.Semantics

/-- `trunc` is the conversion to an unsigned integer. -/
class Floating (F : Type) extends Add F, Sub F, Neg F, Mul F, Div F, Min F, Max F, LT F, LE F,
    OfScientific F, NatCast F where
  decLt (x y : F) : Decidable (x < y)
  decLe (x y : F) : Decidable (x ≤ y)
  abs (x : F) : F
  trunc (x : F) : Nat

instance Floating.decidableLt {F : Type} [Floating F] (x y : F) : Decidable (x < y) :=
  Floating.decLt x y

instance Floating.decidableLe {F : Type} [Floating F] (x y : F) : Decidable (x ≤ y) :=
  Floating.decLe x y

/-- Double precision. -/
instance : Floating Float where
  natCast := Float.ofNat
  decLt := Float.decLt
  decLe := Float.decLe
  abs := Float.abs
  trunc x := x.toUInt64.toNat

/-- Without rounding. -/
instance : Floating Rat where
  decLt := inferInstance
  decLe := inferInstance
  abs x := |x|
  trunc x := x.floor.toNat

def Floating.clamp {F : Type} [Floating F] (low high x : F) : F :=
  if x < low then low else if high < x then high else x

/-- What becomes of an exact result: a number near it, and itself where it is a whole one of few
digits. -/
structure Rounds (exact rounded : Rat) : Prop where
  near : |rounded - exact| ≤ |exact| / 2 ^ 53
  whole : ∀ number : Int, exact = number → |number| ≤ 2 ^ 53 → rounded = exact

/-- Far from overflow and from underflow. -/
def InRange (exact : Rat) : Prop := exact = 0 ∨ 1 / 2 ^ 60 ≤ |exact| ∧ |exact| ≤ 2 ^ 70

/-- Numbers that are rounded as those of double precision are. An infinity has no value, nor has
what is no number. -/
class Rounding (F : Type) [Floating F] where
  value : F → Option Rat
  lt_iff {x y : F} {a b : Rat} : value x = some a → value y = some b → (x < y ↔ a < b)
  le_iff {x y : F} {a b : Rat} : value x = some a → value y = some b → (x ≤ y ↔ a ≤ b)
  between {x y z : F} {a b : Rat} : value x = some a → value z = some b → x ≤ y → y ≤ z →
    ∃ c, value y = some c
  value_min {x y : F} {a b : Rat} :
    value x = some a → value y = some b → value (min x y) = some (min a b)
  value_max {x y : F} {a b : Rat} :
    value x = some a → value y = some b → value (max x y) = some (max a b)
  value_add {x y : F} {a b : Rat} : value x = some a → value y = some b → InRange (a + b) →
    ∃ c, value (x + y) = some c ∧ Rounds (a + b) c
  value_sub {x y : F} {a b : Rat} : value x = some a → value y = some b → InRange (a - b) →
    ∃ c, value (x - y) = some c ∧ Rounds (a - b) c
  value_mul {x y : F} {a b : Rat} : value x = some a → value y = some b → InRange (a * b) →
    ∃ c, value (x * y) = some c ∧ Rounds (a * b) c
  value_literal (mantissa : Nat) (sign : Bool) (exponent : Nat) :
  InRange (OfScientific.ofScientific mantissa sign exponent) →
    ∃ c, value (OfScientific.ofScientific mantissa sign exponent) = some c ∧
      Rounds (OfScientific.ofScientific mantissa sign exponent) c
  value_natCast {count : Nat} : count < 2 ^ 64 → ∃ c, value (count : F) = some c ∧ Rounds count c
  trunc_eq {x : F} {a : Rat} : value x = some a → 0 ≤ a → a < 2 ^ 64 → Floating.trunc x = a.floor.toNat

theorem Rounds.refl (exact : Rat) : Rounds exact exact := by
  refine ⟨?_, fun _ _ _ => rfl⟩
  rw [sub_self, abs_zero]
  positivity

/-- Without rounding. -/
instance : Rounding Rat where
  value := some
  lt_iff first second := by
    cases first
    cases second
    rfl
  le_iff first second := by
    cases first
    cases second
    rfl
  between _ _ _ _ := ⟨_, rfl⟩
  value_min first second := by
    cases first
    cases second
    rfl
  value_max first second := by
    cases first
    cases second
    rfl
  value_add first second _ := by
    cases first
    cases second
    exact ⟨_, rfl, .refl _⟩
  value_sub first second _ := by
    cases first
    cases second
    exact ⟨_, rfl, .refl _⟩
  value_mul first second _ := by
    cases first
    cases second
    exact ⟨_, rfl, .refl _⟩
  value_literal _ _ _ _ := ⟨_, rfl, .refl _⟩
  value_natCast _ := ⟨_, rfl, .refl _⟩
  trunc_eq first _ _ := by
    cases first
    rfl

variable {exact rounded : Rat}

/-- As near as a thousandth, which is enough where there is room. -/
theorem Rounds.bounds (rounds : Rounds exact rounded) (positive : 0 ≤ exact) :
    999 / 1000 * exact ≤ rounded ∧ rounded ≤ 1001 / 1000 * exact := by
  have near := rounds.near
  rw [abs_of_nonneg positive, abs_le] at near
  constructor <;> linarith

theorem inRange_of_bounds (low : 1 / 1000 ≤ exact) (high : exact ≤ 2 ^ 70) : InRange exact := by
  rw [InRange, abs_of_nonneg (by linarith)]
  exact .inr ⟨by linarith, high⟩

section Shares

variable {F : Type} [Floating F] [Rounding F] {x : F} {a : Rat}

/-- The literal is written with its rational value at hand. -/
theorem Rounding.literal_bounds (F : Type) [Floating F] [Rounding F] (mantissa exponent : Nat)
    (low : 1 / 1000 ≤ (OfScientific.ofScientific mantissa true exponent : Rat))
    (high : (OfScientific.ofScientific mantissa true exponent : Rat) ≤ 2 ^ 70) :
    ∃ c, value (OfScientific.ofScientific mantissa true exponent : F) = some c ∧
      999 / 1000 * (OfScientific.ofScientific mantissa true exponent : Rat) ≤ c ∧
      c ≤ 1001 / 1000 * (OfScientific.ofScientific mantissa true exponent : Rat) := by
  obtain ⟨c, valued, rounds⟩ := value_literal (F := F) mantissa true exponent
    (inRange_of_bounds low high)
  exact ⟨c, valued, rounds.bounds (by linarith)⟩

theorem Rounding.literal_whole (F : Type) [Floating F] [Rounding F] (mantissa exponent number : Nat)
    (same : (OfScientific.ofScientific mantissa true exponent : Rat) = number)
    (positive : 0 < number) (small : number ≤ 2 ^ 53) :
    value (OfScientific.ofScientific mantissa true exponent : F) = some (number : Rat) := by
  have low : (1 : Rat) ≤ number := by exact_mod_cast positive
  have high : (number : Rat) ≤ 2 ^ 53 := by exact_mod_cast small
  obtain ⟨c, valued, rounds⟩ := value_literal (F := F) mantissa true exponent
    (inRange_of_bounds (by rw [same]; linarith) (by rw [same]; linarith))
  rw [valued, rounds.whole number (by rw [same]; rfl) (by exact_mod_cast small), same]

end Shares

end DistributedOs.Semantics
