import DistributedOs.Control.Decision
import DistributedOs.Semantics.Execution
import Mathlib.Tactic.Linarith
import Mathlib.Tactic.NormNum

/-! Decisions taken and applied one after the other, in any arithmetic that rounds as double
precision does. How far a parameter goes is measured without rounding. -/

namespace DistributedOs.Control

open Semantics
open DistributedOs.Transfer (TransportMode)

/-- The engine with the configuration that its decisions are applied to. -/
structure Tuned (F : Type) where
  engine : DecisionEngine
  config : TuningConfig F

/-- A classification at an instant, for a transport. -/
structure Classified (F : Type) where
  now : Nat
  classification : ClassificationResult F
  transport : Option TransportMode

/-- `decide_for_transport` and, where there is a decision, `apply`. -/
def Tuned.step {F : Type} [Floating F] (quic : Bool) (tuned : Tuned F) (input : Classified F) :
    Option (Tuned F) :=
  let decided := tuned.engine.decideForTransport quic input.now input.classification
    tuned.config input.transport
  some
    { engine := decided.2
      config := (decided.1.map fun decision => decision.apply tuned.config).getD tuned.config }

variable {F : Type} [Floating F]

/-- The rate that counts as in force, also where there is no limit. -/
def TuningConfig.rate (config : TuningConfig F) : F := config.throughputLimitMbps.getD 1000.0

/-- The safe bounds. A buffer is a word. -/
structure TuningConfig.InBounds (config : TuningConfig F) : Prop where
  chunkSize : 16 * 1024 ≤ config.chunkSizeBytes ∧ config.chunkSizeBytes ≤ 2 * 1024 * 1024
  streams : 1 ≤ config.parallelStreams ∧ config.parallelStreams ≤ 8
  rate : ∀ rate, config.throughputLimitMbps = some rate → (10.0 : F) ≤ rate ∧ rate ≤ (2000.0 : F)
  sendBuffer : 0 < config.sendBufferKb ∧ config.sendBufferKb < 2 ^ 64
  recvBuffer : 0 < config.recvBufferKb ∧ config.recvBufferKb < 2 ^ 64

variable [Rounding F]

open Rounding (value)

/-- By at most 15 %. -/
def RatStep (old new : Rat) : Prop := 85 * old ≤ 100 * new ∧ 100 * new ≤ 115 * old

/-- The same of finite rates. -/
def WithinStep (old new : F) : Prop := ∃ a b, value old = some a ∧ value new = some b ∧ RatStep a b

/-- The same of whole numbers. -/
def NatStep (old new : Nat) : Prop := 85 * old ≤ 100 * new ∧ 100 * new ≤ 115 * old

/-- The same of buffers, which are positive words. -/
def BufferStep (old new : Nat) : Prop := 0 < new ∧ new < 2 ^ 64 ∧ NatStep old new

/-- No bounded parameter moves further. -/
structure TuningConfig.Smooth (before after : TuningConfig F) : Prop where
  chunkSize : NatStep before.chunkSizeBytes after.chunkSizeBytes
  streams : NatStep before.parallelStreams after.parallelStreams
  rate : WithinStep before.rate after.rate
  sendBuffer : NatStep before.sendBufferKb after.sendBufferKb
  recvBuffer : NatStep before.recvBufferKb after.recvBufferKb

theorem natStep_self (value : Nat) : NatStep value value := ⟨by omega, by omega⟩

theorem ratStep_min_iff (positive : 0 ≤ a) (first : a ≤ b) (second : a ≤ c) :
    RatStep a (min b c) ↔ RatStep a b ∨ RatStep a c := by
  unfold RatStep
  rcases le_total b c with nearer | nearer
  · rw [min_eq_left nearer]
    exact ⟨.inl, fun either => either.elim id fun _ => ⟨by linarith, by linarith⟩⟩
  · rw [min_eq_right nearer]
    exact ⟨.inr, fun either => either.elim (fun _ => ⟨by linarith, by linarith⟩) id⟩

theorem ratStep_max_iff (positive : 0 ≤ a) (first : b ≤ a) (second : c ≤ a) :
    RatStep a (max b c) ↔ RatStep a b ∨ RatStep a c := by
  unfold RatStep
  rcases le_total b c with nearer | nearer
  · rw [max_eq_right nearer]
    exact ⟨.inr, fun either => either.elim (fun _ => ⟨by linarith, by linarith⟩) id⟩
  · rw [max_eq_left nearer]
    exact ⟨.inl, fun either => either.elim id fun _ => ⟨by linarith, by linarith⟩⟩

variable {old new target rate : F} {a b c : Rat}

theorem value_ten : value (10.0 : F) = some 10 := by
  simpa using Rounding.literal_whole F 100 1 10 (by norm_num) (by norm_num) (by norm_num)

theorem value_twoThousand : value (2000.0 : F) = some 2000 := by
  simpa using Rounding.literal_whole F 20000 1 2000 (by norm_num) (by norm_num) (by norm_num)

theorem value_thousand : value (1000.0 : F) = some 1000 := by
  simpa using Rounding.literal_whole F 10000 1 1000 (by norm_num) (by norm_num) (by norm_num)

theorem value_fifty : value (50.0 : F) = some 50 := by
  simpa using Rounding.literal_whole F 500 1 50 (by norm_num) (by norm_num) (by norm_num)

theorem value_one : value (1.0 : F) = some 1 := by
  simpa using Rounding.literal_whole F 10 1 1 (by norm_num) (by norm_num) (by norm_num)

theorem exists_value (bounded : (10.0 : F) ≤ rate ∧ rate ≤ (2000.0 : F)) :
    ∃ a, value rate = some a ∧ 10 ≤ a ∧ a ≤ 2000 := by
  obtain ⟨a, valued⟩ := Rounding.between value_ten value_twoThousand bounded.1 bounded.2
  exact ⟨a, valued, (Rounding.le_iff value_ten valued).mp bounded.1,
    (Rounding.le_iff valued value_twoThousand).mp bounded.2⟩

theorem bounded_of_value (valued : value rate = some a) (low : 10 ≤ a) (high : a ≤ 2000) :
    (10.0 : F) ≤ rate ∧ rate ≤ (2000.0 : F) :=
  ⟨(Rounding.le_iff value_ten valued).mpr low, (Rounding.le_iff valued value_twoThousand).mpr high⟩

/-- A share of a rate, and of the share's literal, is rounded twice. -/
theorem exists_value_mul (valued : value old = some a) (low : 10 ≤ a) (high : a ≤ 2000)
    (mantissa exponent : Nat)
    (least : 1 / 10 ≤ (OfScientific.ofScientific mantissa true exponent : Rat))
    (most : (OfScientific.ofScientific mantissa true exponent : Rat) ≤ 2) :
    ∃ c, value (old * OfScientific.ofScientific mantissa true exponent) = some c ∧
      99 / 100 * (a * (OfScientific.ofScientific mantissa true exponent : Rat)) ≤ c ∧
      c ≤ 101 / 100 * (a * (OfScientific.ofScientific mantissa true exponent : Rat)) := by
  obtain ⟨share, literal, below, above⟩ := Rounding.literal_bounds F mantissa exponent
    (by linarith) (by linarith)
  have product : 999 / 1000 *
    (a * (OfScientific.ofScientific mantissa true exponent : Rat)) ≤ a * share ∧
      a * share ≤ 1001 / 1000 * (a * (OfScientific.ofScientific mantissa true exponent : Rat)) := by
    constructor
    · calc _ = a * (999 / 1000 * (OfScientific.ofScientific mantissa true exponent : Rat)) := by ring
        _ ≤ a * share := mul_le_mul_of_nonneg_left below (by linarith)
    · calc a * share ≤ a * (1001 / 1000 * (OfScientific.ofScientific mantissa true exponent : Rat)) :=
          mul_le_mul_of_nonneg_left above (by linarith)
        _ = _ := by ring
  have exactLow : 1 ≤ a * (OfScientific.ofScientific mantissa true exponent : Rat) := by nlinarith
  have exactHigh : a * (OfScientific.ofScientific mantissa true exponent : Rat) ≤ 4000 := by nlinarith
  obtain ⟨c, found, rounds⟩ := Rounding.value_mul valued literal
    (inRange_of_bounds (by linarith) (by linarith))
  have ⟨_, _⟩ := rounds.bounds (by linarith)
  exact ⟨c, found, by linarith, by linarith⟩

/-- The step is an interval around the rate. -/
theorem exists_step (valued : value old = some a) (low : 10 ≤ a) (high : a ≤ 2000) :
    ∃ b c, value (old - old * 0.15) = some b ∧ value (old + old * 0.15) = some c ∧
      b ≤ a ∧ a ≤ c := by
  obtain ⟨_, share, least, most⟩ := exists_value_mul valued low high 15 2 (by norm_num) (by norm_num)
  norm_num at least most
  obtain ⟨b, below, under⟩ := Rounding.value_sub valued share
    (inRange_of_bounds (by linarith) (by linarith))
  obtain ⟨c, above, beyond⟩ := Rounding.value_add valued share
    (inRange_of_bounds (by linarith) (by linarith))
  have first := under.bounds (by linarith)
  have second := beyond.bounds (by linarith)
  exact ⟨b, c, below, above, by linarith, by linarith⟩

theorem withinStep_iff (valued : value old = some a) (found : value new = some b) :
    WithinStep old new ↔ RatStep a b := by
  refine ⟨?_, fun step => ⟨a, b, valued, found, step⟩⟩
  rintro ⟨_, _, first, second, step⟩
  cases valued.symm.trans first
  cases found.symm.trans second
  exact step

theorem withinStep_self (bounded : (10.0 : F) ≤ rate ∧ rate ≤ (2000.0 : F)) :
    WithinStep rate rate := by
  obtain ⟨a, valued, low, _⟩ := exists_value bounded
  exact (withinStep_iff valued valued).mpr ⟨by linarith, by linarith⟩

theorem value_clampRate (valued : value rate = some a) :
    value (clampRate rate) = some (max 10 (min 2000 a)) := by
  have low := Rounding.lt_iff valued value_ten
  have high := Rounding.lt_iff value_twoThousand valued
  unfold clampRate Floating.clamp
  split
  · rename_i below
    rw [value_ten, min_eq_right (by linarith [low.mp below]), max_eq_left (low.mp below).le]
  · rename_i above
    have least := not_lt.mp (mt low.mpr above)
    split
    · rename_i beyond
      rw [value_twoThousand, min_eq_left (high.mp beyond).le, max_eq_right (by norm_num)]
    · rename_i within
      rw [valued, min_eq_right (not_lt.mp (mt high.mpr within)), max_eq_right least]

theorem clampRate_bounded (valued : value rate = some a) :
    (10.0 : F) ≤ clampRate rate ∧ clampRate rate ≤ (2000.0 : F) :=
  bounded_of_value (value_clampRate valued) (le_max_left _ _) (max_le (by norm_num) (min_le_left _ _))

/-- What is in bounds is left as it is, as the number that it is and not only in value. -/
theorem clampRate_of_bounded (valued : value rate = some a) (low : 10 ≤ a)
    (high : a ≤ 2000) : clampRate rate = rate := by
  have notBelow : ¬ rate < (10.0 : F) :=
    fun below => absurd ((Rounding.lt_iff valued value_ten).mp below) (by linarith)
  have notBeyond : ¬ (2000.0 : F) < rate := fun beyond =>
    absurd ((Rounding.lt_iff value_twoThousand valued).mp beyond) (by linarith)
  unfold clampRate Floating.clamp
  rw [if_neg notBelow, if_neg notBeyond]

theorem clampRate_clampRate (valued : value rate = some a) :
    clampRate (clampRate rate) = clampRate rate :=
  clampRate_of_bounded (value_clampRate valued) (le_max_left _ _)
    (max_le (by norm_num) (min_le_left _ _))

theorem exists_limitStep (bounded : (10.0 : F) ≤ old ∧ old ≤ (2000.0 : F))
    (finite : value target = some b) : ∃ c, value (limitStep old target (old * 0.15)) = some c := by
  obtain ⟨a, valued, low, high⟩ := exists_value bounded
  obtain ⟨_, _, below, above, _⟩ := exists_step valued low high
  unfold limitStep
  split
  · exact ⟨_, Rounding.value_min above finite⟩
  · exact ⟨_, Rounding.value_max below finite⟩

/-- The rate goes to the target or to the end of the step, whichever is nearer. -/
theorem pace_within_iff (bounded : (10.0 : F) ≤ old ∧ old ≤ (2000.0 : F))
    (finite : value target = some b) (low : 10 ≤ b) (high : b ≤ 2000) :
    WithinStep old (pace old target) ↔
      WithinStep old (if old < target then old + old * 0.15 else old - old * 0.15) ∨
        WithinStep old target := by
  obtain ⟨a, valued, least, most⟩ := exists_value bounded
  obtain ⟨down, up, below, above, under, beyond⟩ := exists_step valued least most
  have rises := Rounding.lt_iff valued finite
  have clamped {c : Rat} (limited : value (limitStep old target (old * 0.15)) = some c)
      (inside : 10 ≤ c ∧ c ≤ 2000) : value (pace old target) = some c := by
    rw [pace, value_clampRate limited, min_eq_right inside.2, max_eq_right inside.1]
  split
  · rename_i upwards
    have paced : value (pace old target) = some (min up b) := by
      refine clamped ?_ ⟨le_min (by linarith) low, min_le_of_right_le high⟩
      rw [limitStep, if_pos upwards]
      exact Rounding.value_min above finite
    rw [withinStep_iff valued paced, withinStep_iff valued above, withinStep_iff valued finite]
    exact ratStep_min_iff (by linarith) beyond (rises.mp upwards).le
  · rename_i downwards
    have paced : value (pace old target) = some (max down b) := by
      refine clamped ?_ ⟨le_max_of_le_right low, max_le (by linarith) high⟩
      rw [limitStep, if_neg downwards]
      exact Rounding.value_max below finite
    rw [withinStep_iff valued paced, withinStep_iff valued below, withinStep_iff valued finite]
    exact ratStep_max_iff (by linarith) under (not_lt.mp (mt rises.mpr downwards))

/-- A rate that is to go to a share of itself, but not below 50. Unless 50 is near enough, it goes
up from below 50 by the step, and down from above by the step or to the share. -/
def Slows (rate share : F) : Prop :=
  WithinStep rate (50.0 : F) ∨
    if rate < (50.0 : F) then WithinStep rate (rate + rate * 0.15)
    else WithinStep rate (rate - rate * 0.15) ∨ WithinStep rate share

theorem slows_iff (bounded : (10.0 : F) ≤ old ∧ old ≤ (2000.0 : F)) (mantissa exponent : Nat)
    (least : 1 / 10 ≤ (OfScientific.ofScientific mantissa true exponent : Rat))
    (most : (OfScientific.ofScientific mantissa true exponent : Rat) ≤ 9 / 10) :
    WithinStep old (pace old (max (old * OfScientific.ofScientific mantissa true exponent) 50.0)) ↔
      Slows old (old * OfScientific.ofScientific mantissa true exponent) := by
  obtain ⟨a, valued, low, high⟩ := exists_value bounded
  obtain ⟨c, share, _, above⟩ := exists_value_mul valued low high mantissa exponent least (by linarith)
  have less : c ≤ 91 / 100 * a := by
    have _ := mul_le_mul_of_nonneg_left most (show 0 ≤ a by linarith)
    linarith
  have target := Rounding.value_max share value_fifty
  rw [pace_within_iff bounded target (le_max_of_le_right (by norm_num))
    (max_le (by linarith) (by norm_num)), Slows, withinStep_iff valued target,
    withinStep_iff valued value_fifty]
  by_cases slow : a < 50
  · have fewer : c ≤ 50 := by linarith
    rw [max_eq_right fewer, if_pos ((Rounding.lt_iff valued target).mpr (by
      rw [max_eq_right fewer]; exact slow)), if_pos ((Rounding.lt_iff valued value_fifty).mpr slow)]
    exact Or.comm
  · have top : max c 50 ≤ a := max_le (by linarith) (not_lt.mp slow)
    rw [if_neg (mt (Rounding.lt_iff valued target).mp (not_lt.mpr top)),
      if_neg (mt (Rounding.lt_iff valued value_fifty).mp slow), withinStep_iff valued share,
      ratStep_max_iff (by linarith) (by linarith) (not_lt.mp slow), ← or_assoc, or_comm]

-- In double precision the end of the step can be further away than the step.
example : ¬ (522.00625 : Float) - pace 522.00625 (max (522.00625 * 0.85) 50.0) ≤ 522.00625 * 0.15 := by
  decide +kernel

/-- A truncated share of a count is that share up to a thousandth or four. -/
theorem trunc_share {count : Nat} (positive : 0 < count) (small : count < 2 ^ 64)
    (mantissa exponent : Nat)
    (least : 1 / 10 ≤ (OfScientific.ofScientific mantissa true exponent : Rat))
    (most : (OfScientific.ofScientific mantissa true exponent : Rat) ≤ 2)
    (fits : 1004 / 1000 *
      ((count : Rat) * (OfScientific.ofScientific mantissa true exponent : Rat)) < 2 ^ 64) :
    (Floating.trunc ((count : F) * OfScientific.ofScientific mantissa true exponent) : Rat) ≤
        1004 / 1000 * ((count : Rat) * (OfScientific.ofScientific mantissa true exponent : Rat)) ∧
      996 / 1000 * ((count : Rat) * (OfScientific.ofScientific mantissa true exponent : Rat)) <
        (Floating.trunc ((count : F) * OfScientific.ofScientific mantissa true exponent) : Rat) +
        1 := by
  have one : (1 : Rat) ≤ count := by exact_mod_cast positive
  have words : (count : Rat) < 2 ^ 64 := by exact_mod_cast small
  obtain ⟨number, counted, rounds⟩ := Rounding.value_natCast (F := F) small
  obtain ⟨share, literal, below, above⟩ := Rounding.literal_bounds F mantissa exponent
    (by linarith) (by linarith)
  have ⟨near, far⟩ := rounds.bounds (by linarith)
  generalize (OfScientific.ofScientific mantissa true exponent : Rat) = exact at *
  have least' : 999 / 1000 * count * (999 / 1000 * exact) ≤ number * share :=
    mul_le_mul near below (by linarith) (by linarith)
  have most' : number * share ≤ 1001 / 1000 * count * (1001 / 1000 * exact) :=
    mul_le_mul far above (by linarith) (by linarith)
  have positive' : 1 / 10 ≤ (count : Rat) * exact := by nlinarith
  obtain ⟨product, found, rounded⟩ := Rounding.value_mul counted literal
    (inRange_of_bounds (by linarith) (by linarith))
  have ⟨_, _⟩ := rounded.bounds (by linarith)
  rw [Rounding.trunc_eq found (by linarith) (by linarith)]
  have whole : ((product.floor.toNat : Nat) : Rat) = (product.floor : Rat) := by
    have natural : ((product.floor.toNat : Nat) : Int) = product.floor :=
      Int.toNat_of_nonneg (Rat.le_floor_iff.mpr (by rw [Int.cast_zero]; linarith))
    exact_mod_cast congrArg (Int.cast : Int → Rat) natural
  have floor := Rat.floor_le product
  have ceiling := Rat.lt_floor_add_one product
  push_cast at ceiling
  rw [whole]
  constructor <;> linarith

theorem clampChunk_within
    (size : Nat) : 16 * 1024 ≤ clampChunk size ∧ clampChunk size ≤ 2 * 1024 * 1024 := by
  unfold clampChunk clampNat
  split_ifs <;> omega

theorem clampChunk_of_within (within : 16 * 1024 ≤ size ∧ size ≤ 2 * 1024 * 1024) :
    clampChunk size = size := by
  unfold clampChunk clampNat
  split_ifs <;> omega

theorem clampParallelism_within
    (streams : Nat) : 1 ≤ clampParallelism streams ∧ clampParallelism streams ≤ 8 := by
  unfold clampParallelism clampNat
  split_ifs <;> omega

theorem clampParallelism_of_within (within : 1 ≤ streams ∧ streams ≤ 8) :
    clampParallelism streams = streams := by
  unfold clampParallelism clampNat
  split_ifs <;> omega

/-- The rate of a decision is paced from the one in force towards a finite target, or there is none. -/
def ControlDecision.Paced (decision : ControlDecision F) (config : TuningConfig F) : Prop :=
  (∃ target a, value target = some a ∧ decision.pacingRate = some (pace config.rate target)) ∨
    (decision.pacingRate = none ∧ decision.newCwnd = none)

variable {config : TuningConfig F} {decided : ControlDecision F}

theorem TuningConfig.InBounds.rate_bounded (bounded : config.InBounds) :
    (10.0 : F) ≤ config.rate ∧ config.rate ≤ (2000.0 : F) := by
  unfold TuningConfig.rate
  cases limit : config.throughputLimitMbps with
  | none => exact bounded_of_value value_thousand (by norm_num) (by norm_num)
  | some rate => exact bounded.rate rate limit

theorem ControlDecision.limit_apply (bounded : config.InBounds) (finite : value target = some b)
    (found : decided.pacingRate = some (pace config.rate target)) :
    (decided.apply config).throughputLimitMbps = some (pace config.rate target) := by
  obtain ⟨_, limited⟩ := exists_limitStep bounded.rate_bounded finite
  simp only [ControlDecision.apply, found]
  exact congrArg some (clampRate_clampRate limited)

/-- A paced decision leaves the rate in bounds. -/
theorem ControlDecision.Paced.apply (paced : decided.Paced config) (bounded : config.InBounds) :
    ∀ rate, (decided.apply config).throughputLimitMbps = some rate →
      (10.0 : F) ≤ rate ∧ rate ≤ (2000.0 : F) := by
  intro rate same
  rcases paced with ⟨target, a, finite, found⟩ | ⟨unpaced, noCwnd⟩
  · obtain ⟨_, limited⟩ := exists_limitStep bounded.rate_bounded finite
    rw [limit_apply bounded finite found] at same
    cases same
    exact clampRate_bounded limited
  · simp only [ControlDecision.apply, unpaced, noCwnd] at same
    exact bounded.rate rate same

theorem ControlDecision.Paced.apply_iff (paced : decided.Paced config) (bounded : config.InBounds) :
    ((decided.apply config).InBounds ∧ config.Smooth (decided.apply config)) ↔
      NatStep config.chunkSizeBytes (decided.apply config).chunkSizeBytes ∧
      NatStep config.parallelStreams (decided.apply config).parallelStreams ∧
      WithinStep config.rate (decided.apply config).rate ∧
      BufferStep config.sendBufferKb (decided.apply config).sendBufferKb ∧
      BufferStep config.recvBufferKb (decided.apply config).recvBufferKb := by
  constructor
  · rintro ⟨inBounds, smooth⟩
    exact ⟨smooth.chunkSize, smooth.streams, smooth.rate,
      ⟨inBounds.sendBuffer.1, inBounds.sendBuffer.2, smooth.sendBuffer⟩,
      inBounds.recvBuffer.1, inBounds.recvBuffer.2, smooth.recvBuffer⟩
  · rintro ⟨chunkStep, streamsStep, rateStep, ⟨send, sendWord, sendStep⟩, recv, recvWord, recvStep⟩
    refine ⟨⟨?_, ?_, paced.apply bounded, ⟨send, sendWord⟩, recv, recvWord⟩,
      ⟨chunkStep, streamsStep, rateStep, sendStep, recvStep⟩⟩
    · unfold ControlDecision.apply
      cases decided.newChunkSize with
      | none => exact bounded.chunkSize
      | some size => exact clampChunk_within size
    · unfold ControlDecision.apply
      cases decided.parallelism with
      | none => exact bounded.streams
      | some streams => exact clampParallelism_within streams

/-- The transport does the congestion control itself. -/
def ControlDecision.strip (decision : ControlDecision F) (handled : Bool) : ControlDecision F :=
  if handled then { decision with newCwnd := none, newChunkSize := none, sendBufferKb := none }
  else decision

/-- A rate that goes to a share of itself or to 50 is rounded on the way. -/
def rateGentle (config : TuningConfig F) : Bottleneck → Prop
  | .networkCongestion => Slows config.rate (config.rate * 0.7)
  | .receiverSlow => Slows config.rate (config.rate * 0.85)
  | .thermalThrottling => Slows config.rate (config.rate * 0.9)
  | .cpuBound | .linkLimited | .unknown => True

theorem decision_paced {bottleneck : Bottleneck} (bounded : config.InBounds)
    (found : decision config bottleneck = some decided) (handled : Bool) :
    (decided.strip handled).Paced config ∧
      (WithinStep config.rate ((decided.strip handled).apply config).rate ↔
        rateGentle config bottleneck) := by
  have inside := bounded.rate_bounded
  obtain ⟨a, valued, low, high⟩ := exists_value inside
  have kept : (decided.strip handled).pacingRate = decided.pacingRate := by
    unfold ControlDecision.strip
    split <;> rfl
  have paced {target : F} {b : Rat} (finite : value target = some b)
      (found : decided.pacingRate = some (pace config.rate target)) :
      (decided.strip handled).Paced config ∧
        ((decided.strip handled).apply config).rate = pace config.rate target :=
    ⟨.inl ⟨target, b, finite, kept.trans found⟩,
      congrArg (·.getD 1000.0) (ControlDecision.limit_apply bounded finite (kept.trans found))⟩
  have slowed (mantissa exponent : Nat)
      (least : 1 / 10 ≤ (OfScientific.ofScientific mantissa true exponent : Rat))
      (most : (OfScientific.ofScientific mantissa true exponent : Rat) ≤ 9 / 10)
      (found : decided.pacingRate = some (pace config.rate
        (max (config.rate * OfScientific.ofScientific mantissa true exponent) 50.0))) :
      (decided.strip handled).Paced config ∧
        (WithinStep config.rate ((decided.strip handled).apply config).rate ↔
          Slows config.rate (config.rate * OfScientific.ofScientific mantissa true exponent)) := by
    obtain ⟨_, share, _⟩ := exists_value_mul valued low high mantissa exponent least (by linarith)
    obtain ⟨within, rate⟩ := paced (Rounding.value_max share value_fifty) found
    rw [rate]
    exact ⟨within, slows_iff inside mantissa exponent least most⟩
  cases bottleneck with
  | unknown => cases found
  | cpuBound =>
    cases found
    cases handled <;> exact ⟨.inr ⟨rfl, rfl⟩, iff_of_true (withinStep_self inside) trivial⟩
  | networkCongestion =>
    cases found
    exact slowed 7 1 (by norm_num) (by norm_num) rfl
  | receiverSlow =>
    cases found
    exact slowed 85 2 (by norm_num) (by norm_num) rfl
  | thermalThrottling =>
    cases found
    exact slowed 9 1 (by norm_num) (by norm_num) rfl
  | linkLimited =>
    obtain ⟨c, share, near, far⟩ := exists_value_mul valued low high 105 2 (by norm_num) (by norm_num)
    norm_num at near far
    have target := Rounding.value_min share value_twoThousand
    cases found
    obtain ⟨within, rate⟩ := paced target rfl
    rw [rate, pace_within_iff inside target (le_min (by linarith) (by norm_num)) (min_le_right _ _)]
    refine ⟨within, iff_of_true (.inr ((withinStep_iff valued target).mpr ⟨?_, ?_⟩)) trivial⟩
    · have least : 85 / 100 * a ≤ min c 2000 := le_min (by linarith) (by linarith)
      linarith
    · linarith [min_le_left c 2000]

/-- One stream out of two to six is more than the step, and so are any two streams. -/
def streamsGentle (config : TuningConfig F) : Bottleneck → Prop
  | .networkCongestion | .receiverSlow | .thermalThrottling =>
    config.parallelStreams = 1 ∨ 7 ≤ config.parallelStreams
  | .cpuBound => config.parallelStreams = 1
  | .linkLimited | .unknown => True

/-- A fifth of a buffer is more than the step, and so is a fifth of the chunk size unless the least
size stops it; and the receive buffer becomes what the send buffer is. -/
def sizesGentle (config : TuningConfig F) : Bottleneck → Prop
  | .networkCongestion => False
  | .receiverSlow =>
    85 * config.chunkSizeBytes ≤ 100 * (16 * 1024) ∧ NatStep config.recvBufferKb config.sendBufferKb
  | _ => True

/-- A truncated share of a chunk size in whole numbers, the share in hundredths. -/
theorem chunkShare_eq (bounded : config.InBounds) (mantissa exponent hundredths : Nat)
    (same : (OfScientific.ofScientific mantissa true exponent : Rat) = hundredths / 100)
    (least : 10 ≤ hundredths) (most : hundredths ≤ 200) :
    ∃ size, chunkShare config (OfScientific.ofScientific mantissa true exponent) = clampChunk size ∧
      100000 * size ≤ 1004 * (config.chunkSizeBytes * hundredths) ∧
      996 * (config.chunkSizeBytes * hundredths) < 100000 * (size + 1) := by
  have ⟨_, large⟩ := bounded.chunkSize
  have low : (10 : Rat) ≤ hundredths := by exact_mod_cast least
  have high : (hundredths : Rat) ≤ 200 := by exact_mod_cast most
  have size : (config.chunkSizeBytes : Rat) ≤ 2097152 := by exact_mod_cast large
  have product : (config.chunkSizeBytes : Rat) * hundredths ≤ 2097152 * 200 :=
    mul_le_mul size high (by linarith) (by norm_num)
  obtain ⟨under, beyond⟩ := trunc_share (F := F) (show 0 < config.chunkSizeBytes by omega)
    (by omega) mantissa exponent
    (by rw [same]; linarith) (by rw [same]; linarith) (by rw [same]; linarith)
  refine ⟨_, rfl, ?_, ?_⟩
  · have cast : (100000 : Rat) *
      (Floating.trunc ((config.chunkSizeBytes : F) * OfScientific.ofScientific mantissa true
        exponent) : Nat)
        ≤ 1004 * (config.chunkSizeBytes * hundredths) := by
      rw [same] at under
      linarith
    exact_mod_cast cast
  · have cast : (996 : Rat) * (config.chunkSizeBytes * hundredths) <
        100000 * ((Floating.trunc
          ((config.chunkSizeBytes : F) * OfScientific.ofScientific mantissa true exponent) :
          Nat) + 1) := by
      rw [same] at beyond
      linarith
    exact_mod_cast cast

theorem chunkSize_less_iff {size share hundredths : Nat}
    (within : 16 * 1024 ≤ size ∧ size ≤ 2 * 1024 * 1024)
    (under : 100000 * share ≤ 1004 * (size * hundredths))
    (much : hundredths = 75 ∨ hundredths = 80) :
    NatStep size (clampChunk share) ↔ 85 * size ≤ 100 * (16 * 1024) := by
  unfold NatStep clampChunk clampNat
  rcases much with rfl | rfl <;> split_ifs <;> omega

theorem chunkSize_near {size share hundredths : Nat}
    (within : 16 * 1024 ≤ size ∧ size ≤ 2 * 1024 * 1024)
    (under : 100000 * share ≤ 1004 * (size * hundredths))
    (beyond : 996 * (size * hundredths) < 100000 * (share + 1))
    (little : hundredths = 90 ∨ hundredths = 110) : NatStep size (clampChunk share) := by
  unfold NatStep clampChunk clampNat
  rcases little with rfl | rfl <;> split_ifs <;> omega

theorem streamsStep_iff (within : 1 ≤ streams ∧ streams ≤ 8) :
    NatStep streams (clampParallelism (max (streams - 1) 1)) ↔ streams = 1 ∨ 7 ≤ streams := by
  unfold NatStep clampParallelism clampNat
  split_ifs <;> omega

theorem streamsStep_two_iff (within : 1 ≤ streams ∧ streams ≤ 8) :
    NatStep streams (clampParallelism (max 1 (streams - 2))) ↔ streams = 1 := by
  unfold NatStep clampParallelism clampNat
  split_ifs <;> omega

/-- So few streams are not rounded. -/
theorem trunc_one_less {streams : Nat} (within : 1 ≤ streams ∧ streams ≤ 8) :
    Floating.trunc (max ((streams : F) - 1.0) 1.0) = max (streams - 1) 1 := by
  have few : ((streams : Int) : Rat) ≤ 8 := by exact_mod_cast within.2
  have some_ : (1 : Rat) ≤ (streams : Int) := by exact_mod_cast within.1
  obtain ⟨count, counted, rounds⟩ := Rounding.value_natCast (F := F) (show streams < 2 ^ 64 by omega)
  have exactly : count = (streams : Rat) :=
    rounds.whole streams (by push_cast; rfl) (by rw [abs_of_nonneg] <;> omega)
  have range : InRange (count - 1) := by
    rcases Nat.eq_or_lt_of_le within.1 with one | more
    · left
      rw [exactly, ← one]
      norm_num
    · have two : (2 : Rat) ≤ streams := by exact_mod_cast more
      exact inRange_of_bounds (by linarith) (by rw [exactly]; push_cast at few; linarith)
  obtain ⟨less, found, rounded⟩ := Rounding.value_sub counted value_one range
  have whole : less = ((streams - 1 : Int) : Rat) := by
    rw [rounded.whole (streams - 1) (by rw [exactly]; push_cast; rfl)
      (by rw [abs_of_nonneg] <;> omega), exactly]
    push_cast
    rfl
  have valued : value (max ((streams : F) - 1.0) 1.0) =
      some (((max (streams - 1) 1 : Nat) : Int) : Rat) := by
    rw [Rounding.value_max found value_one, whole]
    have cast : ((max (streams - 1) 1 : Nat) : Int) = max (streams - 1 : Int) 1 := by omega
    rw [cast]
    push_cast
    rfl
  have most : (((max (streams - 1) 1 : Nat) : Int) : Rat) ≤ 8 := by
    exact_mod_cast (show max (streams - 1) 1 ≤ 8 by omega)
  rw [Rounding.trunc_eq valued (by positivity) (by linarith), Rat.floor_intCast, Int.toNat_natCast]

theorem sendBuffer_less {count : Nat} (word : 0 < count ∧ count < 2 ^ 64) :
    ¬ NatStep count (Floating.trunc ((count : F) * 0.8)) := by
  have small : (count : Rat) < 2 ^ 64 := by exact_mod_cast word.2
  have positive : (0 : Rat) < count := by exact_mod_cast word.1
  obtain ⟨under, _⟩ := trunc_share (F := F) word.1 word.2 8 1 (by norm_num) (by norm_num)
    (by norm_num; linarith)
  norm_num at under
  rintro ⟨least, _⟩
  have cast : (85 : Rat) * count ≤ 100 * (Floating.trunc ((count : F) * 0.8) : Nat) := by
    exact_mod_cast least
  linarith

theorem streamsStep_decision_iff {bottleneck : Bottleneck} (bounded : config.InBounds)
    (found : decision config bottleneck = some decided) :
    NatStep config.parallelStreams (decided.apply config).parallelStreams ↔
      streamsGentle config bottleneck := by
  have clamped (streams : Nat) := clampParallelism_of_within (clampParallelism_within streams)
  have fewer := streamsStep_iff bounded.streams
  cases bottleneck with
  | networkCongestion =>
    cases found
    show NatStep config.parallelStreams
      (clampParallelism (clampParallelism
        (Floating.trunc (max ((config.parallelStreams : F) - 1.0) 1.0)))) ↔ _
    rw [clamped, trunc_one_less bounded.streams]
    exact fewer
  | receiverSlow =>
    cases found
    show NatStep config.parallelStreams
      (clampParallelism (clampParallelism (max (config.parallelStreams - 1) 1))) ↔ _
    rw [clamped]
    exact fewer
  | cpuBound =>
    cases found
    show NatStep config.parallelStreams
      (clampParallelism (clampParallelism (max 1 (config.parallelStreams - 2)))) ↔ _
    rw [clamped]
    exact streamsStep_two_iff bounded.streams
  | thermalThrottling =>
    cases found
    show NatStep config.parallelStreams
      (clampParallelism (clampParallelism (max 1 (config.parallelStreams - 1)))) ↔ _
    rw [clamped, Nat.max_comm]
    exact fewer
  | linkLimited =>
    cases found
    show NatStep config.parallelStreams (clampParallelism (clampParallelism config.parallelStreams)) ↔ _
    rw [clamped, clampParallelism_of_within bounded.streams]
    exact iff_of_true (natStep_self _) trivial
  | unknown => cases found

theorem sizesStep_decision_iff (bounded : config.InBounds)
    (found : decision config bottleneck = some decided) :
    (NatStep config.chunkSizeBytes (decided.apply config).chunkSizeBytes ∧
      BufferStep config.sendBufferKb (decided.apply config).sendBufferKb ∧
      BufferStep config.recvBufferKb (decided.apply config).recvBufferKb) ↔
        sizesGentle config bottleneck := by
  have clamped (size : Nat) := clampChunk_of_within (clampChunk_within size)
  have ⟨send, sendWord⟩ := bounded.sendBuffer
  have ⟨recv, recvWord⟩ := bounded.recvBuffer
  have sendKept : BufferStep config.sendBufferKb config.sendBufferKb := ⟨send, sendWord, natStep_self _⟩
  have recvKept : BufferStep config.recvBufferKb config.recvBufferKb := ⟨recv, recvWord, natStep_self _⟩
  cases bottleneck with
  | networkCongestion =>
    cases found
    exact iff_of_false (fun steps => sendBuffer_less bounded.sendBuffer steps.2.1.2.2) id
  | receiverSlow =>
    obtain ⟨size, share, under, _⟩ := chunkShare_eq bounded 8 1 80 (by norm_num)
      (by norm_num) (by norm_num)
    cases found
    show (NatStep config.chunkSizeBytes (clampChunk (chunkShare config 0.8)) ∧
      BufferStep config.sendBufferKb config.sendBufferKb ∧
      BufferStep config.recvBufferKb config.sendBufferKb) ↔ _
    rw [share, clamped, chunkSize_less_iff bounded.chunkSize under (.inr rfl), sizesGentle]
    exact and_congr_right fun _ =>
      ⟨fun steps => steps.2.2.2, fun step => ⟨sendKept, send, sendWord, step⟩⟩
  | cpuBound =>
    cases found
    have kept : NatStep config.chunkSizeBytes (clampChunk (clampChunk config.chunkSizeBytes)) := by
      rw [clamped, clampChunk_of_within bounded.chunkSize]
      exact natStep_self _
    exact iff_of_true ⟨kept, sendKept, recvKept⟩ trivial
  | thermalThrottling =>
    obtain ⟨size, share, under, beyond⟩ := chunkShare_eq bounded 9 1 90 (by norm_num)
      (by norm_num) (by norm_num)
    cases found
    have near : NatStep config.chunkSizeBytes (clampChunk (chunkShare config 0.9)) := by
      rw [share, clamped]
      exact chunkSize_near bounded.chunkSize under beyond (.inl rfl)
    exact iff_of_true ⟨near, sendKept, recvKept⟩ trivial
  | linkLimited =>
    obtain ⟨_, share, under, beyond⟩ := chunkShare_eq bounded 11 1 110 (by norm_num)
      (by norm_num) (by norm_num)
    cases found
    have near : NatStep config.chunkSizeBytes (clampChunk (chunkShare config 1.1)) := by
      rw [share, clamped]
      exact chunkSize_near bounded.chunkSize under beyond (.inr rfl)
    exact iff_of_true ⟨near, sendKept, recvKept⟩ trivial
  | unknown => cases found

/-- A decision keeps the bounds and the step exactly where it is gentle; what the transport handles
itself stays as it is. -/
theorem safe_iff_gentle (bounded : config.InBounds)
    (found : decision config bottleneck = some decided) (handled : Bool) :
    (((decided.strip handled).apply config).InBounds ∧
      config.Smooth ((decided.strip handled).apply config)) ↔
      streamsGentle config bottleneck ∧ rateGentle config bottleneck ∧
        (handled = false → sizesGentle config bottleneck) := by
  have ⟨paced, rate⟩ := decision_paced bounded found handled
  rw [paced.apply_iff bounded, rate, ← streamsStep_decision_iff bounded found,
    ← sizesStep_decision_iff bounded found]
  cases handled with
  | false =>
    simp only [ControlDecision.strip, Bool.false_eq_true, ↓reduceIte, forall_const]
    exact ⟨fun ⟨chunk, streams, rate, buffers⟩ => ⟨streams, rate, chunk, buffers⟩,
      fun ⟨streams, rate, chunk, buffers⟩ => ⟨chunk, streams, rate, buffers⟩⟩
  | true =>
    have ⟨send, sendWord⟩ := bounded.sendBuffer
    have ⟨recv, recvWord⟩ := bounded.recvBuffer
    constructor
    · rintro ⟨_, streams, rate, _⟩
      exact ⟨streams, rate, fun other => absurd other (by decide)⟩
    · rintro ⟨streams, rate, _⟩
      exact ⟨natStep_self _, streams, rate, ⟨send, sendWord, natStep_self _⟩, recv, recvWord, natStep_self _⟩

def Classified.handled (input : Classified F) (quic : Bool) : Bool :=
  quic && input.transport = some .quic

def Tuned.Ready (tuned : Tuned F) (input : Classified F) : Prop :=
  ¬ (input.now - tuned.engine.lastAdjustment) / 1000000 < tuned.engine.cooldownMs ∧
    ¬ input.classification.confidence < (0.4 : F)

/-- The bounds hold afterwards, and no bounded parameter has moved by more than the step. -/
def Tuned.Safe (tuned : Tuned F) (_ : Classified F) (after : Tuned F) : Prop :=
  after.config.InBounds ∧ tuned.config.Smooth after.config

def Tuned.gentle (quic : Bool) (tuned : Tuned F) (input : Classified F) : Prop :=
  tuned.Ready input → streamsGentle tuned.config input.classification.bottleneck ∧
    rateGentle tuned.config input.classification.bottleneck ∧
    (input.handled quic = false → sizesGentle tuned.config input.classification.bottleneck)

variable {quic : Bool} {tuned after : Tuned F} {input : Classified F}

theorem TuningConfig.InBounds.smooth (bounded : config.InBounds) : config.Smooth config :=
  ⟨natStep_self _, natStep_self _, withinStep_self bounded.rate_bounded, natStep_self _, natStep_self _⟩

omit [Rounding F] in
theorem Tuned.step_cases (taken : tuned.step quic input = some after) :
    (tuned.Ready input ∧
      ∃ decided, decision tuned.config input.classification.bottleneck = some decided ∧
      after.config = (decided.strip (input.handled quic)).apply tuned.config) ∨
    ((tuned.Ready input → input.classification.bottleneck = .unknown) ∧
      after.config = tuned.config) := by
  cases taken
  dsimp only [DecisionEngine.decideForTransport]
  split
  · rename_i cooling
    exact .inr ⟨fun ready => absurd cooling ready.1, rfl⟩
  split
  · rename_i unsure
    exact .inr ⟨fun ready => absurd unsure ready.2, rfl⟩
  · rename_i cooled certain
    cases found : decision tuned.config input.classification.bottleneck with
    | none =>
      refine .inr ⟨fun _ => ?_, rfl⟩
      revert found
      cases input.classification.bottleneck with
      | unknown => exact fun _ => rfl
      | networkCongestion | receiverSlow | cpuBound | thermalThrottling | linkLimited =>
        intro none
        cases none
    | some decided => exact .inl ⟨⟨cooled, certain⟩, decided, rfl, rfl⟩

theorem Tuned.gentle_iff (bounded : tuned.config.InBounds)
    (taken : tuned.step quic input = some after) :
    tuned.Safe input after ↔ tuned.gentle quic input := by
  rcases step_cases taken with ⟨ready, _, found, applied⟩ | ⟨idle, same⟩
  · rw [Safe, applied, safe_iff_gentle bounded found]
    exact ⟨fun gentle _ => gentle, fun gentle => gentle ready⟩
  · refine iff_of_true ?_ fun ready => ?_
    · rw [Safe, same]
      exact ⟨bounded, bounded.smooth⟩
    · rw [idle ready]
      exact ⟨trivial, trivial, fun _ => trivial⟩

/-- From a configuration within the safe bounds, these hold throughout and no decision moves a
bounded parameter by more than the step, exactly when every decision of the run is gentle. -/
theorem safe_of_run {inputs : List (Classified F)} (bounded : tuned.config.InBounds)
    (run : Execution (Tuned.step quic) anything tuned inputs after) :
    EveryStep (Tuned.step quic) Tuned.Safe tuned inputs ↔
      Execution (Tuned.step quic) (Tuned.gentle quic) tuned inputs after :=
  run.everyStep_iff_of_related (fun tuned => tuned.config.InBounds) bounded
    (fun _ _ _ _ _ safe => safe.1)
      fun _ _ _ bounded taken => Tuned.gentle_iff bounded taken

def smallBuffers (F : Type) [Floating F] : Tuned F :=
  { engine := .new 500000000,
    config := { TuningConfig.default 4 with sendBufferKb := 1, recvBufferKb := 1 } }

omit [Rounding F] in
theorem smallBuffers_inBounds : (smallBuffers F).config.InBounds := by
  have chunkSize : 16 * 1024 ≤ 1048576 ∧ 1048576 ≤ 2 * 1024 * 1024 := by decide
  have streams : 1 ≤ 1 ∧ 1 ≤ 8 := by decide
  have buffer : 0 < 1 ∧ 1 < 2 ^ 64 := by decide
  refine ⟨chunkSize, streams, ?_, buffer, buffer⟩
  intro _ limited
  cases limited

/-- A classification with so much confidence, at an instant in milliseconds. -/
def classified (now : Nat) (bottleneck : Bottleneck) (confidence : F) : Classified F :=
  { now := now * 1000000, classification := { bottleneck, confidence }, transport := none }

/-- The link is the limit twice, and the chunks grow; and then the device is too hot. -/
theorem safe_linkLimited : EveryStep (Tuned.step false) Tuned.Safe (smallBuffers Rat)
    [classified 600 .linkLimited 0.75, classified 1200 .linkLimited 0.75,
      classified 1800 .thermalThrottling 0.70] := by
  refine (safe_of_run smallBuffers_inBounds
    (.next trivial rfl (.next trivial rfl (.single trivial rfl)))).mpr ?_
  refine .next (fun _ => ⟨trivial, trivial, fun _ => trivial⟩) rfl
    (.next (fun _ => ⟨trivial, trivial, fun _ => trivial⟩) rfl
    (.single (fun _ => ⟨.inl (by decide +kernel), .inr ?_, fun _ => trivial⟩) rfl))
  rw [if_neg (by decide +kernel)]
  exact .inr ⟨_, _, rfl, rfl, by decide +kernel, by decide +kernel⟩

/-- The network is congested, and the buffers have no kilobyte left. -/
theorem congestion_unsafe :
    ¬ EveryStep (Tuned.step false) (fun _ _ after => after.config.InBounds) (smallBuffers Float)
      [classified 600 .networkCongestion 0.85] := by
  intro every
  have inBounds := every.head rfl
  exact absurd inBounds.sendBuffer.1 (by decide +kernel)

end DistributedOs.Control
