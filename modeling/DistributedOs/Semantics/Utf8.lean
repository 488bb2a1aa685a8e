import DistributedOs.Semantics.Codec

/-! Decoding UTF-8 with replacement, and what it makes of a text that was cut off. -/

namespace DistributedOs.Semantics

def replacement : Char := Char.ofNat 0xFFFD

def isContinuation (byte : UInt8) : Bool := 0x80 ≤ byte.toNat && byte.toNat < 0xC0

/-- How many bytes a character has that begins with this one; 0 where none begins with it. -/
def charWidth (first : UInt8) : Nat :=
  if first.toNat < 0x80 then 1
  else if first.toNat < 0xC2 then 0
  else if first.toNat < 0xE0 then 2
  else if first.toNat < 0xF0 then 3
  else if first.toNat < 0xF5 then 4
  else 0

/-- Other second bytes make an overlong form, a surrogate or no Unicode character. -/
def fitsSecond (first second : UInt8) : Bool :=
  isContinuation second &&
    (first.toNat != 0xE0 || 0xA0 ≤ second.toNat) && (first.toNat != 0xED || second.toNat < 0xA0) &&
    (first.toNat != 0xF0 || 0x90 ≤ second.toNat) && (first.toNat != 0xF4 || second.toNat < 0x90)

/-- How many bytes make up the next character, or else are replaced together. -/
def chunk (first : UInt8) (rest : Bytes) : Nat × Bool :=
  match charWidth first with
  | 1 => (1, true)
  | 2 => if isContinuation (rest.getD 0 0) then (2, true) else (1, false)
  | 3 =>
    if !fitsSecond first (rest.getD 0 0) then (1, false)
    else if isContinuation (rest.getD 1 0) then (3, true) else (2, false)
  | 4 =>
    if !fitsSecond first (rest.getD 0 0) then (1, false)
    else if !isContinuation (rest.getD 1 0) then (2, false)
    else if isContinuation (rest.getD 2 0) then (4, true) else (3, false)
  | _ => (1, false)

/-- The number of the character that these bytes encode. -/
def scalar : Bytes → Nat
  | [first] => first.toNat
  | [first, second] => first.toNat % 32 * 64 + second.toNat % 64
  | [first, second, third] => first.toNat % 16 * 4096 + second.toNat % 64 * 64 + third.toNat % 64
  | [first, second, third, fourth] =>
    first.toNat % 8 * 262144 + second.toNat % 64 * 4096 + third.toNat % 64 * 64 + fourth.toNat % 64
  | _ => 0

def lossyChars : Nat → Bytes → List Char
  | 0, _ | _, [] => []
  | fuel + 1, first :: rest =>
    match chunk first rest with
    | (width, true) =>
      Char.ofNat (scalar ((first :: rest).take width)) :: lossyChars fuel ((first :: rest).drop width)
    | (width, false) => replacement :: lossyChars fuel ((first :: rest).drop width)

/-- `String::from_utf8_lossy`. A chunk is never empty, so the length is fuel enough. -/
def fromUtf8Lossy (bytes : Bytes) : String := String.ofList (lossyChars bytes.length bytes)

inductive Encoded (c : Char) : Bytes → Prop where
  | one (width : charWidth first = 1) (number : scalar [first] = c.toNat) : Encoded c [first]
  | two (width : charWidth first = 2) (second : isContinuation b = true)
    (number : scalar [first, b] = c.toNat) :
      Encoded c [first, b]
  | three (width : charWidth first = 3) (second : fitsSecond first b = true)
    (third : isContinuation d = true)
      (number : scalar [first, b, d] = c.toNat) : Encoded c [first, b, d]
  | four (width : charWidth first = 4) (second : fitsSecond first b = true)
    (third : isContinuation d = true)
      (fourth : isContinuation e = true) (number : scalar [first, b, d, e] = c.toNat) :
      Encoded c [first, b, d, e]

theorem charWidth_ofNat {value : Nat} (small : value < 256) :
    charWidth (UInt8.ofNat value) =
      if value < 0x80 then 1 else if value < 0xC2 then 0 else if value < 0xE0 then 2
      else if value < 0xF0 then 3
      else if value < 0xF5 then 4 else 0 := by
  rw [charWidth, UInt8.toNat_ofNat', Nat.mod_eq_of_lt small]

theorem isContinuation_ofNat
    (value : Nat) : isContinuation (UInt8.ofNat (value % 64 + 128)) = true := by
  simp only [isContinuation, UInt8.toNat_ofNat', Bool.and_eq_true, decide_eq_true_eq]
  omega

theorem continuation_mod (value : Nat) : (value % 64 + 128) % 2 ^ 8 % 64 = value % 64 := by omega

theorem encoded (c : Char) : Encoded c (String.utf8EncodeChar c) := by
  have valid := c.valid
  have number : c.val.toNat = c.toNat := rfl
  have limits : c.toNat < 0xD800 ∨ (0xDFFF < c.toNat ∧ c.toNat < 0x110000) := valid
  unfold String.utf8EncodeChar
  simp only [number]
  split_ifs with small medium large
  · refine .one ?_ ?_
    · rw [charWidth_ofNat (by omega), if_pos (by omega)]
    · simp only [scalar, UInt8.toNat_ofNat']
      omega
  · refine .two ?_ (isContinuation_ofNat _) ?_
    · rw [charWidth_ofNat (by omega), if_neg (by omega), if_neg (by omega), if_pos (by omega)]
    · simp only [scalar, UInt8.toNat_ofNat']
      omega
  · refine .three ?_ ?_ (isContinuation_ofNat _) ?_
    · rw [charWidth_ofNat (by omega), if_neg (by omega), if_neg (by omega), if_neg (by omega),
        if_pos (by omega)]
    · simp only [fitsSecond, isContinuation_ofNat, UInt8.toNat_ofNat', Bool.true_and, Bool.and_eq_true,
        Bool.or_eq_true, bne_iff_ne, decide_eq_true_eq]
      omega
    · simp only [scalar, UInt8.toNat_ofNat']
      omega
  · refine .four ?_ ?_ (isContinuation_ofNat _) (isContinuation_ofNat _) ?_
    · rw [charWidth_ofNat (by omega), if_neg (by omega), if_neg (by omega), if_neg (by omega),
        if_neg (by omega),
        if_pos (by omega)]
    · simp only [fitsSecond, isContinuation_ofNat, UInt8.toNat_ofNat', Bool.true_and, Bool.and_eq_true,
        Bool.or_eq_true, bne_iff_ne, decide_eq_true_eq]
      omega
    · have lead : (c.toNat / 262144 % 8 + 240) % 2 ^ 8 % 8 = c.toNat / 262144 := by omega
      simp only [scalar, UInt8.toNat_ofNat', continuation_mod, lead]
      omega

variable {c : Char} {bytes rest : Bytes} {fuel : Nat}

theorem Encoded.length_pos (code : Encoded c bytes) : 0 < bytes.length := by
  cases code <;> simp

theorem lossyChars_encoded (code : Encoded c bytes) (rest : Bytes) (fuel : Nat) :
    lossyChars (fuel + 1) (bytes ++ rest) = c :: lossyChars fuel rest := by
  cases code with
  | one width number | two width second number | three width second third number
  | four => simp [lossyChars, chunk, *]

theorem isContinuation_zero : isContinuation 0 = false := rfl

theorem fitsSecond_zero (first : UInt8) : fitsSecond first 0 = false := by
  rw [fitsSecond, isContinuation_zero, Bool.false_and, Bool.false_and, Bool.false_and, Bool.false_and]

theorem lossyChars_cut (code : Encoded c bytes) (begun : 0 < count)
    (cut : count < bytes.length) (fuel : Nat) :
    lossyChars (fuel + 1) (bytes.take count) = replacement :: lossyChars fuel [] := by
  cases code with
  | one width number =>
    rw [List.length_singleton] at cut
    omega
  | two width second number =>
    have : count = 1 := by simp at cut; omega
    subst this
    simp [lossyChars, chunk, isContinuation_zero, *]
  | three width second third number =>
    have : count = 1 ∨ count = 2 := by simp at cut; omega
    rcases this with rfl | rfl <;> simp [lossyChars, chunk, isContinuation_zero, fitsSecond_zero, *]
  | four width second third fourth number =>
    have : count = 1 ∨ count = 2 ∨ count = 3 := by simp at cut; omega
    rcases this with rfl | rfl | rfl <;>
      simp [lossyChars, chunk, isContinuation_zero, fitsSecond_zero, *]

theorem lossyChars_nil (fuel : Nat) : lossyChars fuel [] = [] := by
  cases fuel <;> rfl

/-- What decoding makes of the first bytes of a text. -/
def cutChars : Nat → List Char → List Char
  | _, [] => []
  | 0, _ => []
  | count + 1, c :: chars =>
    if c.utf8Size ≤ count + 1 then c :: cutChars (count + 1 - c.utf8Size) chars else [replacement]

theorem lossyChars_take (chars : List Char) (enough : count ≤ fuel) :
    lossyChars fuel ((chars.flatMap String.utf8EncodeChar).take count) = cutChars count chars := by
  induction chars generalizing count fuel with
  | nil =>
    rw [List.flatMap_nil, List.take_nil, lossyChars_nil, cutChars]
  | cons c _ ih =>
    have code := encoded c
    have size := String.length_utf8EncodeChar c
    have positive := code.length_pos
    cases count with
    | zero => rw [List.take_zero, lossyChars_nil, cutChars]; simp
    | succ =>
      obtain ⟨fuel, rfl⟩ : ∃ less, fuel = less + 1 := ⟨fuel - 1, by omega⟩
      rw [List.flatMap_cons, cutChars]
      split
      · rename_i whole
        rw [List.take_append, List.take_of_length_le (by omega), lossyChars_encoded code,
          size, ih (by omega)]
      · rename_i cut
        rw [List.take_append_of_le_length (by omega),
          lossyChars_cut code (by omega) (by omega), lossyChars_nil]

theorem three_le_of_getLast {chars : List Char} (last : chars.getLast? = some replacement) :
    3 ≤ (chars.flatMap String.utf8EncodeChar).length := by
  obtain ⟨_, rfl⟩ := List.getLast?_eq_some_iff.mp last
  have three : (String.utf8EncodeChar replacement).length = 3 := rfl
  rw [List.flatMap_append, List.length_append, List.flatMap_singleton, three]
  omega

theorem cutChars_singleton_iff (c : Char) (count : Nat) :
    cutChars (count + 1) [c] = [c] ↔ (String.utf8EncodeChar c).length ≤ count + 1 ∨
      (c = replacement ∧ (String.utf8EncodeChar c).length ≤ count + 3) := by
  have size := String.length_utf8EncodeChar c
  rw [cutChars]
  split
  · rename_i whole
    simp only [cutChars, true_iff]
    exact .inl (by omega)
  · rename_i cut
    constructor
    · intro same
      cases same
      have three : (String.utf8EncodeChar replacement).length = 3 := rfl
      exact .inr ⟨rfl, by omega⟩
    · rintro (_ | ⟨rfl, _⟩)
      · omega
      · rfl

/-- A text survives being cut exactly when nothing is cut off, or it ends in the character
that stands for what is cut off, and only that is cut. -/
theorem cutChars_eq_iff (chars : List Char) (count : Nat) :
    cutChars count chars = chars ↔
      (chars.flatMap String.utf8EncodeChar).length ≤ count ∨
        (chars.getLast? = some replacement ∧
          (chars.flatMap String.utf8EncodeChar).length ≤ count + 2) := by
  induction chars generalizing count with
  | nil => simp [cutChars]
  | cons c chars ih =>
    have size := String.length_utf8EncodeChar c
    have positive := (encoded c).length_pos
    rw [List.flatMap_cons, List.length_append]
    cases count with
    | zero =>
      have nothing : cutChars 0 (c :: chars) ≠ c :: chars := by simp [cutChars]
      refine iff_of_false nothing ?_
      rintro (short | ⟨last, short⟩)
      · omega
      · have := three_le_of_getLast last
        rw [List.flatMap_cons, List.length_append] at this
        omega
    | succ =>
      cases chars with
      | nil =>
        rw [cutChars_singleton_iff, List.flatMap_nil, List.length_nil, List.getLast?_singleton,
          Option.some_inj]
        rfl
      | cons =>
        rw [cutChars, List.getLast?_cons_cons]
        split
        · rename_i whole
          rw [List.cons_inj_right, ih]
          constructor
          · rintro (short | ⟨last, short⟩)
            · exact .inl (by omega)
            · exact .inr ⟨last, by omega⟩
          · rintro (short | ⟨last, short⟩)
            · exact .inl (by omega)
            · exact .inr ⟨last, by omega⟩
        · rename_i cut
          refine iff_of_false (fun same => nomatch same) ?_
          rintro (_ | ⟨last, _⟩)
          · omega
          · have := three_le_of_getLast last
            omega

theorem fromUtf8Lossy_take_iff (text : String) (count : Nat) :
    fromUtf8Lossy ((text.toList.flatMap String.utf8EncodeChar).take count) = text ↔
      (text.toList.flatMap String.utf8EncodeChar).length ≤ count ∨
        (text.toList.getLast? = some replacement ∧
          (text.toList.flatMap String.utf8EncodeChar).length ≤ count + 2) := by
  set bytes := text.toList.flatMap String.utf8EncodeChar with encoding
  have kept : (bytes.take count).length = min count bytes.length := List.length_take
  have decoded : fromUtf8Lossy (bytes.take count) = String.ofList
      (cutChars (min count bytes.length) text.toList) := by
    rw [fromUtf8Lossy, kept, ← lossyChars_take text.toList (Nat.le_refl _), ← encoding,
      List.take_eq_take_min]
  rw [decoded]
  calc String.ofList (cutChars (min count bytes.length) text.toList) = text
      ↔ cutChars (min count bytes.length) text.toList = text.toList := by
        rw [← String.toList_inj, String.toList_ofList]
    _ ↔ _ := cutChars_eq_iff _ _
    _ ↔ _ := by
        rw [← encoding]
        constructor
        · rintro (short | ⟨last, short⟩)
          · exact .inl (by omega)
          · exact .inr ⟨last, by omega⟩
        · rintro (_ | ⟨last, _⟩)
          · exact .inl (by omega)
          · by_cases whole : bytes.length ≤ count
            · exact .inl (by omega)
            · exact .inr ⟨last, by omega⟩

theorem fromUtf8Lossy_encode (text : String) :
    fromUtf8Lossy (text.toList.flatMap String.utf8EncodeChar) = text := by
  have whole := (fromUtf8Lossy_take_iff text _).mpr (.inl (Nat.le_refl _))
  rwa [List.take_length] at whole

end DistributedOs.Semantics
