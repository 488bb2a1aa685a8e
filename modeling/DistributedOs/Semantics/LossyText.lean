import DistributedOs.Semantics.Utf8
import Mathlib.Data.List.Infix

/-! What decoding with replacement makes of ASCII. An ASCII byte becomes its own character wherever
it stands, and no other bytes become one. -/

namespace DistributedOs.Semantics

def lossy (bytes : Bytes) : List Char := lossyChars bytes.length bytes

theorem fromUtf8Lossy_eq (bytes : Bytes) : fromUtf8Lossy bytes = String.ofList (lossy bytes) := rfl

def IsAscii (byte : UInt8) : Prop := byte.toNat < 0x80

def asciiChar (byte : UInt8) : Char := Char.ofNat byte.toNat

variable {first byte : UInt8} {rest bytes : Bytes} {less more width : Nat}

theorem chunk_pos (first : UInt8) (rest : Bytes) : 0 < (chunk first rest).1 := by
  unfold chunk
  repeat' split
  all_goals exact Nat.zero_lt_succ _

theorem lossyChars_enough (enough : bytes.length ≤ less) (also : bytes.length ≤ more) :
    lossyChars less bytes = lossyChars more bytes := by
  induction less generalizing more bytes with
  | zero =>
    rw [List.length_eq_zero_iff.mp (Nat.le_zero.mp enough), lossyChars_nil, lossyChars_nil]
  | succ _ ih =>
    cases bytes with
    | nil => rw [lossyChars_nil, lossyChars_nil]
    | cons first rest =>
      obtain ⟨more, rfl⟩ :
          ∃ fewer, more = fewer + 1 := ⟨more - 1, by rw [List.length_cons] at also; omega⟩
      have positive := chunk_pos first rest
      rw [List.length_cons] at enough also
      have shorter : ((first :: rest).drop (chunk first rest).1).length ≤ rest.length := by
        rw [List.length_drop, List.length_cons]
        omega
      have later := @ih ((first :: rest).drop (chunk first rest).1) more (by omega) (by omega)
      rw [lossyChars, lossyChars]
      rcases piece : chunk first rest with ⟨width, _ | _⟩
      · rw [piece] at later
        exact congrArg (replacement :: ·) later
      · rw [piece] at later
        exact congrArg (Char.ofNat (scalar ((first :: rest).take width)) :: ·) later

theorem lossy_cons (first : UInt8) (rest : Bytes) :
    lossy (first :: rest) =
      (if (chunk first rest).2 then Char.ofNat (scalar ((first :: rest).take (chunk first rest).1))
        else replacement) ::
        lossy ((first :: rest).drop (chunk first rest).1) := by
  have positive := chunk_pos first rest
  have later := @lossyChars_enough ((first :: rest).drop (chunk first rest).1) rest.length _
    (by rw [List.length_drop, List.length_cons]; omega) (Nat.le_refl _)
  rw [lossy, List.length_cons, lossyChars]
  rcases piece : chunk first rest with ⟨width, _ | _⟩
  · rw [piece] at later
    exact congrArg (replacement :: ·) later
  · rw [piece] at later
    exact congrArg (Char.ofNat (scalar ((first :: rest).take width)) :: ·) later

theorem lossy_ascii (ascii : IsAscii first)
    (rest : Bytes) : lossy (first :: rest) = asciiChar first :: lossy rest := by
  have width : charWidth first = 1 := if_pos ascii
  have one : chunk first rest = (1, true) := by simp only [chunk, width]
  rw [lossy_cons, one]
  rfl

theorem isContinuation_iff (byte : UInt8) : isContinuation byte = true ↔
      0x80 ≤ byte.toNat ∧ byte.toNat < 0xC0 := by
  rw [isContinuation, Bool.and_eq_true, decide_eq_true_eq, decide_eq_true_eq]

theorem fitsSecond_iff (first second : UInt8) :
    fitsSecond first second = true ↔
      isContinuation second = true ∧ (first.toNat = 0xE0 → 0xA0 ≤ second.toNat) ∧
      (first.toNat = 0xED → second.toNat < 0xA0) ∧
        (first.toNat = 0xF0 → 0x90 ≤ second.toNat) ∧
        (first.toNat = 0xF4 → second.toNat < 0x90) := by
  simp only [fitsSecond, Bool.and_eq_true, Bool.or_eq_true, bne_iff_ne, decide_eq_true_eq,
    and_assoc, ne_eq, ← imp_iff_not_or]

theorem toNat_ofNat_of_valid (valid : number.isValidChar) : (Char.ofNat number).toNat = number := by
  unfold Char.ofNat
  rw [dif_pos valid]
  unfold Char.ofNatAux Char.toNat
  simp

theorem high_ofNat (high : 0x80 ≤ number) (valid : number.isValidChar) :
    0x80 ≤ (Char.ofNat number).toNat := by
  rw [toNat_ofNat_of_valid valid]
  exact high

theorem exists_cons_of_continues {index : Nat}
    (continues : isContinuation (rest.getD index 0) = true) :
    ∃ second later, rest = second :: later := by
  cases rest with
  | nil => cases continues
  | cons second later => exact ⟨second, later, rfl⟩

theorem charWidth_bounds (first : UInt8) :
    (charWidth first = 1 → first.toNat < 0x80) ∧
      (charWidth first = 2 → 0xC2 ≤ first.toNat ∧ first.toNat < 0xE0) ∧
      (charWidth first = 3 → 0xE0 ≤ first.toNat ∧ first.toNat < 0xF0) ∧
      (charWidth first = 4 → 0xF0 ≤ first.toNat ∧ first.toNat < 0xF5) := by
  refine ⟨?_, ?_, ?_, ?_⟩
  all_goals
    intro width
    unfold charWidth at width
    split_ifs at width
    all_goals omega

theorem high_of_two (width : charWidth first = 2) (continues : isContinuation second = true) :
    0x80 ≤ (Char.ofNat (scalar [first, second])).toNat := by
  have bounds := (charWidth_bounds first).2.1 width
  have numbers := (isContinuation_iff second).mp continues
  apply high_ofNat
  · change 0x80 ≤ first.toNat % 32 * 64 + second.toNat % 64
    omega
  · change (first.toNat % 32 * 64 + second.toNat % 64).isValidChar
    unfold Nat.isValidChar
    omega

theorem high_of_three (width : charWidth first = 3) (fits : fitsSecond first second = true)
    (continues : isContinuation third = true) :
    0x80 ≤ (Char.ofNat (scalar [first, second, third])).toNat := by
  have bounds := (charWidth_bounds first).2.2.1 width
  obtain ⟨secondContinues, _⟩ := (fitsSecond_iff first second).mp fits
  have numbers := (isContinuation_iff second).mp secondContinues
  have thirdNumbers := (isContinuation_iff third).mp continues
  apply high_ofNat
  · change 0x80 ≤ first.toNat % 16 * 4096 + second.toNat % 64 * 64 + third.toNat % 64
    omega
  · change (first.toNat % 16 * 4096 + second.toNat % 64 * 64 + third.toNat % 64).isValidChar
    unfold Nat.isValidChar
    omega

theorem high_of_four (width : charWidth first = 4) (fits : fitsSecond first second = true)
    (thirdContinues : isContinuation third = true) :
    0x80 ≤ (Char.ofNat (scalar [first, second, third, fourth])).toNat := by
  have bounds := (charWidth_bounds first).2.2.2 width
  obtain ⟨secondContinues, _⟩ := (fitsSecond_iff first second).mp fits
  have numbers := (isContinuation_iff second).mp secondContinues
  have thirdNumbers := (isContinuation_iff third).mp thirdContinues
  apply high_ofNat
  · change 0x80 ≤ first.toNat % 8 * 262144 + second.toNat % 64 * 4096 + third.toNat % 64 * 64 +
      fourth.toNat % 64
    omega
  · change (first.toNat % 8 * 262144 + second.toNat % 64 * 4096 + third.toNat % 64 * 64 +
      fourth.toNat % 64).isValidChar
    unfold Nat.isValidChar
    omega

/-- What a chunk is, where it does not begin with ASCII: nothing but continuations follow its first
byte, and the number of a whole one is that of a character beyond ASCII. -/
theorem chunk_high (high : ¬ IsAscii first) (rest : Bytes) :
    (∀ byte ∈ rest.take ((chunk first rest).1 - 1), isContinuation byte = true) ∧
      ((chunk first rest).2 = true →
        0x80 ≤ (Char.ofNat (scalar ((first :: rest).take (chunk first rest).1))).toNat) := by
  have none : ∀ byte ∈ ([] : Bytes), isContinuation byte = true := List.forall_mem_nil _
  unfold chunk
  split
  · next width => exact absurd ((charWidth_bounds first).1 width) high
  · next width =>
    split
    · next continues =>
      obtain ⟨second, later, rfl⟩ := exists_cons_of_continues continues
      exact ⟨List.forall_mem_cons.mpr ⟨continues, none⟩, fun _ => high_of_two width continues⟩
    · exact ⟨none, fun whole => (nomatch whole)⟩
  · next width =>
    split
    · exact ⟨none, fun whole => (nomatch whole)⟩
    · next fits =>
      rw [Bool.not_eq_true', Bool.not_eq_false] at fits
      have secondContinues := ((fitsSecond_iff _ _).mp fits).1
      obtain ⟨second, later, rfl⟩ := exists_cons_of_continues secondContinues
      split
      · next continues =>
        obtain ⟨third, later, rfl⟩ := @exists_cons_of_continues later 0 continues
        exact ⟨List.forall_mem_cons.mpr ⟨secondContinues, List.forall_mem_cons.mpr ⟨continues, none⟩⟩,
          fun _ => high_of_three width fits continues⟩
      · exact ⟨List.forall_mem_cons.mpr ⟨secondContinues, none⟩, fun whole => (nomatch whole)⟩
  · next width =>
    split
    · exact ⟨none, fun whole => (nomatch whole)⟩
    · next fits =>
      rw [Bool.not_eq_true', Bool.not_eq_false] at fits
      have secondContinues := ((fitsSecond_iff _ _).mp fits).1
      obtain ⟨second, later, rfl⟩ := exists_cons_of_continues secondContinues
      have secondOnly : ∀ byte ∈ [second],
          isContinuation byte = true := List.forall_mem_cons.mpr ⟨secondContinues, none⟩
      split
      · exact ⟨secondOnly, fun whole => (nomatch whole)⟩
      · next thirdContinues =>
        rw [Bool.not_eq_true', Bool.not_eq_false] at thirdContinues
        obtain ⟨third, later, rfl⟩ := @exists_cons_of_continues later 0 thirdContinues
        split
        · next continues =>
          obtain ⟨fourth, later, rfl⟩ := @exists_cons_of_continues later 0 continues
          have thirdOn : ∀ byte ∈ [third, fourth], isContinuation byte = true :=
            List.forall_mem_cons.mpr ⟨thirdContinues, List.forall_mem_cons.mpr ⟨continues, none⟩⟩
          exact ⟨List.forall_mem_cons.mpr ⟨secondContinues, thirdOn⟩, fun _ =>
            high_of_four width fits thirdContinues⟩
        · exact ⟨List.forall_mem_cons.mpr
            ⟨secondContinues, List.forall_mem_cons.mpr ⟨thirdContinues, none⟩⟩,
            fun whole => (nomatch whole)⟩
  · exact ⟨none, fun whole => (nomatch whole)⟩

theorem lossy_high (high : ¬ IsAscii first) (rest : Bytes) :
    ∃ taken later c, first :: rest = taken ++ later ∧ taken ≠ [] ∧
      (∀ byte ∈ taken, ¬ IsAscii byte) ∧ 0x80 ≤ c.toNat ∧
      lossy (first :: rest) = c :: lossy later := by
  obtain ⟨continues, number⟩ := chunk_high high rest
  have decoded := lossy_cons first rest
  obtain ⟨width, positive⟩ := Nat.exists_eq_succ_of_ne_zero (Nat.ne_of_gt (chunk_pos first rest))
  rw [positive] at decoded number continues
  rw [List.drop_succ_cons] at decoded
  have split : first :: rest = first :: rest.take width ++ rest.drop width := by
    rw [List.cons_append, List.take_append_drop]
  refine ⟨_, _, _, split, List.cons_ne_nil _ _, ?_, ?_, decoded⟩
  · refine List.forall_mem_cons.mpr ⟨high, fun byte member ascii => ?_⟩
    have bounds := (isContinuation_iff byte).mp (continues byte member)
    unfold IsAscii at ascii
    omega
  · split
    · next whole => exact number whole
    · decide

theorem lossy_induction {motive : Bytes → Prop} (nil : motive [])
    (ascii : ∀ first rest, IsAscii first → motive rest → motive (first :: rest))
    (high : ∀ taken later c, (∀ byte ∈ taken, ¬ IsAscii byte) → 0x80 ≤ c.toNat →
      lossy (taken ++ later) = c :: lossy later →
      motive later → motive (taken ++ later)) (bytes : Bytes) : motive bytes := by
  induction size : bytes.length using Nat.strong_induction_on generalizing bytes with
  | _ size ih =>
    cases bytes with
    | nil => exact nil
    | cons first rest =>
      rw [List.length_cons] at size
      by_cases plain : IsAscii first
      · exact ascii first rest plain (ih rest.length (by omega) rest rfl)
      · obtain ⟨taken, later, c, split, nonempty, others, beyond, decoded⟩ := lossy_high plain rest
        have length := congrArg List.length split
        have positive := List.length_pos_iff.mpr nonempty
        rw [List.length_cons, List.length_append] at length
        rw [split] at decoded ⊢
        exact high taken later c others beyond decoded (ih later.length (by omega) later rfl)

theorem toNat_asciiChar (ascii : IsAscii byte) : (asciiChar byte).toNat = byte.toNat := by
  have valid : byte.toNat.isValidChar := by
    unfold IsAscii at ascii
    unfold Nat.isValidChar
    omega
  exact toNat_ofNat_of_valid valid

theorem asciiChar_inj (ascii : IsAscii first) (also : IsAscii byte) :
    asciiChar first = asciiChar byte ↔ first = byte := by
  constructor
  · intro same
    have numbers := congrArg Char.toNat same
    rw [toNat_asciiChar ascii, toNat_asciiChar also] at numbers
    exact UInt8.toNat_inj.mp numbers
  · exact congrArg asciiChar

theorem asciiChar_ne (ascii : IsAscii byte) (beyond : 0x80 ≤ c.toNat) : asciiChar byte ≠ c := by
  rintro rfl
  rw [toNat_asciiChar ascii] at beyond
  unfold IsAscii at ascii
  omega

variable {pattern : Bytes}

theorem lossy_append (ascii : ∀ byte ∈ pattern, IsAscii byte) (rest : Bytes) :
    lossy (pattern ++ rest) = pattern.map asciiChar ++ lossy rest := by
  induction pattern with
  | nil => rfl
  | cons _ _ ih =>
    rw [List.forall_mem_cons] at ascii
    rw [List.cons_append, lossy_ascii ascii.1, ih ascii.2]
    rfl

theorem prefix_lossy_iff (ascii : ∀ byte ∈ pattern, IsAscii byte) :
    pattern.map asciiChar <+: lossy bytes ↔ pattern <+: bytes := by
  induction pattern generalizing bytes with
  | nil => exact iff_of_true List.nil_prefix List.nil_prefix
  | cons _ _ ih =>
    rw [List.forall_mem_cons] at ascii
    cases bytes with
    | nil =>
      exact iff_of_false (fun starts => absurd (List.prefix_nil.mp starts) nofun) fun starts =>
        absurd (List.prefix_nil.mp starts) nofun
    | cons first rest =>
      by_cases plain : IsAscii first
      · rw [lossy_ascii plain, List.map_cons, List.cons_prefix_cons, List.cons_prefix_cons,
          asciiChar_inj ascii.1 plain, ih ascii.2]
      · obtain ⟨_, _, c, _, _, _, beyond, decoded⟩ := lossy_high plain rest
        rw [decoded, List.map_cons, List.cons_prefix_cons, List.cons_prefix_cons]
        refine iff_of_false (fun starts => asciiChar_ne ascii.1 beyond starts.1) fun starts =>
          plain (starts.1 ▸ ascii.1)

theorem infix_append_high {taken : Bytes} (nonempty : pattern ≠ [])
    (ascii : ∀ byte ∈ pattern, IsAscii byte) (others : ∀ byte ∈ taken, ¬ IsAscii byte)
    (later : Bytes) : pattern <:+: taken ++ later ↔ pattern <:+: later := by
  induction taken with
  | nil => exact Iff.rfl
  | cons _ _ ih =>
    rw [List.forall_mem_cons] at others
    rw [List.cons_append, List.infix_cons_iff, ih others.2]
    refine or_iff_right fun starts => ?_
    cases pattern with
    | nil => exact nonempty rfl
    | cons byte => exact others.1 ((List.cons_prefix_cons.mp starts).1 ▸ ascii byte List.mem_cons_self)

theorem infix_lossy_iff (nonempty : pattern ≠ []) (ascii : ∀ byte ∈ pattern, IsAscii byte)
    (bytes : Bytes) :
    pattern.map asciiChar <:+: lossy bytes ↔ pattern <:+: bytes := by
  have starts := fun bytes => @prefix_lossy_iff bytes pattern ascii
  induction bytes using lossy_induction with
  | nil =>
    have empty : lossy [] = [] := rfl
    rw [empty, List.infix_nil, List.infix_nil, List.map_eq_nil_iff]
  | ascii first rest plain ih =>
    have here := starts (first :: rest)
    rw [lossy_ascii plain] at here ⊢
    rw [List.infix_cons_iff, List.infix_cons_iff, here]
    exact or_congr_right ih
  | high _ _ c others beyond decoded ih =>
    rw [infix_append_high nonempty ascii others, decoded, List.infix_cons_iff]
    refine (or_iff_right fun begins => ?_).trans ih
    cases pattern with
    | nil => exact nonempty rfl
    | cons byte =>
      exact asciiChar_ne (ascii byte List.mem_cons_self) beyond (List.cons_prefix_cons.mp begins).1

def afterFirst {α : Type} [BEq α] (pattern : List α) : List α → Option (List α)
  | [] => none
  | first :: rest =>
    if pattern.isPrefixOf (first :: rest) then some ((first :: rest).drop pattern.length)
    else afterFirst pattern rest

theorem afterFirst_high {taken : Bytes} (nonempty : pattern ≠ [])
    (ascii : ∀ byte ∈ pattern, IsAscii byte) (others : ∀ byte ∈ taken, ¬ IsAscii byte)
    (later : Bytes) : afterFirst pattern (taken ++ later) = afterFirst pattern later := by
  induction taken with
  | nil => rfl
  | cons _ _ ih =>
    rw [List.forall_mem_cons] at others
    rw [List.cons_append, afterFirst, if_neg, ih others.2]
    intro starts
    cases pattern with
    | nil => exact nonempty rfl
    | cons byte =>
      have same := (List.cons_prefix_cons.mp (List.isPrefixOf_iff_prefix.mp starts)).1
      exact others.1 (same ▸ ascii byte List.mem_cons_self)

theorem afterFirst_lossy (nonempty : pattern ≠ []) (ascii : ∀ byte ∈ pattern, IsAscii byte)
    (bytes : Bytes) :
    afterFirst (pattern.map asciiChar) (lossy bytes) = (afterFirst pattern bytes).map lossy := by
  induction bytes using lossy_induction with
  | nil => rfl
  | ascii first rest plain ih =>
    have starts := @prefix_lossy_iff (first :: rest) pattern ascii
    rw [lossy_ascii plain] at starts ⊢
    rw [afterFirst, afterFirst]
    by_cases here : pattern <+: first :: rest
    · rw [if_pos (List.isPrefixOf_iff_prefix.mpr (starts.mpr here)),
        if_pos (List.isPrefixOf_iff_prefix.mpr here)]
      obtain ⟨later, whole⟩ := here
      have decoded := lossy_append ascii later
      rw [whole, lossy_ascii plain] at decoded
      rw [decoded, ← whole, List.drop_left, List.drop_left]
      rfl
    · rw [if_neg fun begins => here (starts.mp (List.isPrefixOf_iff_prefix.mp begins)),
        if_neg fun begins => here (List.isPrefixOf_iff_prefix.mp begins)]
      exact ih
  | high _ _ c others beyond decoded ih =>
    rw [afterFirst_high nonempty ascii others, decoded, afterFirst, if_neg]
    · exact ih
    · intro begins
      cases pattern with
      | nil => exact nonempty rfl
      | cons byte =>
        have same := (List.cons_prefix_cons.mp (List.isPrefixOf_iff_prefix.mp begins)).1
        exact asciiChar_ne (ascii byte List.mem_cons_self) beyond same

theorem isAscii_zero : IsAscii 0 := by
  unfold IsAscii
  decide

theorem isContinuation_ascii (ascii : IsAscii byte) : isContinuation byte = false := by
  unfold IsAscii at ascii
  rw [Bool.eq_false_iff, Ne, isContinuation_iff]
  omega

theorem fitsSecond_ascii (first : UInt8) (ascii : IsAscii byte) :
    fitsSecond first byte = false := by
  rw [fitsSecond, isContinuation_ascii ascii]
  rfl

theorem chunk_append_ascii (ascii : IsAscii byte) (first : UInt8) (bytes rest : Bytes) :
    chunk first (bytes ++ byte :: rest) = chunk first bytes := by
  have second := fitsSecond_ascii first ascii
  have continues := isContinuation_ascii ascii
  have end_ : isContinuation 0 = false := rfl
  have endSecond : fitsSecond first 0 = false := fitsSecond_ascii first isAscii_zero
  unfold chunk
  match bytes with
  | [] => simp [second, continues, end_, endSecond]
  | [_] => simp [continues, end_]
  | [_, _] => simp [continues, end_]
  | _ :: _ :: _ :: _ => simp

theorem chunk_within (first : UInt8)
    (bytes : Bytes) : (chunk first bytes).1 ≤ bytes.length + 1 := by
  have end_ : isContinuation 0 = false := rfl
  have endSecond : fitsSecond first 0 = false := fitsSecond_ascii first isAscii_zero
  unfold chunk
  match bytes with
  | [] => split <;> simp [end_, endSecond]
  | [_] =>
    repeat' split
    all_goals simp_all
  | [_, _] =>
    repeat' split
    all_goals simp_all
  | _ :: _ :: _ :: _ =>
    repeat' split
    all_goals simp

theorem lossy_append_ascii (ascii : IsAscii byte) (bytes rest : Bytes) :
    lossy (bytes ++ byte :: rest) = lossy bytes ++ asciiChar byte :: lossy rest := by
  induction size : bytes.length using Nat.strong_induction_on generalizing bytes with
  | _ size ih =>
    cases bytes with
    | nil => exact lossy_ascii ascii rest
    | cons first bytes =>
      have within := chunk_within first bytes
      have positive := chunk_pos first bytes
      rw [List.length_cons] at size
      rw [List.cons_append, lossy_cons, lossy_cons first bytes, chunk_append_ascii ascii,
        ← List.cons_append,
        List.take_append_of_le_length (by rw [List.length_cons]; exact within),
        List.drop_append_of_le_length (by rw [List.length_cons]; exact within),
        ih _ (by rw [List.length_drop, List.length_cons]; omega) _ rfl]
      rfl

theorem mem_lossy_iff (ascii : IsAscii byte) : asciiChar byte ∈ lossy bytes ↔ byte ∈ bytes := by
  have found := infix_lossy_iff (List.cons_ne_nil byte []) (List.forall_mem_singleton.mpr ascii) bytes
  rwa [List.map_singleton, List.singleton_infix_iff, List.singleton_infix_iff] at found

def lowerByte (byte : UInt8) : UInt8 :=
  if 65 ≤ byte.toNat ∧ byte.toNat ≤ 90 then byte + 32 else byte

theorem toLower_asciiChar (ascii : IsAscii byte) :
    (asciiChar byte).toLower = asciiChar (lowerByte byte) := by
  have all : ∀ number < 128, (asciiChar (UInt8.ofNat number)).toLower = asciiChar
      (lowerByte (UInt8.ofNat number)) := by
    decide +kernel
  have here := all byte.toNat ascii
  rwa [UInt8.ofNat_toNat] at here

theorem toLower_high {c : Char} (beyond : 0x80 ≤ c.toNat) : c.toLower = c := by
  unfold Char.toLower
  split
  · rename_i upper
    have below : c.toNat ≤ 90 := upper.2
    omega
  · rfl

theorem isAscii_lowerByte : IsAscii (lowerByte byte) ↔ IsAscii byte := by
  unfold lowerByte IsAscii
  split
  · rename_i upper
    rw [UInt8.toNat_add]
    have small : (32 : UInt8).toNat = 32 := rfl
    omega
  · exact Iff.rfl

theorem prefix_lower_lossy_iff (ascii : ∀ byte ∈ pattern, IsAscii byte) :
    pattern.map asciiChar <+: (lossy bytes).map Char.toLower ↔ pattern <+: bytes.map lowerByte := by
  induction pattern generalizing bytes with
  | nil => exact iff_of_true List.nil_prefix List.nil_prefix
  | cons _ _ ih =>
    rw [List.forall_mem_cons] at ascii
    cases bytes with
    | nil =>
      exact iff_of_false (fun starts => absurd (List.prefix_nil.mp starts) nofun) fun starts =>
        absurd (List.prefix_nil.mp starts) nofun
    | cons first rest =>
      by_cases plain : IsAscii first
      · rw [lossy_ascii plain, List.map_cons, List.map_cons, List.map_cons, toLower_asciiChar plain,
          List.cons_prefix_cons,
          List.cons_prefix_cons, asciiChar_inj ascii.1 (isAscii_lowerByte.mpr plain), ih ascii.2]
      · obtain ⟨_, _, c, _, _, _, beyond, decoded⟩ := lossy_high plain rest
        rw [decoded, List.map_cons, List.map_cons, List.map_cons, toLower_high beyond,
          List.cons_prefix_cons, List.cons_prefix_cons]
        refine iff_of_false (fun starts => asciiChar_ne ascii.1 beyond starts.1) fun starts => plain ?_
        exact isAscii_lowerByte.mp (starts.1 ▸ ascii.1)

end DistributedOs.Semantics
