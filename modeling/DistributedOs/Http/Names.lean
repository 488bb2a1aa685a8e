import DistributedOs.Http.Receivers
import Mathlib.Tactic.IntervalCases

/-! What the receivers make of a file name `urlencode` has written. -/

namespace DistributedOs.Http

open Semantics Reliable

/-- A character the encoder leaves as it is. -/
def isPlain (c : Char) : Prop := ∀ byte ∈ String.utf8EncodeChar c, isUnreserved byte = true

def urlencodeChar (c : Char) : List Char := (String.utf8EncodeChar c).flatMap urlencodeByte

variable {c : Char} {name : String} {byte digit : UInt8} {bytes : Bytes} {rest : List Char}

theorem toList_urlencode (name : String) :
    (urlencode name).toList = name.toList.flatMap urlencodeChar := by
  rw [urlencode, String.toList_ofList, utf8_eq, List.flatMap_assoc]
  rfl

theorem fromUtf8_utf8 (name : String) : fromUtf8 (utf8 name) = some name := by
  have same : (⟨(utf8 name).toArray⟩ : ByteArray) = name.toByteArray := by simp [utf8]
  rw [fromUtf8, same, String.fromUTF8?, dif_pos name.isValidUTF8]
  rfl

theorem forall_isPlain_iff : (∀ byte ∈ utf8 name, isUnreserved byte = true) ↔
      ∀ c ∈ name.toList, isPlain c := by
  simp only [utf8_eq, List.mem_flatMap, isPlain]
  constructor
  · intro all c member byte among
    exact all byte ⟨c, member, among⟩
  · rintro all byte ⟨c, member, among⟩
    exact all c member byte among

theorem utf8EncodeChar_ascii (ascii : c.toNat < 128) :
    String.utf8EncodeChar c = [UInt8.ofNat c.toNat] := by
  have small : c.val.toNat ≤ 0x7f := by
    have same : c.val.toNat = c.toNat := rfl
    omega
  simp only [String.utf8EncodeChar, if_pos small]
  rfl

theorem utf8EncodeChar_high (high : 128 ≤ c.toNat) (member : byte ∈ String.utf8EncodeChar c) :
    128 ≤ byte.toNat := by
  have large : ¬ c.val.toNat ≤ 0x7f := by
    have same : c.val.toNat = c.toNat := rfl
    omega
  simp only [String.utf8EncodeChar, if_neg large] at member
  split at member
  · simp only [List.mem_cons, List.not_mem_nil, or_false] at member
    rcases member with rfl | rfl <;> simp only [UInt8.toNat_ofNat'] <;> omega
  · split at member
    · simp only [List.mem_cons, List.not_mem_nil, or_false] at member
      rcases member with rfl | rfl | rfl <;> simp only [UInt8.toNat_ofNat'] <;> omega
    · simp only [List.mem_cons, List.not_mem_nil, or_false] at member
      rcases member with rfl | rfl | rfl | rfl <;> simp only [UInt8.toNat_ofNat'] <;> omega

theorem isUnreserved_lt (unreserved : isUnreserved byte = true) : byte.toNat < 128 := by
  simp only [isUnreserved, Bool.or_eq_true, Bool.and_eq_true, decide_eq_true_eq,
    UInt8.le_iff_toNat_le] at unreserved
  rcases unreserved with (((((_ | _) | _) | rfl) | rfl) | rfl) | rfl
  · have top : (90 : UInt8).toNat = 90 := rfl
    omega
  · have top : (122 : UInt8).toNat = 122 := rfl
    omega
  · have top : (57 : UInt8).toNat = 57 := rfl
    omega
  all_goals decide

theorem hexValue_hexDigit (small : digit < 16) : hexValue (hexDigit digit) = some digit := by
  obtain ⟨value, rfl⟩ : ∃ value, digit = UInt8.ofNat value := ⟨digit.toNat, UInt8.ofNat_toNat.symm⟩
  have below : value % 256 < 16 := by simpa [UInt8.lt_iff_toNat_lt] using small
  rw [← UInt8.ofNat_mod_size]
  generalize value % 256 = index at below
  interval_cases index <;> rfl

theorem hexDigit_ne_underscore (small : digit < 16) : hexDigit digit ≠ '_' := by
  intro same
  have value := hexValue_hexDigit small
  rw [same] at value
  cases value

theorem hex_halves (byte : UInt8) :
    byte / 16 < 16 ∧ byte % 16 < 16 ∧ byte / 16 * 16 + byte % 16 = byte := by
  have within := byte.toNat_lt
  refine ⟨?_, ?_, ?_⟩
  · rw [UInt8.lt_iff_toNat_lt, UInt8.toNat_div]
    show byte.toNat / 16 < 16
    omega
  · rw [UInt8.lt_iff_toNat_lt, UInt8.toNat_mod]
    show byte.toNat % 16 < 16
    omega
  · apply UInt8.toNat_inj.mp
    rw [UInt8.toNat_add, UInt8.toNat_mul, UInt8.toNat_div, UInt8.toNat_mod]
    show (byte.toNat / 16 * 16 % 256 + byte.toNat % 16) % 256 = byte.toNat
    omega

theorem charOfByte (unreserved : isUnreserved byte = true) :
    Char.ofNat byte.toNat ≠ '%' ∧ Char.ofNat byte.toNat ≠ '+' ∧
      String.utf8EncodeChar (Char.ofNat byte.toNat) = [byte] := by
  have ascii := isUnreserved_lt unreserved
  have value : (Char.ofNat byte.toNat).toNat = byte.toNat := by
    have valid : byte.toNat.isValidChar := .inl (by omega)
    rw [Char.ofNat, dif_pos valid]
    rfl
  refine ⟨?_, ?_, ?_⟩
  · intro same
    rw [same] at value
    have byte : byte = 37 := UInt8.toNat_inj.mp value.symm
    subst byte
    cases unreserved
  · intro same
    rw [same] at value
    have byte : byte = 43 := UInt8.toNat_inj.mp value.symm
    subst byte
    cases unreserved
  · rw [utf8EncodeChar_ascii (by omega), value, UInt8.ofNat_toNat]

theorem urlDecode_cons (noEscape : c ≠ '%') : urlDecode (c :: rest) =
    if c = '+' then (urlDecode rest).map fun bytes => 32 :: bytes
    else (urlDecode rest).map fun bytes => String.utf8EncodeChar c ++ bytes := by
  rcases rest with _ | ⟨_, _ | ⟨_, _⟩⟩
  all_goals
    conv_lhs => unfold urlDecode
    rw [if_neg noEscape]

theorem percentDecode_cons (noEscape : c ≠ '%') :
    percentDecode (c :: rest) = String.utf8EncodeChar c ++ percentDecode rest := by
  rcases rest with _ | ⟨_, _ | ⟨_, _⟩⟩
  all_goals
    conv_lhs => unfold percentDecode
    rw [if_neg noEscape]

theorem urlDecode_byte (byte : UInt8) (rest : List Char) :
    urlDecode (urlencodeByte byte ++ rest) = (urlDecode rest).map fun bytes => byte :: bytes := by
  unfold urlencodeByte
  by_cases unreserved : isUnreserved byte = true
  · obtain ⟨noEscape, noSpace, encoded⟩ := charOfByte unreserved
    rw [if_pos unreserved, List.singleton_append, urlDecode_cons noEscape, if_neg noSpace, encoded]
    rfl
  · rw [if_neg unreserved]
    by_cases space : byte = 32
    · rw [if_pos space, List.singleton_append, urlDecode_cons (by decide), if_pos rfl, space]
    · obtain ⟨high, low, whole⟩ := hex_halves byte
      rw [if_neg space]
      simp only [List.cons_append, List.nil_append, urlDecode, if_true, hexValue_hexDigit high,
        hexValue_hexDigit low,
        whole]

theorem urlDecode_bytes (bytes : Bytes) : urlDecode (bytes.flatMap urlencodeByte) = some bytes := by
  induction bytes with
  | nil => rfl
  | cons _ _ ih => rw [List.flatMap_cons, urlDecode_byte, ih, Option.map_some]

theorem nioName_urlencode (name : String) :
    nioName (urlencode name) =
      some (String.ofList (takeUnits 255 (name.toList.map flattenChar))) := by
  rw [nioName, urlencode, String.toList_ofList, urlDecode_bytes, Option.bind_some, fromUtf8_utf8,
    Option.map_some]

theorem isPlain_ascii (ascii : c.toNat < 128) :
    isPlain c ↔ isUnreserved (UInt8.ofNat c.toNat) = true := by
  rw [isPlain, utf8EncodeChar_ascii ascii]
  simp

theorem isPlain.ascii (plain : isPlain c) : c.toNat < 128 := by
  by_contra high
  obtain ⟨byte, member⟩ := List.exists_mem_of_ne_nil _ (@String.utf8EncodeChar_ne_nil c)
  have low := isUnreserved_lt (plain byte member)
  have top := utf8EncodeChar_high (by omega) member
  omega

theorem charOfByte_ascii (ascii : c.toNat < 128) : Char.ofNat (UInt8.ofNat c.toNat).toNat = c := by
  rw [UInt8.toNat_ofNat', Nat.mod_eq_of_lt (by omega), Char.ofNat_toNat]

theorem isPlain.urlencodeChar (plain : isPlain c) : urlencodeChar c = [c] := by
  have unreserved := (isPlain_ascii plain.ascii).mp plain
  rw [Http.urlencodeChar, utf8EncodeChar_ascii plain.ascii, List.flatMap_singleton, urlencodeByte,
    if_pos unreserved,
    charOfByte_ascii plain.ascii]

theorem isPlain.ne (plain : isPlain c) : c ≠ '%' ∧ c ≠ ' ' ∧ c ≠ '/' ∧ c ≠ '\\' := by
  have unreserved := (isPlain_ascii plain.ascii).mp plain
  refine ⟨?_, ?_, ?_, ?_⟩ <;> rintro rfl <;> revert unreserved <;> decide

/-- Anything else is written as a plus sign or as escapes, without an underscore. -/
theorem urlencodeChar_reserved (reserved : ¬ isPlain c) : (c = ' ' ∧ urlencodeChar c = ['+']) ∨
    (3 ≤ (urlencodeChar c).length ∧ '_' ∉ urlencodeChar c) := by
  have escape (byte : UInt8) : '_' ∉ ['%', hexDigit (byte / 16), hexDigit (byte % 16)] := by
    obtain ⟨high, low, -⟩ := hex_halves byte
    simp [Ne.symm (hexDigit_ne_underscore high), Ne.symm (hexDigit_ne_underscore low)]
  by_cases ascii : c.toNat < 128
  · rw [isPlain_ascii ascii] at reserved
    rw [urlencodeChar, utf8EncodeChar_ascii ascii, List.flatMap_singleton, urlencodeByte,
      if_neg reserved]
    by_cases space : UInt8.ofNat c.toNat = 32
    · left
      have same := charOfByte_ascii ascii
      rw [space] at same
      exact ⟨same.symm, if_pos space⟩
    · right
      rw [if_neg space]
      exact ⟨Nat.le_refl 3, escape _⟩
  · right
    have written (byte : UInt8) (member : byte ∈ String.utf8EncodeChar c) :
        urlencodeByte byte = ['%', hexDigit (byte / 16), hexDigit (byte % 16)] := by
      have high := utf8EncodeChar_high (by omega) member
      have bare : ¬ isUnreserved byte = true := by
        intro unreserved
        have low := isUnreserved_lt unreserved
        omega
      have noSpace : byte ≠ 32 := by
        rintro rfl
        exact absurd high (by decide)
      rw [urlencodeByte, if_neg bare, if_neg noSpace]
    obtain ⟨first, _, all⟩ := List.exists_cons_of_ne_nil (@String.utf8EncodeChar_ne_nil c)
    constructor
    · rw [urlencodeChar, all, List.flatMap_cons, written first (by rw [all]; exact List.mem_cons_self),
        List.length_append]
      simp
    · rw [urlencodeChar, List.mem_flatMap]
      rintro ⟨byte, member, found⟩
      rw [written byte member] at found
      exact escape byte found

theorem flattenChar_plain (plain : isPlain c) : flattenChar c = c := by
  obtain ⟨-, -, noSlash, noBackslash⟩ := plain.ne
  rw [flattenChar, if_neg (by simp [noSlash, noBackslash])]

theorem count_urlencodeChar
    (c : Char) : (urlencodeChar c).count '_' ≤ [flattenChar c].count '_' := by
  by_cases plain : isPlain c
  · rw [plain.urlencodeChar, flattenChar_plain plain]
  · rcases urlencodeChar_reserved plain with ⟨rfl, plus⟩ | ⟨-, without⟩
    · rw [plus]
      decide
    · rw [List.count_eq_zero.mpr without]
      exact Nat.zero_le _

theorem count_urlencode (name : String) :
    (urlencode name).toList.count '_' ≤ (name.toList.map flattenChar).count '_' := by
  rw [toList_urlencode]
  induction name.toList with
  | nil => exact Nat.le_refl 0
  | cons c _ ih =>
    rw [List.flatMap_cons, List.count_append, List.map_cons, ← List.singleton_append, List.count_append]
    exact Nat.add_le_add (count_urlencodeChar c) ih

theorem one_le_length_urlencodeChar (c : Char) : 1 ≤ (urlencodeChar c).length := by
  by_cases plain : isPlain c
  · rw [plain.urlencodeChar]
    exact Nat.le_refl 1
  · rcases urlencodeChar_reserved plain with ⟨-, plus⟩ | ⟨_, -⟩
    · rw [plus]
      exact Nat.le_refl 1
    · omega

theorem length_le_urlencode
    (text : List Char) : text.length ≤ (text.flatMap urlencodeChar).length := by
  induction text with
  | nil => exact Nat.le_refl 0
  | cons c =>
    have one := one_le_length_urlencodeChar c
    rw [List.flatMap_cons, List.length_append, List.length_cons]
    omega

theorem plain_of_urlencode_eq {text : List Char}
    (same : text.flatMap urlencodeChar = text.map flattenChar) :
    ∀ c ∈ text, isPlain c := by
  induction text with
  | nil => exact fun c member => by cases member
  | cons c rest ih =>
    have lengths := congrArg List.length same
    have one := one_le_length_urlencodeChar c
    have long := length_le_urlencode rest
    rw [List.flatMap_cons, List.length_append, List.length_map, List.length_cons] at lengths
    obtain ⟨_, single⟩ := List.length_eq_one_iff.mp (show (urlencodeChar c).length = 1 by omega)
    rw [List.flatMap_cons, single, List.singleton_append, List.map_cons] at same
    obtain ⟨head, tail⟩ := List.cons.inj same
    have plain : isPlain c := by
      by_contra reserved
      rcases urlencodeChar_reserved reserved with ⟨rfl, plus⟩ | ⟨long, -⟩
      · rw [plus] at single
        rw [← (List.cons.inj single).1] at head
        exact absurd head (by decide)
      · rw [single] at long
        simp at long
    exact List.forall_mem_cons.mpr ⟨plain, ih tail⟩

theorem flatMap_plain {text : List Char} (plain : ∀ c ∈ text, isPlain c) :
    text.flatMap urlencodeChar = text := by
  induction text with
  | nil => rfl
  | cons c _ ih =>
    obtain ⟨first, later⟩ := List.forall_mem_cons.mp plain
    rw [List.flatMap_cons, first.urlencodeChar, ih later, List.singleton_append]

theorem map_flattenChar_plain {text : List Char} (plain : ∀ c ∈ text, isPlain c) :
    text.map flattenChar = text := by
  induction text with
  | nil => rfl
  | cons c _ ih =>
    obtain ⟨first, later⟩ := List.forall_mem_cons.mp plain
    rw [List.map_cons, flattenChar_plain first, ih later]

theorem urlencode_plain (plain : ∀ c ∈ name.toList, isPlain c) : urlencode name = name := by
  rw [← String.toList_inj, toList_urlencode, flatMap_plain plain]

theorem percentDecode_plain (plain : ∀ c ∈ text, isPlain c) :
    percentDecode text = text.flatMap String.utf8EncodeChar := by
  induction text with
  | nil => rfl
  | cons c _ ih =>
    obtain ⟨first, later⟩ := List.forall_mem_cons.mp plain
    rw [percentDecode_cons first.ne.1, ih later, List.flatMap_cons]

theorem removeParents_without (without : separator ∉ text) :
    removeParents separator text = text := by
  induction text using removeParents.induct separator with
  | case1 => exact absurd (by simp) without
  | case2 _ _ other ih =>
    rw [removeParents, if_neg other, ih fun member => without (List.mem_cons_of_mem _ member)]
  | case3 _ _ shape ih =>
    rw [removeParents.eq_2 _ _ _ shape, ih fun member => without (List.mem_cons_of_mem _ member)]
  | case4 => rfl

theorem androidName_plain (plain : ∀ c ∈ name.toList, isPlain c) : androidName name = name := by
  have noSlash : '/' ∉ name.toList := fun member => (plain _ member).ne.2.2.1 rfl
  have noBackslash : '\\' ∉ name.toList := fun member => (plain _ member).ne.2.2.2 rfl
  rw [androidName, percentDecode_plain plain, ← utf8_eq, fromUtf8_utf8, Option.getD_some,
    removeParents_without noSlash,
    removeParents_without noBackslash, map_flattenChar_plain plain, String.ofList_toList]

def units (c : Char) : Nat := if c.val < 0x10000 then 1 else 2

theorem takeUnits_all (fits : (text.map units).sum ≤ limit) :
    takeUnits limit text = text := by
  induction text generalizing limit with
  | nil => cases limit <;> rfl
  | cons c rest ih =>
    rw [List.map_cons, List.sum_cons, units] at fits
    by_cases small : c.val < 0x10000
    · rw [if_pos small] at fits
      obtain ⟨limit, rfl⟩ : ∃ left, limit = left + 1 := ⟨limit - 1, by omega⟩
      have taken : takeUnits (limit + 1) (c :: rest) = c :: takeUnits limit rest := by
        cases limit <;> simp only [takeUnits, if_pos small]
      rw [taken, ih (by omega)]
    · rw [if_neg small] at fits
      obtain ⟨limit, rfl⟩ : ∃ left, limit = left + 1 + 1 := ⟨limit - 2, by omega⟩
      simp only [takeUnits, if_neg small, ih (show (rest.map units).sum ≤ limit by omega)]

theorem units_flattenChar_le (c : Char) : units (flattenChar c) ≤ (urlencodeChar c).length := by
  have two (c : Char) : units c ≤ 2 := by
    unfold units
    split <;> omega
  by_cases plain : isPlain c
  · have ascii := plain.ascii
    have small : c.val < 0x10000 := by
      rw [UInt32.lt_iff_toNat_lt]
      have same : c.val.toNat = c.toNat := rfl
      rw [same]
      exact Nat.lt_trans ascii (by decide)
    rw [flattenChar_plain plain, units, if_pos small]
    exact one_le_length_urlencodeChar c
  · rcases urlencodeChar_reserved plain with ⟨rfl, plus⟩ | ⟨_, -⟩
    · rw [plus]
      decide
    · exact (two _).trans (by omega)

theorem length_le_utf8 (name : String) : name.toList.length ≤ (utf8 name).length := by
  rw [utf8_eq]
  induction name.toList with
  | nil => exact Nat.le_refl 0
  | cons c =>
    have some : 0 < (String.utf8EncodeChar c).length :=
      List.length_pos_iff.mpr String.utf8EncodeChar_ne_nil
    rw [List.flatMap_cons, List.length_append, List.length_cons]
    omega

theorem nioName_of_isFileName (valid : isFileName (urlencode name) = true) :
    nioName (urlencode name) = some (String.ofList (name.toList.map flattenChar)) := by
  have sum (text : List Char) :
      ((text.map flattenChar).map units).sum ≤ (text.flatMap urlencodeChar).length := by
    induction text with
    | nil => exact Nat.le_refl 0
    | cons c _ ih =>
      rw [List.map_cons, List.map_cons, List.sum_cons, List.flatMap_cons, List.length_append]
      exact Nat.add_le_add (units_flattenChar_le c) ih
  have short : (utf8 (urlencode name)).length ≤ 255 := by
    simp only [isFileName, Bool.and_eq_true, decide_eq_true_eq] at valid
    exact valid.2
  have bytes := length_le_utf8 (urlencode name)
  have whole := sum name.toList
  rw [toList_urlencode] at bytes
  rw [nioName_urlencode, takeUnits_all (by omega)]

theorem count_candidate (text : List Char) (counter : Nat) :
    text.count '_' + 1 ≤ (candidate text counter).count '_' := by
  unfold candidate
  split
  · rename_i dot _
    have parts : text.count '_' = (text.take dot).count '_' + (text.drop dot).count '_' := by
      rw [← List.count_append, List.take_append_drop]
    simp only [List.count_append, List.count_cons_self]
    omega
  · simp only [List.count_append, List.count_cons_self]
    omega

theorem firstFree_cases
    (free : firstFree folder text tries counter = some chosen) :
    ∃ number, chosen = String.ofList (candidate text number) := by
  induction tries generalizing counter with
  | zero => cases free
  | succ _ ih =>
    simp only [firstFree] at free
    split at free
    · exact ih free
    · exact ⟨counter, (Option.some.inj free).symm⟩

theorem resolveOutputFile_cases (resolved : resolveOutputFile folder name = some chosen) :
    (folder.contains name = false ∧ chosen = name) ∨
      ∃ number, chosen = String.ofList (candidate name.toList number) := by
  unfold resolveOutputFile at resolved
  split at resolved
  · exact .inr (firstFree_cases resolved)
  · rename_i absent
    exact .inl ⟨by simpa using absent, (Option.some.inj resolved).symm⟩

theorem plain_of_resolved {base : String} (valid : isFileName (urlencode name) = true)
    (decoded : nioName (urlencode name) = some base)
    (resolved : resolveOutputFile folder base = some (urlencode name)) :
    (∀ c ∈ name.toList, isPlain c) ∧ folder.contains name = false := by
  rw [nioName_of_isFileName valid] at decoded
  obtain rfl := Option.some.inj decoded
  rcases resolveOutputFile_cases resolved with ⟨absent, same⟩ | ⟨number, same⟩
  · have plain : ∀ c ∈ name.toList, isPlain c := by
      apply plain_of_urlencode_eq
      rw [← toList_urlencode, same, String.toList_ofList]
    rw [map_flattenChar_plain plain, String.ofList_toList] at absent
    exact ⟨plain, absent⟩
  · have fewer := count_urlencode name
    have more := count_candidate (name.toList.map flattenChar) number
    rw [same, String.toList_ofList, String.toList_ofList] at fewer
    omega

end DistributedOs.Http