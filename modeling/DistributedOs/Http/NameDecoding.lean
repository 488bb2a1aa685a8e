import DistributedOs.Http.Containment
import DistributedOs.Http.Names

/-! The decoders for what `urlencode` writes: the dashboard's one for query parameters, its use of
the `X-Filename` header, and the Android agent's reading of that header. -/

namespace DistributedOs.Http

open Semantics Reliable

/-- A name without control characters and path separators. -/
structure FileName where
  text : String
  noControl : ∀ c ∈ text.toList, 32 ≤ c.toNat ∧ ¬ (127 ≤ c.toNat ∧ c.toNat < 160)
  noSeparator : ∀ c ∈ text.toList, c ≠ '/' ∧ c ≠ '\\'

namespace Dashboard

def parseQueryParam (query key : List Char) : Option (List Char) :=
  (query.splitOn '&').findSome? fun pair =>
    match pair.dropWhile (· ≠ '=') with
    | [] => none
    | _ :: value => if pair.takeWhile (· ≠ '=') = key then some value else none

/-- `u8::from_str_radix` of two characters, which takes a plus sign before a digit. -/
def fromStrRadix (h1 h2 : Char) : Option UInt8 :=
  if h1 = '+' then hexValue h2
  else
    match hexValue h1, hexValue h2 with
    | some high, some low => some (high * 16 + low)
    | _, _ => none

/-- What an escape adds: the character of its number, if it is one. -/
def unescape (h1 h2 : Char) : List Char :=
  ((fromStrRadix h1 h2).map fun byte => Char.ofNat byte.toNat).toList

def urlDecode : List Char → List Char
  | [] => []
  | c :: rest =>
    if c = '%' then
      match rest with
      | h1 :: h2 :: later => unescape h1 h2 ++ urlDecode later
      | [h1] => unescape h1 '0'
      | [] => unescape '0' '0'
    else (if c = '+' then ' ' else c) :: urlDecode rest

def listQuery (path : String) : List Char := "path=".toList ++ (urlencode path).toList

def listedPath (query : List Char) : String :=
  String.ofList (urlDecode ((parseQueryParam query "path".toList).getD "/".toList))

end Dashboard

structure Host where
  text : String
  oneLine : '\n' ∉ text.toList

def headLine (line : String) : List Char := line.toList ++ "\r\n".toList

def uploadHead (host : Host) (port : UInt16) (name later : String) : String :=
  String.ofList (headLine "POST /api/receive-file HTTP/1.1" ++
    (headLine ("Host: " ++ host.text ++ ":" ++ toString port.toNat) ++
      (headLine "Content-Type: application/octet-stream" ++
        (headLine ("X-Filename: " ++ urlencode name) ++ later.toList))))

/-- Each decoder gives the name back. -/
structure GivenBack (host : Host) (port : UInt16) (later : String) (timestamp : Nat)
    (name : String) : Prop where
  query : Dashboard.listedPath (Dashboard.listQuery name) = name
  header : Containment.tmpFilename (uploadHead host port name later) timestamp = name
  agent : androidName (urlencode name) = name

/-- Nothing that a line, a header or a query is split at. -/
def isEncoded (c : Char) : Bool := (c ≠ ':' && c ≠ '&' && c ≠ '=') && !Containment.isWhitespace c

theorem isEncoded_urlencodeByte (byte : UInt8) : ∀ c ∈ urlencodeByte byte, isEncoded c = true := by
  have all : ∀ value < 256, (urlencodeByte (UInt8.ofNat value)).all isEncoded = true := by decide +kernel
  have this := all byte.toNat byte.toNat_lt
  rw [UInt8.ofNat_toNat] at this
  exact List.all_eq_true.mp this

theorem isEncoded_urlencode
    (name : String) : ∀ c ∈ (urlencode name).toList, isEncoded c = true := by
  intro c member
  rw [urlencode, String.toList_ofList] at member
  obtain ⟨byte, _, among⟩ := List.mem_flatMap.mp member
  exact isEncoded_urlencodeByte byte c among

namespace Dashboard

theorem urlDecode_cons (noEscape : c ≠ '%') (rest : List Char) :
    urlDecode (c :: rest) = (if c = '+' then ' ' else c) :: urlDecode rest := by
  rcases rest with _ | ⟨_, _ | ⟨_, _⟩⟩
  all_goals
    conv_lhs => unfold urlDecode
    rw [if_neg noEscape]

theorem unescape_hexDigit (byte : UInt8) :
    unescape (hexDigit (byte / 16)) (hexDigit (byte % 16)) = [Char.ofNat byte.toNat] := by
  obtain ⟨high, low, whole⟩ := hex_halves byte
  have noSign : hexDigit (byte / 16) ≠ '+' := by
    intro same
    have value := hexValue_hexDigit high
    rw [same] at value
    cases value
  rw [unescape, fromStrRadix, if_neg noSign, hexValue_hexDigit high, hexValue_hexDigit low]
  simp only [whole, Option.map_some, Option.toList_some]

theorem urlDecode_byte (byte : UInt8) (rest : List Char) :
    urlDecode (urlencodeByte byte ++ rest) = Char.ofNat byte.toNat :: urlDecode rest := by
  unfold urlencodeByte
  by_cases unreserved : isUnreserved byte = true
  · obtain ⟨noEscape, noSpace, _⟩ := charOfByte unreserved
    rw [if_pos unreserved, List.singleton_append, urlDecode_cons noEscape, if_neg noSpace]
  · rw [if_neg unreserved]
    by_cases space : byte = 32
    · rw [if_pos space, List.singleton_append, urlDecode_cons (by decide), space]
      rfl
    · rw [if_neg space, List.cons_append, List.cons_append, List.cons_append, List.nil_append, urlDecode,
        if_pos rfl, unescape_hexDigit]
      rfl

theorem urlDecode_urlencode (name : String) :
    urlDecode (urlencode name).toList = (utf8 name).map fun byte => Char.ofNat byte.toNat := by
  rw [urlencode, String.toList_ofList]
  induction utf8 name with
  | nil => rfl
  | cons _ _ ih => rw [List.flatMap_cons, urlDecode_byte, ih, List.map_cons]

theorem parseQueryParam_listQuery (path : String) :
    parseQueryParam (listQuery path) "path".toList = some (urlencode path).toList := by
  have single : '&' ∉ listQuery path := by
    intro member
    rcases List.mem_append.mp member with key | value
    · exact absurd key (by decide)
    · exact absurd (isEncoded_urlencode path _ value) (by decide)
  rw [parseQueryParam, List.splitOn_eq_singleton single]
  simp [listQuery]

theorem length_utf8_eq_iff (text : List Char) :
    (text.flatMap String.utf8EncodeChar).length = text.length ↔ ∀ c ∈ text, c.toNat < 128 := by
  have longer (c : Char) : 1 ≤ (String.utf8EncodeChar c).length := (encoded c).length_pos
  have total (text : List Char) : text.length ≤ (text.flatMap String.utf8EncodeChar).length := by
    induction text with
    | nil => exact Nat.le_refl 0
    | cons c =>
      have one := longer c
      rw [List.flatMap_cons, List.length_append, List.length_cons]
      omega
  have single (c : Char) : (String.utf8EncodeChar c).length = 1 ↔ c.toNat < 128 := by
    have value : c.val.toNat = c.toNat := rfl
    constructor
    · intro one
      by_contra high
      simp only [String.utf8EncodeChar] at one
      rw [if_neg (by omega)] at one
      split at one
      · cases one
      · split at one <;> cases one
    · intro ascii
      rw [utf8EncodeChar_ascii ascii]
      rfl
  induction text with
  | nil => simp
  | cons c rest ih =>
    have one := longer c
    have others := total rest
    rw [List.flatMap_cons, List.length_append, List.length_cons, List.forall_mem_cons]
    constructor
    · intro _
      exact ⟨(single c).mp (by omega), ih.mp (by omega)⟩
    · intro ⟨first, later⟩
      rw [(single c).mpr first, ih.mpr later, Nat.add_comm]

theorem map_ascii {text : List Char} (ascii : ∀ c ∈ text, c.toNat < 128) :
    (text.flatMap String.utf8EncodeChar).map (fun byte => Char.ofNat byte.toNat) = text := by
  induction text with
  | nil => rfl
  | cons c _ ih =>
    rw [List.forall_mem_cons] at ascii
    rw [List.flatMap_cons, utf8EncodeChar_ascii ascii.1, List.singleton_append, List.map_cons,
      charOfByte_ascii ascii.1,
      ih ascii.2]

theorem listedPath_iff (path : String) : listedPath (listQuery path) = path ↔
      ∀ c ∈ path.toList, c.toNat < 128 := by
  rw [listedPath, parseQueryParam_listQuery, Option.getD_some, urlDecode_urlencode,
    ← String.toList_inj, String.toList_ofList,
    utf8_eq]
  constructor
  · intro same
    have lengths := congrArg List.length same
    rw [List.length_map] at lengths
    exact (length_utf8_eq_iff path.toList).mp lengths
  · exact map_ascii

end Dashboard

theorem splitOn_headLine (oneLine : '\n' ∉ line.toList) (rest : List Char) :
    (headLine line ++ rest).splitOn '\n' = (line.toList ++ ['\r']) :: rest.splitOn '\n' := by
  have split : headLine line ++ rest = (line.toList ++ ['\r']) ++ '\n' :: rest := by simp [headLine]
  rw [split, List.splitOn_append_cons_self_of_not_mem]
  rw [List.mem_append, not_or]
  exact ⟨oneLine, by decide⟩

theorem dropWhile_encoded {text : List Char} (encoded : ∀ c ∈ text, isEncoded c = true) :
    text.dropWhile Containment.isWhitespace = text := by
  cases text with
  | nil => rfl
  | cons c =>
    have first := encoded c List.mem_cons_self
    rw [isEncoded, Bool.and_eq_true, Bool.not_eq_true'] at first
    rw [List.dropWhile_cons, first.2]
    rfl

theorem trim_encoded {text : List Char} (encoded : ∀ c ∈ text, isEncoded c = true) :
    Containment.trim (' ' :: (text ++ ['\r'])) = text := by
  have back : (text.reverse).dropWhile Containment.isWhitespace = text.reverse :=
    dropWhile_encoded fun c member => encoded c (List.mem_reverse.mp member)
  have blank : Containment.isWhitespace ' ' = true := rfl
  have carriage : Containment.isWhitespace '\r' = true := rfl
  rw [Containment.trim, List.dropWhile_cons_of_pos blank]
  cases text with
  | nil => rfl
  | cons c rest =>
    have first := dropWhile_encoded encoded
    have stays : (c :: rest ++ ['\r']).dropWhile Containment.isWhitespace = c :: rest ++ ['\r'] := by
      rw [List.dropWhile_append, first]
      rfl
    rw [stays, List.reverse_append, List.reverse_singleton, List.singleton_append,
      List.dropWhile_cons_of_pos carriage, back,
      List.reverse_reverse]

theorem oneLine_port (port : UInt16) : '\n' ∉ (toString port.toNat).toList := by
  intro member
  have digits : (toString port.toNat).toList = Nat.toDigits 10 port.toNat := by
    rw [Nat.toString_eq_repr, Nat.toList_repr]
  rw [digits] at member
  exact absurd (Nat.isDigit_of_mem_toDigits (by decide) (by decide) member) (by decide)

theorem splitOn_uploadHead (host : Host) (port : UInt16) (name later : String) :
    (uploadHead host port name later).toList.splitOn '\n' =
      ("POST /api/receive-file HTTP/1.1".toList ++ ['\r']) ::
        (("Host: " ++ host.text ++ ":" ++ toString port.toNat).toList ++ ['\r']) ::
          ("Content-Type: application/octet-stream".toList ++ ['\r']) ::
            (("X-Filename: " ++ urlencode name).toList ++ ['\r']) :: later.toList.splitOn '\n' := by
  have hostLine : '\n' ∉ ("Host: " ++ host.text ++ ":" ++ toString port.toNat).toList := by
    simp only [String.toList_append, List.mem_append, not_or]
    exact ⟨⟨⟨by decide, host.oneLine⟩, by decide⟩, oneLine_port port⟩
  have nameLine : '\n' ∉ ("X-Filename: " ++ urlencode name).toList := by
    rw [String.toList_append, List.mem_append, not_or]
    exact ⟨by decide, fun member => absurd (isEncoded_urlencode name _ member) (by decide)⟩
  rw [uploadHead, String.toList_ofList, splitOn_headLine (by decide), splitOn_headLine hostLine,
    splitOn_headLine (by decide), splitOn_headLine nameLine]

theorem xFilename_uploadHead (host : Host) (port : UInt16) (name later : String) :
    Containment.xFilename (uploadHead host port name later) = some (urlencode name) := by
  have colon : ':' ∉ ' ' :: ((urlencode name).toList ++ ['\r']) := by
    rw [List.mem_cons, List.mem_append, not_or, not_or]
    exact ⟨by decide, fun member => absurd (isEncoded_urlencode name _ member) (by decide), by decide⟩
  have line : ("X-Filename: " ++ urlencode name).toList ++ ['\r'] =
      "X-Filename".toList ++ ':' :: ' ' :: ((urlencode name).toList ++ ['\r']) := by
    rw [String.toList_append, List.append_assoc]
    rfl
  have value : (("X-Filename: " ++ urlencode name).toList ++ ['\r']).splitOn ':' =
      ["X-Filename".toList, ' ' :: ((urlencode name).toList ++ ['\r'])] := by
    rw [line, List.splitOn_append_cons_self_of_not_mem (by decide), List.splitOn_eq_singleton colon]
  obtain ⟨hostRest, hostLine⟩ :
      ∃ rest, ("Host: " ++ host.text ++ ":" ++ toString port.toNat).toList ++ ['\r'] = 'H' :: rest := by
    simp only [String.toList_append, List.append_assoc]
    exact ⟨_, rfl⟩
  have otherHost : ¬ (('H' :: hostRest).take "x-filename:".toList.length).map Char.toLower =
      "x-filename:".toList := by
    intro same
    exact absurd (List.cons.inj same).1 (by decide)
  have found : (("X-Filename: " ++ urlencode name).toList ++ ['\r']).take "x-filename:".toList.length =
      "X-Filename:".toList := by
    rw [line]
    rfl
  have named : ("X-Filename:".toList.map Char.toLower = "x-filename:".toList) := by decide
  rw [Containment.xFilename, splitOn_uploadHead, hostLine]
  rw [List.find?_cons_of_neg (by decide),
    List.find?_cons_of_neg (by exact fun chosen => otherHost (of_decide_eq_true chosen)),
    List.find?_cons_of_neg (by decide), List.find?_cons_of_pos
      (by rw [found]; exact decide_eq_true named),
      Option.bind_some, value, List.getElem?_cons_succ, List.getElem?_cons_zero, Option.map_some,
      trim_encoded (isEncoded_urlencode name), String.ofList_toList]

theorem map_flattenChar_name
    (name : FileName) : name.text.toList.map flattenChar = name.text.toList := by
  have kept : ∀ c ∈ name.text.toList, flattenChar c = id c := fun c member =>
    if_neg (not_or.mpr (name.noSeparator c member))
  rw [List.map_congr_left kept, List.map_id]

theorem tmpFilename_iff (host : Host) (port : UInt16) (name : FileName) (later : String)
    (timestamp : Nat) :
    Containment.tmpFilename (uploadHead host port name.text later) timestamp = name.text ↔
      ∀ c ∈ name.text.toList, isPlain c := by
  rw [Containment.tmpFilename, xFilename_uploadHead, Option.getD_some]
  constructor
  · intro same
    apply plain_of_urlencode_eq
    rw [← toList_urlencode, same, map_flattenChar_name]
  · exact urlencode_plain

theorem percentDecode_byte (byte : UInt8) (rest : List Char) :
    percentDecode (urlencodeByte byte ++ rest) = (if byte = 32 then 43 else byte) ::
      percentDecode rest := by
  unfold urlencodeByte
  by_cases unreserved : isUnreserved byte = true
  · obtain ⟨noEscape, _, encoded⟩ := charOfByte unreserved
    have noSpace : byte ≠ 32 := by
      rintro rfl
      cases unreserved
    rw [if_pos unreserved, List.singleton_append, percentDecode_cons noEscape, encoded, if_neg noSpace]
    rfl
  · rw [if_neg unreserved]
    by_cases space : byte = 32
    · rw [if_pos space, if_pos space, List.singleton_append, percentDecode_cons (by decide)]
      rfl
    · obtain ⟨high, low, whole⟩ := hex_halves byte
      rw [if_neg space, if_neg space, List.cons_append, List.cons_append, List.cons_append,
        List.nil_append, percentDecode,
        if_pos rfl, hexValue_hexDigit high, hexValue_hexDigit low]
      dsimp only
      rw [whole]

/-- The name with a plus sign for each space. -/
def spaced (name : String) : String :=
  String.ofList (name.toList.map fun c => if c = ' ' then '+' else c)

theorem utf8_spaced (name : String) : utf8 (spaced name) = (utf8 name).map fun byte =>
      if byte = 32 then 43 else byte := by
  rw [utf8_eq, utf8_eq, spaced, String.toList_ofList, List.map_flatMap, List.flatMap_map]
  apply List.flatMap_congr
  intro c _
  by_cases space : c = ' '
  · rw [if_pos space, space]
    rfl
  · have kept : ∀ byte ∈ String.utf8EncodeChar c, (if byte = 32 then 43 else byte) = id byte := by
      intro _ member
      apply if_neg
      rintro rfl
      by_cases ascii : c.toNat < 128
      · rw [utf8EncodeChar_ascii ascii, List.mem_singleton] at member
        have same := charOfByte_ascii ascii
        rw [← member] at same
        exact space same.symm
      · exact absurd (utf8EncodeChar_high (Nat.le_of_not_lt ascii) member) (by decide)
    rw [if_neg space, List.map_congr_left kept, List.map_id]

theorem androidName_urlencode
    (name : FileName) : androidName (urlencode name.text) = spaced name.text := by
  have decoded : percentDecode (urlencode name.text).toList = utf8 (spaced name.text) := by
    rw [utf8_spaced, urlencode, String.toList_ofList]
    induction utf8 name.text with
    | nil => rfl
    | cons _ _ ih => rw [List.flatMap_cons, percentDecode_byte, ih, List.map_cons]
  have whole : ∀ c ∈ (spaced name.text).toList, c ≠ '/' ∧ c ≠ '\\' := by
    intro c member
    rw [spaced, String.toList_ofList] at member
    obtain ⟨original, among, rfl⟩ := List.mem_map.mp member
    split
    · exact ⟨by decide, by decide⟩
    · exact name.noSeparator original among
  have kept : ∀ c ∈ (spaced name.text).toList, flattenChar c = id c := fun c member =>
    if_neg (not_or.mpr (whole c member))
  rw [androidName, decoded, fromUtf8_utf8, Option.getD_some, removeParents_without fun member =>
    (whole _ member).1 rfl,
    removeParents_without fun member => (whole _ member).2 rfl, List.map_congr_left kept,
    List.map_id, String.ofList_toList]

theorem androidName_iff (name : FileName) : androidName (urlencode name.text) = name.text ↔
      ' ' ∉ name.text.toList := by
  rw [androidName_urlencode, ← String.toList_inj, spaced, String.toList_ofList]
  induction name.text.toList with
  | nil => simp
  | cons c _ ih =>
    rw [List.map_cons, List.cons.injEq, ih, List.mem_cons, not_or]
    refine and_congr_left fun _ => ?_
    by_cases space : c = ' '
    · rw [if_pos space, space]
      exact iff_of_false (by decide) fun other => other rfl
    · rw [if_neg space]
      exact iff_of_true rfl fun same => space same.symm

theorem givenBack_iff (host : Host) (port : UInt16) (later : String) (timestamp : Nat)
    (name : FileName) :
    GivenBack host port later timestamp name.text ↔ ∀ c ∈ name.text.toList, isPlain c := by
  constructor
  · exact fun back => (tmpFilename_iff host port name later timestamp).mp back.header
  · intro plain
    refine ⟨(Dashboard.listedPath_iff _).mpr fun c member => (plain c member).ascii,
      (tmpFilename_iff host port name later timestamp).mpr plain, (androidName_iff name).mpr ?_⟩
    exact fun member => (plain _ member).ne.2.1 rfl

/-- `my photo.jpg` -/
def photo : FileName where
  text := "my photo.jpg"
  noControl := by
    have all : "my photo.jpg".toList.all (fun c => 32 ≤ c.toNat && c.toNat < 127) = true := by decide
    intro c member
    have plain := List.all_eq_true.mp all c member
    simp only [Bool.and_eq_true, decide_eq_true_eq] at plain
    omega
  noSeparator := by
    have all : "my photo.jpg".toList.all (fun c => c ≠ '/' && c ≠ '\\') = true := by decide
    intro c member
    simpa using List.all_eq_true.mp all c member

theorem not_givenBack_photo : ¬ GivenBack ⟨"10.0.0.1", by decide⟩ 8080 "" 0 photo.text := by
  intro back
  exact (androidName_iff photo).mp back.agent (by decide)

end DistributedOs.Http
