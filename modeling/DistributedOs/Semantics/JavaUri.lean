import DistributedOs.Semantics.JavaText

/-! What `java.net.URI` makes of a text, up to the host and the port. Beside the characters of the
grammar it takes every unit beyond ASCII that is neither a space nor a control character. -/

namespace DistributedOs.Semantics.Java.Uri

def isDigit (u : UInt16) : Bool := 48 ≤ u.toNat && u.toNat ≤ 57

def isAlpha (u : UInt16) : Bool := (97 ≤ u.toNat && u.toNat ≤ 122) || (65 ≤ u.toNat && u.toNat ≤ 90)

def isHex (u : UInt16) : Bool :=
  isDigit u || (97 ≤ u.toNat && u.toNat ≤ 102) || (65 ≤ u.toNat && u.toNat ≤ 70)

def isUnreserved (u : UInt16) : Bool := isAlpha u || isDigit u || (text "_-!.~'()*").contains u

/-- The units of a path that stand for themselves. -/
def isPath (u : UInt16) : Bool := isUnreserved u || (text ":@&=+$,;/").contains u

/-- Those of a query or a fragment. -/
def isUric (u : UInt16) : Bool := isUnreserved u || (text ";/?:@&=+$,[]").contains u

/-- `Character.isSpaceChar`, beyond ASCII. -/
def isSpaceChar (code : Nat) : Bool :=
  code = 0xA0 || code = 0x1680 || (0x2000 ≤ code && code ≤ 0x200A) || code = 0x2028 ||
  code = 0x2029 || code = 0x202F ||
    code = 0x205F || code = 0x3000

/-- Beyond ASCII and visible. -/
def isOther (u : UInt16) : Bool := 128 < u.toNat && !isSpaceChar u.toNat && !(u.toNat ≤ 0x9F)

/-- `checkChars`, for a part in which escapes are allowed too. -/
def checkChars (allows : UInt16 → Bool) : Text → Bool
  | [] => true
  | u :: rest =>
    if allows u then checkChars allows rest
    else if u = unit '%' then
      match rest with
      | high :: low :: later => isHex high && isHex low && checkChars allows later
      | _ => false
    else isOther u && checkChars allows rest

def parseFragment (input : Text) : Bool := checkChars isUric input

def isQueryUnit (u : UInt16) : Bool := u ≠ unit '#'

def afterQuery : Text → Bool
  | [] => true
  | _ :: fragment => parseFragment fragment

def parseQuery (input : Text) : Bool :=
  checkChars isUric (input.takeWhile isQueryUnit) && afterQuery (input.dropWhile isQueryUnit)

def isPathUnit (u : UInt16) : Bool := u ≠ unit '?' && u ≠ unit '#'

def afterPath : Text → Bool
  | [] => true
  | u :: rest => if u = unit '?' then parseQuery rest else parseFragment rest

/-- The path, the query and the fragment hold what they may hold. -/
def parsePath (input : Text) : Bool :=
  checkChars isPath (input.takeWhile isPathUnit) && afterPath (input.dropWhile isPathUnit)

/-- What stands between the slashes and the path. -/
structure Authority where
  host : Option Text
  port : Option Nat
  deriving DecidableEq

def scanByte (input : Text) : Option (Text × Text) :=
  let digits := input.takeWhile isDigit
  if digits ≠ [] ∧ decimalValue digits ≤ 255 then some (digits, input.dropWhile isDigit) else none

/-- Four numbers with dots between them, and what follows. -/
def scanIPv4Address : Nat → Text → Option (Text × Text)
  | 0, _ => none
  | 1, input => scanByte input
  | count + 1, input => do
    let (digits, rest) ← scanByte input
    match rest with
    | [] => none
    | u :: rest =>
      if u = unit '.' then
        let (address, rest) ← scanIPv4Address count rest
        some (digits ++ unit '.' :: address, rest)
      else none

section
variable (otherAuthority : Text → Option Authority)

/-- An address with a port; the other forms are left to a parameter. -/
def parseAuthority (input : Text) : Option Authority :=
  match scanIPv4Address 4 input with
  | some (address, u :: port) =>
    if u = unit ':' ∧ port ≠ [] ∧ port.all isDigit ∧ decimalValue port < 2 ^ 31 then
      some { host := some address, port := some (decimalValue port) }
    else otherAuthority input
  | _ => otherAuthority input

def isAuthorityUnit (u : UInt16) : Bool := u ≠ unit '/' && u ≠ unit '?' && u ≠ unit '#'

def parseHierarchical (input : Text) : Option Authority :=
  if input.take 2 = text "//" then
    let rest := (input.drop 2).dropWhile isAuthorityUnit
    match (input.drop 2).takeWhile isAuthorityUnit with
    | [] => if rest ≠ [] ∧ parsePath rest then some { host := none, port := none } else none
    | authority => if parsePath rest then parseAuthority otherAuthority authority else none
  else if parsePath input then some { host := none, port := none } else none

/-- After the colon of the scheme. -/
def parseSpecific (input : Text) : Option Authority :=
  if input.head? = some (unit '/') then parseHierarchical otherAuthority input
  else if input.takeWhile isQueryUnit ≠ [] ∧ parseQuery input then some { host := none, port := none }
  else none

def isScheme : Text → Bool
  | [] => false
  | u :: rest => isAlpha u && rest.all fun u => isAlpha u || isDigit u || (text "+-.").contains u

def isSchemeUnit (u : UInt16) : Bool := isAuthorityUnit u && u ≠ unit ':'

/-- `URI(text)`, none if it throws. -/
def parse (input : Text) : Option Authority :=
  let scheme := input.takeWhile isSchemeUnit
  match input.dropWhile isSchemeUnit with
  | [] => parseHierarchical otherAuthority input
  | u :: rest =>
    if u = unit ':' then if isScheme scheme then parseSpecific otherAuthority rest else none
    else parseHierarchical otherAuthority input

end

inductive Part where
  | path
  | query
  | fragment

namespace Part

/-- The part that begins with this character, in the midst of another. -/
def next : Part → Char → Option Part
  | .path, '?' => some .query
  | .path, '#' => some .fragment
  | .query, '#' => some .fragment
  | _, _ => none

def marks : Part → String
  | .path => ":@&=+$,;/"
  | .query => ";/?:@&=+$,[]"
  | .fragment => ";/?:@&=+$,[]"

end Part

def isHexDigit (c : Char) : Bool :=
  c.isDigit || (97 ≤ c.toNat && c.toNat ≤ 102) || (65 ≤ c.toNat && c.toNat ≤ 70)

/-- Beyond ASCII, and neither a space nor a control character. -/
def isVisible (c : Char) : Bool := 0x9F < c.toNat && !isSpaceChar c.toNat

def Part.admits (part : Part) (c : Char) : Bool :=
  c.isAlphanum || "_-!.~'()*".toList.contains c || part.marks.toList.contains c || isVisible c

/-- The rest of a URI, read once. -/
def legal : Part → List Char → Bool
  | _, [] => true
  | part, c :: rest =>
    if c = '%' then
      match rest with
      | high :: low :: later => isHexDigit high && isHexDigit low && legal part later
      | _ => false
    else
      match part.next c with
      | some later => legal later rest
      | none => part.admits c && legal part rest

namespace Part

def allows : Part → UInt16 → Bool
  | .path => isPath
  | .query => isUric
  | .fragment => isUric

def keeps : Part → UInt16 → Bool
  | .path => isPathUnit
  | .query => isQueryUnit
  | .fragment => fun _ => true

def after : Part → Text → Bool
  | .path => afterPath
  | .query => afterQuery
  | .fragment => fun _ => true

def parse (part : Part) (input : Text) : Bool :=
  checkChars part.allows (input.takeWhile part.keeps) && part.after (input.dropWhile part.keeps)

end Part

variable {part : Part} {u high low : UInt16} {c : Char} {input rest : Text} {chars : List Char}

theorem parsePath_eq (input : Text) : parsePath input = Part.path.parse input := rfl

theorem parseFragment_eq (input : Text) : parseFragment input = Part.fragment.parse input := by
  have all : input.takeWhile Part.fragment.keeps = input := by
    induction input with
    | nil => rfl
    | cons u _ ih => rw [List.takeWhile_cons_of_pos rfl, ih]
  rw [Part.parse, all]
  exact (Bool.and_true _).symm

/-! One unit of a part at a time. -/

section
variable {allows : UInt16 → Bool}

theorem checkChars_allowed (allowed : allows u = true) :
    checkChars allows (u :: rest) = checkChars allows rest := by
  rw [checkChars.eq_def]
  exact if_pos allowed

theorem checkChars_other (refused : allows u = false) (plain : u ≠ unit '%') :
    checkChars allows (u :: rest) = (isOther u && checkChars allows rest) := by
  rw [checkChars.eq_def]
  simp [refused, plain]

theorem checkChars_escape (refused : allows (unit '%') = false) :
    checkChars allows (unit '%' :: high :: low :: rest) =
      (isHex high && isHex low && checkChars allows rest) := by
  rw [checkChars.eq_def]
  simp [refused]

theorem checkChars_short (refused : allows (unit '%') = false) (short : rest.length < 2) :
    checkChars allows (unit '%' :: rest) = false := by
  match rest with
  | [] => simp [checkChars, refused]
  | [u] => simp [checkChars, refused]
  | high :: low :: rest =>
    simp only [List.length_cons] at short
    omega

end

theorem parse_nil (part : Part) : part.parse [] = true := by
  cases part <;> rfl

theorem parse_allowed (keeps : part.keeps u = true) (allows : part.allows u = true) :
    part.parse (u :: rest) = part.parse rest := by
  rw [Part.parse, List.takeWhile_cons_of_pos keeps, List.dropWhile_cons_of_pos keeps,
    checkChars_allowed allows]
  rfl

theorem parse_other (keeps : part.keeps u = true) (refused : part.allows u = false)
    (plain : u ≠ unit '%') :
    part.parse (u :: rest) = (isOther u && part.parse rest) := by
  rw [Part.parse, List.takeWhile_cons_of_pos keeps, List.dropWhile_cons_of_pos keeps,
    checkChars_other refused plain, Bool.and_assoc]
  rfl

theorem keeps_of_isHex (hex : isHex u = true) : part.keeps u = true := by
  have different (v : UInt16) (other : isHex v = false) : u ≠ v := by
    rintro rfl
    rw [hex] at other
    cases other
  cases part with
  | path => simp [Part.keeps, isPathUnit, different (unit '?') rfl, different (unit '#') rfl]
  | query => simp [Part.keeps, isQueryUnit, different (unit '#') rfl]
  | fragment => rfl

theorem percent_spec (part : Part) :
    part.keeps (unit '%') = true ∧ part.allows (unit '%') = false := by
  cases part <;> exact ⟨rfl, rfl⟩

theorem parse_percent_short (part : Part) (short : rest.length < 2) :
    part.parse (unit '%' :: rest) = false := by
  obtain ⟨keeps, refused⟩ := percent_spec part
  have shorter := (List.takeWhile_prefix part.keeps (l := rest)).length_le
  rw [Part.parse, List.takeWhile_cons_of_pos keeps, checkChars_short refused (by omega)]
  rfl

theorem parse_escape (part : Part) (rest : Text) :
    part.parse (unit '%' :: high :: low :: rest) =
      (isHex high && isHex low && part.parse rest) := by
  obtain ⟨keeps, refused⟩ := percent_spec part
  rw [Part.parse, List.takeWhile_cons_of_pos keeps, List.dropWhile_cons_of_pos keeps]
  by_cases first : part.keeps high = true
  · rw [List.takeWhile_cons_of_pos first, List.dropWhile_cons_of_pos first]
    by_cases second : part.keeps low = true
    · rw [List.takeWhile_cons_of_pos second, List.dropWhile_cons_of_pos second,
        checkChars_escape refused, Bool.and_assoc]
      rfl
    · have noHex : isHex low = false := by simpa using mt keeps_of_isHex second
      rw [List.takeWhile_cons_of_neg second, checkChars_short refused (by simp), noHex]
      simp
  · have noHex : isHex high = false := by simpa using mt keeps_of_isHex first
    rw [List.takeWhile_cons_of_neg first, checkChars_short refused (by decide), noHex]
    simp

/-! One character of a part at a time. -/

theorem isAlpha_unit (basic : c.toNat < 0x10000) : isAlpha (unit c) = c.isAlpha := by
  rw [isAlpha, toNat_unit basic, Bool.or_comm]
  have letters : c.isAlpha = (decide (c.val ≥ 65 ∧ c.val ≤ 90) || decide (c.val ≥ 97) &&
      decide (c.val ≤ 122)) := rfl
  simp [letters, UInt32.le_iff_toNat_le]

theorem isDigit_unit (basic : c.toNat < 0x10000) : isDigit (unit c) = c.isDigit := by
  rw [isDigit, toNat_unit basic]
  simp [Char.isDigit, UInt32.le_iff_toNat_le]

theorem isHex_unit (basic : c.toNat < 0x10000) : isHex (unit c) = isHexDigit c := by
  rw [isHex, isDigit_unit basic, toNat_unit basic]
  rfl

theorem contains_unit (basic : c.toNat < 0x10000)
    (marks : String) : (text marks).contains (unit c) = marks.toList.contains c := by
  rw [Bool.eq_iff_iff, List.contains_iff_mem, List.contains_iff_mem]
  exact unit_mem_encode basic

theorem isOther_unit (basic : c.toNat < 0x10000) : isOther (unit c) = isVisible c := by
  rw [isOther, toNat_unit basic, isVisible]
  cases isSpaceChar c.toNat with
  | true => simp
  | false =>
    rw [Bool.eq_iff_iff]
    simp only [Bool.not_false, Bool.and_true, Bool.and_eq_true, Bool.not_eq_true',
      decide_eq_true_eq, decide_eq_false_iff_not]
    omega

theorem allows_unit (basic : c.toNat < 0x10000) (part : Part) :
    part.allows (unit c) =
      (c.isAlphanum || "_-!.~'()*".toList.contains c || part.marks.toList.contains c) := by
  cases part <;>
    simp only [Part.allows, isPath, isUric, isUnreserved, isAlpha_unit basic, isDigit_unit basic,
      contains_unit basic, Part.marks,
      Char.isAlphanum]

theorem keeps_unit (basic : c.toNat < 0x10000)
    (part : Part) : part.keeps (unit c) = (part.next c).isNone := by
  have different (other : Char) (too : other.toNat < 0x10000) : unit c = unit other ↔ c = other :=
    unit_inj basic too
  cases part with
  | path =>
    simp only [Part.keeps, isPathUnit, ne_eq, different '?' (by decide),
      different '#' (by decide), Part.next]
    split <;> simp_all
  | query =>
    simp only [Part.keeps, isQueryUnit, ne_eq, different '#' (by decide), Part.next]
    split <;> simp_all
  | fragment =>
    rw [Part.keeps, Part.next]
    · rfl
    all_goals exact nofun

theorem parse_next (follows : part.next c = some later) :
    part.parse (unit c :: rest) = later.parse rest := by
  unfold Part.next at follows
  split at follows
  · cases follows
    rfl
  · cases follows
    exact parseFragment_eq rest
  · cases follows
    exact parseFragment_eq rest
  · cases follows

theorem parse_surrogate (surrogate : 0xD800 ≤ u.toNat ∧ u.toNat < 0xE000)
    (part : Part) (rest : Text) :
    part.parse (u :: rest) = part.parse rest := by
  have different (v : UInt16) (small : v.toNat < 128) : u ≠ v := by
    rintro rfl
    omega
  have unlisted (marks : Text) (small : (marks.all fun v => v.toNat < 128) = true) :
      marks.contains u = false := by
    rw [Bool.eq_false_iff]
    intro listed
    have bound := of_decide_eq_true (List.all_eq_true.mp small u (List.contains_iff_mem.mp listed))
    omega
  have reserved : isUnreserved u = false := by
    have letter : isAlpha u = false := by
      simp only [isAlpha, Bool.or_eq_false_iff, Bool.and_eq_false_iff, decide_eq_false_iff_not]
      omega
    have number : isDigit u = false := by
      simp only [isDigit, Bool.and_eq_false_iff, decide_eq_false_iff_not]
      omega
    rw [isUnreserved, letter, number, unlisted _ (by decide)]
    rfl
  have refused : part.allows u = false := by
    cases part <;> simp only [Part.allows, isPath, isUric, reserved, Bool.false_or] <;>
      exact unlisted _ (by decide)
  have kept : part.keeps u = true := by
    cases part with
    | path =>
      simp [Part.keeps, isPathUnit, different (unit '?') (by decide), different (unit '#') (by decide)]
    | query => simp [Part.keeps, isQueryUnit, different (unit '#') (by decide)]
    | fragment => rfl
  have other : isOther u = true := by
    have spaceless : isSpaceChar u.toNat = false := by
      simp only [isSpaceChar, Bool.or_eq_false_iff, Bool.and_eq_false_iff, decide_eq_false_iff_not]
      omega
    simp only [isOther, spaceless, Bool.not_false, Bool.and_true, Bool.and_eq_true,
      Bool.not_eq_true', decide_eq_true_eq,
      decide_eq_false_iff_not]
    omega
  rw [parse_other kept refused (different _ (by decide)), other, Bool.true_and]

theorem admits_pair (beyond : ¬ c.toNat < 0x10000)
    (part : Part) : part.next c = none ∧ part.admits c = true := by
  have different (other : Char) (too : other.toNat < 0x10000) : c ≠ other := by
    rintro rfl
    exact beyond too
  have visible : isVisible c = true := by
    have spaceless : isSpaceChar c.toNat = false := by
      simp only [isSpaceChar, Bool.or_eq_false_iff, Bool.and_eq_false_iff, decide_eq_false_iff_not]
      omega
    simp only [isVisible, spaceless, Bool.not_false, Bool.and_true, decide_eq_true_eq]
    omega
  refine ⟨?_, by rw [Part.admits, visible, Bool.or_true]⟩
  unfold Part.next
  split
  · exact absurd rfl (different '?' (by decide))
  · exact absurd rfl (different '#' (by decide))
  · exact absurd rfl (different '#' (by decide))
  · rfl

theorem isHexDigit_pair (beyond : ¬ c.toNat < 0x10000) : isHexDigit c = false := by
  have nine : '9'.toNat = 57 := rfl
  have number : c.isDigit = false := by
    rw [Bool.eq_false_iff]
    intro digit
    have bounds := Char.isDigit_iff_toNat.mp digit
    omega
  simp only [isHexDigit, number, Bool.false_or, Bool.or_eq_false_iff, Bool.and_eq_false_iff,
    decide_eq_false_iff_not]
  omega

theorem not_isHex_surrogate (surrogate : 0xD800 ≤ u.toNat) : isHex u = false := by
  simp only [isHex, isDigit, Bool.or_eq_false_iff, Bool.and_eq_false_iff, decide_eq_false_iff_not]
  omega

/-- A character that is no percent sign. -/
theorem parse_char (plain : c ≠ '%') (part : Part) (rest : Text) :
    part.parse (encodeChar c ++ rest) =
      match part.next c with
      | some later => later.parse rest
      | none => part.admits c && part.parse rest := by
  by_cases basic : c.toNat < 0x10000
  · rw [encodeChar_basic basic, List.singleton_append]
    have keeps := keeps_unit basic part
    cases follows : part.next c with
    | some => exact parse_next follows
    | none =>
      rw [follows] at keeps
      have allowed := allows_unit basic part
      simp only [Part.admits]
      rw [← allowed]
      cases allows : part.allows (unit c) with
      | true => rw [parse_allowed keeps allows, Bool.true_or, Bool.true_and]
      | false =>
        have different : unit c ≠ unit '%' := fun same => plain ((unit_inj basic (by decide)).mp same)
        rw [parse_other keeps allows different, isOther_unit basic, Bool.false_or]
  · obtain ⟨_, _, pair, _⟩ := encodeChar_pair basic
    obtain ⟨none, admitted⟩ := admits_pair basic part
    rw [pair, none, admitted, List.cons_append, List.singleton_append, parse_surrogate (by omega),
      parse_surrogate (by omega)]
    rfl

theorem parse_percent (part : Part) (high low : Char) (rest : List Char) :
    part.parse (unit '%' :: encode (high :: low :: rest)) =
      (isHexDigit high && isHexDigit low && part.parse (encode rest)) := by
  rw [encode_cons, encode_cons]
  by_cases first : high.toNat < 0x10000
  · rw [encodeChar_basic first]
    by_cases second : low.toNat < 0x10000
    · rw [encodeChar_basic second, ← isHex_unit first, ← isHex_unit second]
      exact parse_escape part _
    · obtain ⟨one, two, pair, bounds⟩ := encodeChar_pair second
      have noHex : isHex one = false := not_isHex_surrogate (by omega)
      rw [pair, isHexDigit_pair second, Bool.and_false, Bool.false_and]
      refine (parse_escape part _).trans ?_
      rw [noHex, Bool.and_false, Bool.false_and]
  · obtain ⟨_, _, pair, _⟩ := encodeChar_pair first
    rw [pair, isHexDigit_pair first, Bool.false_and, Bool.false_and]
    refine (parse_escape part _).trans ?_
    rw [not_isHex_surrogate (by omega), Bool.false_and, Bool.false_and]

theorem parse_percent_end (part : Part) {rest : List Char} (short : rest.length < 2) :
    part.parse (unit '%' :: encode rest) = false := by
  match rest with
  | [] => exact parse_percent_short part (by decide)
  | [c] =>
    by_cases basic : c.toNat < 0x10000
    · exact parse_percent_short part (by simp [encode, encodeChar_basic basic])
    · obtain ⟨_, _, pair, _⟩ := encodeChar_pair basic
      rw [encode_cons, pair]
      refine (parse_escape part _).trans ?_
      rw [not_isHex_surrogate (by omega), Bool.false_and, Bool.false_and]
  | _ :: _ :: _ =>
    simp only [List.length_cons] at short
    omega

theorem legal_cons (plain : c ≠ '%') (part : Part) (rest : List Char) :
    legal part (c :: rest) =
      match part.next c with
      | some later => legal later rest
      | none => part.admits c && legal part rest := by
  rw [legal.eq_def]
  exact if_neg plain

theorem parse_encode (part : Part)
    (chars : List Char) : part.parse (encode chars) = legal part chars := by
  have percent : encodeChar '%' = [unit '%'] := encodeChar_basic (by decide)
  induction part, chars using legal.induct with
  | case1 part =>
    rw [legal]
    exact parse_nil part
  | case2 _ _ _ _ ih =>
    rw [encode_cons, percent, List.singleton_append, parse_percent, ih, legal, if_pos rfl]
  | case3 part rest short =>
    have few : rest.length < 2 := by
      match rest with
      | [] => exact Nat.zero_lt_two
      | [_] => exact Nat.one_lt_two
      | high :: low :: later => exact (short high low later rfl).elim
    rw [encode_cons, percent, List.singleton_append, parse_percent_end part few, legal, if_pos rfl]
    exact short
  | case4 _ c _ plain _ follows ih =>
    rw [encode_cons, parse_char plain, legal_cons plain, follows]
    exact ih
  | case5 part c _ plain follows ih =>
    rw [encode_cons, parse_char plain, legal_cons plain, follows]
    exact congrArg (part.admits c && ·) ih

/-- A character that no part admits, that begins none and that no escape is made of. -/
theorem not_mem_of_legal (refused : ∀ part : Part, part.next c = none ∧ part.admits c = false)
    (unescaping : isHexDigit c = false ∧ c ≠ '%') (all : legal part chars = true) : c ∉ chars := by
  obtain ⟨noHex, plain⟩ := unescaping
  have noDigit {high : Char} (digit : isHexDigit high = true) : c ≠ high := by
    rintro rfl
    rw [noHex] at digit
    cases digit
  induction part, chars using legal.induct with
  | case1 => exact List.not_mem_nil
  | case2 _ _ _ _ ih =>
    rw [legal, if_pos rfl, Bool.and_eq_true, Bool.and_eq_true] at all
    obtain ⟨⟨first, second⟩, rest⟩ := all
    simp only [List.mem_cons, not_or]
    exact ⟨plain, noDigit first, noDigit second, ih rest⟩
  | case3 _ _ short =>
    rw [legal, if_pos rfl] at all
    · cases all
    · exact short
  | case4 part d _ other _ follows ih =>
    rw [legal_cons other, follows] at all
    refine List.not_mem_cons_of_ne_of_not_mem ?_ (ih all)
    rintro rfl
    rw [(refused part).1] at follows
    cases follows
  | case5 part d _ other follows ih =>
    simp only [legal_cons other, follows, Bool.and_eq_true] at all
    refine List.not_mem_cons_of_ne_of_not_mem ?_ (ih all.2)
    rintro rfl
    rw [(refused part).2] at all
    cases all.1

theorem isDigit_decimal (member : u ∈ decimal n) : isDigit u = true := by
  obtain ⟨least, most⟩ := mem_decimal member
  rw [isDigit, decide_eq_true least, decide_eq_true most]
  rfl

/-- Nothing more of a number follows. -/
def Ends (rest : Text) : Prop := ∀ u ∈ rest.head?, isDigit u = false

theorem ends_cons (stop : isDigit u = false) (rest : Text) : Ends (u :: rest) := by
  intro v same
  cases same
  exact stop

theorem scanByte_decimal (small : n ≤ 255)
    (ends : Ends rest) : scanByte (decimal n ++ rest) = some (decimal n, rest) := by
  have stops : rest.takeWhile isDigit = [] ∧ rest.dropWhile isDigit = rest := by
    cases rest with
    | nil => exact ⟨rfl, rfl⟩
    | cons u =>
      have stop := ends u rfl
      exact ⟨List.takeWhile_cons_of_neg (by simp [stop]), List.dropWhile_cons_of_neg (by simp [stop])⟩
  have taken : (decimal n ++ rest).takeWhile isDigit = decimal n := by
    rw [List.takeWhile_append_of_pos fun u => isDigit_decimal, stops.1, List.append_nil]
  have dropped : (decimal n ++ rest).dropWhile isDigit = rest := by
    rw [List.dropWhile_append_of_pos fun u => isDigit_decimal, stops.2]
  simp only [scanByte, taken, dropped]
  exact if_pos ⟨decimal_ne_nil n, by rwa [decimalValue_decimal]⟩

/-- Numbers with dots between them. -/
def dotted : List Nat → Text
  | [] => []
  | [n] => decimal n
  | n :: next :: later => decimal n ++ unit '.' :: dotted (next :: later)

theorem scanIPv4Address_dotted (some' : numbers ≠ []) (small : ∀ n ∈ numbers, n ≤ 255)
    (ends : Ends rest) :
    scanIPv4Address numbers.length (dotted numbers ++ rest) = some (dotted numbers, rest) := by
  match numbers with
  | [n] => exact scanByte_decimal (small n List.mem_cons_self) ends
  | n :: next :: later =>
    obtain ⟨first, small⟩ := List.forall_mem_cons.mp small
    have dot : Ends (unit '.' :: (dotted (next :: later) ++ rest)) := ends_cons rfl _
    have byte := scanByte_decimal first dot
    have address := scanIPv4Address_dotted (List.cons_ne_nil next later) small ends
    rw [List.length_cons] at address
    rw [dotted, List.append_assoc, List.cons_append, List.length_cons, List.length_cons,
      scanIPv4Address, byte]
    · simp [address]
    · intro none
      cases none

section
variable {otherAuthority : Text → Option Authority} {numbers : List Nat} {port : Nat}

theorem parseAuthority_dotted (four : numbers.length = 4) (small : ∀ n ∈ numbers, n ≤ 255)
    (bound : port < 2 ^ 31) :
    parseAuthority otherAuthority (dotted numbers ++ unit ':' :: decimal port) =
      some { host := some (dotted numbers), port := some port } := by
  have colon : Ends (unit ':' :: decimal port) := ends_cons rfl _
  have address := scanIPv4Address_dotted (by rintro rfl; cases four) small colon
  rw [four] at address
  have digits : (decimal port).all isDigit = true := List.all_eq_true.mpr fun u => isDigit_decimal
  rw [parseAuthority, address]
  simp only
  rw [decimalValue_decimal, if_pos ⟨trivial, decimal_ne_nil port, digits, bound⟩]

theorem mem_dotted (member : u ∈ dotted numbers) : isDigit u = true ∨ u = unit '.' := by
  induction numbers using dotted.induct with
  | case1 => cases member
  | case2 => exact .inl (isDigit_decimal member)
  | case3 n _ _ ih =>
    rcases List.mem_append.mp member with digit | member
    · exact .inl (isDigit_decimal digit)
    · rcases List.mem_cons.mp member with dot | member
      · exact .inr dot
      · exact ih member

theorem mem_address (member : u ∈ dotted numbers ++ unit ':' :: decimal port) :
    isDigit u = true ∨ u = unit '.' ∨ u = unit ':' := by
  rcases List.mem_append.mp member with inside | member
  · exact (mem_dotted inside).imp_right .inl
  · rcases List.mem_cons.mp member with colon | digit
    · exact .inr (.inr colon)
    · exact .inl (isDigit_decimal digit)

theorem isAuthorityUnit_address (member : u ∈ dotted numbers ++ unit ':' :: decimal port) :
    isAuthorityUnit u = true := by
  rcases mem_address member with digit | rfl | rfl
  · have different (v : UInt16) (other : isDigit v = false) : u ≠ v := by
      rintro rfl
      rw [digit] at other
      cases other
    simp [isAuthorityUnit, different (unit '/') rfl, different (unit '?') rfl, different (unit '#') rfl]
  · rfl
  · rfl

/-- With an authority and a path, only the path decides whether there is an authority to read. -/
theorem parse_https {authority : Text} (filled : authority ≠ [])
    (all : ∀ u ∈ authority, isAuthorityUnit u = true) (rest : Text) :
    parse otherAuthority (text "https://" ++ (authority ++ unit '/' :: rest)) =
      if Part.path.parse rest then parseAuthority otherAuthority authority else none := by
  have shape : text "https://" = text "https" ++ unit ':' :: text "//" := by decide +kernel
  have letters : ∀ u ∈ text "https", isSchemeUnit u = true := List.all_eq_true.mp rfl
  have slash : ∀ more, isAuthorityUnit (unit '/') = false ∧
      Part.path.parse (unit '/' :: more) = Part.path.parse more :=
    fun more => ⟨rfl, parse_allowed rfl rfl⟩
  have taken : (authority ++ unit '/' :: rest).takeWhile isAuthorityUnit = authority := by
    rw [List.takeWhile_append_of_pos all, List.takeWhile_cons_of_neg (by simp [(slash rest).1]),
      List.append_nil]
  have dropped : (authority ++ unit '/' :: rest).dropWhile isAuthorityUnit = unit '/' :: rest := by
    rw [List.dropWhile_append_of_pos all, List.dropWhile_cons_of_neg (by simp [(slash rest).1])]
  have hierarchical : parseHierarchical otherAuthority (text "//" ++ (authority ++ unit '/' :: rest)) =
      if Part.path.parse rest then parseAuthority otherAuthority authority else none := by
    have starts : (text "//" ++ (authority ++ unit '/' :: rest)).take 2 = text "//" := rfl
    have behind : (text "//" ++ (authority ++ unit '/' :: rest)).drop 2 = authority ++
        unit '/' :: rest := rfl
    simp only [parseHierarchical, if_pos starts, behind, taken, dropped, parsePath_eq, (slash rest).2]
  have scheme : (text "https" ++
      unit ':' :: (text "//" ++ (authority ++ unit '/' :: rest))).takeWhile isSchemeUnit =
        text "https" := by
    rw [List.takeWhile_append_of_pos letters, List.takeWhile_cons_of_neg (by decide), List.append_nil]
  have specific : (text "https" ++
    unit ':' :: (text "//" ++ (authority ++ unit '/' :: rest))).dropWhile isSchemeUnit =
      unit ':' :: (text "//" ++ (authority ++ unit '/' :: rest)) := by
    rw [List.dropWhile_append_of_pos letters, List.dropWhile_cons_of_neg (by decide)]
  have isHttps : isScheme (text "https") = true := rfl
  have rooted : (text "//" ++ (authority ++ unit '/' :: rest)).head? = some (unit '/') := rfl
  rw [shape, List.append_assoc, List.cons_append]
  simp only [parse, scheme, specific, isHttps, if_true, parseSpecific, if_pos rooted, hierarchical]

end

end DistributedOs.Semantics.Java.Uri
