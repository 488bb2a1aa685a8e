import DistributedOs.Semantics.JavaText

/-! The lenient JSON reader of `org.json`: comments, single quotes, unquoted names, `=` for `:` and
`;` for `,` are read too, control characters stand for themselves in a string, and what follows the
object is ignored. -/

namespace DistributedOs.Semantics.Java

inductive JsonValue (D : Type) where
  | null
  | boolean (value : Bool)
  | integer (value : Int)
  | double (value : D)
  | string (value : Text)
  | array (values : List (JsonValue D))
  | object (members : List (Text × JsonValue D))

/-- Doubles, the Unicode tables beyond ASCII, and the text of a value that is no string. -/
structure Platform (D : Type) where
  otherDigit (radix : Nat) (u : UInt16) : Option Nat
  otherCase (first second : UInt16) : Bool
  valueOf (text : Text) : Option D
  isFinite (value : D) : Bool
  longValue (value : D) : Int
  print (value : JsonValue D) : Text

namespace Json

def quote : UInt16 := unit '\x22'
def backslash : UInt16 := unit '\x5c'

def skipToEndOfLine : Text → Text
  | [] => []
  | u :: rest => if u = unit '\n' ∨ u = unit '\r' then rest else skipToEndOfLine rest

def skipComment : Text → Option Text
  | [] => none
  | u :: rest => if u = unit '*' ∧ rest.head? = some (unit '/') then some rest.tail else skipComment rest

def nextClean : Nat → Text → Option (Option UInt16 × Text)
  | 0, _ => none
  | _ + 1, [] => some (none, [])
  | fuel + 1, u :: rest =>
    if u = unit '\t' ∨ u = unit ' ' ∨ u = unit '\n' ∨ u = unit '\r' then nextClean fuel rest
    else if u = unit '#' then nextClean fuel (skipToEndOfLine rest)
    else if u = unit '/' ∧ rest.head? = some (unit '*') then
      (skipComment rest.tail).bind (nextClean fuel)
    else if u = unit '/' ∧ rest.head? = some (unit '/') then nextClean fuel (skipToEndOfLine rest.tail)
    else some (some u, rest)

def nextCleanInternal (text : Text) : Option (Option UInt16 × Text) :=
  nextClean (text.length + 1) text

section
variable {D : Type} (platform : Platform D)

def asciiDigit (u : UInt16) : Option Nat :=
  if 48 ≤ u.toNat ∧ u.toNat ≤ 57 then some (u.toNat - 48)
  else if 97 ≤ u.toNat ∧ u.toNat ≤ 122 then some (u.toNat - 87)
  else if 65 ≤ u.toNat ∧ u.toNat ≤ 90 then some (u.toNat - 55)
  else none

/-- `Character.digit`. -/
def digit (radix : Nat) (u : UInt16) : Option Nat :=
  if u.toNat < 128 then (asciiDigit u).filter (· < radix) else platform.otherDigit radix u

def splitSign : Text → Bool × Text
  | [] => (false, [])
  | u :: rest =>
    if u = unit '-' then (true, rest) else if u = unit '+' then (false, rest) else (false, u :: rest)

/-- `parseInt` and `parseLong`, for integers from `-bound` up to below `bound`. -/
def parseInteger (bound radix : Nat) (text : Text) : Option Int :=
  let (negative, digits) := splitSign text
  if digits = [] then none else
  (digits.mapM (digit platform radix)).bind fun values =>
    let value := values.foldl (fun value digit => value * radix + digit) 0
    if negative then if value ≤ bound then some (-(value : Int)) else none
    else if value < bound then some (value : Int) else none

def readEscapeCharacter : Text → Option (UInt16 × Text)
  | [] => none
  | u :: rest =>
    if u = unit 'u' then
      if rest.length < 4 then none
      else (parseInteger platform (2 ^ 31) 16 (rest.take 4)).map fun value =>
      (UInt16.ofInt value, rest.drop 4)
    else if u = unit 't' then some (unit '\t', rest)
    else if u = unit 'b' then some (unit '\x08', rest)
    else if u = unit 'n' then some (unit '\n', rest)
    else if u = unit 'r' then some (unit '\r', rest)
    else if u = unit 'f' then some (unit '\x0c', rest)
    else some (u, rest)

/-- The units up to the closing quotation mark. -/
def nextString (closing : UInt16) : Nat → Text → Option (Text × Text)
  | 0, _ => none
  | _ + 1, [] => none
  | fuel + 1, u :: rest =>
    if u = closing then some ([], rest)
    else if u = backslash then do
      let (escaped, rest) ← readEscapeCharacter platform rest
      let (later, rest) ← nextString closing fuel rest
      some (escaped :: later, rest)
    else (nextString closing fuel rest).map fun (later, rest) => (u :: later, rest)

/-- What ends a literal. -/
def isExcluded (u : UInt16) : Bool :=
  u = unit '{' || u = unit '}' || u = unit '[' || u = unit ']' || u = unit '/' || u = backslash ||
  u = unit ':' || u = unit ',' ||
    u = unit '=' || u = unit ';' || u = unit '#' || u = unit ' ' || u = unit '\t' ||
    u = unit '\x0c' || u = unit '\r' || u = unit '\n'

def lowerCase (u : UInt16) : UInt16 := if 65 ≤ u.toNat ∧ u.toNat ≤ 90 then u + 32 else u

def equalsIgnoreCase (first second : Text) : Bool :=
  first.length = second.length && (first.zip second).all fun (u, v) =>
    if u.toNat < 128 then lowerCase u = lowerCase v else platform.otherCase u v

/-- An integer in the base its beginning says. -/
def integerLiteral (literal : Text) : Option Int :=
  if unit '.' ∈ literal then none
  else if literal.take 2 = text "0x" ∨ literal.take 2 = text "0X" then
    parseInteger platform (2 ^ 63) 16 (literal.drop 2)
  else if literal.take 1 = text "0" ∧ 1 < literal.length then
    parseInteger platform (2 ^ 63) 8 (literal.drop 1)
  else parseInteger platform (2 ^ 63) 10 literal

/-- What is no number in the end is an unquoted string. -/
def literalValue (literal : Text) : JsonValue D :=
  if equalsIgnoreCase platform literal (text "null") then .null
  else if equalsIgnoreCase platform literal (text "true") then .boolean true
  else if equalsIgnoreCase platform literal (text "false") then .boolean false
  else
    match integerLiteral platform literal with
    | some value => .integer value
    | none =>
      match platform.valueOf literal with
      | some value => .double value
      | none => .string literal

def readLiteral (text : Text) : Option (JsonValue D × Text) :=
  let literal := text.takeWhile fun u => !isExcluded u
  if literal = [] then none else some (literalValue platform literal, text.drop literal.length)

/-- A name that is there already keeps its place. -/
def put (members : List (Text × JsonValue D)) (name : Text) (value : JsonValue D) :
    List (Text × JsonValue D) :=
  if members.any fun member => member.1 = name then
    members.map fun member => if member.1 = name then (name, value) else member
  else members ++ [(name, value)]

/-- A number that is not finite is refused as a member. -/
def isForbidden : JsonValue D → Bool
  | .double value => !platform.isFinite value
  | _ => false

mutual

def nextValue : Nat → Text → Option (JsonValue D × Text)
  | 0, _ => none
  | fuel + 1, text =>
    match nextCleanInternal text with
    | some (some u, rest) =>
      if u = unit '{' then readObject fuel rest
      else if u = unit '[' then readArray fuel [] false rest
      else if u = unit '\'' ∨ u = quote then
        (nextString platform u (rest.length + 1) rest).map fun (value, rest) => (.string value, rest)
      else readLiteral platform (u :: rest)
    | _ => none

/-- The values so far, and whether a separator stands after the last. -/
def readArray : Nat → List (JsonValue D) → Bool → Text → Option (JsonValue D × Text)
  | 0, _, _, _ => none
  | fuel + 1, values, trailing, text =>
    match nextCleanInternal text with
    | some (some u, rest) =>
      if u = unit ']' then some (.array (if trailing then values ++ [.null] else values), rest)
      else if u = unit ',' ∨ u = unit ';' then readArray fuel (values ++ [.null]) true rest
      else
        match nextValue fuel (u :: rest) with
        | none => none
        | some (value, rest) =>
          match nextCleanInternal rest with
          | some (some v, rest) =>
            if v = unit ']' then some (.array (values ++ [value]), rest)
            else if v = unit ',' ∨ v = unit ';' then readArray fuel (values ++ [value]) true rest
            else none
          | _ => none
    | _ => none

def readObject : Nat → Text → Option (JsonValue D × Text)
  | 0, _ => none
  | fuel + 1, text =>
    match nextCleanInternal text with
    | some (some u, rest) =>
      if u = unit '}' then some (.object [], rest) else readMembers fuel [] (u :: rest)
    | some (none, rest) => readMembers fuel [] rest
    | none => none

def readMembers : Nat → List (Text × JsonValue D) → Text → Option (JsonValue D × Text)
  | 0, _, _ => none
  | fuel + 1, members, text =>
    match nextValue fuel text with
    | some (.string name, rest) =>
      match nextCleanInternal rest with
      | some (some separator, rest) =>
        if separator = unit ':' ∨ separator = unit '=' then
          match nextValue fuel (if rest.head? = some (unit '>') then rest.tail else rest) with
          | none => none
          | some (value, rest) =>
            if isForbidden platform value then none
            else
              match nextCleanInternal rest with
              | some (some u, rest) =>
                if u = unit '}' then some (.object (put members name value), rest)
                else if u = unit ';' ∨ u = unit ',' then readMembers fuel (put members name value) rest
                else none
              | _ => none
        else none
      | _ => none
    | _ => none

end

/-- `JSONObject(json)`. A nested value takes two calls for each unit at most. -/
def parseObject (json : Text) : Option (List (Text × JsonValue D)) :=
  let json := if json.head? = some 0xFEFF then json.tail else json
  match nextValue platform (2 * json.length + 2) json with
  | some (.object members, _) => some members
  | _ => none

def opt (members : List (Text × JsonValue D)) (name : String) : Option (JsonValue D) :=
  members.lookup (text name)

def toText : JsonValue D → Text
  | .string value => value
  | value => platform.print value

def toLong : JsonValue D → Option Int
  | .integer value => some value
  | .double value => some (platform.longValue value)
  | .string value => (platform.valueOf value).map platform.longValue
  | _ => none

def getString (members : List (Text × JsonValue D)) (name : String) : Option Text :=
  (opt members name).map (toText platform)

def optString (members : List (Text × JsonValue D)) (name : String) (fallback : Text) : Text :=
  (getString platform members name).getD fallback

def optLong (members : List (Text × JsonValue D)) (name : String) (fallback : Int) : Int :=
  ((opt members name).bind (toLong platform)).getD fallback

end

section
variable {D : Type} {platform : Platform D} {u closing : UInt16} {body name rest : Text}
  {fuel : Nat}
variable {value : JsonValue D} {members : List (Text × JsonValue D)}

/-- The units that the reader may pass over before it looks at one. -/
def skipped : Text := [unit '\t', unit ' ', unit '\n', unit '\r', unit '#', unit '/']

theorem nextCleanInternal_cons (plain : u ∉ skipped)
    (rest : Text) : nextCleanInternal (u :: rest) = some (some u, rest) := by
  simp only [skipped, List.mem_cons, List.not_mem_nil, or_false, not_or] at plain
  obtain ⟨tab, space, newline, carriageReturn, hash, slash⟩ := plain
  simp [nextCleanInternal, nextClean, tab, space, newline, carriageReturn, hash, slash]

theorem nextString_clean (clean : ∀ u ∈ body, u ≠ closing ∧ u ≠ backslash) (rest : Text)
    (enough : body.length < fuel) :
    nextString platform closing fuel (body ++ closing :: rest) = some (body, rest) := by
  induction body generalizing fuel with
  | nil =>
    obtain ⟨fuel, rfl⟩ : ∃ less, fuel = less + 1 := ⟨fuel - 1, by rw [List.length_nil] at enough; omega⟩
    simp [nextString]
  | cons u _ ih =>
    obtain ⟨fuel, rfl⟩ : ∃ less, fuel = less + 1 := ⟨fuel - 1, by rw [List.length_cons] at enough; omega⟩
    obtain ⟨⟨open', plain⟩, clean⟩ := List.forall_mem_cons.mp clean
    rw [List.cons_append, nextString, if_neg open', if_neg plain,
      ih clean (Nat.lt_of_succ_lt_succ enough)]
    rfl

/-- Neither a quotation mark nor a backslash. -/
def isClean (body : Text) : Prop := ∀ u ∈ body, u ≠ quote ∧ u ≠ backslash

def quoted (body : Text) : Text := quote :: (body ++ [quote])

theorem nextValue_quoted (clean : isClean body) (rest : Text) :
    nextValue platform (fuel + 1) (quoted body ++ rest) = some (.string body, rest) := by
  have shape : quoted body ++ rest = quote :: (body ++ quote :: rest) := by simp [quoted]
  rw [shape, nextValue, nextCleanInternal_cons (by decide)]
  have read : nextString platform quote ((body ++ quote :: rest).length + 1)
      (body ++ quote :: rest) = some (body, rest) :=
    nextString_clean clean rest (by rw [List.length_append]; omega)
  simp only
  rw [if_neg (by decide), if_neg (by decide), if_pos (by decide), read]
  rfl

theorem digit_unit (isDigit : c.isDigit = true) :
    digit platform 10 (unit c) = some (c.toNat - '0'.toNat) := by
  obtain ⟨_, _⟩ := Char.isDigit_iff_toNat.mp isDigit
  have zero : '0'.toNat = 48 := rfl
  have nine : '9'.toNat = 57 := rfl
  have number : (unit c).toNat = c.toNat := toNat_unit (by omega)
  rw [digit, number, if_pos (by omega), asciiDigit, number, if_pos (by omega), zero,
    Option.filter_some, if_pos]
  exact decide_eq_true (by omega)

theorem mapM_digit {digits : List Char} (all : ∀ c ∈ digits, c.isDigit = true) :
    (digits.map unit).mapM (digit platform 10) =
      some (digits.map fun c => c.toNat - '0'.toNat) := by
  induction digits with
  | nil => rfl
  | cons c _ ih =>
    obtain ⟨here, later⟩ := List.forall_mem_cons.mp all
    rw [List.map_cons, List.mapM_cons, digit_unit here, ih later]
    rfl

theorem parseInteger_decimal {bound n : Nat}
    (small : n < bound) : parseInteger platform bound 10 (decimal n) = some (n : Int) := by
  have unsigned : splitSign (decimal n) = (false, decimal n) := by
    cases written : decimal n with
    | nil => rfl
    | cons u =>
      have bounds := mem_decimal (n := n) (u := u) (by simp [written])
      rw [splitSign, if_neg, if_neg]
      all_goals
        rintro rfl
        exact absurd bounds (by decide)
  have value : ((Nat.toDigits 10 n).map fun c => c.toNat - '0'.toNat).foldl
      (fun value digit => value * 10 + digit) 0 = n := by
    have read := Nat.ofDigitChars_ten_toDigits (n := n)
    rw [Nat.ofDigitChars_eq_foldl] at read
    rw [List.foldl_map]
    simpa only [Nat.mul_comm] using read
  have digits : (decimal n).mapM (digit platform 10) = some _ := mapM_digit fun c => isDigit_toDigits
  simp only [parseInteger, unsigned, if_neg (decimal_ne_nil n), digits, Option.bind_some, value]
  simp [small]

theorem not_equalsIgnoreCase_decimal {n : Nat} {first : UInt16} {word : Text}
    (letter : 57 < (lowerCase first).toNat) :
    equalsIgnoreCase platform (decimal n) (first :: word) = false := by
  cases written : decimal n with
  | nil => exact absurd written (decimal_ne_nil n)
  | cons u =>
    have bounds := mem_decimal (n := n) (u := u) (by simp [written])
    have same : lowerCase u = u := if_neg (by omega)
    have different : lowerCase u ≠ lowerCase first := by
      intro equal
      rw [← equal, same] at letter
      omega
    simp [equalsIgnoreCase, show u.toNat < 128 by omega, different]

theorem literalValue_decimal (small : n < 2 ^ 63) :
    literalValue platform (decimal n) = .integer n := by
  have notNull : equalsIgnoreCase platform (decimal n) (text "null") = false :=
    not_equalsIgnoreCase_decimal (by decide)
  have notTrue : equalsIgnoreCase platform (decimal n) (text "true") = false :=
    not_equalsIgnoreCase_decimal (by decide)
  have notFalse : equalsIgnoreCase platform (decimal n) (text "false") = false :=
    not_equalsIgnoreCase_decimal (by decide)
  have noPoint : unit '.' ∉ decimal n := not_mem_decimal (.inl (by decide))
  have unmarked (second : UInt16) (letter : 57 < second.toNat) : (decimal n).take 2 ≠ [48, second] := by
    intro same
    have member : second ∈ decimal n := List.mem_of_mem_take (i := 2) (by simp [same])
    exact not_mem_decimal (.inr letter) member
  have notOctal : ¬ ((decimal n).take 1 = text "0" ∧ 1 < (decimal n).length) := by
    rintro ⟨zero, long⟩
    rcases Nat.eq_zero_or_pos n with rfl | positive
    · exact absurd long (by decide)
    · have head := head_toDigits positive
      unfold decimal at zero
      cases written : Nat.toDigits 10 n with
      | nil => exact Nat.toDigits_ne_nil written
      | cons c =>
        rw [written] at zero head
        have digit := Char.isDigit_iff_toNat.mp (isDigit_toDigits (n := n) (c := c) (by simp [written]))
        have nine : '9'.toNat = 57 := rfl
        have same : unit c = unit '0' := (List.cons.inj zero).1
        exact head (congrArg some ((unit_inj (by omega) (by decide)).mp same))
  have notHex : ¬ ((decimal n).take 2 = text "0x" ∨ (decimal n).take 2 = text "0X") :=
    not_or_intro (unmarked _ (by decide)) (unmarked _ (by decide))
  have integer : integerLiteral platform (decimal n) = some (n : Int) := by
    rw [integerLiteral, if_neg noPoint, if_neg notHex, if_neg notOctal, parseInteger_decimal small]
  simp [literalValue, notNull, notTrue, notFalse, integer]

theorem nextValue_decimal (small : n < 2 ^ 63) (ends : isExcluded u = true) (rest : Text) :
    nextValue platform (fuel + 1) (decimal n ++ u :: rest) = some (.integer n, u :: rest) := by
  have digits : ∀ v ∈ decimal n, (!isExcluded v) = true := by
    intro v member
    have bounds := mem_decimal member
    by_contra excluded
    have table : ∀ w : UInt16, isExcluded w = true → w.toNat < 48 ∨ 57 < w.toNat := by
      intro w excluded
      simp only [isExcluded, Bool.or_eq_true, decide_eq_true_eq] at excluded
      rcases excluded with ((((((((((((((rfl | rfl) | rfl) | rfl) | rfl) | rfl) | rfl) | rfl) | rfl)
        | rfl) | rfl) | rfl) | rfl) | rfl) | rfl) | rfl <;>
        decide
    have outside := table v (by simpa using excluded)
    omega
  have literal : (decimal n ++ u :: rest).takeWhile (fun v => !isExcluded v) = decimal n := by
    rw [List.takeWhile_append_of_pos digits, List.takeWhile_cons_of_neg (by simp [ends]),
      List.append_nil]
  have read : readLiteral platform (decimal n ++ u :: rest) = some (.integer n, u :: rest) := by
    simp only [readLiteral, literal, if_neg (decimal_ne_nil n),
      literalValue_decimal small, List.drop_left]
  cases written : decimal n with
  | nil => exact absurd written (decimal_ne_nil n)
  | cons v =>
    have bounds := mem_decimal (n := n) (u := v) (by simp [written])
    have outside (w : UInt16) (other : w.toNat < 48 ∨ 57 < w.toNat) : v ≠ w := by
      rintro rfl
      omega
    have plain : v ∉ skipped := by
      simp only [skipped, List.mem_cons, List.not_mem_nil, or_false, not_or]
      refine ⟨outside _ ?_, outside _ ?_, outside _ ?_, outside _ ?_, outside _ ?_,
        outside _ ?_⟩ <;> decide
    rw [written] at read
    rw [List.cons_append] at read ⊢
    rw [nextValue, nextCleanInternal_cons plain]
    simp only
    rw [if_neg (outside _ (by decide)), if_neg (outside _ (by decide)),
      if_neg (not_or_intro (outside _ (by decide)) (outside _ (by decide))), read]

theorem readMembers_value (clean : isClean name)
    (read : nextValue platform (fuel + 1) after = some (value, u :: rest))
    (unarrowed : after.head? ≠ some (unit '>')) (plain : u ∉ skipped)
    (allowed : isForbidden platform value = false) :
    readMembers platform (fuel + 2) members (quoted name ++ unit ':' :: after) =
      if u = unit '}' then some (.object (put members name value), rest)
      else if u = unit ';' ∨ u = unit ',' then
        readMembers platform (fuel + 1) (put members name value) rest
      else none := by
  rw [readMembers, nextValue_quoted clean]
  simp only [nextCleanInternal_cons (show unit ':' ∉ skipped by decide)]
  rw [if_pos (by decide), if_neg unarrowed, read]
  simp only [allowed, Bool.false_eq_true, if_false, nextCleanInternal_cons plain]

/-- A value that is written as it stands. -/
inductive Flat where
  | string (body : Text)
  | number (n : Nat)

namespace Flat

def text : Flat → Text
  | .string body => quoted body
  | .number n => decimal n

def toValue : Flat → JsonValue D
  | .string body => .string body
  | .number n => .integer n

def Readable : Flat → Prop
  | .string body => isClean body
  | .number n => n < 2 ^ 63

theorem read {flat : Flat} (readable : flat.Readable) (ends : isExcluded u = true) (rest : Text) :
    nextValue platform (fuel + 1) (flat.text ++ u :: rest) = some (flat.toValue, u :: rest) := by
  cases flat with
  | string => exact nextValue_quoted readable (u :: rest)
  | number => exact nextValue_decimal readable ends rest

theorem unarrowed (flat : Flat) (more : Text) : (flat.text ++ more).head? ≠ some (unit '>') := by
  cases flat with
  | string => exact fun same => absurd (Option.some.inj same) (by decide)
  | number n =>
    rw [text]
    cases written : decimal n with
    | nil => exact absurd written (decimal_ne_nil n)
    | cons v =>
      have bounds := mem_decimal (n := n) (u := v) (by simp [written])
      intro same
      obtain rfl : v = unit '>' := Option.some.inj same
      exact absurd bounds (by decide)

theorem allowed (flat : Flat) : isForbidden platform flat.toValue = false := by
  cases flat <;> rfl

end Flat

/-- The members of an object, up to its end. -/
def membersText (name : Text) (flat : Flat) : List (Text × Flat) → Text
  | [] => quoted name ++ unit ':' :: (flat.text ++ [unit '}'])
  | next :: later =>
    quoted name ++ unit ':' :: (flat.text ++ unit ',' :: membersText next.1 next.2 later)

theorem put_new (new : name ∉ members.map Prod.fst) :
    put members name value = members ++ [(name, value)] := by
  have absent : (members.any fun member => member.1 = name) = false := by
    rw [List.any_eq_false]
    intro member inside same
    exact new (List.mem_map.mpr ⟨member, inside, of_decide_eq_true same⟩)
  rw [put, absent]
  rfl

theorem readMembers_membersText
    (readable : ∀ member ∈ (name, flat) :: later, isClean member.1 ∧ member.2.Readable)
    (distinct : (members.map Prod.fst ++ name :: later.map Prod.fst).Nodup)
    (enough : later.length + 1 < fuel) :
    readMembers platform fuel members (membersText name flat later) =
      some (.object (members ++ ((name, flat) :: later).map fun member =>
        (member.1, member.2.toValue)), []) := by
  induction later generalizing fuel members name flat with
  | nil =>
    obtain ⟨fuel, rfl⟩ : ∃ less, fuel = less + 2 := ⟨fuel - 2, by rw [List.length_nil] at enough; omega⟩
    obtain ⟨clean, reads⟩ := readable _ List.mem_cons_self
    have new : name ∉ members.map Prod.fst := fun member =>
      (List.nodup_append.mp distinct).2.2 name member name List.mem_cons_self rfl
    rw [membersText, readMembers_value clean
      (flat.read reads (show isExcluded (unit '}') = true by decide) []) (flat.unarrowed _)
      (by decide) flat.allowed,
      if_pos rfl, put_new new]
    rfl
  | cons _ _ ih =>
    obtain ⟨fuel, rfl⟩ : ∃ less, fuel = less + 2 := ⟨fuel - 2, by rw [List.length_cons] at enough; omega⟩
    obtain ⟨⟨clean, reads⟩, readable⟩ := List.forall_mem_cons.mp readable
    have new : name ∉ members.map Prod.fst := fun member =>
      (List.nodup_append.mp distinct).2.2 name member name List.mem_cons_self rfl
    rw [membersText, readMembers_value clean
      (flat.read reads (show isExcluded (unit ',') = true by decide) _) (flat.unarrowed _)
      (by decide) flat.allowed,
      if_neg (by decide), if_pos (by decide), put_new new, ih readable]
    · simp
    · simpa using distinct
    · rw [List.length_cons] at enough
      omega

theorem length_le_membersText (name : Text) (flat : Flat) (later : List (Text × Flat)) :
    later.length < (membersText name flat later).length := by
  induction later generalizing name flat with
  | nil =>
    simp only [membersText, List.length_append, List.length_cons, List.length_nil]
    omega
  | cons next _ ih =>
    have inner := ih next.1 next.2
    simp only [membersText, List.length_append, List.length_cons]
    omega

/-- An object of distinct names whose strings need no escapes is read as it was written. -/
theorem parseObject_membersText
    (readable : ∀ member ∈ (name, flat) :: later, isClean member.1 ∧ member.2.Readable)
    (distinct : (name :: later.map Prod.fst).Nodup) :
    parseObject platform (unit '{' :: membersText name flat later) =
      some (((name, flat) :: later).map fun member => (member.1, member.2.toValue)) := by
  have long := length_le_membersText name flat later
  generalize shape : membersText name flat later = inner at long
  have starts : ∃ tail, inner = quote :: tail := by
    subst shape
    cases later <;> exact ⟨_, rfl⟩
  obtain ⟨tail, rfl⟩ := starts
  have first : ¬ (unit '{' :: quote :: tail).head? = some 0xFEFF := by
    intro same
    exact absurd (Option.some.inj same) (by decide)
  obtain ⟨fuel, enough⟩ : ∃ fuel, 2 * (unit '{' :: quote :: tail).length + 2 = fuel + 2 := ⟨_, rfl⟩
  simp only [parseObject, if_neg first]
  rw [enough, nextValue, nextCleanInternal_cons (by decide)]
  simp only [if_true]
  rw [readObject, nextCleanInternal_cons (by decide)]
  simp only
  rw [if_neg (by decide), ← shape, readMembers_membersText readable (by simpa using distinct)]
  · rfl
  · simp only [List.length_cons] at enough long
    omega

end

end Json

end DistributedOs.Semantics.Java
