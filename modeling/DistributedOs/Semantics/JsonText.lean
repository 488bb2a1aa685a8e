import Mathlib.Data.List.Basic

/-! JSON texts of arrays of strings in the compact form, and of objects of strings in the pretty
form: what a writer escapes, and a reader of the texts it writes. -/

namespace DistributedOs.Semantics.JsonText

def quote : Char := '\x22'
def backslash : Char := '\x5c'

def hexValue (digit : Char) : Nat := if digit.isDigit then digit.toNat - 48 else digit.toNat - 87

/-- The escapes of one letter, and the characters they stand for. -/
def shortEscapes : List (Char × Char) :=
  [(quote, quote), (backslash, backslash), ('b', '\x08'), ('t', '\x09'), ('n', '\x0a'),
    ('f', '\x0c'), ('r', '\x0d')]

def shortEscape (c : Char) : Option Char :=
  (shortEscapes.find? fun entry => entry.2 = c).map Prod.fst

def unescape (letter : Char) : Option Char :=
  (shortEscapes.find? fun entry => entry.1 = letter).map Prod.snd

def escapeChar (c : Char) : List Char :=
  match shortEscape c with
  | some letter => [backslash, letter]
  | none =>
    if c.toNat < 32 then
      [backslash, 'u', '0', '0', Nat.digitChar (c.toNat / 16), Nat.digitChar (c.toNat % 16)] else [c]

def quoted (text : String) : List Char := quote :: text.toList.flatMap escapeChar ++ [quote]

/-- The items after the first, each behind a comma, and the closing bracket. -/
def tailItems (texts : List String) : List Char :=
  texts.flatMap (fun text => ',' :: quoted text) ++ [']']

def arrayText : List String → String
  | [] => "[]"
  | first :: rest => String.ofList ('[' :: quoted first ++ tailItems rest)

/-- One character of a string, and what follows it. -/
def readChar : List Char → Option (Char × List Char)
  | [] => none
  | c :: rest =>
    if c ≠ backslash then some (c, rest) else
    match rest with
    | 'u' :: '0' :: '0' :: high :: low :: rest =>
      some (Char.ofNat (16 * hexValue high + hexValue low), rest)
    | letter :: rest => (unescape letter).map (·, rest)
    | [] => none

/-- The characters up to the closing quotation mark; the fuel bounds their number. -/
def readChars : Nat → List Char → Option (List Char × List Char)
  | 0, _ => none
  | fuel + 1, text =>
    match text with
    | [] => none
    | c :: rest =>
      if c = quote then some ([], rest) else do
        let (first, rest) ← readChar (c :: rest)
        let (chars, rest) ← readChars fuel rest
        some (first :: chars, rest)

def readString : List Char → Option (String × List Char)
  | c :: rest =>
    if c = quote then (readChars (rest.length + 1) rest).map fun (chars, rest) =>
      (String.ofList chars, rest) else none
  | [] => none

def readTail : Nat → List Char → Option (List String)
  | fuel + 1, ',' :: rest => do
    let (text, rest) ← readString rest
    let texts ← readTail fuel rest
    some (text :: texts)
  | _, text => if text = [']'] then some [] else none

def readArray (text : String) : Option (List String) :=
  if text = "[]" then some [] else
  match text.toList with
  | '[' :: rest => do
    let (first, rest) ← readString rest
    let texts ← readTail rest.length rest
    some (first :: texts)
  | _ => none

theorem shortEscape_cases (c : Char) :
    (∃ letter, shortEscape c = some letter ∧ unescape letter = some c ∧ letter ≠ 'u') ∨
      shortEscape c = none ∧ c ≠ quote ∧ c ≠ backslash := by
  cases found : shortEscape c with
  | some =>
    left
    obtain ⟨entry, here, rfl⟩ := Option.map_eq_some_iff.mp found
    have selected : entry.2 = c := by simpa using List.find?_some here
    have table : ∀ entry ∈ shortEscapes, unescape entry.1 = some entry.2 ∧ entry.1 ≠ 'u' := by decide
    obtain ⟨reads, plain⟩ := table entry (List.mem_of_find?_eq_some here)
    exact ⟨entry.1, rfl, selected ▸ reads, plain⟩
  | none =>
    right
    refine ⟨rfl, ?_, ?_⟩ <;> rintro rfl <;> exact absurd found (by decide)

theorem hexValue_digitChar : ∀ digit < 16, hexValue (Nat.digitChar digit) = digit := by decide

theorem readChar_escapeChar (c : Char)
    (rest : List Char) : readChar (escapeChar c ++ rest) = some (c, rest) := by
  rcases shortEscape_cases c with ⟨letter, escaped, reads, plain⟩ | ⟨none, _, notBackslash⟩
  · have read : readChar (backslash :: letter :: rest) = (unescape letter).map (·, rest) := by
      simp only [readChar, ne_eq, not_true_eq_false, if_false]
      split
      · rename_i same
        exact absurd (List.cons.inj same).1 plain
      · rename_i same
        rw [(List.cons.inj same).1, (List.cons.inj same).2]
      · rename_i same
        cases same
    simp only [escapeChar, escaped, List.cons_append, List.nil_append]
    rw [read, reads]
    rfl
  · simp only [escapeChar, none]
    split
    · rename_i control
      simp only [List.cons_append, List.nil_append, readChar, ne_eq, not_true_eq_false, if_false]
      rw [hexValue_digitChar _ (by omega), hexValue_digitChar _ (by omega), Nat.div_add_mod,
        Char.ofNat_toNat]
    · simp [readChar, notBackslash]

theorem escapeChar_ne_quote
    (c : Char) : ∃ head tail, escapeChar c = head :: tail ∧ head ≠ quote := by
  rcases shortEscape_cases c with ⟨letter, escaped, _⟩ | ⟨none, notQuote, _⟩
  · exact ⟨backslash, [letter], by simp [escapeChar, escaped], by decide⟩
  · by_cases control : c.toNat < 32
    · exact ⟨backslash, _, by rw [escapeChar, none]; exact if_pos control, by decide⟩
    · exact ⟨c, [], by rw [escapeChar, none]; exact if_neg control, notQuote⟩

theorem readChars_flatMap (chars rest : List Char) (enough : chars.length < fuel) :
    readChars fuel (chars.flatMap escapeChar ++ quote :: rest) = some (chars, rest) := by
  induction chars generalizing fuel with
  | nil =>
    obtain ⟨fuel, rfl⟩ : ∃ less, fuel = less + 1 := ⟨fuel - 1, by simp at enough; omega⟩
    simp [readChars]
  | cons c chars ih =>
    obtain ⟨fuel, rfl⟩ : ∃ less, fuel = less + 1 := ⟨fuel - 1, by simp at enough; omega⟩
    obtain ⟨_, _, shape, plain⟩ := escapeChar_ne_quote c
    have read := readChar_escapeChar c (chars.flatMap escapeChar ++ quote :: rest)
    rw [shape] at read
    have rest := ih (Nat.lt_of_succ_lt_succ enough)
    simp only [List.flatMap_cons, shape, List.cons_append, List.append_assoc, readChars, plain,
      if_false] at read ⊢
    simp [read, rest]

theorem length_le_flatMap
    (chars : List Char) : chars.length ≤ (chars.flatMap escapeChar).length := by
  induction chars with
  | nil => exact Nat.le_refl _
  | cons c =>
    obtain ⟨_, _, shape, _⟩ := escapeChar_ne_quote c
    simp only [List.flatMap_cons, List.length_append, List.length_cons, shape]
    omega

theorem readString_quoted (text : String)
    (rest : List Char) : readString (quoted text ++ rest) = some (text, rest) := by
  have enough := length_le_flatMap text.toList
  simp only [quoted, List.cons_append, List.append_assoc, readString, if_true, List.nil_append]
  rw [readChars_flatMap _ _ (by rw [List.length_append, List.length_cons]; omega)]
  simp

theorem readTail_tailItems (texts : List String) (enough : texts.length ≤ fuel) :
    readTail fuel (tailItems texts) = some texts := by
  induction texts generalizing fuel with
  | nil => cases fuel <;> simp [tailItems, readTail]
  | cons _ _ ih =>
    obtain ⟨fuel, rfl⟩ : ∃ less, fuel = less + 1 := ⟨fuel - 1, by simp at enough; omega⟩
    have rest := ih (Nat.le_of_succ_le_succ enough)
    simp only [tailItems, List.flatMap_cons, List.cons_append, List.append_assoc, readTail]
    rw [readString_quoted]
    simp only [tailItems] at rest
    simp [rest]

theorem length_le_tailItems (texts : List String) : texts.length ≤ (tailItems texts).length := by
  induction texts with
  | nil => exact Nat.zero_le _
  | cons _ _ ih =>
    simp only [tailItems, List.flatMap_cons, List.length_append, List.length_cons] at ih ⊢
    omega

theorem readArray_arrayText (texts : List String) : readArray (arrayText texts) = some texts := by
  cases texts with
  | nil => rfl
  | cons first rest =>
    have longer : arrayText (first :: rest) ≠ "[]" := by
      intro same
      have lengths := congrArg (fun text => text.toList.length) same
      simp [arrayText, quoted] at lengths
    have enough := length_le_tailItems rest
    rw [readArray, if_neg longer, arrayText, String.toList_ofList]
    simp only [List.cons_append]
    rw [readString_quoted]
    simp only [Option.bind_eq_bind, Option.bind_some]
    rw [readTail_tailItems rest enough]
    rfl

def fieldText (field : String × String) : List Char :=
  "\n  ".toList ++ quoted field.1 ++ ": ".toList ++ quoted field.2

def objectText : List (String × String) → String
  | [] => "{}"
  | first :: rest =>
    String.ofList ('{' :: fieldText first ++ rest.flatMap (fun field => ',' :: fieldText field) ++
      "\n\x7d".toList)

def skipText (expected text : List Char) : Option (List Char) :=
  if expected.isPrefixOf text then some (text.drop expected.length) else none

def readField (text : List Char) : Option ((String × String) × List Char) := do
  let rest ← skipText "\n  ".toList text
  let (name, rest) ← readString rest
  let rest ← skipText ": ".toList rest
  let (value, rest) ← readString rest
  some ((name, value), rest)

/-- The fields up to the closing brace; the fuel bounds their number. -/
def readFields : Nat → List Char → Option (List (String × String))
  | 0, _ => none
  | fuel + 1, text => do
    let (field, rest) ← readField text
    match rest with
    | ',' :: rest => (readFields fuel rest).map (field :: ·)
    | rest => if rest = "\n\x7d".toList then some [field] else none

def readObject (text : String) : Option (List (String × String)) :=
  match text.toList with
  | '{' :: rest => if rest = ['}'] then some [] else readFields rest.length rest
  | _ => none

theorem skipText_append (expected rest : List Char) :
    skipText expected (expected ++ rest) = some rest := by
  rw [skipText, if_pos (List.isPrefixOf_iff_prefix.mpr (List.prefix_append _ _)), List.drop_left]

theorem readField_fieldText (field : String × String)
    (rest : List Char) : readField (fieldText field ++ rest) = some (field, rest) := by
  unfold readField fieldText
  simp only [List.append_assoc, skipText_append, readString_quoted, Option.bind_eq_bind,
    Option.bind_some]

theorem readFields_fieldText (first : String × String) (rest : List (String × String))
    (enough : rest.length < fuel) :
    readFields fuel
      (fieldText first ++ (rest.flatMap (fun field => ',' :: fieldText field) ++ "\n\x7d".toList)) =
      some (first :: rest) := by
  induction rest generalizing first fuel with
  | nil =>
    obtain ⟨fuel, rfl⟩ : ∃ less, fuel = less + 1 := ⟨fuel - 1, by simp at enough; omega⟩
    rw [readFields, readField_fieldText]
    rfl
  | cons second _ ih =>
    obtain ⟨fuel, rfl⟩ : ∃ less, fuel = less + 1 := ⟨fuel - 1, by simp at enough; omega⟩
    have later := ih second (Nat.lt_of_succ_lt_succ enough)
    rw [readFields, readField_fieldText]
    simp only [List.flatMap_cons, List.cons_append, List.append_assoc, Option.bind_eq_bind,
      Option.bind_some, later]
    rfl

theorem length_le_flatMap_fieldText (fields : List (String × String)) :
    fields.length ≤ (fields.flatMap fun field => ',' :: fieldText field).length := by
  induction fields with
  | nil => exact Nat.le_refl _
  | cons =>
    rw [List.flatMap_cons, List.length_append, List.length_cons, List.length_cons]
    omega

theorem readObject_objectText (fields : List (String × String)) :
    readObject (objectText fields) = some fields := by
  cases fields with
  | nil => rfl
  | cons first rest =>
    have enough := length_le_flatMap_fieldText rest
    have head : fieldText first = '\n' :: (fieldText first).tail := rfl
    rw [objectText, readObject, String.toList_ofList]
    simp only [List.cons_append, List.append_assoc]
    rw [if_neg (by rw [head]; nofun), readFields_fieldText first rest]
    rw [List.length_append, List.length_append, head, List.length_cons]
    omega

end DistributedOs.Semantics.JsonText
