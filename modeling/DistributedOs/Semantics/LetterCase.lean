import Mathlib.Data.List.Infix
import Mathlib.Data.List.TakeWhile

/-! Letter case as Unicode has it: the lower case of a text, and texts that differ in letter case
only. -/

namespace DistributedOs.Semantics

/-- `str::trim_matches`. -/
def strip (blank : Char → Bool) (text : List Char) : List Char :=
  ((text.dropWhile blank).reverse.dropWhile blank).reverse

section Blanks

variable {text whole : List Char} {c : Char}

theorem exists_strip (blank : Char → Bool) (text : List Char) :
    ∃ front back, text = front ++ strip blank text ++ back ∧ (∀ c ∈ front, blank c = true) ∧
      ∀ c ∈ back, blank c = true := by
  refine ⟨text.takeWhile blank, ((text.dropWhile blank).reverse.takeWhile blank).reverse, ?_, ?_, ?_⟩
  · rw [strip, List.append_assoc, ← List.reverse_append, List.takeWhile_append_dropWhile,
      List.reverse_reverse,
      List.takeWhile_append_dropWhile]
  · exact List.all_eq_true.mp List.all_takeWhile
  · exact fun c member => List.all_eq_true.mp List.all_takeWhile c (List.mem_reverse.mp member)

theorem strip_within (blank : Char → Bool) (text : List Char) : strip blank text <:+: text := by
  obtain ⟨front, back, whole, _⟩ := exists_strip blank text
  exact ⟨front, back, whole.symm⟩

theorem strip_pad (blankFront : ∀ c ∈ front, blank c = true)
    (blankBack : ∀ c ∈ back, blank c = true)
    (text : List Char) : strip blank (front ++ text ++ back) = strip blank text := by
  have ends : ∀ c ∈ back.reverse, blank c = true := fun c member =>
    blankBack c (List.mem_reverse.mp member)
  rw [strip, List.append_assoc, List.dropWhile_append_of_pos blankFront, List.dropWhile_append, strip]
  split
  · rename_i empty
    rw [List.isEmpty_iff.mp empty, List.dropWhile_eq_nil_iff.mpr blankBack]
  · rw [List.reverse_append, List.dropWhile_append_of_pos ends]

theorem not_infix_of_countP (kind : Char → Bool) (solid : ∀ c, blank c = true → kind c = false)
    (more : whole.countP kind < text.countP kind) : ¬ strip blank text <:+: whole := by
  intro within
  obtain ⟨_, _, split, blankFront, blankBack⟩ := exists_strip blank text
  have none {blanks : List Char} (all : ∀ c ∈ blanks, blank c = true) : blanks.countP kind = 0 :=
    List.countP_eq_zero.mpr fun c member => by simp [solid c (all c member)]
  have fewer := within.sublist.countP_le (p := kind)
  rw [split, List.countP_append, List.countP_append, none blankFront, none blankBack] at more
  omega

theorem mem_strip (member : c ∈ text) (solid : blank c = false) : c ∈ strip blank text := by
  obtain ⟨_, _, split, blankFront, blankBack⟩ := exists_strip blank text
  rw [split, List.mem_append, List.mem_append] at member
  rcases member with (early | within) | late
  · rw [blankFront c early] at solid
    cases solid
  · exact within
  · rw [blankBack c late] at solid
    cases solid

section Count

variable {kind : Char → Bool} {change : Char → List Char}

theorem countP_le_flatMap (keeps : ∀ c, kind c = true → 0 < (change c).countP kind)
    (text : List Char) :
    text.countP kind ≤ (text.flatMap change).countP kind := by
  induction text with
  | nil => exact Nat.le_refl _
  | cons c =>
    rw [List.flatMap_cons, List.countP_append, List.countP_cons]
    have here : (if kind c = true then 1 else 0) ≤ (change c).countP kind := by
      split
      · rename_i of
        exact keeps c of
      · exact Nat.zero_le _
    omega

theorem countP_lt_flatMap (keeps : ∀ c, kind c = true → 0 < (change c).countP kind)
    (member : c ∈ text) (other : kind c = false) (gains : 0 < (change c).countP kind) :
    text.countP kind < (text.flatMap change).countP kind := by
  obtain ⟨front, back, rfl⟩ := List.append_of_mem member
  have before := countP_le_flatMap keeps front
  have after := countP_le_flatMap keeps back
  rw [List.flatMap_append, List.flatMap_cons, List.countP_append, List.countP_append,
    List.countP_append, List.countP_cons, other]
  simp only [Bool.false_eq_true, ite_false, Nat.add_zero]
  omega

end Count

end Blanks

section Ends

variable {text part whole front rest : List Char} {c : Char} {blank : Char → Bool}
  {change : Char → List Char}

def Trimmed (blank : Char → Bool) (text : List Char) : Prop :=
  (∀ c ∈ text.head?, blank c = false) ∧ ∀ c ∈ text.getLast?, blank c = false

theorem Trimmed.reverse (trimmed : Trimmed blank text) : Trimmed blank text.reverse := by
  unfold Trimmed
  rw [List.head?_reverse, List.getLast?_reverse]
  exact trimmed.symm

theorem Trimmed.within_of_blanks (trimmed : Trimmed blank part)
    (blanks : ∀ c ∈ front, blank c = true) (within : part <:+: front ++ rest) : part <:+: rest := by
  induction front with
  | nil => exact within
  | cons c _ ih =>
    rw [List.cons_append, List.infix_cons_iff] at within
    rcases within with here | later
    · cases part with
      | nil => exact List.nil_infix
      | cons d =>
        have solid := trimmed.1 d rfl
        rw [(List.cons_prefix_cons.mp here).1, blanks c List.mem_cons_self] at solid
        cases solid
    · exact ih (fun d member => blanks d (List.mem_cons_of_mem c member)) later

theorem Trimmed.within_strip (trimmed : Trimmed blank part) (within : part <:+: text) :
    part <:+: strip blank text := by
  obtain ⟨_, _, split, blankFront, blankBack⟩ := exists_strip blank text
  rw [split, List.append_assoc] at within
  have later := trimmed.within_of_blanks blankFront within
  rw [← List.reverse_infix, List.reverse_append] at later
  refine List.reverse_infix.mp (trimmed.reverse.within_of_blanks (fun c member => ?_) later)
  exact blankBack c (List.mem_reverse.mp member)

theorem head_dropWhile (blank : Char → Bool)
    (text : List Char) : ∀ c ∈ (text.dropWhile blank).head?, blank c = false := by
  intro c first
  have solid := List.head?_dropWhile_not blank text
  rwa [Option.mem_def.mp first] at solid

theorem trimmed_strip (blank : Char → Bool)
    (text : List Char) : Trimmed blank (strip blank text) := by
  have last : ∀ c ∈ (strip blank text).getLast?, blank c = false := by
    rw [strip, List.getLast?_reverse]
    exact head_dropWhile blank _
  refine ⟨fun c first => ?_, last⟩
  have start : strip blank text <+: text.dropWhile blank := by
    rw [strip, ← List.reverse_suffix, List.reverse_reverse]
    exact List.dropWhile_suffix blank
  obtain ⟨_, split⟩ := start
  refine head_dropWhile blank text c ?_
  rw [← split, List.head?_append, Option.mem_def.mp first]
  rfl

theorem head_flatMap (nonempty : ∀ c, change c ≠ []) (text : List Char) :
    ∀ d ∈ (text.flatMap change).head?, ∃ c ∈ text.head?, d ∈ change c := by
  intro d first
  cases text with
  | nil => cases first
  | cons c =>
    obtain ⟨e, _, changed⟩ := List.exists_cons_of_ne_nil (nonempty c)
    rw [List.flatMap_cons, changed] at first
    obtain rfl := Option.some.inj first
    exact ⟨c, rfl, changed ▸ List.mem_cons_self⟩

theorem Trimmed.flatMap (nonempty : ∀ c, change c ≠ [])
    (alone : ∀ c, ∀ d ∈ change c, blank d = true → c = d) (trimmed : Trimmed blank text) :
    Trimmed blank (text.flatMap change) := by
  have solid {c d : Char} (member : d ∈ change c) (kept : blank c = false) : blank d = false := by
    by_contra other
    rw [Bool.not_eq_false] at other
    rw [alone c d member other, other] at kept
    cases kept
  constructor
  · intro d first
    obtain ⟨c, there, member⟩ := head_flatMap nonempty text d first
    exact solid member (trimmed.1 c there)
  · intro d last
    rw [← List.head?_reverse, List.reverse_flatMap] at last
    obtain ⟨c, there, member⟩ := head_flatMap (fun c => by simpa using nonempty c) text.reverse d last
    rw [List.head?_reverse] at there
    exact solid (List.mem_reverse.mp member) (trimmed.2 c there)

end Ends

/-- Unicode's tables of letter case: the lower case of a character, and the properties `Cased` and
`Case_Ignorable`. Lower case stays as it is. Of the sigmas, both small ones are the lower case of
nothing else than the capital. White space, and ASCII that is no letter, is nothing's lower case but
its own. -/
structure LetterCase (isWhitespace : Char → Bool) where
  lower : Char → List Char
  cased : Char → Bool
  caseIgnorable : Char → Bool
  lower_ne_nil : ∀ c, lower c ≠ []
  lower_lower : ∀ c, ∀ d ∈ lower c, lower d = [d]
  lower_sigma : lower 'Σ' = ['σ']
  lower_finalSigma : lower 'ς' = ['ς']
  sigma_of_lower : ∀ c, 'σ' ∈ lower c → c = 'Σ' ∨ c = 'σ'
  finalSigma_of_lower : ∀ c, 'ς' ∈ lower c → c = 'ς'
  lower_ascii : ∀ c : Char, c.toNat < 128 → lower c = [c.toLower]
  alone : ∀ c, ∀ d ∈ lower c, isWhitespace d = true ∨ d.toNat < 128 ∧ d.isAlpha = false → c = d

namespace LetterCase

variable {isWhitespace : Char → Bool} (tables : LetterCase isWhitespace)

def caseIgnorableThenCased (text : List Char) : Bool :=
  match text.dropWhile tables.caseIgnorable with
  | [] => false
  | c :: _ => tables.cased c

/-- The rest of a text in lower case, after what stands `before` it, last first. A capital sigma
becomes σ, or ς at the end of a word. -/
def lowerFrom (before : List Char) : List Char → List Char
  | [] => []
  | c :: rest =>
    let mapped :=
      if c = 'Σ' then
        if tables.caseIgnorableThenCased before && !tables.caseIgnorableThenCased rest then ['ς']
        else ['σ']
      else tables.lower c
    mapped ++ lowerFrom (c :: before) rest

def toLowercase (text : String) : String := String.ofList (tables.lowerFrom [] text.toList)

/-- A letter whatever its case; σ and ς are one. -/
def letter (c : Char) : List Char := if c = 'ς' then ['σ'] else tables.lower c

def letters (text : List Char) : List Char := text.flatMap tables.letter

/-- The texts differ in letter case only. -/
def SameLetters (first second : List Char) : Prop := tables.letters first = tables.letters second

def HasSigma (text : List Char) : Prop := 'Σ' ∈ text ∨ 'σ' ∈ text ∨ 'ς' ∈ text

instance (text : List Char) : Decidable (HasSigma text) :=
  inferInstanceAs (Decidable ('Σ' ∈ text ∨ 'σ' ∈ text ∨ 'ς' ∈ text))

variable {before text part whole : List Char} {c d : Char}

@[simp] theorem letters_nil : tables.letters [] = [] := rfl

@[simp] theorem letters_cons (c : Char)
    (text : List Char) : tables.letters (c :: text) = tables.letter c ++ tables.letters text :=
  List.flatMap_cons

theorem letter_of_ne (other : c ≠ 'ς') : tables.letter c = tables.lower c := if_neg other

theorem letter_finalSigma : tables.letter 'ς' = ['σ'] := rfl

theorem letter_ne_nil (c : Char) : tables.letter c ≠ [] := by
  unfold letter
  split
  · exact List.cons_ne_nil _ _
  · exact tables.lower_ne_nil c

theorem letter_sigma : tables.letter 'Σ' = ['σ'] := by
  rw [letter_of_ne tables (by decide), lower_sigma]

theorem letter_smallSigma : tables.letter 'σ' = ['σ'] := by
  rw [letter_of_ne tables (by decide)]
  exact tables.lower_lower 'Σ' 'σ' (by simp [lower_sigma])

theorem letter_letter (member : d ∈ tables.letter c) : tables.letter d = [d] := by
  unfold letter at member
  split at member
  · rw [List.mem_singleton.mp member, letter_smallSigma]
  · rename_i other
    have notFinal : d ≠ 'ς' := by
      rintro rfl
      exact other (tables.finalSigma_of_lower c member)
    rw [letter_of_ne tables notFinal, tables.lower_lower c d member]

theorem finalSigma_not_mem_letters (text : List Char) : 'ς' ∉ tables.letters text := by
  intro member
  obtain ⟨c, _, among⟩ := List.mem_flatMap.mp member
  have same := tables.letter_letter among
  rw [letter_finalSigma] at same
  exact absurd same (by decide)

theorem lower_of_mem_letters (member : d ∈ tables.letters text) : tables.lower d = [d] := by
  have other : d ≠ 'ς' := fun same => tables.finalSigma_not_mem_letters text (same ▸ member)
  obtain ⟨c, _, among⟩ := List.mem_flatMap.mp member
  rw [← letter_of_ne tables other, tables.letter_letter among]

theorem letters_eq_self (small : ∀ d ∈ text, tables.letter d = [d]) :
    tables.letters text = text := by
  rw [letters, List.flatMap_congr small, List.flatMap_singleton']

theorem letters_lower (c : Char) : tables.letters (tables.lower c) = tables.letter c := by
  by_cases final : c = 'ς'
  · rw [final, lower_finalSigma]
    rfl
  · rw [← letter_of_ne tables final]
    exact tables.letters_eq_self fun d member => tables.letter_letter member

theorem letters_lowerFrom (before text : List Char) :
    tables.letters (tables.lowerFrom before text) = tables.letters text := by
  induction text generalizing before with
  | nil => rfl
  | cons c text ih =>
    have mapped : tables.letters
        (if c = 'Σ' then
          if tables.caseIgnorableThenCased before && !tables.caseIgnorableThenCased text then ['ς']
          else ['σ']
        else tables.lower c) = tables.letter c := by
      split
      · rename_i capital
        rw [capital, letter_sigma]
        split
        · rfl
        · simp [letter_smallSigma]
      · exact tables.letters_lower c
    rw [lowerFrom, letters, List.flatMap_append, letters_cons, ← ih (c :: before)]
    exact congrArg (· ++ _) mapped

theorem lowerFrom_eq (plain : 'Σ' ∉ text) :
    tables.lowerFrom before text = text.flatMap tables.lower := by
  induction text generalizing before with
  | nil => rfl
  | cons c _ ih =>
    rw [List.mem_cons, not_or] at plain
    rw [lowerFrom, List.flatMap_cons, ih plain.2]
    simp only [if_neg (Ne.symm plain.1)]

theorem hasSigma_iff : HasSigma text ↔ 'σ' ∈ tables.letters text := by
  constructor
  · rintro (capital | small | final)
    · exact List.mem_flatMap.mpr ⟨_, capital, by simp [letter_sigma]⟩
    · exact List.mem_flatMap.mpr ⟨_, small, by simp [letter_smallSigma]⟩
    · exact List.mem_flatMap.mpr ⟨_, final, by simp [letter_finalSigma]⟩
  · intro member
    obtain ⟨c, there, among⟩ := List.mem_flatMap.mp member
    unfold letter at among
    split at among
    · rename_i final
      exact .inr (.inr (final ▸ there))
    · rcases tables.sigma_of_lower c among with rfl | rfl
      · exact .inl there
      · exact .inr (.inl there)

theorem HasSigma.mono (within : part ⊆ whole) : HasSigma part → HasSigma whole
  | .inl capital => .inl (within capital)
  | .inr (.inl small) => .inr (.inl (within small))
  | .inr (.inr final) => .inr (.inr (within final))

theorem letters_plain (plain : ¬ HasSigma text) : tables.letters text = text.flatMap tables.lower :=
  List.flatMap_congr fun _ member => tables.letter_of_ne fun same => plain (.inr (.inr (same ▸ member)))

theorem SameLetters.sigma_iff (same : tables.SameLetters part whole) :
    HasSigma part ↔ HasSigma whole := by
  rw [tables.hasSigma_iff, tables.hasSigma_iff, same]

def Small (text : List Char) : Prop := ∀ c ∈ text, c ≠ 'Σ' ∧ tables.lower c = [c]

theorem Small.lowerFrom_eq (small : tables.Small text) : tables.lowerFrom before text = text := by
  rw [LetterCase.lowerFrom_eq tables fun member => (small _ member).1 rfl,
    List.flatMap_congr fun c member => (small c member).2,
    List.flatMap_singleton']

/-- A text in a letter case in which it is not found: small letters that are not in the `whole`. -/
structure Missed (text whole spelling : List Char) : Prop where
  same : tables.SameLetters spelling text
  small : tables.Small (strip isWhitespace spelling)
  absent : ¬ strip isWhitespace spelling <:+: whole
  lettered : ∃ c ∈ strip isWhitespace spelling, ¬ (c.toNat < 128 ∧ c.isAlpha = false)

theorem lower_within (plain : ¬ HasSigma whole) (within : part <:+: whole)
    (same : tables.SameLetters text part) :
    tables.lowerFrom [] (strip isWhitespace text) <:+: whole.flatMap tables.lower := by
  have plainPart : ¬ HasSigma part := fun sigma => plain (sigma.mono within.subset)
  have plainText : ¬ HasSigma text := by rwa [same.sigma_iff]
  have stripped := strip_within isWhitespace text
  rw [tables.lowerFrom_eq fun member => plainText (.inl (stripped.subset member))]
  refine (stripped.flatMap tables.lower).trans ?_
  rw [← tables.letters_plain plainText, same, tables.letters_plain plainPart]
  exact within.flatMap tables.lower

theorem trimmed_lower (trimmed : Trimmed isWhitespace text) :
    Trimmed isWhitespace (text.flatMap tables.lower) :=
  trimmed.flatMap tables.lower_ne_nil fun c d member blank => tables.alone c d member (.inl blank)

theorem lower_within_strip (plain : ¬ HasSigma whole) (within : part <:+: whole)
    (same : tables.SameLetters text part) :
    tables.lowerFrom [] (strip isWhitespace text) <:+: strip isWhitespace
      (whole.flatMap tables.lower) := by
  refine Trimmed.within_strip ?_ (tables.lower_within plain within same)
  have plainText : ¬ HasSigma text := by
    rw [same.sigma_iff]
    exact fun sigma => plain (sigma.mono within.subset)
  rw [tables.lowerFrom_eq fun capital =>
    plainText (.inl ((strip_within isWhitespace text).subset capital))]
  exact tables.trimmed_lower (trimmed_strip isWhitespace text)

/-- The text with small letters and one of the two small sigmas throughout. -/
def respell (sigma : Char) (text : List Char) : List Char :=
  (tables.letters text).map fun c => if c = 'σ' then sigma else c

theorem blank_alone (member : d ∈ tables.lower c) (changed : tables.lower c ≠ [c]) :
    isWhitespace d = false ∧ ¬ (d.toNat < 128 ∧ d.isAlpha = false) := by
  have other : ¬ (isWhitespace d = true ∨ d.toNat < 128 ∧ d.isAlpha = false) := by
    intro plain
    have same := tables.alone c d member plain
    rw [same] at changed
    exact changed (tables.lower_lower c d member)
  rw [not_or, Bool.not_eq_true] at other
  exact other

theorem ne_sigma_of_small (small : tables.lower c = [c]) : c ≠ 'Σ' := by
  rintro rfl
  rw [lower_sigma] at small
  exact absurd small (by decide)

theorem small_lower (text : List Char) : tables.Small (text.flatMap tables.lower) := by
  intro c member
  obtain ⟨origin, _, lower⟩ := List.mem_flatMap.mp member
  have fixed := tables.lower_lower origin c lower
  exact ⟨tables.ne_sigma_of_small fixed, fixed⟩

theorem letters_respell (one : tables.letter sigma = ['σ']) (text : List Char) :
    tables.letters (tables.respell sigma text) = tables.letters text := by
  have back : ∀ c ∈ tables.letters text, tables.letter (if c = 'σ' then sigma else c) = [c] := by
    intro c member
    split
    · rename_i same
      rw [one, same]
    · obtain ⟨_, _, among⟩ := List.mem_flatMap.mp member
      exact tables.letter_letter among
  rw [letters, respell, List.flatMap_map, List.flatMap_congr back, List.flatMap_singleton']

theorem small_respell (small : tables.lower sigma = [sigma]) (text : List Char) :
    tables.Small (tables.respell sigma text) := by
  intro c member
  obtain ⟨d, among, rfl⟩ := List.mem_map.mp member
  have fixed : tables.lower (if d = 'σ' then sigma else d) = [if d = 'σ' then sigma else d] := by
    split
    · exact small
    · exact tables.lower_of_mem_letters among
  exact ⟨tables.ne_sigma_of_small fixed, fixed⟩

theorem Small.strip (small : tables.Small text) : tables.Small (strip isWhitespace text) :=
  fun c member => small c ((strip_within isWhitespace text).subset member)

/-- One of the small sigmas is met more often in the spelling that has it throughout. -/
theorem missed_of_other (one : tables.letter sigma = ['σ']) (small : tables.lower sigma = [sigma])
    (solid : isWhitespace sigma = false) (beyond : 128 ≤ sigma.toNat) (member : other ∈ whole)
    (alike : tables.letter other = ['σ']) (differ : other ≠ sigma)
    (same : tables.SameLetters whole text) :
    tables.Missed text whole (tables.respell sigma text) := by
  have spelt : tables.respell sigma text = whole.flatMap fun c => (tables.letter c).map fun d =>
      if d = 'σ' then sigma else d := by
    rw [respell, ← same, letters, List.map_flatMap]
  have gains {c : Char} (alike : tables.letter c = ['σ']) :
      0 < ((tables.letter c).map fun d => if d = 'σ' then sigma else d).countP (· == sigma) := by
    simp [alike]
  have keeps (c : Char) (kind : (c == sigma) = true) :
      0 < ((tables.letter c).map fun d => if d = 'σ' then sigma else d).countP (· == sigma) :=
    gains (by rw [eq_of_beq kind, one])
  have present : sigma ∈ tables.respell sigma text := by
    rw [spelt]
    exact List.mem_flatMap.mpr ⟨other, member, by simp [alike]⟩
  refine ⟨tables.letters_respell one text, (tables.small_respell small text).strip, ?_, sigma,
    mem_strip present solid, ?_⟩
  · refine not_infix_of_countP (· == sigma) (fun c blank => ?_) ?_
    · rw [beq_eq_false_iff_ne]
      rintro rfl
      rw [blank] at solid
      cases solid
    · rw [spelt]
      exact countP_lt_flatMap keeps member (beq_eq_false_iff_ne.mpr differ) (gains alike)
  · rintro ⟨_, _⟩
    omega

theorem exists_missed_of_sigma (solid : isWhitespace 'σ' = false ∧ isWhitespace 'ς' = false)
    (sigma : HasSigma whole) (same : tables.SameLetters whole text) :
    ∃ spelling, tables.Missed text whole spelling := by
  have small : tables.lower 'σ' = ['σ'] := tables.lower_lower 'Σ' 'σ' (by simp [lower_sigma])
  rcases sigma with capital | other | final
  · exact ⟨_, tables.missed_of_other tables.letter_finalSigma tables.lower_finalSigma solid.2
      (by decide) capital
      tables.letter_sigma (by decide) same⟩
  · exact ⟨_, tables.missed_of_other tables.letter_finalSigma tables.lower_finalSigma solid.2
      (by decide) other
      tables.letter_smallSigma (by decide) same⟩
  · exact ⟨_, tables.missed_of_other tables.letter_smallSigma small solid.1 (by decide) final
        tables.letter_finalSigma (by decide) same⟩

theorem exists_missed_of_capital (plain : ¬ HasSigma text)
    (capital : text.flatMap tables.lower ≠ text) :
    ∃ spelling, tables.Missed text text spelling := by
  obtain ⟨c, member, changed⟩ : ∃ c ∈ text, tables.lower c ≠ [c] := by
    by_contra none
    simp only [not_exists, not_and, not_not] at none
    exact capital (by rw [List.flatMap_congr none, List.flatMap_singleton'])
  obtain ⟨d, among⟩ := List.exists_mem_of_ne_nil _ (tables.lower_ne_nil c)
  obtain ⟨solid, lettered⟩ := tables.blank_alone among changed
  have spelt : tables.lowerFrom [] text = text.flatMap tables.lower :=
    tables.lowerFrom_eq fun capital => plain (.inl capital)
  have present : d ∈ text.flatMap tables.lower := List.mem_flatMap.mpr ⟨c, member, among⟩
  refine ⟨text.flatMap tables.lower, ?_, (tables.small_lower text).strip, ?_, d,
    mem_strip present solid, lettered⟩
  · rw [SameLetters, ← spelt, letters_lowerFrom]
  · -- of the small letters that are no blanks there are more in lower case
    let kind (e : Char) : Bool := !isWhitespace e && decide (tables.lower e = [e])
    have keeps (e : Char) (of : kind e = true) : 0 < (tables.lower e).countP kind := by
      have fixed : tables.lower e = [e] := by simpa using (Bool.and_eq_true_iff.mp of).2
      rw [fixed, List.countP_singleton, of]
      exact Nat.one_pos
    have other : kind c = false := by simp [kind, changed]
    have gains : 0 < (tables.lower c).countP kind :=
      List.countP_pos_iff.mpr ⟨d, among, by simp [kind, solid, tables.lower_lower c d among]⟩
    refine not_infix_of_countP kind (fun e blank => ?_) (countP_lt_flatMap keeps member other gains)
    simp [kind, blank]

end LetterCase

end DistributedOs.Semantics
