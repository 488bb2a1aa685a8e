import DistributedOs.Relay.Registry
import DistributedOs.Semantics.LetterCase
import DistributedOs.Semantics.LossyText

/-! What a search of the registry returns, and which of a node's texts it is found by. -/

namespace DistributedOs.Relay

open DistributedOs.Protocol Semantics
open Discovery (Uuid)

def foundAs (toLowercase : String → String) (query : String)
    (node : ConnectedNode) : SearchResult :=
  { nodeId := node.nodeId, name := node.name, platform := node.platform, status := node.status
    capabilities := node.capabilities, version := node.version, score := scoreNode toLowercase node
      (toLowercase (trim query)) }

/-- What the score compares a query with. -/
inductive SearchField where
  | name
  | nodeId
  | version
  | platform
  | capability
  deriving DecidableEq

def SearchField.texts (node : ConnectedNode) : SearchField → List String
  | .name => [node.name]
  | .nodeId => [node.nodeId.toText]
  | .version => [node.version]
  | .platform => [node.platform.toText]
  | .capability => node.capabilities.map Capability.toText

def capabilityTag : List Char := "capability=".toList

section Search

variable (tables : LetterCase isWhitespace)

/-- The text as the score has it: that of a platform as it is, the others in lower case. -/
def SearchField.shown (field : SearchField) (text : String) : List Char :=
  if field = .platform then text.toList else tables.lowerFrom [] text.toList

/-- The query is a part of the text, not empty and in any letter case, with any white space around. -/
def Names (text query : String) : Prop :=
  ∃ front spelling back part, query.toList = front ++ spelling ++ back ∧
    (∀ c ∈ front, isWhitespace c = true) ∧ (∀ c ∈ back, isWhitespace c = true) ∧
    tables.SameLetters spelling part ∧ part ≠ [] ∧ part <:+: text.toList

/-- Whenever a node has the text in this field, every query that names the text finds the node. -/
def Found (field : SearchField) (text : String) : Prop :=
  ∀ (registry : Registry) (values : List ConnectedNode), values.Perm registry.values →
    ∀ node ∈ values, text ∈ field.texts node → ∀ query, Names tables text query →
      ¬ capabilityTag <+: (tables.toLowercase (trim query)).toList →
      foundAs tables.toLowercase query node ∈ search tables.toLowercase query values

/-- The text has no sigma, and is in lower case where it is that of a platform. -/
def Plain (field : SearchField) (text : String) : Prop :=
  ¬ LetterCase.HasSigma text.toList ∧
  (field = .platform → text.toList.flatMap tables.lower = text.toList)

/-- Every query that names a text of a node finds the node. -/
def FindsAll (values : List ConnectedNode) : Prop :=
  ∀ node ∈ values, ∀ field : SearchField, ∀ text ∈ field.texts node, ∀ query, Names tables text query →
    ¬ capabilityTag <+: (tables.toLowercase (trim query)).toList →
    foundAs tables.toLowercase query node ∈ search tables.toLowercase query values

def platformQuery (node : ConnectedNode) : List Char :=
  strip isWhitespace (node.platform.toText.toList.flatMap tables.lower)

/-- There is no sigma in the texts of the node, and its platform is named neither like its status
nor like a tag. -/
structure Regular (node : ConnectedNode) : Prop where
  noSigma : ∀ field : SearchField, ∀ text ∈ field.texts node, ¬ LetterCase.HasSigma text.toList
  status : node.status.toText.toList ≠ platformQuery tables node
  untagged : ¬ capabilityTag <+: platformQuery tables node

/-- The name of the platform in lower case is in what is shown of a text of the node. -/
def PlatformShown (node : ConnectedNode) : Prop :=
  ∃ field : SearchField, ∃ text ∈ field.texts node,
  platformQuery tables node <:+: field.shown tables text

end Search

variable {toLowercase : String → String} {query q text : String} {values : List ConnectedNode}
  {node : ConnectedNode} {field : SearchField} {tables : LetterCase isWhitespace} {id : NodeId}

theorem search_perm (toLowercase : String → String) (query : String) (values : List ConnectedNode) :
    (search toLowercase query values).Perm
      ((values.filter fun node => 0 < scoreNode toLowercase node (toLowercase (trim query))).map
        (foundAs toLowercase query)) := by
  refine (List.mergeSort_perm _ _).trans (.of_eq ?_)
  induction values with
  | nil => rfl
  | cons node _ ih =>
    rw [List.filterMap_cons, List.filter_cons, ih]
    by_cases positive : 0 < scoreNode toLowercase node (toLowercase (trim query))
    · simp only [positive, ite_true, decide_true, List.map_cons]
      rfl
    · simp only [positive, ite_false, decide_false, Bool.false_eq_true]

theorem search_sorted (toLowercase : String → String) (query : String)
    (values : List ConnectedNode) :
    (search toLowercase query values).Pairwise fun first second => second.score ≤ first.score := by
  refine (List.pairwise_mergeSort ?_ ?_ _).imp fun sorted => of_decide_eq_true sorted
  · intro first second _ higher lower
    simp only [decide_eq_true_eq] at higher lower ⊢
    exact Nat.le_trans lower higher
  · intro _ _
    simp only [Bool.or_eq_true, decide_eq_true_eq]
    exact Nat.le_total _ _

theorem mem_search (member : node ∈ values)
    (positive : 0 < scoreNode toLowercase node (toLowercase (trim query))) :
    foundAs toLowercase query node ∈ search toLowercase query values :=
  (search_perm toLowercase query values).mem_iff.mpr
    (List.mem_map_of_mem (List.mem_filter.mpr ⟨member, decide_eq_true positive⟩))

theorem score_pos_of_found
    (found : foundAs tables.toLowercase query node ∈ search tables.toLowercase query values) :
    0 < scoreNode tables.toLowercase node (tables.toLowercase (trim query)) := by
  obtain ⟨_, kept, same⟩ := List.mem_map.mp ((search_perm _ _ _).mem_iff.mp found)
  have positive := of_decide_eq_true (List.mem_filter.mp kept).2
  have scores := congrArg SearchResult.score same
  simp only [foundAs] at scores
  rwa [scores] at positive

theorem contains_iff : contains text part = true ↔ part.toList <:+: text.toList := by
  simp [contains]

theorem toList_toLowercase
    (text : String) : (tables.toLowercase text).toList = tables.lowerFrom [] text.toList :=
  String.toList_ofList

def targetCap (q : String) : String :=
  if capabilityTag.isPrefixOf q.toList then String.ofList (q.toList.drop "capability=".length) else q

theorem ite_eq_zero_iff {test : Prop} [Decidable test] (positive : score ≠ 0) :
    (if test then score else rest) = 0 ↔ ¬ test ∧ rest = 0 := by
  split
  · simp [*]
  · simp [*]

theorem scoreNode_eq_zero_iff : scoreNode toLowercase node q = 0 ↔
    ¬ q.isEmpty = true ∧ ¬ node.status.toText = q ∧ ¬ node.platform.toText = q ∧
      ¬ contains (toLowercase node.nodeId.toText) q = true ∧
      ¬ contains (toLowercase node.name) q = true ∧
      ¬ contains (toLowercase node.version) q = true ∧ ¬ contains node.platform.toText q = true ∧
      ¬ (node.capabilities.any fun capability =>
        contains (toLowercase capability.toText) (targetCap q)) = true := by
  have capability (tagged : Bool) : (if tagged = true then 10 else 6) ≠ 0 := by cases tagged <;> decide
  rw [scoreNode, ite_eq_zero_iff (by decide), ite_eq_zero_iff (by decide), ite_eq_zero_iff (by decide),
    ite_eq_zero_iff (by decide), ite_eq_zero_iff (by decide), ite_eq_zero_iff (by decide),
    ite_eq_zero_iff (by decide)]
  have last : (if (node.capabilities.any fun capability =>
    contains (toLowercase capability.toText) (targetCap q)) = true then
      if capabilityTag.isPrefixOf q.toList = true then 10 else 6 else 0) = 0 ↔
        ¬ (node.capabilities.any fun capability =>
          contains (toLowercase capability.toText) (targetCap q)) = true := by
    rw [ite_eq_zero_iff (capability _)]
    simp
  rw [← last]
  rfl

theorem targetCap_within (q : String) : (targetCap q).toList <:+: q.toList := by
  unfold targetCap
  split
  · rw [String.toList_ofList]
    exact (List.drop_suffix _ _).isInfix
  · exact List.infix_rfl

theorem contains_lower_iff (text q : String) :
    contains (tables.toLowercase text) q = true ↔
      q.toList <:+: tables.lowerFrom [] text.toList := by
  rw [contains_iff, toList_toLowercase]

theorem score_pos_of_shown (member : text ∈ field.texts node)
    (within : q.toList <:+: field.shown tables text) :
    0 < scoreNode tables.toLowercase node q := by
  refine Nat.pos_of_ne_zero fun zero => ?_
  obtain ⟨_, _, _, id, name, version, platform, capability⟩ := scoreNode_eq_zero_iff.mp zero
  cases field with
  | name =>
    rw [SearchField.texts, List.mem_singleton] at member
    exact name ((contains_lower_iff _ _).mpr (member ▸ within))
  | nodeId =>
    rw [SearchField.texts, List.mem_singleton] at member
    exact id ((contains_lower_iff _ _).mpr (member ▸ within))
  | version =>
    rw [SearchField.texts, List.mem_singleton] at member
    exact version ((contains_lower_iff _ _).mpr (member ▸ within))
  | platform =>
    rw [SearchField.texts, List.mem_singleton] at member
    exact platform (contains_iff.mpr (member ▸ within))
  | capability =>
    obtain ⟨provided, there, rfl⟩ := List.mem_map.mp member
    refine capability (List.any_eq_true.mpr ⟨provided, there, (contains_lower_iff _ _).mpr ?_⟩)
    exact (targetCap_within q).trans within

theorem score_eq_zero (nonempty : q.toList ≠ []) (untagged : ¬ capabilityTag <+: q.toList)
    (status : node.status.toText ≠ q)
    (absent : ∀ field : SearchField, ∀ text ∈ field.texts node,
      ¬ q.toList <:+: field.shown tables text) :
    scoreNode tables.toLowercase node q = 0 := by
  have missing (field : SearchField) {text : String} (member : text ∈ field.texts node)
    (lower : field ≠ .platform) :
      ¬ contains (tables.toLowercase text) q = true := by
    have here := absent field text member
    rw [SearchField.shown, if_neg lower] at here
    rwa [contains_lower_iff]
  have platform : ¬ q.toList <:+: node.platform.toText.toList :=
    absent .platform _ (List.mem_singleton_self _)
  have whole : targetCap q = q := if_neg fun tagged => untagged (List.isPrefixOf_iff_prefix.mp tagged)
  refine scoreNode_eq_zero_iff.mpr
    ⟨by simpa using nonempty, status, ?_, missing .nodeId (List.mem_singleton_self _) (by decide),
    missing .name (List.mem_singleton_self _) (by decide),
    missing .version (List.mem_singleton_self _) (by decide), ?_, ?_⟩
  · rintro rfl
    exact platform List.infix_rfl
  · rwa [contains_iff]
  · rw [whole, List.any_eq_true]
    rintro ⟨_, there, within⟩
    exact missing .capability (List.mem_map_of_mem there) (by decide) within

theorem trim_toList (query : String) : (trim query).toList = strip isWhitespace query.toList :=
  String.toList_ofList

theorem score_pos_of_plain (plain : Plain tables field text) (member : text ∈ field.texts node)
    (names : Names tables text query) :
    0 < scoreNode tables.toLowercase node (tables.toLowercase (trim query)) := by
  obtain ⟨noSigma, small⟩ := plain
  obtain ⟨_, _, _, _, split, blankFront, blankBack, same, _, within⟩ := names
  refine score_pos_of_shown member ?_
  have shown : field.shown tables text = text.toList.flatMap tables.lower := by
    unfold SearchField.shown
    split
    · rename_i platform
      exact (small platform).symm
    · exact tables.lowerFrom_eq fun capital => noSigma (.inl capital)
  rw [shown, toList_toLowercase, trim_toList, split, strip_pad blankFront blankBack]
  exact tables.lower_within noSigma within same

theorem found_of_plain (plain : Plain tables field text) : Found tables field text :=
  fun _ _ _ _ member has _ names _ => mem_search member (score_pos_of_plain plain has names)

theorem letters_shown (tables : LetterCase isWhitespace) (field : SearchField) (text : String) :
    tables.SameLetters (field.shown tables text) text.toList := by
  unfold SearchField.shown
  split
  · rfl
  · exact tables.letters_lowerFrom [] text.toList

theorem exists_missed (bad : ¬ Plain tables field text) :
    ∃ spelling, tables.Missed text.toList (field.shown tables text) spelling := by
  by_cases sigma : LetterCase.HasSigma text.toList
  · have same := letters_shown tables field text
    exact tables.exists_missed_of_sigma (by decide)
      ((LetterCase.SameLetters.sigma_iff tables same).mpr sigma) same
  · have changed : field = .platform ∧ text.toList.flatMap tables.lower ≠ text.toList := by
      by_contra unchanged
      exact bad ⟨sigma, fun platform => by_contra fun capital => unchanged ⟨platform, capital⟩⟩
    rw [SearchField.shown, if_pos changed.1]
    exact tables.exists_missed_of_capital sigma changed.2

def lone (field : SearchField) (text : String) (status : NodeStatus) : ConnectedNode :=
  { nodeId := .nil
    name := if field = .name then text else ""
    platform := .unknown (if field = .platform then text else "")
    capabilities := if field = .capability then [.unknown text] else []
    version := if field = .version then text else ""
    status, lastSeen := 0, tx := 0, connectionId := .nil }

theorem texts_lone (status : NodeStatus) (other : field ≠ .nodeId) :
    text ∈ field.texts (lone field text status) := by
  cases field with
  | nodeId => exact absurd rfl other
  | _ => exact List.mem_singleton_self _

theorem eq_of_mem_texts_lone (differs : other ≠ .nodeId)
    (member : named ∈ other.texts (lone field text status)) :
    (other = field ∧ named = text) ∨ named = "" := by
  have single {other : SearchField} (member : named ∈ [if field = other then text else ""]) :
      (other = field ∧ named = text) ∨ named = "" := by
    rw [List.mem_singleton] at member
    split at member
    · rename_i same
      exact .inl ⟨same.symm, member⟩
    · exact .inr member
  cases other with
  | nodeId => exact absurd rfl differs
  | name => exact single member
  | version => exact single member
  | platform => exact single member
  | capability =>
    obtain ⟨_, there, rfl⟩ := List.mem_map.mp member
    simp only [lone] at there
    split at there
    · rename_i same
      rw [List.mem_singleton.mp there]
      exact .inl ⟨same.symm, rfl⟩
    · cases there

theorem nil_id_plain (c : Char) (member : c ∈ Uuid.nil.toText.toList) :
    (c.toNat < 128 ∧ c.isAlpha = false) ∧ c.toLower = c ∧ c ≠ 'Σ' := by
  have all : Uuid.nil.toText.toList.all fun c => (c.toNat < 128 ∧ c.isAlpha = false) ∧
      c.toLower = c ∧ c ≠ 'Σ' := by decide
  exact of_decide_eq_true (List.all_eq_true.mp all c member)

theorem lower_nil_id (tables : LetterCase isWhitespace) :
    tables.lowerFrom [] (Uuid.nil.toText).toList = Uuid.nil.toText.toList := by
  refine LetterCase.Small.lowerFrom_eq tables fun c member => ?_
  obtain ⟨⟨ascii, _⟩, small, notSigma⟩ := nil_id_plain c member
  exact ⟨notSigma, by rw [tables.lower_ascii c ascii, small]⟩

theorem untagged_of_letters (untagged : ¬ capabilityTag <:+: tables.letters text.toList)
    (same : tables.SameLetters spelling text.toList) :
    ¬ capabilityTag <+: strip isWhitespace spelling := by
  intro tagged
  have small : capabilityTag.all fun c => c.toNat < 128 ∧ c.toLower = c ∧ c ≠ 'ς' := by decide
  have letters : tables.letters capabilityTag = capabilityTag := by
    refine tables.letters_eq_self fun c member => ?_
    obtain ⟨ascii, lower, notFinal⟩ := of_decide_eq_true (List.all_eq_true.mp small c member)
    rw [tables.letter_of_ne notFinal, tables.lower_ascii c ascii, lower]
  have within := (tagged.isInfix.trans (strip_within isWhitespace spelling)).flatMap tables.letter
  rw [← same, ← letters] at untagged
  exact untagged within

theorem score_lone (other : field ≠ .nodeId)
    (missed : tables.Missed text.toList (field.shown tables text) spelling)
    (chars : q.toList = strip isWhitespace spelling) (untagged : ¬ capabilityTag <+: q.toList)
    (differs : status.toText ≠ q) :
    scoreNode tables.toLowercase (lone field text status) q = 0 := by
  obtain ⟨c, there, lettered⟩ := missed.lettered
  rw [← chars] at there
  refine score_eq_zero (List.ne_nil_of_mem there) untagged differs fun named of member within => ?_
  by_cases id : named = .nodeId
  · rw [id] at member within
    have nil : of = Uuid.nil.toText := List.mem_singleton.mp member
    rw [nil, SearchField.shown, if_neg (by decide), lower_nil_id] at within
    exact lettered (nil_id_plain c (within.subset there)).1
  · rcases eq_of_mem_texts_lone id member with ⟨rfl, rfl⟩ | rfl
    · exact missed.absent (chars ▸ within)
    · have empty : named.shown tables "" = [] := by
        unfold SearchField.shown
        split <;> rfl
      rw [empty] at within
      cases within.subset there

theorem plain_of_found (other : field ≠ .nodeId)
    (untagged : ¬ capabilityTag <:+: tables.letters text.toList) (found : Found tables field text) :
    Plain tables field text := by
  by_contra bad
  obtain ⟨spelling, missed⟩ := exists_missed bad
  set q := String.ofList (strip isWhitespace spelling) with spelt
  have chars : q.toList = strip isWhitespace spelling := String.toList_ofList
  have query : tables.toLowercase (trim (String.ofList spelling)) = q := by
    rw [← String.toList_inj, toList_toLowercase, trim_toList, String.toList_ofList,
      missed.small.lowerFrom_eq, chars]
  have plainly : ¬ capabilityTag <+: q.toList := by
    rw [chars]
    exact untagged_of_letters untagged missed.same
  have nonempty : text.toList ≠ [] := by
    intro empty
    obtain ⟨c, there, _⟩ := missed.lettered
    have none : tables.letters spelling = [] := by rw [missed.same, empty, LetterCase.letters_nil]
    exact tables.letter_ne_nil c
      (List.flatMap_eq_nil_iff.mp none c ((strip_within isWhitespace spelling).subset there))
  obtain ⟨status, differs⟩ : ∃ status : NodeStatus, status.toText ≠ q := by
    by_cases online : NodeStatus.online.toText = q
    · exact ⟨.offline, fun offline => absurd (online.trans offline.symm) (by decide)⟩
    · exact ⟨.online, online⟩
  have names : Names tables text (String.ofList spelling) := by
    refine ⟨[], spelling, [], text.toList, ?_, List.forall_mem_nil _, List.forall_mem_nil _,
      missed.same, nonempty, List.infix_rfl⟩
    rw [String.toList_ofList, List.nil_append, List.append_nil]
  have positive := score_pos_of_found
    (found (AList.singleton Uuid.nil (lone field text status)) [lone field text status] (.refl _) _
    List.mem_cons_self (texts_lone status other) _ names (by rwa [query]))
  rw [query, score_lone other missed chars plainly differs] at positive
  cases positive

/-- The query for the whole name of a platform is found in some text only where the name in lower
case is. -/
theorem platformShown_of_found (regular : Regular tables node) (member : node ∈ values)
    (finds : FindsAll tables values) :
    PlatformShown tables node := by
  by_cases empty : platformQuery tables node = []
  · exact ⟨.platform, _, List.mem_singleton_self _, empty ▸ List.nil_infix⟩
  set text := node.platform.toText with named
  have plain : ¬ LetterCase.HasSigma text.toList :=
    regular.noSigma .platform text (List.mem_singleton_self _)
  have nonempty : text.toList ≠ [] := by
    intro none
    refine empty ?_
    rw [platformQuery, ← named, none]
    rfl
  have names : Names tables text (tables.toLowercase text) := by
    refine ⟨[], tables.lowerFrom [] text.toList, [], text.toList, ?_, List.forall_mem_nil _,
      List.forall_mem_nil _,
      tables.letters_lowerFrom [] text.toList, nonempty, List.infix_rfl⟩
    rw [toList_toLowercase, List.nil_append, List.append_nil]
  have query : (tables.toLowercase (trim (tables.toLowercase text))).toList =
      platformQuery tables node := by
    have lower : tables.lowerFrom [] text.toList = text.toList.flatMap tables.lower :=
      tables.lowerFrom_eq fun capital => plain (.inl capital)
    rw [toList_toLowercase, trim_toList, toList_toLowercase, lower,
      (tables.small_lower text.toList).strip.lowerFrom_eq]
    rfl
  have positive := score_pos_of_found
    (finds node member .platform text (List.mem_singleton_self _) _ names (query ▸ regular.untagged))
  by_contra hidden
  refine Nat.lt_irrefl 0
    (positive.trans_eq (score_eq_zero (query ▸ empty) (query ▸ regular.untagged) ?_ ?_))
  · rintro status
    exact regular.status (by rw [status, query])
  · intro field other there within
    exact hidden ⟨field, other, there, query ▸ within⟩

theorem found_of_platformShown (regular : ∀ node ∈ values, Regular tables node)
    (shown : ∀ node ∈ values, PlatformShown tables node) : FindsAll tables values := by
  intro node member field text there _ names _
  by_cases platform : field = .platform
  · subst platform
    obtain ⟨_, _, _, _, split, blankFront, blankBack, same, _, within⟩ := names
    obtain ⟨_, _, among, whole⟩ := shown node member
    refine mem_search member (score_pos_of_shown among (List.IsInfix.trans ?_ whole))
    have noSigma := (regular node member).noSigma .platform text there
    rw [toList_toLowercase, trim_toList, split, strip_pad blankFront blankBack]
    have found := tables.lower_within_strip noSigma within same
    rwa [List.mem_singleton.mp there] at found
  · have plain : Plain tables field text :=
      ⟨(regular node member).noSigma field text there, fun same => absurd same platform⟩
    exact mem_search member (score_pos_of_plain plain there names)

theorem toText_ascii (id : NodeId) : ∀ c ∈ id.toText.toList, c.toNat < 128 := by
  have digit : ∀ digit < 16, (Nat.digitChar digit).toNat < 128 := by decide
  have digits : ∀ c ∈ id.bytes.flatMap lowerHex, c.toNat < 128 := by
    intro c member
    obtain ⟨byte, _, among⟩ := List.mem_flatMap.mp member
    have bound := byte.toNat_lt
    rw [lowerHex, List.mem_cons, List.mem_singleton] at among
    rcases among with rfl | rfl
    · exact digit _ (by omega)
    · exact digit _ (by omega)
  have hyphen : '-'.toNat < 128 := by decide
  rw [Uuid.toText, String.toList_ofList]
  generalize id.bytes.flatMap lowerHex = text at digits
  intro c member
  simp only [List.mem_append, List.mem_cons] at member
  rcases member with (((first | rfl | second) | rfl | third) | rfl | fourth) | rfl | fifth
  · exact digits c (List.mem_of_mem_take first)
  · exact hyphen
  · exact digits c (List.mem_of_mem_drop (List.mem_of_mem_take second))
  · exact hyphen
  · exact digits c (List.mem_of_mem_drop (List.mem_of_mem_take third))
  · exact hyphen
  · exact digits c (List.mem_of_mem_drop (List.mem_of_mem_take fourth))
  · exact hyphen
  · exact digits c (List.mem_of_mem_drop fifth)

theorem plain_id (tables : LetterCase isWhitespace)
    (id : NodeId) : Plain tables .nodeId id.toText := by
  refine ⟨?_, nofun⟩
  rintro (capital | small | final)
  · exact absurd (toText_ascii id _ capital) (by decide)
  · exact absurd (toText_ascii id _ small) (by decide)
  · exact absurd (toText_ascii id _ final) (by decide)

/-- A search returns the nodes with a score, each once and the highest first. A node is found by
every part of its id, and of any other of its texts that has no sigma and, where it is that of its
platform, is in lower case; a text in which the tag does not occur is always found only then. Where
the nodes are regular, every node is found by every part of its texts exactly when the name of its
platform in lower case is in one of them as the score has it. -/
theorem search_finds (tables : LetterCase isWhitespace) :
    (∀ (query : String) (values : List ConnectedNode),
      (search tables.toLowercase query values).Perm
          ((values.filter fun node =>
            0 < scoreNode tables.toLowercase node (tables.toLowercase (trim query))).map
              (foundAs tables.toLowercase query)) ∧
        (search tables.toLowercase query values).Pairwise fun first second =>
        second.score ≤ first.score) ∧
      (∀ (field : SearchField) (text : String), Plain tables field text → Found tables field text) ∧
      (∀ id : NodeId, Plain tables .nodeId id.toText) ∧
      (∀ (field : SearchField) (text : String), field ≠ .nodeId →
        ¬ capabilityTag <:+: tables.letters text.toList →
        (Found tables field text ↔ Plain tables field text)) ∧
      ∀ (registry : Registry) (values : List ConnectedNode), values.Perm registry.values →
        (∀ node ∈ values, Regular tables node) →
        (FindsAll tables values ↔ ∀ node ∈ values, PlatformShown tables node) :=
  ⟨fun query values => ⟨search_perm _ query values, search_sorted _ query values⟩, fun _ _ =>
    found_of_plain, plain_id tables,
    fun _ _ other untagged => ⟨plain_of_found other untagged, found_of_plain⟩,
    fun _ _ _ regular =>
    ⟨fun finds node member => platformShown_of_found (regular node member) member finds,
      found_of_platformShown regular⟩⟩

theorem toLower_cases (c : Char) :
    c.toLower = c ∨ c.toLower.isAlpha = true ∧ c.toLower.toLower = c.toLower ∧
      isWhitespace c.toLower = false ∧ c.toLower.toNat < 128 := by
  rcases Nat.lt_or_ge c.toNat 0x80 with ascii | beyond
  · have all : ∀ number < 0x80, (Char.ofNat number).toLower = Char.ofNat number ∨
        (Char.ofNat number).toLower.isAlpha = true ∧
        (Char.ofNat number).toLower.toLower = (Char.ofNat number).toLower ∧
          isWhitespace (Char.ofNat number).toLower = false ∧
          (Char.ofNat number).toLower.toNat < 128 := by
      decide +kernel
    have here := all c.toNat ascii
    rwa [Char.ofNat_toNat] at here
  · exact .inl (toLower_high beyond)

def asciiCase : LetterCase isWhitespace where
  lower c := if c = 'Σ' then ['σ'] else [c.toLower]
  cased c := c.isAlpha || c = 'Σ' || c = 'σ' || c = 'ς'
  caseIgnorable c := c = '.' || c = ':' || c = '^'
  lower_ne_nil c := by split <;> exact List.cons_ne_nil _ _
  lower_lower c d member := by
    split at member
    · rw [List.mem_singleton.mp member]
      decide
    · rename_i other
      rw [List.mem_singleton.mp member]
      rcases toLower_cases c with same | ⟨_, small, _, ascii⟩
      · rw [same, if_neg other, same]
      · rw [if_neg (by rintro sigma; rw [sigma] at ascii; exact absurd ascii (by decide)), small]
  lower_sigma := rfl
  lower_finalSigma := by decide
  sigma_of_lower c member := by
    split at member
    · rename_i capital
      exact .inl capital
    · have lower := List.mem_singleton.mp member
      rcases toLower_cases c with same | ⟨_, _, _, ascii⟩
      · exact .inr (lower.trans same).symm
      · rw [← lower] at ascii
        exact absurd ascii (by decide)
  finalSigma_of_lower c member := by
    split at member
    · exact absurd (List.mem_singleton.mp member) (by decide)
    · have lower := List.mem_singleton.mp member
      rcases toLower_cases c with same | ⟨_, _, _, ascii⟩
      · exact (lower.trans same).symm
      · rw [← lower] at ascii
        exact absurd ascii (by decide)
  lower_ascii c ascii := if_neg (by rintro rfl; exact absurd ascii (by decide))
  alone c d member plain := by
    split at member
    · rw [List.mem_singleton.mp member] at plain
      exact absurd plain (by decide)
    · rw [List.mem_singleton.mp member] at plain ⊢
      rcases toLower_cases c with same | ⟨letter, _, solid, _⟩
      · exact same.symm
      · rcases plain with blank | ⟨_, none⟩
        · rw [solid] at blank
          cases blank
        · rw [letter] at none
          cases none

def freeBsd : ConnectedNode :=
  { nodeId := .nil, name := "Node (00000000)", platform := .unknown "FreeBSD",
    capabilities := [.fileTransfer], version := "0.1.0"
    status := .online, lastSeen := 0, tx := 0, connectionId := .nil }

/-- A node is not found by the name of its platform. -/
theorem freeBsd_missed : Names asciiCase freeBsd.platform.toText "FreeBSD" ∧
      search asciiCase.toLowercase "FreeBSD" [freeBsd] = [] := by
  constructor
  · exact ⟨[], "FreeBSD".toList, [], "FreeBSD".toList, rfl, List.forall_mem_nil _,
      List.forall_mem_nil _, rfl, by decide, List.infix_rfl⟩
  · have score : scoreNode asciiCase.toLowercase freeBsd (asciiCase.toLowercase (trim "FreeBSD")) =
        0 := by decide +kernel
    have found := search_perm asciiCase.toLowercase "FreeBSD" [freeBsd]
    rw [List.filter_cons_of_neg (by rw [score]; decide)] at found
    exact found.eq_nil

end DistributedOs.Relay
