import Mathlib.Data.List.AList
import Mathlib.Data.List.Basic
import Mathlib.Data.List.Nodup
import Mathlib.Data.List.Perm.Basic

/-! What is found by a key: maps of which some entries are kept, lists of which one element is
replaced by another with its key, and tables with a primary key, in which no two rows share one. -/

namespace DistributedOs.Semantics

universe u v

section Retain
variable {Key : Type u} {Value : Type v} [DecidableEq Key]

omit [DecidableEq Key] in
theorem nodupKeys_filter {entries : List (Sigma fun _ : Key => Value)}
    (distinct : entries.NodupKeys) (keep : (Sigma fun _ : Key => Value) → Bool) :
    (entries.filter keep).NodupKeys :=
  List.NodupKeys.sublist List.filter_sublist distinct

def retain (keep : Key → Value → Bool) (map : AList fun _ : Key => Value) :
    AList fun _ : Key => Value :=
  { entries := map.entries.filter fun entry => keep entry.1 entry.2
    nodupKeys := nodupKeys_filter map.nodupKeys _ }

theorem lookup_retain (keep : Key → Value → Bool) (map : AList fun _ : Key => Value) (key : Key) :
    (retain keep map).lookup key = (map.lookup key).filter (keep key) := by
  refine Option.ext fun value => ?_
  rw [Option.filter_eq_some_iff]
  have kept : value ∈ (retain keep map).lookup key ↔ value ∈ map.lookup key ∧ keep key value = true := by
    rw [AList.mem_lookup_iff, AList.mem_lookup_iff]
    exact List.mem_filter
  exact kept

theorem erase_absent {map : AList fun _ : Key => Value} (absent : map.lookup key = none) :
    map.erase key = map := AList.ext (List.kerase_of_notMem_keys (AList.lookup_eq_none.mp absent))

end Retain

section Keyed
variable {α : Type u} {β : Type v} {key : α → β} {items : List α} {item new other : α} {index : Nat}

theorem map_set_key (found : items[index]? = some item) (same : key new = key item) :
    (items.set index new).map key = items.map key := by
  have keyed : (items.map key)[index]? = some (key new) := by
    rw [List.getElem?_map, found, Option.map_some, same]
  obtain ⟨inside, here⟩ := List.getElem?_eq_some_iff.mp keyed
  rw [List.map_set, ← here]
  exact List.set_getElem_self inside

theorem mem_set_key (apart : items.Pairwise fun one other => key one ≠ key other)
    (found : items[index]? = some item) (member : other ∈ items.set index new) :
    other = new ∨ other ∈ items ∧ key other ≠ key item := by
  obtain ⟨inside, here⟩ := List.getElem?_eq_some_iff.mp found
  obtain ⟨place, there⟩ := List.mem_iff_getElem?.mp member
  rcases eq_or_ne index place with rfl | different
  · rw [List.getElem?_set_self inside] at there
    exact .inl (Option.some.inj there).symm
  · rw [List.getElem?_set_ne different] at there
    obtain ⟨within, same⟩ := List.getElem?_eq_some_iff.mp there
    have pairwise := List.pairwise_iff_getElem.mp apart
    refine .inr ⟨List.mem_of_getElem? there, ?_⟩
    rcases Nat.lt_or_gt_of_ne different with before | later
    · exact here ▸ same ▸ (pairwise _ _ inside within before).symm
    · exact here ▸ same ▸ pairwise _ _ within inside later

theorem mem_set_of_mem (found : items[index]? = some item) (member : other ∈ items) :
    other = item ∧ new ∈ items.set index new ∨ other ∈ items.set index new := by
  obtain ⟨inside, _⟩ := List.getElem?_eq_some_iff.mp found
  obtain ⟨place, there⟩ := List.mem_iff_getElem?.mp member
  rcases eq_or_ne index place with rfl | different
  · exact .inl ⟨Option.some.inj (there.symm.trans found),
      List.mem_of_getElem? (List.getElem?_set_self inside)⟩
  · exact .inr (List.mem_of_getElem? ((List.getElem?_set_ne different).trans there))

theorem pairwise_set_key (apart : items.Pairwise fun one other => key one ≠ key other)
    (found : items[index]? = some item) (same : key new = key item) :
    (items.set index new).Pairwise fun one other => key one ≠ key other := by
  have keys := List.pairwise_map.mpr apart
  rw [← map_set_key found same] at keys
  exact List.pairwise_map.mp keys

end Keyed

structure Table (Row : Type u) (Key : Type v) (key : Row → Key) where
  rows : List Row
  primaryKey : (rows.map key).Nodup

namespace Table
variable {Row : Type u} {Key : Type v} {key : Row → Key}

def empty : Table Row Key key := { rows := [], primaryKey := List.nodup_nil }

/-- The rows in some order of their own, as a query without a total order returns them. -/
def Listed (table : Table Row Key key) (precedes : Row → Row → Prop) (rows : List Row) : Prop :=
  rows.Perm table.rows ∧ rows.Pairwise precedes

variable [DecidableEq Key]

def find (table : Table Row Key key) (wanted : Key) : Option Row :=
  table.rows.find? fun row => key row = wanted

theorem find_eq_some_iff {table : Table Row Key key} :
    table.find wanted = some row ↔ row ∈ table.rows ∧ key row = wanted := by
  constructor
  · intro found
    exact ⟨List.mem_of_find?_eq_some found, by simpa using List.find?_some found⟩
  · rintro ⟨member, same⟩
    have present : (table.rows.find? fun row => key row = wanted).isSome := by
      rw [List.find?_isSome]
      exact ⟨row, member, by simpa using same⟩
    obtain ⟨found, here⟩ := Option.isSome_iff_exists.mp present
    have selected : key found = wanted := by simpa using List.find?_some here
    have equal : found = row :=
      List.inj_on_of_nodup_map table.primaryKey (List.mem_of_find?_eq_some here) member
        (selected.trans same.symm)
    rw [find, here, equal]

theorem mem_rows_iff {table : Table Row Key key} :
    row ∈ table.rows ↔ table.find (key row) = some row := by
  rw [find_eq_some_iff]
  exact (and_iff_left rfl).symm

def upsertRows (key : Row → Key) (row : Row) : List Row → List Row
  | [] => [row]
  | first :: rest => if key first = key row then row :: rest else first :: upsertRows key row rest

theorem mem_upsertRows_iff {rows : List Row} (unique : (rows.map key).Nodup) :
    item ∈ upsertRows key row rows ↔ item = row ∨ item ∈ rows ∧ key item ≠ key row := by
  induction rows with
  | nil => simp [upsertRows]
  | cons first rest ih =>
    obtain ⟨fresh, unique⟩ := List.nodup_cons.mp unique
    have others {item : Row} (member : item ∈ rest) : key item ≠ key first :=
      fun same => fresh (same ▸ List.mem_map_of_mem member)
    rw [upsertRows]
    split
    · rename_i same
      rw [List.mem_cons, List.mem_cons]
      constructor
      · rintro (rfl | member)
        · exact Or.inl rfl
        · exact Or.inr ⟨Or.inr member, same ▸ others member⟩
      · rintro (rfl | ⟨rfl | member, different⟩)
        · exact Or.inl rfl
        · exact absurd same different
        · exact Or.inr member
    · rename_i different
      rw [List.mem_cons, List.mem_cons, ih unique]
      constructor
      · rintro (rfl | rfl | ⟨member, apart⟩)
        · exact Or.inr ⟨Or.inl rfl, different⟩
        · exact Or.inl rfl
        · exact Or.inr ⟨Or.inr member, apart⟩
      · rintro (rfl | ⟨rfl | member, apart⟩)
        · exact Or.inr (Or.inl rfl)
        · exact Or.inl rfl
        · exact Or.inr (Or.inr ⟨member, apart⟩)

theorem nodup_upsertRows {rows : List Row} (unique : (rows.map key).Nodup) :
    ((upsertRows key row rows).map key).Nodup := by
  induction rows with
  | nil => simp [upsertRows]
  | cons _ _ ih =>
    obtain ⟨fresh, unique⟩ := List.nodup_cons.mp unique
    rw [upsertRows]
    split
    · rename_i same
      exact List.nodup_cons.mpr ⟨same ▸ fresh, unique⟩
    · rename_i different
      refine List.nodup_cons.mpr ⟨?_, ih unique⟩
      intro member
      obtain ⟨_, among, same⟩ := List.mem_map.mp member
      rcases (mem_upsertRows_iff unique).mp among with rfl | ⟨old, _⟩
      · exact different same.symm
      · exact fresh (same ▸ List.mem_map_of_mem old)

def upsert (table : Table Row Key key) (row : Row) : Table Row Key key :=
  { rows := upsertRows key row table.rows, primaryKey := nodup_upsertRows table.primaryKey }

def delete (table : Table Row Key key) (unwanted : Key) : Table Row Key key :=
  { rows := table.rows.filter fun row => key row ≠ unwanted
    primaryKey := table.primaryKey.sublist (List.filter_sublist.map key) }

theorem find_upsert (table : Table Row Key key) (row : Row) (wanted : Key) :
    (table.upsert row).find wanted = if key row = wanted then some row else table.find wanted := by
  apply Option.ext
  intro _
  rw [find_eq_some_iff, upsert, mem_upsertRows_iff table.primaryKey]
  split
  · rename_i here
    subst here
    rw [Option.some.injEq]
    exact ⟨fun ⟨member, same⟩ => (member.resolve_right fun ⟨_, different⟩ => different same).symm,
      fun same => ⟨Or.inl same.symm, same ▸ rfl⟩⟩
  · rename_i elsewhere
    rw [find_eq_some_iff]
    constructor
    · rintro ⟨rfl | ⟨member, _⟩, rfl⟩
      · exact absurd rfl elsewhere
      · exact ⟨member, rfl⟩
    · rintro ⟨member, rfl⟩
      exact ⟨Or.inr ⟨member, fun same => elsewhere same.symm⟩, rfl⟩

theorem find_delete (table : Table Row Key key) (unwanted wanted : Key) :
    (table.delete unwanted).find wanted = if unwanted = wanted then none
      else table.find wanted := by
  apply Option.ext
  intro _
  rw [find_eq_some_iff, delete, List.mem_filter, decide_eq_true_iff]
  split
  · rename_i here
    simp only [here, reduceCtorEq, iff_false]
    exact fun ⟨⟨_, different⟩, same⟩ => different same
  · rename_i elsewhere
    rw [find_eq_some_iff]
    exact ⟨fun ⟨⟨member, _⟩, same⟩ => ⟨member, same⟩,
      fun ⟨member, same⟩ => ⟨⟨member, fun other => elsewhere (other.symm.trans same)⟩, same⟩⟩

end Table

end DistributedOs.Semantics
