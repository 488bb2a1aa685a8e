import Mathlib.Data.List.Basic
import Mathlib.Data.List.Count

/-! In-place update of the first element a predicate selects. -/

namespace DistributedOs.Semantics

universe u v
variable {α : Type u} {β : Type v} {selects : α → Bool} {change : α → α} {items : List α}
  {index : Nat}

def modifyFirst (selects : α → Bool) (change : α → α) : List α → List α
  | [] => []
  | item :: rest => if selects item then change item :: rest else item :: modifyFirst selects change rest

theorem map_modifyFirst {project : α → β} (kept : ∀ item, project (change item) = project item)
    (items : List α) : (modifyFirst selects change items).map project = items.map project := by
  induction items with
  | nil => rfl
  | cons _ _ ih =>
    simp only [modifyFirst]
    split <;> simp [kept, ih]

theorem find?_eq_getElem?
    (before : ∀ earlier < index, ∀ item, items[earlier]? = some item → selects item = false)
    (here : ∀ item, items[index]? = some item → selects item = true) :
    items.find? selects = items[index]? := by
  induction items generalizing index with
  | nil => rfl
  | cons head _ ih =>
    cases index with
    | zero => simp [here head rfl]
    | succ =>
      have rejected : selects head = false := before 0 (by omega) head rfl
      rw [List.find?_cons, rejected, List.getElem?_cons_succ]
      exact ih (fun earlier less item found => before (earlier + 1) (by omega) item found) here

theorem modifyFirst_eq_modify
    (before : ∀ earlier < index, ∀ item, items[earlier]? = some item → selects item = false)
    (here : ∀ item, items[index]? = some item → selects item = true) :
    modifyFirst selects change items = items.modify index change := by
  induction items generalizing index with
  | nil => simp [modifyFirst]
  | cons head _ ih =>
    cases index with
    | zero => simp [modifyFirst, here head rfl]
    | succ =>
      have rejected : selects head = false := before 0 (by omega) head rfl
      rw [modifyFirst, rejected, List.modify_succ_cons]
      simpa using ih (fun earlier less item found => before (earlier + 1) (by omega) item found) here

theorem countP_modifyFirst (found : items.find? selects = some item) :
    (modifyFirst selects change items).countP counts + (if counts item then 1 else 0) =
      items.countP counts + (if counts (change item) then 1 else 0) := by
  induction items with
  | nil => cases found
  | cons _ _ ih =>
    rw [List.find?_cons] at found
    simp only [modifyFirst, List.countP_cons]
    split at found
    · rename_i chosen
      cases found
      simp only [chosen, ↓reduceIte, List.countP_cons]
      omega
    · rename_i rejected
      have tail := ih found
      simp only [rejected, Bool.false_eq_true, ↓reduceIte, List.countP_cons]
      omega

end DistributedOs.Semantics
