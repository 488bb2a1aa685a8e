import DistributedOs.Semantics.Codec
import Mathlib.Logic.Function.Basic

/-! Files that names stand for. A file is told apart by a number, and stays when its name is taken
away, for those that have it open. -/

namespace DistributedOs.Semantics

universe u

structure Inodes (Name : Type u) where
  links : Name → Option Nat
  contents : Nat → Bytes
  next : Nat

namespace Inodes

variable {Name : Type u}

/-- A write at a position; a gap before it reads as zeros. -/
def write (files : Inodes Name) (file position : Nat) (bytes : Bytes) : Inodes Name :=
  let old := files.contents file
  let before := old.take position ++ List.replicate (position - old.length) 0
  let contents := before ++ bytes ++ old.drop (position + bytes.length)
  { files with contents := Function.update files.contents file contents }

/-- No file has two names, and none of the files with a name is yet to come. -/
structure Sound (files : Inodes Name) : Prop where
  single : ∀ {first second file}, files.links first = some file →
    files.links second = some file → first = second
  old : ∀ {name file}, files.links name = some file → file < files.next

variable {files : Inodes Name} {name other : Name} {file position : Nat} {bytes : Bytes}

theorem Sound.write (sound : files.Sound) (file position : Nat)
    (bytes : Bytes) : (files.write file position bytes).Sound :=
  ⟨sound.single, sound.old⟩

theorem write_other {other : Nat} (different : other ≠ file) (position : Nat) (bytes : Bytes) :
    (files.write file position bytes).contents other = files.contents other :=
  Function.update_of_ne different _ files.contents

theorem write_end (ends : (files.contents file).length = position) (bytes : Bytes) :
    (files.write file position bytes).contents file = files.contents file ++ bytes := by
  unfold Inodes.write
  simp only [Function.update_self]
  rw [← ends, List.take_length, Nat.sub_self, List.drop_eq_nil_of_le (Nat.le_add_right _ _)]
  simp

variable [DecidableEq Name]

def create (files : Inodes Name) (name : Name) : Nat × Inodes Name :=
  match files.links name with
  | some file => (file, { files with contents := Function.update files.contents file [] })
  | none =>
    (files.next, { links := Function.update files.links name (some files.next)
                   contents := Function.update files.contents files.next []
                   next := files.next + 1 })

def unlink (files : Inodes Name) (name : Name) : Inodes Name :=
  { files with links := Function.update files.links name none }

theorem create_links (files : Inodes Name) (name : Name) :
    (files.create name).2.links = Function.update files.links name
      (some (files.create name).1) := by
  unfold create
  split
  · rename_i linked
    rw [← linked, Function.update_eq_self]
  · rfl

theorem create_contents (files : Inodes Name) (name : Name) :
    (files.create name).2.contents = Function.update files.contents (files.create name).1 [] := by
  unfold create
  split <;> rfl

theorem next_le_create (files : Inodes Name)
    (name : Name) : files.next ≤ (files.create name).2.next := by
  unfold create
  split
  · exact Nat.le_refl _
  · exact Nat.le_succ _

theorem create_cases (files : Inodes Name) (name : Name) :
    (files.create name).1 = files.next ∨ files.links name = some (files.create name).1 := by
  unfold create
  split
  · rename_i linked
    exact .inr linked
  · exact .inl rfl

theorem Sound.create_lt (sound : files.Sound)
    (name : Name) : (files.create name).1 < (files.create name).2.next := by
  unfold create
  split
  · rename_i linked
    exact sound.old linked
  · exact Nat.lt_succ_self _

theorem Sound.create_ne (elsewhere : ∀ other, files.links other = some file → other ≠ name)
    (old : file < files.next) :
    (files.create name).1 ≠ file := by
  rintro rfl
  rcases files.create_cases name with _ | linked
  · omega
  · exact elsewhere name linked rfl

theorem Sound.create (sound : files.Sound) (name : Name) : (files.create name).2.Sound := by
  have apart {other : Name} (different : other ≠ name)
      (linked : files.links other = some (files.create name).1) : False := by
    rcases files.create_cases name with _ | named
    · have old := sound.old linked
      omega
    · exact different (sound.single linked named)
  constructor
  · intro _ _ file one two
    rw [create_links, Function.update_apply] at one two
    split at one <;> split at two
    · rename_i same again
      rw [same, again]
    · rename_i different
      cases one
      exact absurd two fun linked => apart different linked
    · rename_i different _
      cases two
      exact absurd one fun linked => apart different linked
    · exact sound.single one two
  · intro _ _ linked
    rw [create_links, Function.update_apply] at linked
    split at linked
    · cases linked
      exact sound.create_lt name
    · exact Nat.lt_of_lt_of_le (sound.old linked) (files.next_le_create name)

theorem links_of_unlink (linked : (files.unlink name).links other = some file) :
    other ≠ name ∧ files.links other = some file := by
  unfold unlink at linked
  simp only [Function.update_apply] at linked
  split at linked
  · cases linked
  · rename_i different
    exact ⟨different, linked⟩

theorem Sound.unlink (sound : files.Sound) (name : Name) : (files.unlink name).Sound :=
  ⟨fun one two => sound.single (links_of_unlink one).2 (links_of_unlink two).2, fun linked =>
    sound.old (links_of_unlink linked).2⟩

end Inodes

end DistributedOs.Semantics
