import DistributedOs.Discovery.Wire
import DistributedOs.Semantics.Codec
import DistributedOs.Semantics.Table
import Mathlib.Logic.Function.Basic

/-! The SQLite repository of settings, and the identity of an agent, whose signing key is the one
setting that is kept in it. -/

namespace DistributedOs.Storage

open Discovery (Uuid)
open Semantics

structure Setting where
  key : String
  value : String
  deriving DecidableEq

abbrev Settings := Table Setting String Setting.key

namespace Settings

def get (settings : Settings) (key : String) : Option String :=
  (settings.find key).map Setting.value

/-- `INSERT .. ON CONFLICT(key) DO UPDATE`. -/
def set (settings : Settings) (key value : String) : Settings := settings.upsert { key, value }

end Settings

theorem get_set (settings : Settings) (key value wanted : String) :
    (settings.set key value).get wanted = Function.update settings.get key (some value) wanted := by
  rw [Settings.get, Settings.set, Table.find_upsert, Function.update_apply]
  by_cases same : wanted = key
  · rw [if_pos same.symm, if_pos same]
    rfl
  · rw [if_neg (Ne.symm same), if_neg same]
    rfl

abbrev SigningKey := { bytes : Bytes // bytes.length = 32 }

/-- What an identity is derived with: the public key of a signing key, and the name-based UUID of
that. -/
structure Derivation where
  verifyingKey : SigningKey → Bytes
  newV5 : Bytes → Uuid

structure NodeIdentity where
  signingKey : SigningKey
  nodeId : Uuid

def NodeIdentity.fromBytes (derivation : Derivation) (signingKey : SigningKey) : NodeIdentity :=
  { signingKey, nodeId := derivation.newV5 (derivation.verifyingKey signingKey) }

def identityKey : String := "node_identity_signing_key"

def readKey (text : String) : Option SigningKey :=
  (hexDecode text).bind fun bytes => if size : bytes.length = 32 then some ⟨bytes, size⟩ else none

def storedKey (settings : Settings) : Option SigningKey := (settings.get identityKey).bind readKey

/-- What is left to chance in a start: whether the query fails, the key that would be generated, and
whether the statement that saves it fails. -/
structure Start where
  getFails : Bool
  generated : SigningKey
  setFails : Bool

/-- `load_or_generate_identity`, of either agent. -/
def loadOrGenerateIdentity (derivation : Derivation) (settings : Settings)
    (start : Start) : NodeIdentity × Settings :=
  match if start.getFails then none else storedKey settings with
  | some key => (.fromBytes derivation key, settings)
  | none =>
    (.fromBytes derivation start.generated,
      if start.setFails then settings else settings.set identityKey (hexEncode start.generated.val))

def identities (derivation : Derivation) : Settings → List Start → List NodeIdentity
  | _, [] => []
  | settings, start :: starts =>
    let started := loadOrGenerateIdentity derivation settings start
    started.1 :: identities derivation started.2 starts

/-- A start finds an identity in the database. -/
def Start.loads (start : Start) (settings : Settings) : Prop :=
  start.getFails = false ∧ (storedKey settings).isSome

variable {derivation : Derivation} {settings : Settings} {start : Start} {starts : List Start}
  {key : SigningKey}

theorem storedKey_set (settings : Settings) (key : SigningKey) :
    storedKey (settings.set identityKey (hexEncode key.val)) = some key := by
  rw [storedKey, get_set, Function.update_self, Option.bind_some, readKey, hexDecode_hexEncode,
    Option.bind_some,
    dif_pos key.property]

theorem load_stored (stored : storedKey settings = some key) (works : start.getFails = false) :
    loadOrGenerateIdentity derivation settings start = (.fromBytes derivation key, settings) := by
  rw [loadOrGenerateIdentity, works, stored]
  rfl

theorem load_generated (missing : ¬ start.loads settings) :
    loadOrGenerateIdentity derivation settings start =
      (.fromBytes derivation start.generated,
        if start.setFails then settings
        else settings.set identityKey (hexEncode start.generated.val)) := by
  unfold loadOrGenerateIdentity
  split
  · rename_i found
    split at found
    · cases found
    · rename_i works
      exact absurd ⟨Bool.eq_false_iff.mpr works, by rw [found]; rfl⟩ missing
  · rfl

theorem fromBytes_injective : Function.Injective (NodeIdentity.fromBytes derivation) := by
  intro _ _ same
  exact (NodeIdentity.mk.inj same).1

theorem identities_stored (stored : storedKey settings = some key)
    (works : ∀ start ∈ starts, start.getFails = false) :
    ∀ identity ∈ identities derivation settings starts, identity = .fromBytes derivation key := by
  induction starts with
  | nil => nofun
  | cons start _ ih =>
    rw [identities, load_stored stored (works start List.mem_cons_self)]
    intro identity member
    rcases List.mem_cons.mp member with rfl | later
    · rfl
    · exact ih (fun other inside => works other (List.mem_cons_of_mem _ inside)) identity later

theorem exists_other (stored : storedKey settings = some key)
    (fresh : ∀ start ∈ starts, start.generated ≠ key) (member : failing ∈ starts)
    (fails : failing.getFails = true) :
    ∃ identity ∈ identities derivation settings starts, identity ≠ .fromBytes derivation key := by
  induction starts with
  | nil => cases member
  | cons start starts ih =>
    by_cases works : start.getFails = false
    · rw [identities, load_stored stored works]
      have later : failing ∈ starts := by
        rcases List.mem_cons.mp member with rfl | later
        · rw [works] at fails
          cases fails
        · exact later
      obtain ⟨identity, inside, other⟩ := ih
        (fun start inside => fresh start (List.mem_cons_of_mem _ inside)) later
      exact ⟨identity, List.mem_cons_of_mem _ inside, other⟩
    · rw [identities, load_generated (fun loads => works loads.1)]
      exact ⟨_, List.mem_cons_self, fun same =>
        fresh start List.mem_cons_self (fromBytes_injective same)⟩

theorem identities_iff (stored : storedKey settings = some key)
    (fresh : ∀ start ∈ starts, start.generated ≠ key) :
    (∀ identity ∈ identities derivation settings starts, identity = .fromBytes derivation key) ↔
      ∀ start ∈ starts, start.getFails = false := by
  constructor
  · intro same _ member
    by_contra fails
    obtain ⟨identity, inside, other⟩ := exists_other stored fresh member
      (Bool.eq_true_of_not_eq_false fails)
    exact other (same identity inside)
  · exact identities_stored stored

/-- Where no key is generated twice, nor the one in the database, all starts have one identity
exactly when the first one finds it or saves it and the database answers all others. -/
theorem identities_stable_iff (derivation : Derivation) (settings : Settings) (start : Start)
    (starts : List Start)
    (fresh : ((storedKey settings).toList ++ (start :: starts).map Start.generated).Nodup) :
    (∀ identity ∈ identities derivation settings (start :: starts),
      identity = (loadOrGenerateIdentity derivation settings start).1) ↔
      starts = [] ∨ (start.loads settings ∨ start.setFails = false) ∧
      ∀ later ∈ starts, later.getFails = false := by
  rw [List.map_cons, List.nodup_append] at fresh
  obtain ⟨_, generated, apart⟩ := fresh
  have ⟨notAgain, _⟩ := List.nodup_cons.mp generated
  have newer : ∀ later ∈ starts, later.generated ≠ start.generated :=
    fun later member same => notAgain (same ▸ List.mem_map_of_mem member)
  have unsaved : ∀ key, storedKey settings = some key → ∀ later ∈ start :: starts,
      later.generated ≠ key := by
    intro key stored later member same
    exact apart key (by simp [stored]) later.generated (List.mem_map_of_mem member) same.symm
  have oneStart : starts = [] → ∀ later ∈ starts, later.getFails = false := by
    rintro rfl
    nofun
  rw [identities, List.forall_mem_cons]
  by_cases loads : start.loads settings
  · obtain ⟨key, stored⟩ := Option.isSome_iff_exists.mp loads.2
    rw [load_stored stored loads.1]
    simp only [true_and]
    rw [identities_iff stored fun later member =>
      unsaved key stored later (List.mem_cons_of_mem _ member)]
    exact ⟨fun works => .inr ⟨.inl loads, works⟩, fun either => either.elim oneStart And.right⟩
  · rw [load_generated loads]
    simp only [true_and]
    cases setFails : start.setFails with
    | false =>
      simp only [Bool.false_eq_true, if_false]
      rw [identities_iff (storedKey_set settings start.generated) newer]
      exact ⟨fun works => .inr ⟨.inr trivial, works⟩, fun either => either.elim oneStart And.right⟩
    | true =>
      simp only [if_true]
      constructor
      · intro same
        cases starts with
        | nil => exact .inl rfl
        | cons second =>
          -- The second start finds an older key, or makes a newer one.
          have first := same _ List.mem_cons_self
          by_cases found : second.loads settings
          · obtain ⟨key, stored⟩ := Option.isSome_iff_exists.mp found.2
            rw [load_stored stored found.1] at first
            exact absurd (fromBytes_injective first).symm (unsaved key stored start List.mem_cons_self)
          · rw [load_generated found] at first
            exact absurd (fromBytes_injective first) (newer second List.mem_cons_self)
      · rintro (rfl | ⟨found | saved, _⟩)
        · nofun
        · exact absurd found loads
        · cases saved

def sampleKey (byte : UInt8) : SigningKey := ⟨List.replicate 32 byte, List.length_replicate⟩

/-- The public key is the signing key, and all identities have one id. -/
def sampleDerivation : Derivation := { verifyingKey := Subtype.val, newV5 := fun _ => .nil }

/-- A first start that saves its key, and one that is not answered. -/
theorem identities_of_unanswered :
    ¬ ∀ identity ∈ identities sampleDerivation Table.empty [⟨false, sampleKey 1, false⟩,
      ⟨true, sampleKey 2, false⟩],
      identity = (loadOrGenerateIdentity sampleDerivation Table.empty
        ⟨false, sampleKey 1, false⟩).1 := by
  have unset : storedKey Table.empty = none := rfl
  rw [identities_stable_iff sampleDerivation Table.empty ⟨false, sampleKey 1, false⟩
    [⟨true, sampleKey 2, false⟩]
    (by rw [unset]; decide)]
  rintro (none | ⟨_, works⟩)
  · cases none
  · cases works _ List.mem_cons_self

end DistributedOs.Storage
