import DistributedOs.Pairing.Manager
import DistributedOs.Semantics.Execution

/-! The file behind the trust store. The pairing manager and the TLS layer each have an instance
of the store, which caches the whole map and writes it back whole. -/

namespace DistributedOs.Pairing

open Semantics

structure StoredEntry extends TrustEntry where
  trustedSince : Nat
  deriving DecidableEq

abbrev Entries := AList fun _ : String => StoredEntry

/-- What `tofu.json` parses to, nothing if it is not there or does not parse, and the time of
its last change, as coarse as the file system has it. -/
structure StoreFile where
  entries : Option Entries
  mtime : Option Nat

/-- Where an instance is in `trust`: the entry is in the map but not in the file, or the file
is written and its time is not read. -/
inductive TrustPhase where
  | idle
  | writing (entry : StoredEntry)
  | stamping
  deriving DecidableEq

structure StoreInstance where
  entries : Entries
  lastMtime : Option Nat
  phase : TrustPhase

namespace StoreInstance

def load (file : StoreFile) : StoreInstance :=
  { entries := file.entries.getD ∅, lastMtime := file.mtime, phase := .idle }

def reloadIfChanged (store : StoreInstance) (file : StoreFile) : StoreInstance :=
  if file.mtime ≠ store.lastMtime then
    match file.entries with
    | some entries => { store with entries, lastMtime := file.mtime }
    | none => store
  else store

end StoreInstance

/-- Who has an instance. -/
inductive Holder where
  | manager
  | tls
  deriving DecidableEq

/-- The file, the instances, and what the finished calls of `trust` have trusted. -/
structure SharedStore where
  file : StoreFile
  stores : Holder → StoreInstance
  trusted : Entries

inductive StoreLabel where
  | load (holder : Holder)
  | trust (holder : Holder) (entry : StoredEntry)
  | write (holder : Holder) (outcome : WriteOutcome) (mtime : Nat)
  | stamp (holder : Holder)
  | reload (holder : Holder)

def StoreFile.write (file : StoreFile) (entries : Entries) (outcome : WriteOutcome)
    (mtime : Nat) : StoreFile :=
  match outcome with
  | .written => { entries := some entries, mtime := some mtime }
  | .unopened => file
  | .cut => { entries := none, mtime := some mtime }

namespace SharedStore

def new (file : StoreFile) : SharedStore :=
  { file, stores := fun _ => .load file, trusted := file.entries.getD ∅ }

def put (shared : SharedStore) (holder : Holder) (store : StoreInstance) : SharedStore :=
  { shared with stores := Function.update shared.stores holder store }

/-- The calls of one instance exclude each other. -/
def step (shared : SharedStore) : StoreLabel → Option SharedStore
  | .load holder =>
    match (shared.stores holder).phase with
    | .idle => some (shared.put holder (.load shared.file))
    | _ => none
  | .trust holder entry =>
    let store := shared.stores holder
    match store.phase with
    | .idle =>
      some (shared.put holder { store with
        entries := store.entries.insert entry.peerId entry, phase := .writing entry })
    | _ => none
  | .write holder outcome mtime =>
    let store := shared.stores holder
    match store.phase with
    | .writing entry =>
      some
        { shared.put holder { store with phase := .stamping } with
          file := shared.file.write store.entries outcome mtime
          trusted := shared.trusted.insert entry.peerId entry }
    | _ => none
  | .stamp holder =>
    let store := shared.stores holder
    match store.phase with
    | .stamping => some (shared.put holder { store with lastMtime := shared.file.mtime, phase := .idle })
    | _ => none
  | .reload holder =>
    let store := shared.stores holder
    match store.phase with
    | .idle => some (shared.put holder (store.reloadIfChanged shared.file))
    | _ => none

def Agree (first second : Entries) : Prop := ∀ peerId, first.lookup peerId = second.lookup peerId

/-- The file has every entry that was trusted, and an instance has it after a reload. -/
structure Settled (shared : SharedStore) : Prop where
  file : Agree (shared.file.entries.getD ∅) shared.trusted
  reloaded : ∀ holder, (shared.stores holder).phase = .idle →
    Agree ((shared.stores holder).reloadIfChanged shared.file).entries shared.trusted

/-- An instance writes a map that agrees with the file but for the entry it has just trusted,
at a time that no idle instance with another map has for the file. When it stamps, the file is
still as it has written it. -/
def current (shared : SharedStore) : StoreLabel → Prop
  | .write holder outcome mtime =>
    match (shared.stores holder).phase, outcome with
    | .writing entry, .written =>
      (∀ peerId ≠ entry.peerId,
        (shared.stores holder).entries.lookup peerId = (shared.file.entries.getD ∅).lookup peerId) ∧
        ∀ other ≠ holder, (shared.stores other).phase = .idle →
        (shared.stores other).lastMtime = some mtime →
          Agree (shared.stores other).entries (shared.stores holder).entries
    | .writing entry, .unopened => (shared.file.entries.getD ∅).lookup entry.peerId = some entry
    | _, _ => False
  | .stamp holder => Agree (shared.stores holder).entries (shared.file.entries.getD ∅)
  | _ => True

/-- The entry that is being trusted is in the map. -/
def Kept (shared : SharedStore) : Prop :=
  ∀ holder entry, (shared.stores holder).phase = .writing entry →
    (shared.stores holder).entries.lookup entry.peerId = some entry

variable {shared after : SharedStore} {holder other : Holder} {store : StoreInstance}
  {file : StoreFile} {label : StoreLabel} {entry : StoredEntry} {outcome : WriteOutcome}
  {mtime : Nat}

@[simp] theorem put_same (shared : SharedStore) (holder : Holder) (store : StoreInstance) :
    (shared.put holder store).stores holder = store := by simp [put]

theorem put_of_ne (different : other ≠ holder) :
    (shared.put holder store).stores other = shared.stores other := by
  simp [put, different]

theorem reloadIfChanged_of_same (same : file.mtime = store.lastMtime) :
    store.reloadIfChanged file = store := by
  simp [StoreInstance.reloadIfChanged, same]

theorem reloadIfChanged_of_changed {entries : Entries} (changed : file.mtime ≠ store.lastMtime)
    (read : file.entries = some entries) :
    store.reloadIfChanged file = { store with entries, lastMtime := file.mtime } := by
  simp [StoreInstance.reloadIfChanged, changed, read]

@[simp] theorem phase_reloadIfChanged (store : StoreInstance) (file : StoreFile) :
    (store.reloadIfChanged file).phase = store.phase := by
  unfold StoreInstance.reloadIfChanged
  split
  · split <;> rfl
  · rfl

theorem reloadIfChanged_twice (store : StoreInstance) (file : StoreFile) :
    (store.reloadIfChanged file).reloadIfChanged file = store.reloadIfChanged file := by
  by_cases same : file.mtime = store.lastMtime
  · rw [reloadIfChanged_of_same same, reloadIfChanged_of_same same]
  · cases read : file.entries with
    | some =>
      rw [reloadIfChanged_of_changed same read]
      exact reloadIfChanged_of_same rfl
    | none => simp [StoreInstance.reloadIfChanged, read]

theorem reloadIfChanged_load
    (file : StoreFile) : (StoreInstance.load file).reloadIfChanged file = .load file :=
  reloadIfChanged_of_same rfl

theorem Kept.new (file : StoreFile) : Kept (.new file) := by
  intro _ _ writing
  cases writing

theorem Kept.put (kept : Kept shared)
    (own : ∀ entry, store.phase = .writing entry → store.entries.lookup entry.peerId = some entry) :
    Kept (shared.put holder store) := by
  intro other entry writing
  by_cases same : other = holder
  · subst same
    rw [put_same] at writing ⊢
    exact own entry writing
  · rw [put_of_ne same] at writing ⊢
    exact kept other entry writing

theorem of_step (taken : shared.step label = some after) :
    match label with
    | .load holder =>
      (shared.stores holder).phase = .idle ∧ after = shared.put holder (.load shared.file)
    | .trust holder entry =>
      (shared.stores holder).phase = .idle ∧
        after = shared.put holder
          { shared.stores holder with
            entries := (shared.stores holder).entries.insert entry.peerId entry
            phase := .writing entry }
    | .write holder outcome mtime =>
      ∃ entry, (shared.stores holder).phase = .writing entry ∧
        after =
          { shared.put holder { shared.stores holder with phase := .stamping } with
            file := shared.file.write (shared.stores holder).entries outcome mtime
            trusted := shared.trusted.insert entry.peerId entry }
    | .stamp holder =>
      (shared.stores holder).phase = .stamping ∧
        after = shared.put holder
          { shared.stores holder with lastMtime := shared.file.mtime, phase := .idle }
    | .reload holder =>
      (shared.stores holder).phase = .idle ∧
        after = shared.put holder ((shared.stores holder).reloadIfChanged shared.file) := by
  cases label with
  | write =>
    simp only [SharedStore.step] at taken
    split at taken
    · rename_i entry writing
      cases taken
      exact ⟨entry, writing, rfl⟩
    · cases taken
  | load | trust | stamp | reload =>
    simp only [SharedStore.step] at taken
    split at taken
    · rename_i phase
      cases taken
      exact ⟨phase, rfl⟩
    · cases taken

theorem Kept.step (kept : Kept shared) (taken : shared.step label = some after) : Kept after := by
  have did := of_step taken
  cases label with
  | load =>
    obtain ⟨_, rfl⟩ := did
    exact kept.put nofun
  | trust =>
    obtain ⟨_, rfl⟩ := did
    refine kept.put ?_
    rintro _ same
    cases same
    exact AList.lookup_insert _
  | write holder =>
    obtain ⟨entry, writing, rfl⟩ := did
    have written : Kept (shared.put holder { shared.stores holder with phase := .stamping }) :=
      kept.put nofun
    exact written
  | stamp =>
    obtain ⟨_, rfl⟩ := did
    exact kept.put nofun
  | reload =>
    obtain ⟨idle, rfl⟩ := did
    refine kept.put ?_
    intro _ writing
    rw [phase_reloadIfChanged, idle] at writing
    cases writing

theorem Settled.new (file : StoreFile) : Settled (.new file) where
  file := fun _ => rfl
  reloaded := by
    intro _ _ peerId
    exact congrArg (fun store : StoreInstance => store.entries.lookup peerId) (reloadIfChanged_load file)

theorem Settled.put_iff (settled : Settled shared) :
    Settled (shared.put holder store) ↔
      (store.phase = .idle → Agree (store.reloadIfChanged shared.file).entries shared.trusted) := by
  constructor
  · intro after idle
    have reloaded := after.reloaded holder (by rw [put_same]; exact idle)
    rwa [put_same] at reloaded
  · intro own
    refine ⟨settled.file, ?_⟩
    intro other idle
    by_cases same : other = holder
    · subst same
      rw [put_same] at idle ⊢
      exact own idle
    · rw [put_of_ne same] at idle ⊢
      exact settled.reloaded other idle

theorem Settled.load (settled : Settled shared) :
    Settled (shared.put holder (.load shared.file)) := by
  refine settled.put_iff.mpr fun _ => ?_
  rw [reloadIfChanged_load]
  exact settled.file

theorem Settled.reload (settled : Settled shared) (idle : (shared.stores holder).phase = .idle) :
    Settled (shared.put holder ((shared.stores holder).reloadIfChanged shared.file)) := by
  refine settled.put_iff.mpr fun _ => ?_
  rw [reloadIfChanged_twice]
  exact settled.reloaded holder idle

theorem Settled.stamp_iff (settled : Settled shared) :
    Settled (shared.put holder
      { shared.stores holder with lastMtime := shared.file.mtime, phase := .idle }) ↔
      Agree (shared.stores holder).entries (shared.file.entries.getD ∅) := by
  rw [settled.put_iff, reloadIfChanged_of_same rfl]
  constructor
  · intro agree peerId
    exact (agree rfl peerId).trans (settled.file peerId).symm
  · intro agree _ peerId
    exact (agree peerId).trans (settled.file peerId)

/-- The file has the entries that were trusted, and the new one among them, exactly when the
map that is written agrees with it on the others. -/
theorem agree_insert_iff {entries : Entries} (settled : Settled shared)
    (own : entries.lookup entry.peerId = some entry) :
    Agree entries (shared.trusted.insert entry.peerId entry) ↔
      ∀ peerId ≠ entry.peerId,
      entries.lookup peerId = (shared.file.entries.getD ∅).lookup peerId := by
  constructor
  · intro agree peerId different
    rw [agree peerId, AList.lookup_insert_ne different, settled.file peerId]
  · intro others peerId
    by_cases same : peerId = entry.peerId
    · rw [same, own, AList.lookup_insert]
    · rw [AList.lookup_insert_ne same, others peerId same, settled.file peerId]

theorem Settled.write_iff (kept : Kept shared) (settled : Settled shared)
    (writing : (shared.stores holder).phase = .writing entry) :
    Settled
        { shared.put holder { shared.stores holder with phase := .stamping } with
          file := shared.file.write (shared.stores holder).entries outcome mtime
          trusted := shared.trusted.insert entry.peerId entry } ↔
      shared.current (.write holder outcome mtime) := by
  have own := kept holder entry writing
  have busy : ∀ other,
      ((shared.put holder { shared.stores holder with phase := .stamping }).stores other).phase = .idle →
      other ≠ holder ∧ (shared.stores other).phase = .idle := by
    intro other idle
    by_cases same : other = holder
    · subst same
      rw [put_same] at idle
      cases idle
    · rw [put_of_ne same] at idle
      exact ⟨same, idle⟩
  cases outcome with
  | written =>
    simp only [current, writing]
    rw [← agree_insert_iff settled own]
    constructor
    · intro after
      refine ⟨after.file, ?_⟩
      intro other different idle sameTime peerId
      have reloaded := after.reloaded other (by simp only; rw [put_of_ne different]; exact idle) peerId
      rw [put_of_ne different, reloadIfChanged_of_same (by exact sameTime.symm)] at reloaded
      exact reloaded.trans (after.file peerId).symm
    · rintro ⟨agree, times⟩
      refine ⟨agree, ?_⟩
      intro other idle
      obtain ⟨different, idle⟩ := busy other idle
      simp only
      rw [put_of_ne different]
      by_cases sameTime : some mtime = (shared.stores other).lastMtime
      · rw [reloadIfChanged_of_same (by exact sameTime)]
        exact fun peerId => (times other different idle sameTime.symm peerId).trans (agree peerId)
      · rw [reloadIfChanged_of_changed sameTime rfl]
        exact agree
  | unopened =>
    simp only [current, writing]
    constructor
    · intro after
      exact (after.file entry.peerId).trans (AList.lookup_insert _)
    · intro there
      have agree : Agree (shared.file.entries.getD ∅) (shared.trusted.insert entry.peerId entry) :=
        (agree_insert_iff settled there).mpr fun _ _ => rfl
      refine ⟨agree, ?_⟩
      intro other idle peerId
      obtain ⟨different, idle⟩ := busy other idle
      simp only
      rw [put_of_ne different]
      exact (settled.reloaded other idle peerId).trans ((settled.file peerId).symm.trans (agree peerId))
  | cut =>
    simp only [current, writing, iff_false]
    intro after
    have lost := after.file entry.peerId
    rw [AList.lookup_insert] at lost
    cases lost

theorem Settled.step_iff (kept : Kept shared) (settled : Settled shared)
    (taken : shared.step label = some after) :
    Settled after ↔ shared.current label := by
  have did := of_step taken
  cases label with
  | load =>
    obtain ⟨_, rfl⟩ := did
    exact iff_of_true settled.load trivial
  | trust =>
    obtain ⟨_, rfl⟩ := did
    exact iff_of_true (settled.put_iff.mpr nofun) trivial
  | write =>
    obtain ⟨_, writing, rfl⟩ := did
    exact settled.write_iff kept writing
  | stamp =>
    obtain ⟨_, rfl⟩ := did
    exact settled.stamp_iff
  | reload =>
    obtain ⟨idle, rfl⟩ := did
    exact iff_of_true (settled.reload idle) trivial

/-- In a run of the two instances, no entry is ever lost exactly when each of them is current
whenever it writes and stamps. -/
theorem settled_of_run (file : StoreFile) {labels : List StoreLabel}
    (run : Execution step anything (.new file) labels after) :
    EveryStep step (fun _ _ after => Settled after) (.new file) labels ↔
      Execution step current (.new file) labels after :=
  run.everyState_iff Kept (.new file) (fun _ _ _ kept taken => kept.step taken) (.new file)
    fun _ _ _ kept settled taken => settled.step_iff kept taken

def sampleEntry (peerId : String) : StoredEntry :=
  { peerId, fingerprint := "f", peerName := "p", trustedSince := 0 }

def trusting (holder : Holder) (peerId : String) (mtime : Nat) : List StoreLabel :=
  [.trust holder (sampleEntry peerId), .write holder .written mtime, .stamp holder]

/-- The second instance reloads before it trusts a peer of its own, and the first one after that. -/
def turnByTurn : List StoreLabel :=
  trusting .manager "a" 1 ++ .reload .tls :: trusting .tls "b" 2 ++ [.reload .manager]

theorem settled_of_two_trusts :
    ∃ shared : SharedStore, Execution step anything (.new ⟨none, none⟩) turnByTurn shared ∧
      shared.trusted.lookup "a" = some (sampleEntry "a") ∧
      shared.trusted.lookup "b" = some (sampleEntry "b") ∧
      EveryStep step (fun _ _ after => Settled after) (.new ⟨none, none⟩) turnByTurn := by
  obtain ⟨shared, run⟩ : ∃ shared, Execution step current (.new ⟨none, none⟩) turnByTurn shared := by
    refine ⟨_, .next trivial rfl
      (.next ⟨?_, ?_⟩ rfl (.next (fun _ => rfl) rfl (.next trivial rfl (.next trivial rfl
      (.next ⟨?_, ?_⟩ rfl (.next (fun _ => rfl) rfl (.single trivial rfl)))))))⟩
    · intro peerId different
      exact AList.lookup_insert_ne different
    · intro other different idle sameTime
      rw [put_of_ne different] at sameTime
      cases sameTime
    · intro _ different
      exact AList.lookup_insert_ne different
    · intro other different _ sameTime
      cases other with
      | manager => cases (show some 1 = some 2 from sameTime)
      | tls => exact absurd rfl different
  have played := execution_iff_replay.mp run.plain
  refine ⟨shared, run.plain, ?_, ?_, (settled_of_run _ run.plain).mpr run⟩
  all_goals
    cases played
    rfl

/-- Each instance trusts a peer, one after the other, and the file keeps one of them. -/
theorem trust_lost :
    ∃ shared : SharedStore,
      Execution step anything (.new ⟨none, none⟩)
        (trusting .manager "a" 1 ++ trusting .tls "b" 2 ++ [.reload .manager]) shared ∧
        (shared.stores .manager).phase = .idle ∧ (shared.stores .tls).phase = .idle ∧
      shared.trusted.lookup "a" = some (sampleEntry "a") ∧
      (shared.file.entries.getD ∅).lookup "a" = none ∧
      ¬ EveryStep step (fun _ _ after => Settled after) (.new ⟨none, none⟩)
        (trusting .manager "a" 1 ++ trusting .tls "b" 2 ++ [.reload .manager]) := by
  obtain ⟨shared, run, good⟩ := exists_execution
    (fun shared : SharedStore => (shared.stores .manager).phase = .idle ∧
      (shared.stores .tls).phase = .idle ∧
      shared.trusted.lookup "a" = some (sampleEntry "a") ∧
      (shared.file.entries.getD ∅).lookup "a" = none)
    (show (replayWhere step (fun _ _ => true) (.new ⟨none, none⟩)
      (trusting .manager "a" 1 ++ trusting .tls "b" 2 ++ [.reload .manager])).any _ = true by decide)
  obtain ⟨manager, tls, trusted, lost⟩ := of_decide_eq_true good
  refine ⟨shared, run.plain, manager, tls, trusted, lost, fun every => ?_⟩
  obtain ⟨_, _, _, settled⟩ := every.last run.plain
  have agree := settled.file "a"
  rw [lost, trusted] at agree
  cases agree

end SharedStore

end DistributedOs.Pairing
