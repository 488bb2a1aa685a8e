import DistributedOs.Semantics.Execution
import Mathlib.Data.List.Nodup

/-! Pairing by PIN: the slot of the PIN with the timers that clear it, and the table of trusted
peers with its file. A timer goes off when it is due or later, and other things may come first. -/

namespace DistributedOs.Pairing

open Semantics

/-- `trusted_peers.json`. What is written to it is read back, as tokens with their device names. -/
inductive PeersFile where
  | missing
  | malformed
  | peers (entries : List (String × String))
  deriving DecidableEq

/-- A PIN and when it was generated, in milliseconds. -/
structure Issue where
  id : Nat
  pin : String
  issued : Nat
  used : Bool
  deriving DecidableEq

/-- The two statics, the timers by when they are due, and the file. The last four fields record what
happened: how many PINs there have been, the latest of the process, which were accepted, and the
tokens that were returned. -/
structure PinPairing where
  now : Nat
  pairingPin : Option String
  timers : List Nat
  trustedPeers : Option (List (String × String))
  file : PeersFile
  count : Nat
  latest : Option Issue
  accepted : List Nat
  tokens : List String
  deriving DecidableEq

/-- `reload` is a new process that loads the file at its start. -/
inductive PinEvent where
  | tick (elapsed : Nat)
  | expire (timer : Nat)
  | generatePin (pin : String)
  | attemptPair (pin deviceName token : String)
  | loadTrustedPeers
  | reload

def pinLifetime : Nat := 60 * 1000

def isPin (pin : String) : Bool := pin.toList.length = 6 && pin.toList.all Char.isDigit

namespace PinPairing

def new (file : PeersFile) : PinPairing :=
  { now := 0, pairingPin := none, timers := [], trustedPeers := none, file, count := 0,
    latest := none, accepted := [], tokens := [] }

variable (pairing : PinPairing)

/-- A file that is there but is no table leaves the static uninitialised. -/
def loadTrustedPeers : PinPairing :=
  match pairing.file with
  | .missing => { pairing with trustedPeers := some (pairing.trustedPeers.getD []) }
  | .malformed => pairing
  | .peers entries => { pairing with trustedPeers := some (entries ++ pairing.trustedPeers.getD []) }

/-- Into the table, and with the whole table into the file, when there is a table. -/
def insertPeer (token deviceName : String) : PinPairing :=
  match pairing.trustedPeers with
  | none => pairing
  | some peers =>
    { pairing with
      trustedPeers := some ((token, deviceName) :: peers)
      file := .peers ((token, deviceName) :: peers) }

def generatePin (pin : String) : PinPairing :=
  { pairing with
    pairingPin := some pin
    timers := pairing.timers ++ [pairing.now + pinLifetime]
    count := pairing.count + 1
    latest := some { id := pairing.count, pin, issued := pairing.now, used := false } }

def attemptPair (pin deviceName token : String) : PinPairing × Option String :=
  if pairing.pairingPin = some pin then
    ({ pairing.insertPeer token deviceName with
      pairingPin := none
      latest := pairing.latest.map fun issue => { issue with used := true }
      accepted := pairing.accepted ++ (pairing.latest.map Issue.id).toList
      tokens := pairing.tokens ++ [token] }, some token)
  else (pairing, none)

def isAuthenticated (token : String) : Bool :=
  (pairing.trustedPeers.getD []).any fun peer => peer.1 = token

/-- Every timer clears the slot, whichever PIN is in it. -/
def expire (timer : Nat) : PinPairing :=
  { pairing with pairingPin := none, timers := pairing.timers.eraseIdx timer }

def reload : PinPairing :=
  { pairing with
    pairingPin := none, timers := [], trustedPeers := none, latest := none }.loadTrustedPeers

def step (pairing : PinPairing) : PinEvent → Option PinPairing
  | .tick elapsed => some { pairing with now := pairing.now + elapsed }
  | .expire timer =>
    match pairing.timers[timer]? with
    | some due => if due ≤ pairing.now then some (pairing.expire timer) else none
    | none => none
  | .generatePin pin => if isPin pin then some (pairing.generatePin pin) else none
  | .attemptPair pin deviceName token => some (pairing.attemptPair pin deviceName token).1
  | .loadTrustedPeers => some pairing.loadTrustedPeers
  | .reload => some pairing.reload

def young : Bool := pairing.latest.any fun issue => pairing.now < issue.issued + pinLifetime

/-- The latest PIN, unused, and younger than a minute. -/
def Valid (pin : String) : Prop :=
  ∃ issue, pairing.latest = some issue ∧ issue.pin = pin ∧ issue.used = false ∧
  pairing.now < issue.issued + pinLifetime

/-- A valid PIN is accepted, no PIN was accepted twice, and every token that was returned is
accepted. -/
structure Sound : Prop where
  accepts : ∀ pin deviceName token, pairing.Valid pin →
    (pairing.attemptPair pin deviceName token).2 = some token
  once : pairing.accepted.Nodup
  authenticated : ∀ token ∈ pairing.tokens, pairing.isAuthenticated token = true

/-- A step to a sound state; an attempt with a PIN that is not valid is refused. -/
structure Lawful (pairing : PinPairing) (event : PinEvent) (after : PinPairing) : Prop where
  sound : after.Sound
  refuses : ∀ pin deviceName token, event = .attemptPair pin deviceName token → ¬ pairing.Valid pin →
    (pairing.attemptPair pin deviceName token).2 = none

/-- No timer goes off while the latest PIN is unused and younger than a minute; and an attempt
finds its PIN in the slot only when there is a table and that PIN is younger than a minute. -/
def good (pairing : PinPairing) : PinEvent → Bool
  | .expire _ => !(pairing.young && pairing.latest.any fun issue => !issue.used)
  | .attemptPair pin _ _ =>
    pairing.pairingPin != some pin || pairing.trustedPeers.isSome && pairing.young
  | _ => true

variable {pairing} {after : PinPairing} {event : PinEvent} {pin deviceName token : String}
  {timer elapsed : Nat}

/-- The slot has the latest PIN only, and what was returned and is in the table is in the file. -/
structure Kept (pairing : PinPairing) : Prop where
  slot : ∀ pin, pairing.pairingPin = some pin → ∃ issue, pairing.latest = some issue ∧
    issue.pin = pin ∧ issue.used = false
  accepted : ∀ id ∈ pairing.accepted, id < pairing.count
  latest : ∀ issue, pairing.latest = some issue →
    issue.id < pairing.count ∧ (issue.used = false → issue.id ∉ pairing.accepted)
  once : pairing.accepted.Nodup
  saved : ∀ token ∈ pairing.tokens, pairing.isAuthenticated token = true →
    ∃ entries, pairing.file = .peers entries ∧ ∃ deviceName, (token, deviceName) ∈ entries

theorem isAuthenticated_iff :
    pairing.isAuthenticated token = true ↔
      ∃ deviceName, (token, deviceName) ∈ pairing.trustedPeers.getD [] := by
  rw [isAuthenticated, List.any_eq_true]
  constructor
  · rintro ⟨⟨_, deviceName⟩, member, same⟩
    cases of_decide_eq_true same
    exact ⟨deviceName, member⟩
  · rintro ⟨_, member⟩
    exact ⟨_, member, decide_eq_true rfl⟩

theorem kept_new (file : PeersFile) : Kept (new file) := by
  refine { slot := ?_, accepted := ?_, latest := ?_, once := .nil, saved := ?_ }
  · intro _ same
    cases same
  · intro _ member
    cases member
  · intro _ same
    cases same
  · intro _ member
    cases member

theorem Kept.tick (kept : Kept pairing)
    (elapsed : Nat) : Kept { pairing with now := pairing.now + elapsed } :=
  { kept with }

theorem Kept.expire (kept : Kept pairing) (timer : Nat) : Kept (pairing.expire timer) := by
  refine { kept with slot := ?_ }
  intro _ same
  cases same

theorem Kept.generatePin (kept : Kept pairing) (pin : String) : Kept (pairing.generatePin pin) := by
  refine { kept with slot := ?_, accepted := ?_, latest := ?_ }
  · intro _ same
    cases same
    exact ⟨_, rfl, rfl, rfl⟩
  · exact fun id member => Nat.lt_succ_of_lt (kept.accepted id member)
  · intro _ same
    cases same
    exact ⟨Nat.lt_succ_self _, fun _ member => Nat.lt_irrefl _ (kept.accepted _ member)⟩

theorem Kept.loadTrustedPeers (kept : Kept pairing) : Kept pairing.loadTrustedPeers := by
  unfold PinPairing.loadTrustedPeers
  split
  · exact { kept with }
  · exact kept
  · rename_i entries file
    refine { kept with saved := fun token returned found => ?_ }
    obtain ⟨deviceName, member⟩ := isAuthenticated_iff.mp found
    rcases List.mem_append.mp member with loaded | before
    · exact ⟨entries, file, deviceName, loaded⟩
    · exact kept.saved token returned (isAuthenticated_iff.mpr ⟨deviceName, before⟩)

theorem Kept.reload (kept : Kept pairing) : Kept pairing.reload := by
  refine loadTrustedPeers { kept with slot := ?_, latest := ?_, saved := ?_ }
  · intro _ same
    cases same
  · intro _ same
    cases same
  · intro _ _ found
    cases found

theorem insertPeer_eq : pairing.insertPeer token deviceName =
    { pairing with trustedPeers := (pairing.insertPeer token deviceName).trustedPeers
                   file := (pairing.insertPeer token deviceName).file } := by
  unfold insertPeer
  split <;> rfl

theorem file_insertPeer (member : other ∈
      (pairing.insertPeer token deviceName).trustedPeers.getD []) :
    ∃ entries, (pairing.insertPeer token deviceName).file = .peers entries ∧ other ∈ entries := by
  unfold insertPeer at member ⊢
  split at member
  · rename_i none
    rw [none] at member
    cases member
  · exact ⟨_, rfl, member⟩

/-- An accepted PIN is the latest one, and from then on it is used. -/
theorem Kept.attemptPair (kept : Kept pairing) (pin deviceName token : String) :
    Kept (pairing.attemptPair pin deviceName token).1 := by
  unfold PinPairing.attemptPair
  split
  · rename_i accepted
    obtain ⟨issue, latest, _, unused⟩ := kept.slot pin accepted
    obtain ⟨old, once⟩ := kept.latest issue latest
    rw [insertPeer_eq, latest]
    refine { slot := ?_, accepted := ?_, latest := ?_, once := ?_, saved := ?_ }
    · intro other same
      cases same
    · intro id member
      rcases List.mem_append.mp member with before | this
      · exact kept.accepted id before
      · exact List.mem_singleton.mp this ▸ old
    · intro other there
      cases there
      refine ⟨old, ?_⟩
      intro still
      cases still
    · exact kept.once.append (List.nodup_singleton _) (List.disjoint_singleton.mpr (once unused))
    · intro _ _ found
      obtain ⟨deviceName', member⟩ := isAuthenticated_iff.mp found
      obtain ⟨entries, file, saved⟩ := file_insertPeer member
      exact ⟨entries, file, deviceName', saved⟩
  · exact kept

theorem step_some (taken : pairing.step event = some after) :
    match event with
    | .tick elapsed => after = { pairing with now := pairing.now + elapsed }
    | .expire timer => after = pairing.expire timer
    | .generatePin pin => after = pairing.generatePin pin
    | .attemptPair pin deviceName token => after = (pairing.attemptPair pin deviceName token).1
    | .loadTrustedPeers => after = pairing.loadTrustedPeers
    | .reload => after = pairing.reload := by
  cases event with
  | expire =>
    dsimp only [PinPairing.step] at taken ⊢
    split at taken
    · obtain ⟨_, same⟩ := Option.ite_none_right_eq_some.mp taken
      exact (Option.some.inj same).symm
    · cases taken
  | generatePin =>
    obtain ⟨_, same⟩ := Option.ite_none_right_eq_some.mp taken
    exact (Option.some.inj same).symm
  | tick | attemptPair | loadTrustedPeers | reload => exact (Option.some.inj taken).symm

theorem Kept.step (kept : Kept pairing) (taken : pairing.step event = some after) : Kept after := by
  have done := step_some taken
  cases event with
  | tick elapsed =>
    cases done
    exact kept.tick elapsed
  | expire timer =>
    cases done
    exact kept.expire timer
  | generatePin pin =>
    cases done
    exact kept.generatePin pin
  | attemptPair pin deviceName token =>
    cases done
    exact kept.attemptPair pin deviceName token
  | loadTrustedPeers =>
    cases done
    exact kept.loadTrustedPeers
  | reload =>
    cases done
    exact kept.reload

def Current (pairing : PinPairing) : Prop :=
  ∀ pin, pairing.Valid pin → pairing.pairingPin = some pin

/-- Every token that was returned is in the table. -/
def Authentic (pairing : PinPairing) : Prop :=
  ∀ token ∈ pairing.tokens, pairing.isAuthenticated token = true

theorem attemptPair_result (pairing : PinPairing) (pin deviceName token : String) :
    (pairing.attemptPair pin deviceName token).2 = if pairing.pairingPin = some pin then some token
      else none := by
  unfold attemptPair
  split <;> rfl

theorem Kept.sound_iff (kept : Kept pairing) :
    pairing.Sound ↔ pairing.Current ∧ pairing.Authentic := by
  constructor
  · refine fun sound => ⟨fun pin valid => ?_, sound.authenticated⟩
    have accepted := sound.accepts pin "" "" valid
    rw [attemptPair_result, Option.ite_none_right_eq_some] at accepted
    exact accepted.1
  · rintro ⟨current, authentic⟩
    refine ⟨fun pin deviceName token valid => ?_, kept.once, authentic⟩
    rw [attemptPair_result, if_pos (current pin valid)]

theorem young_iff : pairing.young = true ↔ ∃ issue, pairing.latest = some issue ∧
      pairing.now < issue.issued + pinLifetime := by
  rw [young, Option.any_eq_true]
  simp only [decide_eq_true_eq]

theorem exists_valid_iff :
    (∃ pin, pairing.Valid pin) ↔
      (pairing.young && pairing.latest.any fun issue => !issue.used) = true := by
  rw [Bool.and_eq_true, young_iff, Option.any_eq_true]
  constructor
  · rintro ⟨_, issue, latest, _, unused, young⟩
    exact ⟨⟨issue, latest, young⟩, issue, latest, by rw [unused, Bool.not_false]⟩
  · rintro ⟨⟨issue, latest, young⟩, _, found, unused⟩
    cases latest.symm.trans found
    exact ⟨issue.pin, issue, latest, rfl, by simpa using unused, young⟩

/-- An attempt is refused unless the PIN is in the slot, where it is valid in its minute only. -/
theorem Kept.refuses_iff (kept : Kept pairing) (pin deviceName token : String) :
    (¬ pairing.Valid pin → (pairing.attemptPair pin deviceName token).2 = none) ↔
      (pairing.pairingPin = some pin → pairing.young = true) := by
  rw [attemptPair_result]
  by_cases slot : pairing.pairingPin = some pin
  · obtain ⟨issue, latest, same, unused⟩ := kept.slot pin slot
    rw [if_pos slot]
    constructor
    · intro refuses _
      by_contra late
      have invalid : ¬ pairing.Valid pin := by
        rintro ⟨other, there, _, _, young⟩
        exact late (young_iff.mpr ⟨other, there, young⟩)
      cases refuses invalid
    · intro young invalid
      obtain ⟨_, found, young⟩ := young_iff.mp (young slot)
      cases latest.symm.trans found
      exact absurd ⟨issue, latest, same, unused, young⟩ invalid
  · exact iff_of_true (fun _ => if_neg slot) fun here => absurd here slot

theorem Valid.earlier (valid : { pairing with now := pairing.now + elapsed }.Valid pin) :
    pairing.Valid pin := by
  obtain ⟨issue, latest, same, unused, young⟩ := valid
  exact ⟨issue, latest, same, unused, Nat.lt_of_le_of_lt (Nat.le_add_right _ _) young⟩

theorem current_expire_iff : (pairing.expire timer).Current ↔ ¬ ∃ pin, pairing.Valid pin := by
  constructor
  · rintro current ⟨pin, valid⟩
    cases current pin valid
  · exact fun none pin valid => absurd ⟨pin, valid⟩ none

theorem authentic_loadTrustedPeers (authentic : pairing.Authentic) :
    pairing.loadTrustedPeers.Authentic := by
  unfold loadTrustedPeers
  split
  · exact authentic
  · exact authentic
  · intro token returned
    obtain ⟨deviceName, member⟩ := isAuthenticated_iff.mp (authentic token returned)
    exact isAuthenticated_iff.mpr ⟨deviceName, List.mem_append_right _ member⟩

theorem Kept.authentic_reload (kept : Kept pairing) (authentic : pairing.Authentic) :
    pairing.reload.Authentic := by
  intro token returned
  have same : pairing.reload.tokens = pairing.tokens := by
    unfold PinPairing.reload PinPairing.loadTrustedPeers
    dsimp only
    split <;> rfl
  rw [same] at returned
  obtain ⟨_, file, deviceName, member⟩ := kept.saved token returned (authentic token returned)
  apply isAuthenticated_iff.mpr
  refine ⟨deviceName, ?_⟩
  unfold PinPairing.reload PinPairing.loadTrustedPeers
  dsimp only
  rw [file]
  exact List.mem_append_left _ member

/-- A token is in the table exactly when there is one. -/
theorem authentic_attemptPair_iff (authentic : pairing.Authentic)
    (accepted : pairing.pairingPin = some pin) :
    (pairing.attemptPair pin deviceName token).1.Authentic ↔ pairing.trustedPeers ≠ none := by
  unfold attemptPair
  rw [if_pos accepted]
  cases table : pairing.trustedPeers with
  | none =>
    refine iff_of_false (fun all => ?_) (fun some_ => some_ rfl)
    obtain ⟨_, member⟩ := isAuthenticated_iff.mp
      (all token (List.mem_append_right _ (List.mem_singleton_self _)))
    rw [insertPeer, table] at member
    dsimp only at member
    rw [table] at member
    cases member
  | some peers =>
    refine iff_of_true (fun other returned => ?_) (Option.some_ne_none peers)
    apply isAuthenticated_iff.mpr
    rw [insertPeer, table] at returned ⊢
    rcases List.mem_append.mp returned with before | this
    · obtain ⟨name, member⟩ := isAuthenticated_iff.mp (authentic other before)
      rw [table] at member
      exact ⟨name, List.mem_cons_of_mem _ member⟩
    · cases List.mem_singleton.mp this
      exact ⟨deviceName, List.mem_cons_self⟩

/-- What keeps a state sound: the timer finds no valid PIN, and an accepted PIN finds a table. -/
def keepsSound (pairing : PinPairing) : PinEvent → Prop
  | .expire _ => ¬ ∃ pin, pairing.Valid pin
  | .attemptPair pin _ _ => pairing.pairingPin = some pin → pairing.trustedPeers ≠ none
  | _ => True

theorem Kept.sound_attemptPair_iff (kept : Kept pairing) (sound : pairing.Sound)
    (pin deviceName token : String) :
    (pairing.attemptPair pin deviceName token).1.Sound ↔
      pairing.keepsSound (.attemptPair pin deviceName token) := by
  obtain ⟨_, authentic⟩ := kept.sound_iff.mp sound
  by_cases accepted : pairing.pairingPin = some pin
  · obtain ⟨issue, latest, _⟩ := kept.slot pin accepted
    have used : (pairing.attemptPair pin deviceName token).1.Current := by
      rintro _ ⟨_, now, _, unused, _⟩
      rw [PinPairing.attemptPair, if_pos accepted, latest] at now
      cases now
      cases unused
    rw [(kept.attemptPair pin deviceName token).sound_iff, and_iff_right used,
      authentic_attemptPair_iff authentic accepted]
    exact ⟨fun table _ => table, fun table => table accepted⟩
  · have same : (pairing.attemptPair pin deviceName token).1 = pairing := by
      rw [PinPairing.attemptPair, if_neg accepted]
    rw [same]
    exact iff_of_true sound fun slot => absurd slot accepted

theorem Kept.sound_after (kept : Kept pairing) (sound : pairing.Sound)
    (taken : pairing.step event = some after) :
    after.Sound ↔ pairing.keepsSound event := by
  obtain ⟨current, authentic⟩ := kept.sound_iff.mp sound
  have keptAfter := kept.step taken
  have done := step_some taken
  cases event with
  | tick =>
    cases done
    exact iff_of_true (keptAfter.sound_iff.mpr ⟨fun pin valid => current pin valid.earlier,
      authentic⟩) trivial
  | expire =>
    cases done
    exact keptAfter.sound_iff.trans ((and_iff_left authentic).trans current_expire_iff)
  | generatePin =>
    cases done
    refine iff_of_true (keptAfter.sound_iff.mpr ⟨?_, authentic⟩) trivial
    rintro _ ⟨issue, latest, same, _⟩
    cases latest
    exact congrArg some same
  | attemptPair pin deviceName token =>
    cases done
    exact kept.sound_attemptPair_iff sound pin deviceName token
  | loadTrustedPeers =>
    cases done
    refine iff_of_true (keptAfter.sound_iff.mpr ⟨?_, authentic_loadTrustedPeers authentic⟩) trivial
    unfold PinPairing.loadTrustedPeers
    split <;> exact current
  | reload =>
    cases done
    refine iff_of_true (keptAfter.sound_iff.mpr ⟨?_, kept.authentic_reload authentic⟩) trivial
    rintro _ ⟨_, latest, _⟩
    unfold PinPairing.reload PinPairing.loadTrustedPeers at latest
    dsimp only at latest
    split at latest <;> cases latest

theorem good_attemptPair_iff : pairing.good (.attemptPair pin deviceName token) = true ↔
    pairing.keepsSound (.attemptPair pin deviceName token) ∧
      (pairing.pairingPin = some pin → pairing.young = true) := by
  dsimp only [good, keepsSound]
  rw [Bool.or_eq_true, bne_iff_ne, Bool.and_eq_true, Option.isSome_iff_ne_none, ← imp_and]
  exact imp_iff_not_or.symm

theorem Kept.lawful_iff (kept : Kept pairing) (sound : pairing.Sound)
    (taken : pairing.step event = some after) :
    Lawful pairing event after ↔ pairing.good event = true := by
  have kind := kept.sound_after sound taken
  cases event with
  | attemptPair pin deviceName token =>
    have refuses := kept.refuses_iff pin deviceName token
    rw [good_attemptPair_iff]
    constructor
    · intro lawful
      exact ⟨kind.mp lawful.sound, refuses.mp (lawful.refuses pin deviceName token rfl)⟩
    · rintro ⟨keeps, young⟩
      refine ⟨kind.mpr keeps, ?_⟩
      intro pin deviceName token same
      cases same
      exact refuses.mpr young
  | expire timer =>
    have exactly : pairing.good (.expire timer) = true ↔ pairing.keepsSound (.expire timer) := by
      dsimp only [good, keepsSound]
      rw [exists_valid_iff, Bool.not_eq_true', Bool.not_eq_true]
    rw [exactly, ← kind]
    refine ⟨Lawful.sound, fun sound => ⟨sound, ?_⟩⟩
    intro pin deviceName token same
    cases same
  | tick | generatePin | loadTrustedPeers | reload =>
    refine iff_of_true ⟨kind.mpr trivial, ?_⟩ rfl
    intro _ _ _ same
    cases same

/-- A run is lawful throughout exactly when no timer goes off while a PIN is valid, no PIN is
accepted before there is a table, and none is tried between its minute and its timer. -/
theorem lawful_of_run {file : PeersFile} {events : List PinEvent} {final : PinPairing}
    (run : Execution step anything (new file) events final) :
    EveryStep step Lawful (new file) events ↔
      Execution step (fun pairing event => pairing.good event = true) (new file) events final := by
  have first : (new file).Sound := by
    refine (kept_new file).sound_iff.mpr ⟨?_, ?_⟩
    · rintro _ ⟨_, latest, _⟩
      cases latest
    · intro _ returned
      cases returned
  refine run.everyStep_iff_of_related (fun pairing => pairing.Kept ∧ pairing.Sound)
    ⟨kept_new file, first⟩ ?_ ?_
  · rintro pairing event after ⟨kept, _⟩ taken lawful
    exact ⟨kept.step taken, lawful.sound⟩
  · rintro _ _ _ ⟨kept, sound⟩ taken
    exact kept.lawful_iff sound taken

/-- A PIN is refused, accepted and refused again; its timer goes off; a second one is tried when
its late timer has gone off; and a new process loads the file. -/
def twoPins : List PinEvent :=
  [.loadTrustedPeers, .generatePin "314159", .tick 30000, .attemptPair "000000" "tablet" "first",
    .attemptPair "314159" "tablet" "token", .attemptPair "314159" "tablet" "second",
    .tick 30000, .expire 0,
    .generatePin "271828", .tick 70000, .expire 0, .attemptPair "271828" "tablet" "third", .reload]

theorem lawful_of_twoPins : EveryStep step Lawful (new .missing) twoPins ∧
    ∃ final, Execution step anything (new .missing) twoPins final ∧
      final.isAuthenticated "token" = true := by
  obtain ⟨final, run, authenticated⟩ := exists_execution
    (fun final : PinPairing => final.isAuthenticated "token")
    (show (replayWhere step good (new .missing) twoPins).any
      (fun final => final.isAuthenticated "token") = true by
      decide +kernel)
  exact ⟨(lawful_of_run run.plain).mpr run, final, run.plain, authenticated⟩

/-- Two PINs, when the timer of the first has cleared the second, half a minute old. -/
def secondCleared : PinPairing :=
  { now := 60000, pairingPin := none, timers := [90000], trustedPeers := some [],
    file := .missing, count := 2
    latest := some { id := 1, pin := "271828", issued := 30000, used := false },
      accepted := [], tokens := [] }

def lateFirst : PinPairing :=
  { now := 60000, pairingPin := some "314159", timers := [60000], trustedPeers := some [],
    file := .missing, count := 1
    latest := some { id := 0, pin := "314159", issued := 0, used := false },
      accepted := [], tokens := [] }

/-- The timer of one PIN clears the next one; and a PIN whose minute is over is accepted when it is
tried before its timer has gone off. -/
theorem unlawful_after_secondPin :
    ¬ EveryStep step Lawful (new .missing)
        ([.loadTrustedPeers, .generatePin "314159", .tick 30000, .generatePin "271828",
          .tick 30000] ++ [.expire 0]) ∧
      ¬ EveryStep step Lawful (new .missing)
        ([.loadTrustedPeers, .generatePin "314159", .tick 60000] ++
          [.attemptPair "314159" "tablet" "token"]) := by
  constructor
  · intro every
    have run : Execution step anything (new .missing)
        ([.loadTrustedPeers, .generatePin "314159", .tick 30000, .generatePin "271828",
          .tick 30000] ++ [.expire 0])
          secondCleared :=
      execution_iff_replay.mpr (by decide +kernel)
    obtain ⟨_, _, _, lawful⟩ := every.last run
    have accepted := lawful.sound.accepts "271828" "tablet" "token" ⟨_, rfl, rfl, rfl, by decide⟩
    cases accepted
  · intro every
    have run : Execution step anything (new .missing)
        [.loadTrustedPeers, .generatePin "314159", .tick 60000] lateFirst :=
      execution_iff_replay.mpr (by decide +kernel)
    have lawful := every _ _ [] lateFirst _ rfl run rfl
    have late : ¬ lateFirst.Valid "314159" := by
      rintro ⟨_, latest, _, _, young⟩
      cases latest
      exact absurd young (by decide)
    have refused := lawful.refuses "314159" "tablet" "token" rfl late
    have slot : lateFirst.pairingPin = some "314159" := rfl
    rw [attemptPair_result, if_pos slot] at refused
    cases refused

end PinPairing

end DistributedOs.Pairing
