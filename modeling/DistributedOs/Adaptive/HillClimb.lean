import DistributedOs.Adaptive.AutoTuner
import DistributedOs.Semantics.Execution

/-! The climb of the tuner when every candidate is put in force. Throughputs are exact rationals. -/

namespace DistributedOs.Adaptive

open Semantics

/-- What the climb changes. -/
inductive Knob where
  | chunkSize
  | streams
  | buffer
  deriving DecidableEq

def Knob.turn (staleSteps : Nat) : Knob :=
  match staleSteps % 3 with
  | 0 => .chunkSize
  | 1 => .streams
  | _ => .buffer

def TuningConfig.value {F : Type} (config : TuningConfig F) : Knob → Nat
  | .chunkSize => config.chunkSizeBytes
  | .streams => config.parallelStreams
  | .buffer => config.sendBufferKb

/-- Both socket buffers are changed together. -/
def TuningConfig.set {F : Type} (config : TuningConfig F) (knob : Knob)
    (value : Nat) : TuningConfig F :=
  match knob with
  | .chunkSize => { config with chunkSizeBytes := value }
  | .streams => { config with parallelStreams := value }
  | .buffer => { config with sendBufferKb := value, recvBufferKb := value }

def AutoTuner.dim {F : Type} (tuner : AutoTuner F) : Knob → Dimension
  | .chunkSize => tuner.chunkDim
  | .streams => tuner.streamDim
  | .buffer => tuner.bufferDim

theorem Knob.turn_succ_ne (staleSteps : Nat) : turn (staleSteps + 1) ≠ turn staleSteps := by
  have cases : staleSteps % 3 = 0 ∨ staleSteps % 3 = 1 ∨ staleSteps % 3 = 2 := by omega
  unfold turn
  rcases cases with first | second | third
  · rw [first, show (staleSteps + 1) % 3 = 1 by omega]
    nofun
  · rw [second, show (staleSteps + 1) % 3 = 2 by omega]
    nofun
  · rw [third, show (staleSteps + 1) % 3 = 0 by omega]
    nofun

section Values

variable {F : Type} {config : TuningConfig F} {knob other : Knob} {value : Nat}

@[simp] theorem value_set : (config.set knob value).value knob = value := by
  cases knob with
  | chunkSize | streams | buffer => rfl

theorem value_set_of_ne (different : other ≠ knob) :
    (config.set knob value).value other = config.value other := by
  cases knob with
  | chunkSize | streams | buffer =>
    cases other with
    | chunkSize | streams | buffer => first | rfl | exact absurd rfl different

theorem set_ne (changed : value ≠ config.value knob) : config.set knob value ≠ config := by
  intro same
  have back : (config.set knob value).value knob = value := value_set
  rw [same] at back
  exact changed back.symm

theorem eq_of_value_ne (changed : (config.set knob value).value other ≠ config.value other) :
    other = knob := by
  by_contra different
  exact changed (value_set_of_ne different)

theorem configsEqual_iff {config other : TuningConfig F} :
    AutoTuner.configsEqual config other = true ↔ ∀ knob, config.value knob = other.value knob := by
  simp only [AutoTuner.configsEqual, Bool.and_eq_true, decide_eq_true_eq]
  constructor
  · intro ⟨⟨chunk, streams⟩, buffer⟩ knob
    cases knob with
    | chunkSize => exact chunk
    | streams => exact streams
    | buffer => exact buffer
  · intro same
    exact ⟨⟨same .chunkSize, same .streams⟩, same .buffer⟩

end Values

/-- A dimension that can always move. -/
structure Dimension.Movable (dim : Dimension) : Prop where
  wide : dim.min < dim.max
  step : 0 < dim.step
  direction : dim.direction ≠ 0

theorem Dimension.Movable.next_ne {dim : Dimension} (movable : dim.Movable) :
    dim.next.1 ≠ dim.current := by
  have wide := movable.wide
  have step := movable.step
  unfold Dimension.next Dimension.stepUp Dimension.stepDown
  split
  · split <;> simp only [ne_eq] <;> omega
  · split <;> simp only [ne_eq] <;> omega

theorem Dimension.Movable.applyDirection {dim : Dimension} (movable : dim.Movable) :
    dim.applyDirection.2.Movable := by
  refine ⟨movable.wide, movable.step, ?_⟩
  have direction := movable.direction
  unfold Dimension.applyDirection Dimension.next
  dsimp only
  split
  · split <;> simp only [ne_eq] <;> omega
  · split <;> simp only [ne_eq] <;> omega

namespace AutoTuner

section Dimensions

variable {F : Type} {tuner : AutoTuner F} {knob other : Knob}

def withDim (tuner : AutoTuner F) (knob : Knob) (dim : Dimension) : AutoTuner F :=
  match knob with
  | .chunkSize => { tuner with chunkDim := dim }
  | .streams => { tuner with streamDim := dim }
  | .buffer => { tuner with bufferDim := dim }

@[simp] theorem dim_withDim (tuner : AutoTuner F) (knob : Knob)
    (dim : Dimension) : (tuner.withDim knob dim).dim knob = dim := by
  cases knob with
  | chunkSize | streams | buffer => rfl

theorem dim_withDim_of_ne (different : other ≠ knob) (dim : Dimension) :
    (tuner.withDim knob dim).dim other = tuner.dim other := by
  cases knob with
  | chunkSize | streams | buffer =>
    cases other with
    | chunkSize | streams | buffer => first | rfl | exact absurd rfl different

theorem withDim_rest (tuner : AutoTuner F) (knob : Knob) (dim : Dimension) :
    (tuner.withDim knob dim).bestThroughput = tuner.bestThroughput ∧
      (tuner.withDim knob dim).bestConfig = tuner.bestConfig ∧
      (tuner.withDim knob dim).staleSteps = tuner.staleSteps ∧
      (tuner.withDim knob dim).maxStale = tuner.maxStale := by
  cases knob with
  | chunkSize | streams | buffer => exact ⟨rfl, rfl, rfl, rfl⟩

theorem flipDirection_eq (tuner : AutoTuner F) :
    tuner.flipDirection = tuner.withDim (.turn tuner.staleSteps)
      { tuner.dim (.turn tuner.staleSteps) with direction :=
        -(tuner.dim (.turn tuner.staleSteps)).direction } := by
  unfold flipDirection Knob.turn
  generalize tuner.staleSteps % 3 = tick
  match tick with
  | 0 | 1 | _ + 2 => rfl

theorem dim_flipDirection (tuner : AutoTuner F) :
    (tuner.flipDirection.dim (.turn tuner.staleSteps)).direction =
      -(tuner.dim (.turn tuner.staleSteps)).direction := by
  rw [flipDirection_eq, dim_withDim]

theorem dim_observe_direction (tuner : AutoTuner F) (current : TuningConfig F)
    (currentTp : F) (knob : Knob) :
    ((tuner.observe current currentTp).dim knob).direction = (tuner.dim knob).direction := by
  cases knob with
  | chunkSize | streams | buffer => rfl

theorem candidate_eq (tuner : AutoTuner F) (current : TuningConfig F) : tuner.candidate current =
    (current.set (.turn tuner.staleSteps) (tuner.dim (.turn tuner.staleSteps)).next.1,
      tuner.withDim (.turn tuner.staleSteps)
        (tuner.dim (.turn tuner.staleSteps)).applyDirection.2) := by
  unfold candidate Knob.turn
  generalize tuner.staleSteps % 3 = tick
  match tick with
  | 0 | 1 | _ + 2 => rfl

/-- Every dimension can move. -/
def Movable (tuner : AutoTuner F) : Prop := ∀ knob, (tuner.dim knob).Movable

theorem Movable.withDim (movable : tuner.Movable) {dim : Dimension} (moves : dim.Movable) :
    (tuner.withDim knob dim).Movable := by
  intro other
  by_cases same : other = knob
  · subst same
    rwa [dim_withDim]
  · rw [dim_withDim_of_ne same]
    exact movable other

theorem Movable.observe (movable : tuner.Movable) (current : TuningConfig F) (currentTp : F) :
    (tuner.observe current currentTp).Movable := by
  intro knob
  have moves := movable knob
  cases knob with
  | chunkSize | streams | buffer => exact ⟨moves.wide, moves.step, moves.direction⟩

theorem Movable.flipDirection (movable : tuner.Movable) : tuner.flipDirection.Movable := by
  rw [flipDirection_eq]
  have moves := movable (.turn tuner.staleSteps)
  exact movable.withDim ⟨moves.wide, moves.step, neg_ne_zero.mpr moves.direction⟩

theorem Movable.restart (tuner : AutoTuner F) (base : TuningConfig F) :
    (tuner.restart base).Movable := by
  intro knob
  cases knob with
  | chunkSize | streams | buffer => constructor <;> simp [dim, AutoTuner.restart, Dimension.new]

theorem Movable.refresh (movable : tuner.Movable) (current : TuningConfig F) :
    (tuner.refresh current).Movable := by
  unfold AutoTuner.refresh
  split
  · exact Movable.restart tuner current
  · exact movable

theorem Movable.initialise [Floating F] (movable : tuner.Movable) (current : TuningConfig F)
    (smoothTp : F) :
    (tuner.initialise current smoothTp).Movable := by
  unfold AutoTuner.initialise
  split
  · exact movable
  · exact movable

theorem Movable.evaluate [Floating F] (movable : tuner.Movable) (current : TuningConfig F)
    (smoothTp : F) :
    (tuner.evaluate current smoothTp).Movable := by
  unfold AutoTuner.evaluate
  split
  · split
    · exact movable
    · exact Movable.flipDirection
        (show ({ tuner with staleSteps := tuner.staleSteps + 1 } : AutoTuner F).Movable from movable)
  · exact movable

end Dimensions

section Calls

variable {F : Type} [Floating F] {tuner : AutoTuner F} {config : TuningConfig F}
  {currentTp smoothTp : F}

/-- The tuner once it has judged the last probe, before the next one. -/
def judged (tuner : AutoTuner F) (current : TuningConfig F) (currentTp : F) : AutoTuner F :=
  let observed := tuner.observe current currentTp
  ((observed.evaluate current observed.smoothTp).initialise current observed.smoothTp).refresh current

theorem step_eq (tuner : AutoTuner F) (current : TuningConfig F)
    (currentTp : F) : tuner.step current currentTp =
    (tuner.judged current currentTp).probe current (tuner.observe current currentTp).smoothTp := rfl

omit [Floating F] in
theorem Follows.current_eq (follows : tuner.Follows config)
    (knob : Knob) : (tuner.dim knob).current = config.value knob := by
  cases knob with
  | chunkSize => exact follows.chunkAt
  | streams => exact follows.streamAt
  | buffer => exact follows.bufferAt

omit [Floating F] in
theorem bounded_withDim (bounded : tuner.Bounded) (knob : Knob) :
    (tuner.withDim knob (tuner.dim knob).applyDirection.2).Bounded := by
  cases knob with
  | chunkSize | streams | buffer => exact ⟨bounded.chunk, bounded.stream, bounded.buffer⟩

/-- A tuner that has launched a probe, and is otherwise as before. -/
structure Probed (tuner : AutoTuner F) (smoothTp : F) (next : AutoTuner F) : Prop where
  active : next.probeActive = true
  preProbeTp : next.preProbeTp = smoothTp
  staleSteps : next.staleSteps = tuner.staleSteps
  maxStale : next.maxStale = tuner.maxStale
  bestThroughput : next.bestThroughput = tuner.bestThroughput
  bestConfig : next.bestConfig = tuner.bestConfig
  bounded : next.Bounded
  movable : next.Movable

omit [Floating F] in
theorem exists_probe (follows : tuner.Follows config) (movable : tuner.Movable) (smoothTp : F) :
    ∃ value next,
      tuner.probe config smoothTp = (some (config.set (.turn tuner.staleSteps) value), next) ∧
      value ≠ config.value (.turn tuner.staleSteps) ∧ Probed tuner smoothTp next := by
  unfold probe
  rw [candidate_eq]
  generalize Knob.turn tuner.staleSteps = knob
  have moved := (movable knob).next_ne
  rw [follows.current_eq] at moved
  have changed : configsEqual (config.set knob (tuner.dim knob).next.1) config = false := by
    rw [Bool.eq_false_iff, ne_eq, configsEqual_iff]
    intro same
    exact moved (value_set.symm.trans (same knob))
  dsimp only
  rw [changed]
  refine ⟨_, _, rfl, moved, ?_⟩
  obtain ⟨bestThroughput, bestConfig, staleSteps, maxStale⟩ := tuner.withDim_rest knob
    (tuner.dim knob).applyDirection.2
  have bounded := bounded_withDim follows.toBounded knob
  have moves : (tuner.withDim knob (tuner.dim knob).applyDirection.2).Movable :=
    movable.withDim (movable knob).applyDirection
  exact ⟨rfl, rfl, staleSteps, maxStale, bestThroughput, bestConfig,
    ⟨bounded.chunk, bounded.stream, bounded.buffer⟩, moves⟩

theorem Bounded.judged (bounded : tuner.Bounded) (config : TuningConfig F) (currentTp : F) :
    (tuner.judged config currentTp).Follows config :=
  (((bounded.observe config currentTp).evaluate _).initialise _).refresh

theorem Movable.judged (movable : tuner.Movable) (config : TuningConfig F) (currentTp : F) :
    (tuner.judged config currentTp).Movable :=
  (((movable.observe config currentTp).evaluate config _).initialise config _).refresh config

omit [Floating F] in
theorem refresh_rest (tuner : AutoTuner F) (current : TuningConfig F) :
    (tuner.refresh current).bestThroughput = tuner.bestThroughput ∧
      (tuner.refresh current).bestConfig = tuner.bestConfig ∧
      (tuner.refresh current).maxStale = tuner.maxStale ∧
      (tuner.refresh current).staleSteps = if tuner.maxStale ≤ tuner.staleSteps then 0
      else tuner.staleSteps := by
  unfold refresh
  split
  · exact ⟨rfl, rfl, rfl, rfl⟩
  · exact ⟨rfl, rfl, rfl, rfl⟩

omit [Floating F] in
theorem initialise_rest (tuner : AutoTuner F) (current : TuningConfig F) (smoothTp : F) :
    (tuner.initialise current smoothTp).bestThroughput =
        (if tuner.bestConfig.isNone then smoothTp else tuner.bestThroughput) ∧
      (tuner.initialise current smoothTp).bestConfig.isSome = true ∧
      (tuner.initialise current smoothTp).maxStale = tuner.maxStale ∧
      (tuner.initialise current smoothTp).staleSteps = tuner.staleSteps := by
  unfold initialise
  by_cases first : tuner.bestConfig.isNone = true
  · rw [if_pos first, if_pos first]
    exact ⟨rfl, rfl, rfl, rfl⟩
  · rw [if_neg first, if_neg first]
    exact ⟨rfl, Option.isSome_iff_ne_none.mpr fun none =>
      first (Option.isNone_iff_eq_none.mpr none), rfl, rfl⟩

theorem evaluate_rejected (active : tuner.probeActive = true)
    (worse : ¬ tuner.preProbeTp * 1.02 ≤ smoothTp) (current : TuningConfig F) :
    tuner.evaluate current smoothTp =
      { ({ tuner with staleSteps := tuner.staleSteps + 1 }).flipDirection with
        probeActive := false, probeConfig := none } := by
  unfold evaluate
  rw [if_pos active]
  dsimp only
  rw [if_neg worse]

theorem evaluate_improved (active : tuner.probeActive = true)
    (better : tuner.preProbeTp * 1.02 ≤ smoothTp) (current : TuningConfig F) :
    tuner.evaluate current smoothTp =
      { tuner with
        bestThroughput :=
        smoothTp, bestConfig := some current, staleSteps := 0, probeActive := false,
        probeConfig := none } := by
  unfold evaluate
  rw [if_pos active]
  dsimp only
  rw [if_pos better]

theorem evaluate_idle (idle : ¬ tuner.probeActive = true) (current : TuningConfig F)
    (smoothTp : F) :
    tuner.evaluate current smoothTp = tuner := by
  unfold evaluate
  rw [if_neg idle]

theorem evaluate_maxStale (tuner : AutoTuner F) (current : TuningConfig F) (smoothTp : F) :
    (tuner.evaluate current smoothTp).maxStale = tuner.maxStale := by
  by_cases active : tuner.probeActive = true
  · by_cases better : tuner.preProbeTp * 1.02 ≤ smoothTp
    · rw [evaluate_improved active better]
    · rw [evaluate_rejected active better, flipDirection_eq]
      exact (withDim_rest _ _ _).2.2.2
  · rw [evaluate_idle active]

theorem judged_maxStale (tuner : AutoTuner F) (current : TuningConfig F) (currentTp : F) :
    (tuner.judged current currentTp).maxStale = tuner.maxStale := by
  unfold judged
  dsimp only
  rw [(refresh_rest _ _).2.2.1, (initialise_rest _ _ _).2.2.1, evaluate_maxStale]
  rfl

theorem judged_bestConfig (tuner : AutoTuner F) (current : TuningConfig F) (currentTp : F) :
    (tuner.judged current currentTp).bestConfig.isSome = true := by
  unfold judged
  dsimp only
  rw [(refresh_rest _ _).2.1]
  exact (initialise_rest _ _ _).2.1

theorem judged_staleSteps_lt (patient : 0 < tuner.maxStale) (config : TuningConfig F)
    (currentTp : F) :
    (tuner.judged config currentTp).staleSteps < tuner.maxStale := by
  have same := judged_maxStale tuner config currentTp
  unfold judged at same ⊢
  dsimp only at same ⊢
  rw [(refresh_rest _ _).2.2.1] at same
  rw [(refresh_rest _ _).2.2.2, same]
  split
  · exact patient
  · omega

theorem judged_rejected (active : tuner.probeActive = true)
    (worse : ¬ tuner.preProbeTp * 1.02 ≤ (tuner.observe config currentTp).smoothTp) :
    (tuner.judged config currentTp).staleSteps = if tuner.maxStale ≤ tuner.staleSteps + 1 then 0
      else tuner.staleSteps + 1 := by
  have rejected := evaluate_rejected
    (show (tuner.observe config currentTp).probeActive = true from active) worse config
  unfold judged
  dsimp only
  rw [(refresh_rest _ _).2.2.2, (initialise_rest _ _ _).2.2.1, (initialise_rest _ _ _).2.2.2,
    evaluate_maxStale,
    rejected, flipDirection_eq]
  dsimp only
  rw [(withDim_rest _ _ _).2.2.1]
  rfl

/-- What the call finds to be the best: the configuration in force, with what is measured of it. -/
structure Records (tuner : AutoTuner F) (config : TuningConfig F) (currentTp : F) : Prop where
  throughput : (tuner.judged config currentTp).bestThroughput = (tuner.observe config currentTp).smoothTp
  config : (tuner.judged config currentTp).bestConfig = some config

theorem records_of_improved (active : tuner.probeActive = true)
    (better : tuner.preProbeTp * 1.02 ≤ (tuner.observe config currentTp).smoothTp) :
    Records tuner config currentTp := by
  have improved := evaluate_improved
    (show (tuner.observe config currentTp).probeActive = true from active) better config
  constructor
  · unfold judged
    dsimp only
    rw [(refresh_rest _ _).1, (initialise_rest _ _ _).1, improved]
    rfl
  · unfold judged
    dsimp only
    rw [(refresh_rest _ _).2.1, improved]
    rfl

theorem records_of_first (idle : ¬ tuner.probeActive = true)
    (none : tuner.bestConfig.isNone = true) :
    Records tuner config currentTp := by
  have same := evaluate_idle
    (show ¬ (tuner.observe config currentTp).probeActive = true from idle) config
    (tuner.observe config currentTp).smoothTp
  constructor
  · unfold judged
    dsimp only
    rw [(refresh_rest _ _).1, (initialise_rest _ _ _).1, same]
    exact if_pos none
  · unfold judged
    dsimp only
    rw [(refresh_rest _ _).2.1, same]
    unfold initialise
    rw [if_pos (show (tuner.observe config currentTp).bestConfig.isNone = true from none)]

end Calls

end AutoTuner

/-- The configuration in force, the one that was in force before the last candidate, and what
throughput was measured with which configuration, the latest first. -/
structure Climb where
  tuner : AutoTuner Rat
  config : TuningConfig Rat
  before : Option (TuningConfig Rat)
  trials : List (TuningConfig Rat × Rat)

namespace Climb

def new (config : TuningConfig Rat) : Climb :=
  { tuner := .new, config, before := none, trials := [] }

/-- A call of the tuner with the throughput of the configuration in force, and the candidate
adopted. -/
def adopt (climb : Climb) (currentTp : Rat) : Climb :=
  let (candidate, tuner) := climb.tuner.step climb.config currentTp
  { tuner
    config := candidate.getD climb.config
    before := candidate.map fun _ => climb.config
    trials := (climb.config, currentTp) :: climb.trials }

def step (climb : Climb) (currentTp : Rat) : Option Climb := some (climb.adopt currentTp)

/-- The throughput that a call judges by. -/
def measured (climb : Climb) (currentTp : Rat) : Rat :=
  (climb.tuner.observe climb.config currentTp).smoothTp

/-- A call that finds the probe under way not improved. -/
def Rejects (climb : Climb) (currentTp : Rat) : Prop :=
  climb.tuner.probeActive = true ∧ ¬ climb.tuner.preProbeTp * 1.02 ≤ climb.measured currentTp

instance (climb : Climb) (currentTp : Rat) : Decidable (climb.Rejects currentTp) :=
  inferInstanceAs (Decidable (_ ∧ _))

/-- The probe under way has changed the dimension. -/
def Changed (climb : Climb) (knob : Knob) : Prop :=
  ∃ before, climb.before = some before ∧ climb.config.value knob ≠ before.value knob

/-- The evaluation of the probe turns the dimension around. -/
def Turned (climb : Climb) (currentTp : Rat) (knob : Knob) : Prop :=
  (((climb.tuner.observe climb.config currentTp).evaluate climb.config
    (climb.measured currentTp)).dim knob).direction =
    -(climb.tuner.dim knob).direction

/-- The throughput that was measured with the configuration when it was last in force. -/
def lastTp (climb : Climb) (config : TuningConfig Rat) : Option Rat :=
  (climb.trials.find? fun trial => trial.1 = config).map fun trial => trial.2

/-- A rejected probe has its own dimension turned around, and the next candidate starts from what
was in force before it; the best throughput never falls, nor does that of the best configuration. -/
structure Sound (climb : Climb) (currentTp : Rat) (after : Climb) : Prop where
  turned : climb.Rejects currentTp → ∀ knob, climb.Turned currentTp knob ↔ climb.Changed knob
  based : climb.Rejects currentTp →
    ∃ before knob value, climb.before = some before ∧ after.config = before.set knob value
  best : ∀ old, climb.tuner.bestConfig = some old →
    climb.tuner.bestThroughput ≤ after.tuner.bestThroughput ∧
    ∃ new, after.tuner.bestConfig = some new ∧
      (new = old ∨ ∃ before now, after.lastTp old = some before ∧
        after.lastTp new = some now ∧ before ≤ now)

/-- The probe under way, if any, is found improved, and the throughput is not below the last one. -/
def improving (climb : Climb) (currentTp : Rat) : Prop :=
  climb.tuner.probeActive = true →
    climb.tuner.preProbeTp * 1.02 ≤ climb.measured currentTp ∧
    climb.tuner.preProbeTp ≤ climb.measured currentTp ∧
      ∀ trial ∈ climb.trials.head?, trial.2 ≤ currentTp

instance (climb : Climb) (currentTp : Rat) : Decidable (climb.improving currentTp) :=
  inferInstanceAs (Decidable (_ → _ ∧ _ ∧ _))

variable {climb after : Climb} {currentTp : Rat} {knob : Knob}

theorem exists_launch (bounded : climb.tuner.Bounded) (movable : climb.tuner.Movable)
    (taken : climb.step currentTp = some after) : ∃ value,
      after.config = climb.config.set (.turn after.tuner.staleSteps) value ∧
        value ≠ climb.config.value (.turn after.tuner.staleSteps) ∧
        after.before = some climb.config ∧
          after.trials = (climb.config, currentTp) :: climb.trials ∧
          (climb.tuner.judged climb.config currentTp).Probed
          (climb.measured currentTp) after.tuner := by
  have follows := bounded.judged climb.config currentTp
  obtain ⟨value, next, launched, moved, probed⟩ :=
    AutoTuner.exists_probe follows (movable.judged climb.config currentTp) (climb.measured currentTp)
  have adopted : climb.adopt currentTp =
      { tuner := next
        config := climb.config.set (.turn (climb.tuner.judged climb.config currentTp).staleSteps) value
        before := some climb.config
        trials := (climb.config, currentTp) :: climb.trials } := by
    unfold adopt
    rw [AutoTuner.step_eq, ← measured, launched]
    rfl
  cases (congrArg some adopted).symm.trans taken
  refine ⟨value, ?_, ?_, rfl, rfl, probed⟩
  · rw [probed.staleSteps]
  · rwa [probed.staleSteps]

/-- What every climb keeps. -/
structure Steady (climb : Climb) : Prop where
  bounded : climb.tuner.Bounded
  movable : climb.tuner.Movable
  maxStale : climb.tuner.maxStale = 8
  staleSteps : climb.tuner.staleSteps < 8
  started : climb.tuner.bestConfig.isSome = true ↔ climb.tuner.probeActive = true
  probing : climb.tuner.probeActive = true → ∃ before value, climb.before = some before ∧
    climb.config = before.set (.turn climb.tuner.staleSteps) value ∧
    value ≠ before.value (.turn climb.tuner.staleSteps) ∧
      ∃ tp earlier, climb.trials = (before, tp) :: earlier

theorem steady_new (config : TuningConfig Rat) : Steady (.new config) where
  bounded := AutoTuner.bounded_new
  movable knob := by
    cases knob with
    | chunkSize | streams | buffer =>
      constructor <;> simp [AutoTuner.dim, new, AutoTuner.new, Dimension.new]
  maxStale := rfl
  staleSteps := Nat.zero_lt_succ 7
  started := ⟨nofun, nofun⟩
  probing := nofun

theorem Steady.step (steady : Steady climb) (taken : climb.step currentTp = some after) :
    Steady after := by
  obtain ⟨value, config, moved, before, trials, probed⟩ := exists_launch steady.bounded
    steady.movable taken
  have maxStale : after.tuner.maxStale = 8 := by
    rw [probed.maxStale, AutoTuner.judged_maxStale, steady.maxStale]
  have staleSteps : after.tuner.staleSteps < 8 := by
    have patient : 0 < climb.tuner.maxStale := by
      rw [steady.maxStale]
      exact Nat.zero_lt_succ 7
    have few := AutoTuner.judged_staleSteps_lt patient climb.config currentTp
    rwa [steady.maxStale, ← probed.staleSteps] at few
  have started : after.tuner.bestConfig.isSome = true := by
    rw [probed.bestConfig]
    exact AutoTuner.judged_bestConfig climb.tuner climb.config currentTp
  exact ⟨probed.bounded, probed.movable, maxStale, staleSteps, iff_of_true started probed.active,
    fun _ => ⟨climb.config, value, before, config, moved, currentTp, climb.trials, trials⟩⟩

theorem Steady.changed_iff (steady : Steady climb) (active : climb.tuner.probeActive = true) :
    climb.Changed knob ↔ knob = .turn climb.tuner.staleSteps := by
  obtain ⟨before, _, inForce, config, _, _⟩ := steady.probing active
  unfold Changed
  rw [inForce, config]
  constructor
  · rintro ⟨_, ⟨⟩, changed⟩
    exact eq_of_value_ne changed
  · rintro rfl
    exact ⟨before, rfl, by rwa [value_set]⟩

theorem turned_next (rejects : climb.Rejects currentTp) :
    climb.Turned currentTp (.turn (climb.tuner.staleSteps + 1)) := by
  have rejected := AutoTuner.evaluate_rejected
    (show (climb.tuner.observe climb.config currentTp).probeActive = true from rejects.1)
    rejects.2 climb.config
  unfold Turned
  rw [rejected, ← AutoTuner.dim_observe_direction climb.tuner climb.config currentTp]
  exact AutoTuner.dim_flipDirection
    { climb.tuner.observe climb.config currentTp with staleSteps := climb.tuner.staleSteps + 1 }

theorem Steady.not_turned (steady : Steady climb) (rejects : climb.Rejects currentTp) :
    ¬ ∀ knob, climb.Turned currentTp knob ↔ climb.Changed knob := by
  intro turned
  have changed := (turned _).mp (turned_next rejects)
  exact Knob.turn_succ_ne _ ((steady.changed_iff rejects.1).mp changed)

/-- After a rejection the turn is another dimension's, also when the climb starts again. -/
theorem Steady.turn_ne (steady : Steady climb) (rejects : climb.Rejects currentTp) :
    Knob.turn (climb.tuner.judged climb.config currentTp).staleSteps ≠
      .turn climb.tuner.staleSteps := by
  rw [AutoTuner.judged_rejected rejects.1 rejects.2, steady.maxStale]
  split
  · rename_i impatient
    have last : climb.tuner.staleSteps = 7 := by
      have := steady.staleSteps
      omega
    rw [last]
    intro same
    cases same
  · exact Knob.turn_succ_ne _

/-- The next candidate after a rejection has the rejected change in it. -/
theorem Steady.kept_of_rejects (steady : Steady climb) (rejects : climb.Rejects currentTp)
    (taken : climb.step currentTp = some after) :
    ¬ ∃ before knob value, climb.before = some before ∧ after.config = before.set knob value := by
  obtain ⟨_, config, moved, _, _, probed⟩ := exists_launch steady.bounded steady.movable taken
  have different := steady.turn_ne rejects
  rw [← probed.staleSteps] at different
  obtain ⟨before, _, inForce, current, changed, _⟩ := steady.probing rejects.1
  rintro ⟨_, knob, other, found, based⟩
  cases inForce.symm.trans found
  -- The candidate differs from what was in force in two dimensions, and in one of them at most from a change of one.
  have rejected : (before.set knob other).value (.turn climb.tuner.staleSteps) ≠ before.value
      (.turn climb.tuner.staleSteps) := by
    rw [← based, config, value_set_of_ne (Ne.symm different), current, value_set]
    exact changed
  have fresh : (before.set knob other).value (.turn after.tuner.staleSteps) ≠ before.value
      (.turn after.tuner.staleSteps) := by
    rw [← based, config, value_set]
    rwa [current, value_set_of_ne different] at moved
  exact different ((eq_of_value_ne fresh).trans (eq_of_value_ne rejected).symm)

/-- What the last probe is compared with is the best so far. -/
structure Level (climb : Climb) : Prop where
  throughput : climb.tuner.probeActive = true → climb.tuner.bestThroughput = climb.tuner.preProbeTp
  config : climb.tuner.probeActive = true → climb.tuner.bestConfig = climb.before

theorem Steady.records (steady : Steady climb)
    (improved : climb.tuner.probeActive = true →
      climb.tuner.preProbeTp * 1.02 ≤ climb.measured currentTp) :
    AutoTuner.Records climb.tuner climb.config currentTp := by
  by_cases active : climb.tuner.probeActive = true
  · exact AutoTuner.records_of_improved active (improved active)
  · have first : climb.tuner.bestConfig.isNone = true := by
      rw [Option.isNone_iff_eq_none, ← Option.not_isSome_iff_eq_none]
      exact fun known => active (steady.started.mp known)
    exact AutoTuner.records_of_first active first

/-- The configuration in force was measured just now, and the one before it the time before. -/
theorem lastTp_after {before : TuningConfig Rat}
    (trials : after.trials = (climb.config, currentTp) :: climb.trials)
    (last : climb.trials = (before, tp) :: earlier) (other : climb.config ≠ before) :
    after.lastTp climb.config = some currentTp ∧ after.lastTp before = some tp := by
  unfold lastTp
  rw [trials, last]
  constructor
  · rw [List.find?_cons_of_pos (by simp), Option.map_some]
  · rw [List.find?_cons_of_neg (by simpa using other), List.find?_cons_of_pos (by simp), Option.map_some]

theorem sound_iff (steady : Steady climb) (level : climb.Level)
    (taken : climb.step currentTp = some after) :
    Sound climb currentTp after ↔ climb.improving currentTp := by
  obtain ⟨_, _, _, _, trials, probed⟩ := exists_launch steady.bounded steady.movable taken
  constructor
  · intro sound active
    have improved : climb.tuner.preProbeTp * 1.02 ≤ climb.measured currentTp := by
      by_contra worse
      exact steady.not_turned ⟨active, worse⟩ (sound.turned ⟨active, worse⟩)
    have records := AutoTuner.records_of_improved active improved
    obtain ⟨before, value, inForce, config, moved, tp, earlier, last⟩ := steady.probing active
    obtain ⟨risen, _, found, better⟩ := sound.best before ((level.config active).trans inForce)
    rw [probed.bestThroughput, level.throughput active] at risen
    rw [probed.bestConfig, records.config] at found
    cases found
    have other : climb.config ≠ before := by
      rw [config]
      exact set_ne moved
    obtain ⟨now, once⟩ := lastTp_after trials last other
    refine ⟨improved, risen.trans_eq records.throughput, ?_⟩
    intro _ first
    rw [last] at first
    cases first
    rcases better with same | ⟨_, _, foundOld, foundNew, higher⟩
    · exact absurd same other
    · cases once.symm.trans foundOld
      cases now.symm.trans foundNew
      exact higher
  · intro improved
    have accepted : ¬ climb.Rejects currentTp := fun rejects => rejects.2 (improved rejects.1).1
    refine ⟨fun rejects => absurd rejects accepted, fun rejects => absurd rejects accepted, ?_⟩
    intro old known
    have active := steady.started.mp (Option.isSome_of_eq_some known)
    have records := steady.records fun active => (improved active).1
    obtain ⟨_, risen, higher⟩ := improved active
    obtain ⟨_, _, inForce, config, moved, tp, _, last⟩ := steady.probing active
    cases known.symm.trans ((level.config active).trans inForce)
    have other : climb.config ≠ old := by
      rw [config]
      exact set_ne moved
    obtain ⟨now, once⟩ := lastTp_after trials last other
    rw [probed.bestThroughput, probed.bestConfig, records.throughput, level.throughput active]
    refine ⟨risen, climb.config, records.config, .inr ⟨tp, currentTp, once, now, higher (old, tp) ?_⟩⟩
    rw [last]
    rfl

theorem level_of_improving (steady : Steady climb) (improved : climb.improving currentTp)
    (taken : climb.step currentTp = some after) : after.Level := by
  obtain ⟨_, _, _, inForce, _, probed⟩ := exists_launch steady.bounded steady.movable taken
  have records := steady.records fun active => (improved active).1
  constructor
  · intro _
    rw [probed.bestThroughput, probed.preProbeTp, records.throughput, measured]
  · intro _
    rw [probed.bestConfig, records.config, inForce]

theorem level_new (config : TuningConfig Rat) : Level (new config) := by
  constructor
  · intro active
    cases active
  · intro active
    cases active

/-- Every step of a climb is sound exactly if every probe is found improved, with a throughput not
below the last one. -/
theorem sound_of_run {config : TuningConfig Rat} {throughputs : List Rat} {final : Climb}
    (run : Execution step anything (new config) throughputs final) :
    EveryStep step Sound (new config) throughputs ↔
      Execution step improving (new config) throughputs final := by
  refine run.everyStep_iff_of_related
    (fun climb => Steady climb ∧ climb.Level) ⟨steady_new config, level_new config⟩ ?_ ?_
  · intro climb currentTp after ⟨steady, level⟩ taken sound
    exact ⟨steady.step taken, level_of_improving steady ((sound_iff steady level taken).mp sound) taken⟩
  · intro climb currentTp after ⟨steady, level⟩ taken
    exact sound_iff steady level taken

/-- The throughput doubles with smaller chunks, and with smaller ones still. -/
theorem sound_rising : EveryStep step Sound (new (.default 8)) [100, 200, 400] := by
  obtain ⟨final, run, _⟩ := exists_execution (fun final : Climb => final.tuner.probeActive)
    (show (replayWhere step (fun climb currentTp => decide (climb.improving currentTp))
      (new (.default 8))
      [100, 200, 400]).any (fun final => final.tuner.probeActive) = true by decide +kernel)
  have improved := run.weaken fun climb currentTp allowed => of_decide_eq_true allowed
  exact (sound_of_run improved.plain).mpr improved

/-- Half as much with the smaller chunks has the streams turned around; and an average that still
rises makes the slower of two configurations the best. -/
theorem halving_unsound :
    ¬ EveryStep step Sound (new (.default 8)) [100, 50] ∧
      ¬ EveryStep step Sound (new (.default 8)) [1, 100, 60] := by
  constructor
  · intro every
    have steady : Steady ((new (.default 8)).adopt 100) := (steady_new (.default 8)).step rfl
    have rejects : Rejects ((new (.default 8)).adopt 100) 50 := by decide +kernel
    have sound := (every.tail rfl).head rfl
    exact steady.not_turned rejects (sound.turned rejects)
  · intro every
    have risen : Execution step anything (new (.default 8)) [1, 100]
        (((new (.default 8)).adopt 1).adopt 100) :=
      .next trivial rfl (.single trivial rfl)
    have improved : Execution step improving (new (.default 8)) ([1, 100] ++ [60]) _ :=
      (sound_of_run (risen.append (.single trivial rfl))).mp every
    obtain ⟨_, first, last⟩ := improved.split
    cases first.plain.unique risen
    cases last with
    | next admitted => exact absurd admitted (by decide +kernel)

end Climb

end DistributedOs.Adaptive
