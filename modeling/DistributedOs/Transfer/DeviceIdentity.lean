import DistributedOs.Http.Names
import DistributedOs.Semantics.Execution
import DistributedOs.Semantics.JsonText

/-! The identity of a device in its file. A start of the program draws the identity that it falls
back on; file operations succeed, and nothing but the program writes the file. -/

namespace DistributedOs.Transfer

open Semantics
open Http (fromUtf8 fromUtf8_utf8)
open Reliable (utf8)

structure DeviceIdentity where
  deviceId : String
  deviceName : String
  deviceModel : String
  softwareVersion : String
  deriving DecidableEq

def DeviceIdentity.fingerprint (sha256 : Bytes → Bytes) (identity : DeviceIdentity) : String :=
  String.ofList ((sha256 (utf8 identity.deviceId)).flatMap lowerHex)

/-- What `serde_json` makes of an identity, and of a text. -/
structure IdentityJson where
  toStringPretty : DeviceIdentity → String
  fromStr : String → Option DeviceIdentity

/-- What has been written is read back. -/
def IdentityJson.Documented (json : IdentityJson) : Prop :=
  ∀ identity, json.fromStr (json.toStringPretty identity) = some identity

/-- What a start has returned, and the name that was set last before it. -/
structure IdentityStart where
  named : Option String
  identity : DeviceIdentity
  deriving DecidableEq

/-- The file and the running manager, with what has happened so far. -/
structure IdentityManager where
  configFile : Option Bytes
  inner : Option DeviceIdentity
  starts : List IdentityStart
  lastName : Option String
  deriving DecidableEq

inductive IdentityEvent where
  | new (default : DeviceIdentity)
  | setName (name : String)

namespace IdentityManager

def initial (configFile : Option Bytes) : IdentityManager :=
  { configFile, inner := none, starts := [], lastName := none }

section
variable (json : IdentityJson)

def load (content : Bytes) : Option DeviceIdentity := (fromUtf8 content).bind json.fromStr

def persist (manager : IdentityManager) (identity : DeviceIdentity) : IdentityManager :=
  { manager with configFile := some (utf8 (json.toStringPretty identity)) }

def returned (manager : IdentityManager) (identity : DeviceIdentity) : IdentityManager :=
  { manager with
    inner := some identity
    starts := manager.starts ++ [{ named := manager.lastName, identity }] }

/-- Only an identity for which there was no file is saved. -/
def new (manager : IdentityManager) (default : DeviceIdentity) : IdentityManager :=
  match manager.configFile with
  | some content => manager.returned ((load json content).getD default)
  | none => (manager.returned default).persist json default

/-- Only a running manager is asked to. -/
def setName (manager : IdentityManager) (name : String) : Option IdentityManager :=
  manager.inner.map fun identity =>
    let identity := { identity with deviceName := name }
    { manager with inner := some identity, lastName := some name }.persist json identity

def step (manager : IdentityManager) : IdentityEvent → Option IdentityManager
  | .new default => some (manager.new json default)
  | .setName name => manager.setName json name

/-- The starts after the first agree on the id and on the fingerprint, and every start
has returned the name that was set last. -/
structure Stable (sha256 : Bytes → Bytes) (manager : IdentityManager) : Prop where
  deviceId : ∀ one ∈ manager.starts.tail, ∀ other ∈ manager.starts.tail,
    one.identity.deviceId = other.identity.deviceId
  fingerprint : ∀ one ∈ manager.starts.tail, ∀ other ∈ manager.starts.tail,
    one.identity.fingerprint sha256 = other.identity.fingerprint sha256
  deviceName : ∀ start ∈ manager.starts, ∀ name ∈ start.named, start.identity.deviceName = name

/-- A start that finds a file but no identity in it is one of the first two, or happens to draw the
id of those after the first. -/
def finds (manager : IdentityManager) : IdentityEvent → Prop
  | .new default => ∀ content, manager.configFile = some content → load json content = none →
      ∀ start ∈ manager.starts.tail, default.deviceId = start.identity.deviceId
  | .setName _ => True

end

variable {json : IdentityJson} {sha256 : Bytes → Bytes} {manager after : IdentityManager}
  {event : IdentityEvent} {identity stored default : DeviceIdentity} {content : Bytes}
  {file : Option Bytes}

theorem stable_iff :
    manager.Stable sha256 ↔
      (∀ one ∈ manager.starts.tail, ∀ other ∈ manager.starts.tail,
        one.identity.deviceId = other.identity.deviceId) ∧
        ∀ start ∈ manager.starts, ∀ name ∈ start.named, start.identity.deviceName = name := by
  constructor
  · exact fun stable => ⟨stable.deviceId, stable.deviceName⟩
  · rintro ⟨deviceId, deviceName⟩
    refine ⟨deviceId, fun one first other second => ?_, deviceName⟩
    rw [DeviceIdentity.fingerprint, DeviceIdentity.fingerprint, deviceId one first other second]

theorem stable_persist_iff : (manager.persist json identity).Stable sha256 ↔
      manager.Stable sha256 := by
  rw [stable_iff, stable_iff]
  rfl

theorem tail_append_singleton {α : Type} (items : List α) (last : α) :
    (items ++ [last]).tail = if items = [] then [] else items.tail ++ [last] := by
  cases items <;> rfl

theorem stable_returned_iff (stable : manager.Stable sha256) :
    (manager.returned identity).Stable sha256 ↔
      (∀ start ∈ manager.starts.tail, identity.deviceId = start.identity.deviceId) ∧
        ∀ name ∈ manager.lastName, identity.deviceName = name := by
  rw [stable_iff, returned]
  simp only [List.forall_mem_append, List.forall_mem_singleton, tail_append_singleton]
  rw [and_iff_right stable.deviceName]
  refine and_congr_left fun _ => ?_
  by_cases first : manager.starts = []
  · simp [first]
  · rw [if_neg first]
    simp only [List.forall_mem_append, List.forall_mem_singleton]
    constructor
    · exact fun all => all.2.1
    · intro same
      exact ⟨fun one member => ⟨stable.deviceId one member, (same one member).symm⟩, same, trivial⟩

inductive Starts (json : IdentityJson) (manager : IdentityManager) (default : DeviceIdentity) :
    IdentityManager → Prop where
  | absent (none : manager.configFile = none) :
      Starts json manager default ((manager.returned default).persist json default)
  | read {content : Bytes} {stored : DeviceIdentity} (there : manager.configFile = some content)
      (loaded : load json content = some stored) :
      Starts json manager default (manager.returned stored)
  | corrupt {content : Bytes} (there : manager.configFile = some content)
    (failed : load json content = none) :
      Starts json manager default (manager.returned default)

theorem new_starts (json : IdentityJson) (manager : IdentityManager) (default : DeviceIdentity) :
    manager.Starts json default (manager.new json default) := by
  unfold new
  split
  · rename_i content there
    cases loaded : load json content with
    | none => exact .corrupt there loaded
    | some => exact .read there loaded
  · rename_i none
    exact .absent none

theorem load_written (documented : json.Documented) (identity : DeviceIdentity) :
    load json (utf8 (json.toStringPretty identity)) = some identity := by
  rw [load, fromUtf8_utf8, Option.bind_some, documented]

/-- The file and the running manager have the id of the last start, and an identity in the file the
name that was set last. Nothing is set before there is an identity in the file. -/
structure Kept (json : IdentityJson) (manager : IdentityManager) : Prop where
  absent : manager.configFile = none → manager.starts = [] ∧ manager.lastName = none
  corrupt : ∀ content, manager.configFile = some content → load json content = none →
    manager.lastName = none
  read : ∀ content stored, manager.configFile = some content → load json content = some stored →
    (∀ start ∈ manager.starts.getLast?, stored.deviceId = start.identity.deviceId) ∧
      ∀ name ∈ manager.lastName, stored.deviceName = name
  running : ∀ identity ∈ manager.inner, ∃ start, manager.starts.getLast? = some start ∧
    identity.deviceId = start.identity.deviceId

theorem Kept.initial (json : IdentityJson) (file : Option Bytes) : Kept json (initial file) where
  absent := fun _ => ⟨rfl, rfl⟩
  corrupt := fun _ _ _ => rfl
  read := fun _ _ _ _ => ⟨nofun, nofun⟩
  running := nofun

theorem Kept.starts (documented : json.Documented) (kept : Kept json manager)
    (starts : manager.Starts json default after) :
    Kept json after := by
  have last (identity : DeviceIdentity) :
      (manager.returned identity).starts.getLast? = some { named := manager.lastName, identity } :=
    List.getLast?_concat
  cases starts with
  | absent none =>
    refine ⟨nofun, fun content there failed => ?_, fun content stored there loaded =>
      ?_, fun identity same => ?_⟩
    · cases there
      rw [load_written documented] at failed
      cases failed
    · cases there
      cases (load_written documented default).symm.trans loaded
      refine ⟨fun start found => ?_, fun name set => ?_⟩
      · cases (last _).symm.trans found
        rfl
      · cases (kept.absent none).2.symm.trans set
    · cases same
      exact ⟨_, last _, rfl⟩
  | @read content stored there loaded =>
    refine ⟨fun absent => ?_, fun other same failed => ?_, fun other again same found =>
      ?_, fun identity same => ?_⟩
    · cases there.symm.trans absent
    · cases there.symm.trans same
      cases loaded.symm.trans failed
    · cases there.symm.trans same
      cases loaded.symm.trans found
      refine ⟨fun start found => ?_, (kept.read content stored there loaded).2⟩
      cases (last _).symm.trans found
      rfl
    · cases same
      exact ⟨_, last _, rfl⟩
  | @corrupt content there failed =>
    refine ⟨fun absent => ?_, fun _ _ _ => kept.corrupt content there failed,
      fun other again same found => ?_, fun identity same => ?_⟩
    · cases there.symm.trans absent
    · cases there.symm.trans same
      cases failed.symm.trans found
    · cases same
      exact ⟨_, last _, rfl⟩

theorem Kept.setName (documented : json.Documented) (kept : Kept json manager)
    (set : manager.setName json name = some after) :
    Kept json after := by
  obtain ⟨identity, running, rfl⟩ := Option.map_eq_some_iff.mp set
  obtain ⟨start, last, same⟩ := kept.running identity running
  refine ⟨nofun, fun content there failed => ?_, fun content stored there loaded =>
    ?_, fun other held => ?_⟩
  · cases there
    rw [load_written documented] at failed
    cases failed
  · cases there
    cases (load_written documented _).symm.trans loaded
    refine ⟨fun other found => ?_, fun other found => Option.some.inj found⟩
    cases last.symm.trans found
    exact same
  · cases held
    exact ⟨start, last, same⟩

theorem Kept.step (documented : json.Documented) (kept : Kept json manager)
    (taken : manager.step json event = some after) :
    Kept json after := by
  cases event with
  | new default =>
    cases taken
    exact kept.starts documented (new_starts json manager default)
  | setName => exact kept.setName documented taken

theorem Kept.deviceId (kept : Kept json manager) (stable : manager.Stable sha256)
    (there : manager.configFile = some content) (loaded : load json content = some stored) :
    ∀ start ∈ manager.starts.tail, stored.deviceId = start.identity.deviceId := by
  intro start member
  obtain ⟨last, found⟩ := List.getLast?_isSome.mpr (List.ne_nil_of_mem member) |>
    Option.isSome_iff_exists.mp
  have whole : manager.starts.getLast? = some last := by
    cases starts : manager.starts with
    | nil =>
      rw [starts] at member
      cases member
    | cons =>
      rw [starts, List.tail_cons] at found
      rw [List.getLast?_cons, found, Option.getD_some]
  rw [(kept.read content stored there loaded).1 last whole]
  exact stable.deviceId last (List.mem_of_getLast? found) start member

/-- A start keeps a device stable exactly when it finds an identity, or need not. -/
theorem stable_step_iff (kept : Kept json manager) (stable : manager.Stable sha256)
    (taken : manager.step json event = some after) :
    after.Stable sha256 ↔ manager.finds json event := by
  cases event with
  | new default =>
    cases taken
    have starts := new_starts json manager default
    generalize manager.new json default = after at starts ⊢
    cases starts with
    | absent none =>
      rw [stable_persist_iff, stable_returned_iff stable]
      obtain ⟨first, unset⟩ := kept.absent none
      refine iff_of_true ⟨?_, ?_⟩ fun content there => ?_
      · rw [first]
        nofun
      · rw [unset]
        nofun
      · cases none.symm.trans there
    | @read content stored there loaded =>
      rw [stable_returned_iff stable]
      refine iff_of_true ⟨kept.deviceId stable there loaded,
        (kept.read content stored there loaded).2⟩ ?_
      intro _ same failed
      cases there.symm.trans same
      cases loaded.symm.trans failed
    | @corrupt content there failed =>
      rw [stable_returned_iff stable, kept.corrupt content there failed]
      constructor
      · exact fun same _ _ _ => same.1
      · exact fun finds => ⟨finds content there failed, nofun⟩
  | setName =>
    obtain ⟨_, _, rfl⟩ := Option.map_eq_some_iff.mp taken
    exact iff_of_true ⟨stable.deviceId, stable.fingerprint, stable.deviceName⟩ trivial

/-- Over any starts and names set, from any content of the file, the identity is stable exactly as
long as no start but the first two finds a file that holds no identity. -/
theorem stable_of_run (documented : json.Documented) (sha256 : Bytes → Bytes) {file : Option Bytes}
    {events : List IdentityEvent}
    (run : Execution (step json) anything (initial file) events after) :
    EveryState (step json) (Stable sha256) (initial file) events ↔
      Execution (step json) (finds json) (initial file) events after := by
  have stable : (initial file).Stable sha256 := ⟨nofun, nofun, nofun⟩
  rw [everyState_iff_everyStep stable]
  exact run.everyState_iff (Kept json) (.initial json file)
    (fun _ _ _ kept taken => kept.step documented taken) stable
    fun _ _ _ kept stable taken => stable_step_iff kept stable taken

/-- The writer and a reader of what it writes. -/
def sampleJson : IdentityJson where
  toStringPretty identity :=
    JsonText.objectText
      [("device_id", identity.deviceId), ("device_name", identity.deviceName),
        ("device_model", identity.deviceModel),
        ("software_version", identity.softwareVersion)]
  fromStr text :=
    match JsonText.readObject text with
    | some [("device_id", deviceId), ("device_name", deviceName), ("device_model", deviceModel),
        ("software_version", softwareVersion)] =>
          some { deviceId, deviceName, deviceModel, softwareVersion }
    | _ => none

theorem sampleJson_documented : sampleJson.Documented := by
  intro _
  simp only [sampleJson, JsonText.readObject_objectText]

/-- What the default is on one machine, up to the id that is drawn. -/
def drawn (deviceId : String) : DeviceIdentity :=
  { deviceId, deviceName := "mini", deviceModel := "Linux", softwareVersion := "0.1.0" }

theorem finds_of_setName (documented : json.Documented)
    (set : manager.setName json name = some after) :
    after.finds json event := by
  obtain ⟨_, _, rfl⟩ := Option.map_eq_some_iff.mp set
  cases event with
  | new =>
    intro _ there failed
    cases there
    rw [load_written documented] at failed
    cases failed
  | setName => trivial

theorem new_corrupt (there : manager.configFile = some content)
    (failed : load json content = none) :
    manager.new json default = manager.returned default := by
  rw [new, there]
  simp only [failed, Option.getD_none]

/-- Over an empty file, a name that is set after the second start makes its id stay. -/
theorem stable_renamed :
    EveryState (step sampleJson) (Stable id) (initial (some []))
      [.new (drawn "1b4e28ba-2fa1-41d2-883f-0016d3cca427"),
        .new (drawn "6fa459ea-ee8a-4ca4-894e-db77e160355e"), .setName "studio",
        .new (drawn "16fd2706-8baf-433b-82eb-8c7fada847da")] := by
  refine (stable_of_run sampleJson_documented id
    (.next trivial rfl (.next trivial rfl (.next trivial rfl (.next trivial rfl .done))))).mpr
    (.next ?_ rfl (.next ?_ rfl (.next trivial rfl (.next ?_ rfl .done))))
  · intro content there _ start member
    cases member
  · intro _ _ _ _ member
    simp [new, initial, returned] at member
  · have set : (((initial (some [])).new sampleJson
      (drawn "1b4e28ba-2fa1-41d2-883f-0016d3cca427")).new sampleJson
        (drawn "6fa459ea-ee8a-4ca4-894e-db77e160355e")).setName sampleJson "studio" = some _ := rfl
    exact finds_of_setName sampleJson_documented set

/-- Over an empty file the second and the third start return different ids. -/
theorem unstable_over_empty :
    ¬ EveryState (step sampleJson) (Stable id) (initial (some []))
      [.new (drawn "1b4e28ba-2fa1-41d2-883f-0016d3cca427"),
        .new (drawn "6fa459ea-ee8a-4ca4-894e-db77e160355e"),
        .new (drawn "16fd2706-8baf-433b-82eb-8c7fada847da")] := by
  intro every
  have failed : load sampleJson [] = none := by decide +kernel
  have start {manager : IdentityManager} (default : DeviceIdentity)
    (empty : manager.configFile = some []) :
      step sampleJson manager (.new default) = some (manager.returned default) :=
    congrArg some (new_corrupt empty failed)
  have stable := every _ [] _ rfl
    (.next trivial (start _ rfl) (.next trivial (start _ rfl) (.next trivial (start _ rfl) .done)))
  have same := stable.deviceId _ (List.mem_cons_self) _ (List.mem_cons_of_mem _ List.mem_cons_self)
  exact absurd same (by decide)

end IdentityManager

end DistributedOs.Transfer
