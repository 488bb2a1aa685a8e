import DistributedOs.Protocol.Message
import DistributedOs.Semantics.JsonText
import DistributedOs.Semantics.Table
import Mathlib.Logic.Function.Basic

/-! The SQLite repository of nodes. A node is flattened to strings by the displays of the core crate
and read back by the match tables of the storage crate; an instant is what `chrono` makes of it. -/

namespace DistributedOs.Storage

open Discovery (Uuid)
open DistributedOs.Protocol (NodeId Platform Capability NodeStatus)
open Semantics (Table)

variable {Instant : Type}

structure Node (Instant : Type) where
  id : NodeId
  name : String
  platform : Platform
  capabilities : List Capability
  status : NodeStatus
  lastSeen : Option Instant
  publicKey : String
  version : String
  deriving DecidableEq

def Node.new (id : NodeId) (name : String) (platform : Platform) (capabilities : List Capability)
    (publicKey version : String) : Node Instant :=
  { id, name, platform, capabilities, status := .offline, lastSeen := none, publicKey, version }

structure Row where
  id : String
  name : String
  platform : String
  capabilities : String
  status : String
  lastSeen : Option String
  publicKey : String
  version : String
  deriving DecidableEq

abbrev Nodes := Table Row String Row.id

/-- What the repository uses of `uuid`, `serde_json` and `chrono`. -/
structure Libraries (Instant : Type) where
  parseUuid : String → Option Uuid
  toJson : List String → String
  fromJson : String → Option (List String)
  toRfc3339 : Instant → String
  parseFromRfc3339 : String → Option Instant

/-- A year is written with four digits only up to 9999, and only such a year is read. -/
structure Libraries.Documented (libraries : Libraries Instant) (year : Instant → Int) : Prop where
  uuid (id : Uuid) : libraries.parseUuid id.toText = some id
  json (strings : List String) : libraries.fromJson (libraries.toJson strings) = some strings
  rfc3339 (instant : Instant) : libraries.parseFromRfc3339 (libraries.toRfc3339 instant) =
    if 0 ≤ year instant ∧ year instant ≤ 9999 then some instant else none

def platformFromStr : String → Platform
  | "mac" => .mac
  | "windows" => .windows
  | "linux" => .linux
  | "android" => .android
  | "docker" => .docker
  | "vm" => .vm
  | "browser" => .browser
  | "nas" => .nas
  | "raspberry_pi" => .raspberryPi
  | "cloud" => .cloud
  | "wsl" => .wsl
  | other => .unknown other

def statusFromStr : String → NodeStatus
  | "online" => .online
  | "busy" => .busy
  | "maintenance" => .maintenance
  | _ => .offline

/-- One arm of `capabilities_from_json`; the table has no entry for the clipboard and for file
transfer. -/
def capabilityFromStr : String → Capability
  | "compute" => .compute
  | "file_storage" => .fileStorage
  | "search" => .search
  | "docker" => .docker
  | "ai_model" => .aiModel
  | "browser" => .browser
  | "notifications" => .notifications
  | "camera" => .camera
  | "microphone" => .microphone
  | "terminal" => .terminal
  | "remote_execution" => .remoteExecution
  | other => .unknown other

section
variable (libraries : Libraries Instant)

def capabilitiesToJson (capabilities : List Capability) : String :=
  libraries.toJson (capabilities.map Capability.toText)

def capabilitiesFromJson (json : String) : List Capability :=
  ((libraries.fromJson json).getD []).map capabilityFromStr

/-- The values that `upsert` binds. -/
def nodeToRow (node : Node Instant) : Row :=
  { id := node.id.toText, name := node.name, platform := node.platform.toText
    capabilities := capabilitiesToJson libraries node.capabilities, status := node.status.toText
    lastSeen := node.lastSeen.map libraries.toRfc3339, publicKey := node.publicKey,
      version := node.version }

def rowToNode (row : Row) : Node Instant :=
  let id := (libraries.parseUuid row.id).getD .nil
  let node : Node Instant := .new id row.name (platformFromStr row.platform)
    (capabilitiesFromJson libraries row.capabilities) row.publicKey row.version
  { node with
    status := statusFromStr row.status, lastSeen := row.lastSeen.bind libraries.parseFromRfc3339 }

def upsert (nodes : Nodes) (node : Node Instant) : Nodes := nodes.upsert (nodeToRow libraries node)

def findById (nodes : Nodes) (id : NodeId) : Option (Node Instant) :=
  (nodes.find id.toText).map (rowToNode libraries)

/-- The answers that `ORDER BY name ASC` allows: rows of one name come in any order. -/
def ListAll (nodes : Nodes) (answer : List (Node Instant)) : Prop :=
  ∃ rows, nodes.Listed (fun first second => first.name ≤ second.name) rows ∧
  answer = rows.map (rowToNode libraries)

def delete (nodes : Nodes) (id : NodeId) : Nodes := nodes.delete id.toText

inductive Operation (Instant : Type) where
  | upsert (node : Node Instant)
  | delete (id : NodeId)

def perform (nodes : Nodes) : Operation Instant → Nodes
  | .upsert node => upsert libraries nodes node
  | .delete id => delete nodes id

def performAll (operations : List (Operation Instant)) : Nodes :=
  operations.foldl (perform libraries) Table.empty

end

/-- What a repository of nodes is for: the last node of each id, unless it was deleted after. -/
def kept (store : NodeId → Option (Node Instant)) :
    Operation Instant → NodeId → Option (Node Instant)
  | .upsert node => Function.update store node.id (some node)
  | .delete id => Function.update store id none

def surviving (operations : List (Operation Instant)) : NodeId → Option (Node Instant) :=
  operations.foldl kept fun _ => none

/-- Every surviving node is found as it was stored, and a listing holds exactly these, each once. -/
structure Faithful (libraries : Libraries Instant)
    (operations : List (Operation Instant)) : Prop where
  found (id : NodeId) : findById libraries (performAll libraries operations) id = surviving operations id
  listed {answer : List (Node Instant)} : ListAll libraries (performAll libraries operations) answer →
    (answer.map Node.id).Nodup ∧ ∀ node, node ∈ answer ↔ surviving operations node.id = some node

def knownPlatforms : List String :=
  ["mac", "windows", "linux", "android", "docker", "vm", "browser", "nas",
    "raspberry_pi", "cloud", "wsl"]

def knownCapabilities : List String :=
  ["compute", "file_storage", "search", "docker", "ai_model", "browser", "notifications",
    "camera", "microphone",
    "terminal", "remote_execution"]

/-- What the tables read as it was written. -/
def ReadablePlatform : Platform → Prop
  | .unknown name => name ∉ knownPlatforms
  | _ => True

def ReadableCapability : Capability → Prop
  | .clipboard => False
  | .fileTransfer => False
  | .unknown name => name ∉ knownCapabilities
  | _ => True

structure Node.Readable (year : Instant → Int) (node : Node Instant) : Prop where
  platform : ReadablePlatform node.platform
  capabilities : ∀ capability ∈ node.capabilities, ReadableCapability capability
  lastSeen : ∀ instant ∈ node.lastSeen, 0 ≤ year instant ∧ year instant ≤ 9999

theorem platformFromStr_eq_unknown_iff (name : String) : platformFromStr name = .unknown name ↔
      name ∉ knownPlatforms := by
  unfold platformFromStr
  split <;> simp_all [knownPlatforms]

theorem capabilityFromStr_eq_unknown_iff (name : String) :
    capabilityFromStr name = .unknown name ↔ name ∉ knownCapabilities := by
  unfold capabilityFromStr
  split <;> simp_all [knownCapabilities]

theorem platformFromStr_toText_iff (platform : Platform) :
    platformFromStr platform.toText = platform ↔ ReadablePlatform platform := by
  cases platform with
  | unknown name => exact platformFromStr_eq_unknown_iff name
  | _ => exact ⟨fun _ => trivial, fun _ => rfl⟩

theorem capabilityFromStr_toText_iff (capability : Capability) :
    capabilityFromStr capability.toText = capability ↔ ReadableCapability capability := by
  cases capability with
  | unknown name => exact capabilityFromStr_eq_unknown_iff name
  | clipboard => exact ⟨fun same => absurd same (by decide), False.elim⟩
  | fileTransfer => exact ⟨fun same => absurd same (by decide), False.elim⟩
  | _ => exact ⟨fun _ => trivial, fun _ => rfl⟩

theorem statusFromStr_toText (status : NodeStatus) : statusFromStr status.toText = status := by
  cases status <;> rfl

section
variable {libraries : Libraries Instant} {year : Instant → Int}
  {operations : List (Operation Instant)}

theorem capabilitiesFromJson_toJson (documented : libraries.Documented year)
    (capabilities : List Capability) :
    capabilitiesFromJson libraries (capabilitiesToJson libraries capabilities) =
      capabilities.map fun capability => capabilityFromStr capability.toText := by
  rw [capabilitiesFromJson, capabilitiesToJson, documented.json, Option.getD_some, List.map_map]
  rfl

theorem rowToNode_nodeToRow (documented : libraries.Documented year) (node : Node Instant) :
    rowToNode libraries (nodeToRow libraries node) =
      { node with
        platform := platformFromStr node.platform.toText
        capabilities := node.capabilities.map fun capability => capabilityFromStr capability.toText
        lastSeen := node.lastSeen.filter fun instant => 0 ≤ year instant ∧
        year instant ≤ 9999 } := by
  have seen : (node.lastSeen.map libraries.toRfc3339).bind libraries.parseFromRfc3339 =
      node.lastSeen.filter fun instant => 0 ≤ year instant ∧ year instant ≤ 9999 := by
    cases node.lastSeen with
    | none => rfl
    | some => simp [documented.rfc3339, Option.filter]
  simp only [rowToNode, nodeToRow, Node.new, documented.uuid, Option.getD_some, statusFromStr_toText,
    capabilitiesFromJson_toJson documented, seen]

@[simp] theorem id_rowToNode_nodeToRow (documented : libraries.Documented year)
    (node : Node Instant) :
    (rowToNode libraries (nodeToRow libraries node)).id = node.id := by
  rw [rowToNode_nodeToRow documented]

theorem rowToNode_nodeToRow_iff (documented : libraries.Documented year) (node : Node Instant) :
    rowToNode libraries (nodeToRow libraries node) = node ↔ node.Readable year := by
  have platform := platformFromStr_toText_iff node.platform
  have capabilities : (node.capabilities.map fun capability =>
    capabilityFromStr capability.toText) = node.capabilities ↔
      ∀ capability ∈ node.capabilities, ReadableCapability capability := by
    conv_lhs => rhs; rw [← List.map_id node.capabilities]
    rw [List.map_inj_left]
    exact forall₂_congr fun capability _ => capabilityFromStr_toText_iff capability
  have lastSeen : (node.lastSeen.filter fun instant => 0 ≤ year instant ∧
    year instant ≤ 9999) = node.lastSeen ↔
      ∀ instant ∈ node.lastSeen, 0 ≤ year instant ∧ year instant ≤ 9999 := by
    cases node.lastSeen <;> simp [Option.filter]
  rw [rowToNode_nodeToRow documented]
  constructor
  · intro same
    exact
      { platform := platform.mp (congrArg Node.platform same)
        capabilities := capabilities.mp (congrArg Node.capabilities same)
        lastSeen := lastSeen.mp (congrArg Node.lastSeen same) }
  · intro readable
    rw [platform.mpr readable.platform, capabilities.mpr readable.capabilities,
      lastSeen.mpr readable.lastSeen]

theorem toText_inj (documented : libraries.Documented year) {first second : Uuid} :
    first.toText = second.toText ↔ first = second := by
  constructor
  · intro same
    have read := congrArg libraries.parseUuid same
    rw [documented.uuid, documented.uuid] at read
    exact Option.some.inj read
  · exact congrArg Uuid.toText

/-- The table holds the row of every surviving node, and no other row. -/
structure Represents (libraries : Libraries Instant) (nodes : Nodes)
    (store : NodeId → Option (Node Instant)) : Prop where
  rows (id : NodeId) : nodes.find id.toText = (store id).map (nodeToRow libraries)
  keys : ∀ row ∈ nodes.rows, ∃ id : NodeId, row.id = id.toText
  ids (id : NodeId) : ∀ node ∈ store id, node.id = id

theorem Represents.perform (documented : libraries.Documented year) {nodes : Nodes}
    (represents : Represents libraries nodes store) (operation : Operation Instant) :
    Represents libraries (perform libraries nodes operation) (kept store operation) := by
  cases operation with
  | upsert node =>
    refine { rows := ?_, keys := ?_, ids := ?_ }
    · intro id
      have key : (nodeToRow libraries node).id = id.toText ↔ node.id = id := toText_inj documented
      simp only [Storage.perform, upsert, kept, Table.find_upsert, Function.update_apply, key,
        eq_comm (a := id)]
      split
      · rfl
      · exact represents.rows id
    · intro row member
      rcases (Table.mem_upsertRows_iff nodes.primaryKey).mp member with rfl | ⟨old, _⟩
      · exact ⟨node.id, rfl⟩
      · exact represents.keys row old
    · intro id found there
      simp only [kept, Function.update_apply] at there
      split at there
      · rename_i same
        rw [same, Option.mem_some_iff.mp there]
      · exact represents.ids id found there
  | delete unwanted =>
    refine { rows := ?_, keys := ?_, ids := ?_ }
    · intro id
      have key : unwanted.toText = id.toText ↔ unwanted = id := toText_inj documented
      simp only [Storage.perform, delete, kept, Table.find_delete, Function.update_apply, key,
        eq_comm (a := id)]
      split
      · rfl
      · exact represents.rows id
    · intro row member
      exact represents.keys row (List.mem_filter.mp member).1
    · intro id found there
      simp only [kept, Function.update_apply] at there
      split at there
      · cases there
      · exact represents.ids id found there

theorem represents_performAll (documented : libraries.Documented year)
    (operations : List (Operation Instant)) :
    Represents libraries (performAll libraries operations) (surviving operations) := by
  have folds : ∀ (nodes : Nodes) (store : NodeId → Option (Node Instant)),
    Represents libraries nodes store →
      Represents libraries (operations.foldl (perform libraries) nodes)
        (operations.foldl kept store) := by
    induction operations with
    | nil => exact fun _ _ represents => represents
    | cons operation _ ih =>
      intro _ _ represents
      exact ih _ _ (represents.perform documented operation)
  exact folds _ _ { rows := fun _ => rfl, keys := nofun, ids := nofun }

theorem findById_performAll (documented : libraries.Documented year)
    (operations : List (Operation Instant)) (id : NodeId) :
    findById libraries (performAll libraries operations) id =
      (surviving operations id).map fun node => rowToNode libraries (nodeToRow libraries node) := by
  rw [findById, (represents_performAll documented operations).rows, Option.map_map]
  rfl

theorem Represents.mem_rows_iff
    (represents : Represents libraries nodes store) :
    row ∈ nodes.rows ↔ ∃ node, store node.id = some node ∧ row = nodeToRow libraries node := by
  constructor
  · intro member
    obtain ⟨id, key⟩ := represents.keys row member
    have found := Table.mem_rows_iff.mp member
    rw [key, represents.rows] at found
    obtain ⟨node, stored, written⟩ := Option.map_eq_some_iff.mp found
    have same := represents.ids id node stored
    exact ⟨node, same ▸ stored, written.symm⟩
  · rintro ⟨node, stored, rfl⟩
    have found := represents.rows node.id
    rw [stored] at found
    exact Table.mem_rows_iff.mpr found

theorem nodup_of_listAll (documented : libraries.Documented year)
    (listed : ListAll libraries (performAll libraries operations) answer) :
    (answer.map Node.id).Nodup := by
  obtain ⟨rows, ⟨same, _⟩, rfl⟩ := listed
  have represents := represents_performAll documented operations
  have keys : (rows.map Row.id).Nodup :=
    (same.map Row.id).nodup_iff.mpr (performAll libraries operations).primaryKey
  have texts : (rows.map Row.id) = ((rows.map (rowToNode libraries)).map Node.id).map Uuid.toText := by
    rw [List.map_map, List.map_map]
    refine List.map_congr_left fun row member => ?_
    obtain ⟨_, _, rfl⟩ := represents.mem_rows_iff.mp (same.mem_iff.mp member)
    simp only [Function.comp_apply, id_rowToNode_nodeToRow documented]
    rfl
  rw [texts] at keys
  exact List.Nodup.of_map _ keys

/-- The repository keeps every surviving node exactly when its tables can read each of them. -/
theorem faithful_iff (documented : libraries.Documented year)
    (operations : List (Operation Instant)) :
    Faithful libraries operations ↔ ∀ id, ∀ node ∈ surviving operations id, node.Readable year := by
  constructor
  · intro faithful id node survives
    have found := faithful.found id
    rw [findById_performAll documented, survives, Option.map_some] at found
    exact (rowToNode_nodeToRow_iff documented node).mp (Option.some.inj found)
  · intro readable
    have represents := represents_performAll documented operations
    have same {node : Node Instant} {id : NodeId} (survives : surviving operations id = some node) :
        rowToNode libraries (nodeToRow libraries node) = node :=
      (rowToNode_nodeToRow_iff documented node).mpr (readable id node survives)
    refine { found := ?_, listed := ?_ }
    · intro id
      rw [findById_performAll documented]
      cases survives : surviving operations id with
      | none => rfl
      | some => rw [Option.map_some, same survives]
    · intro _ listed
      refine ⟨nodup_of_listAll documented listed, fun node => ?_⟩
      obtain ⟨_, ⟨perm, _⟩, rfl⟩ := listed
      simp only [List.mem_map, perm.mem_iff, represents.mem_rows_iff]
      constructor
      · rintro ⟨_, ⟨_, survives, rfl⟩, rfl⟩
        rw [same survives]
        exact survives
      · intro survives
        exact ⟨_, ⟨node, survives, rfl⟩, same survives⟩

end

/-- An instant whose year has four digits, and one whose year has five. -/
inductive SampleInstant where
  | epoch
  | tenThousand
  deriving DecidableEq

def SampleInstant.year : SampleInstant → Int
  | .epoch => 1970
  | .tenThousand => 10000

def sampleLibraries : Libraries SampleInstant :=
  { parseUuid := Discovery.parseText, toJson := Semantics.JsonText.arrayText,
    fromJson := Semantics.JsonText.readArray
    toRfc3339 := fun
      | .epoch => "1970-01-01T00:00:00+00:00"
      | .tenThousand => "+10000-01-01T00:00:00+00:00"
    parseFromRfc3339 := fun text => if text = "1970-01-01T00:00:00+00:00" then some .epoch else none }

theorem sampleLibraries_documented : sampleLibraries.Documented SampleInstant.year where
  uuid id := by
    simp only [sampleLibraries]
    exact Discovery.parseText_toText id
  json strings := by
    simp only [sampleLibraries]
    exact Semantics.JsonText.readArray_arrayText strings
  rfc3339 instant := by cases instant <;> simp [sampleLibraries, SampleInstant.year]

def phone : Node SampleInstant :=
  { id := Discovery.phoneId, name := "phone", platform := .android,
    capabilities := [.camera, .unknown "clipboard"]
    status := .busy, lastSeen := some .epoch, publicKey := "key", version := "0.1.0" }

def desktop : Node SampleInstant :=
  .new .nil "desktop" .mac [.compute, .clipboard, .fileTransfer] "key" "0.1.0"

theorem phone_readable : phone.Readable SampleInstant.year where
  platform := trivial
  capabilities := by
    have unlisted : "clipboard" ∉ knownCapabilities := by decide
    simpa [phone, ReadableCapability] using unlisted
  lastSeen := by simp [phone, SampleInstant.year]

/-- The desktop was stored, and deleted again. -/
theorem faithful_phone :
    sampleLibraries.Documented SampleInstant.year ∧
      Faithful sampleLibraries [.upsert desktop, .upsert phone, .delete desktop.id] := by
  refine ⟨sampleLibraries_documented, (faithful_iff sampleLibraries_documented _).mpr ?_⟩
  intro _ _ survives
  simp only [surviving, List.foldl_cons, List.foldl_nil, kept, Function.update_apply] at survives
  split at survives
  · cases survives
  · split at survives
    · rw [← Option.mem_some_iff.mp survives]
      exact phone_readable
    · cases survives

/-- The desktop's clipboard and file transfer come back as unknown capabilities. -/
theorem not_faithful_desktop :
    findById sampleLibraries (performAll sampleLibraries [.upsert desktop]) desktop.id =
        some { desktop with capabilities := [.compute, .unknown "clipboard",
          .unknown "file_transfer"] } ∧
      ¬ ∀ operations : List (Operation SampleInstant), Faithful sampleLibraries operations := by
  have found : findById sampleLibraries (performAll sampleLibraries [.upsert desktop]) desktop.id =
      some { desktop with capabilities := [.compute, .unknown "clipboard",
        .unknown "file_transfer"] } := by
    rw [findById_performAll sampleLibraries_documented]
    simp only [surviving, List.foldl_cons, List.foldl_nil, kept, Function.update_self, Option.map_some,
      rowToNode_nodeToRow sampleLibraries_documented]
    rfl
  refine ⟨found, fun faithful => ?_⟩
  have kept := (faithful [.upsert desktop]).found desktop.id
  rw [found] at kept
  simp only [surviving, List.foldl_cons, List.foldl_nil, Storage.kept, Function.update_self,
    Option.some.injEq] at kept
  exact absurd (congrArg Node.capabilities kept) (by decide)

end DistributedOs.Storage
