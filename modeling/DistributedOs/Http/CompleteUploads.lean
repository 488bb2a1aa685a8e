import DistributedOs.Http.Containment
import DistributedOs.Semantics.ReadLoop

/-! What the three receivers of `/api/receive-file` answer when the sender closes the connection at
any point. The headers stand with their parsed values, and files with the names that a receiver
gives them. -/

namespace DistributedOs.Http.CompleteUploads

open Semantics
open Http.Containment (ZipEntry formatPath join ofDirectory trim)

/-- `offset` and `totalSize` are the headers of an upload in several streams. -/
structure Upload where
  filename : Option String
  contentLength : Nat
  offset : Option UInt64
  totalSize : Option UInt64

def Upload.start (upload : Upload) : Nat := (upload.offset.getD 0).toNat

/-- What arrives after the headers, and what a read comes to after that: to no bytes, or to an
error. -/
structure Connection where
  pieces : List Bytes
  closed : Except String Unit

inductive Answer where
  | success (savedTo : String) (size : Nat)
  | failure (status : Nat)
  | dropped
  deriving DecidableEq

inductive Status where
  | receiving
  | completed
  deriving DecidableEq

structure Progress where
  active : Bool
  filename : String
  bytesSent : Nat
  totalBytes : Nat
  status : Status
  deriving DecidableEq

/-- An entry of the list of received files. -/
structure Received where
  id : Nat
  filename : String
  size : Nat
  deriving DecidableEq

/-- The files that a handler leaves, its answer, the progress it has set last, and what it has
recorded. -/
structure Outcome where
  files : Files
  answer : Answer
  progress : Option Progress
  recorded : List Received

def Outcome.refused (files : Files) (answer : Answer) (progress : Option Progress) : Outcome :=
  { files, answer, progress, recorded := [] }

def Connection.arrived (connection : Connection) : Bytes := connection.pieces.flatten

/-- A length that is not below the bound of its type counts as zero. -/
def parsed (bound length : Nat) : Nat := if length < bound then length else 0

/-- An entry of an archive, and how making its directory or its file ends. -/
abbrev Extraction := ZipEntry × Except String Unit

/-- How the calls of the operating system end. Of the body, the file takes as many bytes as are
`taken`: a write that goes beyond fails, or is still under way when the handler goes on after its
loop. -/
structure DashboardWorld where
  downloadsDir : Path
  timestamp : Nat
  createDir : Except String Unit
  openFile : Except String Unit
  setLen : Except String Unit
  seek : Except String Unit
  taken : Nat
  archive : Bytes → Option (List Extraction)

/-- Writes through one descriptor; to write nothing does not extend the file. -/
def patched (content : Bytes) (position : Nat) (bytes : Bytes) : Bytes :=
  if bytes = [] then content else writeAt content position bytes

def isArchive (path outPath : PathText String) : Prop :=
  outPath.accepted ∧ destination [] outPath.steps = destination [] path.steps

instance (path outPath : PathText String) : Decidable (isArchive path outPath) :=
  inferInstanceAs (Decidable (_ ∧ _))

/-- What the loop of `unzip_to` leaves of the archive. -/
def extractEntries (path outputDir : PathText String) (content : Bytes) : List Extraction → Bytes
  | [] => content
  | (entry, made) :: entries =>
    if entry.readable then
      match made with
      | .error _ => content
      | .ok () =>
        if entry.isDir then extractEntries path outputDir content entries
        else if isArchive path (join outputDir entry.name) then
          -- the file is emptied, and nothing more can be read from it
            []
        else if entry.intact then extractEntries path outputDir content entries
        else content
    else content

def tmpPath (world : DashboardWorld) (name : String) : PathText String :=
  formatPath (ofDirectory world.downloadsDir) name

def dirName (world : DashboardWorld) (name : String) : PathText String :=
  formatPath (ofDirectory world.downloadsDir) (String.ofList (trimZip name.toList.reverse).reverse)

def unzipTo (world : DashboardWorld) (name : String) (content : Bytes) : Bytes :=
  extractEntries (tmpPath world name) (dirName world name) content ((world.archive content).getD [])

/-- `split(':').nth(1)` ends the name at a colon. -/
def tmpFilename (world : DashboardWorld) (upload : Upload) : String :=
  match upload.filename with
  | some value => String.ofList (trim ((value.toList.splitOn ':').headD []))
  | none => s!"received_{world.timestamp}"

def DashboardWorld.ready (world : DashboardWorld) (written : Bytes) : Except String Unit :=
  if written.length ≤ world.taken then .ok () else .error "write failed"

/-- The progress set after the last read. -/
def receiving (name : String) (total : Nat) (received : Bytes) : Option Progress :=
  if received = [] then none
  else some
    { active := true, filename := name, bytesSent := received.length, totalBytes := total
      status := .receiving }

/-- What the opened file holds before the first write; an error of `set_len` is ignored. -/
def sized (world : DashboardWorld) (upload : Upload) (old : Option Bytes) : Bytes :=
  match upload.start, upload.totalSize, world.setLen with
  | 0, some size, .ok () => setLen size.toNat (old.getD [])
  | _, _, _ => old.getD []

def handleReceiveFile (world : DashboardWorld) (files : Files) (upload : Upload)
    (connection : Connection) : Outcome :=
  let contentLength := parsed (2 ^ 64) upload.contentLength
  if contentLength = 0 then .refused files (.failure 400) none
  else
    let offset := upload.start
    let name := tmpFilename world upload
    match world.createDir, world.openFile with
    | .ok (), .ok () =>
      let base := sized world upload (files.lookup name)
      match (if 0 < offset then world.seek else .ok ()) with
      | .error _ => .refused (files.insert name base) .dropped none
      | .ok () =>
        match readExpected 65536 connection.closed world.ready contentLength connection.pieces with
        | (received, .error _) =>
          .refused (files.insert name (patched base offset (received.take world.taken))) .dropped
            (receiving name contentLength received)
        | (received, .ok ()) =>
          let content := patched base offset (received.take world.taken)
          { files := files.insert name (if isZip name then unzipTo world name content else content)
            answer := .success name contentLength
            progress := some { active := false, filename := name, bytesSent := contentLength
                               totalBytes := contentLength, status := .completed }
            recorded := [{ id := world.timestamp, filename := name, size := contentLength }] }
    | _, _ => .refused files .dropped none

/-- The body that the HTTP library hands out, chunk by chunk: what the length announces, or an error
after what there is of it. -/
structure BodyStream where
  frames : Nat → Connection → List (Except String Bytes)
  whole : ∀ {contentLength connection}, contentLength ≤ connection.arrived.length →
    ∃ chunks : List Bytes, frames contentLength connection = chunks.map .ok ∧
      chunks.flatten = connection.arrived.take contentLength
  cut : ∀ {contentLength connection}, connection.arrived.length < contentLength →
    ∃ (chunks : List Bytes) (error : String), frames contentLength connection = chunks.map .ok ++
    [.error error] ∧
      chunks.flatten <+: connection.arrived

def BodyStream.inOneChunk : BodyStream where
  frames contentLength connection :=
    if contentLength ≤ connection.arrived.length then [.ok (connection.arrived.take contentLength)]
    else [.ok connection.arrived, .error "unexpected end of file"]
  whole {contentLength connection} enough :=
    ⟨[connection.arrived.take contentLength], if_pos enough, List.flatten_singleton⟩
  cut {_ connection} fewer :=
    ⟨[connection.arrived], "unexpected end of file",
      if_neg (Nat.not_le.mpr fewer), by rw [List.flatten_singleton]⟩

instance : Inhabited BodyStream := ⟨.inOneChunk⟩

structure AgentWorld where
  create : Except String Unit
  taken : Nat
  sync : Except String Unit

/-- What has been written, what is in the buffer, or the status of the failure. -/
def receiveChunks (taken : Nat) : List (Except String Bytes) → Bytes → Bytes →
      Except (Bytes × Nat) (Bytes × Bytes)
  | [], written, buffer => .ok (written, buffer)
  | .error _ :: _, written, _ => .error (written, 400)
  | .ok bytes :: later, written, buffer =>
    if 4 * 1024 * 1024 ≤ (buffer ++ bytes).length then
      if (written ++ (buffer ++ bytes)).length ≤ taken then receiveChunks taken later
        (written ++ (buffer ++ bytes)) []
      else .error ((written ++ (buffer ++ bytes)).take taken, 500)
    else receiveChunks taken later written (buffer ++ bytes)

def receiveFile (hyper : BodyStream) (world : AgentWorld) (files : Files) (upload : Upload)
    (connection : Connection) :
    Outcome :=
  -- the library refuses a length beyond 64 bits
  if 2 ^ 64 ≤ upload.contentLength then .refused files (.failure 400) none
  else
    let name := androidName (upload.filename.getD "received_file")
    match world.create with
    | .error _ => .refused files (.failure 500) none
    | .ok () =>
      match receiveChunks world.taken (hyper.frames upload.contentLength connection) [] [] with
      | .error (written, status) => .refused (files.insert name written) (.failure status) none
      | .ok (written, buffer) =>
        if buffer ≠ [] ∧ world.taken < (written ++ buffer).length then
          .refused (files.insert name ((written ++ buffer).take world.taken)) (.failure 500) none
        else
          match world.sync with
          | .error _ => .refused (files.insert name (written ++ buffer)) (.failure 500) none
          | .ok () =>
            { files := files.insert name (written ++ buffer),
              answer := .success name (written ++ buffer).length
              progress := none, recorded := [] }

structure NioWorld where
  subdirectories : List String
  openFile : Except String Unit
  taken : Nat

def NioWorld.outFile (world : NioWorld) (files : Files) (upload : Upload) : Option String :=
  (nioName (upload.filename.getD "received_file")).bind
    (resolveOutputFile { files, subdirectories := world.subdirectories })

/-- The branch of `handleHttpClient`. The buffered output is written out when it is closed, at the
latest. -/
def handleHttpClient (world : NioWorld) (files : Files) (upload : Upload)
    (connection : Connection) : Outcome :=
  let contentLength := parsed (2 ^ 63) upload.contentLength
  match world.outFile files upload, world.openFile with
  | some name, .ok () =>
    match readExpected 1048576 connection.closed (fun _ => .ok ()) contentLength connection.pieces with
    | (received, .error _) => .refused (files.insert name (received.take world.taken)) .dropped none
    | (received, .ok ()) =>
      if received.length ≤ world.taken then
        { files := files.insert name received, answer := .success name received.length,
          progress := none, recorded := [] }
      else .refused (files.insert name (received.take world.taken)) .dropped none
  | _, _ => .refused files .dropped none

def Upload.body (upload : Upload) (connection : Connection) : Bytes :=
  connection.arrived.take upload.contentLength

/-- A file holds these bytes from here on, and without the headers of an upload in several streams
nothing beyond them. -/
def Upload.Holds (upload : Upload) (bytes held : Bytes) : Prop :=
  if upload.offset = none ∧ upload.totalSize = none then held = bytes else bytes <+: held

structure Outcome.Declined (outcome : Outcome) : Prop where
  answer : ∀ savedTo size, outcome.answer ≠ .success savedTo size
  recorded : outcome.recorded = []
  progress : ∀ progress ∈ outcome.progress, progress.status ≠ .completed

/-- A success means that the announced bytes have been received and are in the file at the requested
offset, and an upload that is cut short is not recorded as completed. -/
structure Upload.Sound (upload : Upload) (connection : Connection) (outcome : Outcome) : Prop where
  received : ∀ savedTo size, outcome.answer = .success savedTo size →
    (upload.body connection).length = upload.contentLength
  held : ∀ savedTo size, outcome.answer = .success savedTo size →
    ∃ content, outcome.files.lookup savedTo = some content ∧
    upload.Holds (upload.body connection) (content.drop upload.start)
  cut : connection.arrived.length < upload.contentLength → outcome.Declined

/-- Everything succeeds that the dashboard waits for. -/
structure DashboardWorld.GoesThrough (world : DashboardWorld) (upload : Upload)
    (connection : Connection) : Prop where
  nonempty : 0 < upload.contentLength
  bounded : upload.contentLength < 2 ^ 64
  createDir : world.createDir = .ok ()
  openFile : world.openFile = .ok ()
  seek : 0 < upload.start → world.seek = .ok ()
  writes : ∀ index < (expectedChunks 65536 upload.contentLength connection.pieces).length,
    ((expectedChunks 65536 upload.contentLength connection.pieces).take index).flatten.length ≤
    world.taken
  closed : upload.contentLength ≤ connection.arrived.length ∨ connection.closed = .ok ()

def Extracted (extraction : Extraction) : Prop :=
  extraction.1.readable = true ∧ extraction.2 = .ok () ∧
  (extraction.1.isDir = true ∨ extraction.1.intact = true)

def Empties (path outputDir : PathText String) (extraction : Extraction) : Prop :=
  extraction.1.readable = true ∧ extraction.2 = .ok () ∧ extraction.1.isDir = false ∧
    isArchive path (join outputDir extraction.1.name)

/-- The extraction comes to an entry that is written over the archive. -/
def EmptiesItself (path outputDir : PathText String) (entries : List Extraction) : Prop :=
  ∃ before extraction later, entries = before ++ extraction :: later ∧
  (∀ earlier ∈ before, Extracted earlier) ∧
    Empties path outputDir extraction

/-- What is in the file when the handler goes on after its loop. -/
def DashboardWorld.written (world : DashboardWorld) (files : Files) (upload : Upload)
    (connection : Connection) : Bytes :=
  patched (sized world upload (files.lookup (tmpFilename world upload))) upload.start
    ((upload.body connection).take world.taken)

/-- The body is whole, what the file has not taken of it was there before, and the archive is left
alone. -/
structure DashboardWorld.Keeps (world : DashboardWorld) (files : Files) (upload : Upload)
    (connection : Connection) :
    Prop where
  whole : upload.contentLength ≤ connection.arrived.length
  rest : upload.Holds ((upload.body connection).drop world.taken)
    ((sized world upload (files.lookup (tmpFilename world upload))).drop
      (upload.start + min world.taken upload.contentLength))
  archive : isZip (tmpFilename world upload) = true →
    ¬ EmptiesItself (tmpPath world (tmpFilename world upload)) (dirName world (tmpFilename world upload))
      ((world.archive (world.written files upload connection)).getD [])

structure AgentWorld.GoesThrough (world : AgentWorld) (upload : Upload)
    (connection : Connection) : Prop where
  bounded : upload.contentLength < 2 ^ 64
  create : world.create = .ok ()
  whole : upload.contentLength ≤ connection.arrived.length
  writes : upload.contentLength ≤ world.taken
  sync : world.sync = .ok ()

structure NioWorld.GoesThrough (world : NioWorld) (files : Files) (upload : Upload)
    (connection : Connection) : Prop where
  named : (world.outFile files upload).isSome = true
  openFile : world.openFile = .ok ()
  closed : parsed (2 ^ 63) upload.contentLength ≤ connection.arrived.length ∨ connection.closed = .ok ()
  writes : (connection.arrived.take (parsed (2 ^ 63) upload.contentLength)).length ≤ world.taken

/-- The body begins the file, or there is none. -/
def Upload.FromBeginning (upload : Upload) : Prop := upload.start = 0 ∨ upload.contentLength = 0

variable {upload : Upload} {connection : Connection} {outcome : Outcome} {files : Files}
variable {content bytes held more later : Bytes} {position : Nat} {name : String}

theorem drop_patched : (patched content position bytes).drop position = bytes ++ content.drop
      (position + bytes.length) := by
  unfold patched
  split
  · next empty =>
    rw [empty]
    rfl
  · rw [writeAt, List.append_assoc, List.drop_left' length_setLen]

theorem holds_append_iff : upload.Holds (bytes ++ more) (bytes ++ later) ↔
      upload.Holds more later := by
  unfold Upload.Holds
  split
  · rw [List.append_cancel_left_eq]
  · exact List.prefix_append_right_inj bytes

theorem not_holds_nil (nonempty : bytes ≠ []) : ¬ upload.Holds bytes [] := by
  unfold Upload.Holds
  split
  · exact fun same => nonempty same.symm
  · exact fun front => nonempty (List.prefix_nil.mp front)

theorem holds_drop_iff (size : bytes.length = upload.contentLength) :
    upload.Holds bytes (bytes.drop upload.start) ↔ upload.FromBeginning := by
  unfold Upload.Holds Upload.FromBeginning
  split
  · next absent =>
    have zero : upload.start = 0 := by
      rw [Upload.start, absent.1]
      rfl
    rw [zero, List.drop_zero]
    exact iff_of_true rfl (.inl rfl)
  · constructor
    · intro front
      have fits := front.length_le
      rw [List.length_drop] at fits
      omega
    · rintro (zero | empty)
      · rw [zero, List.drop_zero]
      · rw [List.length_eq_zero_iff.mp (size.trans empty), List.drop_nil]

theorem Outcome.Declined.sound (declined : outcome.Declined) : upload.Sound connection outcome where
  received savedTo size success := absurd success (declined.answer savedTo size)
  held savedTo size success := absurd success (declined.answer savedTo size)
  cut _ := declined

theorem length_body_eq_iff : (upload.body connection).length = upload.contentLength ↔
    upload.contentLength ≤ connection.arrived.length := by
  rw [Upload.body, List.length_take]
  omega

theorem sound_success_iff (success : outcome.answer = .success savedTo size)
    (saved : outcome.files.lookup savedTo = some content) :
    upload.Sound connection outcome ↔ upload.contentLength ≤ connection.arrived.length ∧
      upload.Holds (upload.body connection) (content.drop upload.start) := by
  constructor
  · intro sound
    obtain ⟨_, found, holds⟩ := sound.held savedTo size success
    obtain rfl := Option.some.inj (saved.symm.trans found)
    exact ⟨length_body_eq_iff.mp (sound.received savedTo size success), holds⟩
  · rintro ⟨whole, holds⟩
    refine ⟨fun _ _ _ => length_body_eq_iff.mpr whole, ?_, fun cut => absurd whole (by omega)⟩
    intro _ _ again
    cases success.symm.trans again
    exact ⟨content, saved, holds⟩

variable {path outputDir : PathText String} {extraction : Extraction} {entries : List Extraction}

theorem not_emptiesItself_nil : ¬ EmptiesItself path outputDir [] := by
  rintro ⟨before, extraction, later, none, -⟩
  exact List.append_ne_nil_of_right_ne_nil before (List.cons_ne_nil extraction later) none.symm

theorem emptiesItself_cons_iff : EmptiesItself path outputDir (extraction :: entries) ↔
    Empties path outputDir extraction ∨
      (Extracted extraction ∧ EmptiesItself path outputDir entries) := by
  constructor
  · rintro ⟨before, last, later, split, extracted, empties⟩
    cases before with
    | nil =>
      obtain ⟨rfl, rfl⟩ := List.cons.inj split
      exact .inl empties
    | cons _ before =>
      obtain ⟨rfl, rfl⟩ := List.cons.inj split
      obtain ⟨here, among⟩ := List.forall_mem_cons.mp extracted
      exact .inr ⟨here, before, last, later, rfl, among, empties⟩
  · rintro (empties | ⟨here, before, last, later, rfl, among, empties⟩)
    · exact ⟨[], extraction, entries, rfl, nofun, empties⟩
    · exact ⟨extraction :: before, last, later, rfl, List.forall_mem_cons.mpr ⟨here, among⟩, empties⟩

/-- The extraction either empties the archive or leaves it alone. -/
theorem extractEntries_cases (path outputDir : PathText String) (content : Bytes)
    (entries : List Extraction) :
    (EmptiesItself path outputDir entries ∧ extractEntries path outputDir content entries = []) ∨
      (¬ EmptiesItself path outputDir entries ∧
        extractEntries path outputDir content entries = content) := by
  induction entries with
  | nil => exact .inr ⟨not_emptiesItself_nil, rfl⟩
  | cons extraction entries ih =>
    obtain ⟨entry, made⟩ := extraction
    rw [emptiesItself_cons_iff]
    by_cases readable : entry.readable = true
    · cases made with
      | error error =>
        refine .inr ⟨?_, by rw [extractEntries, if_pos readable]⟩
        rintro (⟨-, made, -⟩ | ⟨⟨-, made, -⟩, -⟩) <;> cases made
      | ok _ =>
        rw [extractEntries, if_pos readable]
        by_cases isDir : entry.isDir = true
        · have here : Extracted (entry, .ok ()) := ⟨readable, rfl, .inl isDir⟩
          have kept : ¬ Empties path outputDir (entry, .ok ()) := fun empties => by
            have other := empties.2.2.1
            rw [isDir] at other
            cases other
          rw [if_pos isDir, or_iff_right kept, and_iff_right here]
          exact ih
        · rw [if_neg isDir]
          by_cases itself : isArchive path (join outputDir entry.name)
          · rw [if_pos itself]
            exact .inl ⟨.inl ⟨readable, rfl, Bool.eq_false_iff.mpr isDir, itself⟩, rfl⟩
          · have kept : ¬ Empties path outputDir (entry, .ok ()) := fun empties => itself empties.2.2.2
            rw [if_neg itself, or_iff_right kept]
            split
            · next intact => rwa [and_iff_right
                (show Extracted (entry, .ok ()) from ⟨readable, rfl, .inr intact⟩)]
            · next damaged =>
              refine .inr ⟨?_, rfl⟩
              rintro ⟨⟨-, -, directory | intact⟩, -⟩
              · exact isDir directory
              · exact damaged intact
    · refine .inr ⟨?_, by cases made <;> rw [extractEntries, if_neg readable]⟩
      rintro (⟨opened, -⟩ | ⟨⟨opened, -⟩, -⟩) <;> exact readable opened

theorem unzipTo_cases (world : DashboardWorld) (name : String) (content : Bytes) :
    (EmptiesItself (tmpPath world name) (dirName world name) ((world.archive content).getD []) ∧
      unzipTo world name content = []) ∨
      (¬ EmptiesItself (tmpPath world name) (dirName world name) ((world.archive content).getD []) ∧
        unzipTo world name content = content) :=
  extractEntries_cases (tmpPath world name) (dirName world name) content
    ((world.archive content).getD [])

variable {world : DashboardWorld}

theorem declined_refused
    (answered : ∀ savedTo size, answer ≠ .success savedTo size)
    (unfinished : ∀ value ∈ progress, value.status = .receiving) :
    (Outcome.refused files answer progress).Declined where
  answer := answered
  recorded := rfl
  progress value member completed := by
    have set := unfinished value member
    rw [completed] at set
    cases set

theorem status_of_receiving {received : Bytes} :
    ∀ value ∈ receiving name total received, value.status = .receiving := by
  intro _ member
  unfold receiving at member
  split at member
  · cases member
  · cases Option.some.inj member
    rfl

theorem ready_eq_ok_iff (world : DashboardWorld) (written : Bytes) :
    world.ready written = .ok () ↔ written.length ≤ world.taken := by
  unfold DashboardWorld.ready
  split
  · next fits => exact iff_of_true rfl fits
  · next beyond => exact iff_of_false nofun beyond

theorem readExpected_dashboard_iff (world : DashboardWorld) (contentLength : Nat)
    (connection : Connection) :
    (readExpected 65536 connection.closed world.ready contentLength connection.pieces).2 = .ok () ↔
      (∀ index < (expectedChunks 65536 contentLength connection.pieces).length,
        ((expectedChunks 65536 contentLength connection.pieces).take index).flatten.length ≤
        world.taken) ∧
        (contentLength ≤ connection.arrived.length ∨ connection.closed = .ok ()) := by
  rw [readExpected_done_iff (by omega)]
  simp only [ready_eq_ok_iff]
  rfl

/-- The dashboard saves what it has and answers with a success exactly when nothing fails that it
waits for. -/
theorem handleReceiveFile_cases (world : DashboardWorld) (files : Files) (upload : Upload)
    (connection : Connection) :
    (world.GoesThrough upload connection ∧
      (handleReceiveFile world files upload connection).answer =
        .success (tmpFilename world upload) upload.contentLength ∧
      (handleReceiveFile world files upload connection).files = files.insert
      (tmpFilename world upload)
        (if isZip (tmpFilename world upload) then
          unzipTo world (tmpFilename world upload) (world.written files upload connection)
        else world.written files upload connection)) ∨
      (¬ world.GoesThrough upload connection ∧
        (handleReceiveFile world files upload connection).Declined) := by
  unfold handleReceiveFile
  by_cases bounded : upload.contentLength < 2 ^ 64
  · have length : parsed (2 ^ 64) upload.contentLength = upload.contentLength := if_pos bounded
    rw [length]
    by_cases empty : upload.contentLength = 0
    · rw [if_pos empty]
      exact .inr ⟨fun goes => absurd goes.nonempty (by omega), declined_refused nofun nofun⟩
    · rw [if_neg empty]
      dsimp only
      split
      · next createDir openFile =>
        split
        · next failed =>
          refine .inr ⟨fun goes => ?_, declined_refused nofun nofun⟩
          split at failed
          · next positive =>
            rw [goes.seek positive] at failed
            cases failed
          · cases failed
        · next sought =>
          have done := readExpected_dashboard_iff world upload.contentLength connection
          split
          · next read =>
            rw [read] at done
            refine .inr ⟨fun goes => ?_, declined_refused nofun status_of_receiving⟩
            cases done.mpr ⟨goes.writes, goes.closed⟩
          · next read =>
            have taken := readExpected_received (by omega) (congrArg Prod.snd read)
            rw [read] at done taken
            obtain ⟨writes, closed⟩ := done.mp rfl
            refine .inl ⟨⟨by omega, bounded, createDir, openFile, ?_, writes, closed⟩, rfl, ?_⟩
            · intro positive
              rwa [if_pos positive] at sought
            · subst taken
              rfl
      · next unopened =>
        exact .inr ⟨fun goes => unopened goes.createDir goes.openFile, declined_refused nofun nofun⟩
  · have zero : parsed (2 ^ 64) upload.contentLength = 0 := if_neg bounded
    rw [zero, if_pos rfl]
    exact .inr ⟨fun goes => bounded goes.bounded, declined_refused nofun nofun⟩

theorem holds_written_iff (world : DashboardWorld) (files : Files)
    (whole : upload.contentLength ≤ connection.arrived.length) :
    upload.Holds (upload.body connection)
      ((world.written files upload connection).drop upload.start) ↔
      upload.Holds ((upload.body connection).drop world.taken)
        ((sized world upload (files.lookup (tmpFilename world upload))).drop
          (upload.start + min world.taken upload.contentLength)) := by
  have size := length_body_eq_iff.mpr whole
  rw [DashboardWorld.written, drop_patched, List.length_take, size]
  have parts := List.take_append_drop world.taken (upload.body connection)
  exact (iff_of_eq (congrArg (upload.Holds · _) parts.symm)).trans holds_append_iff

theorem body_ne_nil (positive : 0 < upload.contentLength)
    (whole : upload.contentLength ≤ connection.arrived.length) :
    upload.body connection ≠ [] := by
  apply List.ne_nil_of_length_pos
  rw [length_body_eq_iff.mpr whole]
  exact positive

theorem sound_handleReceiveFile_iff :
    upload.Sound connection (handleReceiveFile world files upload connection) ↔
    (world.GoesThrough upload connection → world.Keeps files upload connection) := by
  rcases handleReceiveFile_cases world files upload connection with ⟨goes, answer, saved⟩
    | ⟨fails, declined⟩
  · have found := congrArg (AList.lookup (tmpFilename world upload)) saved
    rw [AList.lookup_insert] at found
    rw [sound_success_iff answer found, forall_prop_of_true goes]
    constructor
    · rintro ⟨whole, holds⟩
      by_cases zip : isZip (tmpFilename world upload) = true
      · rw [if_pos zip] at holds
        rcases unzipTo_cases world (tmpFilename world upload)
          (world.written files upload connection) with
          ⟨-, emptied⟩ | ⟨apart, kept⟩
        · rw [emptied, List.drop_nil] at holds
          exact absurd holds (not_holds_nil (body_ne_nil goes.nonempty whole))
        · rw [kept] at holds
          exact ⟨whole, (holds_written_iff world files whole).mp holds, fun _ => apart⟩
      · rw [if_neg zip] at holds
        exact ⟨whole, (holds_written_iff world files whole).mp holds, fun archive => absurd archive zip⟩
    · rintro ⟨whole, rest, archive⟩
      refine ⟨whole, ?_⟩
      have holds := (holds_written_iff world files whole).mpr rest
      by_cases zip : isZip (tmpFilename world upload) = true
      · rw [if_pos zip]
        rcases unzipTo_cases world (tmpFilename world upload)
          (world.written files upload connection) with
          ⟨itself, -⟩ | ⟨-, kept⟩
        · exact absurd itself (archive zip)
        · rwa [kept]
      · rwa [if_neg zip]
  · exact iff_of_true declined.sound fun goes => absurd goes fails

variable {hyper : BodyStream} {agent : AgentWorld} {written buffer : Bytes} {taken : Nat}

/-- A body without an error is taken, or the file cannot take it. -/
theorem receiveChunks_whole (chunks : List Bytes) (fits : written.length ≤ taken) :
    (∃ before rest, receiveChunks taken (chunks.map .ok) written buffer = .ok (before, rest) ∧
      before ++ rest = written ++ buffer ++ chunks.flatten ∧ before.length ≤ taken) ∨
      ((∃ before, receiveChunks taken (chunks.map .ok) written buffer = .error (before, 500)) ∧
        taken < (written ++ buffer ++ chunks.flatten).length) := by
  induction chunks generalizing written buffer with
  | nil =>
    refine .inl ⟨written, buffer, rfl, ?_, fits⟩
    rw [List.flatten_nil, List.append_nil]
  | cons bytes chunks ih =>
    rw [List.map_cons, receiveChunks, List.flatten_cons]
    have joined : written ++ buffer ++ (bytes ++ chunks.flatten) = written ++ (buffer ++ bytes) ++
        chunks.flatten := by
      simp only [List.append_assoc]
    rw [joined]
    split
    · split
      · next takes =>
        have later := @ih (written ++ (buffer ++ bytes)) [] takes
        rwa [List.append_nil] at later
      · next beyond =>
        refine .inr ⟨⟨_, rfl⟩, ?_⟩
        rw [List.length_append]
        omega
    · exact ih fits

theorem receiveChunks_cut (chunks : List Bytes) (error : String) (written buffer : Bytes) :
    ∃ before status, receiveChunks taken (chunks.map .ok ++ [.error error]) written buffer = .error
      (before, status) := by
  induction chunks generalizing written buffer with
  | nil => exact ⟨written, 400, rfl⟩
  | cons _ _ ih =>
    rw [List.map_cons, List.cons_append, receiveChunks]
    split
    · split
      · exact ih _ _
      · exact ⟨_, 500, rfl⟩
    · exact ih _ _

theorem length_le_of_not_beyond {before rest : Bytes} (fits : before.length ≤ taken)
    (kept : ¬ (rest ≠ [] ∧ taken < (before ++ rest).length)) : (before ++ rest).length ≤ taken := by
  by_cases empty : rest = []
  · rw [empty, List.append_nil]
    exact fits
  · exact Nat.le_of_not_lt (not_and.mp kept empty)

/-- The agent saves the body and answers with a success exactly when it is whole and nothing fails. -/
theorem receiveFile_cases (hyper : BodyStream) (agent : AgentWorld) (files : Files)
    (upload : Upload) (connection : Connection) :
    (agent.GoesThrough upload connection ∧ ∃ size,
      (receiveFile hyper agent files upload connection).answer =
        .success (androidName (upload.filename.getD "received_file")) size ∧
      (receiveFile hyper agent files upload connection).files =
        files.insert (androidName (upload.filename.getD "received_file"))
          (upload.body connection)) ∨
      (¬ agent.GoesThrough upload connection ∧
        (receiveFile hyper agent files upload connection).Declined) := by
  unfold receiveFile
  split
  · next beyond => exact .inr ⟨fun goes => absurd goes.bounded (by omega), declined_refused nofun nofun⟩
  · next bounded =>
    dsimp only
    split
    · next created =>
      refine .inr ⟨fun goes => ?_, declined_refused nofun nofun⟩
      rw [goes.create] at created
      cases created
    · next created =>
      rcases Nat.lt_or_ge connection.arrived.length upload.contentLength with cut | whole
      · obtain ⟨chunks, error, frames, -⟩ := hyper.cut cut
        obtain ⟨before, _, ended⟩ := receiveChunks_cut chunks error [] []
        rw [frames, ended]
        exact .inr ⟨fun goes => absurd goes.whole (by omega), declined_refused nofun nofun⟩
      · obtain ⟨chunks, frames, body⟩ := hyper.whole whole
        have size := length_body_eq_iff.mpr whole
        change chunks.flatten = upload.body connection at body
        rcases @receiveChunks_whole [] [] agent.taken chunks (Nat.zero_le _) with
          ⟨before, rest, ended, joined, fits⟩ | ⟨⟨before, ended⟩, beyond⟩
        · rw [frames, ended]
          rw [List.nil_append, List.nil_append, body] at joined
          simp only [joined, size]
          split
          · next beyond => exact .inr ⟨fun goes => absurd goes.writes (by omega), declined_refused nofun nofun⟩
          · next kept =>
            have writes := length_le_of_not_beyond fits (by rwa [joined, size])
            rw [joined, size] at writes
            split
            · next failed =>
              refine .inr ⟨fun goes => ?_, declined_refused nofun nofun⟩
              rw [goes.sync] at failed
              cases failed
            · next synced => exact .inl ⟨⟨by omega, created, whole, writes, synced⟩, _, rfl, rfl⟩
        · rw [frames, ended]
          refine .inr ⟨fun goes => ?_, declined_refused nofun nofun⟩
          have writes := goes.writes
          rw [List.nil_append, List.nil_append, body, size] at beyond
          omega

theorem sound_receiveFile_iff :
    upload.Sound connection (receiveFile hyper agent files upload connection) ↔
    (agent.GoesThrough upload connection → upload.FromBeginning) := by
  rcases receiveFile_cases hyper agent files upload connection with ⟨goes, _, answer, saved⟩
    | ⟨fails, declined⟩
  · have found := congrArg (AList.lookup (androidName (upload.filename.getD "received_file"))) saved
    rw [AList.lookup_insert] at found
    rw [sound_success_iff answer found, forall_prop_of_true goes, and_iff_right goes.whole]
    exact holds_drop_iff (length_body_eq_iff.mpr goes.whole)
  · exact iff_of_true declined.sound fun goes => absurd goes fails

variable {nio : NioWorld}

/-- What the handler receives. -/
def Upload.longBody (upload : Upload) (connection : Connection) : Bytes :=
  connection.arrived.take (parsed (2 ^ 63) upload.contentLength)

theorem readExpected_nio_iff (contentLength : Nat) (connection : Connection) :
    (readExpected 1048576 connection.closed (fun _ => .ok ()) contentLength connection.pieces).2 =
      .ok () ↔
      contentLength ≤ connection.arrived.length ∨ connection.closed = .ok () := by
  rw [readExpected_done_iff (by omega)]
  exact and_iff_right fun _ _ => rfl

theorem handleHttpClient_cases (nio : NioWorld) (files : Files) (upload : Upload)
    (connection : Connection) :
    (nio.GoesThrough files upload connection ∧ ∃ name size,
      (handleHttpClient nio files upload connection).answer = .success name size ∧
      (handleHttpClient nio files upload connection).files = files.insert name
      (upload.longBody connection)) ∨
      (¬ nio.GoesThrough files upload connection ∧
        (handleHttpClient nio files upload connection).Declined) := by
  unfold handleHttpClient
  dsimp only
  split
  · next name resolved opened =>
    have done := readExpected_nio_iff (parsed (2 ^ 63) upload.contentLength) connection
    split
    · next read =>
      rw [read] at done
      refine .inr ⟨fun goes => ?_, declined_refused nofun nofun⟩
      cases done.mpr goes.closed
    · next read =>
      have received := readExpected_received (by omega) (congrArg Prod.snd read)
      rw [read] at done received
      subst received
      split
      · next fits =>
        refine .inl ⟨⟨?_, opened, done.mp rfl, fits⟩, name, _, rfl, rfl⟩
        rw [resolved]
        rfl
      · next beyond => exact .inr ⟨fun goes => beyond goes.writes, declined_refused nofun nofun⟩
  · next unopened =>
    refine .inr ⟨fun goes => ?_, declined_refused nofun nofun⟩
    obtain ⟨name, resolved⟩ := Option.isSome_iff_exists.mp goes.named
    exact unopened name resolved goes.openFile

theorem sound_handleHttpClient_iff :
    upload.Sound connection (handleHttpClient nio files upload connection) ↔
    (nio.GoesThrough files upload connection →
      upload.contentLength < 2 ^ 63 ∧ upload.contentLength ≤ connection.arrived.length ∧
      upload.FromBeginning) := by
  rcases handleHttpClient_cases nio files upload connection with ⟨goes, name, _, answer, saved⟩
    | ⟨fails, declined⟩
  · have found := congrArg (AList.lookup name) saved
    rw [AList.lookup_insert] at found
    rw [sound_success_iff answer found, forall_prop_of_true goes]
    by_cases bounded : upload.contentLength < 2 ^ 63
    · have same : upload.longBody connection = upload.body connection := by
        rw [Upload.longBody, parsed, if_pos bounded]
        rfl
      rw [same, and_iff_right bounded]
      exact and_congr_right fun whole => holds_drop_iff (length_body_eq_iff.mpr whole)
    · have none : upload.longBody connection = [] := by
        rw [Upload.longBody, parsed, if_neg bounded, List.take_zero]
      rw [none, List.drop_nil]
      refine iff_of_false ?_ fun right => bounded right.1
      rintro ⟨whole, holds⟩
      exact not_holds_nil (body_ne_nil (by omega) whole) holds
  · exact iff_of_true declined.sound fun goes => absurd goes fails

/-- When each of the three receivers answers as it should. -/
theorem uploads_sound_iff (hyper : BodyStream) (world : DashboardWorld) (agent : AgentWorld)
    (nio : NioWorld) (dashboardFiles agentFiles nioFiles : Files) (upload : Upload)
    (connection : Connection) :
    (upload.Sound connection (handleReceiveFile world dashboardFiles upload connection) ↔
      (world.GoesThrough upload connection → world.Keeps dashboardFiles upload connection)) ∧
    (upload.Sound connection (receiveFile hyper agent agentFiles upload connection) ↔
      (agent.GoesThrough upload connection → upload.FromBeginning)) ∧
    (upload.Sound connection (handleHttpClient nio nioFiles upload connection) ↔
      (nio.GoesThrough nioFiles upload connection →
        upload.contentLength < 2 ^ 63 ∧ upload.contentLength ≤ connection.arrived.length ∧
        upload.FromBeginning)) :=
  ⟨sound_handleReceiveFile_iff, sound_receiveFile_iff, sound_handleHttpClient_iff⟩

/-- The file `a.bin` of three bytes, of which the sender sends one. -/
def cutUpload : Upload :=
  { filename := some "a.bin", contentLength := 3, offset := none, totalSize := none }

def cutConnection : Connection := { pieces := [[1]], closed := .ok () }

/-- Nothing fails. -/
def calm : DashboardWorld :=
  { downloadsDir := ["home", "Downloads", "PDOS"], timestamp := 0, createDir := .ok (),
    openFile := .ok (), setLen := .ok ()
    seek := .ok (), taken := 3, archive := fun _ => none }

/-- The dashboard reports success for it and records it, and so does NioTransfer without the record. -/
theorem not_sound_cut : ¬ cutUpload.Sound cutConnection
      (handleReceiveFile calm ∅ cutUpload cutConnection) ∧
    ¬ cutUpload.Sound cutConnection
      (handleHttpClient { subdirectories := [], openFile := .ok (), taken := 3 } ∅ cutUpload
        cutConnection) := by
  constructor
  · intro sound
    have declined := sound.cut (by decide)
    exact List.cons_ne_nil _ _ declined.recorded
  · intro sound
    have declined := sound.cut (by decide)
    have goes : NioWorld.GoesThrough { subdirectories := [], openFile := .ok (), taken := 3 } ∅
        cutUpload cutConnection :=
      { named := by decide +kernel
        openFile := rfl
        closed := .inr rfl
        writes := (List.length_take_le' _ _).trans (by decide) }
    rcases handleHttpClient_cases _ ∅ cutUpload cutConnection with ⟨-, name, size, answer, -⟩
      | ⟨fails, -⟩
    · exact declined.answer name size answer
    · exact fails goes

/-- The agent answers the same upload with an error. -/
example : (receiveFile .inOneChunk { create := .ok (), taken := 3, sync := .ok () } ∅ cutUpload
  cutConnection).answer =
    .failure 400 := by decide

end DistributedOs.Http.CompleteUploads
