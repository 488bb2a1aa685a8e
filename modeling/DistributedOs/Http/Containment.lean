import DistributedOs.Semantics.FileTree
import DistributedOs.Semantics.Utf8
import DistributedOs.Http.Receivers

/-! The files which the receivers touch for a peer: both handlers of the Android agent's server, the
dashboard's upload handler with `unzip_to`, and the tunnel's receive server. Each is the list of
what it asks the system for. What the files hold, the directories that are made without looking at
the result, and the dashboard's notification, whose text is fixed, are left out. -/

namespace DistributedOs.Http.Containment

open Semantics

abbrev Operation := FileOperation String

def pathStep (component : String) : PathStep String :=
  if component = "" ∨ component = "." then .stay else if component = ".." then .up else .down component

def pathSteps (name : List Char) : List (PathStep String) :=
  (name.splitOn '/').map fun component => pathStep (String.ofList component)

/-- The system refuses a NUL. -/
def isPathText (name : String) : Bool := !name.toList.contains (Char.ofNat 0)

/-- The configured directory, by its components from the root. -/
def ofDirectory (directory : Path) : PathText String := ⟨directory.map .down, true⟩

/-- `format!("{}/{}", base, name)`. -/
def formatPath (base : PathText String) (name : String) : PathText String :=
  ⟨base.steps ++ pathSteps name.toList, base.accepted && isPathText name⟩

/-- `Path::join`: an absolute path replaces the base. -/
def join (base : PathText String) (name : String) : PathText String :=
  if name.toList.head? = some '/' then ⟨pathSteps name.toList, isPathText name⟩ else formatPath base name

/-- `decode`, or the text itself if that is no UTF-8. -/
def decoded (text : String) : String := (fromUtf8 (percentDecode text.toList)).getD text

/-- `download_file`, for what the router has taken from the request's path. -/
def downloadFile (downloadDir : Path) (filename : String) : List Operation :=
  [.openFile (join (ofDirectory downloadDir) (decoded filename))]

/-- `receive_file`, for the value of `X-Filename` if it is a text. -/
def receiveFile (downloadDir : Path) (rawFilename : Option String) : List Operation :=
  [.createFile (join (ofDirectory downloadDir) (androidName (rawFilename.getD "received_file")))]

/-- What the zip library finds: `readable` is what `by_index` and `intact` what `io::copy` comes to. -/
structure ZipEntry where
  name : String
  isDir : Bool
  readable : Bool
  intact : Bool

def extractEntry (target : PathText String) (entry : ZipEntry) : List Operation :=
  let outPath := join target entry.name
  .carry entry.readable :: if entry.isDir then [.makeDirectory outPath]
  else [.createFile outPath, .carry entry.intact]

/-- The loop of `unzip_to`. -/
def extractEntries (outputDir : PathText String) (entries : List ZipEntry) : List Operation :=
  entries.flatMap (extractEntry outputDir)

/-- `unzip_to`; the received file need not be an archive. -/
def unzipTo (receivedPath outputDir : PathText String) (archive : Option (List ZipEntry)) :
    List Operation :=
  .openFile receivedPath :: .carry archive.isSome :: extractEntries outputDir (archive.getD [])

def isWhitespace (c : Char) : Bool :=
  let code := c.toNat
  (9 ≤ code && code ≤ 13) || code = 0x20 || code = 0x85 || code = 0xA0 || code = 0x1680 ||
    (0x2000 ≤ code && code ≤ 0x200A) || code = 0x2028 || code = 0x2029 || code = 0x202F ||
    code = 0x205F || code = 0x3000

def trim (text : List Char) : List Char :=
  ((text.dropWhile isWhitespace).reverse.dropWhile isWhitespace).reverse

/-- The text after the first colon of the `X-Filename` line, up to a second one. -/
def xFilename (headers : String) : Option String :=
  let header := "x-filename:".toList
  ((headers.toList.splitOn '\n').find? fun line =>
    (line.take header.length).map Char.toLower = header).bind fun line =>
    (line.splitOn ':')[1]?.map fun value => String.ofList (trim value)

def tmpFilename (headers : String) (timestamp : Nat) : String :=
  (xFilename headers).getD s!"received_{timestamp}"

def tmpPath (downloadsDir : Path) (headers : String) (timestamp : Nat) : PathText String :=
  formatPath (ofDirectory downloadsDir) (tmpFilename headers timestamp)

/-- `tmp_path.trim_end_matches(".zip")`. -/
def dirName (downloadsDir : Path) (headers : String) (timestamp : Nat) : PathText String :=
  formatPath (ofDirectory downloadsDir)
    (String.ofList (trimZip (tmpFilename headers timestamp).toList.reverse).reverse)

/-- `handle_receive_file`; the archive is what the file holds when it is opened again. -/
def handleReceiveFile (downloadsDir : Path) (contentLength : Nat) (headers : String)
    (timestamp : Nat) (archive : Option (List ZipEntry)) : List Operation :=
  if contentLength = 0 then []
  else
    let path := tmpPath downloadsDir headers timestamp
    -- `tmp_path` ends in ".zip" exactly when the name does
    .makeDirectory (ofDirectory downloadsDir) :: .createFile path :: .carry true ::
      if isZip (tmpFilename headers timestamp) then
        unzipTo path (dirName downloadsDir headers timestamp) archive else []

/-- A pushed file, with whether its data has arrived to the end. -/
structure PushedFrame where
  filename : String
  whole : Bool
  deriving DecidableEq

def readFrame (stream : Bytes) : Option (PushedFrame × Bytes) := do
  let (nameLen, stream) ← readBytes 4 stream
  guard (ofBe nameLen ≤ 1024)
  let (nameBuf, stream) ← readBytes (ofBe nameLen) stream
  let (sizeBuf, stream) ← readBytes 8 stream
  let fileSize := ofBe sizeBuf
  guard (fileSize ≤ 10 * 1024 * 1024 * 1024)
  some ({ filename := fromUtf8Lossy nameBuf, whole := fileSize ≤ stream.length }, stream.drop fileSize)

theorem readFrame_shorter (read : readFrame stream = some (frame, rest)) :
    rest.length < stream.length := by
  simp only [readFrame, Option.bind_eq_bind, Option.bind_eq_some_iff] at read
  obtain ⟨_, first, _, _, _, second, _, third, _, _, same⟩ := read
  obtain ⟨rfl, _⟩ := readBytes_some first
  have after := (readBytes_some second).1
  have last := (readBytes_some third).1
  cases same
  rw [after, last]
  simp only [List.length_append, List.length_drop]
  omega

/-- The frames of a connection until it ends or one is refused. -/
def readFrames (stream : Bytes) : List PushedFrame :=
  match _read : readFrame stream with
  | some (frame, rest) => frame :: readFrames rest
  | none => []
termination_by stream.length
decreasing_by exact readFrame_shorter _read

def outputPath (downloadsDir : Path) (frame : PushedFrame) : PathText String :=
  formatPath (ofDirectory downloadsDir) frame.filename

/-- The script of the macOS notification: the file name stands in a literal as it is. -/
def notification (filename : String) : String :=
  "display notification \"File received from Android: " ++ filename ++
    "\" with title \"PDOS: File Received\" sound name \"default\""

/-- A text that ends a literal it stands in: a quote that is not escaped, or an escape of what
follows it. -/
def breaksLiteral : List Char → Bool
  | [] => false
  | '"' :: _ => true
  | ['\\'] => true
  | '\\' :: _ :: rest => breaksLiteral rest
  | _ :: rest => breaksLiteral rest

/-- What `osascript` touches when it is given a script. A script whose literals are whole shows a
notification and touches no file. -/
structure ScriptRunner where
  touched : String → List Path
  quiet : ∀ filename, breaksLiteral filename.toList = false → touched (notification filename) = []

def handleReceiveFrame (osascript : ScriptRunner) (downloadsDir : Path)
    (stream : Bytes) : List Operation :=
  (readFrames stream).flatMap fun frame =>
    [.makeDirectory (ofDirectory downloadsDir), .createFile (outputPath downloadsDir frame),
      .carry frame.whole,
      .command (osascript.touched (notification frame.filename))]

/-- What a peer sends; `unzip` is `unzip_to` alone, into the directory. -/
inductive PeerRequest where
  | download (filename : String)
  | upload (rawFilename : Option String)
  | unzip (entries : List ZipEntry)
  | dashboardUpload (headers : String) (contentLength timestamp : Nat) (archive : Option (List ZipEntry))
  | tunnel (stream : Bytes)

def PeerRequest.operations (osascript : ScriptRunner)
    (directory : Path) : PeerRequest → List Operation
  | .download filename => downloadFile directory filename
  | .upload rawFilename => receiveFile directory rawFilename
  | .unzip entries => extractEntries (ofDirectory directory) entries
  | .dashboardUpload headers contentLength timestamp archive =>
    handleReceiveFile directory contentLength headers timestamp archive
  | .tunnel stream => handleReceiveFrame osascript directory stream

/-- Whatever the system does, every file read or written lies inside the directory. -/
def PeerRequest.Contained (osascript : ScriptRunner) (directory : Path)
    (request : PeerRequest) : Prop :=
  ∀ moments, ∀ file ∈ FileOperation.perform moments (request.operations osascript directory),
  directory <+: file

/-- The files of an archive, up to the first entry that is sure to fail. -/
def EntriesWithin (directory : Path) (target : PathText String) : List ZipEntry → Prop
  | [] => True
  | entry :: entries =>
    let outPath := join target entry.name
    entry.readable = true →
      if entry.isDir then outPath.accepted = true → EntriesWithin directory target entries
      else outPath.Within directory ∧
        (outPath.aim.isSome = true → entry.intact = true → EntriesWithin directory target entries)

/-- The files of a connection, up to the first frame that is sure to fail; a name that breaks the
notification's script has it touch no other files. -/
def FramesWithin (osascript : ScriptRunner) (directory : Path) : List PushedFrame → Prop
  | [] => True
  | frame :: frames =>
    (outputPath directory frame).Within directory ∧
      ((outputPath directory frame).aim.isSome = true → frame.whole = true →
        (breaksLiteral frame.filename.toList = true →
          ∀ file ∈ osascript.touched (notification frame.filename), directory <+: file) ∧
        FramesWithin osascript directory frames)

/-- The names of the request lead into the directory, with every `..` undone. -/
def PeerRequest.Within (osascript : ScriptRunner) (directory : Path) : PeerRequest → Prop
  | .download filename => (join (ofDirectory directory) (decoded filename)).Within directory
  | .upload _ => True
  | .unzip entries => EntriesWithin directory (ofDirectory directory) entries
  | .dashboardUpload headers contentLength timestamp archive =>
    contentLength = 0 ∨ ((tmpPath directory headers timestamp).Within directory ∧
      ((tmpPath directory headers timestamp).aim.isSome = true →
        isZip (tmpFilename headers timestamp) = true →
        ∀ entries ∈ archive, EntriesWithin directory (dirName directory headers timestamp) entries))
  | .tunnel stream => FramesWithin osascript directory (readFrames stream)

variable {osascript : ScriptRunner} {directory base : Path} {name : String}
  {target : PathText String} {archive : Option (List ZipEntry)}

theorem destination_join (base : Path) (name : String) :
    destination [] (join (ofDirectory base) name).steps = joinPath base name := by
  have next : ∀ place component, (pathStep component).next place = joinComponent place component := by
    intro place _
    unfold pathStep joinComponent
    split
    · rfl
    · split <;> rfl
  have steps : ∀ place, destination place (pathSteps name.toList) =
      ((name.toList.splitOn '/').map String.ofList).foldl joinComponent place := by
    intro _
    simp only [destination, pathSteps, List.foldl_map, next]
  unfold join joinPath
  split
  · exact steps []
  · rw [formatPath, destination_append, ofDirectory, destination_down, steps, List.nil_append]

theorem formatPath_within (single : '/' ∉ name.toList) :
    (formatPath (ofDirectory directory) name).Within directory := by
  intro file aimed
  obtain ⟨_, leads, _, unpassed⟩ := PathText.aim_eq_some_iff.mp aimed
  rw [formatPath, pathSteps, List.splitOn_eq_singleton single, List.map_singleton,
    String.ofList_toList] at leads unpassed
  rw [ofDirectory, destination_append, destination_down, List.nil_append] at leads
  have through : ¬ file <+: directory := by
    apply unpassed
    rw [ofDirectory, passed_append, destination_down]
    exact List.mem_append_right _ List.mem_cons_self
  rw [← leads] at through ⊢
  cases step : pathStep name with
  | stay => exact List.prefix_rfl
  | up =>
    rw [step] at through
    exact absurd (List.dropLast_prefix directory) through
  | down component => exact List.prefix_append directory [component]

theorem join_within (single : '/' ∉ name.toList) :
    (join (ofDirectory directory) name).Within directory := by
  have relative : name.toList.head? ≠ some '/' := fun first => single (List.mem_of_head? first)
  rw [join, if_neg relative]
  exact formatPath_within single

theorem androidName_single (raw : String) : '/' ∉ (androidName raw).toList := by
  rw [androidName, String.toList_ofList]
  intro member
  obtain ⟨c, _, flat⟩ := List.mem_map.mp member
  unfold flattenChar at flat
  split at flat
  · cases flat
  · rename_i other
    exact other (.inl flat)

theorem confined_extractEntries (entries : List ZipEntry) :
    FileOperation.Confined directory (extractEntries target entries) ↔
      EntriesWithin directory target entries := by
  induction entries with
  | nil => exact iff_of_true FileOperation.confined_nil trivial
  | cons _ _ ih =>
    rw [extractEntries, List.flatMap_cons, ← extractEntries, extractEntry, EntriesWithin,
      List.cons_append,
      FileOperation.confined_carry]
    split
    · rw [List.singleton_append, FileOperation.confined_makeDirectory, ih]
    · rw [List.cons_append, List.singleton_append, FileOperation.confined_createFile,
        FileOperation.confined_carry, ih]

theorem touched_within_iff : (∀ file ∈ osascript.touched (notification name), directory <+: file) ↔
    (breaksLiteral name.toList = true → ∀ file ∈ osascript.touched (notification name),
      directory <+: file) := by
  refine ⟨fun within _ => within, fun within => ?_⟩
  cases breaks : breaksLiteral name.toList with
  | true => exact within breaks
  | false => simp [osascript.quiet name breaks]

theorem confined_frames (frames : List PushedFrame) :
    FileOperation.Confined directory (frames.flatMap fun frame =>
      [.makeDirectory (ofDirectory directory), .createFile (outputPath directory frame),
        .carry frame.whole,
        .command (osascript.touched (notification frame.filename))]) ↔
    FramesWithin osascript directory frames := by
  induction frames with
  | nil => exact iff_of_true FileOperation.confined_nil trivial
  | cons _ _ ih =>
    rw [List.flatMap_cons, FramesWithin, List.cons_append, FileOperation.confined_makeDirectory,
      List.cons_append,
      FileOperation.confined_createFile, List.cons_append, FileOperation.confined_carry,
      List.singleton_append,
      FileOperation.confined_command, ih, ← touched_within_iff]
    exact ⟨fun confined => confined rfl, fun confined _ => confined⟩

theorem confined_unzipTo (within : path.Within directory) :
    FileOperation.Confined directory (unzipTo path target archive) ↔
      (path.aim.isSome = true → ∀ entries ∈ archive, EntriesWithin directory target entries) := by
  rw [unzipTo, FileOperation.confined_openFile, FileOperation.confined_carry, confined_extractEntries]
  cases archive with
  | none => simp [within]
  | some => simp [within]

theorem confined_handleReceiveFile :
    FileOperation.Confined directory
      (handleReceiveFile directory contentLength headers timestamp archive) ↔
      (PeerRequest.dashboardUpload headers contentLength timestamp archive).Within
      osascript directory := by
  rw [handleReceiveFile, PeerRequest.Within]
  split
  · rename_i empty
    exact iff_of_true FileOperation.confined_nil (.inl empty)
  · rename_i full
    rw [FileOperation.confined_makeDirectory, FileOperation.confined_createFile,
      FileOperation.confined_carry,
      or_iff_right full]
    refine (forall_prop_of_true rfl).trans (and_congr_right fun within => forall_congr' fun named => ?_)
    rw [forall_prop_of_true rfl]
    split
    · rename_i zip
      rw [confined_unzipTo within, forall_prop_of_true named, forall_prop_of_true zip]
    · rename_i other
      exact iff_of_true FileOperation.confined_nil fun zip => absurd zip other

theorem confined_downloadFile :
    FileOperation.Confined directory (downloadFile directory filename) ↔
      (join (ofDirectory directory) (decoded filename)).Within directory := by
  rw [downloadFile, FileOperation.confined_openFile]
  exact and_iff_left fun _ => FileOperation.confined_nil

theorem confined_receiveFile (rawFilename : Option String) :
    FileOperation.Confined directory (receiveFile directory rawFilename) := by
  rw [receiveFile, FileOperation.confined_createFile]
  exact ⟨join_within (androidName_single _), fun _ => FileOperation.confined_nil⟩

/-- A request is contained exactly when its names lead into the directory. -/
theorem contained_iff (osascript : ScriptRunner) (directory : Path) (request : PeerRequest) :
    request.Contained osascript directory ↔ request.Within osascript directory := by
  rw [PeerRequest.Contained, FileOperation.perform_inside_iff]
  cases request with
  | download =>
    rw [PeerRequest.operations, PeerRequest.Within]
    exact confined_downloadFile
  | upload rawFilename =>
    rw [PeerRequest.operations, PeerRequest.Within]
    exact iff_of_true (confined_receiveFile rawFilename) trivial
  | unzip entries =>
    rw [PeerRequest.operations, PeerRequest.Within]
    exact confined_extractEntries entries
  | dashboardUpload =>
    rw [PeerRequest.operations]
    exact confined_handleReceiveFile
  | tunnel stream =>
    rw [PeerRequest.operations, PeerRequest.Within]
    exact confined_frames (readFrames stream)

/-- A file name that ends the literal, runs a command in the home directory and opens another
literal. -/
def commandName : String := "\" & (do shell script \"cd;touch owned\") & \""

theorem notification_inj (same : notification filename = notification other) : filename = other :=
  String.append_right_inj _ |>.mp (String.append_left_inj _ |>.mp same)

/-- A runner that runs this one command, which makes a file. -/
def shellRunner : ScriptRunner where
  touched script := if script = notification commandName then [["home", "owned"]] else []
  quiet filename whole := by
    refine if_neg fun same => ?_
    rw [notification_inj same] at whole
    revert whole
    decide

/-- A push of a file of two bytes under a plain name. -/
def plainFrame : Bytes :=
  [0, 0, 0, 5] ++ Reliable.utf8 "notes" ++ [0, 0, 0, 0, 0, 0, 0, 2] ++ [7, 8]

theorem contained_plain :
    (PeerRequest.tunnel plainFrame).Contained shellRunner ["home", "Downloads", "PDOS"] := by
  rw [contained_iff, PeerRequest.Within, readFrames]
  have read : readFrame plainFrame = some (⟨"notes", true⟩, []) := by decide +kernel
  have ended : readFrame [] = none := by decide
  rw [read]
  refine ⟨formatPath_within (by decide), fun _ _ => ⟨fun breaks => ?_, ?_⟩⟩
  · revert breaks
    decide
  · rw [readFrames, ended]
    trivial

def commandFrame : Bytes := [0, 0, 0, 42] ++ Reliable.utf8 commandName ++ [0, 0, 0, 0, 0, 0, 0, 0]

/-- The dashboard writes a file of that name beside its download directory, and the tunnel's
notification runs the command in a file name. -/
theorem parent_uncontained :
    ¬ (PeerRequest.dashboardUpload "X-Filename: ../notes\r\n" 5 0 none).Contained shellRunner
      ["home", "Downloads", "PDOS"] ∧
      ¬ (PeerRequest.tunnel commandFrame).Contained shellRunner ["home", "Downloads", "PDOS"] := by
  constructor
  · intro contained
    have outside := contained
      [⟨default, true⟩, ⟨FileTree.holding ["home", "Downloads", "notes"] (by decide), true⟩]
      ["home", "Downloads", "notes"] (by decide)
    exact absurd outside (by decide)
  · rw [contained_iff, PeerRequest.Within, readFrames]
    have read : readFrame commandFrame = some (⟨commandName, true⟩, []) := by decide +kernel
    rw [read]
    intro within
    have owned : shellRunner.touched (notification commandName) = [["home", "owned"]] := by
      dsimp only [shellRunner]
      rw [if_pos rfl]
    have outside := (within.2 (by decide +kernel) rfl).1 (by decide) ["home", "owned"]
      (by rw [owned]; exact List.mem_singleton_self _)
    exact absurd outside (by decide)

end DistributedOs.Http.Containment
