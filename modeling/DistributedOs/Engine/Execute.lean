import DistributedOs.Engine.Profile
import DistributedOs.Http.Uploads
import DistributedOs.Nio.Headers

/-! `TransferEngine::execute`: the first source path, by the strategy of the profile. The world says
how the operations of a transfer end. The format of zip archives is that of the `zip` crate, which
may also refuse a member. -/

namespace DistributedOs.Engine

open Semantics Http
open Http.Uploads (Call Stream attempt)
open Nio (blankLine ascii)

structure Member where
  name : String
  content : Option Bytes

def memberName (path : List String) : String :=
  String.ofList (("/".intercalate path).toList.map fun c => if c = '\\' then '/' else c)

def addDirToZip (dir : List String) : Listing → Except String (List Member)
  | .nil => .ok []
  | .file name content readable rest => do
    readable
    let later ← addDirToZip dir rest
    return { name := memberName (dir ++ [name]), content := some content } :: later
  | .directory name entries readable rest => do
    readable
    let inner ← addDirToZip (dir ++ [name]) entries
    let later ← addDirToZip dir rest
    return { name := memberName (dir ++ [name]), content := none } :: (inner ++ later)

/-- A download: its operations, and the response up to where it ends or breaks off. -/
structure Fetch where
  connect : Except String Unit
  request : Except String Unit
  response : Bytes
  broken : Option String
  createDirectory : Except String Unit
  create : Except String Unit
  write : Except String Unit

structure World where
  metadata : Except String Unit
  stream : Stream
  fetch : Fetch

structure TransferSession where
  filename : String
  originalSize : Nat

/-- The requests with the source each is made of, what a download that succeeds leaves at which
path, and what the call returns, unless it never does. -/
structure Outcome where
  uploads : List (Source × UploadRequest)
  downloaded : Option (String × Bytes)
  result : Option (Except String TransferSession)

section Transfers

variable (zip : List Member → Except String Bytes)

def zipDirectory (readable : Except String Unit) (entries : Listing) : Except String Bytes := do
  readable
  let members ← addDirToZip [] entries
  zip members

def uploadTo (source : Source) (remoteFilename : Option String) (chunkSize : Nat)
    (world : World) : Call :=
  let displayName := ((remoteFilename.filter fun name => name ≠ "").or source.fileName).getD "file.bin"
  match source.node with
  | .missing =>
    .singleFile displayName [] chunkSize false (.error "No such file or directory") world.stream
  | .file content => .singleFile displayName content chunkSize false world.metadata world.stream
  | .directory readable entries =>
    .directory displayName (zipDirectory zip readable entries) world.stream

def httpUploadWithChunkSize (source : Source) (remoteFilename : Option String) (chunkSize : Nat)
    (world : World) : Outcome :=
  let outcome := (uploadTo zip source remoteFilename chunkSize world).outcome
  { uploads := outcome.requests.map fun request => (source, request.1)
    downloaded := none
    result := outcome.result.map (Except.map fun session =>
      { filename := (remoteFilename.or source.fileName).getD "file",
        originalSize := session.bytesSent }) }

def httpUpload (source : Source) (remoteFilename : Option String) (world : World) : Outcome :=
  httpUploadWithChunkSize zip source remoteFilename 1048576 world

def readResponseHeaders (broken : Option String)
    (header : Bytes) : Bytes → Except String (Bytes × Bytes)
  | [] => .error (broken.getD "Connection closed while reading headers")
  | byte :: rest =>
    if blankLine.isSuffixOf (header ++ [byte]) then .ok (header ++ [byte], rest)
    else if 65536 < (header ++ [byte]).length then .error "Response headers too large"
    else readResponseHeaders broken (header ++ [byte]) rest

def isOkStatus (header : Bytes) : Bool :=
  (ascii "HTTP/1.1 200").isPrefixOf header || (ascii "HTTP/1.0 200").isPrefixOf header

def Fetch.body (fetch : Fetch) : Except String Bytes := do
  fetch.connect
  fetch.request
  let parts ← readResponseHeaders fetch.broken [] fetch.response
  if isOkStatus parts.1 then
    fetch.createDirectory
    fetch.create
    fetch.write
    match fetch.broken with
    | some error => throw error
    | none => return parts.2
  else throw "Server returned non-200"

def httpDownloadWithChunkSize (source : Source) (outputPath : String) (world : World) : Outcome :=
  { uploads := []
    downloaded := world.fetch.body.toOption.map fun body => (outputPath, body)
    result := some (world.fetch.body.map fun body =>
      { filename := source.fileName.getD "downloaded.bin", originalSize := body.length }) }

variable (profile : TransferProfile)

def executeSingleFile (source : Source) (world : World) : Outcome :=
  match source.node with
  | .directory .. =>
    if 1 < profile.fileCount then httpUpload zip source (some (source.fileName.getD "dir")) world
    else httpUploadWithChunkSize zip source none profile.chunkSize world
  | .missing | .file _ => httpUploadWithChunkSize zip source none profile.chunkSize world

/-- `trim_end_matches('/')`. -/
def trimSlashes (base : String) : String :=
  String.ofList ((base.toList.reverse.dropWhile fun c => c = '/').reverse)

/-- The source path is that of the request too, and neither the size nor the number of streams is
used. -/
def executeParallel (source : Source) (base : String) (world : World) : Outcome :=
  httpDownloadWithChunkSize source (trimSlashes base ++ "/" ++ source.fileName.getD "file") world

def executeBatch : Outcome :=
  { uploads := [], downloaded := none,
    result := some (.ok { filename := "batch", originalSize := profile.totalBytes }) }

/-- Without a source path the index panics. -/
def execute (base : String) (sources : List Source) (world : World) : Outcome :=
  match sources with
  | [] => { uploads := [], downloaded := none, result := none }
  | source :: _ =>
    match profile.strategy with
    | .singleStream | .pipelined => executeSingleFile zip profile source world
    | .parallelRanges => executeParallel source base world
    | .batched => executeBatch profile

/-- A request carries a file alone, or as a member of the archive of its directory. -/
def Carries (source : Source) (request : UploadRequest) (file : SourceFile) : Prop :=
  match source.node with
  | .missing => False
  | .file content => file = { path := source.path, content } ∧ request.content = content
  | .directory _ entries =>
    ∃ path members, file.path = source.path ++ path ∧ (path, file.content) ∈ entries.files ∧
      { name := memberName path, content := some file.content } ∈ members ∧
        zip members = .ok request.content

def Outcome.SendsAll (outcome : Outcome) (sources : List Source) : Prop :=
  ∀ source ∈ sources, ∀ file ∈ source.files, ∃ upload ∈ outcome.uploads,
  Carries zip upload.1 upload.2 file

/-- `Ok` means that everything is sent. -/
def Outcome.Uploads (outcome : Outcome) (sources : List Source) : Prop :=
  ∀ session, outcome.result = some (.ok session) → outcome.SendsAll zip sources

def uploadCall (source : Source) (world : World) : Call :=
  match source.node with
  | .directory .. =>
    if 1 < profile.fileCount then uploadTo zip source (some (source.fileName.getD "dir")) 1048576 world
    else uploadTo zip source none profile.chunkSize world
  | .missing | .file _ => uploadTo zip source none profile.chunkSize world

/-- Every operation of a download succeeds. -/
structure Fetch.Succeeds (fetch : Fetch) : Prop where
  connect : fetch.connect = .ok ()
  request : fetch.request = .ok ()
  answered : ∃ parts, readResponseHeaders fetch.broken [] fetch.response = .ok parts ∧
    isOkStatus parts.1 = true
  createDirectory : fetch.createDirectory = .ok ()
  create : fetch.create = .ok ()
  write : fetch.write = .ok ()
  whole : fetch.broken = none

/-- An upload fails or there is no file but under the first path; a download fails or there is no
file at all; and there is none either for a batch. -/
def Feasible (sources : List Source) (world : World) : Prop :=
  match sources with
  | [] => True
  | first :: rest =>
    match profile.strategy with
    | .singleStream | .pipelined =>
      (uploadCall zip profile first world).Sends → ∀ source ∈ rest, ∀ file ∈ source.files,
      file ∈ first.files
    | .parallelRanges => world.fetch.Succeeds → ∀ source ∈ first :: rest, source.files = []
    | .batched => ∀ source ∈ first :: rest, source.files = []

end Transfers

variable {zip : List Member → Except String Bytes} {profile : TransferProfile} {source : Source}
  {world : World} {request : UploadRequest} {file : SourceFile} {sources : List Source}

/-- Every file is in the archive, under its path. -/
theorem member_of_addDirToZip
    (added : addDirToZip dir listing = .ok members) (member : (path, content) ∈ listing.files) :
    { name := memberName (dir ++ path), content := some content } ∈ members := by
  induction listing generalizing dir path members with
  | nil => cases member
  | file _ _ _ _ ih =>
    obtain ⟨_, _, added⟩ := ok_of_bind added
    obtain ⟨later, behind, done⟩ := ok_of_bind added
    cases done
    rcases List.mem_cons.mp member with this | other
    · cases this
      exact List.mem_cons_self
    · exact List.mem_cons_of_mem _ (ih behind other)
  | directory _ _ _ _ inside ih =>
    obtain ⟨_, _, added⟩ := ok_of_bind added
    obtain ⟨_, below, added⟩ := ok_of_bind added
    obtain ⟨_, behind, done⟩ := ok_of_bind added
    cases done
    apply List.mem_cons_of_mem
    rcases List.mem_append.mp member with under | other
    · obtain ⟨⟨_, _⟩, there, same⟩ := List.mem_map.mp under
      cases same
      have found := inside below there
      rw [List.append_assoc] at found
      exact List.mem_append_left _ found
    · exact List.mem_append_right _ (ih behind other)

theorem mem_of_carries (carries : Carries zip source request file) : file ∈ source.files := by
  unfold Carries at carries
  unfold Source.files
  cases node : source.node with
  | missing =>
    rw [node] at carries
    cases carries
  | file =>
    rw [node] at carries
    exact List.mem_singleton.mpr carries.1
  | directory =>
    rw [node] at carries
    obtain ⟨path, _, below, member, _⟩ := carries
    refine List.mem_map.mpr ⟨(path, file.content), member, ?_⟩
    rw [← below]

/-- When every operation of the sender succeeds, the one request carries every file. -/
theorem exchanges_of_sends {chunkSize : Nat}
    (sends : (uploadTo zip source remoteFilename chunkSize world).Sends) :
    ∃ exchange, (uploadTo zip source remoteFilename chunkSize world).exchanges = [exchange] ∧
      ∀ file ∈ source.files, Carries zip source exchange.1 file := by
  unfold uploadTo at sends ⊢
  unfold Source.files Carries
  cases node : source.node with
  | missing =>
    rw [node] at sends
    cases sends.1
  | file =>
    refine ⟨_, rfl, fun file member => ?_⟩
    cases List.mem_singleton.mp member
    exact ⟨rfl, rfl⟩
  | directory readable entries =>
    rw [node] at sends
    obtain ⟨bytes, zipped, _⟩ := sends
    have exchanges (name : String) :
      (Call.directory name (zipDirectory zip readable entries) world.stream).exchanges =
        [(Uploads.directoryRequest name bytes, world.stream.answer)] := by
      rw [zipped]
      rfl
    refine ⟨_, exchanges _, fun file member => ?_⟩
    obtain ⟨⟨path, _⟩, there, same⟩ := List.mem_map.mp member
    cases same
    obtain ⟨_, _, zipped⟩ := ok_of_bind zipped
    obtain ⟨members, added, zipped⟩ := ok_of_bind zipped
    have found := member_of_addDirToZip added there
    exact ⟨path, members, rfl, there, found, zipped⟩

theorem uploads_httpUpload {chunkSize : Nat} :
    (httpUploadWithChunkSize zip source remoteFilename chunkSize world).Uploads zip
      (source :: rest) ↔
      ((uploadTo zip source remoteFilename chunkSize world).Sends →
        ∀ other ∈ rest, ∀ file ∈ other.files, file ∈ source.files) := by
  have returns := Http.Uploads.returns_ok_iff (uploadTo zip source remoteFilename chunkSize world)
  constructor
  · intro uploads sends other member file there
    obtain ⟨session, done⟩ := returns.mpr sends
    obtain ⟨_, made, carries⟩ := uploads
        { filename := (remoteFilename.or source.fileName).getD "file",
          originalSize := session.bytesSent }
      (by rw [httpUploadWithChunkSize, done]; rfl) other (List.mem_cons_of_mem _ member) file there
    obtain ⟨_, _, rfl⟩ := List.mem_map.mp made
    exact mem_of_carries carries
  · intro all session done other member file there
    have sends : (uploadTo zip source remoteFilename chunkSize world).Sends := by
      apply returns.mp
      cases inner : (uploadTo zip source remoteFilename chunkSize world).outcome.result with
      | none =>
        rw [httpUploadWithChunkSize, inner] at done
        cases done
      | some result =>
        rw [httpUploadWithChunkSize, inner] at done
        cases result with
        | error => cases done
        | ok session => exact ⟨session, rfl⟩
    obtain ⟨exchange, one, carries⟩ := exchanges_of_sends sends
    have here : file ∈ source.files := by
      rcases List.mem_cons.mp member with this | later
      · exact this ▸ there
      · exact all sends other later file there
    refine ⟨(source, exchange.1), ?_, carries file here⟩
    rw [httpUploadWithChunkSize, Http.Uploads.requests_of_sends sends, one]
    exact List.mem_singleton_self _

theorem uploads_executeSingleFile :
    (executeSingleFile zip profile source world).Uploads zip (source :: rest) ↔
      ((uploadCall zip profile source world).Sends → ∀ other ∈ rest, ∀ file ∈ other.files,
        file ∈ source.files) := by
  unfold executeSingleFile uploadCall
  split
  · split
    · exact uploads_httpUpload
    · exact uploads_httpUpload
  · exact uploads_httpUpload
  · exact uploads_httpUpload

theorem body_ok_iff (fetch : Fetch) : (∃ body, fetch.body = .ok body) ↔ fetch.Succeeds := by
  constructor
  · rintro ⟨_, done⟩
    obtain ⟨_, connect, done⟩ := ok_of_bind done
    obtain ⟨_, request, done⟩ := ok_of_bind done
    obtain ⟨parts, read, done⟩ := ok_of_bind done
    split at done
    · rename_i status
      obtain ⟨_, createDirectory, done⟩ := ok_of_bind done
      obtain ⟨_, create, done⟩ := ok_of_bind done
      obtain ⟨_, write, done⟩ := ok_of_bind done
      split at done
      · cases done
      · rename_i whole
        exact ⟨connect, request, ⟨parts, read, status⟩, createDirectory, create, write, whole⟩
    · cases done
  · rintro ⟨connect, request, ⟨parts, read, status⟩, createDirectory, create, write, whole⟩
    rw [whole] at read
    refine ⟨parts.2, ?_⟩
    rw [Fetch.body, connect, request, whole, read, createDirectory, create, write]
    exact if_pos status

theorem sendsAll_nil_iff {outcome : Outcome} (none : outcome.uploads = []) :
    outcome.SendsAll zip sources ↔ ∀ source ∈ sources, source.files = [] := by
  constructor
  · intro all source member
    refine List.eq_nil_iff_forall_not_mem.mpr fun file there => ?_
    obtain ⟨_, made, _⟩ := all source member file there
    rw [none] at made
    cases made
  · intro empty source member _ there
    rw [empty source member] at there
    cases there

/-- Whatever the selection, the transfer sends what it says exactly where this is feasible. -/
theorem execute_uploads_iff {F : Type} [Floating F] (zip : List Member → Except String Bytes)
    (net : NetworkInfo F) (files : FileAnalysis) (sys : SystemInfo) (remote : RemoteCapabilities)
    (base : String) (sources : List Source) (world : World) :
    (execute zip (buildProfile net files sys remote) base sources world).Uploads zip sources ↔
      Feasible zip (buildProfile net files sys remote) sources world := by
  generalize buildProfile net files sys remote = profile
  unfold execute Feasible
  cases sources with
  | nil => exact iff_of_true nofun trivial
  | cons first =>
    cases strategy : profile.strategy with
    | singleStream => exact uploads_executeSingleFile
    | pipelined => exact uploads_executeSingleFile
    | parallelRanges =>
      have nothing : (executeParallel first base world).uploads = [] := rfl
      dsimp only
      rw [← body_ok_iff]
      constructor
      · rintro uploads ⟨body, done⟩
        refine (sendsAll_nil_iff nothing).mp
          (uploads { filename := first.fileName.getD "downloaded.bin", originalSize := body.length } ?_)
        rw [executeParallel, httpDownloadWithChunkSize, done]
        rfl
      · intro empty _ done
        apply (sendsAll_nil_iff nothing).mpr
        apply empty
        cases received : world.fetch.body with
        | error =>
          rw [executeParallel, httpDownloadWithChunkSize, received] at done
          cases done
        | ok body => exact ⟨body, rfl⟩
    | batched =>
      have nothing : (executeBatch profile).uploads = [] := rfl
      exact ⟨fun uploads => (sendsAll_nil_iff nothing).mp (uploads _ rfl), fun empty _ _ =>
        (sendsAll_nil_iff nothing).mpr empty⟩

def twoFiles : Source :=
  { path := ["home", "notes"], fileName := some "notes"
    node := .directory (.ok ()) (.file "a" [1] (.ok ()) (.file "b" [2] (.ok ()) .nil)) }

/-- The batch reports them as done, and they are not sent. -/
theorem not_uploads_twoFiles :
    ¬ ∀ (zip : List Member → Except String Bytes)
      (net : NetworkInfo Rat) (files : FileAnalysis) (sys : SystemInfo)
      (remote : RemoteCapabilities) (base : String) (sources : List Source) (world : World),
      (execute zip (buildProfile net files sys remote) base sources world).Uploads zip sources := by
  intro all
  have uploads := all (fun _ => .error "")
      { interfaceType := .wiFi6, rttMs := 1, availableBandwidthMbps := 1, packetLossPct := 0 }
    (analyzeFiles [twoFiles]) { diskType := .ssd }
    { supportsRange := true } "~/Downloads/PDOS" [twoFiles]
    { metadata := .ok (), stream := Http.Uploads.smooth .success
      fetch := { connect := .ok (), request := .ok (), response := [], broken := none,
                 createDirectory := .ok (), create := .ok (), write := .ok () } }
  have selected :
      analyzeFiles [twoFiles] = { count := 2, totalSize := 2, category := .manyTiny } := by decide
  rw [selected] at uploads
  obtain ⟨_, made, _⟩ := uploads _ rfl twoFiles (List.mem_singleton_self _)
      { path := ["home", "notes", "a"], content := [1] }
    (by decide)
  cases made

end DistributedOs.Engine
