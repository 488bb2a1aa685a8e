import DistributedOs.Protocol.Message
import DistributedOs.Semantics.Base64

/-! File tasks: what the command line makes of a file to be written, and what an agent makes of
that. Base64 and gzip, and the files of the agent's platform, are parameters. -/

namespace DistributedOs.Tasks

open DistributedOs.Protocol Semantics

inductive TaskError where
  | queueFull
  | cancelled
  | executionFailed (message : String)
  | dependencyUnavailable (message : String)
  | invalidRequest (message : String)
  deriving DecidableEq

def TaskError.toText : TaskError → String
  | .queueFull => "task queue is full"
  | .cancelled => "task cancelled"
  | .executionFailed message => "task execution failed: " ++ message
  | .dependencyUnavailable message => "dependency unavailable: " ++ message
  | .invalidRequest message => "invalid request: " ++ message

/-- The standard alphabet of base64, and gzip. Of a gzip failure only that it is one is used. -/
structure Codecs where
  encode64 : Bytes → String
  decode64 : String → Except String Bytes
  gzip : Bytes → Bytes
  gunzip : Bytes → Option Bytes

structure Codecs.Lossless (codecs : Codecs) : Prop where
  base64 : ∀ data, codecs.decode64 (codecs.encode64 data) = .ok data
  gzip : ∀ data, codecs.gunzip (codecs.gzip data) = some data

universe u

/-- The files of a platform, over whatever keeps them. -/
structure FileProvider (Disk : Type u) where
  read : Disk → String → Except String Bytes
  write : Disk → String → Bytes → Except String Unit × Disk

def FileProvider.Stores {Disk : Type u} (provider : FileProvider Disk) (path : String) : Prop :=
  ∀ disk data after, provider.write disk path data = (.ok (), after) →
  provider.read after path = .ok data

variable {Disk : Type u}

def isTrue (field : Option Json) : Bool := (field.bind Json.asBool).getD false

/-- `FileTask::execute`. -/
def executeFile (codecs : Codecs) (provider : FileProvider Disk) (payload : Json) (disk : Disk) :
    Except TaskError Json × Disk :=
  match (payload.get "op").bind Json.asStr with
  | none => (.error (.invalidRequest "Missing 'op' field"), disk)
  | some op =>
    match (payload.get "path").bind Json.asStr with
    | none => (.error (.invalidRequest "Missing 'path' field"), disk)
    | some path =>
      if op = "read" then
        match provider.read disk path with
        | .ok data =>
          (.ok (.object [("success", .bool true), ("content", .string (codecs.encode64 data))]), disk)
        | .error error => (.error (.executionFailed ("Read failed: " ++ error)), disk)
      else if op = "write" then
        match (payload.get "content").bind Json.asStr with
        | none => (.error (.invalidRequest "Missing 'content' field for write"), disk)
        | some content =>
          match codecs.decode64 content with
          | .error error => (.error (.invalidRequest ("Invalid base64 content: " ++ error)), disk)
          | .ok data =>
            -- what does not decompress is written as it is
            let data := if isTrue (payload.get "compressed") then (codecs.gunzip data).getD data
              else data
            match provider.write disk path data with
            | (.ok (), after) => (.ok (.object [("success", .bool true)]), after)
            | (.error error, after) => (.error (.executionFailed ("Write failed: " ++ error)), after)
      else (.error (.invalidRequest ("Unknown op: " ++ op)), disk)

/-- `Path::extension` of a file name. -/
def extension (filename : String) : Option String :=
  match filename.toList.reverse.dropWhile (· ≠ '.') with
  | [] => none
  | _ :: before =>
    if before = [] ∨ filename = ".." then none
    else some (String.ofList (filename.toList.reverse.takeWhile (· ≠ '.')).reverse)

def compressedExtensions : List String :=
  ["mp4", "mp3", "zip", "gz", "bz2", "xz", "jpg", "jpeg", "png", "gif", "webp", "webm", "mkv",
    "avi", "mov", "flac",
    "ogg", "m4a", "pdf", "docx", "xlsx", "pptx"]

def shouldCompress (filename : String) : Bool :=
  !compressedExtensions.contains ((extension filename).getD "")

def clientPayload (op path : String) (content : Option String) (compressed : Bool) : Json :=
  .object
    ([("op", .string op), ("path", .string path)] ++
      (content.map fun text => ("content", Json.string text)).toList ++
      if compressed then [("compressed", .bool true)] else [])

/-- What `run_file_write_raw` sends of a file, compressed or not. -/
def writePayload (codecs : Codecs) (path : String) (data : Bytes) (compress : Bool) : Json :=
  clientPayload "write" path
    (some (codecs.encode64 (if compress then codecs.gzip data else data))) compress

/-- It compresses by the name of the local file. -/
def runFileWrite (codecs : Codecs) (filename path : String) (data : Bytes) : Json :=
  writePayload codecs path data (shouldCompress filename)

/-- The path and the content of a payload that asks for a write, and whether it says compressed. -/
def writeArguments (payload : Json) : Option (String × String × Bool) :=
  match (payload.get "op").bind Json.asStr, (payload.get "path").bind Json.asStr,
    (payload.get "content").bind Json.asStr with
  | some "write", some path, some content => some (path, content, isTrue (payload.get "compressed"))
  | _, _, _ => none

/-- The content of a write says that it is compressed, and it is not. -/
def FalselyDeclared (codecs : Codecs) (payload : Json) (path : String) (data : Bytes) : Prop :=
  ∃ content, writeArguments payload = some (path, content, true) ∧ codecs.decode64 content = .ok data ∧
    codecs.gunzip data = none

/-- The content of a write is not base64, or it is falsely declared. -/
def DecodingFails (codecs : Codecs) (payload : Json) : Prop :=
  (∃ path content compressed error, writeArguments payload = some (path, content, compressed) ∧
    codecs.decode64 content = .error error) ∨
  ∃ path data, FalselyDeclared codecs payload path data

/-- A payload from the command line that is executed with success leaves the file with its data;
one that cannot be decoded fails and leaves everything as it was. -/
structure Intact (codecs : Codecs) (provider : FileProvider Disk) (payload : Json)
    (disk : Disk) : Prop where
  delivered : ∀ path data compress, payload = writePayload codecs path data compress →
    provider.Stores path →
    ∀ output after, executeFile codecs provider payload disk = (.ok output, after) →
    provider.read after path = .ok data
  clean : DecodingFails codecs payload →
    ∃ error, executeFile codecs provider payload disk = (.error error, disk)

variable {codecs : Codecs} {provider : FileProvider Disk} {payload : Json} {disk : Disk}
  {path content : String} {data : Bytes} {compressed : Bool}

theorem executeFile_write (asked : writeArguments payload = some (path, content, compressed)) :
    executeFile codecs provider payload disk =
      match codecs.decode64 content with
      | .error error => (.error (.invalidRequest ("Invalid base64 content: " ++ error)), disk)
      | .ok data =>
        match provider.write disk path (if compressed then (codecs.gunzip data).getD data else data) with
        | (.ok (), after) => (.ok (.object [("success", .bool true)]), after)
        | (.error error, after) => (.error (.executionFailed ("Write failed: " ++ error)), after) := by
  unfold writeArguments at asked
  split at asked
  · rename_i hasOp hasPath hasContent
    cases asked
    unfold executeFile
    simp only [hasOp, hasPath, hasContent]
    rfl
  · cases asked

theorem writeArguments_writePayload (path : String) (data : Bytes) (compress : Bool) :
    writeArguments (writePayload codecs path data compress) =
      some (path, codecs.encode64 (if compress then codecs.gzip data else data), compress) := by
  cases compress <;> rfl

theorem executeFile_writePayload (lossless : codecs.Lossless) (path : String) (data : Bytes)
    (compress : Bool) :
    executeFile codecs provider (writePayload codecs path data compress) disk =
      match provider.write disk path data with
      | (.ok (), after) => (.ok (.object [("success", .bool true)]), after)
      | (.error error, after) => (.error (.executionFailed ("Write failed: " ++ error)), after) := by
  rw [executeFile_write (writeArguments_writePayload path data compress), lossless.base64]
  cases compress with
  | true => simp only [if_true, lossless.gzip, Option.getD_some]
  | false => rfl

theorem delivered_of_lossless (lossless : codecs.Lossless) (stores : provider.Stores path)
    (done : executeFile codecs provider (writePayload codecs path data compress) disk =
      (.ok output, after)) :
    provider.read after path = .ok data := by
  rw [executeFile_writePayload lossless] at done
  split at done
  · rename_i wrote
    cases done
    exact stores _ _ _ wrote
  · cases done

theorem clean_of_base64 (asked : writeArguments payload = some (path, content, compressed))
    (failed : codecs.decode64 content = .error error) :
    executeFile codecs provider payload disk =
      (.error (.invalidRequest ("Invalid base64 content: " ++ error)), disk) := by
  rw [executeFile_write asked, failed]

theorem executeFile_falselyDeclared (falsely : FalselyDeclared codecs payload path data) :
    executeFile codecs provider payload disk =
      match provider.write disk path data with
      | (.ok (), after) => (.ok (.object [("success", .bool true)]), after)
      | (.error error, after) => (.error (.executionFailed ("Write failed: " ++ error)), after) := by
  obtain ⟨_, asked, decoded, failed⟩ := falsely
  rw [executeFile_write asked, decoded]
  simp only [if_true, failed, Option.getD_none]

/-- A write is intact or fails cleanly exactly when a falsely declared content is refused by the
platform, which leaves everything as it was. -/
theorem intact_iff (lossless : codecs.Lossless) :
    Intact codecs provider payload disk ↔
      ∀ path data, FalselyDeclared codecs payload path data →
      ∃ error, provider.write disk path data = (.error error, disk) := by
  constructor
  · intro intact path data falsely
    obtain ⟨error, done⟩ := intact.clean (.inr ⟨path, data, falsely⟩)
    rw [executeFile_falselyDeclared falsely] at done
    split at done
    · cases done
    · rename_i reason _ wrote
      cases done
      exact ⟨reason, wrote⟩
  · intro refused
    refine ⟨?_, ?_⟩
    · rintro path data _ rfl stores _ _ done
      exact delivered_of_lossless lossless stores done
    · rintro (⟨path, _, _, error, asked, failed⟩ | ⟨path, data, falsely⟩)
      · exact ⟨_, clean_of_base64 asked failed⟩
      · obtain ⟨error, wrote⟩ := refused path data falsely
        refine ⟨.executionFailed ("Write failed: " ++ error), ?_⟩
        rw [executeFile_falselyDeclared falsely, wrote]

def sampleCodecs : Codecs where
  encode64 := fun data => String.ofList (Base64.encode data)
  decode64 := fun text => (Base64.decode text.toList).elim (.error "Invalid padding") .ok
  gzip := fun data => 0x1f :: 0x8b :: data
  gunzip := fun
    | 0x1f :: 0x8b :: data => some data
    | _ => none

theorem sampleCodecs_lossless : sampleCodecs.Lossless where
  base64 := by
    intro _
    simp [sampleCodecs, Base64.decode_encode]
  gzip := fun _ => rfl

/-- Files in memory. -/
def sampleProvider : FileProvider (String → Option Bytes) where
  read := fun disk path =>
    (disk path).elim (.error "Failed to read file: No such file or directory (os error 2)") .ok
  write := fun disk path data => (.ok (), fun other => if other = path then some data else disk other)

/-- A file whose name ends in `.zip` is sent as it is, and arrives. -/
theorem intact_of_zip :
    Intact sampleCodecs sampleProvider (runFileWrite sampleCodecs "a.zip" "b.zip" [77, 97, 110])
      (fun _ => none) := by
  refine (intact_iff sampleCodecs_lossless).mpr ?_
  rintro _ _ ⟨_, asked, _⟩
  have plain : shouldCompress "a.zip" = false := by decide
  rw [runFileWrite, plain, writeArguments_writePayload] at asked
  cases asked

/-- The content `Man`, said to be gzip, is written with success. -/
theorem falsely_declared_written :
    ¬ Intact sampleCodecs sampleProvider (clientPayload "write" "b" (some "TWFu") true)
      (fun _ => none) := by
  intro intact
  have falsely : FalselyDeclared sampleCodecs (clientPayload "write" "b" (some "TWFu") true) "b"
      [77, 97, 110] :=
    ⟨"TWFu", rfl, by decide, rfl⟩
  obtain ⟨_, done⟩ := intact.clean (.inr ⟨_, _, falsely⟩)
  rw [executeFile_falselyDeclared falsely] at done
  cases done

end DistributedOs.Tasks
