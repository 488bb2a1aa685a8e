import DistributedOs.Http.ReceiveFile
import Mathlib.Data.List.AList

/-! The three receivers of `/api/receive-file` as functions on their download directories:
the dashboard, the Android agent's server and the handler in `NioTransfer`. Each returns the
directory it leaves and the name it has saved the file under, or nothing unless it succeeds. -/

namespace DistributedOs.Http

open Semantics Reliable

abbrev Files := AList fun _ : String => Bytes

/-- What lies in a directory: its files, and the names of its subdirectories. -/
structure Folder where
  files : Files
  subdirectories : List String

namespace Folder

def contains (folder : Folder) (name : String) : Bool :=
  (folder.files.lookup name).isSome || folder.subdirectories.contains name

/-- `File::create` and what is written then: no file can be made where a subdirectory lies. -/
def put (folder : Folder) (name : String) (content : Bytes) : Option Folder :=
  if folder.subdirectories.contains name then none
  else some { folder with files := folder.files.insert name content }

end Folder

def isFileName (name : String) : Bool :=
  name ≠ "" && name ≠ "." && name ≠ ".." && !name.toList.contains (Char.ofNat 0) &&
  (utf8 name).length ≤ 255

def fileAt (downloads path : Path) : Option String :=
  match path.getLast? with
  | some name => if path.dropLast = downloads then some name else none
  | none => none

/-- An entry as `unzip_to` takes it from an archive. `made` is whether `create_dir_all` and
`File::create` succeed for it (a regular file of the stem's name is in the way of all of them),
`content` is what is copied then, and `intact` whether the copying ended well. -/
structure Extraction where
  name : String
  made : Bool
  content : Bytes
  intact : Bool

/-- The file of the directory that an entry of the archive `name` is written to. -/
def Extraction.target (downloads : Path) (name : String) (entry : Extraction) : Option String :=
  if isDirEntry entry.name then none
  else fileAt downloads (joinPath (extractionDir downloads name) entry.name)

/-- The body of `unzip_to`'s loop, and whether the loop goes on. -/
def extractEntry (downloads : Path) (name : String) (files : Files)
    (entry : Extraction) : Files × Bool :=
  if !entry.made then (files, false)
  else
    match entry.target downloads name with
    | none => (files, isDirEntry entry.name || entry.intact)
    | some target =>
      -- An archive that is written over is empty, and nothing more can be read from it.
      if target = name then (files.insert name [], false)
      else (files.insert target entry.content, entry.intact)

def extractEntries (downloads : Path) (name : String) (files : Files) : List Extraction → Files
  | [] => files
  | entry :: entries =>
    match extractEntry downloads name files entry with
    | (files, true) => extractEntries downloads name files entries
    | (files, false) => files

/-- The subdirectories that are made are left out: no request of the upload opens one. -/
def unzipTo (unpacked : Bytes → List Extraction) (downloads : Path) (name : String)
    (files : Files) : Files :=
  extractEntries downloads name files (unpacked ((files.lookup name).getD []))

/-- What the file holds once the body is written into what was there. -/
def overwritten (old : Bytes) (request : UploadRequest) : Bytes :=
  match request.start, request.totalSize with
  | 0, some size => writeAt (setLen size old) 0 request.content
  | start, _ => writeAt old start request.content

/-- `handle_receive_file`: the name is the header as it stands. -/
def dashboardReceive (unpacked : UploadRequest → Bytes → List Extraction) (downloads : Path)
    (folder : Folder) (request : UploadRequest) : Option (Folder × String) :=
  let name := request.filename
  if request.content.isEmpty || !isFileName name then none
  else
    (folder.put name (overwritten ((folder.files.lookup name).getD []) request)).map fun written =>
      if isZip name then ({ written with files := unzipTo (unpacked request) downloads name written.files }, name)
      else (written, name)

def hexValue (digit : Char) : Option UInt8 :=
  if '0' ≤ digit ∧ digit ≤ '9' then some (UInt8.ofNat (digit.toNat - 48))
  else if 'A' ≤ digit ∧ digit ≤ 'F' then some (UInt8.ofNat (digit.toNat - 55))
  else if 'a' ≤ digit ∧ digit ≤ 'f' then some (UInt8.ofNat (digit.toNat - 87))
  else none

def fromUtf8 (bytes : Bytes) : Option String := String.fromUTF8? ⟨bytes.toArray⟩

/-- `urlencoding::decode_binary`: a `%` without two digits stands for itself. -/
def percentDecode : List Char → Bytes
  | [] => []
  | c :: rest =>
    if c = '%' then
      match rest with
      | high :: low :: later =>
        match hexValue high, hexValue low with
        | some first, some second => (first * 16 + second) :: percentDecode later
        | _, _ => 37 :: percentDecode (high :: low :: later)
      | short => 37 :: percentDecode short
    else String.utf8EncodeChar c ++ percentDecode rest

/-- `str::replace("../", "")`, or with the other separator. -/
def removeParents (separator : Char) : List Char → List Char
  | '.' :: '.' :: third :: rest =>
    if third = separator then removeParents separator rest
    else '.' :: removeParents separator ('.' :: third :: rest)
  | other :: rest => other :: removeParents separator rest
  | [] => []

def flattenChar (c : Char) : Char := if c = '/' ∨ c = '\\' then '_' else c

def androidName (raw : String) : String :=
  let filename := (fromUtf8 (percentDecode raw.toList)).getD raw
  String.ofList ((removeParents '\\' (removeParents '/' filename.toList)).map flattenChar)

/-- `receive_file`: the file is created anew, and the offset is not read. -/
def androidReceive (folder : Folder) (request : UploadRequest) : Option (Folder × String) :=
  let name := androidName request.filename
  if isFileName name then (folder.put name request.content).map fun written => (written, name) else none

/-- `URLDecoder.decode`, which also reads `+` as a space and throws on a bad escape. -/
def urlDecode : List Char → Option Bytes
  | [] => some []
  | c :: rest =>
    if c = '%' then
      match rest with
      | high :: low :: later =>
        match hexValue high, hexValue low with
        | some first, some second => (urlDecode later).map fun bytes => (first * 16 + second) :: bytes
        | _, _ => none
      | _ => none
    else if c = '+' then (urlDecode rest).map fun bytes => 32 :: bytes
    else (urlDecode rest).map fun bytes => String.utf8EncodeChar c ++ bytes

/-- The first UTF-16 units of a text; half of a pair becomes a question mark in a file name. -/
def takeUnits : Nat → List Char → List Char
  | _, [] => []
  | 0, _ => []
  | units + 1, c :: rest =>
    if c.val < 0x10000 then c :: takeUnits units rest
    else
      match units with
      | 0 => ['?']
      | units + 1 => c :: takeUnits units rest

/-- Where the last dot of a name stands, if it does not begin with it. -/
def lastDot (name : List Char) : Option Nat :=
  let after := name.reverse.idxOf '.'
  if after + 1 < name.length then some (name.length - 1 - after) else none

def candidate (name : List Char) (counter : Nat) : List Char :=
  let numbered := '_' :: Nat.toDigits 10 counter
  match lastDot name with
  | some dot => name.take dot ++ numbered ++ name.drop dot
  | none => name ++ numbered

/-- The loop of `resolveOutputFile`: one more candidate than there are names in the directory is
free. -/
def firstFree (folder : Folder) (name : List Char) : Nat → Nat → Option String
  | 0, _ => none
  | tries + 1, counter =>
    let next := String.ofList (candidate name counter)
    if folder.contains next then firstFree folder name tries (counter + 1) else some next

def resolveOutputFile (folder : Folder) (name : String) : Option String :=
  if folder.contains name then
    firstFree folder name.toList (folder.files.entries.length + folder.subdirectories.length + 1) 1
  else some name

def nioName (raw : String) : Option String :=
  (urlDecode raw.toList).bind fun bytes =>
    (fromUtf8 bytes).map fun decoded => String.ofList (takeUnits 255 (decoded.toList.map flattenChar))

/-- The handler of `NioTransfer`: another name when a file or a directory has this one, and no
offset either. The names that stand for directories are no file names for the other receivers. -/
def nioReceive (folder : Folder) (request : UploadRequest) : Option (Folder × String) :=
  (nioName request.filename).bind fun base =>
    (resolveOutputFile folder base).bind fun name =>
      if isFileName base && isFileName name then
        (folder.put name request.content).map fun written => (written, name)
      else none

end DistributedOs.Http
