import DistributedOs.Cli.OneShotServer
import DistributedOs.Semantics.Inodes
import DistributedOs.Semantics.TaskPool

/-! Files on their way from the browser to a device: `handle_stream_upload` takes each into a
temporary file, and the server that it starts for one download sends that file. Uploads of one name
share the file. A write is handed to a thread of the file, which the handler does not wait for at
its end. -/

namespace DistributedOs.Cli.StreamUploads

open Semantics

inductive Stage where
  | creating
  | receiving
  | received
  | signalling
  | answered
  deriving DecidableEq

/-- The one-shot server; `ended` says whether it sent the file to its end. -/
inductive Server where
  | none
  | listening
  | accepted
  | streaming (file : Nat)
  | ended (complete : Bool)
  deriving DecidableEq

/-- `position` is where the thread writes next, and `inFlight` what it has not written yet, or has
failed to write. -/
structure Intake where
  filename : String
  contentLength : Nat
  file : Option Nat
  position : Nat
  inFlight : Bytes
  received : Bytes

/-- `start` is that of the range the device asks for. -/
structure Upload extends Intake where
  stage : Stage
  announced : Option Nat
  server : Server
  start : UInt64
  sent : Bytes

structure Request where
  filename : String
  contentLength : Nat

inductive Choice where
  | refuse
  | create
  | receive (bytes : Bytes)
  | write (count : Nat)
  | breakOff
  | close
  | fail
  | listen
  | signal (delivered : Bool)
  | accept (start : UInt64)
  | giveUp
  | openFile
  | send (count : Nat)
  | stop
  | finish

def Upload.new (request : Request) : Upload where
  filename := request.filename
  contentLength := request.contentLength
  file := none
  position := 0
  inFlight := []
  received := []
  stage := .creating
  announced := none
  server := .none
  start := 0
  sent := []

/-- What the path of the temporary file ends in. -/
def Intake.safeTmpName (intake : Intake) : String :=
  String.ofList (intake.filename.toList.map fun c => if c = '/' then '_' else c)

/-- The turns that write no file, and whether they remove the temporary one. -/
def Upload.settle (files : Inodes String) (upload : Upload) : Choice → Option (Upload × Bool)
  | .refuse =>
    -- no node id, no content, or the file cannot be created
    if upload.stage = .creating then some ({ upload with stage := .answered }, false) else none
  | .breakOff =>
    -- a read or an earlier write has failed, and the file stays
    if upload.stage = .receiving then some ({ upload with stage := .answered }, false) else none
  | .close =>
    if upload.stage = .receiving then some ({ upload with stage := .received }, false) else none
  | .fail =>
    -- the node id is no UUID, there is no address, or no port
    if upload.stage = .received then some ({ upload with stage := .answered }, true) else none
  | .listen =>
    if upload.stage = .received then
      some ({ upload with
        stage := .signalling, server := .listening, announced := some upload.received.length }, false)
    else none
  | .signal delivered =>
    if upload.stage = .signalling then some ({ upload with stage := .answered }, !delivered) else none
  | .accept start =>
    if upload.server = .listening then
      some ({ upload with server := .accepted, start, sent := [] }, false) else none
  | .giveUp =>
    -- nobody has come in ten minutes, or the handshake has failed
    if upload.server = .listening ∨ upload.server = .accepted then
      some ({ upload with server := .ended false }, true) else none
  | .openFile =>
    if upload.server = .accepted then
      match files.links upload.safeTmpName with
      -- a start beyond the end makes a debug build panic, and such a server takes no turn any more
      | some file => some ({ upload with server := .streaming file }, false)
      | none => some ({ upload with server := .ended false }, true)
    else none
  | .send count =>
    match upload.server with
    | .streaming file =>
      let bytes := ((files.contents file).drop (seekTo upload.start + upload.sent.length)).take count
      if bytes ≠ [] ∧ count ≤ 1048576 then
        some ({ upload with sent := upload.sent ++ bytes }, false) else none
    | _ => none
  | .stop =>
    match upload.server with
    | .streaming _ => some ({ upload with server := .ended false }, true)
    | _ => none
  | .finish =>
    match upload.server with
    | .streaming file =>
      if (files.contents file).length ≤ seekTo upload.start + upload.sent.length then
        some ({ upload with server := .ended true }, true)
      else none
    | _ => none
  | _ => none

def Upload.turn (files : Inodes String) (upload : Upload) : Choice → Option (Inodes String × Upload)
  | .create =>
    if upload.stage = .creating ∧ 0 < upload.contentLength then
      let (file, files) := files.create upload.safeTmpName
      some (files, { upload with stage := .receiving, file := some file })
    else none
  | .receive bytes =>
    if upload.stage = .receiving ∧ upload.inFlight = [] ∧ bytes ≠ [] ∧ bytes.length ≤ 65536 ∧
        upload.received.length + bytes.length ≤ upload.contentLength then
      some (files, { upload with inFlight := bytes, received := upload.received ++ bytes })
    else none
  | .write count =>
    match upload.file with
    | some file =>
      if 0 < count ∧ count ≤ upload.inFlight.length then
        some (files.write file upload.position (upload.inFlight.take count),
          { upload with position := upload.position + count, inFlight := upload.inFlight.drop count })
      else none
    | none => none
  | choice =>
    (upload.settle files choice).map fun (upload, removes) =>
    (if removes then files.unlink upload.safeTmpName else files, upload)

def uploading : Behaviour (Inodes String) Upload Empty Request Choice where
  start := .new
  turn files _ upload choice :=
    (upload.turn files choice).map fun (files, upload) =>
    { shared := files, task := upload, spawned := [], effects := [] }

def idle (files : Inodes String) : Pool (Inodes String) Upload Empty :=
  { shared := files, tasks := [], trace := [] }

def Server.running : Server → Bool
  | .listening | .accepted | .streaming _ => true
  | _ => false

/-- The temporary file is in use, or its thread still writes. -/
def Upload.busy (upload : Upload) : Bool :=
  upload.file.isSome &&
  (decide (upload.stage ≠ .answered) || upload.server.running || decide (upload.inFlight ≠ []))

/-- A temporary file is created only while no other upload uses one of that name, and sent only when
all is written. -/
def undisturbed (pool : Pool (Inodes String) Upload Empty) : PoolLabel Request Choice → Bool
  | .run index .create =>
    pool.tasks.zipIdx.all fun entry => entry.2 = index || !entry.1.busy ||
      pool.tasks[index]?.all fun upload => entry.1.safeTmpName ≠ upload.safeTmpName
  | .run index .openFile => pool.tasks[index]?.all fun upload => upload.inFlight = []
  | _ => true

/-- The device is told how much has come from the browser, and sent that from where it asked to
start. -/
structure Upload.Delivered (upload : Upload) : Prop where
  within : upload.received.length ≤ upload.contentLength
  announced : ∀ size, upload.announced = some size → size = upload.received.length
  sent : upload.sent <+: upload.received.drop (seekTo upload.start)
  whole : upload.server = .ended true → upload.sent = upload.received.drop (seekTo upload.start)

variable {files after : Inodes String} {intake : Intake} {upload next other : Upload}
  {pool later : Pool (Inodes String) Upload Empty} {index file : Nat}

structure Sane (upload : Upload) : Prop where
  within : upload.received.length ≤ upload.contentLength
  fresh : upload.stage = .creating → upload.received = [] ∧ upload.inFlight = [] ∧
    upload.position = 0 ∧ upload.file = none
  opened : upload.stage ≠ .creating → upload.stage ≠ .answered ∨ upload.server ≠ .none →
    upload.file.isSome = true
  served : upload.server ≠ .none → upload.stage = .signalling ∨ upload.stage = .answered
  announced : ∀ size, upload.announced = some size → size = upload.received.length ∧
    upload.server ≠ .none
  streaming : ∀ file, upload.server = .streaming file → upload.file = some file ∧ upload.inFlight = []
  sent : upload.sent <+: upload.received.drop (seekTo upload.start)
  whole : upload.server = .ended true → upload.sent = upload.received.drop (seekTo upload.start)

theorem Sane.new (request : Request) : Sane (.new request) where
  within := Nat.zero_le _
  fresh := fun _ => ⟨rfl, rfl, rfl, rfl⟩
  opened := fun other _ => absurd rfl other
  served := fun served => absurd rfl served
  announced := fun size announced => by cases announced
  streaming := fun file streaming => by cases streaming
  sent := List.nil_prefix
  whole := fun ended => by cases ended

theorem Sane.serves (sane : Sane upload) : upload.Delivered :=
  ⟨sane.within, fun size announced => (sane.announced size announced).1, sane.sent, sane.whole⟩

theorem Sane.unserved (sane : Sane upload) (early : upload.stage ≠ .signalling)
    (unanswered : upload.stage ≠ .answered) :
    upload.server = .none := by
  by_contra served
  rcases sane.served served with signalling | answered
  · exact early signalling
  · exact unanswered answered

theorem Sane.own (sane : Sane upload) (served : upload.server ≠ .none) :
    upload.file.isSome = true := by
  refine sane.opened (fun creating => ?_) (.inr served)
  rcases sane.served served with stage | stage <;> cases creating.symm.trans stage

theorem Sane.proceed (sane : Sane upload) (left : stage ≠ .creating)
    (own : stage ≠ .answered → upload.file.isSome = true)
    (late : upload.server ≠ .none → stage = .answered) :
    Sane { upload with stage } := by
  refine { sane with
    fresh := fun creating => absurd creating left, opened := fun _ active => ?_
    served := fun served => .inr (late served) }
  rcases active with unanswered | served
  · exact own unanswered
  · exact sane.own served

theorem Sane.answer (sane : Sane upload) : Sane { upload with stage := .answered } :=
  sane.proceed (by decide) (absurd rfl) fun _ => rfl

theorem Sane.listen (sane : Sane upload) (received : upload.stage = .received) :
    Sane { upload with stage := .signalling, server := .listening, announced := some upload.received.length } := by
  refine { sane with
    fresh := fun creating => ?_
    opened := fun _ _ => sane.opened (by simp [received]) (.inl (by simp [received]))
    served := fun _ => .inl rfl
    announced := fun size announced => ⟨(Option.some.inj announced).symm, by simp⟩
    streaming := fun file streaming => ?_
    whole := fun ended => ?_ }
  · cases creating
  · cases streaming
  · cases ended

theorem Sane.serve (sane : Sane upload) (served : upload.server ≠ .none) {sent : Bytes}
    (started : server ≠ .none)
    (streaming : ∀ file, server = .streaming file → upload.file = some file ∧ upload.inFlight = [])
    (within : sent <+: upload.received.drop (seekTo start))
    (whole : server = .ended true → sent = upload.received.drop (seekTo start)) :
    Sane { upload with server, start, sent } where
  within := sane.within
  fresh := sane.fresh
  opened := fun _ _ => sane.own served
  served := fun _ => sane.served served
  announced := fun size announced => ⟨(sane.announced size announced).1, started⟩
  streaming := streaming
  sent := within
  whole := whole

theorem Sane.abandon (sane : Sane upload) (served : upload.server ≠ .none) :
    Sane { upload with server := .ended false } :=
  sane.serve served (by simp) (by simp) sane.sent (by simp)

/-- What of an upload has been written is in its file, which only the name of the upload stands for. -/
structure Holds (files : Inodes String) (intake : Intake) (file : Nat) : Prop where
  old : file < files.next
  linked : ∀ name, files.links name = some file → name = intake.safeTmpName
  own : ∀ other, files.links intake.safeTmpName = some other → other = file
  content : files.contents file ++ intake.inFlight = intake.received
  position : (files.contents file).length = intake.position

theorem Holds.unlink (holds : Holds files intake file)
    (name : String) : Holds (files.unlink name) intake file where
  old := holds.old
  linked := fun other linked => holds.linked other (Inodes.links_of_unlink linked).2
  own := fun other linked => holds.own other (Inodes.links_of_unlink linked).2
  content := holds.content
  position := holds.position

theorem Holds.write_other (holds : Holds files intake file) (different : file ≠ another)
    (position : Nat) (bytes : Bytes) :
    Holds (files.write another position bytes) intake file where
  old := holds.old
  linked := holds.linked
  own := holds.own
  content := by
    rw [Inodes.write_other different]
    exact holds.content
  position := by
    rw [Inodes.write_other different]
    exact holds.position

theorem Holds.create_other (holds : Holds files intake file)
    (different : intake.safeTmpName ≠ name) :
    Holds (files.create name).2 intake file := by
  have another : (files.create name).1 ≠ file :=
    Inodes.Sound.create_ne (fun other linked => holds.linked other linked ▸ different) holds.old
  have content : (files.create name).2.contents file = files.contents file := by
    rw [Inodes.create_contents, Function.update_of_ne another.symm]
  refine ⟨Nat.lt_of_lt_of_le holds.old (files.next_le_create name), ?_, ?_, ?_, ?_⟩
  · intro other linked
    rw [Inodes.create_links, Function.update_apply] at linked
    split at linked
    · exact absurd (Option.some.inj linked) another
    · exact holds.linked other linked
  · intro other linked
    rw [Inodes.create_links, Function.update_of_ne different] at linked
    exact holds.own other linked
  · rw [content]
    exact holds.content
  · rw [content]
    exact holds.position

theorem Holds.create (sound : files.Sound)
    (empty : intake.received = [] ∧ intake.inFlight = [] ∧ intake.position = 0) :
    Holds (files.create intake.safeTmpName).2 intake (files.create intake.safeTmpName).1 := by
  have links := files.create_links intake.safeTmpName
  have content : (files.create intake.safeTmpName).2.contents
      (files.create intake.safeTmpName).1 = [] := by
    rw [Inodes.create_contents, Function.update_self]
  have named : (files.create intake.safeTmpName).2.links intake.safeTmpName =
      some (files.create intake.safeTmpName).1 := by
    rw [links, Function.update_self]
  refine ⟨sound.create_lt _, ?_, ?_, ?_, ?_⟩
  · intro _ linked
    exact (sound.create intake.safeTmpName).single linked named
  · intro _ linked
    exact Option.some.inj (linked.symm.trans named)
  · rw [content, empty.1, empty.2.1]
    rfl
  · rw [content, empty.2.2]
    rfl

theorem Holds.write (holds : Holds files intake file) (enough : count ≤ intake.inFlight.length) :
    Holds (files.write file intake.position (intake.inFlight.take count))
      { intake with position := intake.position + count, inFlight := intake.inFlight.drop count }
      file := by
  have content := Inodes.write_end holds.position (intake.inFlight.take count)
  refine ⟨holds.old, holds.linked, holds.own, ?_, ?_⟩
  · rw [content, List.append_assoc, List.take_append_drop]
    exact holds.content
  · rw [content, List.length_append, holds.position, List.length_take_of_le enough]

structure Kept (pool : Pool (Inodes String) Upload Empty) : Prop where
  sound : pool.shared.Sound
  sane : ∀ upload ∈ pool.tasks, Sane upload
  holds : ∀ {index : Nat} {upload : Upload} {file : Nat}, pool.tasks[index]? = some upload →
    upload.busy = true → upload.file = some file →
    Holds pool.shared upload.toIntake file
  apart : ∀ {first second : Nat} {one two : Upload} {file : Nat}, pool.tasks[first]? = some one →
    pool.tasks[second]? = some two →
    one.busy = true → two.busy = true → one.file = some file → two.file = some file → first = second
  named : ∀ {first second : Nat} {one two : Upload}, pool.tasks[first]? = some one →
    pool.tasks[second]? = some two →
    one.busy = true → two.busy = true → one.safeTmpName = two.safeTmpName → first = second

theorem Kept.idle (sound : files.Sound) : Kept (idle files) where
  sound := sound
  sane := fun upload member => absurd member List.not_mem_nil
  holds := fun found => absurd found (by simp [StreamUploads.idle])
  apart := fun found => absurd found (by simp [StreamUploads.idle])
  named := fun found => absurd found (by simp [StreamUploads.idle])

/-- No other upload that is busy has the name or the file of this one. -/
def Alone (pool : Pool (Inodes String) Upload Empty) (index : Nat) (upload : Upload) : Prop :=
  ∀ (place : Nat) (other : Upload), pool.tasks[place]? = some other → place ≠ index → other.busy = true →
    other.safeTmpName ≠ upload.safeTmpName ∧ ∀ file, upload.file = some file → other.file ≠ some file

theorem Kept.alone (kept : Kept pool) (present : pool.tasks[index]? = some upload)
    (busy : upload.busy = true) :
    Alone pool index upload := by
  intro _ _ found different active
  exact ⟨fun same => different (kept.named found present active busy same),
    fun file own its => different (kept.apart found present active busy its own)⟩

/-- One upload has moved on, and what the others hold they hold still. -/
theorem Kept.moved (kept : Kept pool) (present : pool.tasks[index]? = some upload)
    (sane : Sane next) (sound : after.Sound) (alone : next.busy = true → Alone pool index next)
    (own : next.busy = true → ∀ file, next.file = some file → Holds after next.toIntake file)
    (others : ∀ (place : Nat) (other : Upload) (file : Nat), pool.tasks[place]? = some other →
      place ≠ index → other.busy = true →
      other.file = some file → Holds after other.toIntake file) (trace : List Empty) :
    Kept { shared := after, tasks := pool.tasks.set index next ++ [], trace } := by
  have locate {place : Nat} {other : Upload}
    (found : (pool.tasks.set index next ++ [])[place]? = some other) :
      (place = index ∧ other = next) ∨ (place ≠ index ∧ pool.tasks[place]? = some other) := by
    rw [List.append_nil] at found
    exact Pool.getElem?_set_cases found
  refine { sound, sane := ?_, holds := ?_, apart := ?_, named := ?_ }
  · intro other member
    obtain ⟨place, found⟩ := List.getElem?_of_mem member
    rcases locate found with ⟨_, rfl⟩ | ⟨_, old⟩
    · exact sane
    · exact kept.sane other (List.mem_of_getElem? old)
  · intro place other file found busy its
    rcases locate found with ⟨_, rfl⟩ | ⟨different, old⟩
    · exact own busy file its
    · exact others place other file old different busy its
  · intro first second one two file foundFirst foundSecond busyFirst busySecond its same
    rcases locate foundFirst with ⟨rfl, rfl⟩ | ⟨different, old⟩ <;>
      rcases locate foundSecond with ⟨rfl, rfl⟩ | ⟨apart, former⟩
    · rfl
    · exact absurd same ((alone busyFirst second two former apart busySecond).2 file its)
    · exact absurd its ((alone busySecond first one old different busyFirst).2 file same)
    · exact kept.apart old former busyFirst busySecond its same
  · intro first second one two foundFirst foundSecond busyFirst busySecond same
    rcases locate foundFirst with ⟨rfl, rfl⟩ | ⟨different, old⟩ <;>
      rcases locate foundSecond with ⟨rfl, rfl⟩ | ⟨apart, former⟩
    · rfl
    · exact absurd same.symm (alone busyFirst second two former apart busySecond).1
    · exact absurd same (alone busySecond first one old different busyFirst).1
    · exact kept.named old former busyFirst busySecond same

/-- Nothing is written, and at most the name of the upload is taken away. -/
theorem Kept.quiet (kept : Kept pool) (present : pool.tasks[index]? = some upload)
    (sane : Sane next) (active : upload.stage ≠ .answered ∨ upload.server.running = true)
    (same : next.toIntake = upload.toIntake) (removes : Bool) (trace : List Empty) :
    Kept { shared := if removes then pool.shared.unlink next.safeTmpName else pool.shared
           tasks := pool.tasks.set index next ++ []
           trace } := by
  have file : next.file = upload.file := congrArg Intake.file same
  have busy (now : next.busy = true) : upload.busy = true := by
    rw [Upload.busy, Bool.and_eq_true, file] at now
    rw [Upload.busy, Bool.and_eq_true, Bool.or_eq_true, Bool.or_eq_true, decide_eq_true_iff]
    exact ⟨now.1, .inl active⟩
  have stays {intake : Intake} {its : Nat} (holds : Holds pool.shared intake its) :
      Holds (if removes then pool.shared.unlink next.safeTmpName else pool.shared) intake its := by
    split
    · exact holds.unlink _
    · exact holds
  refine kept.moved present sane ?_ (fun now => ?_) (fun now its own => ?_)
    (fun place other its found _ active own => ?_) trace
  · split
    · exact kept.sound.unlink _
    · exact kept.sound
  · unfold Alone
    rw [same]
    exact kept.alone present (busy now)
  · rw [file] at own
    have holds : Holds pool.shared next.toIntake its := same ▸ kept.holds present (busy now) own
    exact stays holds
  · exact stays (kept.holds found active own)

/-- A creation under a name that no other busy upload has. -/
theorem Kept.create (kept : Kept pool) (present : pool.tasks[index]? = some upload)
    (creating : upload.stage = .creating)
    (free : ∀ (place : Nat) (other : Upload), pool.tasks[place]? = some other → place ≠ index →
      other.busy = true →
      other.safeTmpName ≠ upload.safeTmpName) (trace : List Empty) :
    Kept { shared := (pool.shared.create upload.safeTmpName).2
           tasks := pool.tasks.set index
             { upload with stage := .receiving, file := some (pool.shared.create upload.safeTmpName).1 } ++ []
           trace } := by
  have sane := kept.sane upload (List.mem_of_getElem? present)
  have fresh := sane.fresh creating
  have unserved := sane.unserved (by simp [creating]) (by simp [creating])
  refine kept.moved present ?_ (kept.sound.create _) ?_ ?_ ?_ trace
  · refine { sane with
      fresh := fun creating => ?_
      opened := fun _ _ => rfl
      served := fun served => absurd unserved served
      streaming := fun file streaming => ?_ }
    · cases creating
    · rw [unserved] at streaming
      cases streaming
  · intro _ place other found different busy
    refine ⟨free place other found different busy, fun file own its => ?_⟩
    cases own
    have holds := kept.holds found busy its
    exact Inodes.Sound.create_ne
      (fun name linked => holds.linked name linked ▸ free place other found different busy) holds.old rfl
  · intro _ file own
    cases own
    have holds := @Holds.create pool.shared upload.toIntake kept.sound ⟨fresh.1, fresh.2.1, fresh.2.2.1⟩
    exact ⟨holds.old, holds.linked, holds.own, holds.content, holds.position⟩
  · intro place other _ found different busy own
    exact (kept.holds found busy own).create_other (free place other found different busy)

/-- The handler has read more, which goes to the thread. -/
theorem Kept.receive (kept : Kept pool) (present : pool.tasks[index]? = some upload)
    (receiving : upload.stage = .receiving) (idle : upload.inFlight = [])
    (within : upload.received.length + bytes.length ≤ upload.contentLength) (trace : List Empty) :
    Kept { shared := pool.shared
           tasks := pool.tasks.set index
             { upload with inFlight := bytes, received := upload.received ++ bytes } ++ []
           trace } := by
  have sane := kept.sane upload (List.mem_of_getElem? present)
  have opened := sane.opened (by simp [receiving]) (.inl (by simp [receiving]))
  have unserved := sane.unserved (by simp [receiving]) (by simp [receiving])
  have busy : upload.busy = true := by simp [Upload.busy, opened, receiving]
  have alone := kept.alone present busy
  refine kept.moved present ?_ kept.sound (fun _ => ?_) (fun _ file own => ?_)
    (fun place other file found _ active own => kept.holds found active own) trace
  · refine { sane with
      within := ?_
      fresh := fun creating => ?_
      announced := fun size announced => absurd unserved (sane.announced size announced).2
      streaming := fun file streaming => ?_
      sent := ?_
      whole := fun ended => ?_ }
    · rw [List.length_append]
      exact within
    · cases creating.symm.trans receiving
    · rw [unserved] at streaming
      cases streaming
    · exact sane.sent.trans ((List.prefix_append _ _).drop _)
    · rw [unserved] at ended
      cases ended
  · exact alone
  · have holds := kept.holds present busy own
    have content := holds.content
    rw [idle, List.append_nil] at content
    exact { holds with content := congrArg (· ++ bytes) content }

/-- The thread has written more. -/
theorem Kept.write (kept : Kept pool) (present : pool.tasks[index]? = some upload)
    (own : upload.file = some file) (positive : 0 < count) (enough : count ≤ upload.inFlight.length)
    (trace : List Empty) :
    Kept { shared := pool.shared.write file upload.position (upload.inFlight.take count)
           tasks := pool.tasks.set index
             { upload with position := upload.position + count, inFlight := upload.inFlight.drop count } ++ []
           trace } := by
  have sane := kept.sane upload (List.mem_of_getElem? present)
  have busy : upload.busy = true := by
    have pending : upload.inFlight ≠ [] := List.length_pos_iff.mp (Nat.lt_of_lt_of_le positive enough)
    simp [Upload.busy, own, pending]
  have alone := kept.alone present busy
  refine kept.moved present ?_ (kept.sound.write _ _ _) (fun _ => ?_) (fun _ its same => ?_)
    (fun place other its found different active same => ?_) trace
  · refine { sane with
      fresh := fun creating => ?_
      streaming := fun its streaming => ?_ }
    · cases own.symm.trans (sane.fresh creating).2.2.2
    · have ⟨same, empty⟩ := sane.streaming its streaming
      exact ⟨same, by rw [empty, List.drop_nil]⟩
  · exact alone
  · cases own.symm.trans same
    exact (kept.holds present busy own).write enough
  · refine (kept.holds found active same).write_other ?_ _ _
    rintro rfl
    exact (alone place other found different active).2 its own same

theorem prefix_send (count : Nat) {received sent : Bytes} (sent_ : sent <+: received.drop start) :
    sent ++ (received.drop (start + sent.length)).take count <+: received.drop start := by
  obtain ⟨rest, whole⟩ := sent_
  have later : received.drop (start + sent.length) = rest := by
    rw [← List.drop_drop, ← whole, List.drop_left]
  rw [later, ← whole]
  exact (List.prefix_append_right_inj _).mpr (List.take_prefix _ _)

theorem sent_all {received sent : Bytes} (sent_ : sent <+: received.drop start)
    (ended : received.length ≤ start + sent.length) :
    sent = received.drop start := by
  refine sent_.eq_of_length_le ?_
  rw [List.length_drop]
  omega

theorem free_of_undisturbed (permitted : undisturbed pool (.run index .create) = true)
    (present : pool.tasks[index]? = some upload) :
    ∀ (place : Nat) (other : Upload), pool.tasks[place]? = some other → place ≠ index →
      other.busy = true →
      other.safeTmpName ≠ upload.safeTmpName := by
  intro place other found different busy
  have member : (other, place) ∈ pool.tasks.zipIdx := List.mk_mem_zipIdx_iff_getElem?.mpr found
  have entry := List.all_eq_true.mp permitted (other, place) member
  simpa [different, busy, present] using entry

theorem Kept.streamed (kept : Kept pool) (present : pool.tasks[index]? = some upload)
    (streaming : upload.server = .streaming file) :
    pool.shared.contents file = upload.received := by
  have ⟨own, idle⟩ := (kept.sane upload (List.mem_of_getElem? present)).streaming file streaming
  have busy : upload.busy = true := by simp [Upload.busy, own, streaming, Server.running]
  have content := (kept.holds present busy own).content
  rwa [idle, List.append_nil] at content

theorem Kept.found (kept : Kept pool) (present : pool.tasks[index]? = some upload)
    (accepted : upload.server = .accepted)
    (permitted : undisturbed pool (.run index .openFile) = true)
    (linked : pool.shared.links upload.safeTmpName = some file) :
    upload.file = some file ∧ upload.inFlight = [] := by
  have served : upload.server ≠ .none := by simp [accepted]
  obtain ⟨_, opened⟩ := Option.isSome_iff_exists.mp
    ((kept.sane upload (List.mem_of_getElem? present)).own served)
  have busy : upload.busy = true := by simp [Upload.busy, opened, accepted, Server.running]
  cases (kept.holds present busy opened).own file linked
  exact ⟨opened, by simpa [undisturbed, present] using permitted⟩

/-- What an upload is after a turn that writes no file. -/
theorem Kept.settle (kept : Kept pool) (present : pool.tasks[index]? = some upload)
    (permitted : undisturbed pool (.run index choice) = true)
    (settled : upload.settle pool.shared choice = some (next, removes)) :
    Sane next ∧ (upload.stage ≠ .answered ∨ upload.server.running = true) ∧
      next.toIntake = upload.toIntake := by
  have sane := kept.sane upload (List.mem_of_getElem? present)
  unfold Upload.settle at settled
  cases choice with
  | create | receive | write => cases settled
  | refuse | breakOff | fail | signal =>
    simp only [Option.ite_none_right_eq_some] at settled
    obtain ⟨stage, settled⟩ := settled
    cases settled
    exact ⟨sane.answer, .inl (by simp [stage]), rfl⟩
  | close =>
    simp only [Option.ite_none_right_eq_some] at settled
    obtain ⟨stage, settled⟩ := settled
    cases settled
    have opened := sane.opened (by simp [stage]) (.inl (by simp [stage]))
    have unserved := sane.unserved (by simp [stage]) (by simp [stage])
    exact ⟨sane.proceed (by decide) (fun _ => opened) fun served => absurd unserved served,
      .inl (by simp [stage]), rfl⟩
  | listen =>
    simp only [Option.ite_none_right_eq_some] at settled
    obtain ⟨stage, settled⟩ := settled
    cases settled
    exact ⟨sane.listen stage, .inl (by simp [stage]), rfl⟩
  | accept =>
    simp only [Option.ite_none_right_eq_some] at settled
    obtain ⟨server, settled⟩ := settled
    cases settled
    exact ⟨sane.serve (by simp [server]) (by simp) (by simp) List.nil_prefix (by simp),
      .inr (by rw [server]; rfl), rfl⟩
  | giveUp =>
    simp only [Option.ite_none_right_eq_some] at settled
    obtain ⟨server, settled⟩ := settled
    cases settled
    rcases server with server | server <;>
      exact ⟨sane.abandon (by simp [server]), .inr (by rw [server]; rfl), rfl⟩
  | openFile =>
    simp only [Option.ite_none_right_eq_some] at settled
    obtain ⟨server, settled⟩ := settled
    have served : upload.server ≠ .none := by simp [server]
    split at settled
    · rename_i file linked
      cases settled
      have own := kept.found present server permitted linked
      refine ⟨sane.serve served (by simp) (fun other streaming => ?_) sane.sent (by simp),
        .inr (by rw [server]; rfl), rfl⟩
      cases streaming
      exact own
    · cases settled
      exact ⟨sane.abandon served, .inr (by rw [server]; rfl), rfl⟩
  | send count =>
    simp only at settled
    split at settled
    · rename_i file server
      rw [kept.streamed present server, Option.ite_none_right_eq_some] at settled
      obtain ⟨_, settled⟩ := settled
      cases settled
      have next := sane.serve (by simp [server]) (by simp [server]) sane.streaming
        (prefix_send count sane.sent) (by simp [server])
      exact ⟨next, .inr (by rw [server]; rfl), rfl⟩
    · cases settled
  | stop =>
    simp only at settled
    split at settled
    · rename_i file server
      cases settled
      exact ⟨sane.abandon (by simp [server]), .inr (by rw [server]; rfl), rfl⟩
    · cases settled
  | finish =>
    simp only at settled
    split at settled
    · rename_i server
      rw [kept.streamed present server, Option.ite_none_right_eq_some] at settled
      obtain ⟨ended, settled⟩ := settled
      cases settled
      have next : Sane { upload with server := .ended true } :=
        sane.serve (by simp [server]) (by simp) (by simp) sane.sent fun _ => sent_all sane.sent ended
      exact ⟨next, .inr (by rw [server]; rfl), rfl⟩
    · cases settled

theorem Kept.turn (kept : Kept pool) (present : pool.tasks[index]? = some upload)
    (permitted : undisturbed pool (.run index choice) = true)
    (turned : upload.turn pool.shared choice = some (after, next)) (trace : List Empty) :
    Kept { shared := after, tasks := pool.tasks.set index next ++ [], trace } := by
  unfold Upload.turn at turned
  split at turned
  · obtain ⟨ready, moved⟩ := Option.ite_none_right_eq_some.mp turned
    cases moved
    exact kept.create present ready.1 (free_of_undisturbed permitted present) trace
  · obtain ⟨ready, moved⟩ := Option.ite_none_right_eq_some.mp turned
    cases moved
    exact kept.receive present ready.1 ready.2.1 ready.2.2.2.2 trace
  · split at turned
    · rename_i own
      obtain ⟨ready, moved⟩ := Option.ite_none_right_eq_some.mp turned
      cases moved
      exact kept.write present own ready.1 ready.2 trace
    · cases turned
  · obtain ⟨⟨_, removes⟩, settled, moved⟩ := Option.map_eq_some_iff.mp turned
    cases moved
    have ⟨sane, active, same⟩ := kept.settle present permitted settled
    exact kept.quiet present sane active same removes trace

theorem Kept.step (kept : Kept pool) (permitted : undisturbed pool label = true)
    (taken : Pool.step uploading pool label = some later) : Kept later := by
  rcases Pool.step_cases taken with ⟨request, rfl, rfl⟩ | ⟨_, _, upload, _, rfl, present, turned, rfl⟩
  · have unopened {place : Nat} {other : Upload}
      (found : (pool.tasks ++ [Upload.new request])[place]? = some other)
        (busy : other.busy = true) : pool.tasks[place]? = some other := by
      rcases Pool.getElem?_called found with old | ⟨_, rfl⟩
      · exact old
      · cases busy
    refine { sound := kept.sound, sane := ?_, holds := ?_, apart := ?_, named := ?_ }
    · intro upload member
      rcases List.mem_append.mp member with old | new
      · exact kept.sane upload old
      · cases List.mem_singleton.mp new
        exact .new request
    · intro _ _ file found busy own
      exact kept.holds (unopened found busy) busy own
    · intro first second one two _ foundFirst foundSecond busyFirst busySecond own same
      exact kept.apart (unopened foundFirst busyFirst)
        (unopened foundSecond busySecond) busyFirst busySecond own same
    · intro _ _ _ _ foundFirst foundSecond busyFirst busySecond same
      exact kept.named (unopened foundFirst busyFirst)
        (unopened foundSecond busySecond) busyFirst busySecond same
  · obtain ⟨⟨_, _⟩, moved, rfl⟩ := Option.map_eq_some_iff.mp turned
    exact kept.turn present permitted moved pool.trace

/-- In every run in which no name is taken again before the upload that has it is done with, and no
file is sent before the last write of its thread, every device is sent what came from the browser. -/
theorem delivered_of_run {labels : List (PoolLabel Request Choice)} (sound : files.Sound)
    (run : Execution (Pool.step uploading) (fun pool label => undisturbed pool label = true)
      (idle files) labels pool) :
    ∀ upload ∈ pool.tasks, upload.Delivered := by
  have kept : Kept pool :=
    run.invariant Kept (fun _ _ _ kept permitted taken => kept.step permitted taken) (.idle sound)
  exact fun upload member => (kept.sane upload member).serves

def noFiles : Inodes String where
  links := fun _ => none
  contents := fun _ => []
  next := 0

theorem noFiles_sound : noFiles.Sound where
  single := fun linked => by cases linked
  old := fun linked => by cases linked

/-- An upload that is sent to a device from the second byte on. -/
def wholeUpload (index : Nat) (bytes : Bytes) : List (PoolLabel Request Choice) :=
  turns index [.create, .receive bytes, .write 1, .close, .listen, .signal true, .write 1,
    .accept 1, .openFile, .send 5, .finish]

def bothDelivered (pool : Pool (Inodes String) Upload Empty) : Bool :=
  pool.tasks.all (fun upload => upload.server = .ended true && upload.sent.length = 1) &&
  pool.tasks.length = 2

theorem delivered_of_twoUploads :
    ∃ (labels : List (PoolLabel Request Choice)) (pool : Pool (Inodes String) Upload Empty),
      bothDelivered pool = true ∧
        Execution (Pool.step uploading) (fun pool label => undisturbed pool label = true)
          (idle noFiles) labels pool ∧
        ∀ upload ∈ pool.tasks, upload.Delivered := by
  obtain ⟨pool, run, both⟩ := exists_execution bothDelivered
    (show (replayWhere (Pool.step uploading) undisturbed (idle noFiles)
      (.call ⟨"a/b", 2⟩ :: .call ⟨"a_b", 2⟩ :: wholeUpload 0 [1, 2] ++ wholeUpload 1 [3, 4])).any
        bothDelivered = true by decide)
  exact ⟨_, pool, both, run, delivered_of_run noFiles_sound run⟩

/-- Two uploads of one name at once: the device that asks for the first is sent what the second has
written. -/
example :
    (replay (Pool.step uploading) (idle noFiles)
      ([.call ⟨"a/b", 2⟩, .call ⟨"a_b", 2⟩] ++
        turns 0 [.create, .receive [1, 2], .write 2, .close, .listen] ++
        turns 1 [.create, .receive [3, 4], .write 2] ++ turns 0
          [.accept 0, .openFile, .send 2, .finish])).any
      (fun pool => pool.tasks[0]?.any fun upload => upload.received = [1, 2] &&
        upload.sent = [3, 4]) = true := by
  decide

end DistributedOs.Cli.StreamUploads
