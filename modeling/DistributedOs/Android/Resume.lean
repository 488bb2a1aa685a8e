import DistributedOs.Android.Transfers
import DistributedOs.Nio.Download

/-! `downloadFile` over its retries and restarts. What it resumes at is the length of the marker
file, whose text is the count of the bytes that have arrived. The server answers Range requests as
it should; how far an answer gets is open. -/

namespace DistributedOs.Android.Resume

open Semantics Nio

/-- Bytes that are written in one go, and what becomes of the progress callback after them: it
throws, or it writes the marker or fails to. -/
structure Chunk where
  data : Bytes
  throws : Bool
  marks : Bool

/-- What an attempt meets: no head of an answer, or a status, the bytes that came with the head, and
those after it. -/
inductive Exchange where
  | unanswered
  | answered (status : Nat) (leftover : Chunk) (chunks : List Chunk) (broken : Bool)

/-- The output file and the text of the marker file. -/
structure Files where
  output : Option Bytes
  marker : Option String
  deriving DecidableEq

inductive Result where
  | success
  | failure
  | thrown
  deriving DecidableEq

/-- The progress callback: a total that is not the last is written to the marker. -/
def mark (totalBytes total : Nat) (chunk : Chunk) (marker : Option String) : Option String :=
  if 0 < total ∧ total < totalBytes ∧ chunk.marks = true then some (toString total) else marker

/-- The loop of `transferFrom`, which moves nothing to a position behind the end of the file. -/
def receive (totalBytes : Nat)
    (broken : Bool) : Nat → Bytes → Option String → List Chunk → Files × Result
  | _, file, marker, [] => ({ output := some file, marker }, if broken then .thrown else .success)
  | totalRead, file, marker, chunk :: chunks =>
    if file.length < totalRead then ({ output := some file, marker }, .success)
    else
      let file := writeAt file totalRead chunk.data
      let total := totalRead + chunk.data.length
      if chunk.throws then ({ output := some file, marker }, .thrown)
      else receive totalBytes broken total file (mark totalBytes total chunk marker) chunks

/-- The file when the request goes out. Over plain sockets it has been opened, over TLS it has not. -/
def prepared (tls : Bool) (existingBytes : Nat) (old : Option Bytes) : Option Bytes :=
  if tls then old else some (opened existingBytes old)

/-- `httpDownloadWithResume`, with the progress callback of `downloadFile`. Over TLS nothing is
resumed. -/
def attempt (tls : Bool) (totalBytes existingBytes : Nat)
    (files : Files) : Exchange → Files × Result
  | .unanswered => ({ files with output := prepared tls existingBytes files.output }, .thrown)
  | .answered status leftover chunks broken =>
    let file := opened existingBytes files.output
    if succeeded status = false then
      ({ files with output := prepared tls existingBytes files.output }, .failure)
    else
      let position := startPosition existingBytes status
      if leftover.data = [] then receive totalBytes broken position file files.marker chunks
      else
        let file := writeAt file position leftover.data
        let total := position + leftover.data.length
        if leftover.throws then ({ files with output := some file }, .thrown)
        else receive totalBytes broken total file (mark totalBytes total leftover files.marker) chunks

/-- A call of `downloadFile` in its retry loop. -/
structure Running where
  tls : Bool
  totalBytes : Nat
  shouldZip : Bool
  existingBytes : Nat
  attempt : Nat
  cancelFlag : Bool
  deriving DecidableEq

/-- How many bytes the request leaves out. -/
def Running.asked (running : Running) : Nat := if running.tls then 0 else running.existingBytes

/-- The two names the output may have, one for each setting of `zipOnReceive`, and the marker that
serves both. -/
structure Device where
  output : Bool → Option Bytes
  marker : Option String
  running : Option Running
  status : TransferStatus

def Device.files (device : Device) (zip : Bool) : Files :=
  { output := device.output zip, marker := device.marker }

def Device.store (device : Device) (zip : Bool) (files : Files) : Device :=
  { device with output := fun setting => if setting = zip then files.output
    else device.output setting, marker := files.marker }

/-- A cancel of the running download deletes the marker, and the sweep at a start of the app does. -/
inductive Label where
  | start (tls : Bool) (totalBytes : Nat) (shouldZip : Bool)
  | request (exchange : Exchange)
  | cancel
  | sweep

/-- The answers of the server that has the file: another status than success as it likes, and else
the rest of the file, as far as it gets. -/
def served (file : Bytes) (existingBytes : Nat) : Exchange → Bool
  | .unanswered => true
  | .answered status leftover chunks _ =>
    let body := leftover.data ++ (chunks.map Chunk.data).flatten
    !succeeded status || (status = 200 && body.isPrefixOf file) ||
      (status = 206 && decide (0 < existingBytes ∧ existingBytes < file.length) &&
        body.isPrefixOf (file.drop existingBytes))

/-- After a success the archive is unpacked, which goes well, and deleted; and so is the marker. -/
def Device.finish (device : Device) (running : Running) : Device :=
  { device with
    output := if running.shouldZip then fun setting => if setting = true then none
      else device.output setting else device.output
    marker := none, running := none, status := .completed }

def Device.conclude (device : Device) (running : Running) : Result → Device
  | .success => device.finish running
  | .failure =>
    if maxRetries ≤ running.attempt + 1 ∨ running.cancelFlag = true then
      { device with running := none, status := .failed }
    else { device with running := some { running with attempt := running.attempt + 1 } }
  | .thrown => { device with running := none, status := .failed }

def step (file : Bytes) (device : Device) : Label → Option Device
  | .start tls totalBytes shouldZip =>
    match device.running with
    | some _ => none
    | none =>
      some { device with
        running := some { tls, totalBytes, shouldZip, attempt := 0, cancelFlag := false
                          existingBytes := (device.marker.map String.length).getD 0 }
        status := .transferring }
  | .request exchange =>
    device.running.bind fun running =>
      if served file running.asked exchange then
        let attempted := attempt running.tls running.totalBytes running.asked
          (device.files running.shouldZip) exchange
        some ((device.store running.shouldZip attempted.1).conclude running attempted.2)
      else none
  | .cancel =>
    device.running.map fun running =>
      { device with
        marker := none, running := some { running with cancelFlag := true }, status := .cancelled }
  | .sweep => some { device with marker := none, running := none }

/-- The request asks for the bytes behind those in the output file, and a download that is completed
has the file. -/
def Proper (file : Bytes) (device : Device) (label : Label) (after : Device) : Prop :=
  ∀ running exchange, label = .request exchange → device.running = some running →
    running.asked = ((prepared running.tls running.asked (device.output running.shouldZip)).getD
      []).length ∧
      (after.status = .completed → after.output running.shouldZip = some file)

def Exchange.body : Exchange → Bytes
  | .unanswered => []
  | .answered _ leftover chunks _ => leftover.data ++ (chunks.map Chunk.data).flatten

def Exchange.status : Exchange → Nat
  | .unanswered => 0
  | .answered status .. => status

/-- The answer is accepted, its end is that of the connection, and no progress callback throws. -/
def Exchange.endsWell : Exchange → Bool
  | .unanswered => false
  | .answered status leftover chunks broken =>
    succeeded status && !broken && !(leftover.data ≠ [] && leftover.throws) && !chunks.any Chunk.throws

/-- A download is started while there is no marker, or while its text has one character and just the
first byte is stored, and over TLS while nothing is stored; an answer that ends well has brought the
file to its end, for a download that is not unpacked. -/
def fortunate (file : Bytes) (device : Device) : Label → Bool
  | .start tls _ shouldZip =>
    if tls then (device.output shouldZip).getD [] = []
    else device.marker.isNone ||
      ((device.marker.map String.length).getD 0 = 1 && file ≠ [] &&
        device.output shouldZip = some (file.take 1))
  | .request exchange =>
    device.running.all fun running => !exchange.endsWell ||
      (!running.shouldZip &&
        startPosition running.asked exchange.status + exchange.body.length = file.length)
  | _ => true

section
variable {totalBytes totalRead existingBytes : Nat} {broken : Bool} {file : Bytes}
  {marker : Option String} {chunks : List Chunk}

theorem receive_quiet (totalBytes : Nat) (broken : Bool) (marker : Option String)
    (inside : totalRead ≤ file.length) (quiet : ∀ chunk ∈ chunks, chunk.throws = false) :
    (receive totalBytes broken totalRead file marker chunks).1.output =
      some (writeAt file totalRead (chunks.map Chunk.data).flatten) ∧
      (receive totalBytes broken totalRead file marker chunks).2 = if broken then .thrown
      else .success := by
  induction chunks generalizing totalRead file marker with
  | nil => exact ⟨by simp [receive, writeAt], rfl⟩
  | cons chunk _ ih =>
    have grown := length_writeAt inside chunk.data
    have calm := quiet chunk List.mem_cons_self
    have rest := @ih _ _ (mark totalBytes (totalRead + chunk.data.length) chunk marker)
      (show totalRead + chunk.data.length ≤ (writeAt file totalRead chunk.data).length by omega)
      fun other later => quiet other (List.mem_cons_of_mem _ later)
    rw [writeAt_writeAt inside] at rest
    simpa [receive, Nat.not_lt.mpr inside, calm] using rest

theorem receive_thrown (inside : totalRead ≤ file.length)
    (thrown : ∃ chunk ∈ chunks, chunk.throws = true) :
    (receive totalBytes broken totalRead file marker chunks).2 = .thrown := by
  induction chunks generalizing totalRead file marker with
  | nil =>
    obtain ⟨_, within, _⟩ := thrown
    cases within
  | cons chunk chunks ih =>
    have grown := length_writeAt inside chunk.data
    by_cases first : chunk.throws = true
    · simp [receive, Nat.not_lt.mpr inside, first]
    · have later : ∃ other ∈ chunks, other.throws = true := by
        obtain ⟨other, within, throws⟩ := thrown
        rcases List.mem_cons.mp within with rfl | within
        · exact absurd throws first
        · exact ⟨other, within, throws⟩
      have rest := @ih _ _ (mark totalBytes (totalRead + chunk.data.length) chunk marker)
        (show totalRead + chunk.data.length ≤ (writeAt file totalRead chunk.data).length by omega) later
      simpa [receive, Nat.not_lt.mpr inside, first] using rest

theorem receive_success (inside : totalRead ≤ file.length)
    (success : (receive totalBytes broken totalRead file marker chunks).2 = .success) :
    chunks.any Chunk.throws = false ∧ broken = false ∧
      (receive totalBytes broken totalRead file marker chunks).1.output =
        some (writeAt file totalRead (chunks.map Chunk.data).flatten) := by
  by_cases thrown : chunks.any Chunk.throws = true
  · rw [receive_thrown inside (by simpa using thrown)] at success
    cases success
  · have quiet : ∀ chunk ∈ chunks, chunk.throws = false := by simpa using thrown
    obtain ⟨written, ended⟩ := receive_quiet totalBytes broken marker inside quiet
    rw [ended] at success
    cases broken with
    | true => cases success
    | false => exact ⟨Bool.eq_false_iff.mpr thrown, rfl, written⟩

theorem attempt_success
    (inside : startPosition existingBytes exchange.status ≤
      (opened existingBytes files.output).length)
    (success : (attempt tls totalBytes existingBytes files exchange).2 = .success) :
    exchange.endsWell = true ∧ (attempt tls totalBytes existingBytes files exchange).1.output =
      some (writeAt (opened existingBytes files.output)
        (startPosition existingBytes exchange.status) exchange.body) := by
  cases exchange with
  | unanswered => cases success
  | answered status leftover =>
    simp only [Exchange.status] at inside
    have grown := length_writeAt inside leftover.data
    cases accepted : succeeded status with
    | false =>
      simp only [attempt, accepted, if_true] at success
      cases success
    | true =>
      simp only [attempt, accepted, Bool.true_eq_false, if_false] at success ⊢
      by_cases empty : leftover.data = []
      · simp only [if_pos empty] at success ⊢
        obtain ⟨quiet, ended, written⟩ := receive_success inside success
        rw [written]
        simpa [Exchange.endsWell, Exchange.body, Exchange.status, accepted, empty, ended] using quiet
      · simp only [if_neg empty] at success ⊢
        by_cases throws : leftover.throws = true
        · rw [if_pos throws] at success
          cases success
        · simp only [if_neg throws] at success ⊢
          have further : startPosition existingBytes status + leftover.data.length ≤
              (writeAt (opened existingBytes files.output) (startPosition existingBytes status)
                leftover.data).length := by omega
          obtain ⟨quiet, ended, written⟩ := receive_success further success
          rw [written, writeAt_writeAt inside]
          simpa [Exchange.endsWell, Exchange.body, Exchange.status, accepted, throws, ended] using quiet

theorem receive_ne_failure :
    (receive totalBytes broken totalRead file marker chunks).2 ≠ .failure := by
  induction chunks generalizing totalRead file marker with
  | nil => cases broken <;> nofun
  | cons _ _ ih =>
    simp only [receive]
    split
    · nofun
    · split
      · nofun
      · exact ih

theorem attempt_failure
    (failure : (attempt tls totalBytes existingBytes files exchange).2 = .failure) :
    (attempt tls totalBytes existingBytes files exchange).1 =
      { files with output := prepared tls existingBytes files.output } := by
  cases exchange with
  | unanswered => cases failure
  | answered status =>
    cases accepted : succeeded status with
    | false => simp only [attempt, accepted, if_true]
    | true =>
      simp only [attempt, accepted, Bool.true_eq_false, if_false] at failure
      split at failure
      · exact absurd failure receive_ne_failure
      · split at failure
        · cases failure
        · exact absurd failure receive_ne_failure

/-- An attempt in which no callback throws leaves what `httpDownloadWithResume` leaves of the
answer. -/
theorem attempt_eq_httpDownloadWithResume (digest : Bytes → String)
    (read : readResponse answer.pieces = some response) (came : leftover.data = response.leftover)
    (rest : (chunks.map Chunk.data).flatten = response.rest.flatten)
    (quiet : leftover.throws = false ∧ ∀ chunk ∈ chunks, chunk.throws = false)
    (inside : startPosition existingBytes
      ((statusCode (response.head ++ response.leftover)).getD 0) ≤
      (opened existingBytes files.output).length) :
    (attempt false totalBytes existingBytes files
      (.answered ((statusCode (response.head ++ response.leftover)).getD 0) leftover chunks
        answer.broken)).1.output =
      (httpDownloadWithResume digest "" false existingBytes files.output answer).file ∧
    ((attempt false totalBytes existingBytes files
      (.answered ((statusCode (response.head ++ response.leftover)).getD 0) leftover chunks
        answer.broken)).2 = .success ↔
      ∃ result, (httpDownloadWithResume digest "" false existingBytes files.output answer).result =
      some result ∧
        result.success = true) := by
  generalize known : (statusCode (response.head ++ response.leftover)).getD 0 = status at inside ⊢
  simp only [httpDownloadWithResume, read, known, Bool.false_eq_true, if_false, attempt]
  cases accepted : succeeded status with
  | false => simp [prepared]
  | true =>
    have grown := length_writeAt inside response.leftover
    have further : startPosition existingBytes status + response.leftover.length ≤
        (writeAt (opened existingBytes files.output) (startPosition existingBytes status)
          response.leftover).length := by omega
    have all (broken : Bool) :=
      @transferAll_eq _ _ _ _ broken further (Nat.lt_add_one response.rest.flatten.length)
    have received (position : Nat) (file : Bytes) (marker : Option String)
        (within : position ≤ file.length) :=
      receive_quiet totalBytes answer.broken marker within quiet.2
    simp only [Bool.true_eq_false, if_false, quiet.1, Bool.false_eq_true, all]
    by_cases empty : leftover.data = []
    · obtain ⟨written, ended⟩ := received _ _ files.marker inside
      rw [if_pos empty, written, ended, rest, ← came, empty]
      cases answer.broken <;> simp [conclude, writeAt]
    · obtain ⟨written, ended⟩ := received _ _
        (mark totalBytes (startPosition existingBytes status + leftover.data.length) leftover
          files.marker) (came ▸ further)
      rw [if_neg empty, written, ended, rest, came]
      cases answer.broken <;> simp [conclude]

end

/-- A download that runs asks for everything, or has stored one byte and asks for those behind it. -/
structure Ready (file : Bytes) (device : Device) : Prop where
  offset : ∀ running, device.running = some running →
    (running.asked = 0 ∧ (running.tls = true → (device.output running.shouldZip).getD [] = [])) ∨
      (running.tls = false ∧ running.asked = 1 ∧ file ≠ [] ∧
        device.output running.shouldZip = some (file.take 1))
  unfinished : device.running.isSome = true → device.status ≠ .completed

section
variable {file : Bytes} {device after : Device} {running : Running} {exchange : Exchange}

theorem length_opened (ready : Ready file device) (runs : device.running = some running) :
    running.asked = (opened running.asked (device.output running.shouldZip)).length := by
  rcases ready.offset running runs with ⟨none, _⟩ | ⟨_, one, some_, stored⟩
  · simp [none, opened]
  · have positive := List.length_pos_iff.mpr some_
    rw [one, stored, opened, if_neg Nat.one_ne_zero, Option.getD_some, List.length_take]
    omega

theorem length_prepared (ready : Ready file device) (runs : device.running = some running) :
    running.asked =
      ((prepared running.tls running.asked (device.output running.shouldZip)).getD []).length := by
  unfold prepared
  split
  · rename_i overTls
    rcases ready.offset running runs with ⟨none, empty⟩ | ⟨plain, _⟩
    · rw [empty overTls, none, List.length_nil]
    · rw [plain] at overTls
      cases overTls
  · exact length_opened ready runs

theorem startPosition_le (existingBytes status : Nat) :
    startPosition existingBytes status ≤ existingBytes := by
  unfold startPosition
  split <;> omega

theorem eq_of_prefix {body whole : Bytes} (starts : body.isPrefixOf whole = true)
    (size : body.length = whole.length) : body = whole :=
  (List.isPrefixOf_iff_prefix.mp starts).eq_of_length size

theorem writeAt_behind_first (nonempty : file ≠ []) :
    writeAt (file.take 1) 1 (file.drop 1) = file := by
  have size : (file.take 1).length = 1 := by
    have positive := List.length_pos_iff.mpr nonempty
    rw [List.length_take]
    omega
  calc writeAt (file.take 1) 1 (file.drop 1)
    _ = writeAt (file.take 1) (file.take 1).length (file.drop 1) := by rw [size]
    _ = file.take 1 ++ file.drop 1 := writeAt_end _ _
    _ = file := List.take_append_drop 1 file

theorem written_whole (ready : Ready file device) (runs : device.running = some running)
    (serves : served file running.asked exchange = true) (well : exchange.endsWell = true)
    (whole : startPosition running.asked exchange.status + exchange.body.length = file.length) :
    writeAt (opened running.asked (device.output running.shouldZip))
      (startPosition running.asked exchange.status)
      exchange.body = file := by
  cases exchange with
  | unanswered => cases well
  | answered status leftover chunks broken =>
    have accepted : succeeded status = true := by
      simp only [Exchange.endsWell, Bool.and_eq_true] at well
      exact well.1.1.1
    simp only [served, accepted, Bool.not_true, Bool.false_or, Bool.or_eq_true, Bool.and_eq_true,
      decide_eq_true_eq] at serves
    have stored := length_opened ready runs
    simp only [Exchange.status] at whole ⊢
    rcases serves with ⟨_, starts⟩ | ⟨⟨_, _, _⟩, starts⟩
    · -- the whole file, from its beginning
      have begins : startPosition running.asked status = 0 := by
        unfold startPosition
        split <;> omega
      rw [begins, Nat.zero_add] at whole
      have all : Exchange.body (.answered status leftover chunks broken) = file :=
        eq_of_prefix starts whole
      have short : (opened running.asked (device.output running.shouldZip)).length ≤ file.length := by
        rcases ready.offset running runs with ⟨none, _⟩ | ⟨_, one, some_, _⟩
        · omega
        · have := List.length_pos_iff.mpr some_
          omega
      rw [begins, all, writeAt_inside (Nat.zero_le _), List.take_zero, List.nil_append,
        Nat.zero_add, List.drop_of_length_le short,
        List.append_nil]
    · -- the rest, behind the first byte
      rcases ready.offset running runs with ⟨_, _⟩ | ⟨_, one, some_, first⟩
      · omega
      · have begins : startPosition running.asked status = 1 := by
          unfold startPosition
          split <;> omega
        rw [one] at starts stored
        rw [begins] at whole
        have rest : Exchange.body (.answered status leftover chunks broken) = file.drop 1 :=
          eq_of_prefix starts (by rw [List.length_drop]; omega)
        have kept : opened running.asked (device.output running.shouldZip) = file.take 1 := by
          rw [one, first, opened, if_neg Nat.one_ne_zero, Option.getD_some]
        rw [begins, kept, rest, writeAt_behind_first some_]

theorem store_output (zip : Bool)
    (files : Files) : (device.store zip files).output zip = files.output :=
  if_pos rfl

theorem ready_stopped (status : TransferStatus) (output : Bool → Option Bytes)
    (marker : Option String) :
    Ready file { output, marker, running := none, status } := ⟨nofun, nofun⟩

/-- What comes of an attempt: a success has the whole file, and a failure leaves the file as it was
when the request went out. -/
theorem ready_conclude (ready : Ready file device) (runs : device.running = some running)
    (succeeds : result = .success → running.shouldZip = false ∧ files.output = some file)
    (fails : result = .failure →
      files.output = prepared running.tls running.asked (device.output running.shouldZip))
    (concluded : after = (device.store running.shouldZip files).conclude running result) :
    Ready file after ∧
      (after.status = .completed → after.output running.shouldZip = some file) := by
  have unfinished : device.status ≠ .completed := ready.unfinished (by rw [runs]; rfl)
  cases result with
  | success =>
    obtain ⟨plain, all⟩ := succeeds rfl
    rw [concluded]
    refine ⟨ready_stopped _ _ _, fun _ => ?_⟩
    simp only [Device.conclude, Device.finish, plain, Bool.false_eq_true, if_false, ← all]
    exact store_output false files
  | failure =>
    have kept := fails rfl
    rw [concluded, Device.conclude]
    split
    · exact ⟨ready_stopped _ _ _, nofun⟩
    · refine ⟨⟨?_, fun _ => unfinished⟩, fun done => absurd done unfinished⟩
      rintro _ ⟨⟩
      rcases ready.offset running runs with ⟨none, empty⟩ | ⟨plain, one, some_, stored⟩
      · refine .inl ⟨none, fun overTls => ?_⟩
        rw [store_output, kept, prepared, if_pos overTls]
        exact empty overTls
      · refine .inr ⟨plain, one, some_, ?_⟩
        rw [store_output, kept, one, stored, plain]
        rfl
  | thrown =>
    rw [concluded]
    exact ⟨ready_stopped _ _ _, nofun⟩

theorem ready_request (ready : Ready file device)
    (lucky : fortunate file device (.request exchange) = true)
    (taken : step file device (.request exchange) = some after) :
    Ready file after ∧ Proper file device (.request exchange) after := by
  obtain ⟨running, runs, taken⟩ := Option.bind_eq_some_iff.mp taken
  split at taken
  · rename_i serves
    have inside : startPosition running.asked exchange.status ≤
        (opened running.asked (device.files running.shouldZip).output).length :=
      (startPosition_le _ _).trans (length_opened ready runs).le
    have ⟨readyAfter, completes⟩ :
        Ready file after ∧ (after.status = .completed → after.output running.shouldZip = some file) := by
      refine ready_conclude ready runs ?_ ?_ (Option.some.inj taken).symm
      · intro success
        obtain ⟨well, written⟩ := attempt_success inside success
        have chance : running.shouldZip = false ∧
            startPosition running.asked exchange.status + exchange.body.length = file.length := by
          simpa [fortunate, runs, well] using lucky
        exact ⟨chance.1, written.trans (congrArg some (written_whole ready runs serves well chance.2))⟩
      · intro failure
        rw [attempt_failure failure]
        rfl
    refine ⟨readyAfter, ?_⟩
    rintro _ _ ⟨⟩ runsOther
    cases runs.symm.trans runsOther
    exact ⟨length_prepared ready runs, completes⟩
  · cases taken

theorem ready_step (ready : Ready file device) (lucky : fortunate file device label = true)
    (taken : step file device label = some after) :
    Ready file after ∧ Proper file device label after := by
  cases label with
  | request => exact ready_request ready lucky taken
  | start tls =>
    refine ⟨?_, nofun⟩
    simp only [step] at taken
    split at taken
    · cases taken
    · cases taken
      refine ⟨?_, fun _ => nofun⟩
      rintro _ ⟨⟩
      cases tls with
      | true => exact .inl ⟨rfl, fun _ => of_decide_eq_true lucky⟩
      | false =>
        rcases Bool.or_eq_true_iff.mp lucky with absent | first
        · rw [Option.isNone_iff_eq_none.mp absent]
          exact .inl ⟨rfl, nofun⟩
        · simp only [Bool.and_eq_true, decide_eq_true_eq] at first
          exact .inr ⟨rfl, first.1.1, first.1.2, first.2⟩
  | cancel =>
    refine ⟨?_, nofun⟩
    obtain ⟨running, runs, rfl⟩ := Option.map_eq_some_iff.mp taken
    refine ⟨?_, fun _ => nofun⟩
    rintro _ ⟨⟩
    exact ready.offset running runs
  | sweep =>
    cases taken
    exact ⟨ready_stopped _ _ _, nofun⟩

end

/-- In a run of fortunate starts and answers, from a device on which nothing is downloaded. -/
theorem proper_fortunate (file : Bytes) (device : Device) (idle : device.running = none)
    {labels : List Label} {final : Device}
    (run : Execution (step file) (fun device label => fortunate file device label = true)
      device labels final) :
    EveryStep (step file) (Proper file) device labels := by
  refine run.everyStep (Ready file) ⟨?_, ?_⟩ fun _ _ _ ready lucky taken => ready_step ready lucky taken
  · intro _ runs
    rw [idle] at runs
    cases runs
  · intro runs
    rw [idle] at runs
    cases runs

def sampleFile : Bytes := [1, 2, 3, 4, 5, 6, 7, 8, 9, 10, 11, 12]

def sampleDevice : Device :=
  { output := fun _ => none, marker := none, running := none, status := .queued }

/-- Bytes after which the progress callback writes the marker. -/
def sampleChunk (data : Bytes) : Chunk := { data, throws := false, marks := true }

/-- The server is overloaded once, then sends the file in two pieces. -/
def sampleRetry : List Label :=
  [.start false 12 false, .request (.answered 503 (sampleChunk []) [] false),
    .request (.answered 200 (sampleChunk (sampleFile.take 5)) [sampleChunk (sampleFile.drop 5)] false)]

theorem proper_fortunate_sample :
    ∃ final, Execution (step sampleFile)
      (fun device label => fortunate sampleFile device label = true) sampleDevice
      sampleRetry final ∧
      final.status = .completed ∧
      EveryStep (step sampleFile) (Proper sampleFile) sampleDevice sampleRetry := by
  obtain ⟨final, run, good⟩ := exists_execution (fun device => device.status = .completed)
    (show (replayWhere (step sampleFile) (fortunate sampleFile) sampleDevice
      sampleRetry).any _ = true by decide)
  exact ⟨final, run, of_decide_eq_true good, proper_fortunate sampleFile sampleDevice rfl run⟩

/-- The connection breaks after ten of twelve bytes, and the download is started again. -/
def sampleResumed : List Label :=
  [.start false 12 false, .request (.answered 200 (sampleChunk (sampleFile.take 10)) [] true),
    .start false 12 false]

/-- The connection is closed in order after ten of twelve bytes. -/
def sampleCut : List Label :=
  [.start false 12 false, .request (.answered 200 (sampleChunk (sampleFile.take 10)) [] false)]

/-- The resumed download asks for the bytes behind the first two, with ten of them stored; and the
one that was cut off is completed with ten of twelve bytes. -/
theorem not_proper :
    (∃ final running, Execution (step sampleFile) anything sampleDevice sampleResumed final ∧
      final.running = some running ∧
      running.asked = 2 ∧
      ((prepared running.tls running.asked (final.output running.shouldZip)).getD []).length = 10) ∧
    ∃ final, Execution (step sampleFile) anything sampleDevice sampleCut final ∧
    final.status = .completed ∧
      final.output false = some (sampleFile.take 10) := by
  constructor
  · obtain ⟨final, run, good⟩ := exists_execution
      (fun device => device.running.any fun running => running.asked = 2 ∧
        ((prepared running.tls running.asked (device.output running.shouldZip)).getD []).length = 10)
      (show (replayWhere (step sampleFile) (fun _ _ => true) sampleDevice
        sampleResumed).any _ = true by decide)
    obtain ⟨running, runs, offset⟩ := (Option.any_eq_true _ _).mp good
    exact ⟨final, running, run.plain, runs, of_decide_eq_true offset⟩
  · obtain ⟨final, run, good⟩ := exists_execution
      (fun device => device.status = .completed ∧ device.output false = some (sampleFile.take 10))
      (show (replayWhere (step sampleFile) (fun _ _ => true) sampleDevice
        sampleCut).any _ = true by decide)
    exact ⟨final, run.plain, of_decide_eq_true good⟩

end DistributedOs.Android.Resume
