import DistributedOs.Http.SendStreaming
import DistributedOs.Semantics.ReadLoop

/-! The file transfers of the desktop UI, with the stats that they share with it. Each operation
ends as the environment has it. Overflow checks are on, as in a debug build, so that a port beyond
65535 panics; times are counted in nanoseconds. -/

namespace DistributedOs.Desktop

open Semantics
open Http.SendStreaming (WriteAll)
open Reliable (utf8)

structure TransferStats (F : Type) where
  active : Bool
  speedMbps : F
  progress : F
  bytesSent : Nat
  totalBytes : Nat
  elapsed : Nat

def chunkSize : Nat := 256 * 1024

/-- The file transfer stands ten ports above the control port. -/
def panics (port : UInt16) : Prop := 2 ^ 16 ≤ port.toNat + 10

instance (port : UInt16) : Decidable (panics port) := inferInstanceAs (Decidable (_ ≤ _))

/-- Writes one after the other, up to the first that fails. -/
def writeParts : List (WriteAll × Bytes) → Bytes × Except String Unit
  | [] => ([], .ok ())
  | (write, bytes) :: rest =>
    match write.result with
    | .ok () => (bytes ++ (writeParts rest).1, (writeParts rest).2)
    | .error error => (write.accepts bytes, .error error)

/-- A call of `send_file`, with the answer of the peer. -/
structure SendCall where
  port : UInt16
  data : Bytes
  remotePath : String
  connect : Except String Unit
  pathLength : WriteAll
  path : WriteAll
  dataLength : WriteAll
  chunks : Nat → WriteAll
  elapsed : Nat → Nat
  ack : Except String UInt8

/-- A call of `receive_file`. A read after the last piece comes to `closed`. Of the bytes handed to
the file, as many as are `taken` are in it when the call returns: a write that goes beyond fails, or
is still under way. -/
structure ReceiveCall where
  port : UInt16
  remotePath : String
  localFile : Option Bytes
  connect : Except String Unit
  request : WriteAll
  pathLength : WriteAll
  path : WriteAll
  pieces : List Bytes
  closed : Except String Unit
  create : Except String Unit
  taken : Nat
  elapsed : Nat → Nat

/-- Nothing is returned by a call that panics. -/
structure Sent (F : Type) where
  stats : TransferStats F
  wire : Bytes
  returned : Option (Except String Unit)

structure Received (F : Type) where
  stats : TransferStats F
  localFile : Option Bytes
  returned : Option (Except String Unit)

section
variable {F : Type} [Floating F]

def asSecsF64 (elapsed : Nat) : F :=
  ((elapsed / 10 ^ 9 : Nat) : F) + ((elapsed % 10 ^ 9 : Nat) : F) / 1e9

def speedMbps (bytes elapsed : Nat) : F :=
  if (0.0 : F) < asSecsF64 elapsed then ((bytes : F) / asSecsF64 elapsed) / (1024.0 * 1024.0) else 0.0

namespace TransferStats

def begin (stats : TransferStats F) (totalBytes : Nat) : TransferStats F :=
  { stats with active := true, totalBytes, bytesSent := 0 }

def advance (stats : TransferStats F) (bytesSent elapsed : Nat) : TransferStats F :=
  { stats with bytesSent, elapsed, speedMbps := Desktop.speedMbps bytesSent elapsed }

def finish (stats : TransferStats F) : TransferStats F :=
  { stats with active := false, progress := 100.0 }

end TransferStats

namespace SendCall

def pathBytes (call : SendCall) : Bytes := utf8 call.remotePath

def headerParts (call : SendCall) : List (WriteAll × Bytes) :=
  [(call.pathLength, toBe 4 (call.pathBytes.length % 2 ^ 32)), (call.path, call.pathBytes),
    (call.dataLength, toBe 8 (call.data.length % 2 ^ 64))]

def message (call : SendCall) : Bytes := call.headerParts.flatMap Prod.snd ++ call.data

def sendLoop (call : SendCall) :
    Nat → Nat → Nat → TransferStats F → Bytes → TransferStats F × Bytes × Except String Unit
  | 0, _, _, stats, wire => (stats, wire, .ok ())
  | fuel + 1, index, offset, stats, wire =>
    if offset < call.data.length then
      let stop := min (offset + chunkSize) call.data.length
      let chunk := (call.data.drop offset).take (stop - offset)
      match (call.chunks index).result with
      | .error error => (stats, wire ++ (call.chunks index).accepts chunk, .error error)
      | .ok () =>
        call.sendLoop fuel (index + 1) stop (stats.advance stop (call.elapsed index)) (wire ++ chunk)
    else (stats, wire, .ok ())

def sendFile (call : SendCall) (stats : TransferStats F) : Sent F :=
  if panics call.port then { stats, wire := [], returned := none }
  else
    match call.connect with
    | .error error => { stats, wire := [], returned := some (.error error) }
    | .ok () =>
      let stats := stats.begin ((4 + call.pathBytes.length + 8 + call.data.length) % 2 ^ 64)
      match writeParts call.headerParts with
      | (wire, .error error) => { stats, wire, returned := some (.error error) }
      | (wire, .ok ()) =>
        match call.sendLoop call.data.length 0 0 stats wire with
        | (stats, wire, .error error) => { stats, wire, returned := some (.error error) }
        | (stats, wire, .ok ()) =>
          match call.ack with
          | .error error => { stats, wire, returned := some (.error error) }
          -- another byte than 0xAC is only warned of
          | .ok _ => { stats := stats.finish, wire, returned := some (.ok ()) }

end SendCall

namespace ReceiveCall

def requestParts (call : ReceiveCall) : List (WriteAll × Bytes) :=
  [(call.request, [0x01]), (call.pathLength, toBe 4 ((utf8 call.remotePath).length % 2 ^ 32)),
    (call.path, utf8 call.remotePath)]

def ready (call : ReceiveCall) (written : Bytes) : Except String Unit :=
  if written.length ≤ call.taken then .ok () else .error "write failed"

/-- The size that the peer announces, and what follows it. -/
def fileSize (call : ReceiveCall) : Except String (Nat × List Bytes) :=
  match readFully () 8 call.pieces with
  | .ok (bytes, rest) => .ok (ofBe bytes, rest)
  | .error () =>
    match call.closed with
    | .ok () => .error "early eof"
    | .error error => .error error

/-- The stats are those set after the last write that succeeded. -/
def receiving (call : ReceiveCall) (stats : TransferStats F) (received : Bytes) : TransferStats F :=
  if received = [] then stats else stats.advance received.length (call.elapsed received.length)

def receiveFile (call : ReceiveCall) (stats : TransferStats F) : Received F :=
  if panics call.port then { stats, localFile := call.localFile, returned := none }
  else
    match call.connect with
    | .error error => { stats, localFile := call.localFile, returned := some (.error error) }
    | .ok () =>
      match (writeParts call.requestParts).2 with
      | .error error => { stats, localFile := call.localFile, returned := some (.error error) }
      | .ok () =>
        match call.fileSize with
        | .error error => { stats, localFile := call.localFile, returned := some (.error error) }
        | .ok (fileSize, rest) =>
          let stats := stats.begin fileSize
          match call.create with
          | .error error => { stats, localFile := call.localFile, returned := some (.error error) }
          | .ok () =>
            match readExpected chunkSize call.closed call.ready fileSize rest with
            | (received, .error error) =>
              { stats := call.receiving stats received, localFile := some (received.take call.taken)
                returned := some (.error error) }
            | (received, .ok ()) =>
              { stats := (call.receiving stats received).finish,
                localFile := some (received.take call.taken)
                returned := some (.ok ()) }

end ReceiveCall

/-- However a call returns, the transfer is no longer active, and at 100 percent only if it
succeeded. -/
structure Settled (stats : TransferStats F) (returned : Option (Except String Unit)) : Prop where
  inactive : ∀ result, returned = some result → stats.active = false
  progress : ∀ result, returned = some result → stats.progress = 100.0 → result = .ok ()

structure SendCall.Sound (call : SendCall) (stats : TransferStats F) : Prop extends
    Settled (call.sendFile stats).stats (call.sendFile stats).returned where
  written : (call.sendFile stats).returned = some (.ok ()) → (call.sendFile stats).wire = call.message
  acknowledged : (call.sendFile stats).returned = some (.ok ()) → call.ack = .ok 0xAC

structure ReceiveCall.Sound (call : ReceiveCall) (stats : TransferStats F) : Prop extends
    Settled (call.receiveFile stats).stats (call.receiveFile stats).returned where
  complete : (call.receiveFile stats).returned = some (.ok ()) →
    ∃ fileSize rest content, call.fileSize = .ok (fileSize, rest) ∧
    (call.receiveFile stats).localFile = some content ∧
      content.length = fileSize ∧ content <+: rest.flatten

/-- The stats that a transfer finds do not show it active or finished. -/
def TransferStats.Idle (stats : TransferStats F) : Prop :=
  stats.active = false ∧ stats.progress ≠ 100.0

/-- All is written, and acknowledged with the success byte. -/
structure SendCall.Succeeds (call : SendCall) : Prop where
  connect : call.connect = .ok ()
  header : ∀ part ∈ call.headerParts, part.1 = .done
  chunks : ∀ index, index * chunkSize < call.data.length → call.chunks index = .done
  ack : call.ack = .ok 0xAC

structure ReceiveCall.Begins (call : ReceiveCall) (fileSize : Nat) (rest : List Bytes) : Prop where
  connect : call.connect = .ok ()
  request : ∀ part ∈ call.requestParts, part.1 = .done
  announced : call.fileSize = .ok (fileSize, rest)

/-- The peer sends what it has announced, and the file takes it. -/
structure ReceiveCall.Succeeds (call : ReceiveCall) (fileSize : Nat)
    (rest : List Bytes) : Prop extends
    call.Begins fileSize rest where
  create : call.create = .ok ()
  sent : fileSize ≤ rest.flatten.length
  taken : fileSize ≤ call.taken

variable {stats after : TransferStats F} {wire : Bytes} {fuel index offset : Nat}
  {returned : Option (Except String Unit)}

omit [Floating F] in
theorem writeParts_ok_iff (parts : List (WriteAll × Bytes)) : (writeParts parts).2 = .ok () ↔
      ∀ part ∈ parts, part.1 = .done := by
  induction parts with
  | nil => exact iff_of_true rfl nofun
  | cons part _ ih =>
    obtain ⟨write, _⟩ := part
    rw [List.forall_mem_cons, writeParts]
    cases write with
    | done => exact ih.trans (and_iff_right rfl).symm
    | failed => exact iff_of_false nofun fun all => (nomatch all.1)

omit [Floating F] in
theorem writeParts_wire {parts : List (WriteAll × Bytes)} (done : ∀ part ∈ parts, part.1 = .done) :
    (writeParts parts).1 = parts.flatMap Prod.snd := by
  induction parts with
  | nil => rfl
  | cons part _ ih =>
    obtain ⟨_, _⟩ := part
    obtain ⟨rfl, rest⟩ := List.forall_mem_cons.mp done
    rw [writeParts, List.flatMap_cons, ← ih rest]
    rfl

theorem not_settled_of_active (active : stats.active = true) (result : Except String Unit) :
    ¬ Settled stats (some result) := by
  intro settled
  have inactive := settled.inactive result rfl
  rw [active] at inactive
  cases inactive

theorem settled_error_iff : Settled stats (some (.error error)) ↔ stats.Idle := by
  constructor
  · rintro ⟨inactive, progress⟩
    exact ⟨inactive _ rfl, fun full => (nomatch progress _ rfl full)⟩
  · rintro ⟨inactive, progress⟩
    exact ⟨fun _ _ => inactive, fun _ _ full => absurd full progress⟩

theorem settled_finish : Settled stats.finish (some (.ok ())) where
  inactive := fun _ _ => rfl
  progress := fun _ same _ => (Option.some.inj same).symm

namespace SendCall

variable {call : SendCall}

/-- Where a turn of the loop begins. -/
def offsetAt (call : SendCall) (index : Nat) : Nat := min (index * chunkSize) call.data.length

omit [Floating F] in
theorem offsetAt_succ (more : call.offsetAt index < call.data.length) :
    min (call.offsetAt index + chunkSize) call.data.length = call.offsetAt (index + 1) ∧
      index * chunkSize = call.offsetAt index := by
  unfold offsetAt at more ⊢
  rw [Nat.succ_mul]
  omega

omit [Floating F] in
theorem spent_of_le (spent : ¬ call.offsetAt index < call.data.length) (le : index ≤ later) :
    ¬ later * chunkSize < call.data.length := by
  have below := Nat.mul_le_mul_right chunkSize le
  unfold offsetAt at spent
  omega

/-- The loop comes to its end when every chunk is written. -/
theorem sendLoop_ok_iff (call : SendCall) (enough : call.data.length - call.offsetAt index ≤ fuel)
    (stats : TransferStats F) (wire : Bytes) :
    (call.sendLoop fuel index (call.offsetAt index) stats wire).2.2 = .ok () ↔
      ∀ later, index ≤ later → later * chunkSize < call.data.length →
      call.chunks later = .done := by
  have positive : 0 < chunkSize := by decide
  induction fuel generalizing index stats wire with
  | zero => exact iff_of_true rfl fun later le within => absurd within (spent_of_le (by omega) le)
  | succ fuel ih =>
    rw [sendLoop]
    by_cases more : call.offsetAt index < call.data.length
    · obtain ⟨next, start⟩ := offsetAt_succ more
      rw [if_pos more]
      simp only [next]
      cases written : call.chunks index with
      | done =>
        have less : call.data.length - call.offsetAt (index + 1) ≤ fuel := by
          rw [← next]
          omega
        simp only [WriteAll.result]
        refine (ih less _ _).trans ⟨?_, ?_⟩
        · intro done later le within
          rcases Nat.eq_or_lt_of_le le with rfl | lt
          · exact written
          · exact done later lt within
        · exact fun done later le => done later (Nat.le_of_succ_le le)
      | failed =>
        refine iff_of_false (by rintro ⟨⟩) fun done => ?_
        have here := done index (Nat.le_refl index) (start ▸ more)
        rw [written] at here
        cases here
    · rw [if_neg more]
      exact iff_of_true rfl fun later le within => absurd within (spent_of_le more le)

theorem sendLoop_wire (call : SendCall) (enough : call.data.length - offset ≤ fuel)
    (stats : TransferStats F) (wire : Bytes)
    (done : (call.sendLoop fuel index offset stats wire).2.2 = .ok ()) :
    (call.sendLoop fuel index offset stats wire).2.1 = wire ++ call.data.drop offset := by
  have positive : 0 < chunkSize := by decide
  induction fuel generalizing index offset stats wire with
  | zero =>
    rw [sendLoop, List.drop_of_length_le (by omega), List.append_nil]
  | succ _ ih =>
    rw [sendLoop] at done ⊢
    by_cases more : offset < call.data.length
    · rw [if_pos more] at done ⊢
      cases written : (call.chunks index).result with
      | error =>
        simp only [written] at done
        cases done
      | ok =>
        simp only [written] at done ⊢
        have stop : offset + (min (offset + chunkSize) call.data.length - offset) = min
            (offset + chunkSize) call.data.length := by
          omega
        rw [ih (by omega) _ _ done, List.append_assoc]
        congr 1
        conv_rhs => rw [← List.take_append_drop (min (offset + chunkSize) call.data.length - offset)
          (call.data.drop offset)]
        rw [List.drop_drop, stop]
    · rw [if_neg more, List.drop_of_length_le (by omega), List.append_nil]

theorem sendLoop_active (call : SendCall) (stats : TransferStats F) (wire : Bytes) :
    (call.sendLoop fuel index offset stats wire).1.active = stats.active := by
  induction fuel generalizing index offset stats wire with
  | zero => rfl
  | succ _ ih =>
    rw [sendLoop]
    split
    · cases (call.chunks index).result with
      | error => rfl
      | ok => exact ih _ _
    · rfl

/-- How a call of `send_file` ends. -/
inductive Ends (call : SendCall) (stats : TransferStats F) : Sent F → Prop where
  | panicked (beyond : panics call.port) : Ends call stats { stats, wire := [], returned := none }
  | unconnected {error : String} (within : ¬ panics call.port) (failed : call.connect = .error error) :
      Ends call stats { stats, wire := [], returned := some (.error error) }
  | broken {after : TransferStats F} {wire : Bytes} {error : String} (within : ¬ panics call.port)
    (connect : call.connect = .ok ())
      (unfinished : ¬ call.Succeeds) (active : after.active = true) :
      Ends call stats { stats := after, wire, returned := some (.error error) }
  | finished {after : TransferStats F} {byte : UInt8} (within : ¬ panics call.port)
    (connect : call.connect = .ok ())
      (header : ∀ part ∈ call.headerParts, part.1 = .done)
      (chunks : ∀ index, index * chunkSize < call.data.length → call.chunks index = .done)
      (answer : call.ack = .ok byte) :
      Ends call stats { stats := after.finish, wire := call.message, returned := some (.ok ()) }

theorem sendFile_ends (call : SendCall) (stats : TransferStats F) :
    call.Ends stats (call.sendFile stats) := by
  unfold sendFile
  by_cases within : panics call.port
  · rw [if_pos within]
    exact .panicked within
  rw [if_neg within]
  cases connect : call.connect with
  | error => exact .unconnected within connect
  | ok =>
    have header := writeParts_ok_iff call.headerParts
    have headerWire := @writeParts_wire call.headerParts
    generalize writeParts call.headerParts = written at header headerWire ⊢
    obtain ⟨wire, error | _⟩ := written
    · refine .broken within connect (fun succeeds => ?_) rfl
      exact nomatch header.mpr succeeds.header
    have allDone := header.mp rfl
    obtain rfl : wire = _ := headerWire allDone
    dsimp only
    have begun : (stats.begin
        ((4 + call.pathBytes.length + 8 + call.data.length) % 2 ^ 64)).active = true := rfl
    generalize stats.begin _ = begin at begun ⊢
    have start : call.offsetAt 0 = 0 := by rw [offsetAt, Nat.zero_mul, Nat.zero_min]
    have looped := @sendLoop_ok_iff F _ call.data.length 0 call (Nat.sub_le _ _) begin
      (call.headerParts.flatMap Prod.snd)
    have dataWire := @sendLoop_wire F _ call.data.length 0 0 call (Nat.sub_le _ _) begin
      (call.headerParts.flatMap Prod.snd)
    have active := @sendLoop_active F _ call.data.length 0 0 call begin
      (call.headerParts.flatMap Prod.snd)
    rw [start] at looped
    generalize call.sendLoop call.data.length 0 0 begin (call.headerParts.flatMap Prod.snd) =
      sent at looped dataWire active ⊢
    obtain ⟨_, wire, error | _⟩ := sent
    · refine .broken within connect (fun succeeds => ?_) (active.trans begun)
      exact nomatch looped.mpr fun later _ => succeeds.chunks later
    have chunks := looped.mp rfl
    obtain rfl : wire = _ := dataWire rfl
    dsimp only
    cases answer : call.ack with
    | error =>
      refine .broken within connect (fun succeeds => ?_) (active.trans begun)
      exact nomatch answer.symm.trans succeeds.ack
    | ok => exact .finished within connect allDone (fun later => chunks later (Nat.zero_le _)) answer

/-- A call of `send_file` is sound when it panics, when it cannot connect and finds idle stats, or
when it succeeds. -/
theorem sound_iff (call : SendCall) (stats : TransferStats F) :
    call.Sound stats ↔ panics call.port ∨ ((∃ error, call.connect = .error error) ∧ stats.Idle) ∨
      call.Succeeds := by
  have parts : call.Sound stats ↔ Settled (call.sendFile stats).stats (call.sendFile stats).returned ∧
      ((call.sendFile stats).returned = some (.ok ()) → (call.sendFile stats).wire = call.message ∧
        call.ack = .ok 0xAC) :=
    ⟨fun sound => ⟨sound.toSettled, fun ok => ⟨sound.written ok, sound.acknowledged ok⟩⟩,
      fun ⟨settled, sent⟩ =>
      { settled with written := fun ok => (sent ok).1, acknowledged := fun ok => (sent ok).2 }⟩
  rw [parts]
  have ends := call.sendFile_ends stats
  generalize call.sendFile stats = sent at ends ⊢
  cases ends with
  | panicked beyond => exact iff_of_true ⟨⟨nofun, nofun⟩, nofun⟩ (.inl beyond)
  | unconnected within failed =>
    rw [or_iff_right within, settled_error_iff]
    constructor
    · exact fun sound => .inl ⟨⟨_, failed⟩, sound.1⟩
    · rintro (⟨_, idle⟩ | succeeds)
      · exact ⟨idle, nofun⟩
      · cases failed.symm.trans succeeds.connect
  | broken within connect unfinished active =>
    refine iff_of_false (fun sound => not_settled_of_active active _ sound.1) ?_
    rintro (beyond | ⟨⟨error, failed⟩, _⟩ | succeeds)
    · exact within beyond
    · cases connect.symm.trans failed
    · exact unfinished succeeds
  | finished within connect header chunks =>
    constructor
    · rintro ⟨_, sent⟩
      exact .inr (.inr ⟨connect, header, chunks, (sent rfl).2⟩)
    · rintro (beyond | ⟨⟨_, failed⟩, _⟩ | succeeds)
      · exact absurd beyond within
      · cases connect.symm.trans failed
      · exact ⟨settled_finish, fun _ => ⟨rfl, succeeds.ack⟩⟩

end SendCall

namespace ReceiveCall

variable {call : ReceiveCall} {fileSize : Nat} {rest : List Bytes}

/-- How a call of `receive_file` ends. -/
inductive Ends (call : ReceiveCall) (stats : TransferStats F) : Received F → Prop where
  | panicked (beyond : panics call.port) :
    Ends call stats { stats, localFile := call.localFile, returned := none }
  | refused {error : String} (within : ¬ panics call.port)
    (unbegun : ∀ fileSize rest, ¬ call.Begins fileSize rest) :
      Ends call stats { stats, localFile := call.localFile, returned := some (.error error) }
  | broken {after : TransferStats F} {localFile : Option Bytes} {error : String} {fileSize : Nat}
    {rest : List Bytes}
      (within : ¬ panics call.port) (begins : call.Begins fileSize rest)
      (unfinished : ¬ call.Succeeds fileSize rest)
      (active : after.active = true) :
      Ends call stats { stats := after, localFile, returned := some (.error error) }
  | finished {after : TransferStats F} {fileSize : Nat} {rest : List Bytes} (within : ¬ panics call.port)
      (begins : call.Begins fileSize rest) (create : call.create = .ok ()) :
      Ends call stats
        { stats := after.finish, localFile := some ((rest.flatten.take fileSize).take call.taken),
          returned := some (.ok ()) }

omit [Floating F] in
theorem ready_eq_ok_iff : call.ready written = .ok () ↔ written.length ≤ call.taken := by
  unfold ready
  split
  · rename_i within
    exact iff_of_true rfl within
  · rename_i beyond
    exact iff_of_false nofun beyond

omit [Floating F] in
theorem readExpected_done (sent : fileSize ≤ rest.flatten.length) (taken : fileSize ≤ call.taken) :
    (readExpected chunkSize call.closed call.ready fileSize rest).2 = .ok () := by
  refine (readExpected_done_iff (by decide)).mpr ⟨fun index _ => ready_eq_ok_iff.mpr ?_, .inl sent⟩
  exact Nat.le_trans (length_take_expectedChunks (by decide) index fileSize rest) taken

theorem receiving_active (received : Bytes) :
    (call.receiving stats received).active = stats.active := by
  unfold receiving
  split <;> rfl

theorem receiveFile_ends (call : ReceiveCall) (stats : TransferStats F) :
    call.Ends stats (call.receiveFile stats) := by
  unfold receiveFile
  by_cases within : panics call.port
  · rw [if_pos within]
    exact .panicked within
  rw [if_neg within]
  cases connect : call.connect with
  | error =>
    exact .refused within fun fileSize rest begins => (nomatch connect.symm.trans begins.connect)
  | ok =>
    have request := writeParts_ok_iff call.requestParts
    generalize writeParts call.requestParts = written at request ⊢
    obtain ⟨_, error | _⟩ := written
    · exact .refused within fun fileSize rest begins => (nomatch request.mpr begins.request)
    dsimp only
    cases announced : call.fileSize with
    | error =>
      exact .refused within fun fileSize rest begins => (nomatch announced.symm.trans begins.announced)
    | ok header =>
      obtain ⟨fileSize, rest⟩ := header
      have begins : call.Begins fileSize rest := ⟨connect, request.mp rfl, announced⟩
      dsimp only
      cases create : call.create with
      | error =>
        exact .broken within begins (fun succeeds => (nomatch create.symm.trans succeeds.create)) rfl
      | ok =>
        have done := @readExpected_done call fileSize rest
        have received := @readExpected_received String chunkSize call.closed call.ready rest
          fileSize (by decide)
        generalize readExpected chunkSize call.closed call.ready fileSize rest = read at done received ⊢
        obtain ⟨bytes, _ | _⟩ := read
        · exact .broken within begins (fun succeeds => (nomatch done succeeds.sent succeeds.taken))
            (receiving_active bytes)
        · obtain rfl : bytes = _ := received rfl
          exact .finished within begins create

/-- A call of `receive_file` is sound when it panics, when it is refused before it begins and finds
idle stats, or when it succeeds. -/
theorem sound_iff (call : ReceiveCall) (stats : TransferStats F) :
    call.Sound stats ↔
      panics call.port ∨ ((∀ fileSize rest, ¬ call.Begins fileSize rest) ∧ stats.Idle) ∨
        ∃ fileSize rest, call.Succeeds fileSize rest := by
  have parts : call.Sound stats ↔
    Settled (call.receiveFile stats).stats (call.receiveFile stats).returned ∧
      ((call.receiveFile stats).returned = some (.ok ()) →
        ∃ fileSize rest content, call.fileSize = .ok (fileSize, rest) ∧
        (call.receiveFile stats).localFile = some content ∧
          content.length = fileSize ∧ content <+: rest.flatten) :=
    ⟨fun sound => ⟨sound.toSettled, sound.complete⟩, fun ⟨settled, complete⟩ =>
      { settled with complete }⟩
  rw [parts]
  have ends := call.receiveFile_ends stats
  generalize call.receiveFile stats = received at ends ⊢
  cases ends with
  | panicked beyond => exact iff_of_true ⟨⟨nofun, nofun⟩, nofun⟩ (.inl beyond)
  | refused within unbegun =>
    rw [or_iff_right within, settled_error_iff]
    constructor
    · exact fun sound => .inl ⟨unbegun, sound.1⟩
    · rintro (⟨_, idle⟩ | ⟨fileSize, rest, succeeds⟩)
      · exact ⟨idle, nofun⟩
      · exact absurd succeeds.toBegins (unbegun fileSize rest)
  | broken within begins unfinished active =>
    refine iff_of_false (fun sound => not_settled_of_active active _ sound.1) ?_
    rintro (beyond | ⟨unbegun, _⟩ | ⟨fileSize, rest, succeeds⟩)
    · exact within beyond
    · exact unbegun _ _ begins
    · cases begins.announced.symm.trans succeeds.announced
      exact unfinished succeeds
  | @finished _ fileSize rest within begins create =>
    constructor
    · rintro ⟨_, complete⟩
      obtain ⟨size, pieces, _, announced, stored, length, _⟩ := complete rfl
      cases begins.announced.symm.trans announced
      cases stored
      rw [List.length_take, List.length_take] at length
      exact .inr (.inr ⟨fileSize, rest, { begins with create, sent := by omega, taken := by omega }⟩)
    · rintro (beyond | ⟨unbegun, _⟩ | ⟨_, _, succeeds⟩)
      · exact absurd beyond within
      · exact absurd begins (unbegun _ _)
      · cases begins.announced.symm.trans succeeds.announced
        refine ⟨settled_finish, fun _ => ⟨fileSize, rest, _, begins.announced, rfl, ?_, ?_⟩⟩
        · have sent := succeeds.sent
          have taken := succeeds.taken
          rw [List.length_take, List.length_take]
          omega
        · exact (List.take_prefix _ _).trans (List.take_prefix _ _)

end ReceiveCall

/-- Of the calls of `send_file` and `receive_file` exactly those are sound that succeed, that panic,
or that are refused before the stats are touched, where these show no transfer. -/
theorem transfers_sound_iff (send : SendCall) (receive : ReceiveCall) (stats : TransferStats F) :
    (send.Sound stats ↔ panics send.port ∨ ((∃ error, send.connect = .error error) ∧ stats.Idle) ∨
      send.Succeeds) ∧
      (receive.Sound stats ↔
        panics receive.port ∨ ((∀ fileSize rest, ¬ receive.Begins fileSize rest) ∧ stats.Idle) ∨
          ∃ fileSize rest, receive.Succeeds fileSize rest) :=
  ⟨send.sound_iff stats, receive.sound_iff stats⟩

end

/-- Two bytes are announced, and the peer closes the connection after one. -/
def closedEarly : ReceiveCall :=
  { port := 7890, remotePath := "a", localFile := none, connect := .ok (), request := .done,
    pathLength := .done, path := .done
    pieces := [[0, 0, 0, 0, 0, 0, 0, 2], [7]], closed := .ok (), create := .ok (), taken := 1,
      elapsed := fun _ => 0 }

/-- The byte is sent, and the peer answers with another byte than the success byte. -/
def unacknowledged : SendCall :=
  { port := 7890, data := [7], remotePath := "a", connect := .ok (), pathLength := .done,
    path := .done, dataLength := .done
    chunks := fun _ => .done, elapsed := fun _ => 0, ack := .ok 0xEE }

def idleStats : TransferStats Rat :=
  { active := false, speedMbps := 0, progress := 0, bytesSent := 0, totalBytes := 0, elapsed := 0 }

/-- Half a file is a success at 100 percent, and so is a file that was not acknowledged. -/
theorem closedEarly_unsound :
    (closedEarly.receiveFile idleStats).returned = some (.ok ()) ∧
      (closedEarly.receiveFile idleStats).localFile = some [7] ∧
      ¬ closedEarly.Sound idleStats ∧ (unacknowledged.sendFile idleStats).returned = some (.ok ()) ∧
      ¬ unacknowledged.Sound idleStats := by
  have received : (closedEarly.receiveFile idleStats).returned = some (.ok ()) ∧
      (closedEarly.receiveFile idleStats).localFile = some [7] := by decide +kernel
  have sent : (unacknowledged.sendFile idleStats).returned = some (.ok ()) := by decide +kernel
  refine ⟨received.1, received.2, fun sound => ?_, sent, fun sound => ?_⟩
  · obtain ⟨_, _, _, announced, stored, length, _⟩ := sound.complete received.1
    cases received.2.symm.trans stored
    cases announced
    cases length
  · cases sound.acknowledged sent

end DistributedOs.Desktop
