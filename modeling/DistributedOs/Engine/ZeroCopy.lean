import DistributedOs.Semantics.Codec
import DistributedOs.Semantics.TaskPool
import Mathlib.Logic.Function.Basic

/-! `try_zero_copy_chunk` on one thread. A call can be passed by another one where it awaits; a
splice through the pipe of the thread does not await, so it goes through at once. What the system
calls return is arbitrary, as far as the bytes are there. -/

namespace DistributedOs.Engine

open Semantics

inductive Platform where
  | linux
  | macos
  | other
  deriving DecidableEq

/-- `EWOULDBLOCK` is `EAGAIN`. -/
inductive Errno where
  | again
  | inval
  | nosys
  | opnotsupp
  | unsupported
  | other (code : Nat)
  deriving DecidableEq

/-- What a system call returns: an error, and how many bytes it has moved. -/
structure SysResult where
  error : Option Errno
  moved : Nat
  deriving DecidableEq

/-- A byte with the call that has taken it from its file. -/
abbrev Taken := Nat × UInt8

/-- `start` is the offset that the call began at, and `offset` what it has made of it. -/
structure CopyCall where
  socket : Nat
  file : Bytes
  start : Nat
  count : Nat
  offset : Nat
  retries : Nat
  writable : Bool
  result : Option (Except Errno Nat)

/-- The pipe of the thread, the calls, and what each socket has received. -/
structure ZeroCopy where
  pipe : Option (List Taken)
  calls : List CopyCall
  streams : Nat → List Taken

/-- The results of `pipe2` and of the splices into the pipe and out of it. -/
structure SpliceResults where
  pipe2 : Option Errno
  spliceIn : SysResult
  spliceOut : List SysResult

inductive CopyEvent where
  | call (socket : Nat) (file : Bytes) (offset count : Nat)
  | writable (id : Nat) (error : Option Errno)
  | attempt (id : Nat) (sendfile : SysResult) (splice : SpliceResults)

def sendRetries : Nat := 16

def CopyCall.take (call : CopyCall) (id count : Nat) : List Taken :=
  ((call.file.drop call.offset).take count).map fun byte => (id, byte)

/-- As many bytes are there, and as many were asked for; on macOS none means all. -/
def CopyCall.allows (call : CopyCall) (platform : Platform) (moved : Nat) : Bool :=
  (moved ≤ call.count || (platform = .macos && call.count = 0)) && moved ≤ call.file.length - call.offset

/-- On Linux an error moves nothing; on macOS it may come with bytes, and then it is none. -/
def sendfileImpl (platform : Platform) (result : SysResult) : Option (Except Errno Nat) :=
  match result.error with
  | none => some (.ok result.moved)
  | some error =>
    if result.moved = 0 then some (.error error)
    else if platform = .macos then some (.ok result.moved)
    else none

/-- The second loop of `splice_impl`: what is left in the pipe, what went to the socket, and the
error. When the socket is not writable, it is polled. -/
def spliceOut (toSpliceOut : Nat) (pipe sent : List Taken) :
    List SysResult → Option (List Taken × List Taken × Option Errno)
  | [] => if toSpliceOut = 0 then some (pipe, sent, none) else none
  | result :: later =>
    if toSpliceOut = 0 then none
    else match result.error with
    | some .again => spliceOut toSpliceOut pipe sent later
    | some error => if later = [] then some (pipe, sent, some error) else none
    | none =>
      if result.moved ≤ toSpliceOut ∧ result.moved ≤ pipe.length then
        spliceOut (toSpliceOut - result.moved) (pipe.drop result.moved)
          (sent ++ pipe.take result.moved) later
      else none

namespace ZeroCopy

def new : ZeroCopy := { pipe := none, calls := [], streams := fun _ => [] }

variable (copy : ZeroCopy) (id : Nat) (call : CopyCall)

def setCall (call : CopyCall) : ZeroCopy := { copy with calls := copy.calls.set id call }

/-- The socket of the call receives the bytes. -/
def deliver (socket : Nat) (sent : List Taken) : ZeroCopy :=
  { copy with streams := Function.update copy.streams socket (copy.streams socket ++ sent) }

def return_ (call : CopyCall) (result : Except Errno Nat) : ZeroCopy :=
  copy.setCall id { call with result := some result }

/-- Bytes that were moved, with the offset that goes on by as many. -/
def moved (count : Nat) : ZeroCopy :=
  (copy.deliver call.socket (call.take id count)).return_ id
  { call with offset := call.offset + count } (.ok count)

/-- The offset goes on at the end only. -/
def spliceImpl (results : SpliceResults) : Option ZeroCopy :=
  match copy.pipe, results.pipe2 with
  | none, some error => some (copy.return_ id call (.error error))
  | pipe, _ =>
    let pipe := pipe.getD []
    match results.spliceIn.error with
    | some error => some ({ copy with pipe := some pipe }.return_ id call (.error error))
    | none =>
      let splicedIn := results.spliceIn.moved
      if call.allows .linux splicedIn = false then none
      else if splicedIn = 0 then some ({ copy with pipe := some pipe }.return_ id call (.ok 0))
      else match spliceOut splicedIn (pipe ++ call.take id splicedIn) [] results.spliceOut with
        | none => none
        | some (left, sent, some error) =>
          some (({ copy with pipe := some left }.deliver call.socket sent).return_ id
            call (.error error))
        | some (left, sent, none) =>
          some (({ copy with pipe := some left }.deliver call.socket sent).return_ id
            { call with offset := call.offset + splicedIn } (.ok splicedIn))

/-- One round of the loop: the errors that have the splice tried, those that are retried, and the
others. -/
def attempt (platform : Platform) (sendfile : SysResult) (splice : SpliceResults) :
    Option ZeroCopy :=
  if platform = .other then some (copy.return_ id call (.error .unsupported))
  else match sendfileImpl platform sendfile with
  | none => none
  | some (.ok count) => if call.allows platform count then some (copy.moved id call count) else none
  | some (.error error) =>
    if platform = .linux ∧ (error = .inval ∨ error = .nosys ∨ error = .opnotsupp) then
      copy.spliceImpl id call splice
    else if error = .again then
      if sendRetries ≤ call.retries + 1 then
        some (copy.return_ id { call with retries := call.retries + 1 } (.error error))
      else some (copy.setCall id { call with retries := call.retries + 1 })
    else some (copy.return_ id call (.error error))

def step (platform : Platform) (copy : ZeroCopy) : CopyEvent → Option ZeroCopy
  | .call socket file offset count =>
    some { copy with
      calls := copy.calls ++
        [{ socket, file, start := offset, count, offset, retries := 0, writable := false, result := none }] }
  | .writable id error =>
    match copy.calls[id]? with
    | none => none
    | some call =>
      if call.writable ∨ call.result.isSome then none
      else match error with
      | some error => some (copy.return_ id call (.error error))
      | none => some (copy.setCall id { call with writable := true })
  | .attempt id sendfile splice =>
    match copy.calls[id]? with
    | none => none
    | some call =>
      if call.writable ∧ call.result.isNone then copy.attempt id call platform sendfile splice else none

def received : Bytes := ((copy.streams call.socket).filter fun taken => taken.1 = id).map Prod.snd

/-- The socket has what stands in the file between the offset before and the offset now. -/
structure CallExact : Prop where
  bytes : copy.received id call = (call.file.drop call.start).take (copy.received id call).length
  offset : call.offset = call.start + (copy.received id call).length
  result : ∀ count, call.result = some (.ok count) → count = (copy.received id call).length

/-- Every call is exact, and no socket receives a byte of a call for another one. -/
structure Exact : Prop where
  calls : ∀ id call, copy.calls[id]? = some call → copy.CallExact id call
  own : ∀ socket, ∀ taken ∈ copy.streams socket, ∃ call, copy.calls[taken.1]? = some call ∧
    call.socket = socket

/-- Where a splice from the file has moved bytes, no splice to the socket fails, but for a socket
that is not writable. -/
def clean (platform : Platform) (copy : ZeroCopy) : CopyEvent → Prop
  | .attempt _ sendfile splice =>
    platform = .linux → sendfile.error = some .inval ∨ sendfile.error = some .nosys ∨
    sendfile.error = some .opnotsupp →
      (copy.pipe = none → splice.pipe2 = none) → splice.spliceIn.error = none →
      0 < splice.spliceIn.moved →
        ∀ result ∈ splice.spliceOut, result.error = none ∨ result.error = some .again
  | _ => True

variable {copy} {id} {call} {after : ZeroCopy} {event : CopyEvent} {platform : Platform}
  {results : List SysResult} {toSpliceOut : Nat} {pipe sent left out : List Taken}
  {error : Option Errno}

/-- Without an error they move what was to be moved, from the front of the pipe. -/
theorem spliceOut_done (done : spliceOut toSpliceOut pipe sent results = some (left, out, none)) :
    out = sent ++ pipe.take toSpliceOut ∧ left = pipe.drop toSpliceOut := by
  induction results generalizing toSpliceOut pipe sent with
  | nil =>
    rw [spliceOut] at done
    split at done
    · rename_i all
      cases done
      rw [all, List.take_zero, List.append_nil, List.drop_zero]
      exact ⟨rfl, rfl⟩
    · cases done
  | cons _ _ ih =>
    rw [spliceOut] at done
    split at done
    · cases done
    · split at done
      · exact ih done
      · split at done <;> cases done
      · split at done
        · rename_i moved
          obtain ⟨first, second⟩ := ih done
          rw [List.append_assoc, ← List.take_add, Nat.add_sub_cancel' moved.1] at first
          rw [List.drop_drop, Nat.add_sub_cancel' moved.1] at second
          exact ⟨first, second⟩
        · cases done

theorem spliceOut_clean (clean : ∀ result ∈ results, result.error = none ∨
      result.error = some .again)
    (done : spliceOut toSpliceOut pipe sent results = some (left, out, error)) : error = none := by
  induction results generalizing toSpliceOut pipe sent with
  | nil =>
    rw [spliceOut] at done
    split at done
    · cases done
      rfl
    · cases done
  | cons result _ ih =>
    have first := clean result List.mem_cons_self
    have others := fun other member => clean other (List.mem_cons_of_mem _ member)
    rw [spliceOut] at done
    split at done
    · cases done
    · split at done
      · exact ih others done
      · rename_i failed other
        rw [other] at first
        rcases first with none | again
        · cases none
        · cases again
          exact absurd rfl failed
      · split at done
        · exact ih others done
        · cases done

/-- Between two system calls the pipe is empty, and a call that has not returned has moved nothing. -/
structure Sound (copy : ZeroCopy) : Prop where
  exact : copy.Exact
  empty : copy.pipe.getD [] = []
  pending : ∀ (id : Nat) (call : CopyCall), copy.calls[id]? = some call → call.result = none →
    call.offset = call.start

theorem sound_new : Sound new where
  exact := { calls := nofun, own := nofun }
  empty := rfl
  pending := nofun

theorem received_append (streams : copy.streams call.socket = stream ++ sent) :
    copy.received id call = (stream.filter fun taken => taken.1 = id).map Prod.snd ++
      (sent.filter fun taken => taken.1 = id).map Prod.snd := by
  rw [received, streams, List.filter_append, List.map_append]

theorem filter_take (call : CopyCall) (id count other : Nat) :
    ((call.take id count).filter fun taken => taken.1 = other).map Prod.snd =
      if id = other then (call.file.drop call.offset).take count else [] := by
  unfold CopyCall.take
  split
  · rename_i same
    rw [List.filter_eq_self.mpr, List.map_map]
    · exact List.map_id _
    · intro taken member
      obtain ⟨byte, _, rfl⟩ := List.mem_map.mp member
      exact decide_eq_true same
  · rename_i apart
    rw [List.filter_eq_nil_iff.mpr, List.map_nil]
    intro _ member
    obtain ⟨_, _, rfl⟩ := List.mem_map.mp member
    exact mt of_decide_eq_true apart

theorem received_other {other count : Nat} {there : CopyCall}
    (streams : after.streams = Function.update copy.streams call.socket
      (copy.streams call.socket ++ call.take id count))
    (apart : id ≠ other) : after.received other there = copy.received other there := by
  by_cases shared : there.socket = call.socket
  · have stream : after.streams there.socket = copy.streams there.socket ++ call.take id count := by
      rw [streams, shared, Function.update_self]
    rw [received_append stream, filter_take, if_neg apart, List.append_nil, received]
  · rw [received, streams, Function.update_of_ne shared, received]

theorem socket_set {calls : List CopyCall} {index : Nat} {next found : CopyCall}
    (here : calls[id]? = some call) (socket : next.socket = call.socket)
    (at_ : calls[index]? = some found) :
    ∃ call, (calls.set id next)[index]? = some call ∧ call.socket = found.socket := by
  by_cases this : id = index
  · cases this
    cases here.symm.trans at_
    exact ⟨next, List.getElem?_set_self (List.getElem?_eq_some_iff.mp here).1, socket⟩
  · exact ⟨found, (List.getElem?_set_ne this).trans at_, rfl⟩

/-- A call that has not returned moves so many bytes, and goes on or returns. -/
theorem Sound.advance {next : CopyCall} {count : Nat} (sound : copy.Sound)
    (here : copy.calls[id]? = some call) (live : call.result = none)
    (calls : after.calls = copy.calls.set id next)
    (streams : after.streams = Function.update copy.streams call.socket
      (copy.streams call.socket ++ call.take id count)) (empty : after.pipe.getD [] = [])
    (same : next.socket = call.socket ∧ next.file = call.file ∧ next.start = call.start ∧
      next.offset = call.offset + count)
    (enough : count ≤ call.file.length - call.offset)
    (result : ∀ moved, next.result = some (.ok moved) → moved = count)
    (pending : next.result = none → count = 0) : after.Sound := by
  obtain ⟨socket, file, start, offset⟩ := same
  have begun := sound.pending id call here live
  have nothing : (copy.received id call).length = 0 := by
    have size := (sound.exact.calls id call here).offset
    omega
  have own : after.received id next = (call.file.drop call.offset).take count := by
    have stream : after.streams next.socket = copy.streams call.socket ++ call.take id count := by
      rw [streams, socket, Function.update_self]
    rw [received_append stream, filter_take, if_pos rfl, ← received,
      List.length_eq_zero_iff.mp nothing, List.nil_append]
  have length : (after.received id next).length = count := by
    rw [own, List.length_take, List.length_drop]
    omega
  have kept (index : Nat) (found : CopyCall) (at_ : copy.calls[index]? = some found) :
      ∃ call, after.calls[index]? = some call ∧ call.socket = found.socket := by
    rw [calls]
    exact socket_set here socket at_
  refine ⟨⟨?_, ?_⟩, empty, ?_⟩
  · intro other there at_
    rcases Pool.getElem?_set_cases (calls ▸ at_) with ⟨rfl, rfl⟩ | ⟨apart, before⟩
    · refine ⟨?_, ?_, ?_⟩
      · rw [length, own, file, start, begun]
      · rw [length, offset, start, begun]
      · rw [length]
        exact result
    · obtain ⟨bytes, offset, result⟩ := sound.exact.calls other there before
      rw [← received_other streams (Ne.symm apart)] at bytes offset result
      exact ⟨bytes, offset, result⟩
  · intro other taken member
    by_cases shared : other = call.socket
    · rw [streams, shared, Function.update_self] at member
      rcases List.mem_append.mp member with before | new
      · obtain ⟨found, at_, same⟩ := sound.exact.own call.socket taken before
        obtain ⟨_, there, equal⟩ := kept taken.1 found at_
        exact ⟨_, there, equal.trans (same.trans shared.symm)⟩
      · obtain ⟨_, _, rfl⟩ := List.mem_map.mp new
        obtain ⟨_, there, equal⟩ := kept id call here
        exact ⟨_, there, equal.trans shared.symm⟩
    · rw [streams, Function.update_of_ne shared] at member
      obtain ⟨found, at_, same⟩ := sound.exact.own other taken member
      obtain ⟨_, there, equal⟩ := kept taken.1 found at_
      exact ⟨_, there, equal.trans same⟩
  · intro other there at_ unreturned
    rcases Pool.getElem?_set_cases (calls ▸ at_) with ⟨rfl, rfl⟩ | ⟨_, before⟩
    · rw [offset, pending unreturned, start, begun, Nat.add_zero]
    · exact sound.pending other there before unreturned

theorem Sound.set {next : CopyCall} (sound : copy.Sound) (here : copy.calls[id]? = some call)
    (live : call.result = none) (calls : after.calls = copy.calls.set id next)
    (streams : after.streams = copy.streams) (empty : after.pipe.getD [] = [])
    (same : next.socket = call.socket ∧ next.file = call.file ∧ next.start = call.start ∧
      next.offset = call.offset) (result : ∀ moved, next.result = some (.ok moved) → moved = 0) :
    after.Sound := by
  have unmoved : next.offset = call.offset + 0 := same.2.2.2
  refine sound.advance here live calls ?_ empty ⟨same.1, same.2.1, same.2.2.1, unmoved⟩
    (Nat.zero_le _) result fun _ => rfl
  rw [streams, CopyCall.take, List.take_zero, List.map_nil, List.append_nil, Function.update_eq_self]

theorem callExact_of_nothing (nothing : copy.received id call = [])
    (unmoved : call.offset = call.start) (unreturned : call.result = none) :
    copy.CallExact id call := by
  refine ⟨?_, ?_, ?_⟩
  · rw [nothing, List.length_nil, List.take_zero]
  · rw [nothing, unmoved, List.length_nil, Nat.add_zero]
  · intro _ returned
    rw [unreturned] at returned
    cases returned

theorem Sound.begin {socket offset count : Nat} {file : Bytes} (sound : copy.Sound)
    (taken : step platform copy (.call socket file offset count) = some after) : after.Sound := by
  cases taken
  have unknown : copy.received copy.calls.length
      { socket, file, start := offset, count, offset, retries := 0, writable := false,
        result := none } = [] := by
    rw [received, List.filter_eq_nil_iff.mpr, List.map_nil]
    intro taken member same
    obtain ⟨found, at_, _⟩ := sound.exact.own socket taken member
    rw [of_decide_eq_true same, List.getElem?_eq_none (Nat.le_refl _)] at at_
    cases at_
  refine ⟨⟨?_, ?_⟩, sound.empty, ?_⟩
  · intro other there at_
    rcases Pool.getElem?_called at_ with before | ⟨rfl, rfl⟩
    · obtain ⟨bytes, offset, result⟩ := sound.exact.calls other there before
      exact ⟨bytes, offset, result⟩
    · exact callExact_of_nothing unknown rfl rfl
  · intro socket taken member
    obtain ⟨found, at_, same⟩ := sound.exact.own socket taken member
    exact ⟨found, by rw [List.getElem?_append_left (List.getElem?_eq_some_iff.mp at_).1, at_], same⟩
  · intro other there at_ unreturned
    rcases Pool.getElem?_called at_ with before | ⟨rfl, rfl⟩
    · exact sound.pending other there before unreturned
    · rfl

theorem Sound.fail (sound : copy.Sound) (here : copy.calls[id]? = some call)
    (live : call.result = none) (failure : Errno) :
    (copy.return_ id call (.error failure)).Sound :=
  sound.set here live rfl rfl sound.empty ⟨rfl, rfl, rfl, rfl⟩ nofun

theorem Sound.writable {failure : Option Errno} (sound : copy.Sound)
    (taken : step platform copy (.writable id failure) = some after) : after.Sound := by
  dsimp only [step] at taken
  split at taken
  · cases taken
  · rename_i call here
    split at taken
    · cases taken
    · rename_i waiting
      have live : call.result = none := by
        cases result : call.result with
        | none => rfl
        | some => exact absurd (.inr (by rw [result]; rfl)) waiting
      split at taken
      · cases taken
        exact sound.fail here live _
      · cases taken
        refine sound.set here live rfl rfl sound.empty ⟨rfl, rfl, rfl, rfl⟩ ?_
        intro _ returned
        rw [live] at returned
        cases returned

/-- Where nothing fails on the way to the socket, the pipe is empty again afterwards. -/
theorem Sound.spliceImpl {splice : SpliceResults} (sound : copy.Sound)
    (here : copy.calls[id]? = some call) (live : call.result = none)
    (clean : (copy.pipe = none → splice.pipe2 = none) → splice.spliceIn.error = none →
      0 < splice.spliceIn.moved →
      ∀ result ∈ splice.spliceOut, result.error = none ∨ result.error = some .again)
    (taken : copy.spliceImpl id call splice = some after) : after.Sound := by
  unfold ZeroCopy.spliceImpl at taken
  split at taken
  · cases taken
    exact sound.fail here live _
  · rename_i made
    have opened : copy.pipe = none → splice.pipe2 = none := by
      intro none
      cases failed : splice.pipe2 with
      | none => rfl
      | some failure => exact absurd failed (made failure none)
    dsimp only at taken
    rw [sound.empty, List.nil_append] at taken
    split at taken
    · cases taken
      exact sound.set here live rfl rfl rfl ⟨rfl, rfl, rfl, rfl⟩ nofun
    · rename_i read
      split at taken
      · cases taken
      · rename_i allowed
        have enough : splice.spliceIn.moved ≤ call.file.length - call.offset := by
          rw [Bool.not_eq_false, CopyCall.allows, Bool.and_eq_true] at allowed
          exact of_decide_eq_true allowed.2
        split at taken
        · cases taken
          refine sound.set here live rfl rfl rfl ⟨rfl, rfl, rfl, rfl⟩ ?_
          rintro moved ⟨⟩
          rfl
        · rename_i some_
          have clean := clean opened read (Nat.pos_of_ne_zero some_)
          split at taken
          · cases taken
          · rename_i failed
            cases spliceOut_clean clean failed
          · rename_i done
            cases taken
            obtain ⟨rfl, rfl⟩ := spliceOut_done done
            have length : (call.take id splice.spliceIn.moved).length = splice.spliceIn.moved := by
              rw [CopyCall.take, List.length_map, List.length_take, List.length_drop]
              omega
            rw [List.nil_append, List.take_of_length_le (Nat.le_of_eq length)]
            refine sound.advance here live rfl rfl ?_ ⟨rfl, rfl, rfl, rfl⟩ enough ?_ nofun
            · exact List.drop_of_length_le (Nat.le_of_eq length)
            · rintro _ ⟨⟩
              rfl

theorem Sound.attempt {sendfile : SysResult} {splice : SpliceResults} (sound : copy.Sound)
    (clean : clean platform copy (.attempt id sendfile splice))
    (taken : step platform copy (.attempt id sendfile splice) = some after) : after.Sound := by
  dsimp only [step] at taken
  split at taken
  · cases taken
  · rename_i here
    split at taken
    · rename_i ready
      have live := Option.isNone_iff_eq_none.mp ready.2
      unfold ZeroCopy.attempt at taken
      split at taken
      · cases taken
        exact sound.fail here live _
      · split at taken
        · cases taken
        · rename_i sendfile
          split at taken
          · rename_i allowed
            cases taken
            rw [CopyCall.allows, Bool.and_eq_true] at allowed
            refine sound.advance here live rfl rfl sound.empty ⟨rfl, rfl, rfl, rfl⟩
              (of_decide_eq_true allowed.2) ?_ nofun
            rintro moved ⟨⟩
            rfl
          · cases taken
        · rename_i failure returned
          split at taken
          · rename_i spliced
            refine sound.spliceImpl here live (clean spliced.1 ?_) taken
            have same : sendfile.error = some failure := by
              unfold sendfileImpl at returned
              split at returned
              · cases returned
              · rename_i code
                split at returned
                · cases returned
                  exact code
                · split at returned <;> cases returned
            rw [same]
            exact spliced.2.imp (congrArg some) (.imp (congrArg some) (congrArg some))
          · split at taken
            · split at taken
              · cases taken
                exact sound.set here live rfl rfl sound.empty ⟨rfl, rfl, rfl, rfl⟩ nofun
              · cases taken
                refine sound.set here live rfl rfl sound.empty ⟨rfl, rfl, rfl, rfl⟩ ?_
                intro _ returned
                rw [live] at returned
                cases returned
            · cases taken
              exact sound.fail here live _
    · cases taken

theorem Sound.step (sound : copy.Sound) (clean : clean platform copy event)
    (taken : step platform copy event = some after) :
    after.Sound := by
  cases event with
  | call => exact sound.begin taken
  | writable => exact sound.writable taken
  | attempt => exact sound.attempt clean taken

/-- Whatever the system calls return, a run is exact while no splice to a socket fails. -/
theorem exact_of_run (platform : Platform) {events : List CopyEvent} {final : ZeroCopy}
    (run : Execution (step platform) (clean platform) new events final) : final.Exact :=
  (run.invariant Sound (fun _ _ _ sound clean taken => sound.step clean taken) sound_new).exact

/-- The splice moves one byte, the socket is not writable for a while, and then the byte goes out. -/
theorem exact_of_splice :
    ∃ final, ZeroCopy.Exact final ∧ (final.calls.map CopyCall.result) = [some (.ok 1)] := by
  obtain ⟨final, run, returned⟩ : ∃ final, Execution (step .linux) (clean .linux) new
      [.call 0 [7] 0 1, .writable 0 none,
        .attempt 0 ⟨some .inval, 0⟩ ⟨none, ⟨none, 1⟩, [⟨some .again, 0⟩, ⟨none, 1⟩]⟩] final ∧
        final.calls.map CopyCall.result = [some (.ok 1)] := by
    refine ⟨_, .next trivial rfl (.next trivial rfl (.next ?_ rfl .done)), rfl⟩
    rintro - - - - - _ member
    rcases List.mem_cons.mp member with rfl | member
    · exact .inr rfl
    · cases List.mem_singleton.mp member
      exact .inl rfl
  exact ⟨final, exact_of_run .linux run, returned⟩

/-- The connection is reset when two bytes are in the pipe, and the next call has another socket
receive them. -/
theorem not_exact_after_reset :
    ¬ ∀ (events : List CopyEvent) (final : ZeroCopy),
      Execution (step .linux) anything new events final → final.Exact := by
  intro all
  obtain ⟨final, run, stream⟩ : ∃ final, Execution (step .linux) anything new
      [.call 0 [1, 2] 0 2, .writable 0 none,
        .attempt 0 ⟨some .inval, 0⟩ ⟨none, ⟨none, 2⟩, [⟨some (.other 104), 0⟩]⟩,
        .call 1 [8, 9] 0 2, .writable 1 none,
        .attempt 1 ⟨some .inval, 0⟩ ⟨none, ⟨none, 2⟩, [⟨none, 2⟩]⟩] final ∧
        (final.streams 1, final.calls.map CopyCall.socket) = ([(0, 1), (0, 2)], [0, 1]) :=
    ⟨_, .next trivial rfl
      (.next trivial rfl (.next trivial rfl
        (.next trivial rfl (.next trivial rfl (.next trivial rfl .done))))), rfl⟩
  obtain ⟨received, sockets⟩ := Prod.mk.inj stream
  obtain ⟨call, at_, same⟩ := (all _ final run).own 1 (0, 1) (by rw [received]; exact List.mem_cons_self)
  have first : (final.calls.map CopyCall.socket)[0]? = some call.socket := by
    rw [List.getElem?_map, at_]; rfl
  rw [sockets, same] at first
  cases first

end ZeroCopy

end DistributedOs.Engine
