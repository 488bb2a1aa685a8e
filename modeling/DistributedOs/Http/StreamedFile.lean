import DistributedOs.Http.SendStreaming

/-! What a call of `send_streaming` puts on the stream when every operation it awaits succeeds. -/

namespace DistributedOs.Http.SendStreaming

open Semantics Reliable

variable {F : Type}

/-- Nothing fails, the token is not seen cancelled, and the file is as long as the caller says. -/
structure Call.Smooth (call : Call F) : Prop where
  fileSize : call.fileSize = call.file.length
  headerWrite : call.headerWrite = .done
  openFile : call.openFile = .ok ()
  skips : ∀ index, call.skips index = .ok ()
  read : ∀ index, (call.turns index).read = .ok ()
  write : ∀ index, (call.turns index).write = .done
  cancelled : ∀ index, (call.turns index).cancelled = none
  interrupted : ∀ index, (call.turns index).interrupted = none
  shutdown : call.shutdown = .ok ()

/-- The header and the rest of the file are on the stream, and the whole file is hashed; past the
end of the file there is an error and no body. -/
structure Outcome.Delivers (outcome : Outcome) (call : Call F)
    (sha256 : Bytes → String) : Prop where
  wire : call.resumeOffset ≤ call.fileSize →
    outcome.wire = call.header ++ call.file.drop call.resumeOffset
  hash : call.resumeOffset ≤ call.fileSize →
    ∃ sent, outcome.returned = some (.ok sent (sha256 call.file))
  refused : call.fileSize < call.resumeOffset → (∃ text, outcome.returned = some (.err text)) ∧
    outcome.body = []

namespace Call

variable {call : Call F} {index fuel : Nat} {hashed : Bytes} {sha256 : Bytes → String}

/-- The skipped part is read from where the loop stands, if the file has that much. -/
theorem skipLoop_eq {file : Bytes} {skips : Nat → Except String Unit}
    (skipped : ∀ index, skips index = .ok ()) (enough : remaining ≤ fuel)
    (inside : offset ≤ file.length) :
    skipLoop file skips fuel index offset remaining hashed =
      if offset + remaining ≤ file.length then .ok (hashed ++ (file.drop offset).take remaining)
      else .error "early eof" := by
  induction fuel generalizing index offset remaining hashed with
  | zero =>
    obtain rfl : remaining = 0 := Nat.le_zero.mp enough
    simp [skipLoop, inside]
  | succ _ ih =>
    unfold skipLoop
    by_cases more : 0 < remaining
    · have positive : 0 < min remaining 65536 := by omega
      have within : min remaining 65536 ≤ remaining := Nat.min_le_left _ _
      rw [if_pos more]
      simp only [skipped, readExact]
      generalize min remaining 65536 = toRead at positive within ⊢
      by_cases read : offset + toRead ≤ file.length
      · have rest : offset + toRead + (remaining - toRead) = offset + remaining := by omega
        simp only [if_pos read]
        rw [ih (by omega) read, rest, List.append_assoc, ← List.drop_drop, ← List.take_add,
          Nat.add_sub_cancel' within]
      · rw [if_neg read, if_neg (by omega)]
    · obtain rfl : remaining = 0 := by omega
      simp [inside]

theorem Smooth.prepare (smooth : call.Smooth) :
    call.prepare = if call.resumeOffset ≤ call.file.length then
      .ok (call.file.take call.resumeOffset)
      else .error "early eof" := by
  have skipped : skipLoop call.file call.skips call.resumeOffset 0 0 call.resumeOffset [] = _ :=
    skipLoop_eq smooth.skips (Nat.le_refl call.resumeOffset) (Nat.zero_le call.file.length)
  rw [Nat.zero_add, List.drop_zero, List.nil_append] at skipped
  rw [Call.prepare, smooth.headerWrite, smooth.openFile, skipped]
  split <;> rfl

theorem Smooth.proceeds (smooth : call.Smooth)
    (within : call.resumeOffset ≤ call.fileSize) (index : Nat) :
    call.Proceeds index := by
  refine ⟨fun _ => smooth.cancelled index, fun _ =>
    ⟨smooth.read index, ?_, fun _ => smooth.interrupted index⟩,
    fun _ _ => smooth.write index⟩
  rw [← smooth.fileSize, chunkOffset, chunkLength, left, if_pos within]
  omega

theorem Smooth.content (smooth : call.Smooth) (within : call.resumeOffset ≤ call.fileSize) :
    call.content = call.file.drop call.resumeOffset := by
  rw [Call.content, left, if_pos within, smooth.fileSize]
  exact List.take_of_length_le (by rw [List.length_drop])

theorem chunkLength_eq_zero_of_le (sent : call.chunkLength index = 0) (le : index ≤ later) :
    call.chunkLength later = 0 := by
  have positive := call.cs_pos
  have more := Nat.mul_le_mul_right call.cs le
  unfold chunkLength at sent ⊢
  omega

section
variable [Floating F]

def PacedFrom (call : Call F) (index : Nat) : Prop :=
  ∀ later, index ≤ later → call.chunkLength later ≠ 0 → (call.turns later).paced (call.chunkLength later)

theorem pacedFrom_iff :
    call.PacedFrom index ↔
      (call.chunkLength index ≠ 0 → (call.turns index).paced (call.chunkLength index)) ∧
      call.PacedFrom (index + 1) := by
  constructor
  · intro paced
    exact ⟨paced index (Nat.le_refl _), fun later le => paced later (Nat.le_of_succ_le le)⟩
  · rintro ⟨here, paced⟩ later le unsent
    rcases Nat.eq_or_lt_of_le le with rfl | lt
    · exact here unsent
    · exact paced later lt unsent

/-- The chunks are taken whole, and the loop runs to its end unless a pause is not a duration. -/
theorem Smooth.sendLoop (smooth : call.Smooth) (within : call.resumeOffset ≤ call.fileSize)
    (hashed : Bytes) (enough : left call.fileSize call.resumeOffset - index * call.cs < fuel) :
    (∀ chunk ∈ (call.sendLoop fuel index (call.chunkOffset index) hashed).1, chunk.2 = chunk.1) ∧
      (call.sendLoop fuel index (call.chunkOffset index) hashed).2.1 = [] ∧
      ∃ ended, (call.sendLoop fuel index (call.chunkOffset index) hashed).2.2 = some ended ∧
        (call.PacedFrom index ↔ ∃ offset whole, ended = .finished offset whole) := by
  induction fuel generalizing index hashed with
  | zero => exact absurd enough (Nat.not_lt_zero _)
  | succ _ ih =>
    have turn := call.iteration_cases index hashed
    unfold Call.sendLoop
    generalize call.iteration index (call.chunkOffset index) hashed = step at turn ⊢
    cases turn with
    | failed stops => exact absurd (smooth.proceeds within index) stops
    | finished _ sent =>
      refine ⟨by simp, rfl, _, rfl, iff_of_true ?_ ⟨_, _, rfl⟩⟩
      intro _ le unsent
      exact absurd (chunkLength_eq_zero_of_le sent le) unsent
    | panicked _ unsent unpaced =>
      refine ⟨by simp [smooth.write, WriteAll.accepts], rfl, _, rfl, iff_of_false ?_ (by rintro ⟨_, _, ⟨⟩⟩)⟩
      intro paced
      exact unpaced (paced index (Nat.le_refl _) unsent)
    | next proceeds unsent paced =>
      simp only [(proceeds.reads unsent).length_chunk, call.chunkOffset_succ]
      obtain ⟨whole, noFrame, ended, stopped, iff⟩ := ih (hashed ++ call.chunk index)
        (call.fuel_succ unsent enough)
      refine ⟨List.forall_mem_cons.mpr ⟨by simp [smooth.write, WriteAll.accepts], whole⟩, noFrame,
        ended, stopped, ?_⟩
      rw [pacedFrom_iff, ← iff]
      exact and_iff_right fun _ => paced

/-- The header is written only at the start of a file, and a pause that is no duration panics;
nothing else keeps a call from delivering. -/
theorem fileDelivered_iff (smooth : call.Smooth) (sha256 : Bytes → String) :
    (call.sendStreaming sha256).Delivers call sha256 ↔
      call.fileSize < call.resumeOffset ∨
      ((call.resumeOffset = 0 ∨ call.header = []) ∧ call.PacedFrom 0) := by
  rcases Nat.lt_or_ge call.fileSize call.resumeOffset with beyond | within
  · have prepared : call.prepare = .error "early eof" := by
      rw [smooth.prepare, if_neg (by rw [← smooth.fileSize]; omega)]
    have outcome : (call.sendStreaming sha256).returned = some (.err "early eof") ∧
        (call.sendStreaming sha256).chunks = [] := by
      simp [sendStreaming, prepared]
    refine iff_of_true ⟨fun le => absurd le (Nat.not_le.mpr beyond), fun le =>
      absurd le (Nat.not_le.mpr beyond), fun _ => ?_⟩
        (.inl beyond)
    exact ⟨⟨_, outcome.1⟩, by rw [Outcome.body, outcome.2]; rfl⟩
  · have prepared : call.prepare = .ok (call.file.take call.resumeOffset) := by
      rw [smooth.prepare, if_pos (by rw [← smooth.fileSize]; exact within)]
    obtain ⟨chunks, _, _, looped, outcome⟩ := call.sendStreaming_prepared sha256 prepared
    obtain ⟨whole, noFrame, last, stopped, finished⟩ :=
      smooth.sendLoop within (call.file.take call.resumeOffset)
        (show left call.fileSize call.resumeOffset - 0 * call.cs <
          left call.fileSize call.resumeOffset + 1 by omega)
    rw [looped] at whole noFrame stopped
    simp only at whole noFrame stopped
    subst noFrame stopped
    have rest : call.PacedFrom 0 → chunks.flatMap Prod.snd = call.file.drop call.resumeOffset ∧
        ∃ sent, call.finish sha256 last = .ok sent (sha256 call.file) := by
      intro paced
      obtain ⟨offset, hash, rfl⟩ := finished.mp paced
      have read := call.sendLoop_finished (congrArg (·.2.2) looped)
      rw [looped, rest_zero, smooth.content within, List.take_append_drop] at read
      refine ⟨?_, offset, ?_⟩
      · rw [← read.1]
        exact List.flatMap_congr whole
      · rw [finish, smooth.shutdown, read.2]
    rw [outcome]
    constructor
    · rintro ⟨wire, hash, _⟩
      obtain ⟨sent, returned⟩ := hash within
      have paced : call.PacedFrom 0 := by
        refine finished.mpr ?_
        cases last with
        | finished offset whole => exact ⟨offset, whole, rfl⟩
        | failed => cases returned
        | panicked => cases returned
      refine .inr ⟨?_, paced⟩
      by_contra! later
      have wire := wire within
      simp only [Outcome.wire, Outcome.body, if_neg later.1, (rest paced).1, List.nil_append,
        List.append_nil] at wire
      exact later.2 (List.append_left_eq_self.mp wire.symm)
    · rintro (beyond | ⟨start, paced⟩)
      · exact absurd beyond (Nat.not_lt.mpr within)
      · obtain ⟨body, sent, returned⟩ := rest paced
        have head : (if call.resumeOffset = 0 then call.headerWrite.accepts call.header else []) =
            call.header := by
          rcases start with start | empty
          · rw [if_pos start, smooth.headerWrite, WriteAll.accepts]
          · simp [empty, smooth.headerWrite, WriteAll.accepts]
        refine ⟨fun _ => ?_, fun _ => ⟨sent, congrArg some returned⟩, fun beyond =>
          absurd beyond (Nat.not_lt.mpr within)⟩
        simp only [Outcome.wire, Outcome.body, head, body, List.append_nil]

/-- Three bytes in chunks of two at a megabit per second, from the start. -/
theorem delivers_from_start : ∃ call : Call Rat, call.Smooth ∧ call.resumeOffset = 0 ∧
      call.file = [1, 2, 3] ∧
    (call.sendStreaming fun _ =>
      "039058c6f2c0cb492c533b0a4d14ef77cc0f78abccced5287d84a1a2011cfb81").Delivers call
        fun _ => "039058c6f2c0cb492c533b0a4d14ef77cc0f78abccced5287d84a1a2011cfb81" := by
  let turn : Turn Rat := {
    cancelled := none, read := .ok (), interrupted := none, write := .done, frame := .done
    throughputLimitMbps := some 1, elapsed := 0 }
  let call : Call Rat := {
    header := [80, 79, 83, 84], file := [1, 2, 3], fileSize := 3, chunkSize := 2,
      resumeOffset := 0, token := true
    headerWrite := .done, openFile := .ok (), skips := fun _ => .ok (), turns := fun _ =>
      turn, shutdown := .ok () }
  have smooth : call.Smooth :=
    ⟨rfl, rfl, rfl, fun _ => rfl, fun _ => rfl, fun _ => rfl, fun _ => rfl, fun _ => rfl, rfl⟩
  have paced : call.PacedFrom 0 := by
    intro later _ unsent
    have small : call.chunkLength later ≤ 2 := Nat.min_le_right _ _
    change turn.paced (call.chunkLength later)
    generalize call.chunkLength later = readSize at unsent small
    obtain rfl | rfl : readSize = 1 ∨ readSize = 2 := by omega
    · decide +kernel
    · decide +kernel
  exact ⟨call, smooth, rfl, rfl, (fileDelivered_iff smooth _).mpr (.inr ⟨.inl rfl, paced⟩)⟩

/-- Resumed at its second byte, the file goes out without a header. -/
theorem resumed_without_header :
    ∃ call : Call Rat, call.Smooth ∧ call.resumeOffset ≤ call.fileSize ∧
    ¬ (call.sendStreaming fun _ =>
      "039058c6f2c0cb492c533b0a4d14ef77cc0f78abccced5287d84a1a2011cfb81").Delivers call
        fun _ => "039058c6f2c0cb492c533b0a4d14ef77cc0f78abccced5287d84a1a2011cfb81" := by
  let turn : Turn Rat := {
    cancelled := none, read := .ok (), interrupted := none, write := .done, frame := .done
    throughputLimitMbps := none, elapsed := 0 }
  let call : Call Rat := {
    header := [80, 79, 83, 84], file := [1, 2, 3], fileSize := 3, chunkSize := 65536,
      resumeOffset := 1, token := false
    headerWrite := .done, openFile := .ok (), skips := fun _ => .ok (), turns := fun _ =>
      turn, shutdown := .ok () }
  refine ⟨call, ⟨rfl, rfl, rfl, fun _ => rfl, fun _ => rfl, fun _ => rfl, fun _ => rfl, fun _ =>
    rfl, rfl⟩, by decide, ?_⟩
  intro delivers
  have wire := delivers.wire (by decide)
  revert wire
  decide

end

end Call

end DistributedOs.Http.SendStreaming
