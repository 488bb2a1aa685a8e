import DistributedOs.Datagram.Retransmission

/-! Acknowledgements are not checked against what was sent. What the sender does under any of
them, and under those of chunks that it has sent. -/

namespace DistributedOs.Datagram

open Semantics

def SenderPhase.Opening : SenderPhase → Prop
  | .requesting _ | .awaitingResponse _ => True
  | _ => False

def SenderPhase.Looping : SenderPhase → Prop
  | .filling | .waiting => True
  | _ => False

theorem SenderPhase.Opening.not_looping {phase : SenderPhase} (opening : phase.Opening) :
    ¬ phase.Looping := by
  cases phase with
  | requesting _ | awaitingResponse _ => exact False.elim
  | _ => exact opening.elim

theorem SenderPhase.Closed.not_before {phase : SenderPhase} (closed : phase.Closed) :
    ¬ phase.Opening ∧ ¬ phase.Looping := by
  cases phase with
  | requesting _ | awaitingResponse _ | filling | waiting => exact closed.elim
  | _ => exact ⟨False.elim, False.elim⟩

namespace Sender

variable {sender after : Sender} {event : SenderEvent} {protocol : Protocol} {file : FileData}

/-- Nothing of the window changes, and the data loop is neither entered nor left but with an error. -/
structure Rests (sender : Sender) (event : SenderEvent) (after : Sender) : Prop where
  file : after.file = sender.file
  ackedSeqs : after.ackedSeqs = sender.ackedSeqs
  phase : (sender.phase.Opening ∧ after.phase.Opening) ∨ after.phase = .returned false ∨
    (sender.phase.Closed ∧ after.phase.Closed) ∨ after.phase = sender.phase
  noFill : event = .proceed → sender.phase ≠ .filling
  noAck : event = .takeAck → sender.phase ≠ .waiting

inductive Turned (sender : Sender) : SenderEvent → Sender → Prop where
  | rests {event : SenderEvent} {after : Sender} (rests : sender.Rests event after) :
    Turned sender event after
  | fills (filling : sender.phase = .filling) : Turned sender .proceed sender.fill.1
  | enters {packet : Bytes} (opening : sender.phase.Opening) :
      Turned sender (.datagram packet) { sender with readerRuns := true }.proceed
  | retransmits (waits : sender.phase = .waiting) : Turned sender .timeout sender.retransmit.1
  | closed (waits : sender.phase = .waiting) (empty : sender.channel = []) :
    Turned sender .takeAck sender.proceed
  | takes {value : Nat} {channel : List Nat} (waits : sender.phase = .waiting)
    (full : sender.channel = value :: channel) :
      Turned sender .takeAck ({ sender with channel }.takeAck (some value))

section Turns

variable {sent : List Bytes} {packet : Bytes}

theorem proceedStep_turned (stepped : sender.proceedStep = some (after, sent)) :
    Turned sender .proceed after := by
  unfold proceedStep at stepped
  split at stepped
  · rename_i attempts requesting
    split at stepped <;> cases stepped
    · exact .rests ⟨rfl, rfl, .inl ⟨by rw [requesting]; trivial, trivial⟩,
        fun _ => by simp [requesting], nofun⟩
    · exact .rests ⟨rfl, rfl, .inr (.inl rfl), fun _ => by simp [requesting], nofun⟩
  · rename_i filling
    have same : sender.fill.1 = after := congrArg Prod.fst (Option.some.inj stepped)
    exact same ▸ .fills filling
  · rename_i closing
    have closed : sender.phase.Closed := by
      rw [closing]
      trivial
    split at stepped <;> cases stepped
    · exact .rests ⟨rfl, rfl, .inr (.inr (.inl ⟨closed, trivial⟩)), fun _ => by simp [closing], nofun⟩
    · exact .rests ⟨rfl, rfl, .inr (.inr (.inl ⟨closed, trivial⟩)), fun _ => by simp [closing], nofun⟩
  · cases stepped

theorem timeoutStep_turned (stepped : sender.timeoutStep = some (after, sent)) :
    Turned sender .timeout after := by
  unfold timeoutStep at stepped
  split at stepped
  · rename_i attempts awaiting
    cases stepped
    exact .rests ⟨rfl, rfl, .inl ⟨by rw [awaiting]; trivial, trivial⟩, nofun, nofun⟩
  · rename_i waits
    have same : sender.retransmit.1 = after := congrArg Prod.fst (Option.some.inj stepped)
    exact same ▸ .retransmits waits
  · rename_i awaiting
    cases stepped
    exact .rests ⟨rfl, rfl, .inr (.inr (.inl ⟨by rw [awaiting]; trivial, trivial⟩)), nofun, nofun⟩
  · cases stepped

theorem takeAckStep_turned (stepped : sender.takeAckStep = some (after, sent)) :
    Turned sender .takeAck after := by
  unfold takeAckStep at stepped
  split at stepped
  · rename_i waits
    obtain ⟨⟨next, seq⟩, received, same⟩ := Option.map_eq_some_iff.mp stepped
    cases same
    unfold receive at received
    split at received
    · rename_i full
      cases received
      exact .takes waits full
    · rename_i empty
      split at received <;> cases received
      exact .closed waits empty
  · rename_i awaiting
    obtain ⟨⟨_, _⟩, received, same⟩ := Option.map_eq_some_iff.mp stepped
    obtain ⟨_, rfl, _⟩ := receive_cases received
    cases same
    refine .rests ⟨rfl, rfl, .inr (.inr (.inl ⟨by rw [awaiting]; trivial, ?_⟩)), nofun,
      fun _ => by simp [awaiting]⟩
    dsimp only
    split <;> trivial
  · cases stepped

theorem datagramStep_turned (stepped : sender.datagramStep packet = some (after, sent)) :
    Turned sender (.datagram packet) after := by
  unfold datagramStep at stepped
  split at stepped
  · rename_i awaiting
    have opening : sender.phase.Opening := by
      rw [awaiting]
      trivial
    split at stepped <;> cases stepped
    · exact .enters opening
    · exact .rests ⟨rfl, rfl, .inl ⟨opening, trivial⟩, nofun, nofun⟩
  · split at stepped <;> cases stepped
    obtain ⟨_, _, same⟩ := read_keeps sender packet
    rw [same]
    exact .rests ⟨rfl, rfl, .inr (.inr (.inr rfl)), nofun, nofun⟩

theorem receiveErrorStep_turned (stepped : sender.receiveErrorStep = some (after, sent)) :
    Turned sender .receiveError after := by
  unfold receiveErrorStep at stepped
  split at stepped
  · rename_i awaiting
    cases stepped
    exact .rests ⟨rfl, rfl, .inl ⟨by rw [awaiting]; trivial, trivial⟩, nofun, nofun⟩
  · split at stepped <;> cases stepped
    exact .rests ⟨rfl, rfl, .inr (.inr (.inr rfl)), nofun, nofun⟩

end Turns

theorem turned (taken : sender.turn event = some after) : Turned sender event after := by
  obtain ⟨⟨_, _⟩, stepped, rfl⟩ := Option.map_eq_some_iff.mp taken
  dsimp only
  cases event with
  | proceed => exact proceedStep_turned stepped
  | timeout => exact timeoutStep_turned stepped
  | takeAck => exact takeAckStep_turned stepped
  | datagram => exact datagramStep_turned stepped
  | receiveError => exact receiveErrorStep_turned stepped
  | socketError =>
    simp only [Sender.step, socketErrorStep] at stepped
    split at stepped <;> cases stepped <;>
      exact .rests ⟨rfl, rfl, .inr (.inl rfl), by rintro ⟨⟩, by rintro ⟨⟩⟩
  | advance =>
    cases stepped
    exact .rests ⟨rfl, rfl, .inr (.inr (.inr rfl)), by rintro ⟨⟩, by rintro ⟨⟩⟩

@[simp] theorem proceed_ackedSeqs (sender : Sender) : sender.proceed.ackedSeqs = sender.ackedSeqs :=
  rfl

theorem proceed_phase (sender : Sender) :
    (sender.proceed.phase = .filling ∧ sender.ackedSeqs.card < sender.file.numChunks) ∨
    (sender.proceed.phase = .closing 0 ∧ sender.file.numChunks ≤ sender.ackedSeqs.card) := by
  unfold proceed
  by_cases fewer : sender.ackedSeqs.card < sender.file.numChunks
  · exact .inl ⟨if_pos fewer, fewer⟩
  · exact .inr ⟨if_neg fewer, Nat.not_lt.mp fewer⟩

/-- The turn at which the window is filled panics, or not. -/
def fillsSafely (sender : Sender) : Prop :=
  sender.nextSeq < sender.file.numChunks → sender.ackedSeqs.card ≤ sender.nextSeq ∧
    (sender.nextSeq - sender.ackedSeqs.card < sender.cwnd →
      (sender.protocol.streamId sender.nextSeq).isSome)

theorem fill_cases (filling : sender.phase = .filling) :
    sender.fill.1.file = sender.file ∧ sender.fill.1.ackedSeqs = sender.ackedSeqs ∧
      ((sender.fill.1.phase = .panicked ∧ ¬ sender.fillsSafely) ∨
        (sender.fill.1.phase.Looping ∧ sender.fillsSafely)) := by
  unfold fill
  split
  · rename_i more
    split
    · rename_i behind
      exact ⟨rfl, rfl, .inl ⟨rfl, fun safe => absurd (safe more).1 (Nat.not_le.mpr behind)⟩⟩
    · rename_i ahead
      split
      · rename_i room
        split
        · rename_i encoded
          obtain ⟨stream, found, _⟩ := Option.map_eq_some_iff.mp encoded
          refine ⟨rfl, rfl, .inr ⟨?_, fun _ => ⟨Nat.not_lt.mp ahead, fun _ => by simp [found]⟩⟩⟩
          rw [filling]
          trivial
        · rename_i encoded
          have none := Option.map_eq_none_iff.mp encoded
          refine ⟨rfl, rfl, .inl ⟨rfl, fun safe => ?_⟩⟩
          have stream := (safe more).2 room
          rw [none] at stream
          cases stream
      · rename_i full
        exact ⟨rfl, rfl, .inr ⟨trivial, fun _ => ⟨Nat.not_lt.mp ahead, fun room => absurd room full⟩⟩⟩
  · rename_i spent
    exact ⟨rfl, rfl, .inr ⟨trivial, fun more => absurd more spent⟩⟩

theorem Sending.retransmit_eq (sending : Sending sender) :
    ∃ lastSentTime cwnd, sender.retransmit.1 = { sender with lastSentTime, cwnd }.proceed := by
  obtain ⟨_, encoded, _⟩ := mapM_of_images fun seq member =>
    sending.exists_packet (mem_outstanding_iff.mp member).2.1
  unfold retransmit
  rw [encoded]
  exact ⟨_, _, rfl⟩

theorem takeAck_cases (sender : Sender) (value : Nat) :
    (value = finAckSignal ∧ sender.takeAck (some value) = { sender with phase := .closing 0 }) ∨
    (value ≠ finAckSignal ∧ value ∈ sender.ackedSeqs ∧
      sender.takeAck (some value) = sender.proceed) ∨
    (value ≠ finAckSignal ∧ value ∉ sender.ackedSeqs ∧ sender.takeAck (some value) =
      { sender with ackedSeqs := insert value sender.ackedSeqs, cwnd := sender.cwnd + 1 }.proceed) := by
  unfold takeAck
  dsimp only
  split
  · rename_i signal
    exact .inl ⟨signal, rfl⟩
  · rename_i ordinary
    split
    · rename_i known
      exact .inr (.inl ⟨ordinary, known, rfl⟩)
    · rename_i fresh
      exact .inr (.inr ⟨ordinary, fresh, rfl⟩)

/-- Before the data loop nothing is acknowledged, and in it not as much as there are chunks. -/
structure Loops (sender : Sender) : Prop extends Sending sender where
  opening : sender.phase.Opening → sender.ackedSeqs = ∅
  unfinished : sender.phase.Looping → sender.ackedSeqs.card < sender.file.numChunks

theorem Loops.new (protocol : Protocol) (file : FileData) : Loops (.new protocol file) :=
  { Sending.new protocol file with opening := fun _ => rfl, unfinished := False.elim }

theorem Loops.of_proceed {head : Sender} (sending : Sending after) (same : after = head.proceed) :
    Loops after := by
  subst same
  rcases head.proceed_phase with ⟨filling, fewer⟩ | ⟨closing, _⟩
  · exact { sending with
      opening := fun opening => by rw [filling] at opening; exact opening.elim
      unfinished := fun _ => fewer }
  · exact { sending with
      opening := fun opening => by rw [closing] at opening; exact opening.elim
      unfinished := fun looping => by rw [closing] at looping; exact looping.elim }

theorem Loops.rests (loops : Loops sender) (sending : Sending after)
    (rests : sender.Rests event after) : Loops after := by
  refine { sending with opening := fun opening => ?_, unfinished := fun looping => ?_ }
  · rw [rests.ackedSeqs]
    rcases rests.phase with ⟨before, _⟩ | failed | ⟨_, closed⟩ | same
    · exact loops.opening before
    · rw [failed] at opening
      exact opening.elim
    · exact absurd opening closed.not_before.1
    · exact loops.opening (same ▸ opening)
  · rw [rests.ackedSeqs, rests.file]
    rcases rests.phase with ⟨_, opening⟩ | failed | ⟨_, closed⟩ | same
    · exact absurd looping opening.not_looping
    · rw [failed] at looping
      exact looping.elim
    · exact absurd looping closed.not_before.2
    · exact loops.unfinished (same ▸ looping)

theorem Loops.turn (loops : Loops sender) (taken : sender.turn event = some after) :
    Loops after := by
  have sending := loops.toSending.turn taken
  cases turned taken with
  | rests rests => exact loops.rests sending rests
  | fills filling =>
    have ⟨file, acked, phase⟩ := fill_cases filling
    refine { sending with opening := fun opening => ?_, unfinished := fun _ => ?_ }
    · rcases phase with ⟨panicked, _⟩ | ⟨looping, _⟩
      · rw [panicked] at opening
        exact opening.elim
      · exact absurd looping opening.not_looping
    · rw [file, acked]
      exact loops.unfinished (by rw [filling]; trivial)
  | enters opening => exact .of_proceed sending rfl
  | retransmits waits =>
    obtain ⟨lastSentTime, cwnd, same⟩ := loops.toSending.retransmit_eq
    exact .of_proceed sending same
  | closed waits empty => exact .of_proceed sending rfl
  | @takes value channel waits full =>
    rcases takeAck_cases { sender with channel } value with ⟨_, took⟩ | ⟨_, _, took⟩ | ⟨_, _, took⟩
    · rw [took] at sending ⊢
      exact { sending with opening := False.elim, unfinished := False.elim }
    · exact .of_proceed sending took
    · exact .of_proceed sending took

theorem ackedSeqs_turn (loops : Loops sender) (taken : sender.turn event = some after) :
    after.ackedSeqs = sender.ackedSeqs ∨ (event = .takeAck ∧ sender.phase = .waiting ∧
      ∃ value, sender.channel.head? = some value ∧
      after.ackedSeqs = insert value sender.ackedSeqs) := by
  cases turned taken with
  | rests rests => exact .inl rests.ackedSeqs
  | fills filling => exact .inl (fill_cases filling).2.1
  | enters opening => exact .inl (proceed_ackedSeqs _)
  | retransmits waits =>
    obtain ⟨lastSentTime, cwnd, same⟩ := loops.toSending.retransmit_eq
    exact .inl (by rw [same, proceed_ackedSeqs])
  | closed waits empty => exact .inl (proceed_ackedSeqs _)
  | @takes value channel waits full =>
    rcases takeAck_cases { sender with channel } value with ⟨_, took⟩ | ⟨_, _, took⟩ | ⟨_, _, took⟩
    · exact .inl (by rw [took])
    · exact .inl (by rw [took, proceed_ackedSeqs])
    · exact .inr ⟨rfl, waits, value, by rw [full, List.head?_cons], by rw [took, proceed_ackedSeqs]⟩

/-- The window computation neither underflows nor divides by zero, and the data loop is left, but
for an error, with every chunk of the file acknowledged. -/
def Guarded (sender : Sender) (_ : SenderEvent) (after : Sender) : Prop :=
  after.phase ≠ .panicked ∧
    (after.phase.Closed → sender.phase.Closed ∨ ∀ seq < sender.file.numChunks, seq ∈ after.ackedSeqs)

/-- The window is filled safely; no acknowledgement is the signal, and with the one that makes them
as many as there are chunks all of them are of chunks of the file. -/
def sound (sender : Sender) : SenderEvent → Prop
  | .proceed => sender.phase = .filling → sender.fillsSafely
  | .takeAck => sender.phase = .waiting → ∀ value, sender.channel.head? = some value →
      value ≠ finAckSignal ∧
      (value ∉ sender.ackedSeqs → sender.file.numChunks ≤ sender.ackedSeqs.card + 1 →
        ∀ seq ∈ insert value sender.ackedSeqs, seq < sender.file.numChunks)
  | _ => True

/-- Every acknowledgement is of a chunk that was sent and is not the signal, and there is a stream
for every chunk to be sent. -/
def sincere (sender : Sender) : SenderEvent → Prop
  | .proceed =>
    sender.phase = .filling → sender.nextSeq < sender.file.numChunks →
    (sender.protocol.streamId sender.nextSeq).isSome
  | .takeAck => sender.phase = .waiting → ∀ value, sender.channel.head? = some value →
      value < sender.nextSeq ∧ value ≠ finAckSignal
  | _ => True

theorem all_mem_iff {numbers : Finset Nat} (counted : numbers.card = count) :
    (∀ seq < count, seq ∈ numbers) ↔ ∀ seq ∈ numbers, seq < count := by
  constructor
  · intro all
    have whole : Finset.range count = numbers :=
      Finset.eq_of_subset_of_card_le (fun seq less => all seq (Finset.mem_range.mp less))
        (by simp [counted])
    exact fun seq member => Finset.mem_range.mp (whole ▸ member)
  · intro within _ less
    exact mem_of_card_le within (Nat.le_of_eq counted.symm) less

theorem sound_of_other (noFill : event = .proceed → sender.phase ≠ .filling)
    (noAck : event = .takeAck → sender.phase ≠ .waiting) :
    sender.sound event := by
  cases event with
  | proceed => exact fun filling => absurd filling (noFill rfl)
  | takeAck => exact fun waits => absurd waits (noAck rfl)
  | _ => exact trivial

theorem Rests.guarded (rests : sender.Rests event after) (runs : sender.phase ≠ .panicked) :
    sender.Guarded event after := by
  rcases rests.phase with ⟨_, opening⟩ | failed | ⟨before, closed⟩ | same
  · refine ⟨fun panicked => ?_, fun closed => absurd opening closed.not_before.1⟩
    rw [panicked] at opening
    exact opening
  · exact ⟨by simp [failed], fun closed => by rw [failed] at closed; exact closed.elim⟩
  · refine ⟨fun panicked => ?_, fun _ => .inl before⟩
    rw [panicked] at closed
    exact closed
  · exact ⟨same ▸ runs, fun closed => .inl (same ▸ closed)⟩

theorem guarded_proceed {head : Sender} (complete : head.file.numChunks ≤ head.ackedSeqs.card →
      ∀ seq < sender.file.numChunks, seq ∈ head.ackedSeqs) : sender.Guarded event head.proceed := by
  rcases head.proceed_phase with ⟨filling, _⟩ | ⟨closing, enough⟩
  · exact ⟨by simp [filling], fun closed => by rw [filling] at closed; exact closed.elim⟩
  · exact ⟨by simp [closing], fun _ => .inr (complete enough)⟩

theorem guarded_fill_iff (filling : sender.phase = .filling) :
    sender.Guarded .proceed sender.fill.1 ↔ sender.fillsSafely := by
  have ⟨_, _, phase⟩ := fill_cases filling
  rcases phase with ⟨panicked, unsafe_⟩ | ⟨looping, safe⟩
  · exact iff_of_false (fun guarded => guarded.1 panicked) unsafe_
  · refine iff_of_true ⟨fun panicked => ?_, fun closed => absurd looping closed.not_before.2⟩ safe
    rw [panicked] at looping
    exact looping

/-- An acknowledgement that is taken: the signal ends the loop too early, a number known before
changes nothing, and a new one counts. -/
theorem guarded_takeAck_iff {value : Nat} {channel : List Nat} (waits : sender.phase = .waiting)
    (full : sender.channel = value :: channel)
    (fewer : sender.ackedSeqs.card < sender.file.numChunks) :
    sender.Guarded .takeAck ({ sender with channel }.takeAck (some value)) ↔
      sender.sound .takeAck := by
  have first : sender.channel.head? = some value := by rw [full, List.head?_cons]
  have looping (closed : sender.phase.Closed) : False := by
    rw [waits] at closed
    exact closed
  have soundly : sender.sound .takeAck ↔ value ≠ finAckSignal ∧ (value ∉ sender.ackedSeqs →
      sender.file.numChunks ≤ sender.ackedSeqs.card + 1 → ∀ seq ∈ insert value sender.ackedSeqs,
      seq < sender.file.numChunks) := by
    constructor
    · exact fun sound => sound waits value first
    · intro holds _ _ same
      cases first.symm.trans same
      exact holds
  rw [soundly]
  rcases takeAck_cases { sender with channel } value with ⟨signal, took⟩ | ⟨ordinary, known, took⟩
    | ⟨ordinary, fresh, took⟩
  · rw [took]
    refine iff_of_false (fun guarded => ?_) fun sound => sound.1 signal
    have all := (guarded.2 trivial).resolve_left looping
    have whole : Finset.range sender.file.numChunks ⊆ sender.ackedSeqs :=
      fun seq less => all seq (Finset.mem_range.mp less)
    have many := Finset.card_le_card whole
    rw [Finset.card_range] at many
    exact absurd fewer (Nat.not_lt.mpr many)
  · rw [took]
    exact iff_of_true (guarded_proceed fun enough => absurd enough (Nat.not_le.mpr fewer))
      ⟨ordinary, fun fresh => absurd known fresh⟩
  · rw [took]
    have counted := Finset.card_insert_of_notMem fresh
    by_cases enough : sender.file.numChunks ≤ sender.ackedSeqs.card + 1
    · have all := all_mem_iff (counted.trans (Nat.le_antisymm fewer enough))
      constructor
      · intro guarded
        refine ⟨ordinary, fun _ _ => all.mp ?_⟩
        refine (guarded.2 ?_).resolve_left looping
        rw [proceed, if_neg (by simp only [counted]; omega)]
        trivial
      · exact fun sound => guarded_proceed fun _ => all.mpr (sound.2 fresh enough)
    · refine iff_of_true (guarded_proceed fun many => ?_) ⟨ordinary, fun _ many => absurd many enough⟩
      simp only [counted] at many
      exact absurd many enough

theorem Loops.guarded_iff (loops : Loops sender) (runs : sender.phase ≠ .panicked)
    (taken : sender.turn event = some after) :
    sender.Guarded event after ↔ sender.sound event := by
  have fewer (waits : sender.phase = .waiting) : sender.ackedSeqs.card < sender.file.numChunks :=
    loops.unfinished (by rw [waits]; trivial)
  cases turned taken with
  | rests rests => exact iff_of_true (rests.guarded runs) (sound_of_other rests.noFill rests.noAck)
  | fills filling =>
    exact (guarded_fill_iff filling).trans ⟨fun safe _ => safe, fun sound => sound filling⟩
  | enters opening =>
    refine iff_of_true (guarded_proceed fun enough seq less => ?_) trivial
    have none := loops.opening opening
    simp only [none, Finset.card_empty] at enough
    omega
  | retransmits waits =>
    obtain ⟨_, _, same⟩ := loops.toSending.retransmit_eq
    rw [same]
    exact iff_of_true (guarded_proceed fun enough =>
      absurd enough (Nat.not_le.mpr (fewer waits))) trivial
  | closed waits empty =>
    refine iff_of_true (guarded_proceed fun enough => absurd enough (Nat.not_le.mpr (fewer waits)))
      fun _ value first => ?_
    rw [empty] at first
    cases first
  | takes waits full => exact guarded_takeAck_iff waits full (fewer waits)

theorem nextSeq_le_of_turn (taken : sender.turn event = some after) :
    sender.nextSeq ≤ after.nextSeq := by
  obtain ⟨⟨_, _⟩, stepped, rfl⟩ := Option.map_eq_some_iff.mp taken
  rcases (step_advances stepped).nextSeq with same | ⟨_, next, _⟩
  · exact Nat.le_of_eq same.symm
  · exact Nat.le_of_lt (Nat.lt_of_lt_of_eq (Nat.lt_succ_self _) next.symm)

/-- Every number that is acknowledged was sent. -/
structure Acknowledged (sender : Sender) : Prop extends Loops sender where
  runs : sender.phase ≠ .panicked
  acked : ∀ seq ∈ sender.ackedSeqs, seq < sender.nextSeq

theorem Acknowledged.sound (acknowledged : Acknowledged sender) (sincere : sender.sincere event) :
    sender.sound event := by
  cases event with
  | proceed =>
    intro filling more
    have within : sender.ackedSeqs ⊆ Finset.range sender.nextSeq :=
      fun seq member => Finset.mem_range.mpr (acknowledged.acked seq member)
    have few := Finset.card_le_card within
    rw [Finset.card_range] at few
    exact ⟨few, fun _ => sincere filling more⟩
  | takeAck =>
    intro waits value first
    have ⟨sent, ordinary⟩ := sincere waits value first
    refine ⟨ordinary, fun _ _ seq member => Nat.lt_of_lt_of_le ?_ acknowledged.sent⟩
    rcases Finset.mem_insert.mp member with same | before
    · exact same ▸ sent
    · exact acknowledged.acked seq before
  | _ => exact trivial

theorem Acknowledged.turn (acknowledged : Acknowledged sender) (sincere : sender.sincere event)
    (taken : sender.turn event = some after) : Acknowledged after ∧ sender.Guarded event after := by
  have guarded := (acknowledged.toLoops.guarded_iff acknowledged.runs taken).mpr
    (acknowledged.sound sincere)
  refine ⟨{ acknowledged.toLoops.turn taken with runs := guarded.1, acked := ?_ }, guarded⟩
  intro seq member
  refine Nat.lt_of_lt_of_le ?_ (nextSeq_le_of_turn taken)
  rcases ackedSeqs_turn acknowledged.toLoops taken with same | ⟨rfl, waits, value, first, same⟩
  · exact acknowledged.acked seq (same ▸ member)
  · rw [same] at member
    rcases Finset.mem_insert.mp member with here | before
    · exact here ▸ (sincere waits value first).1
    · exact acknowledged.acked seq before

/-- In a run of the sender under any acknowledgements it is guarded throughout exactly when every
turn is sound; and so it is when all acknowledgements are of chunks that were sent. -/
theorem guarded_of_run {events : List SenderEvent}
    (run : Execution turn anything (.new protocol file) events after) :
    (EveryStep turn Guarded (.new protocol file) events ↔
      Execution turn sound (.new protocol file) events after) ∧
      (Execution turn sincere (.new protocol file) events after →
        EveryStep turn Guarded (.new protocol file) events) := by
  constructor
  · refine run.everyStep_iff_of_related (fun sender => Loops sender ∧ sender.phase ≠ .panicked)
      ⟨.new protocol file, nofun⟩ ?_ ?_
    · intro sender event next ⟨loops, _⟩ taken guarded
      exact ⟨loops.turn taken, guarded.1⟩
    · intro sender event next ⟨loops, runs⟩ taken
      exact loops.guarded_iff runs taken
  · intro sincerely
    refine sincerely.everyStep Acknowledged
      { Loops.new protocol file with runs := nofun, acked := nofun } ?_
    intro _ _ _ acknowledged sincere taken
    exact acknowledged.turn sincere taken

/-- The chunk was sent, and as many chunks as come before it, and one more, are acknowledged. -/
structure Skipped (sender : Sender) (seq : Nat) : Prop extends Loops sender where
  before : seq < sender.ackedSeqs.card
  once : seq < sender.nextSeq

theorem Skipped.turn (skipped : Skipped sender seq) (taken : sender.turn event = some after) :
    Skipped after seq := by
  refine { skipped.toLoops.turn taken with before := ?_, once := ?_ }
  · rcases ackedSeqs_turn skipped.toLoops taken with same | ⟨_, _, _, _, same⟩
    · rw [same]
      exact skipped.before
    · rw [same]
      exact Nat.lt_of_lt_of_le skipped.before (Finset.card_le_card (Finset.subset_insert _ _))
  · exact Nat.lt_of_lt_of_le skipped.once (nextSeq_le_of_turn taken)

theorem sent_of_fill (member : packet ∈ sender.fill.2) :
    sender.nextSeq < sender.file.numChunks ∧
      sender.protocol.dataPacket sender.file sender.nextSeq = some packet := by
  unfold fill at member
  split at member
  · rename_i more
    split at member
    · cases member
    split at member
    · split at member
      · rename_i encoded
        rw [List.mem_singleton.mp member]
        exact ⟨more, encoded⟩
      · cases member
    · cases member
  · cases member

/-- Only at the heads of the loops and at a timeout is anything sent. -/
theorem sent_eq_nil (stepped : sender.step event = some (after, sent))
    (noProceed : event ≠ .proceed) (noTimeout : event ≠ .timeout) : sent = [] := by
  cases event with
  | proceed => exact absurd rfl noProceed
  | timeout => exact absurd rfl noTimeout
  | takeAck =>
    simp only [Sender.step, takeAckStep] at stepped
    split at stepped
    · obtain ⟨_, _, same⟩ := Option.map_eq_some_iff.mp stepped
      cases same
      rfl
    · obtain ⟨_, _, same⟩ := Option.map_eq_some_iff.mp stepped
      cases same
      rfl
    · cases stepped
  | datagram =>
    simp only [Sender.step, datagramStep] at stepped
    split at stepped
    · split at stepped <;> cases stepped <;> rfl
    · split at stepped <;> cases stepped
      rfl
  | socketError =>
    simp only [Sender.step, socketErrorStep] at stepped
    split at stepped <;> cases stepped <;> rfl
  | receiveError =>
    simp only [Sender.step, receiveErrorStep] at stepped
    split at stepped
    · cases stepped
      rfl
    · split at stepped <;> cases stepped
      rfl
  | advance =>
    cases stepped
    rfl

/-- Packets are sent only at the heads of the loops and at the timeout of the data loop. -/
theorem sent_of_step (stepped : sender.step event = some (after, sent)) (member : packet ∈ sent) :
    packet = sender.protocol.handshakeReq sender.file.bytes.length ∨ packet = sender.protocol.fin ∨
      (sender.nextSeq < sender.file.numChunks ∧
        sender.protocol.dataPacket sender.file sender.nextSeq = some packet) ∨
      packet ∈ sender.retransmit.2 := by
  by_cases proceeds : event = .proceed
  · subst proceeds
    simp only [Sender.step, proceedStep] at stepped
    split at stepped
    · split at stepped <;> cases stepped
      · exact .inl (List.mem_singleton.mp member)
      · cases member
    · have same : sender.fill.2 = sent := congrArg Prod.snd (Option.some.inj stepped)
      exact .inr (.inr (.inl (sent_of_fill (same ▸ member))))
    · split at stepped <;> cases stepped
      · exact .inr (.inl (List.mem_singleton.mp member))
      · cases member
    · cases stepped
  by_cases times : event = .timeout
  · subst times
    simp only [Sender.step, timeoutStep] at stepped
    split at stepped
    · cases stepped
      cases member
    · rw [congrArg Prod.snd (Option.some.inj stepped)]
      exact .inr (.inr (.inr member))
    · cases stepped
      cases member
    · cases stepped
  · rw [sent_eq_nil stepped proceeds times] at member
    cases member

theorem Skipped.unsent (skipped : Skipped sender seq)
    (stepped : sender.step event = some (next, sent)) :
    ∀ packet ∈ sent, sender.protocol.dataPacket sender.file seq ≠ some packet := by
  intro _ member found
  have real := Nat.lt_of_lt_of_le skipped.once skipped.sent
  have frameType := (Receiver.fields_of_dataPacket found real).frameType
  rcases sent_of_step stepped member with rfl | rfl | ⟨more, encoded⟩ | again
  · cases protocol : sender.protocol <;>
      simp [protocol, Protocol.handshakeReq, Protocol.types] at frameType
  · exact sender.protocol.fin_ne_data (Option.some.inj frameType)
  · exact absurd (dataPacket_inj real more found encoded) (Nat.ne_of_lt skipped.once)
  · obtain ⟨_, outstanding, same⟩ := skipped.toSending.mem_retransmit_iff.mp again
    obtain ⟨low, high, _⟩ := mem_outstanding_iff.mp outstanding
    have equal := dataPacket_inj real (Nat.lt_of_lt_of_le high skipped.sent) found same
    exact absurd skipped.before (Nat.not_lt.mpr (equal ▸ low))

/-- A chunk that was sent, and that the count of acknowledged chunks has passed, is never sent
again. -/
theorem never_sent_again {seq : Nat} {before events : List SenderEvent}
    (start : Execution turn anything (.new protocol file) before sender)
    (passed : seq < sender.ackedSeqs.card) (sent : seq < sender.nextSeq)
    (run : Execution turn anything sender events after) :
    EveryStep turn (fun sender event _ => ∀ next sent, sender.step event = some (next, sent) →
      ∀ packet ∈ sent, sender.protocol.dataPacket sender.file seq ≠ some packet) sender events := by
  have loops : Loops sender :=
    start.invariant Loops (fun _ _ _ loops _ taken => loops.turn taken) (.new protocol file)
  refine run.everyStep (fun sender => Skipped sender seq)
    { loops with before := passed, once := sent } ?_
  intro _ _ _ skipped _ taken
  exact ⟨skipped.turn taken, fun _ _ stepped => skipped.unsent stepped⟩

/-- With the second of two chunks acknowledged, the timeout sends nothing of the first. -/
theorem never_sent_again_first : ∃ sender after,
    EveryStep turn (fun sender event _ => ∀ next sent, sender.step event = some (next, sent) →
      ∀ packet ∈ sent, sender.protocol.dataPacket sender.file 0 ≠ some packet) sender [.timeout] ∧
      sender.turn .timeout = some after := by
  have run := gapless_acknowledging numChunks_twoChunks (show 1 < 2 by omega)
  have timeout : Execution turn anything
      { acknowledged twoChunks 1 with now := (acknowledged twoChunks 1).now + 200000000 } [.timeout] _ :=
    .single trivial rfl
  have again := never_sent_again run.plain (show 0 < 1 by omega) (show 0 < 2 by omega) timeout
  exact ⟨_, _, again, rfl⟩

theorem twoChunks_nonempty : 0 < twoChunks.numChunks := by
  rw [numChunks_twoChunks]
  exact Nat.succ_pos 1

/-- Both chunks are sent, and the second one is acknowledged. -/
theorem guarded_first : EveryStep turn Guarded (.new .udp twoChunks) (acknowledging 1) := by
  obtain ⟨after, sincerely⟩ :
      ∃ after, Execution turn sincere (.new .udp twoChunks) (acknowledging 1) after := by
    refine ⟨_, acknowledging_run numChunks_twoChunks (show 1 < 2 by omega)
      fun sender event udp other waiting => ?_⟩
    cases event with
    | proceed =>
      intro _ _
      rw [udp]
      rfl
    | takeAck =>
      intro _ _ first
      obtain ⟨channel, sent⟩ := waiting rfl
      rw [channel, List.head?_cons, Option.some.injEq] at first
      rw [sent, ← first]
      decide
    | _ => trivial
  exact (guarded_of_run sincerely.plain).2 sincerely

/-- Nothing can be sent over no streams. -/
theorem streamless_unguarded : ¬ EveryStep turn Guarded (.new (.quic 0) twoChunks)
    [.proceed, .datagram (Protocol.handshakeResp (.quic 0)), .proceed] := by
  intro every
  have turned (sender : Sender) (filling : sender.phase = .filling) :
      sender.turn .proceed = some sender.fill.1 := by
    simp [turn, Sender.step, proceedStep, filling]
  have guarded := ((every.tail rfl).tail (turn_answered (.quic 0) twoChunks_nonempty)).head
    (turned _ rfl)
  have stream := ((guarded_fill_iff rfl).mp guarded twoChunks_nonempty).2 (show 0 - 0 < 12 by omega)
  cases stream

end Sender

end DistributedOs.Datagram
