import DistributedOs.Control.Decision
import DistributedOs.Semantics.Execution

/-! The two classes of the classifier that need three confirmations, over whole histories of calls. -/

namespace DistributedOs.Control

open Semantics

variable {F : Type} [Floating F]

/-- The classes that one look at the metrics decides; with too few metrics there is no class. -/
def decidedAtOnce : List (NetworkMetrics F) → Bool
  | latest :: prev :: older :: _ =>
    let rttTrend := trend latest.rttMs prev.rttMs
    let throughputTrendShort := trend latest.throughputMbps prev.throughputMbps
    let throughputTrendLong := trend latest.throughputMbps older.throughputMbps
    let hasLoss := decide ((0.5 : F) < latest.packetLossPct)
    let queueHigh := decide ((5.0 : F) < latest.queueDelayMs)
    let cpuKnown := decide ((1.0 : F) < latest.cpuUsagePct)
    let cpuHigh := cpuKnown && (70.0 : F) < latest.cpuUsagePct
    let cpuIndicated :=
      throughputTrendShort < (-0.1 : F) && !hasLoss && throughputTrendLong < (-0.05 : F) &&
      Floating.abs rttTrend < (0.05 : F)
    ((0.15 : F) < rttTrend && (2.0 : F) < latest.packetLossPct) ||
      (latest.throughputMbps < (50.0 : F) && !hasLoss && queueHigh) ||
      ((cpuHigh || (!cpuKnown && cpuIndicated && queueHigh)) &&
        throughputTrendShort < (-0.1 : F) && !hasLoss)
  | _ => true

namespace Bottleneck

def condition : Bottleneck → List (NetworkMetrics F) → Bool
  | .thermalThrottling, latest :: prev :: older :: _ =>
    trend latest.throughputMbps older.throughputMbps < (-0.05 : F) &&
      Floating.abs (trend latest.rttMs prev.rttMs) < (0.03 : F)
  | .linkLimited, latest :: prev :: _ :: _ =>
    !decide ((0.5 : F) < latest.packetLossPct) && latest.rttMs < (30.0 : F) &&
      Floating.abs (trend latest.throughputMbps prev.throughputMbps) < (0.05 : F)
  | _, _ => false

def debounced : Bottleneck → Bool
  | .thermalThrottling | .linkLimited => true
  | _ => false

end Bottleneck

namespace Classifier

def counter (classifier : Classifier) : Bottleneck → Nat
  | .thermalThrottling => classifier.thermalCounter
  | .linkLimited => classifier.linkCounter
  | _ => 0

/-- The call leaves the counter of the class alone. -/
def PassesOver (classifier : Classifier) (recent : List (NetworkMetrics F))
    (bottleneck : Bottleneck) : Prop :=
  decidedAtOnce recent = true ∨
  (bottleneck = .linkLimited ∧ Bottleneck.thermalThrottling.condition recent = true ∧
    classifier.confirmationThreshold ≤ classifier.thermalCounter + 1)

def Confirms (classifier : Classifier) (recent : List (NetworkMetrics F))
    (bottleneck : Bottleneck) : Prop :=
  ¬ classifier.PassesOver recent bottleneck ∧ bottleneck.condition recent = true ∧
    classifier.confirmationThreshold ≤ classifier.counter bottleneck + 1

def counted (classifier : Classifier) (recent : List (NetworkMetrics F))
    (bottleneck : Bottleneck) : Nat :=
  if bottleneck.condition recent then classifier.counter bottleneck + 1 else 0

/-- What a call that is not decided at once comes to. -/
def debounce (classifier : Classifier) (recent : List (NetworkMetrics F)) :
    Bottleneck × Classifier :=
  let thermalCounter := classifier.counted recent .thermalThrottling
  let linkCounter := classifier.counted recent .linkLimited
  if classifier.confirmationThreshold ≤ thermalCounter then
    (.thermalThrottling, { classifier with thermalCounter := 0 })
  else if classifier.confirmationThreshold ≤ linkCounter then
    (.linkLimited, { classifier with thermalCounter, linkCounter := 0 })
  else (.unknown, { classifier with thermalCounter, linkCounter })

variable {classifier : Classifier} {recent : List (NetworkMetrics F)} {bottleneck : Bottleneck}

/-- A call is decided at once and counts nothing, or goes by the two counters. -/
theorem classify_cases (classifier : Classifier) (recent : List (NetworkMetrics F)) :
    (decidedAtOnce recent = true ∧ (classifier.classify recent).2 = classifier ∧
      (classifier.classify recent).1.bottleneck.debounced = false ∧
      ((classifier.classify recent).1.bottleneck = .unknown → recent.length < 3)) ∨
    (decidedAtOnce recent = false ∧ 3 ≤ recent.length ∧
      ((classifier.classify recent).1.bottleneck, (classifier.classify recent).2) =
      classifier.debounce recent) := by
  match recent with
  | [] | [_] | [_, _] => exact .inl ⟨rfl, rfl, rfl, fun _ => by simp⟩
  | latest :: prev :: older :: _ =>
    unfold classify decidedAtOnce
    dsimp only
    split
    · rename_i congested
      refine .inl ⟨?_, rfl, rfl, by rintro ⟨⟩⟩
      simp only [Bool.and_eq_true] at congested
      simp [congested]
    split
    · rename_i slow
      refine .inl ⟨?_, rfl, rfl, by rintro ⟨⟩⟩
      rw [Bool.or_eq_true, Bool.or_eq_true]
      exact .inl (.inr slow)
    split
    · rename_i busy
      refine .inl ⟨?_, rfl, rfl, by rintro ⟨⟩⟩
      rw [Bool.or_eq_true]
      exact .inr busy
    · rename_i congested slow busy
      refine .inr ⟨?_, by simp, ?_⟩
      · rw [Bool.eq_false_iff]
        simp only [ne_eq, Bool.or_eq_true, not_or]
        exact ⟨⟨congested, slow⟩, busy⟩
      · unfold debounce counted Bottleneck.condition counter
        dsimp only
        split_ifs <;> rfl

theorem condition_eq_false_of_short (short : recent.length < 3) (bottleneck : Bottleneck) :
    bottleneck.condition recent = false := by
  match recent, short with
  | [], _ | [_], _ | [_, _], _ => cases bottleneck <;> rfl

theorem confirms_thermal_iff (counted : decidedAtOnce recent = false) :
    classifier.Confirms recent .thermalThrottling ↔
      Bottleneck.thermalThrottling.condition recent = true ∧
      classifier.confirmationThreshold ≤ classifier.thermalCounter + 1 := by
  simp [Confirms, PassesOver, counted, counter]

theorem passesOver_link_iff (counted : decidedAtOnce recent = false) :
    classifier.PassesOver recent .linkLimited ↔ classifier.Confirms recent .thermalThrottling := by
  simp [confirms_thermal_iff counted, PassesOver, counted]

theorem threshold_le_counted_iff (recent : List (NetworkMetrics F))
    (positive : 0 < classifier.confirmationThreshold) (bottleneck : Bottleneck) :
    classifier.confirmationThreshold ≤ classifier.counted recent bottleneck ↔
      bottleneck.condition recent = true ∧
      classifier.confirmationThreshold ≤ classifier.counter bottleneck + 1 := by
  unfold counted
  cases bottleneck.condition recent with
  | true => simp
  | false =>
    simp only [Bool.false_eq_true, ↓reduceIte, false_and, iff_false]
    omega

/-- What the counters decide: the class of one that reaches the threshold, that of
`thermalThrottling` before the other, or none. -/
theorem classify_counted (positive : 0 < classifier.confirmationThreshold)
    (undecided : decidedAtOnce recent = false) :
    (classifier.Confirms recent .thermalThrottling ∧
      (classifier.classify recent).1.bottleneck = .thermalThrottling ∧
      (classifier.classify recent).2 = { classifier with thermalCounter := 0 }) ∨
    (classifier.Confirms recent .linkLimited ∧
      (classifier.classify recent).1.bottleneck = .linkLimited ∧
      (classifier.classify recent).2 =
        { classifier with thermalCounter := classifier.counted recent .thermalThrottling, linkCounter := 0 }) ∨
    (¬ classifier.Confirms recent .thermalThrottling ∧ ¬ classifier.Confirms recent .linkLimited ∧
      (classifier.classify recent).1.bottleneck = .unknown ∧
      (classifier.classify recent).2 =
        { classifier with
            thermalCounter := classifier.counted recent .thermalThrottling
            linkCounter := classifier.counted recent .linkLimited }) := by
  rcases classifier.classify_cases recent with ⟨atOnce, _⟩ | ⟨_, _, same⟩
  · rw [undecided] at atOnce
    cases atOnce
  have thermal := threshold_le_counted_iff recent positive .thermalThrottling
  have link := threshold_le_counted_iff recent positive .linkLimited
  have ⟨returned, after⟩ := Prod.ext_iff.mp same
  dsimp only at returned after
  rw [returned, after]
  unfold debounce
  dsimp only
  split
  · rename_i reached
    exact .inl ⟨(confirms_thermal_iff undecided).mpr (thermal.mp reached), rfl, rfl⟩
  · rename_i below
    have unconfirmed : ¬ classifier.Confirms recent .thermalThrottling :=
      fun confirmed => below (thermal.mpr ((confirms_thermal_iff undecided).mp confirmed))
    split
    · rename_i reached
      exact .inr (.inl ⟨⟨mt (passesOver_link_iff undecided).mp unconfirmed, link.mp reached⟩, rfl, rfl⟩)
    · rename_i below
      exact .inr (.inr ⟨unconfirmed, fun confirmed => below (link.mpr confirmed.2), rfl, rfl⟩)

/-- A class with a counter is returned exactly by the call that confirms it. -/
theorem returned_iff_confirms (positive : 0 < classifier.confirmationThreshold)
    (debounced : bottleneck.debounced = true) :
    (classifier.classify recent).1.bottleneck = bottleneck ↔
      classifier.Confirms recent bottleneck := by
  rcases classifier.classify_cases recent with ⟨atOnce, _, other, _⟩ | ⟨undecided, _, _⟩
  · refine iff_of_false (fun returned => ?_) fun confirmed => confirmed.1 (.inl atOnce)
    rw [returned, debounced] at other
    cases other
  · rcases classify_counted positive undecided with ⟨confirmed, returned, _⟩ | ⟨confirmed, returned, _⟩ |
      ⟨noThermal, noLink, returned, _⟩
    · rw [returned]
      cases bottleneck with
      | thermalThrottling => exact iff_of_true rfl confirmed
      | linkLimited =>
        exact iff_of_false nofun fun link => link.1 ((passesOver_link_iff undecided).mpr confirmed)
      | _ => cases debounced
    · rw [returned]
      cases bottleneck with
      | thermalThrottling =>
        exact iff_of_false nofun fun thermal => confirmed.1 ((passesOver_link_iff undecided).mpr thermal)
      | linkLimited => exact iff_of_true rfl confirmed
      | _ => cases debounced
    · rw [returned]
      cases bottleneck with
      | thermalThrottling => exact iff_of_false nofun noThermal
      | linkLimited => exact iff_of_false nofun noLink
      | _ => cases debounced

/-- A counter that is not zero after a call that does not pass over it was counted up by it. -/
theorem counted_of_counter (positive : 0 < classifier.confirmationThreshold)
    (debounced : bottleneck.debounced = true) (counts : ¬ classifier.PassesOver recent bottleneck)
    (counter : (classifier.classify recent).2.counter bottleneck = count + 1) :
    bottleneck.condition recent = true ∧ classifier.counter bottleneck = count := by
  have undecided : decidedAtOnce recent = false := by
    rw [← Bool.not_eq_true]
    exact fun atOnce => counts (.inl atOnce)
  have up (same : classifier.counted recent bottleneck = count + 1) :
      bottleneck.condition recent = true ∧ classifier.counter bottleneck = count := by
    unfold counted at same
    split at same
    · rename_i holds
      exact ⟨holds, Nat.succ.inj same⟩
    · cases same
  rcases classify_counted positive undecided with ⟨confirmed, _, after⟩ | ⟨confirmed, _, after⟩
    | ⟨_, _, _, after⟩
  · rw [after] at counter
    cases bottleneck with
    | thermalThrottling => cases counter
    | linkLimited => exact absurd ((passesOver_link_iff undecided).mpr confirmed) counts
    | _ => cases debounced
  · rw [after] at counter
    cases bottleneck with
    | thermalThrottling => exact up counter
    | linkLimited => cases counter
    | _ => cases debounced
  · rw [after] at counter
    cases bottleneck with
    | thermalThrottling => exact up counter
    | linkLimited => exact up counter
    | _ => cases debounced

theorem threshold_classify (classifier : Classifier) (recent : List (NetworkMetrics F)) :
    (classifier.classify recent).2.confirmationThreshold = classifier.confirmationThreshold := by
  rcases classifier.classify_cases recent with ⟨_, kept, _, _⟩ | ⟨_, _, same⟩
  · rw [kept]
  · have after := (Prod.ext_iff.mp same).2
    dsimp only at after
    rw [after]
    unfold debounce
    dsimp only
    split
    · rfl
    · split <;> rfl

end Classifier

/-- A call of `classify`, with the classifier it was made on. -/
structure ClassifyCall (F : Type) where
  classifier : Classifier
  recent : List (NetworkMetrics F)

/-- The classifier with the calls so far, the latest one first. -/
structure ClassifyHistory (F : Type) where
  classifier : Classifier
  calls : List (ClassifyCall F)

namespace ClassifyCall

def returned (call : ClassifyCall F) : Bottleneck :=
  (call.classifier.classify call.recent).1.bottleneck

/-- The call met the condition of the class, and another class was not returned. -/
def Matches (call : ClassifyCall F) (bottleneck : Bottleneck) : Prop :=
  bottleneck.condition call.recent = true ∧ (call.returned = bottleneck ∨ call.returned = .unknown)

def Interrupts (call : ClassifyCall F) (bottleneck : Bottleneck) : Prop :=
  decidedAtOnce call.recent = true ∨
    ∃ other, other.debounced = true ∧ other ≠ bottleneck ∧ call.classifier.Confirms call.recent other

end ClassifyCall

namespace ClassifyHistory

def new : ClassifyHistory F := { classifier := .new, calls := [] }

def step (history : ClassifyHistory F) (recent : List (NetworkMetrics F)) :
    Option (ClassifyHistory F) :=
  some { classifier := (history.classifier.classify recent).2
         calls := { classifier := history.classifier, recent } :: history.calls }

/-- A class with a counter is returned only where this call and the two before it match it. -/
def Debounced (history : ClassifyHistory F) (recent : List (NetworkMetrics F))
    (_ : ClassifyHistory F) : Prop :=
  ∀ bottleneck, bottleneck.debounced = true →
  (history.classifier.classify recent).1.bottleneck = bottleneck →
    bottleneck.condition recent = true ∧
      ∃ last before rest, history.calls = last :: before :: rest ∧ last.Matches bottleneck ∧
      before.Matches bottleneck

/-- A class is confirmed only where neither of the two calls before was decided at once or confirmed
the other class. -/
def uninterrupted (history : ClassifyHistory F) (recent : List (NetworkMetrics F)) : Prop :=
  ∀ bottleneck, bottleneck.debounced = true → history.classifier.Confirms recent bottleneck →
    ∀ call ∈ history.calls.take 2, ¬ call.Interrupts bottleneck

def Linked (classifier : Classifier) : List (ClassifyCall F) → Prop
  | [] => classifier = .new
  | call :: calls => classifier = (call.classifier.classify call.recent).2 ∧ Linked call.classifier calls

variable {history after : ClassifyHistory F} {classifier : Classifier}
  {recent : List (NetworkMetrics F)} {calls : List (ClassifyCall F)} {call : ClassifyCall F}
  {bottleneck : Bottleneck}

theorem threshold_of_linked (linked : Linked classifier calls) :
    classifier.confirmationThreshold = 3 := by
  induction calls generalizing classifier with
  | nil =>
    rw [show classifier = .new from linked]
    rfl
  | cons _ _ ih =>
    rw [linked.1, Classifier.threshold_classify]
    exact ih linked.2

/-- Where the last call did not interrupt the class, its counter tells whether it matched. -/
theorem matches_of_counter (linked : Linked classifier calls)
    (debounced : bottleneck.debounced = true)
    (counter : classifier.counter bottleneck = count + 1) :
    ∃ call rest, calls = call :: rest ∧ (¬ call.Interrupts bottleneck →
      call.Matches bottleneck ∧ call.classifier.counter bottleneck = count) := by
  cases calls with
  | nil =>
    rw [show classifier = .new from linked] at counter
    cases bottleneck <;> cases counter
  | cons call rest =>
    refine ⟨call, rest, rfl, fun uninterrupted => ?_⟩
    have positive : 0 < call.classifier.confirmationThreshold := by
      rw [threshold_of_linked linked.2]
      exact Nat.succ_pos 2
    have undecided : decidedAtOnce call.recent = false := by
      rw [← Bool.not_eq_true]
      exact fun atOnce => uninterrupted (.inl atOnce)
    have counts : ¬ call.classifier.PassesOver call.recent bottleneck := by
      rintro (atOnce | ⟨rfl, confirmed⟩)
      · exact uninterrupted (.inl atOnce)
      · exact uninterrupted (.inr
          ⟨.thermalThrottling, rfl, nofun, (Classifier.confirms_thermal_iff undecided).mpr confirmed⟩)
    rw [linked.1] at counter
    have ⟨condition, before⟩ := Classifier.counted_of_counter positive debounced counts counter
    refine ⟨⟨condition, ?_⟩, before⟩
    have confirmsOnly (other : Bottleneck) (counted : other.debounced = true)
        (confirmed : call.classifier.Confirms call.recent other) : other = bottleneck := by
      by_contra different
      exact uninterrupted (.inr ⟨other, counted, different, confirmed⟩)
    rcases Classifier.classify_counted positive undecided with ⟨confirmed, returned, _⟩
      | ⟨confirmed, returned, _⟩ |
      ⟨_, _, returned, _⟩
    · exact .inl (returned.trans (confirmsOnly .thermalThrottling rfl confirmed))
    · exact .inl (returned.trans (confirmsOnly .linkLimited rfl confirmed))
    · exact .inr returned

theorem uninterrupted_of_matches (matched : call.Matches bottleneck)
    (debounced : bottleneck.debounced = true)
    (positive : 0 < call.classifier.confirmationThreshold) : ¬ call.Interrupts bottleneck := by
  obtain ⟨condition, returned⟩ := matched
  rintro (atOnce | ⟨_, counted, different, confirmed⟩)
  · rcases call.classifier.classify_cases call.recent with ⟨_, _, others, short⟩ | ⟨undecided, _⟩
    · rcases returned with same | unknown
      · rw [show (call.classifier.classify call.recent).1.bottleneck = bottleneck from same,
          debounced] at others
        cases others
      · rw [Classifier.condition_eq_false_of_short (short unknown)] at condition
        cases condition
    · rw [atOnce] at undecided
      cases undecided
  · have result := (Classifier.returned_iff_confirms positive counted).mpr confirmed
    rcases returned with same | unknown
    · exact different (result.symm.trans same)
    · rw [← result, show (call.classifier.classify call.recent).1.bottleneck =
        .unknown from unknown] at counted
      cases counted

/-- A call returns a class after three matches exactly when nothing has come between them. -/
theorem debounced_iff_uninterrupted (linked : Linked history.classifier history.calls) :
    history.Debounced recent after ↔ history.uninterrupted recent := by
  have threshold := threshold_of_linked linked
  have positive : 0 < history.classifier.confirmationThreshold := by
    rw [threshold]
    exact Nat.succ_pos 2
  refine forall_congr' fun bottleneck => imp_congr_right fun debounced => ?_
  rw [Classifier.returned_iff_confirms positive debounced]
  refine imp_congr_right fun confirmed => ?_
  constructor
  · rintro ⟨_, last, before, rest, same, lastMatched, beforeMatched⟩ _ member
    rw [same] at linked member
    have lastPositive : 0 < last.classifier.confirmationThreshold := by
      rw [threshold_of_linked linked.2]
      exact Nat.succ_pos 2
    have beforePositive : 0 < before.classifier.confirmationThreshold := by
      rw [threshold_of_linked linked.2.2]
      exact Nat.succ_pos 2
    rcases List.mem_cons.mp member with rfl | member
    · exact uninterrupted_of_matches lastMatched debounced lastPositive
    · rw [List.mem_singleton.mp member]
      exact uninterrupted_of_matches beforeMatched debounced beforePositive
  · intro uninterrupted
    have enough := confirmed.2.2
    rw [threshold] at enough
    obtain ⟨_, counter⟩ := Nat.exists_eq_add_of_le' (Nat.le_of_succ_le_succ enough)
    obtain ⟨last, _, here, lastMatches⟩ := matches_of_counter linked debounced counter
    rw [here] at linked uninterrupted
    have ⟨lastMatched, counter⟩ := lastMatches (uninterrupted last (by simp))
    obtain ⟨before, rest, rfl, beforeMatches⟩ := matches_of_counter linked.2 debounced counter
    exact ⟨confirmed.2.1, last, before, rest, here, lastMatched,
      (beforeMatches (uninterrupted before (by simp))).1⟩

/-- In a history of calls a class with a counter comes after three consecutive matches throughout
exactly when no call is decided at once, or confirms the other class, among the two before one that
confirms it. -/
theorem debounced_of_run {samples : List (List (NetworkMetrics F))}
    (run : Execution step anything new samples after) :
    EveryStep step Debounced new samples ↔ Execution step uninterrupted new samples after := by
  refine run.everyStep_iff (fun history => Linked history.classifier history.calls) rfl ?_ ?_
  · intro history recent next linked taken
    cases taken
    exact ⟨rfl, linked⟩
  · intro _ _ _ linked _
    exact debounced_iff_uninterrupted linked

/-- Throughput, round trip and loss, of which the last three are looked at. -/
def sampled (throughputMbps rttMs packetLossPct : Rat) : NetworkMetrics Rat :=
  { throughputMbps, rttMs, packetLossPct, inFlightBytes := 0, cwndBytes := 0, retransmits := 0,
    queueDelayMs := 1
    cpuUsagePct := 20, timestamp := 0 }

/-- The throughput decays at a stable round trip time. -/
def decaying : List (NetworkMetrics Rat) := [sampled 90 40 0, sampled 95 40 0, sampled 100 40 0]

/-- The round trip time rises and packets are lost. -/
def congested : List (NetworkMetrics Rat) := [sampled 100 60 3, sampled 100 40 0, sampled 100 40 0]

theorem confirms_decaying {classifier : Classifier} (debounced : bottleneck.debounced = true)
    (confirmed : classifier.Confirms decaying bottleneck) :
    bottleneck = .thermalThrottling ∧
      classifier.confirmationThreshold ≤ classifier.thermalCounter + 1 := by
  cases bottleneck with
  | thermalThrottling => exact ⟨rfl, confirmed.2.2⟩
  | linkLimited => exact absurd confirmed.2.1 (by decide +kernel)
  | _ => cases debounced

/-- Three calls in a row throttle. -/
theorem debounced_decaying : EveryStep step Debounced new [decaying, decaying, decaying] := by
  refine (debounced_of_run (.next trivial rfl (.next trivial rfl (.next trivial rfl .done)))).mpr
    (.next ?_ rfl (.next ?_ rfl (.next ?_ rfl .done)))
  · intro bottleneck debounced confirmed
    exact absurd (confirms_decaying debounced confirmed).2 (by decide)
  · intro bottleneck debounced confirmed
    exact absurd (confirms_decaying debounced confirmed).2 (by decide +kernel)
  · intro _ debounced confirmed call member
    have same : call.recent = decaying := by
      rcases List.mem_cons.mp member with rfl | member
      · rfl
      · rw [List.mem_singleton.mp member]
    rintro (atOnce | ⟨_, counted, different, otherConfirmed⟩)
    · rw [same] at atOnce
      exact absurd atOnce (by decide +kernel)
    · rw [same] at otherConfirmed
      exact different ((confirms_decaying counted otherConfirmed).1.trans
        (confirms_decaying debounced confirmed).1.symm)

/-- Congestion comes between the second call and the third that decay. -/
theorem congested_not_debounced :
    ¬ EveryStep step Debounced new [decaying, decaying, congested, decaying] := by
  intro every
  have last := (((every.tail rfl).tail rfl).tail rfl).head rfl
  obtain ⟨_, _, _, _, same, matched, _⟩ := last .thermalThrottling rfl (by decide +kernel)
  cases same
  exact absurd matched.1 (by decide +kernel)

end ClassifyHistory

end DistributedOs.Control
