import AsapCollector.Frame.SequencerRust

/-! The sequencers of Go and Rust, in step over every sequence of calls. -/

namespace AsapCollector.Control.Rust

open List Rust.FrameSequencer Rust.TransmissionRule Rust.SequencerCall

theorem StateEncoding.toGo_eq_text (e : StateEncoding) : e.toGo = e.text := by
  cases e <;> rfl

theorem TransmissionMode.beq_toGo (a b : TransmissionMode) : (a.toGo == b.toGo) = (a == b) := by
  cases a <;> cases b <;> rfl

theorem StateEncoding.beq_toGo (a b : StateEncoding) : (a.toGo == b.toGo) = (a == b) := by
  cases a <;> cases b <;> rfl

theorem SamplingEstimator.beq_toGo (a b : SamplingEstimator) : (a.toGo == b.toGo) = (a == b) := by
  cases a <;> cases b <;> rfl

theorem deepEqualPtr_map {α β : Type} {f : α → β} {eq : β → β → Bool} {eq' : α → α → Bool}
    (h : ∀ a b, eq (f a) (f b) = eq' a b) (a b : Option α) :
    deepEqualPtr eq (a.map f) (b.map f) = deepEqualPtr eq' a b := by
  cases a <;> cases b <;> simp [deepEqualPtr, h]

theorem GosPolicy.deepEqual_toGo (a b : GosPolicy) : a.toGo.deepEqual b.toGo = a.eq b := by
  obtain ⟨e, n, m⟩ := a
  obtain ⟨e', n', m'⟩ := b
  cases m <;> cases m' <;> rfl

theorem DeltaPolicy.deepEqual_toGo (a b : DeltaPolicy) : a.toGo.deepEqual b.toGo = a.eq b := by
  simp only [DeltaPolicy.toGo, DeltaPolicy.deepEqual, DeltaPolicy.eq, deepEqualPtr_map GosPolicy.deepEqual_toGo]

theorem SamplingPolicy.deepEqual_toGo (stated : Bool) (a b : SamplingPolicy) :
    (a.toGo stated).deepEqual (b.toGo stated) = a.eq b := by
  cases a with
  | disabled => cases b <;> cases stated <;> rfl
  | fixed p e =>
    cases b with
    | disabled => cases stated <;> rfl
    | fixed p' e' =>
      simp [SamplingPolicy.toGo, SamplingPolicy.deepEqual, SamplingPolicy.eq, SamplingEstimator.beq_toGo]

theorem TransmissionRule.deepEqual_toGo (stated : UInt64 → Bool) (a b : TransmissionRule) :
    (a.toGo (stated a.materialization)).deepEqual (b.toGo (stated b.materialization)) = a.eq b := by
  by_cases hsame : a.materialization = b.materialization
  · simp only [toGo, TransmissionRule.deepEqual, RuntimeRulePolicy.deepEqual, eq, hsame,
      TransmissionMode.beq_toGo, StateEncoding.beq_toGo, SamplingPolicy.deepEqual_toGo,
      deepEqualPtr_map DeltaPolicy.deepEqual_toGo]
  · have hne : (a.materialization == b.materialization) = false := beq_false_of_ne hsame
    simp only [toGo, TransmissionRule.deepEqual, eq, hne, Bool.false_and]

variable {c : SequencerCall} {stated : UInt64 → Bool}

/-- Go finds a rule in the plan where Rust finds one. -/
theorem any_toGo : (c.goPlan stated).transmissionRules.any (fun candidate => candidate.deepEqual (c.goRule stated)) =
    c.plan.transmissionRules.any (fun candidate => candidate.eq c.rule) := by
  rw [Bool.eq_iff_iff, any_eq_true, any_eq_true]
  simp only [goPlan, goRule, CollectorPlan.toGo, mem_mapIdx]
  constructor
  · rintro ⟨_, ⟨i, hi, rfl⟩, hequal⟩
    exact ⟨_, getElem_mem hi, by rwa [deepEqual_toGo] at hequal⟩
  · rintro ⟨candidate, hmem, hequal⟩
    obtain ⟨i, hi, rfl⟩ := getElem_of_mem hmem
    exact ⟨_, ⟨i, hi, rfl⟩, by rwa [deepEqual_toGo]⟩

theorem SequencerCall.accepted_iff : c.accepted = true ↔ c.rule.producerID = c.plan.collectorID ∧
    c.plan.transmissionRules.any (fun candidate => candidate.eq c.rule) = true ∧ c.producerEpoch ≠ [] ∧
      c.seriesIdentity ≠ [] ∧ ¬c.windowEnd ≤ c.windowStart := by
  simp only [accepted, Bool.and_eq_true, decide_eq_true_eq, UInt64.not_le, and_assoc]

theorem FrameSequencer.next_eq_ok {s : FrameSequencer} {r : FrameSequencer × SummaryFrameIdentity} :
    s.next c = .ok r ↔ c.accepted = true ∧ s.emit c = r := by
  rw [accepted_iff]
  unfold next
  split
  · rename_i h
    refine ⟨nofun, fun ⟨⟨hproducer, hany, hepoch, hseries, _⟩, _⟩ => ?_⟩
    simp [hproducer, hany, hepoch, hseries] at h
  · rename_i h
    simp only [not_or, ne_eq, not_not, Bool.not_eq_false] at h
    split
    · rename_i hwindow
      simp [hwindow]
    · rename_i hwindow
      simp [h, hwindow]

def SequencerCall.goEmit (c : SequencerCall) (stated : UInt64 → Bool) (s : AsapCollector.FrameSequencer) :
    AsapCollector.FrameSequencer × AsapCollector.SummaryFrameIdentity :=
  s.emit (c.goPlan stated).toCollectorPlan (c.goRule stated) c.producerEpoch c.seriesIdentity c.windowStart c.windowEnd
    c.nowUnixMS (FrameSequencer.fullRequired (c.goRule stated) (s.state c.key) c.nowUnixMS)

theorem goNext_eq_ok {s : AsapCollector.FrameSequencer}
    {r : AsapCollector.FrameSequencer × AsapCollector.SummaryFrameIdentity} :
    c.goNext stated s = .ok r ↔ c.accepted = true ∧ c.goEmit stated s = r := by
  rw [goNext, AsapCollector.FrameSequencer.next_eq_ok, any_toGo, accepted_iff]
  constructor
  · rintro ⟨hepoch, hseries, hwindow, hproducer, hfound, -, heq⟩
    exact ⟨⟨hproducer, hfound, hepoch, hseries, UInt64.not_le.mpr hwindow⟩, heq⟩
  · rintro ⟨⟨hproducer, hfound, hepoch, hseries, hwindow⟩, heq⟩
    exact ⟨hepoch, hseries, UInt64.not_le.mp hwindow, hproducer, hfound, nofun, heq⟩

structure Numbered (n : Nat) (state : FrameLineageState) : Prop where
  sequence : state.sequence.toNat = n
  checkpoint : state.sequence ≠ 0 → state.checkpointID ≠ []

theorem saturatingSub_le {cadence now at_ : UInt64} (hpos : cadence ≠ 0) :
    decide (cadence ≤ saturatingSub now at_) = (decide (at_ ≤ now) && decide (cadence ≤ now - at_)) := by
  unfold saturatingSub
  split
  · next h => simp [h]
  · next h =>
    have hzero : ¬cadence ≤ 0 := fun hle => hpos (UInt64.le_zero_iff.mp hle)
    simp [h, hzero]

theorem checkpointDue_eq (hcadence : c.rule.fullCheckpointEveryMS ≠ some 0) (state : FrameLineageState)
    (hsucc : saturatingSucc state.sequence = state.sequence + 1) :
    checkpointDue c { state with sequence := saturatingSucc state.sequence } =
      FrameSequencer.fullRequired (c.goRule stated) state c.nowUnixMS := by
  have hmode : decide (c.rule.mode = .full) = decide ((c.goRule stated).mode = .full) := by
    cases hm : c.rule.mode <;> simp [goRule, toGo, TransmissionMode.toGo, hm]
  have hdue : (c.rule.fullCheckpointEveryMS.any fun cadence =>
      decide (cadence ≤ saturatingSub c.nowUnixMS state.checkpointAtMS)) =
        AsapCollector.FrameSequencer.checkpointDue (c.goRule stated) state c.nowUnixMS := by
    simp only [AsapCollector.FrameSequencer.checkpointDue, goRule, toGo]
    cases hevery : c.rule.fullCheckpointEveryMS with
    | none => rfl
    | some every => exact saturatingSub_le fun hzero => hcadence (by rw [hevery, hzero])
  simp only [checkpointDue, FrameSequencer.fullRequired, hsucc, hmode, hdue]

theorem advance_eq (hcadence : c.rule.fullCheckpointEveryMS ≠ some 0) (state : FrameLineageState)
    (hsucc : saturatingSucc state.sequence = state.sequence + 1) :
    advance c state = AsapCollector.FrameSequencer.advance state (c.goRule stated).producerID c.producerEpoch
      c.windowStart c.nowUnixMS (FrameSequencer.fullRequired (c.goRule stated) state c.nowUnixMS) := by
  unfold advance
  dsimp only
  rw [checkpointDue_eq hcadence state hsucc, hsucc]
  rfl

theorem setIfNonEmpty_eq (attrs : GoMap Bytes Bytes) (name value : Bytes) :
    SummaryFrameIdentity.setIfNonEmpty attrs name value = insertSome attrs name (ofText value) := by
  unfold SummaryFrameIdentity.setIfNonEmpty ofText
  split <;> rfl

theorem Numbered.advance {n : Nat} {state : FrameLineageState} (h : Numbered n state) (hn : n + 1 < 2 ^ 64)
    (producerID producerEpoch : Bytes) (windowStart nowUnixMS : UInt64) {full : Bool}
    (hfull : state.sequence + 1 = 1 → full = true) :
    Numbered (n + 1) (AsapCollector.FrameSequencer.advance state producerID producerEpoch windowStart nowUnixMS full) ∧
      (AsapCollector.FrameSequencer.advance state producerID producerEpoch windowStart nowUnixMS full).checkpointID ≠
        [] := by
  have hseq : (state.sequence + 1).toNat = n + 1 := by
    rw [UInt64.toNat_add, h.sequence]
    exact Nat.mod_eq_of_lt hn
  cases full with
  | true =>
    exact ⟨⟨hseq, fun _ => FrameSequencer.checkpointName_ne_nil _ _ _ _⟩, FrameSequencer.checkpointName_ne_nil _ _ _ _⟩
  | false =>
    have hfirst : state.sequence ≠ 0 := fun hzero => by
      rw [hzero] at hfull
      exact absurd (hfull rfl) (by decide)
    exact ⟨⟨hseq, fun _ => h.checkpoint hfirst⟩, h.checkpoint hfirst⟩

theorem saturatingSucc_eq {n : UInt64} (h : n.toNat + 1 < 2 ^ 64) : saturatingSucc n = n + 1 := if_pos h

theorem ofText_of_ne_nil {text : Bytes} (h : text ≠ []) : ofText text = some text := if_neg h

def InStep (g : AsapCollector.FrameSequencer) (r : FrameSequencer) (frames : FrameLineageKey → Nat) : Prop :=
  ∀ key, g.state key = r.lineages.get {} key ∧ Numbered (frames key) (g.state key)

def counted (c : SequencerCall) (frames : FrameLineageKey → Nat) : FrameLineageKey → Nat :=
  fun key => if key = c.key then frames key + 1 else frames key

theorem InStep.emit {g : AsapCollector.FrameSequencer} {r : FrameSequencer} {frames : FrameLineageKey → Nat}
    (h : InStep g r frames) (hcadence : c.rule.fullCheckpointEveryMS ≠ some 0)
    (hn : frames c.key + 1 < 2 ^ 64) :
    InStep (c.goEmit stated g).1 (r.emit c).1 (counted c frames) ∧ SameResult (.ok (c.goEmit stated g).2)
      (.ok (r.emit c).2) := by
  obtain ⟨hstate, hnumbered⟩ := h c.key
  have hsucc := saturatingSucc_eq (by rw [hnumbered.sequence]; exact hn)
  have hfirst : (g.state c.key).sequence + 1 = 1 →
      FrameSequencer.fullRequired (c.goRule stated) (g.state c.key) c.nowUnixMS = true := fun h1 => by
    simp [FrameSequencer.fullRequired, h1]
  obtain ⟨hnext, hcheckpoint⟩ := hnumbered.advance hn (c.goRule stated).producerID c.producerEpoch c.windowStart
    c.nowUnixMS hfirst
  have hadvance := @advance_eq c stated hcadence _ hsucc
  have hdue := @checkpointDue_eq c stated hcadence _ hsucc
  refine ⟨fun key => ?_, ?_⟩
  · by_cases hkey : key = c.key
    · subst hkey
      have hgo : (c.goEmit stated g).1.state c.key = AsapCollector.FrameSequencer.advance (g.state c.key)
          (c.goRule stated).producerID c.producerEpoch c.windowStart c.nowUnixMS
          (FrameSequencer.fullRequired (c.goRule stated) (g.state c.key) c.nowUnixMS) := GoMap.get_insert_self _ _ _ _
      have hrust : (r.emit c).1.lineages.get {} c.key = advance c (r.lineages.get {} c.key) :=
        GoMap.get_insert_self _ _ _ _
      rw [hgo, hrust, ← hstate, hadvance, counted, if_pos rfl]
      exact ⟨rfl, hnext⟩
    · have hgo : (c.goEmit stated g).1.state key = g.state key := GoMap.get_insert_of_ne hkey
      have hrust : (r.emit c).1.lineages.get {} key = r.lineages.get {} key := GoMap.get_insert_of_ne hkey
      rw [hgo, hrust, counted, if_neg hkey]
      exact h key
  · have htext := ofText_of_ne_nil hcheckpoint
    have hempty : ofText [] = none := rfl
    have hkey : FrameSequencer.lineageKey (c.goPlan stated).toCollectorPlan (c.goRule stated) c.producerEpoch
      c.seriesIdentity = c.key := rfl
    simp only [goEmit, AsapCollector.FrameSequencer.emit, FrameSequencer.emit, hkey, ← hstate, hdue,
      hadvance]
    generalize AsapCollector.FrameSequencer.advance _ _ _ _ _ _ = state at htext ⊢
    generalize FrameSequencer.fullRequired (c.goRule stated) (g.state c.key) c.nowUnixMS = full
    cases full <;> refine ⟨rfl, rfl, ?_, ?_, ?_⟩ <;>
      simp only [AsapCollector.SummaryFrameIdentity.otlpAttributes, SummaryFrameIdentity.otlpAttributes,
        setIfNonEmpty_eq,
        goPlan, goRule, CollectorPlan.toGo, toGo, StateEncoding.toGo_eq_text, htext, hempty,
          if_true, Bool.false_eq_true,
        if_false]

def framesOf (calls : List SequencerCall) (key : FrameLineageKey) : Nat :=
  calls.countP fun c => c.accepted && c.key = key

theorem run_agree : ∀ {calls : List SequencerCall} {g : AsapCollector.FrameSequencer} {r : FrameSequencer}
    {frames : FrameLineageKey → Nat}, InStep g r frames → (∀ c ∈ calls, c.rule.fullCheckpointEveryMS ≠ some 0) →
    (∀ key, frames key + framesOf calls key < 2 ^ 64) →
    Forall₂ SameResult (goRun stated g calls) (r.run calls)
  | [], _, _, _, _, _, _ => .nil
  | c :: calls, g, r, frames, h, hcadence, hcount => by
    have hrest := fun c' hc' => hcadence c' (mem_cons_of_mem _ hc')
    cases hc : c.accepted with
    | false =>
      have hrefused : ¬c.accepted = true := fun hno => nomatch hc.symm.trans hno
      obtain ⟨e, hgo⟩ := exists_error fun r hr => hrefused ((@goNext_eq_ok c stated g r).mp hr).1
      obtain ⟨e', hrust⟩ := exists_error fun r' hr => hrefused ((next_eq_ok (s := r)).mp hr).1
      have hcount' : ∀ key, frames key + framesOf calls key < 2 ^ 64 := fun key => by
        have := hcount key
        simpa [framesOf, hc] using this
      rw [goRun, run, hgo, hrust]
      exact .cons trivial (run_agree h hrest hcount')
    | true =>
      have hgo := (@goNext_eq_ok c stated g _).mpr ⟨hc, rfl⟩
      have hlt : frames c.key + 1 < 2 ^ 64 := by
        have := hcount c.key
        rw [framesOf, countP_cons, hc] at this
        simp only [Bool.true_and, decide_true, if_true] at this
        omega
      obtain ⟨hmatched, hsame⟩ := h.emit (hcadence c mem_cons_self) hlt
      have hcount' : ∀ key, counted c frames key + framesOf calls key < 2 ^ 64 := fun key => by
        have := hcount key
        rw [framesOf, countP_cons, hc] at this
        rw [counted, framesOf]
        by_cases hkey : key = c.key
        · subst hkey
          simp only [Bool.true_and, decide_true, if_true] at this ⊢
          omega
        · simp only [Bool.true_and, Ne.symm hkey, decide_false, if_neg hkey, Bool.false_eq_true, if_false] at this ⊢
          omega
      rw [goRun, run, hgo, next_eq_ok.mpr ⟨hc, rfl⟩]
      exact .cons hsame (run_agree hmatched hrest hcount')

/-- Over every sequence of calls the two sequencers accept the same calls and return the same frames for them. -/
theorem sequencers_agree (stated : UInt64 → Bool) (calls : List SequencerCall)
    (hcadence : ∀ c ∈ calls, c.rule.fullCheckpointEveryMS ≠ some 0) (hcount : ∀ key, framesOf calls key < 2 ^ 64) :
    Forall₂ SameResult (goRun stated {} calls) (run {} calls) := by
  have hstart : InStep {} {} fun _ => 0 := fun key => ⟨rfl, rfl, fun h => absurd rfl h⟩
  exact run_agree hstart hcadence fun key => by simpa using hcount key

/-- A rule of a plan with one delta rule, and a checkpoint every second. -/
def deltaRule : TransmissionRule where
  materialization := 5
  producerID := str "edge"
  schemaID := str "s"
  mode := .delta
  encoding := .sketchlibProtobufV1
  emitEveryMS := 10
  fullCheckpointEveryMS := some 1000
  destinationRef := str "d"
  sampling := .disabled
  delta := none
  adaptation := ⟨false, 0, 0, 0, none, none, none, none⟩

def deltaCall (nowUnixMS : UInt64) : SequencerCall where
  plan :=
    { collectorID := str "edge", envelope := ⟨1, 1, str "v1"⟩, generatedAtUnixMS := 1, activationUnixMS := 1,
      expiryUnixMS := none, plannerRevision := [], capabilitySnapshotID := [], materializations := [],
      transmissionRules := [deltaRule] }
  rule := deltaRule
  producerEpoch := str "e"
  seriesIdentity := str "host=a"
  windowStart := 0
  windowEnd := 10
  nowUnixMS := nowUnixMS

/-- A full frame, a delta after the clock has gone back, and a checkpoint later. -/
theorem sequencers_agree_clock_back :
    (run {} [deltaCall 5000, deltaCall 100, deltaCall 6000]).map (fun result => result.toOption.map (·.kind)) =
        [some .full, some .delta, some .full] ∧
      Forall₂ SameResult (goRun (fun _ => false) {} [deltaCall 5000, deltaCall 100, deltaCall 6000])
        (run {} [deltaCall 5000, deltaCall 100, deltaCall 6000]) := by
  refine ⟨by decide +kernel, sequencers_agree _ _ (fun c hc => ?_) fun key => ?_⟩
  · simp only [mem_cons, not_mem_nil, or_false] at hc
    rcases hc with rfl | rfl | rfl <;> decide
  · exact Nat.lt_of_le_of_lt countP_le_length (by decide)

end AsapCollector.Control.Rust
