import AsapCollector.Control.PlanRust
import AsapCollector.Lib.Float64Order
import AsapCollector.Theorems.Control.PlanDocument

/-! What the validators of Go and Rust both ask of a plan is one contract; each accepts under conditions of its own as
well. -/

namespace AsapCollector.Control.Rust

open Float64 Option Rust.TransmissionRule

/-! ### Numbers -/

variable {x : Float64}

theorem isFinite_iff : isFinite x = true ↔ x.isNaN = false ∧ x.isInf = false := by
  simp [isFinite]

theorem isInf_iff : x.isInf = true ↔ x.magnitude = 0x7ff0000000000000 := by
  rw [isInf, decide_eq_true_eq, ← UInt64.toNat_inj, toNat_and_magnitudeMask]
  rfl

def InUnit (x : Float64) : Prop := x.isNaN = false ∧ 0 < x.key ∧ x.key ≤ (ofInt 1).key

theorem InUnit.notInf (h : InUnit x) : x.isInf = false := by
  by_contra hinf
  have hmagnitude := isInf_iff.mp (Bool.eq_true_of_not_eq_false hinf)
  have hle : x.key ≤ 0x3ff0000000000000 := h.2.2
  have hpos := h.2.1
  unfold key at hle hpos
  cases hs : x.sign <;> simp only [hs, Bool.false_eq_true, if_false, if_true] at hle hpos <;> omega

theorem inUnit_iff (hx : x.isNaN = false) : (x.le ⟨0⟩ || (ofInt 1).lt x) = false ↔ InUnit x := by
  rw [Bool.or_eq_false_iff, ← Bool.not_eq_true, ← Bool.not_eq_true, le_iff hx (by decide),
    lt_iff (by decide) hx, not_le, not_lt]
  exact ⟨fun h => ⟨hx, h⟩, And.right⟩

theorem inUnit_iff_go :
    (x.isNaN || x.isInf || x.le ⟨0⟩ || (ofInt 1).lt x) = false ↔ InUnit x := by
  constructor
  · intro h
    simp only [Bool.or_eq_false_iff] at h
    exact (inUnit_iff h.1.1.1).mp (by rw [h.1.2, h.2, Bool.or_false])
  · intro h
    rw [Bool.or_assoc, h.1, h.notInf, (inUnit_iff h.1).mpr h, Bool.or_false, Bool.or_false]

theorem inUnit_iff_rust :
    (!isFinite x || !rangeContains ⟨0⟩ (ofInt 1) x || x.eq ⟨0⟩) = false ↔ InUnit x := by
  have hzero : isNaN ⟨0⟩ = false := by decide
  simp only [Bool.or_eq_false_iff, Bool.not_eq_false', isFinite_iff, rangeContains, Bool.and_eq_true]
  constructor
  · rintro ⟨⟨⟨hx, -⟩, hle, hone⟩, hne⟩
    rw [le_iff hzero hx] at hle
    rw [← Bool.not_eq_true, eq_iff hx hzero] at hne
    exact ⟨hx, lt_of_le_of_ne hle (Ne.symm hne), (le_iff hx (by decide)).mp hone⟩
  · intro h
    refine ⟨⟨⟨h.1, h.notInf⟩, (le_iff hzero h.1).mpr h.2.1.le, (le_iff h.1 (by decide)).mpr h.2.2⟩, ?_⟩
    rw [← Bool.not_eq_true, eq_iff h.1 hzero]
    exact h.2.1.ne'

/-! ### Sketches -/

def HasParameter (m : CollectorMaterialization) (wire : String) (v : Float64) : Prop :=
  m.parameters.lookup (str wire) = some v ∧ isFinite v = true ∧ lt ⟨0⟩ v = true

/-- An algorithm that the runtimes have, with its parameters in their ranges. -/
def HasSketch (m : CollectorMaterialization) : Prop :=
  match m.algorithm with
  | .ddsketch => ∃ v, HasParameter m "alpha" v ∧ v.lt (ofInt 1) = true
  | .kll => ∃ v, HasParameter m "k" v ∧ v.lt (ofInt 8) = false
  | .hll => ∃ v, HasParameter m "precision" v ∧ v.lt (ofInt 4) = false ∧ (ofInt 18).lt v = false
  | .cms | .countSketch => (∃ v, HasParameter m "width" v) ∧ ∃ v, HasParameter m "depth" v
  | .countSketchWithHeap =>
    (∃ v, HasParameter m "width" v) ∧ (∃ v, HasParameter m "depth" v) ∧ ∃ v, HasParameter m "heap_size" v
  | .sum | .cmsWithHeap | .other _ => False

variable {m : CollectorMaterialization}

variable {v : Float64} {α : Type}

theorem HasParameter.notNaN {wire : String} (h : HasParameter m wire v) : v.isNaN = false :=
  (isFinite_iff.mp h.2.1).1

section
variable {wire runtime : String} {params : GoMap Bytes Float64} {P : GoMap Bytes Float64 → Prop}

theorem accepts_number : Accepts (number m.parameters wire runtime params) P ↔
    ∃ v, HasParameter m wire v ∧ P (params.insert (str runtime) v) := by
  unfold number HasParameter
  cases hl : m.parameters.lookup (str wire) with
  | none => simp
  | some v => cases hf : isFinite v <;> cases hpos : lt ⟨0⟩ v <;> simp [Option.filter, hf, hpos, Accepts]

theorem accepts_requireParameter : Accepts (requireParameter m.parameters wire runtime params) P ↔
    ∃ v, HasParameter m wire v ∧ P (params.insert (str runtime) v) := by
  simp only [requireParameter, accepts_bind, accepts_check, accepts_pure, HasParameter, isFinite_iff]
  cases hl : m.parameters.lookup (str wire) with
  | none => simp
  | some v =>
    cases hn : v.isNaN
    · simp [hn, le_eq_not_lt hn (by decide : isNaN ⟨0⟩ = false), and_assoc]
    · simp [hn]

end

theorem alpha_range (h : HasParameter m "alpha" v) : (ofInt 1).le v = false ↔ v.lt (ofInt 1) = true := by
  rw [le_eq_not_lt (by decide) h.notNaN, Bool.not_eq_false']

theorem precision_range (h : HasParameter m "precision" v) :
    (!rangeContains (ofInt 4) (ofInt 18) v) = (v.lt (ofInt 4) || (ofInt 18).lt v) := by
  rw [rangeContains, le_eq_not_lt (by decide) h.notNaN, le_eq_not_lt h.notNaN (by decide), Bool.not_and,
    Bool.not_not, Bool.not_not]

theorem accepts_decodeAlgorithm {P : Bool → Prop} :
    Accepts (decodeAlgorithm m) (fun found => P found.2.2) ↔ HasSketch m ∧ P (m.algorithm = .countSketchWithHeap) := by
  unfold decodeAlgorithm HasSketch
  cases m.algorithm <;>
    simp only [accepts_bind, accepts_number, accepts_check, accepts_pure, accepts_error, GoMap.get_insert_self,
      exists_and_right, false_and, ← and_assoc, reduceCtorEq, decide_false, decide_true]
  case ddsketch => exact and_congr_left' (exists_congr fun v => and_congr_right alpha_range)
  case hll =>
    refine and_congr_left' (exists_congr fun v => ?_)
    rw [and_assoc]
    exact and_congr_right fun hv => by rw [precision_range hv, Bool.or_eq_false_iff]

theorem accepts_runtimeSketch {P : Bool → Prop} :
    Accepts (runtimeSketch m) (fun found => P found.topk) ↔ HasSketch m ∧ P (m.algorithm = .countSketchWithHeap) := by
  unfold runtimeSketch HasSketch
  cases m.algorithm <;>
    simp only [accepts_bind, accepts_requireParameter, accepts_check, accepts_pure, accepts_error,
      GoMap.get_insert_self,
      exists_and_right, false_and, ← and_assoc, reduceCtorEq, decide_false, decide_true, Bool.or_eq_false_iff]
  case ddsketch => exact and_congr_left' (exists_congr fun v => and_congr_right alpha_range)

/-! ### The contract -/

@[mk_iff]
structure MaterializationContract (m : CollectorMaterialization) : Prop where
  required : (m.metric.isBlank || m.windowSecs = 0 || m.windowImplementationID.isBlank || m.paneSecs = 0 ||
    m.stateLayout.isBlank) = false
  realization : (m.abstractWindowFramework ≠ .tumbling || m.windowImplementationID ≠ str "collector-tumbling-v1" ||
    m.paneSecs ≠ m.windowSecs || m.stateLayout ≠ str "anchored-pane-v1") = false
  lifecycle : m.lifecycle = supportedCollectorLifecycle
  sketch : HasSketch m

@[mk_iff]
structure DeltaContract (algorithm : Algorithm) (delta : DeltaPolicy) : Prop where
  finite : isFinite delta.absoluteThreshold = true
  nonnegative : delta.absoluteThreshold.lt ⟨0⟩ = false
  integral : delta.absoluteThreshold.isIntegral = true
  family : algorithm.hasDeltas = true
  gos : ∀ gos ∈ delta.gos, algorithm.isCountSketch = true ∧ InUnit gos.epsilonStaleness ∧ gos.sites ≠ 0 ∧
    gos.thresholdMode = .isotropic

def SamplingContract (algorithm : Algorithm) : SamplingPolicy → Prop
  | .disabled => True
  | .fixed probability estimator => InUnit probability ∧
      (algorithm = .hll ∧ estimator = .hashThreshold ∨ algorithm = .cms ∧ estimator = .geometricAdmission)

def BoundsContract (bounds : Option AdaptiveF64Bounds) (domainMin domainMax : Float64) : Prop :=
  ∀ b ∈ bounds, isFinite b.min = true ∧ isFinite b.max = true ∧ isFinite b.maxStep = true ∧ b.min.lt domainMin = false ∧
    domainMax.lt b.max = false ∧ b.max.lt b.min = false ∧ b.maxStep.le ⟨0⟩ = false

def Within (b : AdaptiveF64Bounds) (x : Float64) : Prop := x.lt b.min = false ∧ b.max.lt x = false

@[mk_iff]
structure AdaptationContract (rule : TransmissionRule) : Prop where
  evidence : rule.adaptation.enabled = true → rule.adaptation.maxEvidenceAgeMS ≠ 0 ∧
    rule.adaptation.minEvidenceSamples ≠ 0
  sampleBounds : BoundsContract rule.adaptation.sampleProbability ⟨0⟩ (ofInt 1)
  thresholdBounds : BoundsContract rule.adaptation.deltaThreshold ⟨0⟩ maxFloat64
  epsilonBounds : BoundsContract rule.adaptation.gosEpsilonStaleness ⟨0⟩ (ofInt 1)
  interval : ∀ b ∈ rule.adaptation.emitEveryMS, b.min ≠ 0 ∧ ¬ b.max < b.min ∧ b.maxStep ≠ 0 ∧
    ¬ rule.emitEveryMS < b.min ∧ ¬ b.max < rule.emitEveryMS
  sample : ∀ b ∈ rule.adaptation.sampleProbability, Within b rule.sampling.current
  threshold : ∀ b ∈ rule.adaptation.deltaThreshold, ∃ x ∈ rule.delta.map (·.absoluteThreshold), Within b x
  epsilon : ∀ b ∈ rule.adaptation.gosEpsilonStaleness, ∃ x ∈ (rule.delta.bind (·.gos)).map (·.epsilonStaleness),
    Within b x

def CheckpointContract (rule : TransmissionRule) : Prop :=
  match rule.mode with
  | .delta => (∃ ms ∈ rule.fullCheckpointEveryMS, ms ≠ 0) ∧ rule.delta.isSome = true
  | .full => rule.fullCheckpointEveryMS = none ∧ rule.delta = none

@[mk_iff]
structure RuleContract (m : CollectorMaterialization) (rule : TransmissionRule) : Prop where
  named : rule.schemaID.isBlank = false ∧ rule.destinationRef.isBlank = false
  emits : rule.emitEveryMS ≠ 0
  checkpoint : CheckpointContract rule
  delta : ∀ delta ∈ rule.delta, DeltaContract m.algorithm delta
  sampling : SamplingContract m.algorithm rule.sampling
  adaptation : AdaptationContract rule

/-- What both decoders ask of a materialization with its rule. -/
@[mk_iff]
structure PairContract (m : CollectorMaterialization) (rule : TransmissionRule) : Prop where
  materialization : MaterializationContract m
  transmission : RuleContract m rule
  encoding : rule.encoding ≠ .exactAccumulatorV1

/-! ### The parts of the Rust validator -/

variable {P : Unit → Prop} {bounds : Option AdaptiveF64Bounds}

theorem validateF64Bounds_iff {domainMin domainMax : Float64} :
    Accepts (validateF64Bounds bounds domainMin domainMax) P ↔ BoundsContract bounds domainMin domainMax ∧ P () := by
  unfold validateF64Bounds BoundsContract
  cases bounds <;> simp [and_assoc]

theorem validateGuardrail_iff {current : Option Float64} {missing outside : String} :
    Accepts (validateGuardrail bounds current missing outside) P ↔
      (∀ b ∈ bounds, ∃ x ∈ current, Within b x) ∧ P () := by
  unfold validateGuardrail Within
  cases bounds <;> cases current <;> simp

variable {rule : TransmissionRule} {stated : Bool}

theorem validateAdaptation_iff :
    Accepts (validateAdaptation rule) P ↔ AdaptationContract rule ∧ P () := by
  simp only [validateAdaptation, accepts_bind, accepts_check, validateF64Bounds_iff, validateGuardrail_iff,
    adaptationContract_iff, Within, any_eq_false]
  simp [and_assoc]

variable {algorithm : Algorithm}

theorem startsWithCountSketch_eq (h : algorithm.hasDeltas = true) :
    startsWithCountSketch algorithm = algorithm.isCountSketch := by
  cases algorithm <;> first | rfl | cases h

theorem validateDelta_iff {delta : Option DeltaPolicy} :
    Accepts (validateDelta algorithm delta) P ↔ (∀ d ∈ delta, DeltaContract algorithm d) ∧ P () := by
  cases delta with
  | none => simp [validateDelta]
  | some d =>
    simp only [validateDelta, accepts_bind, accepts_check, deltaContract_iff, mem_def, some.injEq, forall_eq',
      Bool.or_eq_false_iff, Bool.not_eq_false', any_eq_false, and_assoc]
    refine and_congr_right fun _ => and_congr_right fun _ => and_congr_right fun _ => and_congr_right fun hfamily =>
      and_congr_left fun _ => forall₂_congr fun gos _ => ?_
    rw [startsWithCountSketch_eq hfamily, ← inUnit_iff_rust]
    simp [and_assoc]

theorem validateSampling_iff {sampling : SamplingPolicy} :
    Accepts (validateSampling algorithm sampling) P ↔ SamplingContract algorithm sampling ∧ P () := by
  cases sampling with
  | disabled => simp [validateSampling, SamplingContract]
  | fixed p estimator =>
    simp only [validateSampling, accepts_bind, accepts_check, inUnit_iff_rust, SamplingContract, and_assoc,
      Bool.not_eq_false', Bool.or_eq_true, Bool.and_eq_true, decide_eq_true_eq]

theorem checkpoint_iff :
    (decide (rule.mode = .delta) && rule.fullCheckpointEveryMS.all (· = 0)) = false ∧
        (decide (rule.mode = .full) && rule.fullCheckpointEveryMS.isSome) = false ∧
        (decide (rule.mode = .delta) != rule.delta.isSome) = false ↔ CheckpointContract rule := by
  unfold CheckpointContract
  cases rule.mode <;> cases rule.fullCheckpointEveryMS <;> cases rule.delta <;> simp

theorem validateRule_iff :
    Accepts (validateRule rule m) P ↔
      RuleContract m rule ∧ rule.emitEveryMS = saturatingMul m.windowSecs 1000 ∧ P () := by
  simp only [validateRule, accepts_bind, accepts_check, validateDelta_iff, validateSampling_iff, validateAdaptation_iff,
    ruleContract_iff, ← checkpoint_iff, Bool.or_eq_false_iff, decide_eq_false_iff_not, ne_eq, not_not]
  tauto

theorem encodingOf_iff {encoding : StateEncoding} {P : Encoding → Prop} (h : ∀ e, P e) :
    Accepts (encodingOf encoding) P ↔ encoding ≠ .exactAccumulatorV1 := by
  cases encoding <;> simp [encodingOf, h]

/-- A sketch with a heap names its evidence. -/
def Evident (m : CollectorMaterialization) (absent : Bytes → Bool) : Prop :=
  m.algorithm = .countSketchWithHeap → ∃ evidence ∈ m.evidenceSource, absent evidence = false

theorem evident_iff {absent : Bytes → Bool} :
    (decide (m.algorithm = .countSketchWithHeap) && m.evidenceSource.all absent) = false ↔ Evident m absent := by
  unfold Evident
  cases m.evidenceSource <;> simp

theorem toConfig_iff :
    Accepts (toConfig m rule) (fun _ => True) ↔
      MaterializationContract m ∧ rule.encoding ≠ .exactAccumulatorV1 ∧ Evident m (·.isEmpty) := by
  simp only [toConfig, accepts_bind, accepts_check, accepts_pure, encodingOf_iff fun _ => trivial]
  rw [@accepts_decodeAlgorithm m fun topk =>
    (topk && m.evidenceSource.all (·.isEmpty)) = false ∧ rule.encoding ≠ .exactAccumulatorV1, evident_iff,
    materializationContract_iff, decide_eq_false_iff_not, not_not]
  tauto

/-! ### The parts of the Go validator -/

theorem validateAdaptiveF64_iff {domainMin domainMax : Float64} :
    Accepts (validateAdaptiveF64 bounds domainMin domainMax) P ↔ BoundsContract bounds domainMin domainMax ∧ P () := by
  unfold validateAdaptiveF64 BoundsContract
  cases bounds <;> simp [isFinite_iff]
  tauto

theorem currentSampleP_toGo (sampling : SamplingPolicy) (stated : Bool) :
    currentSampleP (sampling.toGo stated) = sampling.current := by
  cases sampling <;> cases stated <;> rfl

theorem guardrail_toGo {β : Type} {b : AdaptiveF64Bounds} {current : Option α} {toGo : α → β} {value : β → Float64} :
    ((current.map toGo).all fun x => (value x).lt b.min || b.max.lt (value x)) = false ↔
      ∃ x ∈ current.map fun x => value (toGo x), Within b x := by
  cases current <;> simp [Within]

theorem gos_toGo (delta : Option DeltaPolicy) :
    (delta.map (·.toGo)).bind (·.gos) = (delta.bind (·.gos)).map (·.toGo) := by
  cases delta <;> rfl

theorem validateAdaptation_toGo :
    Accepts (Control.validateAdaptation (rule.toGo stated)) P ↔ AdaptationContract rule ∧ P () := by
  simp only [Control.validateAdaptation, accepts_bind, accepts_check, validateAdaptiveF64_iff, Bool.and_eq_false_imp,
    Bool.or_eq_false_iff, decide_eq_false_iff_not, any_eq_false]
  simp only [toGo, gos_toGo, guardrail_toGo, currentSampleP_toGo, ← Within.eq_1, adaptationContract_iff,
    and_assoc]
  rfl

theorem validateDeltaPolicy_toGo {delta : Option DeltaPolicy}
    (hnum : ∀ gos ∈ delta.bind (·.gos), gos.epsilonStaleness.isNaN = false) :
    Accepts (validateDeltaPolicy algorithm (delta.map (·.toGo))) P ↔
      (∀ d ∈ delta, DeltaContract algorithm d) ∧ P () := by
  cases delta with
  | none => simp [validateDeltaPolicy]
  | some d =>
    simp only [map_some, validateDeltaPolicy, accepts_bind, accepts_check, deltaContract_iff,
      mem_def, some.injEq, forall_eq', Bool.or_eq_false_iff, Bool.not_eq_false', any_eq_false, and_assoc,
      isFinite_iff, decide_eq_false_iff_not, ne_eq, not_not]
    simp only [DeltaPolicy.toGo, map_eq_some_iff, forall_exists_index, and_imp, forall_apply_eq_imp_iff₂]
    refine and_congr_right fun _ => and_congr_right fun _ => and_congr_right fun _ => and_congr_right fun _ =>
      and_congr_right fun _ => and_congr_left fun _ => forall₂_congr fun gos hgos => and_congr_right fun _ => ?_
    rw [← inUnit_iff (hnum gos hgos), Bool.or_eq_false_iff, and_assoc]
    cases hmode : gos.thresholdMode <;> simp [GosPolicy.toGo, hmode]

theorem SamplingEstimator.toGo_eq_iff {a b : SamplingEstimator} : a.toGo = b.toGo ↔ a = b := by
  cases a <;> cases b <;> decide

theorem validateSamplingPolicy_toGo {sampling : SamplingPolicy} (h : algorithm ≠ .cmsWithHeap) :
    Accepts (validateSamplingPolicy algorithm (sampling.toGo stated)) P ↔
      SamplingContract algorithm sampling ∧ P () := by
  rcases sampling with _ | ⟨p, estimator⟩
  · cases stated <;> simp [validateSamplingPolicy, SamplingContract, SamplingPolicy.toGo, samplingMode]
  · have hmode : samplingMode ((SamplingPolicy.fixed p estimator).toGo stated) = str "fixed" := rfl
    simp only [validateSamplingPolicy, hmode, if_true, accepts_bind, accepts_check, Bool.not_eq_false', Bool.or_eq_true,
       Bool.and_eq_true, decide_eq_true_eq, SamplingContract, h, or_false, and_assoc]
    exact and_congr inUnit_iff_go (and_congr_left' (or_congr
      (and_congr_right' (@SamplingEstimator.toGo_eq_iff _ .hashThreshold))
      (and_congr_right' (@SamplingEstimator.toGo_eq_iff _ .geometricAdmission))))

def Numeric (rule : TransmissionRule) : Prop := ∀ gos ∈ rule.delta.bind (·.gos), gos.epsilonStaleness.isNaN = false

theorem validateCheckpoint_toGo :
    Accepts (validateCheckpoint (rule.toGo stated)) P ↔ CheckpointContract rule ∧ P () := by
  unfold validateCheckpoint CheckpointContract toGo
  cases rule.mode <;> cases rule.fullCheckpointEveryMS <;> cases rule.delta <;> simp [TransmissionMode.toGo]

theorem encoding_toGo {encoding : StateEncoding} {sum : Bool} (h : sum = false) :
    (decide (encoding.toGo ≠ stateEncodingSketchlibProtobufV1) &&
      decide (encoding.toGo ≠ stateEncodingSketchCoreMsgpackV1) &&
        decide (encoding.toGo ≠ stateEncodingExactAccumulatorV1)) = false ∧
      (sum != decide (encoding.toGo = stateEncodingExactAccumulatorV1)) = false ↔ encoding ≠ .exactAccumulatorV1 := by
  subst h
  cases encoding <;> decide

theorem validateTransmissionRule_toGo (hsum : m.algorithm ≠ .sum) (hheap : m.algorithm ≠ .cmsWithHeap)
    (hnum : Numeric rule) : Accepts (validateTransmissionRule (rule.toGo stated) m) P ↔
      RuleContract m rule ∧ rule.encoding ≠ .exactAccumulatorV1 ∧ rule.emitEveryMS = m.windowSecs * 1000 ∧ P () := by
  have hsampling {P : Unit → Prop} : Accepts (validateSamplingPolicy m.algorithm
    (rule.toGo stated).runtimePolicy.sampling) P ↔
    SamplingContract m.algorithm rule.sampling ∧ P () := validateSamplingPolicy_toGo hheap
  have hdelta {P : Unit → Prop} : Accepts (validateDeltaPolicy m.algorithm (rule.toGo stated).runtimePolicy.delta) P ↔
    (∀ delta ∈ rule.delta, DeltaContract m.algorithm delta) ∧ P () := validateDeltaPolicy_toGo hnum
  have hencoding := @encoding_toGo rule.encoding (m.algorithm = .sum) (by simpa using hsum)
  simp only [validateTransmissionRule, accepts_bind, accepts_check, validateCheckpoint_toGo, validateAdaptation_toGo,
    hsampling, hdelta, Bool.or_eq_false_iff, decide_eq_false_iff_not]
  constructor
  · rintro ⟨⟨hnamed, hemits⟩, hcadence, hcheckpoint, hknown, hfamily, hsampled, hpolicy, hadapts, hP⟩
    exact ⟨⟨hnamed, hemits, hcheckpoint, hpolicy, hsampled, hadapts⟩, hencoding.mp ⟨hknown, hfamily⟩,
      not_not.mp hcadence, hP⟩
  · rintro ⟨⟨hnamed, hemits, hcheckpoint, hpolicy, hsampled, hadapts⟩, henc, hcadence, hP⟩
    obtain ⟨hknown, hfamily⟩ := hencoding.mpr henc
    exact ⟨⟨hnamed, hemits⟩, not_not.mpr hcadence, hcheckpoint, hknown, hfamily, hsampled, hpolicy, hadapts, hP⟩

variable {overflow : Float64 → UInt64}

theorem precomputeConfig_iff {rule : AsapCollector.TransmissionRule} :
    Accepts (precomputeConfig overflow m rule) (fun _ => True) ↔ MaterializationContract m ∧
      Evident m Bytes.isBlank := by
  simp only [precomputeConfig, accepts_bind, accepts_check, accepts_pure, and_true]
  rw [@accepts_runtimeSketch m fun topk => (topk && m.evidenceSource.all Bytes.isBlank) = false, evident_iff,
    materializationContract_iff, decide_eq_false_iff_not, not_not]
  tauto

/-! ### Pairs -/

/-- What only Go asks of a pair: a cadence in wrapping arithmetic, and evidence that is not blank. -/
def GoTakes (m : CollectorMaterialization) (rule : TransmissionRule) : Prop :=
  rule.emitEveryMS = m.windowSecs * 1000 ∧ Evident m Bytes.isBlank

/-- What only Rust asks of a pair: a cadence in saturating arithmetic, and evidence that is not empty. -/
def RustTakes (m : CollectorMaterialization) (rule : TransmissionRule) : Prop :=
  rule.emitEveryMS = saturatingMul m.windowSecs 1000 ∧ Evident m (·.isEmpty)

theorem HasSketch.family (h : HasSketch m) : m.algorithm ≠ .sum ∧ m.algorithm ≠ .cmsWithHeap := by
  unfold HasSketch at h
  constructor <;> intro halgorithm <;> simp [halgorithm] at h

theorem goPair_iff (hnum : Numeric rule) :
    Accepts (validateTransmissionRule (rule.toGo stated) m)
        (fun _ => Accepts (precomputeConfig overflow m (rule.toGo stated)) fun _ => True) ↔
      PairContract m rule ∧ GoTakes m rule := by
  constructor
  · rintro ⟨_, hrule, hcfg⟩
    obtain ⟨hm, hevident⟩ := precomputeConfig_iff.mp hcfg
    obtain ⟨hr, henc, hcadence, -⟩ := (@validateTransmissionRule_toGo m (fun _ => True) rule stated hm.sketch.family.1
      hm.sketch.family.2 hnum).mp ⟨_, hrule, trivial⟩
    exact ⟨⟨hm, hr, henc⟩, hcadence, hevident⟩
  · rintro ⟨⟨hm, hr, henc⟩, hcadence, hevident⟩
    exact (validateTransmissionRule_toGo hm.sketch.family.1 hm.sketch.family.2 hnum).mpr
      ⟨hr, henc, hcadence, precomputeConfig_iff.mpr ⟨hm, hevident⟩⟩

theorem rustPair_iff :
    Accepts (validateRule rule m) (fun _ => Accepts (toConfig m rule) fun _ => True) ↔ PairContract m rule ∧
      RustTakes m rule := by
  rw [validateRule_iff, toConfig_iff, pairContract_iff, RustTakes]
  tauto

/-! ### Plans -/

def Matched (plan : CollectorPlan) (m : CollectorMaterialization) (rule : TransmissionRule) : Prop :=
  m ∈ plan.materializations ∧ rule ∈ plan.transmissionRules ∧ rule.materialization = m.materialization

/-- What both validators ask of a plan. No spelling of its rules matters to `Paired`. -/
structure PlanContract (plan : CollectorPlan) (collectorID : Bytes) : Prop where
  target : plan.collectorID = collectorID
  paired : ∀ stated, Paired (plan.toGo stated)
  covered : ∀ m ∈ plan.materializations, ∃ rule, Matched plan m rule
  pairs : ∀ m rule, Matched plan m rule → PairContract m rule

variable {plan : CollectorPlan} {spelling : Nat → TransmissionRule → Bool}

theorem rules_toGo (plan : CollectorPlan) (spelling : Nat → TransmissionRule → Bool) :
    (plan.toGo spelling).transmissionRules.map (·.materialization) = plan.transmissionRules.map (·.materialization) :=
  List.ext_getElem (by simp [CollectorPlan.toGo]) (by simp [CollectorPlan.toGo, toGo])

theorem mem_rules_toGo {goRule : AsapCollector.TransmissionRule} :
    goRule ∈ (plan.toGo spelling).transmissionRules ↔
      ∃ (i : Nat) (rule : TransmissionRule), plan.transmissionRules[i]? = some rule ∧
        rule.toGo (spelling i rule) = goRule := by
  simp only [CollectorPlan.toGo, List.mem_mapIdx, List.getElem?_eq_some_iff]
  constructor
  · rintro ⟨i, hi, rfl⟩
    exact ⟨i, _, ⟨hi, rfl⟩, rfl⟩
  · rintro ⟨i, _, ⟨hi, rfl⟩, rfl⟩
    exact ⟨i, hi, rfl⟩

theorem identityMissing_toGo (plan : CollectorPlan) (spelling : Nat → TransmissionRule → Bool) :
    identityMissing (plan.toGo spelling) = (plan.envelope.planID = 0 || plan.envelope.planVersion = 0 ||
      plan.generatedAtUnixMS = 0 || plan.activationUnixMS = 0 || plan.activationUnixMS < plan.generatedAtUnixMS ||
      plan.envelope.backendCompat.isBlank || plan.plannerRevision.isBlank || plan.capabilitySnapshotID.isBlank ||
      plan.expiryUnixMS.any (· ≤ plan.activationUnixMS)) := by
  simp only [identityMissing, CollectorPlan.toGo]
  ac_rfl

theorem paired_respell (h : Paired (plan.toGo spelling)) (spelling' : Nat → TransmissionRule → Bool) :
    Paired (plan.toGo spelling') where
  identity := h.identity
  bound := by
    intro goRule hgo
    obtain ⟨i, rule, hrule, rfl⟩ := mem_rules_toGo.mp hgo
    exact h.bound (rule.toGo (spelling i rule)) (mem_rules_toGo.mpr ⟨i, rule, hrule, rfl⟩)
  rules := by
    rw [rules_toGo, ← rules_toGo plan spelling]
    exact h.rules
  named := h.named
  materializations := h.materializations
  length := by simpa [CollectorPlan.toGo] using h.length

section
variable (hnodup : (plan.transmissionRules.map (·.materialization)).Nodup)
include hnodup

theorem Matched.unique {rule rule' : TransmissionRule}
    (h : Matched plan m rule) (h' : Matched plan m rule') : rule = rule' :=
  List.inj_on_of_nodup_map hnodup h.2.1 h'.2.1 (h.2.2.trans h'.2.2.symm)

theorem yields_iff (hm : m ∈ plan.materializations)
    {cfg : PrecomputeConfig} :
    Yields overflow (indexBy (·.materialization) (plan.toGo spelling).transmissionRules) m cfg ↔
      ∃ i rule, plan.transmissionRules[i]? = some rule ∧ Matched plan m rule ∧
        validateTransmissionRule (rule.toGo (spelling i rule)) m = .ok () ∧
        precomputeConfig overflow m (rule.toGo (spelling i rule)) = .ok cfg := by
  unfold Yields
  simp only [lookup_indexBy (rules_toGo plan spelling ▸ hnodup)]
  constructor
  · rintro ⟨_, ⟨hgo, hid⟩, hvalid, hcfg⟩
    obtain ⟨i, rule, hrule, rfl⟩ := mem_rules_toGo.mp hgo
    exact ⟨i, rule, hrule, ⟨hm, List.mem_of_getElem? hrule, hid⟩, hvalid, hcfg⟩
  · rintro ⟨i, rule, hrule, ⟨-, -, hid⟩, hvalid, hcfg⟩
    exact ⟨_, ⟨mem_rules_toGo.mpr ⟨i, rule, hrule, rfl⟩, hid⟩, hvalid, hcfg⟩

end

theorem decodeDocument_iff {collectorID : Bytes} (hnum : ∀ rule ∈ plan.transmissionRules, Numeric rule) :
    (∃ set, decodeDocument overflow (plan.toGo spelling) collectorID = .ok set) ↔
      PlanContract plan collectorID ∧ ∀ m rule, Matched plan m rule → GoTakes m rule := by
  constructor
  · rintro ⟨set, hset⟩
    obtain ⟨htarget, hpaired, configs, hyields, -⟩ := decodeDocument_eq_ok.mp hset
    have hnodup := rules_toGo plan spelling ▸ hpaired.rules
    have hpair m (hm : m ∈ plan.materializations) : ∃ rule, Matched plan m rule ∧ PairContract m rule ∧
        GoTakes m rule := by
      obtain ⟨cfg, -, hcfg⟩ := forall₂_exists_right hyields m hm
      obtain ⟨i, rule, -, hmatched, hvalid, hcfg⟩ := (yields_iff hnodup hm).mp hcfg
      exact ⟨rule, hmatched, (goPair_iff (hnum rule hmatched.2.1)).mp ⟨(), hvalid, cfg, hcfg, trivial⟩⟩
    have hall m rule (h : Matched plan m rule) : PairContract m rule ∧ GoTakes m rule := by
      obtain ⟨rule', h', hgood⟩ := hpair m h.1
      rwa [h.unique hnodup h']
    refine ⟨⟨htarget, paired_respell hpaired, fun m hm => ?_, fun m rule h => (hall m rule h).1⟩,
      fun m rule h => (hall m rule h).2⟩
    obtain ⟨rule, h, -⟩ := hpair m hm
    exact ⟨rule, h⟩
  · rintro ⟨⟨htarget, hpaired, hcovered, hpairs⟩, htakes⟩
    have hnodup := rules_toGo plan spelling ▸ (hpaired spelling).rules
    obtain ⟨configs, hyields⟩ := @exists_forall₂ _ _
      (Yields overflow (indexBy (·.materialization) (plan.toGo spelling).transmissionRules)) plan.materializations
        (fun m hm => by
        obtain ⟨rule, hmatched⟩ := hcovered m hm
        obtain ⟨i, hrule⟩ := List.mem_iff_getElem?.mp hmatched.2.1
        obtain ⟨_, hvalid, cfg, hcfg, -⟩ := (@goPair_iff m rule (spelling i rule) overflow (hnum rule hmatched.2.1)).mpr
          ⟨hpairs m rule hmatched, htakes m rule hmatched⟩
        exact ⟨cfg, (yields_iff hnodup hm).mpr ⟨i, rule, hrule, hmatched, hvalid, hcfg⟩⟩)
    exact ⟨_, decodeDocument_eq_ok.mpr ⟨htarget, hpaired spelling, configs, hyields, rfl⟩⟩

theorem ruleOf_iff (hnodup : (plan.transmissionRules.map (·.materialization)).Nodup) (hm : m ∈ plan.materializations) :
    ruleOf plan m.materialization = .ok rule ↔ Matched plan m rule := by
  have hfind := @find?_eq_some_of_nodup _ _ _ (·.materialization) _ hnodup m.materialization rule
  unfold ruleOf Matched
  rw [eq_true hm, true_and, ← hfind]
  cases plan.transmissionRules.find? fun rule => rule.materialization = m.materialization <;> simp

theorem materializationOf_iff (hnodup : (plan.materializations.map (·.materialization)).Nodup)
    (hrule : rule ∈ plan.transmissionRules) :
    materializationOf plan rule.materialization = .ok m ↔ Matched plan m rule := by
  have hfind := @find?_eq_some_of_nodup _ _ _ (·.materialization) _ hnodup rule.materialization m
  unfold materializationOf Matched
  rw [eq_true hrule, true_and, @eq_comm _ rule.materialization, ← hfind]
  cases plan.materializations.find? fun m => m.materialization = rule.materialization <;> simp

theorem configOf_iff (hnodup : (plan.transmissionRules.map (·.materialization)).Nodup) (hm : m ∈ plan.materializations)
    {cfg : Config} : configOf plan m = .ok cfg ↔ ∃ rule, Matched plan m rule ∧ toConfig m rule = .ok cfg := by
  simp only [configOf, bind_eq_ok, ruleOf_iff hnodup hm, mapError_eq_ok]

theorem collectMaterializations_iff {ms : List CollectorMaterialization} {seen : List UInt64} :
    ms.foldlM collectMaterialization [] = .ok seen ↔
      (∀ m ∈ ms, m.queryID.isBlank = false ∧ m.materialization ≠ 0) ∧ (ms.map (·.materialization)).Nodup ∧
        seen = ms.map (·.materialization) := by
  refine foldlM_eq_ok_keys fun acc m acc' => ?_
  simp only [collectMaterialization, bind_eq_ok, check_eq_ok, exists_const, pure_eq_ok, Bool.or_eq_false_iff,
    decide_eq_false_iff_not, and_assoc, @eq_comm _ acc']

theorem collectRules_iff {rules : List TransmissionRule} {ids ruled : List UInt64} :
    rules.foldlM (collectRule plan ids) [] = .ok ruled ↔
      (∀ rule ∈ rules, rule.producerID = plan.collectorID ∧ rule.materialization ∈ ids ∧
        ∃ m, materializationOf plan rule.materialization = .ok m ∧ validateRule rule m = .ok ()) ∧
        (rules.map (·.materialization)).Nodup ∧ ruled = rules.map (·.materialization) := by
  refine foldlM_eq_ok_keys fun acc rule acc' => ?_
  simp only [collectRule, bind_eq_ok, check_eq_ok, exists_const, pure_eq_ok, Bool.or_eq_false_iff, mapError_eq_ok,
    decide_eq_false_iff_not, ne_eq, not_not, @eq_comm _ acc']
  constructor
  · rintro ⟨⟨⟨hproducer, hmem⟩, hnew⟩, m, hm, _, hvalid, hacc⟩
    exact ⟨⟨hproducer, hmem, m, hm, hvalid⟩, hnew, hacc⟩
  · rintro ⟨⟨hproducer, hmem, m, hm, hvalid⟩, hnew, hacc⟩
    exact ⟨⟨⟨hproducer, hmem⟩, hnew⟩, m, hm, (), hvalid, hacc⟩

theorem sameSet_iff [DecidableEq α] {l l' : List α} :
    (!(l.all (· ∈ l') && l'.all (· ∈ l))) = false ↔ l ⊆ l' ∧ l' ⊆ l := by
  simp [List.subset_def]

variable {collectorID : Bytes}

theorem validate_iff :
    validate plan collectorID = .ok () ↔ PlanContract plan collectorID ∧ ∀ m rule, Matched plan m rule →
      RustTakes m rule := by
  simp only [validate, bind_eq_ok, check_eq_ok, exists_const, ← identityMissing_toGo plan fun _ _ => true,
    collectMaterializations_iff,
    collectRules_iff, decide_eq_false_iff_not, ne_eq, not_not, mapM_eq_ok, pure_eq_ok, sameSet_iff, and_true]
  constructor
  · rintro ⟨htarget, hidentity, _, ⟨hnamed, hms, rfl⟩, _, ⟨hrules, hnodup, rfl⟩, ⟨hsub, hsup⟩, configs, hconfigs⟩
    have hall m rule (h : Matched plan m rule) : PairContract m rule ∧ RustTakes m rule := by
      obtain ⟨-, -, m', hm', hvalid⟩ := hrules rule h.2.1
      obtain ⟨cfg, -, hcfg⟩ := forall₂_exists_right hconfigs m h.1
      obtain ⟨rule', hrule', hcfg⟩ := (configOf_iff hnodup h.1).mp hcfg
      cases Except.ok.inj (hm'.symm.trans ((materializationOf_iff hms h.2.1).mpr h))
      cases h.unique hnodup hrule'
      exact rustPair_iff.mp ⟨(), hvalid, cfg, hcfg, trivial⟩
    refine ⟨⟨htarget, fun spelling => ⟨hidentity, ?_, rules_toGo plan spelling ▸ hnodup, hnamed, hms, ?_⟩, ?_,
      fun m rule h => (hall m rule h).1⟩, fun m rule h => (hall m rule h).2⟩
    · rintro _ hgo
      obtain ⟨i, rule, hrule, rfl⟩ := mem_rules_toGo.mp hgo
      obtain ⟨hproducer, hid, -⟩ := hrules rule (List.mem_of_getElem? hrule)
      obtain ⟨m, hm, hmid⟩ := List.mem_map.mp hid
      refine ⟨?_, hproducer⟩
      show rule.materialization ≠ 0
      rw [← hmid]
      exact (hnamed m hm).2
    · have hperm := (List.perm_ext_iff_of_nodup hnodup hms).mpr fun id => ⟨@hsub id, @hsup id⟩
      simpa [CollectorPlan.toGo] using hperm.length_eq
    · intro m hm
      obtain ⟨rule, hmem, hid⟩ := List.mem_map.mp (hsup (List.mem_map_of_mem hm))
      exact ⟨rule, hm, hmem, hid⟩
  · rintro ⟨⟨htarget, hpaired, hcovered, hpairs⟩, htakes⟩
    have hpaired := hpaired fun _ _ => true
    have hnodup := rules_toGo plan _ ▸ hpaired.rules
    have hms : (plan.materializations.map (·.materialization)).Nodup := hpaired.materializations
    have hsup : plan.materializations.map (·.materialization) ⊆ plan.transmissionRules.map (·.materialization) := by
      intro id hid
      obtain ⟨m, hm, rfl⟩ := List.mem_map.mp hid
      obtain ⟨rule, hmatched⟩ := hcovered m hm
      exact List.mem_map.mpr ⟨rule, hmatched.2⟩
    have hlen : plan.transmissionRules.length = plan.materializations.length := by
      simpa [CollectorPlan.toGo] using hpaired.length
    have hperm := (List.subperm_of_subset hms hsup).perm_of_length_le (by simp [hlen])
    have hgood m rule (h : Matched plan m rule) := rustPair_iff.mpr ⟨hpairs m rule h, htakes m rule h⟩
    refine ⟨htarget, hpaired.identity, _, ⟨hpaired.named, hms, rfl⟩, _, ⟨?_, hnodup, rfl⟩, ⟨hperm.symm.subset, hsup⟩,
      ?_⟩
    · intro rule hrule
      have hid := hperm.symm.subset (List.mem_map_of_mem hrule)
      obtain ⟨m, hm, hmid⟩ := List.mem_map.mp hid
      have hmatched : Matched plan m rule := ⟨hm, hrule, hmid.symm⟩
      obtain ⟨_, hvalid, -⟩ := hgood m rule hmatched
      obtain ⟨i, hat⟩ := List.mem_iff_getElem?.mp hrule
      have hproducer := (hpaired.bound _ (mem_rules_toGo.mpr ⟨i, rule, hat, rfl⟩)).2
      exact ⟨hproducer, hid, m, (materializationOf_iff hms hrule).mpr hmatched, hvalid⟩
    · refine exists_forall₂ fun m hm => ?_
      obtain ⟨rule, hmatched⟩ := hcovered m hm
      obtain ⟨-, -, cfg, hcfg, -⟩ := hgood m rule hmatched
      exact ⟨cfg, (configOf_iff hnodup hm).mpr ⟨rule, hmatched, hcfg⟩⟩

/-! ### Configurations -/

theorem sign_or_zero (hnum : x.isNaN = false) (hpos : x.lt ⟨0⟩ = false) : x.sign = false ∨ x.magnitude = 0 := by
  rw [← Bool.not_eq_true, lt_iff hnum (by decide), not_lt] at hpos
  have hkey : (0 : Int) ≤ x.key := hpos
  unfold key at hkey
  cases hs : x.sign
  · exact .inl rfl
  · simp only [hs, if_true] at hkey
    exact .inr (by omega)

theorem toNat_trunc (hnum : x.isNaN = false) (hpos : x.lt ⟨0⟩ = false) :
    x.trunc.toNat = if 0 ≤ x.exponent then x.mantissa * 2 ^ x.exponent.toNat else x.mantissa / 2 ^
      (-x.exponent).toNat := by
  unfold trunc
  rcases sign_or_zero hnum hpos with hs | hz
  · simp only [hs, Bool.false_eq_true, if_false, Int.toNat_natCast]
  · have hmantissa : x.mantissa = 0 := by simp [mantissa, hz]
    simp only [hmantissa, Nat.zero_mul, Nat.zero_div, ite_self, Nat.cast_zero, neg_zero, Int.toNat_zero]

theorem ceil_div_of_dvd {n d : Nat} (hd : 0 < d) (h : n % d = 0) : (n + d - 1) / d = n / d := by
  obtain ⟨q, rfl⟩ := Nat.dvd_of_mod_eq_zero h
  rw [Nat.add_sub_assoc hd, Nat.mul_add_div hd, Nat.div_eq_of_lt (Nat.sub_lt hd Nat.one_pos),
    Nat.mul_div_cancel_left q hd, Nat.add_zero]

theorem ceilUint64_of_integral (hnum : x.isNaN = false) (hpos : x.lt ⟨0⟩ = false)
    (hint : x.isIntegral = true) :
    x.ceilUint64 overflow = if x.trunc.toNat < 2 ^ 64 then UInt64.ofNat x.trunc.toNat else overflow x := by
  have hceil : (if 0 ≤ x.exponent then x.mantissa * 2 ^ x.exponent.toNat
      else (x.mantissa + 2 ^ (-x.exponent).toNat - 1) / 2 ^ (-x.exponent).toNat) = x.trunc.toNat := by
    rw [toNat_trunc hnum hpos]
    split
    · rfl
    · rename_i hneg
      exact ceil_div_of_dvd (Nat.two_pow_pos _) (by simpa [isIntegral, hneg] using hint)
  simp only [ceilUint64, hceil]

theorem asU64_of_nonneg (hfinite : isFinite x = true) (hpos : x.lt ⟨0⟩ = false) :
    asU64 x = UInt64.ofNat (min x.trunc.toNat (2 ^ 64 - 1)) := by
  obtain ⟨hnum, hinf⟩ := isFinite_iff.mp hfinite
  rcases sign_or_zero hnum hpos with hs | hz
  · simp [asU64, hnum, hinf, hs]
  · have hmantissa : x.mantissa = 0 := by simp [mantissa, hz]
    simp [asU64, hnum, hinf, toNat_trunc hnum hpos, hmantissa]

theorem threshold_eq_iff {delta : DeltaPolicy} (h : DeltaContract algorithm delta) :
    delta.absoluteThreshold.ceilUint64 overflow = asU64 delta.absoluteThreshold ↔
      delta.absoluteThreshold.trunc.toNat < 2 ^ 64 ∨ overflow delta.absoluteThreshold = 0xffffffffffffffff := by
  rw [ceilUint64_of_integral (isFinite_iff.mp h.finite).1 h.nonnegative h.integral,
    asU64_of_nonneg h.finite h.nonnegative]
  split
  · rename_i hlt
    rw [Nat.min_eq_left (Nat.le_sub_one_of_lt hlt)]
    exact iff_of_true rfl (.inl hlt)
  · rename_i hge
    rw [Nat.min_eq_right ((Nat.sub_le _ 1).trans (not_lt.mp hge)), eq_false hge, false_or]
    rfl

/-- The window is a duration, and the threshold is an integer of 64 bits or the platform saturates. -/
def Fits (overflow : Float64 → UInt64) (m : CollectorMaterialization) (rule : TransmissionRule) : Prop :=
  m.windowSecs.toNat * 1000000000 < 2 ^ 63 ∧ ∀ delta ∈ rule.delta,
    delta.absoluteThreshold.trunc.toNat < 2 ^ 64 ∨ overflow delta.absoluteThreshold = 0xffffffffffffffff

/-- The two configurations agree in what both have. -/
def Same (cfg : PrecomputeConfig) (cfg' : Config) : Prop :=
  cfg.aggID = cfg'.aggID ∧ cfg.window.size = cfg'.windowSize ∧ cfg.aggregateBy = cfg'.aggregateBy ∧
    cfg.deltaTransmission = cfg'.deltaTransmission ∧ cfg.deltaThreshold = cfg'.deltaThreshold

theorem TransmissionMode.toGo_eq_delta {mode : TransmissionMode} : mode.toGo = .delta ↔ mode = .delta := by
  cases mode <;> decide

theorem same_iff {cfg : PrecomputeConfig} {cfg' : Config}
    (hdelta : ∀ delta ∈ rule.delta, DeltaContract m.algorithm delta)
    (hgo : precomputeConfig overflow m (rule.toGo stated) = .ok cfg) (hrust : toConfig m rule = .ok cfg') :
    Same cfg cfg' ↔ Fits overflow m rule := by
  simp only [precomputeConfig, bind_eq_ok, check_eq_ok, exists_const, pure_eq_ok] at hgo
  simp only [toConfig, bind_eq_ok, check_eq_ok, exists_const, pure_eq_ok] at hrust
  obtain ⟨-, -, -, _, -, -, rfl⟩ := hgo
  obtain ⟨-, -, -, _, -, -, _, -, rfl⟩ := hrust
  have hmode : decide ((rule.toGo stated).mode = .delta) = decide (rule.mode = .delta) :=
    decide_eq_decide.mpr TransmissionMode.toGo_eq_delta
  simp only [Same, Fits, hmode, true_and, durationOfSeconds_eq_iff, and_congr_right_iff]
  intro _
  simp only [deltaThreshold, toGo]
  cases hd : rule.delta with
  | none => simp
  | some delta => simpa [DeltaPolicy.toGo] using threshold_eq_iff (hdelta delta hd)

theorem toPrecomputeConfigSet_eq_ok {set : UInt64 × List Config} :
    toPrecomputeConfigSet plan collectorID = .ok set ↔ validate plan collectorID = .ok () ∧
      List.Forall₂ (fun m cfg => configOf plan m = .ok cfg) plan.materializations set.2 ∧
        plan.envelope.planVersion = set.1 := by
  simp only [toPrecomputeConfigSet, bind_eq_ok, mapM_eq_ok, pure_eq_ok]
  constructor
  · rintro ⟨_, hvalid, _, -, configs, hconfigs, rfl⟩
    exact ⟨hvalid, hconfigs, rfl⟩
  · rintro ⟨hvalid, hconfigs, hversion⟩
    have hself : validate plan plan.collectorID = .ok () := by
      obtain ⟨⟨htarget, hrest⟩, htakes⟩ := validate_iff.mp hvalid
      rw [htarget]
      exact hvalid
    exact ⟨(), hvalid, (), hself, set.2, hconfigs, Prod.ext hversion rfl⟩

theorem toPrecomputeConfigSet_iff :
    (∃ set, toPrecomputeConfigSet plan collectorID = .ok set) ↔
      PlanContract plan collectorID ∧ ∀ m rule, Matched plan m rule → RustTakes m rule := by
  rw [← validate_iff]
  constructor
  · rintro ⟨set, hset⟩
    exact (toPrecomputeConfigSet_eq_ok.mp hset).1
  · intro hvalid
    have h := hvalid
    simp only [validate, bind_eq_ok, mapM_eq_ok] at h
    obtain ⟨-, -, -, -, -, -, -, -, -, -, configs, hconfigs, -⟩ := h
    exact ⟨(_, configs), toPrecomputeConfigSet_eq_ok.mpr ⟨hvalid, hconfigs, rfl⟩⟩

/-- Both validators refuse a plan, or both take it and make the same configurations of it. -/
def Agree : Except PlanDocumentError PrecomputeConfigSet → Except CollectorPlanError (UInt64 × List Config) → Prop
  | .ok set, .ok set' => List.Forall₂ Same set.configs set'.2
  | .error _, .error _ => True
  | _, _ => False

theorem agree_iff {go : Except PlanDocumentError PrecomputeConfigSet}
    {rust : Except CollectorPlanError (UInt64 × List Config)} :
    Agree go rust ↔ ((∃ set, go = .ok set) ↔ ∃ set', rust = .ok set') ∧
      ∀ set set', go = .ok set → rust = .ok set' → List.Forall₂ Same set.configs set'.2 := by
  cases go <;> cases rust <;> simp [Agree]

theorem same_configs_iff {set : PrecomputeConfigSet} {set' : UInt64 × List Config}
    (hgo : decodeDocument overflow (plan.toGo spelling) collectorID = .ok set)
    (hrust : toPrecomputeConfigSet plan collectorID = .ok set') :
    List.Forall₂ Same set.configs set'.2 ↔ ∀ m rule, Matched plan m rule → Fits overflow m rule := by
  obtain ⟨-, hpaired, configs, hyields, rfl⟩ := decodeDocument_eq_ok.mp hgo
  obtain ⟨hvalid, hconfigs, -⟩ := toPrecomputeConfigSet_eq_ok.mp hrust
  obtain ⟨hcontract, -⟩ := validate_iff.mp hvalid
  have hnodup := rules_toGo plan spelling ▸ hpaired.rules
  have hsame : ∀ m ∈ plan.materializations, ∀ cfg cfg',
      Yields overflow (indexBy (·.materialization) (plan.toGo spelling).transmissionRules) m cfg →
        configOf plan m = .ok cfg' → (Same cfg cfg' ↔ ∀ rule, Matched plan m rule → Fits overflow m rule) := by
    intro m hm cfg cfg' hcfg hcfg'
    obtain ⟨i, rule, -, hmatched, -, hcfg⟩ := (yields_iff hnodup hm).mp hcfg
    obtain ⟨rule', hmatched', hcfg'⟩ := (configOf_iff hnodup hm).mp hcfg'
    cases hmatched.unique hnodup hmatched'
    rw [same_iff (hcontract.pairs m rule hmatched).transmission.delta hcfg hcfg']
    exact ⟨fun hfits rule' h => hmatched.unique hnodup h ▸ hfits, fun hfits => hfits rule hmatched⟩
  rw [forall₂_iff hyields hconfigs hsame]
  exact ⟨fun h m rule hmatched => h m hmatched.1 rule hmatched, fun h m _ rule => h m rule⟩

/-- Go and Rust agree about a plan if and only if, where it keeps their common contract, they take all its pairs and
these fit, or each of them has a pair that it does not take; however the document spells a sampling that is off. -/
theorem plan_validators_agree_iff (overflow : Float64 → UInt64) (plan : CollectorPlan)
    (stated : Nat → TransmissionRule → Bool) (collectorID : Bytes)
    (hnum : ∀ rule ∈ plan.transmissionRules, ∀ gos ∈ rule.delta.bind (·.gos), gos.epsilonStaleness.isNaN = false) :
    Agree (decodeDocument overflow (plan.toGo stated) collectorID) (toPrecomputeConfigSet plan collectorID) ↔
      (PlanContract plan collectorID →
        (∀ m rule, Matched plan m rule → GoTakes m rule ∧ RustTakes m rule ∧ Fits overflow m rule) ∨
        (∃ m rule, Matched plan m rule ∧ ¬ GoTakes m rule) ∧ ∃ m rule, Matched plan m rule ∧ ¬ RustTakes m rule) := by
  have hgo := @decodeDocument_iff overflow plan stated collectorID hnum
  have hrust := @toPrecomputeConfigSet_iff plan collectorID
  have hconfigs : (∀ set set', decodeDocument overflow (plan.toGo stated) collectorID = .ok set →
      toPrecomputeConfigSet plan collectorID = .ok set' → List.Forall₂ Same set.configs set'.2) ↔
        ((∃ set, decodeDocument overflow (plan.toGo stated) collectorID = .ok set) →
          (∃ set', toPrecomputeConfigSet plan collectorID = .ok set') → ∀ m rule, Matched plan m rule →
            Fits overflow m rule) :=
    ⟨fun h ⟨set, hg⟩ ⟨set', hr⟩ => (same_configs_iff hg hr).mp (h set set' hg hr),
      fun h set set' hg hr => (same_configs_iff hg hr).mpr (h ⟨set, hg⟩ ⟨set', hr⟩)⟩
  have hnot {Q : CollectorMaterialization → TransmissionRule → Prop} :
      (∃ m rule, Matched plan m rule ∧ ¬ Q m rule) ↔ ¬ ∀ m rule, Matched plan m rule → Q m rule := by
    simp only [not_forall, exists_prop]
  rw [agree_iff, hconfigs, hgo, hrust, hnot, hnot]
  simp only [forall_and]
  tauto

def quantileRustRule (emitEveryMS : UInt64) : TransmissionRule where
  materialization := 7
  producerID := str "edge"
  schemaID := str "kll"
  mode := .full
  encoding := .sketchlibProtobufV1
  emitEveryMS
  fullCheckpointEveryMS := none
  destinationRef := str "backend"
  sampling := .disabled
  delta := none
  adaptation := ⟨false, 0, 0, 0, none, none, none, none⟩

def quantilePlan (windowSecs emitEveryMS : UInt64) : CollectorPlan where
  collectorID := str "edge"
  envelope := ⟨3, 1, str "v1"⟩
  generatedAtUnixMS := 1
  activationUnixMS := 1
  expiryUnixMS := none
  plannerRevision := str "r"
  capabilitySnapshotID := str "s"
  materializations := [quantileMaterialization windowSecs]
  transmissionRules := [quantileRustRule emitEveryMS]

theorem plan_validators_agree_minute :
    (decodeDocument (fun _ => 0) ((quantilePlan 60 60000).toGo fun _ _ => true) (str "edge")).isOk = true ∧
      Agree (decodeDocument (fun _ => 0) ((quantilePlan 60 60000).toGo fun _ _ => true) (str "edge"))
        (toPrecomputeConfigSet (quantilePlan 60 60000) (str "edge")) := by
  refine ⟨by decide +kernel, (plan_validators_agree_iff (fun _ => 0) (quantilePlan 60 60000) _ (str "edge") ?_).mpr
    fun _ => .inl ?_⟩
  · simp [quantilePlan, quantileRustRule]
  · rintro m rule ⟨hm, hrule, -⟩
    cases List.mem_singleton.mp hm
    cases List.mem_singleton.mp hrule
    refine ⟨⟨rfl, nofun⟩, ⟨rfl, nofun⟩, by decide, nofun⟩

/-- A window of `2 ^ 61 + 1` seconds that is sent every second is a plan for Go only. -/
theorem overflowing_cadence_divides :
    ¬ Agree (decodeDocument (fun _ => 0) ((quantilePlan 0x2000000000000001 1000).toGo fun _ _ => true) (str "edge"))
      (toPrecomputeConfigSet (quantilePlan 0x2000000000000001 1000) (str "edge")) := by
  have hgo : (decodeDocument (fun _ => 0) ((quantilePlan 0x2000000000000001 1000).toGo fun _ _ => true)
      (str "edge")).isOk = true := by
    decide +kernel
  have hrust : (toPrecomputeConfigSet (quantilePlan 0x2000000000000001 1000) (str "edge")).isOk = false := by
    decide +kernel
  intro hagree
  generalize decodeDocument (fun _ => 0) ((quantilePlan 0x2000000000000001 1000).toGo fun _ _ => true) (str "edge") =
    go at hgo hagree
  generalize toPrecomputeConfigSet (quantilePlan 0x2000000000000001 1000) (str "edge") = rust at hrust hagree
  cases go with
  | error e => cases hgo
  | ok set =>
    cases rust with
    | error e => exact hagree
    | ok set' => cases hrust

end AsapCollector.Control.Rust
