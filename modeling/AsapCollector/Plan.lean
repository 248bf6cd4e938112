import AsapCollector.Lib.Bytes
import AsapCollector.Lib.Float64

/-! The part of a physical plan that frame sequencing reads (`collector_plan.go`). `TransmissionRule.deepEqual` is Go's
`reflect.DeepEqual` on two rules, which follows pointers and compares floating-point knobs with `==`. -/

namespace AsapCollector

/-- The fields of `CollectorPlanEnvelope` that identify frames. -/
structure CollectorPlanEnvelope where
  planID : UInt64
  planVersion : UInt64
  backendCompat : Bytes
deriving DecidableEq

/-- `TransmissionMode`, with any other text a decoded rule might hold. -/
inductive TransmissionMode where
  | full
  | delta
  | other (text : Bytes)
deriving DecidableEq

structure GOSPolicy where
  epsilonStaleness : Float64
  sites : UInt32
  thresholdMode : Bytes

structure DeltaPolicy where
  absoluteThreshold : Float64
  gos : Option GOSPolicy

structure SamplingPolicy where
  mode : Bytes
  probability : Float64
  estimator : Bytes

structure AdaptiveF64Bounds where
  min : Float64
  max : Float64
  maxStep : Float64

structure AdaptiveU64Bounds where
  min : UInt64
  max : UInt64
  maxStep : UInt64
deriving DecidableEq

structure RuntimeAdaptationPolicy where
  enabled : Bool
  notBeforeUnixMS : UInt64
  maxEvidenceAgeMS : UInt64
  minEvidenceSamples : UInt64
  sampleProbability : Option AdaptiveF64Bounds
  emitEveryMS : Option AdaptiveU64Bounds
  deltaThreshold : Option AdaptiveF64Bounds
  gosEpsilonStaleness : Option AdaptiveF64Bounds

structure RuntimeRulePolicy where
  sampling : SamplingPolicy
  delta : Option DeltaPolicy
  adaptation : RuntimeAdaptationPolicy

structure TransmissionRule where
  materialization : UInt64
  producerID : Bytes
  schemaID : Bytes
  mode : TransmissionMode
  encoding : Bytes
  emitEveryMS : UInt64
  fullCheckpointEveryMS : Option UInt64
  destinationRef : Bytes
  runtimePolicy : RuntimeRulePolicy

structure CollectorPlan where
  collectorID : Bytes
  envelope : CollectorPlanEnvelope
  transmissionRules : List TransmissionRule

/-- Two pointers are deeply equal when both are nil or they point to deeply equal values. -/
def deepEqualPtr {α : Type} (eq : α → α → Bool) : Option α → Option α → Bool
  | none, none => true
  | some a, some b => eq a b
  | _, _ => false

def GOSPolicy.deepEqual (a b : GOSPolicy) : Bool :=
  a.epsilonStaleness.eq b.epsilonStaleness && a.sites == b.sites && a.thresholdMode == b.thresholdMode

def DeltaPolicy.deepEqual (a b : DeltaPolicy) : Bool :=
  a.absoluteThreshold.eq b.absoluteThreshold && deepEqualPtr GOSPolicy.deepEqual a.gos b.gos

def SamplingPolicy.deepEqual (a b : SamplingPolicy) : Bool :=
  a.mode == b.mode && a.probability.eq b.probability && a.estimator == b.estimator

def AdaptiveF64Bounds.deepEqual (a b : AdaptiveF64Bounds) : Bool :=
  a.min.eq b.min && a.max.eq b.max && a.maxStep.eq b.maxStep

def RuntimeAdaptationPolicy.deepEqual (a b : RuntimeAdaptationPolicy) : Bool :=
  a.enabled == b.enabled && a.notBeforeUnixMS == b.notBeforeUnixMS &&
  a.maxEvidenceAgeMS == b.maxEvidenceAgeMS && a.minEvidenceSamples == b.minEvidenceSamples &&
  deepEqualPtr AdaptiveF64Bounds.deepEqual a.sampleProbability b.sampleProbability &&
  a.emitEveryMS == b.emitEveryMS &&
  deepEqualPtr AdaptiveF64Bounds.deepEqual a.deltaThreshold b.deltaThreshold &&
  deepEqualPtr AdaptiveF64Bounds.deepEqual a.gosEpsilonStaleness b.gosEpsilonStaleness

def RuntimeRulePolicy.deepEqual (a b : RuntimeRulePolicy) : Bool :=
  a.sampling.deepEqual b.sampling && deepEqualPtr DeltaPolicy.deepEqual a.delta b.delta &&
  a.adaptation.deepEqual b.adaptation

def TransmissionRule.deepEqual (a b : TransmissionRule) : Bool :=
  a.materialization == b.materialization && a.producerID == b.producerID && a.schemaID == b.schemaID &&
  a.mode == b.mode && a.encoding == b.encoding && a.emitEveryMS == b.emitEveryMS &&
  a.fullCheckpointEveryMS == b.fullCheckpointEveryMS && a.destinationRef == b.destinationRef &&
  a.runtimePolicy.deepEqual b.runtimePolicy

end AsapCollector
