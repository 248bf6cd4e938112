import AsapCollector.Lib.Check
import AsapCollector.Plan
import AsapCollector.Precompute.Config

/-! `DecodeCollectorPlan` of `collector_plan.go`. The JSON decoder is a parameter, and so is what the platform makes of
a float that does not fit into a `uint64`. -/

namespace AsapCollector

/-- `strings.TrimSpace(s) == ""`: only white space, in UTF-8. -/
def Bytes.isBlank : Bytes → Bool
  | [] => true
  | 0xc2 :: 0x85 :: s | 0xc2 :: 0xa0 :: s => isBlank s
  | 0xe1 :: 0x9a :: 0x80 :: s | 0xe3 :: 0x80 :: 0x80 :: s | 0xe2 :: 0x81 :: 0x9f :: s => isBlank s
  | 0xe2 :: 0x80 :: b :: s => (b ≤ 0x8a && 0x80 ≤ b || b = 0xa8 || b = 0xa9 || b = 0xaf) && isBlank s
  | b :: s => (b = 0x20 || 0x09 ≤ b && b ≤ 0x0d) && isBlank s

/-- `math.Trunc(x) == x` for a finite `x`. -/
def Float64.isIntegral (x : Float64) : Bool := 0 ≤ x.exponent || x.mantissa % 2 ^ (-x.exponent).toNat = 0

namespace Control

/-- `SummaryWindowFramework`, with any other text. -/
inductive WindowFramework where
  | tumbling
  | sliding
  | exponentialHistogram
  | other (text : Bytes)
deriving DecidableEq

inductive Algorithm where
  | sum
  | ddsketch
  | kll
  | hll
  | cms
  | cmsWithHeap
  | countSketch
  | countSketchWithHeap
  | other (text : Bytes)
deriving DecidableEq

structure CollectorLifecycle where
  kind : Bytes
  maintenanceMode : Bytes
  evaluationSchedule : Bytes
  outputRepresentation : Bytes
deriving DecidableEq

def supportedCollectorLifecycle : CollectorLifecycle where
  kind := str "continuously_maintained"
  maintenanceMode := str "incremental"
  evaluationSchedule := str "per_update"
  outputRepresentation := str "summary_state"

structure CollectorMaterialization where
  queryID : Bytes
  materialization : UInt64
  metric : Bytes
  algorithm : Algorithm
  parameters : GoMap Bytes Float64
  groupBy : List Bytes
  windowSecs : UInt64
  abstractWindowFramework : WindowFramework
  windowImplementationID : Bytes
  paneSecs : UInt64
  stateLayout : Bytes
  evidenceSource : Option Bytes
  lifecycle : CollectorLifecycle

/-- `CollectorPlan` with all its fields; the plan that frames are numbered under is a part of it. -/
structure PlanDocument extends CollectorPlan where
  generatedAtUnixMS : UInt64
  activationUnixMS : UInt64
  expiryUnixMS : Option UInt64
  plannerRevision : Bytes
  capabilitySnapshotID : Bytes
  materializations : List CollectorMaterialization

inductive MaterializationError where
  | message (text : String)
  | parameter (wire : String)
  | unsupportedAlgorithm (text : Bytes)
deriving DecidableEq

inductive PlanDocumentError where
  | decode
  | targetMismatch (expected got : Bytes)
  | message (text : String)
  | duplicateRule (materialization : UInt64)
  | duplicateMaterialization (materialization : UInt64)
  | noRule (materialization : UInt64)
  | materialization (queryID : Bytes) (err : MaterializationError)
deriving DecidableEq

def stateEncodingSketchlibProtobufV1 : Bytes := str "sketchlib_protobuf_v1"
def stateEncodingSketchCoreMsgpackV1 : Bytes := str "sketch_core_msgpack_v1"
def stateEncodingExactAccumulatorV1 : Bytes := str "exact_accumulator_v1"
def samplingEstimatorHashThreshold : Bytes := str "hash_threshold"
def samplingEstimatorGeometricAdmission : Bytes := str "geometric_admission"

def Algorithm.isCountSketch : Algorithm → Bool
  | .countSketch | .countSketchWithHeap => true
  | _ => false

def Algorithm.hasDeltas : Algorithm → Bool
  | .ddsketch | .hll | .cms | .cmsWithHeap | .countSketch | .countSketchWithHeap => true
  | _ => false

def maxFloat64 : Float64 := ⟨0x7fefffffffffffff⟩

def validateAdaptiveF64 (bounds : Option AdaptiveF64Bounds) (domainMin domainMax : Float64) :
    Except MaterializationError Unit :=
  check (bounds.any fun b => b.min.isNaN || b.max.isNaN || b.maxStep.isNaN || b.min.isInf || b.max.isInf ||
    b.maxStep.isInf || b.min.lt domainMin || domainMax.lt b.max || b.max.lt b.min || b.maxStep.le ⟨0⟩)
    (.message "floating-point adaptation guardrails are invalid")

variable (rule : TransmissionRule)

def validateCheckpoint : Except MaterializationError Unit :=
  if rule.mode = .delta then
    check (rule.fullCheckpointEveryMS.all (· = 0) || rule.runtimePolicy.delta.isNone)
      (.message "delta mode requires policy and full checkpoint cadence")
  else
    check (rule.mode ≠ .full || rule.fullCheckpointEveryMS.isSome || rule.runtimePolicy.delta.isSome)
      (.message "full mode must not carry delta checkpoint or policy")

/-- A sampling mode that is not stated is `disabled`. -/
def samplingMode (sampling : SamplingPolicy) : Bytes := if sampling.mode = [] then str "disabled" else sampling.mode

def currentSampleP (sampling : SamplingPolicy) : Float64 :=
  if samplingMode sampling = str "fixed" then sampling.probability else Float64.ofInt 1

def validateSamplingPolicy (algorithm : Algorithm) (sampling : SamplingPolicy) : Except MaterializationError Unit :=
  if samplingMode sampling = str "fixed" then do
    check (sampling.probability.isNaN || sampling.probability.isInf || sampling.probability.le ⟨0⟩ ||
      (Float64.ofInt 1).lt sampling.probability) (.message "sample probability must be in (0,1]")
    check (!(algorithm = .hll && sampling.estimator = samplingEstimatorHashThreshold ||
      (algorithm = .cms || algorithm = .cmsWithHeap) && sampling.estimator = samplingEstimatorGeometricAdmission))
      (.message "sampling estimator is unsupported for this family")
  else check (samplingMode sampling ≠ str "disabled") (.message "unknown sampling mode")

def validateDeltaPolicy (algorithm : Algorithm) : Option DeltaPolicy → Except MaterializationError Unit
  | none => pure ()
  | some delta => do
    check (delta.absoluteThreshold.isNaN || delta.absoluteThreshold.isInf || delta.absoluteThreshold.lt ⟨0⟩ ||
      !delta.absoluteThreshold.isIntegral)
      (.message "delta threshold must be a finite non-negative integer for this runtime")
    check (!algorithm.hasDeltas) (.message "delta transmission is unsupported for this family")
    check (delta.gos.any fun gos => !algorithm.isCountSketch || gos.epsilonStaleness.le ⟨0⟩ ||
      (Float64.ofInt 1).lt gos.epsilonStaleness || gos.sites = 0 || gos.thresholdMode ≠ str "isotropic")
      (.message "invalid GOS policy")

def validateAdaptation : Except MaterializationError Unit := do
  let adaptation := rule.runtimePolicy.adaptation
  check (adaptation.enabled && (adaptation.maxEvidenceAgeMS = 0 || adaptation.minEvidenceSamples = 0))
    (.message "enabled adaptation requires evidence constraints")
  validateAdaptiveF64 adaptation.sampleProbability ⟨0⟩ (Float64.ofInt 1)
  validateAdaptiveF64 adaptation.deltaThreshold ⟨0⟩ maxFloat64
  validateAdaptiveF64 adaptation.gosEpsilonStaleness ⟨0⟩ (Float64.ofInt 1)
  check (adaptation.emitEveryMS.any fun b => b.min = 0 || b.max < b.min || b.maxStep = 0 || rule.emitEveryMS < b.min ||
    b.max < rule.emitEveryMS) (.message "emit interval guardrails are invalid")
  let current := currentSampleP rule.runtimePolicy.sampling
  check (adaptation.sampleProbability.any fun b => current.lt b.min || b.max.lt current)
    (.message "current sample probability is outside guardrails")
  check (adaptation.deltaThreshold.any fun b => rule.runtimePolicy.delta.all fun delta =>
    delta.absoluteThreshold.lt b.min || b.max.lt delta.absoluteThreshold)
    (.message "current delta threshold is outside guardrails")
  check (adaptation.gosEpsilonStaleness.any fun b => (rule.runtimePolicy.delta.bind (·.gos)).all fun gos =>
    gos.epsilonStaleness.lt b.min || b.max.lt gos.epsilonStaleness)
    (.message "current GOS epsilon is outside guardrails")

def validateTransmissionRule (m : CollectorMaterialization) : Except MaterializationError Unit := do
  check (rule.schemaID.isBlank || rule.destinationRef.isBlank || rule.emitEveryMS = 0)
    (.message "invalid transmission identity or cadence")
  check (rule.emitEveryMS ≠ m.windowSecs * 1000) (.message "transmission cadence must match the materialization window")
  validateCheckpoint rule
  check (rule.encoding ≠ stateEncodingSketchlibProtobufV1 && rule.encoding ≠ stateEncodingSketchCoreMsgpackV1 &&
    rule.encoding ≠ stateEncodingExactAccumulatorV1) (.message "unsupported state encoding")
  check (decide (m.algorithm = .sum) != decide (rule.encoding = stateEncodingExactAccumulatorV1))
    (.message "state encoding is incompatible with the materialization family")
  validateSamplingPolicy m.algorithm rule.runtimePolicy.sampling
  validateDeltaPolicy m.algorithm rule.runtimePolicy.delta
  validateAdaptation rule

/-- The closure `require` of `runtimeSketch`. -/
def requireParameter (parameters : GoMap Bytes Float64) (wire runtime : String) (params : GoMap Bytes Float64) :
    Except MaterializationError (GoMap Bytes Float64) := do
  let value := parameters.lookup (str wire)
  check (value.all fun v => v.isNaN || v.isInf || v.le ⟨0⟩) (.parameter wire)
  pure (params.insert (str runtime) (value.getD ⟨0⟩))

structure RuntimeSketch where
  kind : SketchType
  aggKind : AggregationKind := .sketch
  params : GoMap Bytes Float64
  topk : Bool := false

def runtimeSketch (m : CollectorMaterialization) : Except MaterializationError RuntimeSketch := do
  match m.algorithm with
  | .sum => .error (.message "exact sum is not implemented consistently by Collector runtimes")
  | .ddsketch =>
    let params ← requireParameter m.parameters "alpha" "relative_accuracy" ∅
    check ((Float64.ofInt 1).le (params.get ⟨0⟩ (str "relative_accuracy"))) (.message "alpha must be in (0, 1)")
    pure { kind := .ddSketch, params }
  | .kll =>
    let params ← requireParameter m.parameters "k" "k" ∅
    check ((params.get ⟨0⟩ (str "k")).lt (Float64.ofInt 8)) (.message "KLL k must be at least 8")
    pure { kind := .kllSketch, params }
  | .hll =>
    let params ← requireParameter m.parameters "precision" "precision" ∅
    check ((params.get ⟨0⟩ (str "precision")).lt (Float64.ofInt 4) ||
      (Float64.ofInt 18).lt (params.get ⟨0⟩ (str "precision"))) (.message "HLL precision must be in [4, 18]")
    pure { kind := .hllSketch, params }
  | .cms =>
    let params ← requireParameter m.parameters "width" "columns" ∅
    let params ← requireParameter m.parameters "depth" "rows" params
    pure { kind := .countMinSketch, params }
  | .cmsWithHeap => .error (.message "keyed CMS heap serving path is not implemented")
  | .countSketch =>
    let params ← requireParameter m.parameters "width" "width" ∅
    let params ← requireParameter m.parameters "depth" "depth" params
    pure { kind := .countSketch, params }
  | .countSketchWithHeap =>
    let params ← requireParameter m.parameters "width" "width" ∅
    let params ← requireParameter m.parameters "depth" "depth" params
    let params ← requireParameter m.parameters "heap_size" "heap_size" params
    pure { kind := .countSketch, params, topk := true }
  | .other text => .error (.unsupportedAlgorithm text)

/-- `time.Duration(n) * time.Second`, in the wrapping arithmetic of `int64`. -/
def durationOfSeconds (n : UInt64) : Int := (BitVec.ofNat 64 (n.toNat * 1000000000)).toInt

section
variable (overflow : Float64 → UInt64)

def deltaThreshold (policy : Option DeltaPolicy) : UInt64 :=
  (policy.map fun d => d.absoluteThreshold.ceilUint64 overflow).getD 0

def precomputeConfig (m : CollectorMaterialization) (rule : TransmissionRule) :
    Except MaterializationError PrecomputeConfig := do
  check (m.metric.isBlank || m.windowSecs = 0 || m.windowImplementationID.isBlank || m.paneSecs = 0 ||
    m.stateLayout.isBlank)
    (.message "metric, window implementation, pane, state layout, and positive window_secs are required")
  check (m.abstractWindowFramework ≠ .tumbling || m.windowImplementationID ≠ str "collector-tumbling-v1" ||
    m.paneSecs ≠ m.windowSecs || m.stateLayout ≠ str "anchored-pane-v1")
    (.message ("unsupported window realization: " ++
      "runtime requires Planner tumbling + equal anchored panes + anchored-pane-v1"))
  check (m.lifecycle ≠ supportedCollectorLifecycle)
    (.message "unsupported lifecycle; collector requires continuously_maintained/incremental/per_update/summary_state")
  let sketch ← runtimeSketch m
  check (sketch.topk && m.evidenceSource.all Bytes.isBlank) (.message "heap-bearing TopK requires evidence_source")
  let window := durationOfSeconds m.windowSecs
  let fixed := rule.runtimePolicy.sampling.mode = str "fixed"
  let sampleP := if fixed then rule.runtimePolicy.sampling.probability else Float64.ofInt 1
  let params := if fixed then sketch.params.insert (str "sample_p") sampleP else sketch.params
  let params :=
    match rule.runtimePolicy.delta.bind (·.gos) with
    | none => params
    | some gos =>
      (params.insert (str "gos_delta_epsilon") gos.epsilonStaleness).insert (str "gos_sites")
        (Float64.ofInt gos.sites.toNat)
  pure {
    aggID := m.materialization
    sketchType := sketch.kind
    aggKind := sketch.aggKind
    mode := .tumbling
    window := { size := window, slide := window }
    aggregateBy := m.groupBy
    deltaTransmission := rule.mode = .delta
    deltaThreshold := deltaThreshold overflow rule.runtimePolicy.delta
    encoding := if rule.encoding = stateEncodingSketchCoreMsgpackV1 then .msgpack else .protoFull
    sketchParams := params
    sampleP
    gosDeltaEpsilon := params.get ⟨0⟩ (str "gos_delta_epsilon")
    gosSites := UInt32.ofNat (params.get ⟨0⟩ (str "gos_sites")).trunc.toNat
    metricName := m.metric }

def rulesByMaterialization (collectorID : Bytes) (rules : List TransmissionRule) :
    Except PlanDocumentError (GoMap UInt64 TransmissionRule) :=
  rules.foldlM (fun acc rule => do
    check (rule.materialization = 0 || rule.producerID ≠ collectorID)
      (.message "transmission rules must bind this collector and a materialization")
    check (acc.lookup rule.materialization).isSome (.duplicateRule rule.materialization)
    pure (acc.insert rule.materialization rule)) ∅

/-- One turn of the loop over the materializations; the state is the IDs seen and the configurations. -/
def decodeMaterialization (rules : GoMap UInt64 TransmissionRule) (acc : List UInt64 × List PrecomputeConfig)
    (m : CollectorMaterialization) : Except PlanDocumentError (List UInt64 × List PrecomputeConfig) := do
  check (m.queryID.isBlank || m.materialization = 0) (.message "collector plan query_id is required")
  check (m.materialization ∈ acc.1) (.duplicateMaterialization m.materialization)
  match rules.lookup m.materialization with
  | none => .error (.noRule m.materialization)
  | some rule =>
    (validateTransmissionRule rule m).mapError (.materialization m.queryID)
    let cfg ← (precomputeConfig overflow m rule).mapError (.materialization m.queryID)
    pure (acc.1 ++ [m.materialization], acc.2 ++ [cfg])

/-- The checks of `DecodeCollectorPlan` on a document that has been parsed, and its configurations. -/
def decodeDocument (doc : PlanDocument) (collectorID : Bytes) : Except PlanDocumentError PrecomputeConfigSet := do
  check (doc.collectorID ≠ collectorID) (.targetMismatch collectorID doc.collectorID)
  check (doc.envelope.planID = 0 || doc.envelope.planVersion = 0 || doc.generatedAtUnixMS = 0 ||
    doc.activationUnixMS = 0 ||
    doc.activationUnixMS < doc.generatedAtUnixMS || doc.expiryUnixMS.any (· ≤ doc.activationUnixMS) ||
    doc.envelope.backendCompat.isBlank || doc.plannerRevision.isBlank || doc.capabilitySnapshotID.isBlank)
    (.message "collector plan identity fields are required")
  let rules ← rulesByMaterialization doc.collectorID doc.transmissionRules
  let (seen, configs) ← doc.materializations.foldlM (decodeMaterialization overflow rules) ([], [])
  check (rules.len ≠ seen.length) (.message "transmission rules do not exactly match materializations")
  pure ⟨doc.envelope.planVersion, configs⟩

def decodeCollectorPlan (parse : Bytes → Option PlanDocument) (body : Bytes) (collectorID : Bytes) :
    Except PlanDocumentError (PrecomputeConfigSet × PlanDocument) :=
  match parse body with
  | none => .error .decode
  | some doc => (decodeDocument overflow doc collectorID).map fun set => (set, doc)

end

end Control

end AsapCollector
