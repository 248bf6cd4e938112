import AsapCollector.Control.PlanDocument

/-! `collector_plan.rs` of `asap-precompute-rs`: the same plan, with the fields that have few values as enumerations.
The parameters of a sketch are taken to be numbers. -/

namespace AsapCollector.Control.Rust

inductive TransmissionMode where
  | full
  | delta
deriving DecidableEq

inductive StateEncoding where
  | sketchlibProtobufV1
  | sketchCoreMsgpackV1
  | exactAccumulatorV1
deriving DecidableEq

inductive SamplingEstimator where
  | hashThreshold
  | geometricAdmission
deriving DecidableEq

inductive SamplingPolicy where
  | disabled
  | fixed (probability : Float64) (estimator : SamplingEstimator)

inductive GosThresholdMode where
  | isotropic
  | anisotropic
deriving DecidableEq

structure GosPolicy where
  epsilonStaleness : Float64
  sites : UInt32
  thresholdMode : GosThresholdMode

structure DeltaPolicy where
  absoluteThreshold : Float64
  gos : Option GosPolicy

structure TransmissionRule where
  materialization : UInt64
  producerID : Bytes
  schemaID : Bytes
  mode : TransmissionMode
  encoding : StateEncoding
  emitEveryMS : UInt64
  fullCheckpointEveryMS : Option UInt64
  destinationRef : Bytes
  sampling : SamplingPolicy
  delta : Option DeltaPolicy
  adaptation : RuntimeAdaptationPolicy

structure CollectorPlan where
  collectorID : Bytes
  envelope : CollectorPlanEnvelope
  generatedAtUnixMS : UInt64
  activationUnixMS : UInt64
  expiryUnixMS : Option UInt64
  plannerRevision : Bytes
  capabilitySnapshotID : Bytes
  materializations : List CollectorMaterialization
  transmissionRules : List TransmissionRule

inductive CollectorPlanError where
  | wrongTarget (expected actual : Bytes)
  | identity (text : String)
  | materialization (queryID : Bytes) (err : MaterializationError)
deriving DecidableEq

structure Config where
  aggID : UInt64
  sketchType : SketchType
  windowSize : Int
  aggregateBy : List Bytes
  deltaTransmission : Bool
  deltaThreshold : UInt64
  encoding : Encoding
  sketchParams : GoMap Bytes Float64
  metricName : Bytes

def isFinite (x : Float64) : Bool := !x.isNaN && !x.isInf

def rangeContains (lo hi x : Float64) : Bool := lo.le x && x.le hi

def asU64 (x : Float64) : UInt64 :=
  if x.isNaN || x.sign then 0 else if x.isInf then 0xffffffffffffffff else UInt64.ofNat (min x.trunc.toNat (2 ^ 64 - 1))

def saturatingMul (a b : UInt64) : UInt64 := UInt64.ofNat (min (a.toNat * b.toNat) (2 ^ 64 - 1))

def startsWithCountSketch : Algorithm → Bool
  | .countSketch | .countSketchWithHeap => true
  | .other text => (str "countsketch").isPrefixOf text
  | _ => false

variable (bounds : Option AdaptiveF64Bounds)

def validateF64Bounds (domainMin domainMax : Float64) : Except MaterializationError Unit :=
  check (bounds.any fun b => !isFinite b.min || !isFinite b.max || !isFinite b.maxStep || b.min.lt domainMin ||
    domainMax.lt b.max || b.max.lt b.min || b.maxStep.le ⟨0⟩)
      (.message "floating-point adaptation guardrails are invalid")

/-- A guardrail of `validate_adaptation`: where there are bounds the current value has to be there and within them. -/
def validateGuardrail (current : Option Float64) (missing outside : String) :
    Except MaterializationError Unit :=
  match bounds, current with
  | none, _ => pure ()
  | some _, none => .error (.message missing)
  | some b, some current => check (current.lt b.min || b.max.lt current) (.message outside)

def SamplingPolicy.current : SamplingPolicy → Float64
  | .disabled => Float64.ofInt 1
  | .fixed probability _ => probability

variable (rule : TransmissionRule) (plan : CollectorPlan)

def validateAdaptation : Except MaterializationError Unit := do
  let policy := rule.adaptation
  check (policy.enabled && (policy.maxEvidenceAgeMS = 0 || policy.minEvidenceSamples = 0))
    (.message "enabled adaptation requires evidence age and sample-count requirements")
  validateF64Bounds policy.sampleProbability ⟨0⟩ (Float64.ofInt 1)
  validateF64Bounds policy.deltaThreshold ⟨0⟩ maxFloat64
  validateF64Bounds policy.gosEpsilonStaleness ⟨0⟩ (Float64.ofInt 1)
  check (policy.emitEveryMS.any fun b => b.min = 0 || b.max < b.min || b.maxStep = 0 ||
    !(b.min ≤ rule.emitEveryMS && rule.emitEveryMS ≤ b.max)) (.message "emit interval guardrails are invalid")
  check (policy.sampleProbability.any fun b => rule.sampling.current.lt b.min || b.max.lt rule.sampling.current)
    (.message "current sample probability is outside guardrails")
  validateGuardrail policy.deltaThreshold (rule.delta.map (·.absoluteThreshold))
    "delta guardrails require a delta policy" "current delta threshold is outside guardrails"
  validateGuardrail policy.gosEpsilonStaleness ((rule.delta.bind (·.gos)).map (·.epsilonStaleness))
    "GOS guardrails require a GOS policy" "current GOS epsilon is outside guardrails"

def validateDelta (algorithm : Algorithm) : Option DeltaPolicy → Except MaterializationError Unit
  | none => pure ()
  | some delta => do
    check (!isFinite delta.absoluteThreshold || delta.absoluteThreshold.lt ⟨0⟩ || !delta.absoluteThreshold.isIntegral)
      (.message "delta threshold must be a finite non-negative integer for this runtime")
    check (!algorithm.hasDeltas) (.message "delta transmission is unsupported for this family")
    check (delta.gos.any fun gos => !startsWithCountSketch algorithm || !isFinite gos.epsilonStaleness ||
      !rangeContains ⟨0⟩ (Float64.ofInt 1) gos.epsilonStaleness || gos.epsilonStaleness.eq ⟨0⟩ || gos.sites = 0 ||
      gos.thresholdMode ≠ .isotropic) (.message "GOS requires CountSketch, epsilon in (0,1], and sites > 0")

def validateSampling (algorithm : Algorithm) : SamplingPolicy → Except MaterializationError Unit
  | .disabled => pure ()
  | .fixed probability estimator => do
    check (!isFinite probability || !rangeContains ⟨0⟩ (Float64.ofInt 1) probability || probability.eq ⟨0⟩)
      (.message "sample probability must be in (0,1]")
    check (!(algorithm = .hll && estimator = .hashThreshold || algorithm = .cms && estimator = .geometricAdmission))
      (.message "sampling estimator is unsupported for this family")

variable (m : CollectorMaterialization)

def validateRule : Except MaterializationError Unit := do
  check (rule.schemaID.isBlank || rule.destinationRef.isBlank || rule.emitEveryMS = 0 ||
    rule.emitEveryMS ≠ saturatingMul m.windowSecs 1000 || rule.mode = .delta &&
      rule.fullCheckpointEveryMS.all (· = 0) ||
    rule.mode = .full && rule.fullCheckpointEveryMS.isSome)
    (.message "invalid transmission identity/cadence/checkpoint contract")
  check (decide (rule.mode = .delta) != rule.delta.isSome)
    (.message "delta policy must be present exactly for delta mode")
  validateDelta m.algorithm rule.delta
  validateSampling m.algorithm rule.sampling
  validateAdaptation rule

def number (parameters : GoMap Bytes Float64) (wire runtime : String) (params : GoMap Bytes Float64) :
    Except MaterializationError (GoMap Bytes Float64) :=
  match (parameters.lookup (str wire)).filter fun v => isFinite v && Float64.lt ⟨0⟩ v with
  | none => .error (.parameter wire)
  | some value => .ok (params.insert (str runtime) value)

/-- `decode_algorithm`: the sketch, its parameters, and whether it needs evidence. -/
def decodeAlgorithm : Except MaterializationError (SketchType × GoMap Bytes Float64 × Bool) := do
  match m.algorithm with
  | .ddsketch =>
    let params ← number m.parameters "alpha" "relative_accuracy" ∅
    check ((Float64.ofInt 1).le (params.get ⟨0⟩ (str "relative_accuracy"))) (.message "alpha must be in (0, 1)")
    pure (.ddSketch, params, false)
  | .kll =>
    let params ← number m.parameters "k" "k" ∅
    check ((params.get ⟨0⟩ (str "k")).lt (Float64.ofInt 8)) (.message "KLL k must be at least 8")
    pure (.kllSketch, params, false)
  | .hll =>
    let params ← number m.parameters "precision" "precision" ∅
    check (!rangeContains (Float64.ofInt 4) (Float64.ofInt 18) (params.get ⟨0⟩ (str "precision")))
      (.message "HLL precision must be in [4, 18]")
    pure (.hllSketch, params, false)
  | .cms =>
    let params ← number m.parameters "width" "width" ∅
    let params ← number m.parameters "depth" "depth" params
    pure (.countMinSketch, params, false)
  | .cmsWithHeap => .error (.message "keyed CMS heap serving path is not implemented")
  | .countSketch =>
    let params ← number m.parameters "width" "width" ∅
    let params ← number m.parameters "depth" "depth" params
    pure (.countSketch, params, false)
  | .countSketchWithHeap =>
    let params ← number m.parameters "width" "width" ∅
    let params ← number m.parameters "depth" "depth" params
    let params ← number m.parameters "heap_size" "heap_size" params
    pure (.countSketch, params, true)
  | .sum => .error (.unsupportedAlgorithm (str "sum"))
  | .other text => .error (.unsupportedAlgorithm text)

def encodingOf : StateEncoding → Except MaterializationError Encoding
  | .sketchlibProtobufV1 => pure .protoFull
  | .sketchCoreMsgpackV1 => pure .msgpack
  | .exactAccumulatorV1 => .error (.message "exact accumulator encoding is not a sketch runtime")

def toConfig (rule : TransmissionRule) : Except MaterializationError Config := do
  check (m.metric.isBlank || m.windowSecs = 0 || m.windowImplementationID.isBlank || m.paneSecs = 0 ||
    m.stateLayout.isBlank) (.message "metric, window implementation, pane, state layout, and window_secs are required")
  check (m.abstractWindowFramework ≠ .tumbling || m.windowImplementationID ≠ str "collector-tumbling-v1" ||
    m.paneSecs ≠ m.windowSecs || m.stateLayout ≠ str "anchored-pane-v1")
    (.message ("unsupported window realization; " ++
      "this runtime requires Planner tumbling + equal anchored panes + anchored-pane-v1"))
  check (m.lifecycle ≠ supportedCollectorLifecycle)
    (.message "unsupported lifecycle; Collector requires continuously_maintained/incremental/per_update/summary_state")
  let (sketchType, params, evidenceRequired) ← decodeAlgorithm m
  check (evidenceRequired && m.evidenceSource.all (·.isEmpty))
    (.message "heap-bearing TopK plan requires evidence_source")
  let params :=
    match rule.sampling with
    | .disabled => params
    | .fixed probability _ => params.insert (str "sample_p") probability
  let params :=
    match rule.delta.bind (·.gos) with
    | none => params
    | some gos =>
      (params.insert (str "gos_delta_epsilon") gos.epsilonStaleness).insert (str "gos_sites")
        (Float64.ofInt gos.sites.toNat)
  let encoding ← encodingOf rule.encoding
  pure {
    aggID := m.materialization
    sketchType
    windowSize := m.windowSecs.toNat * second
    aggregateBy := m.groupBy
    deltaTransmission := rule.mode = .delta
    deltaThreshold := (rule.delta.map fun policy => asU64 policy.absoluteThreshold).getD 0
    encoding
    sketchParams := params
    metricName := m.metric }

def ruleOf (fingerprint : UInt64) : Except CollectorPlanError TransmissionRule :=
  match plan.transmissionRules.find? fun rule => rule.materialization = fingerprint with
  | none => .error (.identity "missing transmission rule")
  | some rule => .ok rule

def materializationOf (fingerprint : UInt64) : Except CollectorPlanError CollectorMaterialization :=
  match plan.materializations.find? fun m => m.materialization = fingerprint with
  | none => .error (.identity "unknown materialization reference")
  | some m => .ok m

def collectMaterialization (seen : List UInt64) (m : CollectorMaterialization) :
    Except CollectorPlanError (List UInt64) := do
  check (m.queryID.isBlank || m.materialization = 0 || m.materialization ∈ seen)
    (.identity "query IDs must be non-empty and materialization fingerprints must be unique")
  pure (seen ++ [m.materialization])

def collectRule (materializations ruled : List UInt64) (rule : TransmissionRule) :
    Except CollectorPlanError (List UInt64) := do
  check (rule.producerID ≠ plan.collectorID || rule.materialization ∉ materializations || rule.materialization ∈ ruled)
    (.identity "transmission rules must exactly bind this collector and materialization set")
  let m ← materializationOf plan rule.materialization
  (validateRule rule m).mapError (.materialization m.queryID)
  pure (ruled ++ [rule.materialization])

def configOf : Except CollectorPlanError Config := do
  let rule ← ruleOf plan m.materialization
  (toConfig m rule).mapError (.materialization m.queryID)

def validate (collectorID : Bytes) : Except CollectorPlanError Unit := do
  check (plan.collectorID ≠ collectorID) (.wrongTarget collectorID plan.collectorID)
  check (plan.envelope.planID = 0 || plan.envelope.planVersion = 0 || plan.generatedAtUnixMS = 0 ||
    plan.activationUnixMS = 0 ||
    plan.activationUnixMS < plan.generatedAtUnixMS || plan.envelope.backendCompat.isBlank ||
      plan.plannerRevision.isBlank ||
    plan.capabilitySnapshotID.isBlank || plan.expiryUnixMS.any (· ≤ plan.activationUnixMS))
    (.identity "plan/version/activation/backend compatibility and planner/capability identity are required")
  let materializations ← plan.materializations.foldlM collectMaterialization []
  let ruled ← plan.transmissionRules.foldlM (collectRule plan materializations) []
  check (!(ruled.all (· ∈ materializations) && materializations.all (· ∈ ruled)))
    (.identity "every materialization requires exactly one transmission rule")
  let _ ← plan.materializations.mapM (configOf plan)
  pure ()

/-- `from_json` of a plan that has been parsed, and `to_precompute_config_set`. -/
def toPrecomputeConfigSet (collectorID : Bytes) : Except CollectorPlanError (UInt64 × List Config) := do
  validate plan collectorID
  validate plan plan.collectorID
  let configs ← plan.materializations.mapM (configOf plan)
  pure (plan.envelope.planVersion, configs)

def TransmissionMode.toGo : TransmissionMode → AsapCollector.TransmissionMode
  | .full => .full
  | .delta => .delta

def StateEncoding.toGo : StateEncoding → Bytes
  | .sketchlibProtobufV1 => stateEncodingSketchlibProtobufV1
  | .sketchCoreMsgpackV1 => stateEncodingSketchCoreMsgpackV1
  | .exactAccumulatorV1 => stateEncodingExactAccumulatorV1

def SamplingEstimator.toGo : SamplingEstimator → Bytes
  | .hashThreshold => samplingEstimatorHashThreshold
  | .geometricAdmission => samplingEstimatorGeometricAdmission

/-- The Go policy of a document that has the mode `disabled` (`stated`) or leaves it out, which is one policy in
Rust. -/
def SamplingPolicy.toGo (stated : Bool) : SamplingPolicy → AsapCollector.SamplingPolicy
  | .disabled => ⟨if stated then str "disabled" else [], ⟨0⟩, []⟩
  | .fixed probability estimator => ⟨str "fixed", probability, estimator.toGo⟩

def GosPolicy.toGo (gos : GosPolicy) : GOSPolicy :=
  ⟨gos.epsilonStaleness, gos.sites,
    match gos.thresholdMode with | .isotropic => str "isotropic" | .anisotropic => str "anisotropic"⟩

def DeltaPolicy.toGo (delta : DeltaPolicy) : AsapCollector.DeltaPolicy :=
  ⟨delta.absoluteThreshold, delta.gos.map (·.toGo)⟩

def TransmissionRule.toGo (stated : Bool) : AsapCollector.TransmissionRule where
  materialization := rule.materialization
  producerID := rule.producerID
  schemaID := rule.schemaID
  mode := rule.mode.toGo
  encoding := rule.encoding.toGo
  emitEveryMS := rule.emitEveryMS
  fullCheckpointEveryMS := rule.fullCheckpointEveryMS
  destinationRef := rule.destinationRef
  runtimePolicy := ⟨rule.sampling.toGo stated, rule.delta.map (·.toGo), rule.adaptation⟩

/-- The plan that Go decodes, from a document that spells each of its rules as `stated` says. -/
def CollectorPlan.toGo (stated : Nat → TransmissionRule → Bool) : PlanDocument where
  collectorID := plan.collectorID
  envelope := plan.envelope
  transmissionRules := plan.transmissionRules.mapIdx fun i rule => rule.toGo (stated i rule)
  generatedAtUnixMS := plan.generatedAtUnixMS
  activationUnixMS := plan.activationUnixMS
  expiryUnixMS := plan.expiryUnixMS
  plannerRevision := plan.plannerRevision
  capabilitySnapshotID := plan.capabilitySnapshotID
  materializations := plan.materializations

end AsapCollector.Control.Rust
