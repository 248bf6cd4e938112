import AsapCollector.Precompute.Config

/-! `encode.go`, `decode.go` and `seriesattrs.go` of `asap-precompute-go/otel`. Of `pmetric` the fields that the adapter
reads or writes are kept. -/

namespace AsapCollector.Otel

/-! ### Attributes -/

/-- `pcommon.Map`, each value by its `AsString`. -/
abbrev AttributeMap := List (Bytes × Bytes)

namespace AttributeMap

def get (m : AttributeMap) (k : Bytes) : Option Bytes := (m.find? fun e => e.1 = k).map Prod.snd

def putStr : AttributeMap → Bytes → Bytes → AttributeMap
  | [], k, v => [(k, v)]
  | e :: m, k, v => if e.1 = k then (k, v) :: m else e :: putStr m k v

def putAll (m : AttributeMap) (entries : List (Bytes × Bytes)) : AttributeMap :=
  entries.foldl (fun m e => m.putStr e.1 e.2) m

end AttributeMap

def keyValuesToAttributes (kvs : List KeyValue) (dst : AttributeMap) : AttributeMap :=
  dst.putAll (kvs.map fun kv => (kv.key, kv.value))

def frameAttributesToOTLP (src : GoMap Bytes Bytes) (order : RangeOrder (Bytes × Bytes)) (dst : AttributeMap) :
    AttributeMap :=
  dst.putAll (src.range order)

def attributesToKeyValues (attrs : AttributeMap) : List KeyValue :=
  ((attrs.map Prod.fst).insertionSort (· ≤ ·)).filterMap fun k => (attrs.get k).map (KeyValue.mk k)

/-! ### Metrics -/

/-- The encodings of a sketch's bytes. Each family of sketches has a type of its own for them, with the same numbers. -/
inductive WireEncoding where
  | unspecified
  | proto
  | protoDelta
  | msgpack
  | msgpackDelta
  | other (code : Int)
deriving DecidableEq

structure SketchPoint where
  attributes : AttributeMap
  startTimestamp : Nat
  timestamp : Nat
  sketch : Bytes
  encoding : WireEncoding

inductive NumberValue where
  | empty
  | int (i : Int)
  | double (x : Float64)

structure NumberPoint where
  attributes : AttributeMap
  timestamp : Nat
  value : NumberValue

/-- The variants of `Metric.Data`; `other` are those that the adapter passes over. -/
inductive MetricPoints where
  | gauge (dps : List NumberPoint)
  | sum (dps : List NumberPoint)
  | ddSketch (relativeAccuracy : Float64) (dps : List SketchPoint)
  | sumAgg (dps : List SketchPoint)
  | kllSketch (dps : List SketchPoint)
  | hllSketch (dps : List SketchPoint)
  | countSketch (dps : List SketchPoint)
  | countMinSketch (dps : List SketchPoint)
  | other

structure Metric where
  name : Bytes
  points : MetricPoints

structure ScopeMetrics where
  scopeName : Bytes
  metrics : List Metric

structure ResourceMetrics where
  attributes : AttributeMap
  scopeMetrics : List ScopeMetrics

/-- The fields of `AdapterConfig` that `Encode` and `Decode` read. -/
structure AdapterConfig where
  metricSuffix : Bytes := []
  metricName : Bytes := []
  readAsInt : Bool := false
  scopeName : Bytes := []

/-! ### Encode -/

/-- What the `hostNeutralTo...Encoding` functions share: they differ in what becomes of the two deltas. -/
def hostNeutralTo (delta msgpackDeltas : WireEncoding) : Encoding → WireEncoding
  | .protoFull | .unspecified => .proto
  | .protoDelta => delta
  | .msgpack => .msgpack
  | .msgpackDelta => msgpackDeltas

abbrev hostNeutralToDDSketchEncoding := hostNeutralTo .protoDelta .proto

abbrev hostNeutralToSumAggEncoding := hostNeutralTo .protoDelta .proto

abbrev hostNeutralToKLLSketchEncoding := hostNeutralTo .proto .proto

abbrev hostNeutralToHLLSketchEncoding := hostNeutralTo .protoDelta .proto

abbrev hostNeutralToCountSketchEncoding := hostNeutralTo .protoDelta .msgpackDelta

abbrev hostNeutralToCountMinSketchEncoding := hostNeutralTo .protoDelta .msgpackDelta

variable (env : SketchEnvelope)

def effectiveAggKind : AggregationKind :=
  if env.aggKind = .unspecified ∧ env.sketchType ≠ .unspecified then .sketch else env.aggKind

variable (cfg : Option AdapterConfig)

def metricNameFor : Bytes :=
  let base := if env.metricName = [] then str "asap.agg_" ++ Bytes.formatUint env.aggID else env.metricName
  match cfg with
  | none => base
  | some c => if c.metricName ≠ [] then c.metricName else base ++ c.metricSuffix

def canonicalLabelsKey (kvs : List KeyValue) : Bytes :=
  kvs.flatMap fun kv => kv.key ++ str "=" ++ kv.value ++ str ";"

def timestampOf (ms : Nat) : Nat := ms * 1000000 % 2 ^ 64

def sketchTypeName : SketchType → Bytes
  | .ddSketch => str "DDSketch"
  | .kllSketch => str "KLLSketch"
  | .hllSketch => str "HLLSketch"
  | .countSketch => str "CountSketch"
  | .countMinSketch => str "CountMinSketch"
  | .unspecified => str "Unspecified"

section
variable (cfg : Option AdapterConfig) (order : RangeOrder (Bytes × Bytes))

variable (env : SketchEnvelope)

def sketchPoint (encoding : WireEncoding) : SketchPoint :=
  ⟨frameAttributesToOTLP env.frameAttributes order (keyValuesToAttributes env.labels []), timestampOf env.windowStartMs,
    timestampOf env.windowEndMs, env.payload, encoding⟩

def writePoints : Except Bytes MetricPoints :=
  if effectiveAggKind env = .sum then .ok (.sumAgg [sketchPoint order env (hostNeutralToSumAggEncoding env.encoding)])
  else
    match env.sketchType with
    | .ddSketch =>
      .ok (.ddSketch (if Float64.lt ⟨0⟩ env.relativeAccuracy then env.relativeAccuracy else ⟨0⟩)
        [sketchPoint order env (hostNeutralToDDSketchEncoding env.encoding)])
    | .kllSketch => .ok (.kllSketch [sketchPoint order env (hostNeutralToKLLSketchEncoding env.encoding)])
    | .hllSketch => .ok (.hllSketch [sketchPoint order env (hostNeutralToHLLSketchEncoding env.encoding)])
    | .countSketch => .ok (.countSketch [sketchPoint order env (hostNeutralToCountSketchEncoding env.encoding)])
    | .countMinSketch =>
      .ok (.countMinSketch [sketchPoint order env (hostNeutralToCountMinSketchEncoding env.encoding)])
    | .unspecified => .error (str "otel.Encode: unsupported sketch type " ++ sketchTypeName env.sketchType)

def writeMetric : Except Bytes Metric := do
  let points ← writePoints order env
  return ⟨metricNameFor env cfg, points⟩

/-- The groups of `Encode`: the keys in the order they came up, and the envelopes of each. -/
structure Groups where
  keys : List Bytes := []
  envelopes : GoMap Bytes (List SketchEnvelope) := ∅

def Groups.add (groups : Groups) (env : SketchEnvelope) : Groups :=
  let key := canonicalLabelsKey env.resourceLabels
  { keys := if (groups.envelopes.lookup key).isNone then groups.keys ++ [key] else groups.keys
    envelopes := groups.envelopes.insert key (groups.envelopes.get [] key ++ [env]) }

def grouped (envelopes : List SketchEnvelope) : Groups := envelopes.foldl Groups.add {}

def scopeNameOrDefault : Bytes :=
  match cfg with
  | none => str "asap_precompute"
  | some c => if c.scopeName = [] then str "asap_precompute" else c.scopeName

def writeGroup (group : List SketchEnvelope) : Except Bytes ResourceMetrics := do
  let metrics ← group.mapM (writeMetric cfg order)
  return ⟨keyValuesToAttributes (group.headD {}).resourceLabels [], [⟨scopeNameOrDefault cfg, metrics⟩]⟩

/-- `Encode`; `none` is a nil envelope. What it returns besides an error is left out. -/
def encode (envelopes : List (Option SketchEnvelope)) : Except Bytes (List ResourceMetrics) :=
  let groups := grouped envelopes.reduceOption
  groups.keys.mapM fun key => writeGroup cfg order (groups.envelopes.get [] key)

end

/-! ### Decode -/

/-- What the `...EncodingToHostNeutral` functions share: they differ in whether they know the delta and msgpack. -/
def toHostNeutral (delta packed : Encoding) : WireEncoding → Encoding
  | .proto => .protoFull
  | .protoDelta => delta
  | .msgpack | .msgpackDelta => packed
  | .unspecified | .other _ => .unspecified

abbrev ddSketchEncodingToHostNeutral := toHostNeutral .protoDelta .msgpack

abbrev sumAggEncodingToHostNeutral := toHostNeutral .protoDelta .msgpack

abbrev kllSketchEncodingToHostNeutral := toHostNeutral .unspecified .msgpack

abbrev hllSketchEncodingToHostNeutral := toHostNeutral .protoDelta .msgpack

abbrev countSketchEncodingToHostNeutral := toHostNeutral .unspecified .unspecified

abbrev countMinSketchEncodingToHostNeutral := toHostNeutral .unspecified .unspecified

def timestampMs (t : Nat) : Nat := t / 1000000

section
variable (cfg : Option AdapterConfig) (name : Bytes) (resourceLabels : List KeyValue)

def readNumberValue (dp : NumberPoint) : Option Float64 :=
  if (cfg.map AdapterConfig.readAsInt).getD false then
    match dp.value with
    | .int i => some (.ofInt i)
    | .double x => some x
    | .empty => none
  else
    match dp.value with
    | .double x => some x
    | .int i => some (.ofInt i)
    | .empty => none

def numberObservation (dp : NumberPoint) : Option Observation :=
  (readNumberValue cfg dp).map fun x =>
    { timestampMs := timestampMs dp.timestamp, metric := name, resourceLabels := resourceLabels,
      labels := attributesToKeyValues dp.attributes, value := { kind := .float, float := x } }

/-- The observation of a sketch or a `SumAgg`, which is an envelope. -/
def sketchObservation (sketchType : SketchType) (aggKind : AggregationKind) (toHostNeutral : WireEncoding → Encoding)
    (dp : SketchPoint) : Observation :=
  let env : SketchEnvelope :=
    { schemaVersion := 1, sketchType := sketchType, aggKind := aggKind, resourceLabels := resourceLabels,
      labels := attributesToKeyValues dp.attributes, windowStartMs := timestampMs dp.startTimestamp,
      windowEndMs := timestampMs dp.timestamp, encoding := toHostNeutral dp.encoding, payload := dp.sketch }
  { timestampMs := timestampMs dp.timestamp, metric := name, resourceLabels := resourceLabels, labels := env.labels,
    value := { kind := .envelope, envelope := some env } }

def decodeMetric (m : Metric) : List Observation :=
  match m.points with
  | .gauge dps => dps.filterMap (numberObservation cfg m.name resourceLabels)
  | .sum dps => dps.filterMap (numberObservation cfg m.name resourceLabels)
  | .ddSketch _ dps =>
    dps.map (sketchObservation m.name resourceLabels .ddSketch .unspecified ddSketchEncodingToHostNeutral)
  | .sumAgg dps => dps.map (sketchObservation m.name resourceLabels .unspecified .sum sumAggEncodingToHostNeutral)
  | .kllSketch dps =>
    dps.map (sketchObservation m.name resourceLabels .kllSketch .unspecified kllSketchEncodingToHostNeutral)
  | .hllSketch dps =>
    dps.map (sketchObservation m.name resourceLabels .hllSketch .unspecified hllSketchEncodingToHostNeutral)
  | .countSketch dps =>
    dps.map (sketchObservation m.name resourceLabels .countSketch .unspecified countSketchEncodingToHostNeutral)
  | .countMinSketch dps =>
    dps.map (sketchObservation m.name resourceLabels .countMinSketch .unspecified countMinSketchEncodingToHostNeutral)
  | .other => []

end

def decode (md : List ResourceMetrics) : List Observation :=
  md.flatMap fun rm => rm.scopeMetrics.flatMap fun sm =>
    sm.metrics.flatMap (decodeMetric cfg (attributesToKeyValues rm.attributes))

/-! ### What comes back -/

def knownEncoding : Bool :=
  if effectiveAggKind env = .sum then env.encoding ∈ [.protoFull, .protoDelta, .msgpack]
  else
    match env.sketchType with
    | .ddSketch | .hllSketch => env.encoding ∈ [.protoFull, .protoDelta, .msgpack]
    | .kllSketch => env.encoding ∈ [.protoFull, .msgpack]
    | .countSketch | .countMinSketch => env.encoding ∈ [.protoFull, .protoDelta, .msgpack, .msgpackDelta]
    | .unspecified => false

/-- What the runtime guarantees of an envelope. -/
structure Regular (env : SketchEnvelope) : Prop where
  resourceLabels : env.resourceLabels.Pairwise fun a b => a.key < b.key
  labels : env.labels.Pairwise fun a b => a.key < b.key
  windowStart : env.windowStartMs * 1000000 < 2 ^ 64
  windowEnd : env.windowEndMs * 1000000 < 2 ^ 64
  encoding : knownEncoding env = true

/-- Labels in the order of their keys that are those of the envelope and its frame attributes. -/
def WithFrame (labels : List KeyValue) : Prop :=
  (labels.Pairwise fun a b => a.key < b.key) ∧
    ∀ kv, kv ∈ labels ↔ kv ∈ env.labels ∨ env.frameAttributes.lookup kv.key = some kv.value

def Carries (obs : Observation) : Prop :=
  obs.metric = env.metricName ∧ obs.resourceLabels = env.resourceLabels ∧
    ∃ e, obs.carried = some e ∧ e.resourceLabels = env.resourceLabels ∧ obs.labels = e.labels ∧ WithFrame env e.labels ∧
      e.windowStartMs = env.windowStartMs ∧ e.windowEndMs = env.windowEndMs ∧
      effectiveAggKind e = effectiveAggKind env ∧ (effectiveAggKind env ≠ .sum → e.sketchType = env.sketchType) ∧
      e.encoding = env.encoding ∧ e.payload = env.payload

def RoundTrip (envs : List SketchEnvelope) (out : List Observation) : Prop :=
  ∃ order, order.Perm envs ∧ List.Forall₂ Carries order out

/-! ### When it does -/

/-- The configuration leaves the name of the envelope's metric as it is. -/
def NameKept (env : SketchEnvelope) : Prop :=
  match cfg with
  | none => env.metricName ≠ []
  | some c => if c.metricName ≠ [] then env.metricName = c.metricName else c.metricSuffix = [] ∧ env.metricName ≠ []

/-- `Decode` knows a single encoding of the two sketches of counters. -/
def DecodableEncoding : Prop :=
  effectiveAggKind env ≠ .sum → env.sketchType = .countSketch ∨ env.sketchType = .countMinSketch →
    env.encoding = .protoFull

/-- No frame attribute replaces a label. -/
def LabelsKept : Prop :=
  ∀ kv ∈ env.labels, ∀ value, env.frameAttributes.lookup kv.key = some value → value = kv.value

structure Returnable (cfg : Option AdapterConfig) (envs : List SketchEnvelope) : Prop where
  resource : ∀ a ∈ envs, ∀ b ∈ envs,
    canonicalLabelsKey a.resourceLabels = canonicalLabelsKey b.resourceLabels → a.resourceLabels = b.resourceLabels
  name : ∀ env ∈ envs, NameKept cfg env
  encoding : ∀ env ∈ envs, DecodableEncoding env
  labels : ∀ env ∈ envs, LabelsKept env

end AsapCollector.Otel
