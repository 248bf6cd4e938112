import AsapCollector.Edge.Processor

/-! `ConsumeMetrics` of `asapedgeprocessor/ingest.go` over the sets that `newProcessor` derives. Every shard has the
same aggregators and a cold encoder or none, so the shard of a point does not matter here. -/

namespace AsapCollector.Edge

inductive Tier where
  | unset
  | warm
  | both
  | cold
  | other (text : Bytes)
deriving DecidableEq

structure MetricSetting extends MetricFamily where
  metric : Bytes
  tier : Tier := .unset

namespace MetricSetting

variable (m : MetricSetting)

def warmEligible : Bool := m.tier ∈ [.warm, .both, .unset]

def coldEligible : Bool := m.tier ∈ [.both, .cold, .unset]

/-- The budget for the bits of a row hash; the columns are a power of two where it is asked. -/
def rowBitsFit : Bool :=
  let (rows, cols) := Processor.csmDims m.toMetricFamily
  cols.toNat.log2 = 0 || (rows * cols.toNat.log2).bmod (2 ^ 64) ≤ 64

def validateCountSketchDims : Bool :=
  let cols := (Processor.csmDims m.toMetricFamily).2.toNat
  cols &&& (cols - 1) = 0 && m.rowBitsFit

/-- Whether `newSketchAggregator` succeeds; `newCountSketch` says for which rows and columns the library has
a sketch. -/
def wired (newCountSketch : Int → Int → Bool) (m : MetricSetting) : Bool :=
  match m.family with
  | .sum | .ddSketch | .kll | .hll | .countMinSketch => true
  | .countSketch => newCountSketch (Processor.csmDims m.toMetricFamily).1 (Processor.csmDims m.toMetricFamily).2 &&
    m.rowBitsFit
  | .other _ => false

end MetricSetting

structure IngestConfig where
  metrics : List MetricSetting
  dropOriginal : Bool := false
  coldEnabled : Bool := false

namespace IngestConfig

variable (c : IngestConfig)

def validate : Bool :=
  (c.metrics.map (·.metric)).Nodup && c.metrics.all fun m =>
    m.metric ≠ [] && (m.family matches .sum | .ddSketch | .kll | .hll | .countSketch | .countMinSketch) &&
      (m.tier matches .unset | .warm | .both | .cold) && (m.family ≠ .countSketch || m.validateCountSketchDims)

def configured (name : Bytes) : Bool := c.metrics.any fun m => m.metric = name

def coldSkip (name : Bytes) : Bool := c.metrics.any fun m => m.metric = name && !m.coldEligible

/-- Whether the shards have an aggregator for a metric; the last of two settings for one metric counts. -/
def hasAggregator (newCountSketch : Int → Int → Bool) (name : Bytes) : Bool :=
  (c.metrics.reverse.find? fun m => m.metric = name && m.warmEligible).any fun m => m.wired newCountSketch

end IngestConfig

/-- A `pcommon.Value` by what `AsString`, `Int` and `Double` make of it. -/
structure AttributeValue where
  text : Bytes
  int : Int := 0
  double : Float64 := ⟨0⟩

structure NumberDataPoint where
  attributes : List (Bytes × AttributeValue)
  value : Float64
  tsMs : Nat

namespace NumberDataPoint

variable (dp : NumberDataPoint)

def attributeOf (key : Bytes) : Option AttributeValue :=
  (dp.attributes.find? fun kv => kv.1 = key).map Prod.snd

def rowSampledAdmittedRowsKey : Bytes := str "__asap_row_sampled_admitted_rows"
def rowSampledRowsKey : Bytes := str "__asap_row_sampled_rows"
def rowSampledSamplePKey : Bytes := str "__asap_row_sampled_sample_p"

def extractRowSampledMeta : Option RowSampledMeta :=
  (dp.attributeOf rowSampledAdmittedRowsKey).map fun v =>
    { admittedRows := UInt64.ofInt v.int
      rows := ((dp.attributeOf rowSampledRowsKey).map (·.int)).getD 0
      sampleP := ((dp.attributeOf rowSampledSamplePKey).map (·.double)).getD ⟨0⟩ }

def sample (name : Bytes) : Sample :=
  let am := dp.attributes.foldl (fun am kv => am.insert kv.1 kv.2.text) (∅ : GoMap Bytes Bytes)
  { metric := name
    attrs :=
      if dp.extractRowSampledMeta.isSome then
        ((am.erase rowSampledAdmittedRowsKey).erase rowSampledRowsKey).erase rowSampledSamplePKey
      else am
    value := dp.value
    tsMs := dp.tsMs
    rowSampled := dp.extractRowSampledMeta }

end NumberDataPoint

/-- The data of a metric; of the types without an aggregation nothing is read. -/
inductive IngestData where
  | sum (points : List NumberDataPoint)
  | gauge (points : List NumberDataPoint)
  | unsupported

structure IngestMetric where
  name : Bytes
  data : IngestData

def IngestMetric.points (m : IngestMetric) : List NumberDataPoint :=
  match m.data with
  | .sum points | .gauge points => points
  | .unsupported => []

def IngestMetric.isUnsupportedType (m : IngestMetric) : Bool :=
  match m.data with
  | .sum _ | .gauge _ => false
  | .unsupported => true

abbrev IngestBatch := List (List (List IngestMetric))

/-- What a call of `ConsumeMetrics` hands on: to the next consumer, to `AddSample`, and to `observe` or
`observeRowSampled`. -/
structure Handed where
  forwarded : IngestBatch := []
  archived : List Sample := []
  observed : List Sample := []

namespace IngestConfig

variable (newCountSketch : Int → Int → Bool)

variable (c : IngestConfig)

def consumePoint (name : Bytes) (h : Handed) (dp : NumberDataPoint) : Handed :=
  let x := dp.sample name
  { h with
    archived := if c.coldEnabled && !c.coldSkip name && x.rowSampled.isNone then h.archived ++ [x] else h.archived
    observed := if c.hasAggregator newCountSketch name then h.observed ++ [x] else h.observed }

def consumeMetric (h : Handed) (m : IngestMetric) : Handed :=
  m.points.foldl (c.consumePoint newCountSketch m.name) h

def removeConfigured (md : IngestBatch) : IngestBatch :=
  let kept (m : IngestMetric) : Bool := m.isUnsupportedType || !c.configured m.name
  (md.map fun rm => (rm.map fun sm => sm.filter kept).filter (!·.isEmpty)).filter (!·.isEmpty)

/-- `ConsumeMetrics`; an empty batch is not forwarded. -/
def consumeMetrics (md : IngestBatch) : Handed :=
  let h := md.flatten.flatten.foldl (c.consumeMetric newCountSketch) {}
  { h with forwarded := if c.dropOriginal then c.removeConfigured md else md }

end IngestConfig

end AsapCollector.Edge
