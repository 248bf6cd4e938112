import AsapCollector.Sdk.Aggregator
import AsapCollector.Series.Cache

/-! `rawbuffer.go` of the SDK, and `Export` of the OTLP exporter up to the point where the request leaves. Of a series'
buffer its length is kept, in the `count` of the struct. -/

namespace AsapCollector

namespace Aggregator

variable (agg : Aggregator)

def recordRaw (maxPerSeries r : Nat) : Aggregator :=
  let series := agg.heap r
  let count := if maxPerSeries ≤ series.count then series.count else series.count + 1
  { agg with heap := Function.update agg.heap r { series with count := count, measuredSince := true } }

def measureRaw (maxPerSeries : Nat) (m : Measurement) : Aggregator :=
  match agg.values.lookup m.attrs with
  | some r => agg.recordRaw maxPerSeries r
  | none =>
    match agg.values.lookup m.limited with
    | some r => agg.recordRaw maxPerSeries r
    | none =>
      let (r, agg) := agg.get m.pick
      (agg.newSeries m.limited r).recordRaw maxPerSeries r

/-- The points of `rawBuffer.collect`, each with the attributes of its series. -/
def rawPoints (order : RangeOrder (Attributes × Nat)) : List (Attributes × DataPoint) :=
  (agg.values.range order).flatMap fun e =>
    List.replicate (agg.heap e.2).count (e.1, exportDataPoint (agg.heap e.2) e.2 {})

/-- The aggregator after `rawBuffer.collect`: idle series are counted and evicted as `cumulative` does
it, and all buffers are empty. -/
def rawDone : Aggregator :=
  { agg.cumulativeDone with heap := fun q => { agg.cumulativeDone.heap q with count := 0 } }

end Aggregator

/-- A raw-buffer instrument. Its scope has a key on either side of the wire. -/
structure RawMetric where
  scopeKey : Bytes
  wireScopeKey : Bytes
  name : Bytes
  isInt : Bool
  maxPerSeries : Nat
  agg : Aggregator := {}

namespace RawMetric

variable (m : RawMetric)

def valueType : ValueType := if m.isInt then .int else .double

/-- The metric type, which the dictionary and the collector write alike. -/
def metricType : Bytes := if m.isInt then str "gauge_int" else str "gauge_double"

def descriptor : Attributes → Bytes := descriptorKey m.scopeKey m.name m.metricType

def wireDescriptor (attrs : Attributes) : Bytes :=
  descriptorKeyFromParts m.wireScopeKey m.metricType m.name (fingerprintAttributes attrs)

/-- `seriesIdentity`, on a point of this instrument. -/
def wirePoint (series : Attributes) (dp : DataPoint) : WirePoint :=
  if dp.seriesID = 0 then ⟨series, 0, dp.attributes, m.valueType⟩ else ⟨series, dp.seriesID, [], m.valueType⟩

def annotated (gen : Nat) (source : SourceState) (order : RangeOrder (Attributes × Nat)) :
    SourceState × SeriesHeap × List DataPoint :=
  annotatePoints m.descriptor gen source m.agg.rawDone.heap ((m.agg.rawPoints order).map Prod.snd)

def exported (gen : Nat) (source : SourceState) (order : RangeOrder (Attributes × Nat)) : RawMetric :=
  { m with agg := { m.agg.rawDone with heap := (m.annotated gen source order).2.1 } }

def wireMetric (gen : Nat) (source : SourceState) (order : RangeOrder (Attributes × Nat)) : WireMetric :=
  ⟨m.wireScopeKey, m.name, .gauge,
    List.zipWith (fun p dp => m.wirePoint p.1 dp) (m.agg.rawPoints order) (m.annotated gen source order).2.2⟩

end RawMetric

structure Request where
  resourceKey : Bytes
  metrics : List WireMetric
deriving DecidableEq

def Request.tasks (req : Request) : List PointTask := req.metrics.flatMap WireMetric.tasks

/-- An SDK with its instruments and the exporter's dictionary. The resource has a key on either side
of the wire. -/
structure Exporter where
  resourceKey : Bytes
  wireResourceKey : Bytes
  metrics : List RawMetric
  dict : Dictionary := {}

namespace Exporter

def measure (e : Exporter) (k : Nat) (m : Measurement) : Exporter :=
  { e with metrics := e.metrics.modify k fun metric =>
      { metric with agg := metric.agg.measureRaw metric.maxPerSeries m } }

/-- The loops of `Annotate` over the instruments; `orders` are the orders of their collections. -/
def exportMetrics (gen : Nat) :
    SourceState → (Nat → RangeOrder (Attributes × Nat)) → List RawMetric →
      SourceState × List RawMetric × List WireMetric
  | source, _, [] => (source, [], [])
  | source, orders, m :: ms =>
    let (source', ms', wires) := exportMetrics gen (m.annotated gen source (orders 0)).1 (fun k => orders (k + 1)) ms
    (source', m.exported gen source (orders 0) :: ms', m.wireMetric gen source (orders 0) :: wires)

/-- Collection and the part of `Export` before the upload. `produce` leaves out instruments without
points, which makes no difference to the request's tasks. -/
def «export» (e : Exporter) (orders : Nat → RangeOrder (Attributes × Nat)) : Exporter × Request :=
  let gen := e.dict.generation + 1
  let (source, metrics, wires) := exportMetrics gen (e.dict.sources.get {} e.resourceKey) orders e.metrics
  ({ e with
    metrics := metrics
    dict := Dictionary.sweep ⟨gen, e.dict.sources.insert e.resourceKey source⟩ gen },
    ⟨e.wireResourceKey, wires⟩)

def apply (e : Exporter) (assignments : List Assignment) : Exporter := { e with dict := e.dict.apply assignments }

end Exporter

end AsapCollector
