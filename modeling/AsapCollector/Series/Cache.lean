import AsapCollector.Series.Dictionary

/-! `internal/metrics/series_cache.go` of the OTLP receiver. A request handler keeps the pointer to its source while
other handlers evict, so sources live in a memory addressed by `Nat`. Times are nanoseconds; ids and addresses are
unbounded. -/

namespace AsapCollector

/-- The metric types of `pmetric` that carry series. -/
inductive MetricKind where
  | gauge
  | sum
  | histogram
  | exponentialHistogram
  | summary
  | ddSketch
  | hllSketch
  | kllSketch
  | countSketch
  | countMinSketch
deriving DecidableEq

/-- The type of a point's number, for a DDSketch that of its sum, minimum or maximum. -/
inductive ValueType where
  | empty
  | int
  | double
deriving DecidableEq

/-- A data point on the wire. `origin` is the attribute set of the series the point was made from,
which is not sent and which nothing reads. -/
structure WirePoint where
  origin : Attributes
  seriesID : Nat
  attributes : Attributes
  valueType : ValueType
deriving DecidableEq

structure WireMetric where
  scopeKey : Bytes
  name : Bytes
  kind : MetricKind
  points : List WirePoint
deriving DecidableEq

/-- One call of `rehydrateDataPointLocked`: the point and what the loops around it pass along. -/
structure PointTask where
  scopeKey : Bytes
  metricName : Bytes
  metricType : Bytes
  dataType : MetricKind
  point : WirePoint
deriving DecidableEq

/-- `metricTypeStringForNumber`, `none` standing for the empty string. -/
def metricTypeStringForNumber (intKey doubleKey : Bytes) : ValueType → Option Bytes
  | .int => some intKey
  | .double => some doubleKey
  | .empty => none

/-- The metric type a point is assigned under; numbers go by the first point of their metric. -/
def pointMetricType (first own : ValueType) : MetricKind → Option Bytes
  | .gauge => metricTypeStringForNumber (str "gauge_int") (str "gauge_double") first
  | .sum => metricTypeStringForNumber (str "sum_int") (str "sum_double") first
  | .histogram => some (str "histogram")
  | .exponentialHistogram => some (str "exponential_histogram")
  | .summary => some (str "summary")
  | .ddSketch =>
    some ((metricTypeStringForNumber (str "ddsketch_int") (str "ddsketch_double") own).getD (str "ddsketch"))
  | .hllSketch => some (str "hllsketch")
  | .kllSketch => some (str "kllsketch")
  | .countSketch => some (str "countsketch")
  | .countMinSketch => some (str "countminsketch")

def WireMetric.tasks (m : WireMetric) : List PointTask :=
  match m.points with
  | [] => []
  | first :: _ => m.points.filterMap fun p =>
    (pointMetricType first.valueType p.valueType m.kind).map fun metricType =>
      ⟨m.scopeKey, m.name, metricType, m.kind, p⟩

def fingerprintAttributes (attrs : Attributes) : Bytes :=
  attrs.flatMap fun kv => kv.1 ++ str "=" ++ kv.2.valueString ++ str "|"

structure SeriesRecord where
  metricName : Bytes
  dataType : MetricKind
  attrs : Attributes
  lastSeen : Int
deriving DecidableEq

structure SeriesSource where
  nextID : Nat := 1
  series : GoMap Nat SeriesRecord := ∅

namespace SeriesSource

variable (src : SeriesSource)

def storeSeries (id : Nat) (rec : SeriesRecord) : SeriesSource :=
  { nextID := if src.nextID ≤ id then id + 1 else src.nextID, series := src.series.insert id rec }

def assignSeries (rec : SeriesRecord) : SeriesSource × Nat :=
  let id := if src.nextID = 0 then 1 else src.nextID
  ({ nextID := id + 1, series := src.series.insert id rec }, id)

/-- `hydrateFromSeries`: the attributes it copies back, if it knows the series. -/
def hydrateFromSeries (id : Nat) (metricName : Bytes) (dataType : MetricKind) (now : Int) :
    SeriesSource × Option Attributes :=
  match src.series.lookup id with
  | some rec =>
    if rec.metricName = metricName ∧ rec.dataType = dataType then
      ({ src with series := src.series.insert id { rec with lastSeen := now } }, some rec.attrs)
    else (src, none)
  | none => (src, none)

/-- `rehydrateDataPointLocked`: the point as it leaves, and the assignment it adds. -/
def rehydrateDataPoint (resourceKey : Bytes) (t : PointTask) (now : Int) :
    SeriesSource × WirePoint × Option Assignment :=
  if t.point.attributes ≠ [] then
    let stored : SeriesRecord := ⟨t.metricName, t.dataType, t.point.attributes, now⟩
    if t.point.seriesID = 0 then
      let (src, id) := src.assignSeries stored
      (src, { t.point with seriesID := id },
        some ⟨resourceKey, t.scopeKey, t.metricName, t.metricType, fingerprintAttributes t.point.attributes, id⟩)
    else (src.storeSeries t.point.seriesID stored, t.point, none)
  else if t.point.seriesID = 0 then (src, t.point, none)
  else
    match src.hydrateFromSeries t.point.seriesID t.metricName t.dataType now with
    | (src, some attrs) => (src, { t.point with attributes := attrs }, none)
    | (src, none) => (src, t.point, none)

def evict (cutoff : Int) : SeriesSource :=
  { src with series := src.series.filter fun _ rec => cutoff ≤ rec.lastSeen }

def expired (cutoff : Int) : Bool := (src.evict cutoff).series.len = 0

end SeriesSource

structure SeriesCache where
  ttl : Int
  heap : Nat → SeriesSource := fun _ => {}
  fresh : Nat := 0
  sources : GoMap Bytes Nat := ∅

namespace SeriesCache

variable (sc : SeriesCache)

def getOrCreateSource (sourceKey : Bytes) : SeriesCache × Nat :=
  match sc.sources.lookup sourceKey with
  | some src => (sc, src)
  | none =>
    ({ sc with
      heap := Function.update sc.heap sc.fresh {}
      fresh := sc.fresh + 1
      sources := sc.sources.insert sourceKey sc.fresh }, sc.fresh)

def deletes (now : Int) (src : Nat) : Bool :=
  0 < sc.ttl && (sc.heap src).expired (now - sc.ttl)

def evict (now : Int) : SeriesCache :=
  if sc.ttl ≤ 0 then sc
  else
    let resident := sc.sources.pairs.map Prod.snd
    { sc with
      heap := fun src => if src ∈ resident then (sc.heap src).evict (now - sc.ttl) else sc.heap src
      sources := sc.sources.filter fun _ src => !sc.deletes now src }

end SeriesCache

end AsapCollector
