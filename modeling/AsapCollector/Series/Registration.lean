import AsapCollector.Series.Cache

/-! Both sides write the keys of a series themselves: `annotateMetric`, `resourceKey` and `scopeKey` of `dictionary.go`
from the SDK's metric data, `rehydrateMetricLocked`, `buildResourceKey` and `buildScopeKey` of `series_cache.go` from
what `transform/metricdata.go` makes of it. -/

namespace AsapCollector

/-- An attribute value of a resource or a scope, by the texts it is printed as: `Emit` in the SDK, `AsString` in the
collector. Only numbers and flags are printed in two ways, and no `|` is in either. -/
structure PrintedValue where
  emit : Bytes
  asString : Bytes
  unlike : emit = asString ∨ 124 ∉ emit ∧ 124 ∉ asString

def PrintedValue.ofString (s : Bytes) : PrintedValue := ⟨s, s, .inl rfl⟩

/-- `resource.Resource`, with the attributes in the order of their keys, which are distinct. -/
structure Resource where
  schemaURL : Bytes
  attributes : List (Bytes × PrintedValue)

/-- `instrumentation.Scope`, with the attributes in the order of their keys, which are distinct. -/
structure Scope where
  name : Bytes
  version : Bytes
  schemaURL : Bytes
  attributes : List (Bytes × PrintedValue)

inductive NumberType where
  | int64
  | float64
deriving DecidableEq

inductive MetricData where
  | gauge (n : NumberType)
  | sum (n : NumberType)
  | histogram (n : NumberType)
  | exponentialHistogram (n : NumberType)
  | ddSketch (n : NumberType)
  | kllSketch (n : NumberType)
  | countSketch (n : NumberType)
  | countMinSketch (n : NumberType)
  | hllSketch
  | summary
deriving DecidableEq

def appendAttributes (text : PrintedValue → Bytes) (attrs : List (Bytes × PrintedValue)) : Bytes :=
  attrs.flatMap fun kv => kv.1 ++ str "=" ++ text kv.2 ++ str "|"

namespace Resource

def resourceKey (r : Resource) : Bytes := r.schemaURL ++ str "|" ++ appendAttributes PrintedValue.emit r.attributes

def buildResourceKey (r : Resource) : Bytes :=
  r.schemaURL ++ str "|" ++ appendAttributes PrintedValue.asString r.attributes

end Resource

namespace Scope

def scopeKey (s : Scope) : Bytes :=
  s.name ++ str "|" ++ s.version ++ str "|" ++ s.schemaURL ++ str "|" ++ appendAttributes PrintedValue.emit s.attributes

def buildScopeKey (s : Scope) : Bytes :=
  s.name ++ str "|" ++ s.version ++ str "|" ++ s.schemaURL ++ str "|" ++
    appendAttributes PrintedValue.asString s.attributes

end Scope

namespace MetricData

def metricType : MetricData → Bytes
  | gauge .int64 => str "gauge_int"
  | gauge .float64 => str "gauge_double"
  | sum .int64 => str "sum_int"
  | sum .float64 => str "sum_double"
  | histogram _ => str "histogram"
  | exponentialHistogram _ => str "exponential_histogram"
  | ddSketch .int64 => str "ddsketch_int"
  | ddSketch .float64 => str "ddsketch_double"
  | kllSketch .int64 => str "kllsketch_int"
  | kllSketch .float64 => str "kllsketch_double"
  | countSketch .int64 => str "countsketch_int"
  | countSketch .float64 => str "countsketch_double"
  | countMinSketch .int64 => str "countminsketch_int"
  | countMinSketch .float64 => str "countminsketch_double"
  | hllSketch => str "hllsketch"
  | summary => str "summary"

/-- The message that `metric` of the transform makes of the data. -/
def kind : MetricData → MetricKind
  | gauge _ => .gauge
  | sum _ => .sum
  | histogram _ => .histogram
  | exponentialHistogram _ => .exponentialHistogram
  | ddSketch _ => .ddSketch
  | kllSketch _ => .kllSketch
  | countSketch _ => .countSketch
  | countMinSketch _ => .countMinSketch
  | hllSketch => .hllSketch
  | summary => .summary

/-- The value type that the receiver can see. Points of gauges and sums have a value; sum, minimum and maximum of a
DDSketch are not sent. -/
def valueType : MetricData → ValueType
  | gauge .int64 => .int
  | gauge .float64 => .double
  | sum .int64 => .int
  | sum .float64 => .double
  | _ => .empty

end MetricData

structure ReportedMetric where
  resource : Resource
  scope : Scope
  name : Bytes
  data : MetricData

namespace ReportedMetric

variable (m : ReportedMetric)

def descriptor : Attributes → Bytes := descriptorKey m.scope.scopeKey m.name m.data.metricType

def annotate (d : Dictionary) (heap : SeriesHeap) (dp : DataPoint) : Dictionary × SeriesHeap × List DataPoint :=
  d.annotate m.resource.resourceKey m.descriptor heap [dp]

def wirePoint (series : Attributes) (dp : DataPoint) : WirePoint :=
  if dp.seriesID = 0 then ⟨series, 0, dp.attributes, m.data.valueType⟩ else ⟨series, dp.seriesID, [], m.data.valueType⟩

def wire (series : Attributes) (dps : List DataPoint) : WireMetric :=
  ⟨m.scope.buildScopeKey, m.name, m.data.kind, dps.map (m.wirePoint series)⟩

end ReportedMetric

def SeriesSource.rehydrateTasks (resourceKey : Bytes) (now : Int) : SeriesSource → List PointTask →
    SeriesSource × List Assignment
  | src, [] => (src, [])
  | src, t :: ts =>
    let (src', _, assignment) := src.rehydrateDataPoint resourceKey t now
    let (src'', assignments) := src'.rehydrateTasks resourceKey now ts
    (src'', assignment.toList ++ assignments)

namespace SeriesCache

def rehydrate (sc : SeriesCache) (resourceKey : Bytes) (m : WireMetric) (now : Int) : SeriesCache × List Assignment :=
  let (sc, src) := sc.getOrCreateSource resourceKey
  let (source, assignments) := (sc.heap src).rehydrateTasks resourceKey now m.tasks
  (evict { sc with heap := Function.update sc.heap src source } now, assignments)

end SeriesCache

namespace ReportedMetric

variable (m : ReportedMetric)

def assigned (d : Dictionary) (heap : SeriesHeap) (sc : SeriesCache) (now : Int) (dp : DataPoint) : List Assignment :=
  (sc.rehydrate m.resource.buildResourceKey (m.wire dp.attributes (m.annotate d heap dp).2.2) now).2

def registered (d : Dictionary) (heap : SeriesHeap) (sc : SeriesCache) (now : Int) (dp : DataPoint) : Dictionary :=
  (m.annotate d heap dp).1.apply (m.assigned d heap sc now dp)

end ReportedMetric

/-- The data types that go by one name on both sides. -/
def MetricData.sameName : MetricData → Bool
  | gauge _ | sum _ | histogram _ | exponentialHistogram _ | hllSketch | summary => true
  | ddSketch _ | kllSketch _ | countSketch _ | countMinSketch _ => false

def PrintedAlike (attrs : List (Bytes × PrintedValue)) : Prop := ∀ kv ∈ attrs, kv.2.emit = kv.2.asString

end AsapCollector
