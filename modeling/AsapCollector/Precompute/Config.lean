import AsapCollector.Lib.Float64
import AsapCollector.Lib.GoMap
import AsapCollector.Lib.StringMap

/-! `config.go`, `matchers.go`, `observation.go` and `envelope.go` of `asap-precompute-go`. Times are natural numbers of
milliseconds. The hosts derive them from nanosecond clocks, far below the range of a `uint64`, so sums do not wrap
here. -/

namespace AsapCollector

inductive SketchType where
  | unspecified
  | ddSketch
  | kllSketch
  | hllSketch
  | countSketch
  | countMinSketch
deriving DecidableEq

inductive AggregationKind where
  | unspecified
  | sketch
  | sum
deriving DecidableEq

inductive Encoding where
  | unspecified
  | protoFull
  | protoDelta
  | msgpack
  | msgpackDelta
deriving DecidableEq

inductive AggregationMode where
  | tumbling
  | sliding
  | batch
deriving DecidableEq

inductive AggMode where
  | perSeries
  | wholeStream
deriving DecidableEq

inductive OnOverflow where
  | drop
  | block
  | evictOldest
deriving DecidableEq

structure KeyValue where
  key : Bytes
  value : Bytes
deriving DecidableEq

/-- Whether a receiver applies a payload as a delta. -/
def Encoding.isDelta : Encoding → Bool
  | .protoDelta | .msgpackDelta => true
  | .protoFull | .msgpack | .unspecified => false

structure SketchEnvelope where
  frameAttributes : GoMap Bytes Bytes := ∅
  schemaVersion : Nat := 0
  sketchType : SketchType := .unspecified
  aggKind : AggregationKind := .unspecified
  aggID : UInt64 := 0
  resourceLabels : List KeyValue := []
  labels : List KeyValue := []
  windowStartMs : Nat := 0
  windowEndMs : Nat := 0
  encoding : Encoding := .unspecified
  payload : Bytes := []
  metricName : Bytes := []
  count : Nat := 0
  aggregationTemporality : Int := 0
  relativeAccuracy : Float64 := ⟨0⟩

inductive ObservationValueKind where
  | float
  | hash
  | bytes
  | envelope
deriving DecidableEq

structure ObservationValue where
  kind : ObservationValueKind := .float
  float : Float64 := ⟨0⟩
  hash : UInt64 := 0
  bytes : Bytes := []
  envelope : Option SketchEnvelope := none
  rowSampled : Bool := false
  admittedRows : UInt64 := 0
  sampleP : Float64 := ⟨0⟩

structure Observation where
  timestampMs : Nat
  metric : Bytes := []
  resourceLabels : List KeyValue := []
  labels : List KeyValue := []
  value : ObservationValue := {}

variable (obs : Observation)

/-- The envelope that `Observe` hands to `ObserveEnvelope`: `Kind` says so and the pointer is not nil. -/
def Observation.carried : Option SketchEnvelope :=
  if obs.value.kind = .envelope then obs.value.envelope else none

/-- `WindowSpec`; a `time.Duration` is a number of nanoseconds. -/
structure WindowSpec where
  size : Int
  slide : Int := 0
  allowedLateness : Int := 0

inductive MatchOp where
  | equal
  | notEqual
  | regex
  | notRegex
deriving DecidableEq

/-- `LabelMatcher` as `clonePrecomputeConfig` prepares it. `compiled` is what `regexp.Compile` makes of
the anchored value: the texts it matches, or nil for a value that is no pattern. -/
structure LabelMatcher where
  name : Bytes
  value : Bytes
  op : MatchOp
  compiled : Option (Bytes → Bool) := none

structure PrecomputeConfig where
  aggID : UInt64
  sketchType : SketchType := .unspecified
  aggKind : AggregationKind := .unspecified
  mode : AggregationMode := .tumbling
  scope : AggMode := .perSeries
  window : WindowSpec
  matchers : List LabelMatcher := []
  aggregateBy : List Bytes := []
  sketchParams : GoMap Bytes Float64 := ∅
  deltaTransmission : Bool := false
  deltaThreshold : UInt64 := 0
  encoding : Encoding := .unspecified
  sampleP : Float64 := ⟨0⟩
  maxSeries : UInt64 := 0
  onOverflow : OnOverflow := .drop
  metricName : Bytes := []
  temporality : Int := 0
  omitResourceAttrs : Bool := false
  globalAggregation : Bool := false
  emitWindowStats : Bool := false
  subWindowInterval : Int := 0
  subWindowEpsilon : Float64 := ⟨0⟩
  gosDeltaEpsilon : Float64 := ⟨0⟩
  gosSites : UInt32 := 0

/-- `PrecomputeConfigSet`, without the plan that only the edge processor reads. -/
structure PrecomputeConfigSet where
  version : UInt64
  configs : List PrecomputeConfig

def millisecond : Int := 1000000

def second : Int := 1000000000

/-- `uint64(d / unit)`: the quotient is cut towards zero, and a negative one wraps. -/
def durationIn (unit d : Int) : Nat :=
  let q := d.tdiv unit
  if 0 ≤ q then q.toNat else (q + 2 ^ 64).toNat

variable (labels : List KeyValue)

def lookupLabel (key : Bytes) : Option Bytes :=
  (labels.find? fun kv => kv.key = key).map KeyValue.value

namespace LabelMatcher

variable (m : LabelMatcher)

/-- What a matcher looks at: the metric name if its own name is empty, otherwise a label. -/
def subject : Option Bytes :=
  if m.name = [] then if obs.metric = [] then none else some obs.metric else lookupLabel obs.labels m.name

/-- One turn of the loop of `Matches`: whether the observation gets past this matcher. -/
def passes : Bool :=
  match m.op, m.subject obs with
  | .equal, some v => v = m.value
  | .equal, none => false
  | .notEqual, some v => v ≠ m.value
  | .notEqual, none => true
  | .regex, some v => m.compiled.any (· v)
  | .regex, none => false
  | .notRegex, some v => !m.compiled.any (· v)
  | .notRegex, none => true

def valid : Bool :=
  match m.op with
  | .regex | .notRegex => m.compiled.isSome
  | _ => true

end LabelMatcher

def writeLabel (k : Bytes) : Bytes :=
  match lookupLabel labels k with
  | none => []
  | some v => k ++ str "=" ++ v ++ str ";"

/-- `writeAttributesKey`; the twin that appends to a byte buffer writes the same. -/
def attributesKey (aggregateBy : List Bytes) : Bytes :=
  let keys := if aggregateBy = [] then (labels.map KeyValue.key).insertionSort (· ≤ ·) else aggregateBy
  keys.flatMap (writeLabel labels)

def seriesKey (aggID : UInt64) (resourceLabels labels : List KeyValue) (aggregateBy : List Bytes) : Bytes :=
  Bytes.formatUint aggID ++ str "|" ++ attributesKey resourceLabels [] ++ str "|" ++ attributesKey labels aggregateBy

def seriesAttrs (aggregateBy : List Bytes) : List KeyValue :=
  if aggregateBy = [] then labels
  else aggregateBy.filterMap fun k => (lookupLabel labels k).map fun v => ⟨k, v⟩

namespace PrecomputeConfig

variable (cfg : PrecomputeConfig)

def admits : Bool := cfg.matchers.all (·.passes obs)

def validMatchers : Bool := cfg.matchers.all (·.valid)

def isWholeStream : Bool := cfg.scope = .wholeStream || cfg.globalAggregation

def seriesKeyForEntry (resourceLabels labels : List KeyValue) : Bytes :=
  if cfg.isWholeStream then seriesKey cfg.aggID [] [] []
  else if cfg.omitResourceAttrs then seriesKey cfg.aggID [] labels cfg.aggregateBy
  else seriesKey cfg.aggID resourceLabels labels cfg.aggregateBy

/-- `SeriesKeyFor`; `buildSeriesKey` fills a buffer with the same bytes. -/
def seriesKeyFor : Bytes :=
  cfg.seriesKeyForEntry obs.resourceLabels obs.labels

def windowSizeMs : Nat :=
  if cfg.window.size ≤ 0 then 0 else durationIn millisecond cfg.window.size

def slideMs : Nat :=
  if 0 < cfg.window.slide then durationIn millisecond cfg.window.slide else cfg.windowSizeMs

def panesPerWindow : Nat :=
  if cfg.windowSizeMs = 0 ∨ cfg.slideMs = 0 then 1
  else max 1 ((cfg.windowSizeMs + cfg.slideMs - 1) / cfg.slideMs)

def rotationStepMs : Nat :=
  if cfg.mode = .sliding then cfg.slideMs else cfg.windowSizeMs

def latenessMs : Nat := durationIn millisecond cfg.window.allowedLateness

end PrecomputeConfig

end AsapCollector
