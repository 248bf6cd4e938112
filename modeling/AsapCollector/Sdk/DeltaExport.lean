import AsapCollector.Sdk.Aggregator

/-! The sketches of the CountSketch, CountMinSketch and DDSketch aggregators in cumulative temporality, and the sparse
deltas they export. Payloads stand for their bytes, the order of the data points is left out, and a snapshot is kept
beside its series: the two maps gain and lose a key together. -/

namespace AsapCollector

/-- What the aggregators use of sketchlib-go. A cell is a counter or a bucket; `computeDelta` stands for `ComputeDelta`
with the serialization of its result, by cell. -/
structure DeltaLib (S ι : Type) where
  new : S
  update : Attributes → Int → S → S
  cells : S → ι → Int
  computeDelta : S → S → ℚ → Except String (ι → Int)
  serializes : S → Bool

inductive SketchPayload (S ι : Type) where
  | full (sketch : S)
  | delta (changes : ι → Int)

structure SketchSeries (S : Type) extends SeriesStruct where
  sketch : S
  snapshot : Option S := none

structure DeltaAggregator (S : Type) where
  family : SketchFamily
  deltaTransmission : Bool
  deltaThreshold : ℚ
  values : GoMap Attributes (SketchSeries S) := ∅

namespace DeltaAggregator

variable {S ι : Type} (L : DeltaLib S ι)

def new (family : SketchFamily) (deltaTransmission : Bool) (deltaThreshold : ℚ) : DeltaAggregator S where
  family
  deltaTransmission
  deltaThreshold := if deltaTransmission ∧ deltaThreshold ≤ 0 then 1 else deltaThreshold

variable (agg : DeltaAggregator S)

def record (attrs : Attributes) (value : Int) (series : SketchSeries S) : DeltaAggregator S :=
  { agg with values := agg.values.insert attrs { series with
      sketch := L.update attrs value series.sketch
      count := series.count + 1
      measuredSince := true } }

def measure (m : Measurement) (value : Int) : DeltaAggregator S :=
  match agg.values.lookup m.attrs with
  | some series => agg.record L m.attrs value series
  | none =>
    match agg.values.lookup m.limited with
    | some series => agg.record L m.limited value series
    | none =>
      if m.constructs then
        agg.record L m.limited value { attrs := m.limited, measuredSince := true, sketch := L.new }
      else agg

def fullPayload (sketch : S) : Option (SketchPayload S ι) := if L.serializes sketch then some (.full sketch) else none

variable (series : SketchSeries S)

/-- `payloadFor`; an error is handed to `otel.Handle`, and nothing is exported. -/
def payloadFor : Option (SketchPayload S ι) :=
  match if agg.deltaTransmission then series.snapshot else none with
  | none => fullPayload L series.sketch
  | some snap =>
    match L.computeDelta snap series.sketch agg.deltaThreshold with
    | .ok changes => some (.delta changes)
    | .error _ => fullPayload L series.sketch

def point : Option (SketchPayload S ι) :=
  if series.measuredSince ∧ (agg.family = .countSketch ∨ series.count ≠ 0) then agg.payloadFor L series else none

def points : GoMap Attributes (Option (SketchPayload S ι)) := agg.values.map (agg.point L)

def collected : SketchSeries S where
  toSeriesStruct := Aggregator.idle series.toSeriesStruct
  sketch := series.sketch
  snapshot := if agg.deltaTransmission ∧ (agg.point L series).isSome then some series.sketch else series.snapshot

def cumulative : DeltaAggregator S :=
  { agg with
    values := (agg.values.filter fun _ series => !Aggregator.evicts series.toSeriesStruct).map (agg.collected L) }

end DeltaAggregator

inductive DeltaCall where
  | measure (m : Measurement) (value : Int)
  | cumulative

def SketchPayload.receive {S ι : Type} (L : DeltaLib S ι) (held : Option (ι → Int)) : SketchPayload S ι →
    Option (ι → Int)
  | .full sketch => some (L.cells sketch)
  | .delta changes => held.map (· + changes)

structure DeltaSession (S ι : Type) where
  agg : DeltaAggregator S
  received : Attributes → Option (ι → Int) := fun _ => none
  omitted : Attributes → ι → Int := fun _ _ => 0

namespace DeltaSession

variable {S ι : Type} (L : DeltaLib S ι)

/-- The change of a cell since the snapshot, where it stays below the threshold. -/
def belowThreshold (agg : DeltaAggregator S) (series : SketchSeries S) (i : ι) : Int :=
  let change := L.cells series.sketch i - (series.snapshot.map (L.cells · i)).getD 0
  if |(change : ℚ)| < agg.deltaThreshold then change else 0

def leaveOut (agg : DeltaAggregator S) (omitted : ι → Int) (series : SketchSeries S) : ι → Int :=
  match agg.point L series with
  | none => omitted
  | some (.full _) => 0
  | some (.delta _) => omitted + belowThreshold L agg series

def step (s : DeltaSession S ι) : DeltaCall → DeltaSession S ι
  | .measure m value => { s with agg := s.agg.measure L m value }
  | .cumulative =>
    { agg := s.agg.cumulative L
      received := fun key => (((s.agg.points L).lookup key).join.map (SketchPayload.receive L (s.received key))).getD
        (s.received key)
      omitted := fun key => ((s.agg.values.lookup key).map (leaveOut L s.agg (s.omitted key))).getD (s.omitted key) }

def run (s : DeltaSession S ι) (calls : List DeltaCall) : DeltaSession S ι := calls.foldl (step L) s

def start (family : SketchFamily) (deltaThreshold : ℚ) : DeltaSession S ι := { agg := .new family true deltaThreshold }

end DeltaSession

end AsapCollector
