import AsapCollector.Series.Dictionary

/-! The part of `ddsketch.go`, `kllsketch.go`, `hllsketch.go`, `countsketch.go` and `countminsketch.go` that decides
which series a data point belongs to. The five files share this code up to the test for empty series, which CountSketch
lacks. Sketch contents are left out; whether a payload can be serialized is an input. -/

namespace AsapCollector

inductive SketchFamily where
  | ddSketch
  | kllSketch
  | hllSketch
  | countSketch
  | countMinSketch
deriving DecidableEq

inductive Temporality where
  | delta
  | cumulative
deriving DecidableEq

def maxIdleCycles : Nat := 3

/-- The live series of an aggregator and the pool of structs it draws on. -/
structure Aggregator where
  heap : SeriesHeap := fun _ => {}
  fresh : Nat := 0
  values : GoMap Attributes Nat := ∅
  pool : List Nat := []

/-- One call of `measure`. `limited` is what the cardinality limiter makes of the attributes, `pick`
the struct the pool hands out, if any, and `constructs` whether a sketch could be made. -/
structure Measurement where
  attrs : Attributes
  limited : Attributes
  pick : Option Nat := none
  constructs : Bool := true

/-- What a collection meets that the aggregator does not decide: the order of its loop over the
series, and which series' payloads can be serialized. -/
structure CollectInput where
  order : RangeOrder (Attributes × Nat)
  serializes : Attributes → Bool

namespace Aggregator

variable (agg : Aggregator) (series : SeriesStruct)

def get (pick : Option Nat) : Nat × Aggregator :=
  match agg.pool.find? (fun r => pick = some r) with
  | some r => (r, { agg with pool := agg.pool.filter fun q => q ≠ r })
  | none => (agg.fresh, { agg with fresh := agg.fresh + 1 })

def record (r : Nat) : Aggregator :=
  let series := agg.heap r
  { agg with heap := Function.update agg.heap r { series with count := series.count + 1, measuredSince := true } }

def newSeries (attrs : Attributes) (r : Nat) : Aggregator :=
  { agg with
    heap := Function.update agg.heap r { attrs := attrs, measuredSince := true }
    values := agg.values.insert attrs r }

def measure (m : Measurement) : Aggregator :=
  match agg.values.lookup m.attrs with
  | some r => agg.record r
  | none =>
    match agg.values.lookup m.limited with
    | some r => agg.record r
    | none =>
      let (r, agg) := agg.get m.pick
      if m.constructs then (agg.newSeries m.limited r).record r else agg

def exports (family : SketchFamily) (temporality : Temporality) (serializes : Attributes → Bool)
    (key : Attributes) (series : SeriesStruct) : Bool :=
  (temporality = .delta || series.measuredSince) && (family = .countSketch || series.count ≠ 0) && serializes key

def exported (family : SketchFamily) (temporality : Temporality) (input : CollectInput) : List (Attributes × Nat) :=
  (agg.values.range input.order).filter fun e => exports family temporality input.serializes e.1 (agg.heap e.2)

/-- `exportDataPoint`, into a slot that still holds what it was last used for. -/
def exportDataPoint (r : Nat) (dp : DataPoint) : DataPoint :=
  if series.seriesID ≠ 0 then { dp with seriesID := series.seriesID }
  else { dp with attributes := series.attrs, seriesIDSink := some r, attrsClearer := some r }

def reset (slots : List DataPoint) (n : Nat) : List DataPoint :=
  if slots.length < n then List.replicate n {} else slots

/-- The slots after the loop of a collection: the exported points first, the others as they were. -/
def fill (heap : SeriesHeap) : List (Attributes × Nat) → List DataPoint → List DataPoint
  | e :: es, dp :: dps => exportDataPoint (heap e.2) e.2 dp :: fill heap es dps
  | _, dps => dps

def cleared (heap : SeriesHeap) (rs : List Nat) : SeriesHeap := fun q => if q ∈ rs then {} else heap q

def deltaDone : Aggregator :=
  let rs := agg.values.pairs.map Prod.snd
  { agg with heap := cleared agg.heap rs, values := ∅, pool := rs ++ agg.pool }

def idle : SeriesStruct :=
  if series.measuredSince then { series with measuredSince := false, idleCycles := 0 }
  else { series with idleCycles := series.idleCycles + 1 }

def evicts : Bool := !series.measuredSince && maxIdleCycles ≤ series.idleCycles + 1

/-- `cumulative` counts idle cycles and gives the structs of idle series back to the pool. -/
def cumulativeDone : Aggregator :=
  let rs := agg.values.pairs.map Prod.snd
  let evicted := rs.filter fun r => evicts (agg.heap r)
  let counted : SeriesHeap := fun q => if q ∈ rs then idle (agg.heap q) else agg.heap q
  { agg with
    heap := cleared counted evicted
    values := agg.values.filter fun _ r => r ∉ evicted
    pool := evicted ++ agg.pool }

def collected : Temporality → Aggregator
  | .delta => agg.deltaDone
  | .cumulative => agg.cumulativeDone

end Aggregator

end AsapCollector
