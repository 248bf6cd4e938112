import AsapCollector.Sdk.Session

/-! The instrument of `Session` with the export taken apart: a collection into fresh metric data, and `Annotate` over
its result, between which other goroutines may measure. -/

namespace AsapCollector

/-- The id `assignSeriesID` puts on a point that has none; 0 leaves it without. -/
def SourceState.idOf (s : SourceState) (key : Bytes) : Nat :=
  match s.entries.lookup key with
  | some entry => if entry.registered then entry.id else 0
  | none => 0

/-- `pending` are the points of the last collection until `Annotate` has run over them, each with the
attributes of its series; `assigned` are all assignments applied so far. -/
structure Interleaved where
  agg : Aggregator := {}
  pending : List (Attributes × DataPoint) := []
  dict : Dictionary := {}
  assigned : List Assignment := []

inductive ReaderOp where
  | measure (m : Measurement)
  | collect (input : CollectInput)
  | annotate
  | apply (assignments : List Assignment)

namespace Interleaved

variable (i : Instrument) (s : Interleaved)

def points (input : CollectInput) : List (Attributes × DataPoint) :=
  (s.agg.exported i.family i.temporality input).map fun e => (e.1, Aggregator.exportDataPoint (s.agg.heap e.2) e.2 {})

def annotated : Dictionary × SeriesHeap × List DataPoint :=
  s.dict.annotate i.resourceKey i.descriptor s.agg.heap (s.pending.map Prod.snd)

def step : ReaderOp → Interleaved
  | .measure m => { s with agg := s.agg.measure m }
  | .collect input => { s with agg := s.agg.collected i.temporality, pending := s.points i input }
  | .annotate => { s with agg := { s.agg with heap := (s.annotated i).2.1 }, pending := [], dict := (s.annotated i).1 }
  | .apply assignments => { s with dict := s.dict.apply assignments, assigned := assignments ++ s.assigned }

def run (ops : List ReaderOp) : Interleaved := ops.foldl (step i) s

/-- Each live struct has the attributes of its series and no id, or an id that was assigned to the series'
descriptor. -/
def Owned : Prop :=
  ∀ live ∈ s.agg.values.pairs, ((s.agg.heap live.2).attrs = live.1 ∧ (s.agg.heap live.2).seriesID = 0) ∨
    i.Assigned s.assigned live.1 (s.agg.heap live.2).seriesID

instance : Decidable (s.Owned i) := inferInstanceAs (Decidable (∀ live ∈ s.agg.values.pairs, _))

def nextID (p : Attributes × DataPoint) : Nat := (s.dict.sources.get {} i.resourceKey).idOf (i.descriptor p.1)

/-- The struct a delta point will write an id into is not live by now, or is that of a series the id was
assigned to. -/
def CleanStep : ReaderOp → Prop
  | .annotate =>
    i.temporality = .delta → ∀ p ∈ s.pending, ∀ live ∈ s.agg.values.pairs, p.2.seriesIDSink = some live.2 →
      s.nextID i p = 0 ∨ i.Assigned s.assigned live.1 (s.nextID i p)
  | _ => True

/-- Every step of the run is clean. -/
abbrev Clean (s : Interleaved) : List ReaderOp → Prop := Always (step i) (CleanStep i) s

end Interleaved

end AsapCollector
