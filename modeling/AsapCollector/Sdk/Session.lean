import AsapCollector.Lib.Run
import AsapCollector.Sdk.Aggregator

/-! One sketch instrument of an SDK with its exporter: `measure` calls, exports (`pipeline.produce` and the
`PeriodicReader` collect into the metric data of an earlier export, then `Dictionary.Annotate` runs over the result),
and `Dictionary.Apply`. -/

namespace AsapCollector

/-- What stays fixed of an instrument: its aggregator, and the parts of its series' descriptors
besides the attributes. -/
structure Instrument where
  family : SketchFamily
  temporality : Temporality
  resourceKey : Bytes
  scopeKey : Bytes
  metricName : Bytes
  metricType : Bytes

namespace Instrument

def descriptor (i : Instrument) : Attributes → Bytes := descriptorKey i.scopeKey i.metricName i.metricType

/-- `id` was assigned to the descriptor of the series with the attributes `A`. -/
def Assigned (i : Instrument) (assigned : List Assignment) (A : Attributes) (id : Nat) : Prop :=
  ∃ a ∈ assigned, a.resourceKey = i.resourceKey ∧ a.descriptor = i.descriptor A ∧ a.seriesID = id

instance (i : Instrument) (assigned : List Assignment) (A : Attributes) (id : Nat) :
    Decidable (i.Assigned assigned A id) :=
  inferInstanceAs (Decidable (∃ a ∈ assigned, _ ∧ _ ∧ _))

end Instrument

/-- `slots` is the data point slice of the pooled metric data; `assigned` are all assignments applied
so far, which nothing of the program reads. -/
structure Session where
  agg : Aggregator := {}
  slots : List DataPoint := []
  dict : Dictionary := {}
  assigned : List Assignment := []

/-- `pooled`: whether the reader's `sync.Pool` hands out the metric data of the last export. -/
inductive SessionOp where
  | measure (m : Measurement)
  | export (input : CollectInput) (pooled : Bool)
  | apply (assignments : List Assignment)

/-- A data point that left `Annotate`, with the attributes of the series it was made from. -/
structure SentPoint where
  series : Attributes
  point : DataPoint
deriving DecidableEq

namespace Session

variable (i : Instrument) (s : Session)

def dest (pooled : Bool) : List DataPoint := if pooled then s.slots else []

variable (input : CollectInput)

def exported : List (Attributes × Nat) :=
  s.agg.exported i.family i.temporality input

variable (pooled : Bool)

def slotsBefore : List DataPoint := Aggregator.reset (s.dest pooled) s.agg.values.len

def collectedSlots : List DataPoint :=
  Aggregator.fill s.agg.heap (s.exported i input) (s.slotsBefore pooled)

def annotated : Dictionary × SeriesHeap × List DataPoint :=
  s.dict.annotate i.resourceKey i.descriptor (s.agg.collected i.temporality).heap
    ((s.collectedSlots i input pooled).take (s.exported i input).length)

/-- `produce` stores the data of a collection that returned points, and drops that of an empty one. -/
def slotsAfter : List DataPoint :=
  if s.exported i input = [] then s.dest pooled
  else (s.annotated i input pooled).2.2 ++ (s.collectedSlots i input pooled).drop (s.exported i input).length

def sent : List SentPoint :=
  List.zipWith (fun e dp => ⟨e.1, dp⟩) (s.exported i input) (s.annotated i input pooled).2.2

def step : SessionOp → Session
  | .measure m => { s with agg := s.agg.measure m }
  | .export input pooled =>
    { s with
      agg := { s.agg.collected i.temporality with heap := (s.annotated i input pooled).2.1 }
      slots := s.slotsAfter i input pooled
      dict := (s.annotated i input pooled).1 }
  | .apply assignments => { s with dict := s.dict.apply assignments, assigned := assignments ++ s.assigned }

def run (ops : List SessionOp) : Session := ops.foldl (step i) s

def output : SessionOp → List SentPoint
  | .export input pooled => s.sent i input pooled
  | _ => []

/-- What a slot may hold when the point of the series `A`, whose struct is `r`, is written into it.
`exportDataPoint` leaves the slot's id in the point of an unregistered series, and its pointer to a
struct's attributes in the point of a registered one. -/
def CleanSlot (e : Attributes × Nat) (dp : DataPoint) : Prop :=
  if (s.agg.heap e.2).seriesID = 0 then dp.seriesID = 0 ∨ i.Assigned s.assigned e.1 dp.seriesID
  else ∀ live ∈ s.agg.values.pairs, dp.attrsClearer = some live.2 → (s.agg.heap live.2).seriesID ≠ 0

instance (e : Attributes × Nat) (dp : DataPoint) : Decidable (s.CleanSlot i e dp) := by
  unfold CleanSlot
  infer_instance

def CleanStep : SessionOp → Prop
  | .export input pooled =>
    ∀ p ∈ (s.exported i input).zip (s.slotsBefore pooled), s.CleanSlot i p.1 p.2
  | _ => True

instance : (op : SessionOp) → Decidable (s.CleanStep i op)
  | .export input pooled =>
    inferInstanceAs (Decidable (∀ p ∈ (s.exported i input).zip (s.slotsBefore pooled), s.CleanSlot i p.1 p.2))
  | .measure _ => .isTrue trivial
  | .apply _ => .isTrue trivial

/-- Every step of the run is clean. -/
abbrev Clean (s : Session) : List SessionOp → Prop := Always (step i) (CleanStep i) s

end Session

end AsapCollector
