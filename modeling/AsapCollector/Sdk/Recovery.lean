import AsapCollector.Sdk.Exporter
import AsapCollector.Sdk.Session

/-! One instrument, a raw buffer or a sketch, with its exporter's dictionary: measurements, exports, the assignments of
a collector, and `EvictByID`. -/

namespace AsapCollector

inductive Storage where
  | sketch (family : SketchFamily) (temporality : Temporality)
  | rawBuffer (maxPerSeries : Nat)

structure SeriesInstrument where
  storage : Storage
  resourceKey : Bytes
  scopeKey : Bytes
  metricName : Bytes
  metricType : Bytes

inductive ExportOp where
  | measure (m : Measurement)
  | export (input : CollectInput) (pooled : Bool)
  | apply (assignments : List Assignment)
  | evictByID (sids : List Nat)

namespace SeriesInstrument

variable (j : SeriesInstrument) (s : Session)

def descriptor : Attributes → Bytes := descriptorKey j.scopeKey j.metricName j.metricType

def sketch (family : SketchFamily) (temporality : Temporality) : Instrument :=
  ⟨family, temporality, j.resourceKey, j.scopeKey, j.metricName, j.metricType⟩

def rawAnnotated (order : RangeOrder (Attributes × Nat)) : Dictionary × SeriesHeap × List DataPoint :=
  s.dict.annotate j.resourceKey j.descriptor s.agg.rawDone.heap ((s.agg.rawPoints order).map Prod.snd)

def measured (m : Measurement) : Aggregator :=
  match j.storage with
  | .sketch .. => s.agg.measure m
  | .rawBuffer maxPerSeries => s.agg.measureRaw maxPerSeries m

def exported (input : CollectInput) (pooled : Bool) : Session :=
  match j.storage with
  | .sketch family temporality => s.step (j.sketch family temporality) (.export input pooled)
  | .rawBuffer _ =>
    { s with
      agg := { s.agg.rawDone with heap := (j.rawAnnotated s input.order).2.1 }
      dict := (j.rawAnnotated s input.order).1 }

def step : ExportOp → Session
  | .measure m => { s with agg := j.measured s m }
  | .export input pooled => j.exported s input pooled
  | .apply assignments => { s with dict := s.dict.apply assignments, assigned := assignments ++ s.assigned }
  | .evictByID sids => { s with dict := s.dict.evictByID sids }

def run (ops : List ExportOp) : Session := ops.foldl (step j) s

def output : ExportOp → List SentPoint
  | .export input pooled =>
    match j.storage with
    | .sketch family temporality => s.sent (j.sketch family temporality) input pooled
    | .rawBuffer _ =>
      List.zipWith (fun p dp => ⟨p.1, dp⟩) (s.agg.rawPoints input.order) (j.rawAnnotated s input.order).2.2
  | _ => []

/-- The slots of an export are clean; a raw buffer builds its points afresh. -/
def CleanStep : ExportOp → Prop
  | .export input pooled =>
    match j.storage with
    | .sketch family temporality => s.CleanStep (j.sketch family temporality) (.export input pooled)
    | .rawBuffer _ => True
  | _ => True

/-- Every step of the run is clean. -/
abbrev Clean (s : Session) : List ExportOp → Prop := Always (step j) (CleanStep j) s

variable (A : Attributes)

/-- The slot that the point of the series `A` is written into holds no id. -/
def EmptySlot : ExportOp → Prop
  | .export input pooled =>
    match j.storage with
    | .sketch family temporality =>
      ∀ p ∈ (s.exported (j.sketch family temporality) input).zip (s.slotsBefore pooled), p.1.1 = A → p.2.seriesID = 0
    | .rawBuffer _ => True
  | _ => True

/-- No export of the run finds an id in the slot of `A`. -/
abbrev EmptySlots (A : Attributes) (s : Session) : List ExportOp → Prop := Always (step j) (EmptySlot j · A) s

def Uncached : Prop := ∀ r ∈ s.agg.values.lookup A, (s.agg.heap r).seriesID = 0

def entryOf : Option SeriesEntry := (s.dict.sources.get {} j.resourceKey).entries.lookup (j.descriptor A)

/-- The id that the dictionary holds for the series, if it does, is one of the list. -/
def Listed (sids : List Nat) : Prop := ∀ e ∈ j.entryOf s A, e.registered = true → e.id ∈ sids

def Names (a : Assignment) : Prop := a.resourceKey = j.resourceKey ∧ a.descriptor = j.descriptor A

def NotAssigned : ExportOp → Prop
  | .apply assignments => ∀ a ∈ assignments, ¬j.Names A a
  | _ => True

end SeriesInstrument

end AsapCollector
