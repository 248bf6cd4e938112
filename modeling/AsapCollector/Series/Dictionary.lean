import AsapCollector.Lib.Bytes
import AsapCollector.Lib.GoMap

/-! `internal/series/dictionary.go` of the OTLP exporter. `Annotate` hands ids back to the aggregator through the
pointers the points carry, so series structs live in a memory addressed by `Nat`. -/

namespace AsapCollector

inductive AttrType where
  | bool
  | int64
  | float64
  | string
  | boolSlice
  | int64Slice
  | float64Slice
  | stringSlice
deriving DecidableEq

/-- An attribute value, by its type and the two texts it is printed as: `Emit` on the side of the
SDK, `valueString` on the side of the collector. -/
structure AttrValue where
  type : AttrType
  emit : Bytes
  valueString : Bytes
deriving DecidableEq

/-- A string value, which both sides print as it is. -/
def AttrValue.ofString (s : Bytes) : AttrValue := ⟨.string, s, s⟩

/-- `attribute.Set`: its attributes in the order of their keys, which are distinct. Two sets are
`Equivalent` when they are equal. -/
abbrev Attributes := List (Bytes × AttrValue)

def attributesFingerprint (attrs : Attributes) : Bytes :=
  attrs.flatMap fun kv => kv.1 ++ str "=" ++ kv.2.emit ++ str "|"

def descriptorKeyFromParts (scopeKey metricType metricName fingerprint : Bytes) : Bytes :=
  scopeKey ++ str "|" ++ metricType ++ str "|" ++ metricName ++ str "|" ++ fingerprint

def descriptorKey (scopeKey metricName metricType : Bytes) (attrs : Attributes) : Bytes :=
  descriptorKeyFromParts scopeKey metricType metricName (attributesFingerprint attrs)

/-- The fields that the series structs of all aggregators share; `count` is the number of
measurements an export looks at. -/
structure SeriesStruct where
  attrs : Attributes := []
  seriesID : Nat := 0
  count : Nat := 0
  measuredSince : Bool := false
  idleCycles : Nat := 0
deriving DecidableEq

abbrev SeriesHeap := Nat → SeriesStruct

/-- The identity fields of a data point; the pointers are addresses of series structs. -/
structure DataPoint where
  seriesID : Nat := 0
  attributes : Attributes := []
  seriesIDSink : Option Nat := none
  attrsClearer : Option Nat := none
deriving DecidableEq

structure SeriesEntry where
  id : Nat := 0
  registered : Bool := false
  lastGen : Nat := 0
deriving DecidableEq

structure SourceState where
  nextID : Nat := 1
  entries : GoMap Bytes SeriesEntry := ∅

structure Dictionary where
  generation : Nat := 0
  sources : GoMap Bytes SourceState := ∅

def staleGenerations : Nat := 5

namespace SourceState

variable (s : SourceState)

def lookup (key : Bytes) (gen : Nat) : SourceState × SeriesEntry :=
  match s.entries.lookup key with
  | some entry =>
    ({ s with entries := s.entries.insert key { entry with lastGen := gen } }, { entry with lastGen := gen })
  | none =>
    let entry : SeriesEntry := { id := s.nextID, lastGen := gen }
    ({ nextID := s.nextID + 1, entries := s.entries.insert key entry }, entry)

def applyAssignment (descriptor : Bytes) (id : Nat) : SourceState :=
  let entry := s.entries.get {} descriptor
  { nextID := if s.nextID ≤ id then id + 1 else s.nextID,
    entries := s.entries.insert descriptor { entry with id := id, registered := true } }

def evictByID (sids : List Nat) (s : SourceState) : SourceState :=
  { s with entries := s.entries.map fun entry =>
      if entry.id ∈ sids then { entry with id := 0, registered := false } else entry }

def assignSeriesID (descriptor : Attributes → Bytes) (gen : Nat) (dp : DataPoint) : SourceState × DataPoint :=
  if dp.seriesID ≠ 0 then (s, dp)
  else
    let (s, entry) := s.lookup (descriptor dp.attributes) gen
    if entry.registered then (s, { dp with seriesID := entry.id, attributes := [] }) else (s, dp)

end SourceState

def writeSink (heap : SeriesHeap) (dp : DataPoint) : SeriesHeap × DataPoint :=
  match dp.seriesIDSink with
  | none => (heap, dp)
  | some r =>
    (Function.update heap r { heap r with seriesID := dp.seriesID }, { dp with seriesIDSink := none })

def clearAttrs (heap : SeriesHeap) (dp : DataPoint) : SeriesHeap × DataPoint :=
  match dp.attrsClearer with
  | none => (heap, dp)
  | some r =>
    if dp.seriesID ≠ 0 then
      (Function.update heap r { heap r with attrs := [] }, { dp with attrsClearer := none })
    else (heap, dp)

def annotatePoint (descriptor : Attributes → Bytes) (gen : Nat) (s : SourceState) (heap : SeriesHeap)
    (dp : DataPoint) : SourceState × SeriesHeap × DataPoint :=
  let (s, dp) := s.assignSeriesID descriptor gen dp
  let (heap, dp) := writeSink heap dp
  let (heap, dp) := clearAttrs heap dp
  (s, heap, dp)

def annotatePoints (descriptor : Attributes → Bytes) (gen : Nat) (s : SourceState) (heap : SeriesHeap) :
    List DataPoint → SourceState × SeriesHeap × List DataPoint
  | [] => (s, heap, [])
  | dp :: dps =>
    let (s, heap, dp) := annotatePoint descriptor gen s heap dp
    let (s, heap, dps) := annotatePoints descriptor gen s heap dps
    (s, heap, dp :: dps)

structure Assignment where
  resourceKey : Bytes
  scopeKey : Bytes
  metricName : Bytes
  metricType : Bytes
  attributesFingerprint : Bytes
  seriesID : Nat
deriving DecidableEq

def Assignment.descriptor (a : Assignment) : Bytes :=
  descriptorKeyFromParts a.scopeKey a.metricType a.metricName a.attributesFingerprint

namespace Dictionary

def sweepSource (gen : Nat) (s : SourceState) : SourceState :=
  { s with entries := s.entries.filter fun _ entry => gen - staleGenerations ≤ entry.lastGen }

variable (d : Dictionary)

def sweep (gen : Nat) : Dictionary :=
  if gen ≤ staleGenerations then d else { d with sources := d.sources.map (sweepSource gen) }

def annotate (resourceKey : Bytes) (descriptor : Attributes → Bytes) (heap : SeriesHeap) (dps : List DataPoint) :
    Dictionary × SeriesHeap × List DataPoint :=
  let gen := d.generation + 1
  let (s, heap, dps) := annotatePoints descriptor gen (d.sources.get {} resourceKey) heap dps
  (sweep { generation := gen, sources := d.sources.insert resourceKey s } gen, heap, dps)

def applyOne (a : Assignment) : Dictionary :=
  let source := (d.sources.get {} a.resourceKey).applyAssignment a.descriptor a.seriesID
  { d with sources := d.sources.insert a.resourceKey source }

def evictByID (sids : List Nat) : Dictionary :=
  if sids = [] then d else { d with sources := d.sources.map (SourceState.evictByID sids) }

def apply (assignments : List Assignment) : Dictionary := assignments.foldl applyOne d

end Dictionary

end AsapCollector
