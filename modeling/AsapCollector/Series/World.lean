import AsapCollector.Lib.Run
import AsapCollector.Sdk.Exporter

/-! Any number of SDK exporters and one OTLP receiver. Requests and responses are in flight until they arrive or are
lost; a request may arrive more than once. A handler takes its source when the request arrives, goes through the points
one by one, then evicts and answers; other handlers come in between. -/

namespace AsapCollector

/-- A running call of the receiver's `Export`: what is left of its request, and the assignments so
far. -/
structure Handler where
  exporter : Nat
  resourceKey : Bytes
  source : Nat
  now : Int
  todo : List PointTask
  assignments : List Assignment := []

structure World where
  exporters : List Exporter
  cache : SeriesCache
  requests : List (Nat × Request) := []
  handlers : List Handler := []
  responses : List (Nat × List Assignment) := []

/-- `«export»`, `accept` and the others name an exporter, a request, a handler or a response by its
position; where there is none, nothing happens. -/
inductive WorldOp where
  | measure (exporter metric : Nat) (m : Measurement)
  | export (exporter : Nat) (orders : Nat → RangeOrder (Attributes × Nat))
  | loseRequest (request : Nat)
  | accept (request : Nat) (now : Int) (retried : Bool)
  | process (handler : Nat)
  | respond (handler : Nat)
  | loseResponse (response : Nat)
  | receive (response : Nat)

structure Rehydrated where
  sent : WirePoint
  result : WirePoint
deriving DecidableEq

namespace World

variable (w : World)

def accept (e : Nat) (req : Request) (now : Int) : World :=
  let (cache, source) := w.cache.getOrCreateSource req.resourceKey
  { w with cache := cache, handlers := w.handlers ++ [⟨e, req.resourceKey, source, now, req.tasks, []⟩] }

def process (k : Nat) (h : Handler) (t : PointTask) (todo : List PointTask) : World :=
  let (src, _, assignment) := (w.cache.heap h.source).rehydrateDataPoint h.resourceKey t h.now
  { w with
    cache := { w.cache with heap := Function.update w.cache.heap h.source src }
    handlers := w.handlers.set k { h with todo := todo, assignments := h.assignments ++ assignment.toList } }

def step : WorldOp → World
  | .measure e k m => { w with exporters := w.exporters.modify e fun x => x.measure k m }
  | .export e orders =>
    match w.exporters[e]? with
    | none => w
    | some x =>
      { w with exporters := w.exporters.set e (x.export orders).1, requests := w.requests ++
        [(e, (x.export orders).2)] }
  | .loseRequest k => { w with requests := w.requests.eraseIdx k }
  | .accept k now retried =>
    match w.requests[k]? with
    | none => w
    | some (e, req) => { w with requests := if retried then w.requests else w.requests.eraseIdx k }.accept e req now
  | .process k =>
    match w.handlers[k]? with
    | none => w
    | some h =>
      match h.todo with
      | [] => w
      | t :: todo => w.process k h t todo
  | .respond k =>
    match w.handlers[k]? with
    | none => w
    | some h =>
      if h.todo = [] then
        { w with
          cache := w.cache.evict h.now
          handlers := w.handlers.eraseIdx k
          responses := w.responses ++ [(h.exporter, h.assignments)] }
      else w
  | .loseResponse k => { w with responses := w.responses.eraseIdx k }
  | .receive k =>
    match w.responses[k]? with
    | none => w
    | some (e, assignments) =>
      { w with exporters := w.exporters.modify e fun x => x.apply assignments, responses := w.responses.eraseIdx k }

def run (ops : List WorldOp) : World := ops.foldl step w

def output : WorldOp → Option Rehydrated
  | .process k =>
    match w.handlers[k]? with
    | none => none
    | some h =>
      match h.todo with
      | [] => none
      | t :: _ => some ⟨t.point, ((w.cache.heap h.source).rehydrateDataPoint h.resourceKey t h.now).2.1⟩
  | _ => none

end World

/-- No live series and no dictionary entry of the exporter has an id. -/
def Exporter.HoldsNoID (e : Exporter) : Prop :=
  (∀ m ∈ e.metrics, ∀ s ∈ m.agg.values.pairs, (m.agg.heap s.2).seriesID = 0) ∧
    ∀ entry ∈ (e.dict.sources.get {} e.resourceKey).entries.pairs, entry.2.registered = false

instance (e : Exporter) : Decidable e.HoldsNoID := inferInstanceAs (Decidable (_ ∧ _))

namespace World

/-- Nobody holds or carries an id of the resource: no exporter, no request, no response, and no handler
but possibly the one at `k`, which has given none out. -/
structure Unheld (w : World) (k : Nat) (resourceKey : Bytes) : Prop where
  exporters : ∀ e ∈ w.exporters, e.wireResourceKey = resourceKey → e.HoldsNoID
  requests : ∀ r ∈ w.requests, r.2.resourceKey = resourceKey → ∀ t ∈ r.2.tasks, t.point.seriesID = 0
  responses : ∀ r ∈ w.responses, ∀ a ∈ r.2, a.resourceKey ≠ resourceKey
  handlers : ∀ h ∈ w.handlers.eraseIdx k, h.resourceKey ≠ resourceKey
  own : ∀ h ∈ w.handlers[k]?, h.resourceKey = resourceKey → h.assignments = []

instance (w : World) (k : Nat) (resourceKey : Bytes) : Decidable (w.Unheld k resourceKey) :=
  decidable_of_iff
    ((∀ e ∈ w.exporters, e.wireResourceKey = resourceKey → e.HoldsNoID) ∧
      (∀ r ∈ w.requests, r.2.resourceKey = resourceKey → ∀ t ∈ r.2.tasks, t.point.seriesID = 0) ∧
      (∀ r ∈ w.responses, ∀ a ∈ r.2, a.resourceKey ≠ resourceKey) ∧
      (∀ h ∈ w.handlers.eraseIdx k, h.resourceKey ≠ resourceKey) ∧
      ∀ h ∈ w.handlers[k]?, h.resourceKey = resourceKey → h.assignments = [])
    ⟨fun h => ⟨h.1, h.2.1, h.2.2.1, h.2.2.2.1, h.2.2.2.2⟩, fun h => ⟨h.1, h.2, h.3, h.4, h.5⟩⟩

/-- An eviction deletes only sources whose ids nobody holds. -/
def QuietStep (w : World) : WorldOp → Prop
  | .respond k =>
    ∀ h ∈ w.handlers[k]?, h.todo = [] →
      ∀ s ∈ w.cache.sources.pairs, w.cache.deletes h.now s.2 = true → w.Unheld k s.1
  | _ => True

instance (w : World) : (op : WorldOp) → Decidable (w.QuietStep op)
  | .respond k =>
    inferInstanceAs (Decidable (∀ h ∈ w.handlers[k]?, h.todo = [] →
      ∀ s ∈ w.cache.sources.pairs, w.cache.deletes h.now s.2 = true → w.Unheld k s.1))
  | .measure .. => .isTrue trivial
  | .export .. => .isTrue trivial
  | .loseRequest .. => .isTrue trivial
  | .accept .. => .isTrue trivial
  | .process .. => .isTrue trivial
  | .loseResponse .. => .isTrue trivial
  | .receive .. => .isTrue trivial

/-- Every step of the run is quiet. -/
abbrev Quiet : World → List WorldOp → Prop := Always step QuietStep

end World

/-- The series an exporter may have in a run: the instrument and the attributes of its measurements. -/
def measuredSeries (exporter : Nat) (ops : List WorldOp) : List (Nat × Attributes) :=
  ops.filterMap fun
    | .measure e k m => if e = exporter then some (k, m.limited) else none
    | _ => none

/-- No series of an exporter is looked up by the descriptor under which another series of the same
metric name got its id. -/
def Exporter.Distinguishes (e : Exporter) (series : List (Nat × Attributes)) : Prop :=
  ∀ a ∈ series, ∀ b ∈ series, ∀ m ∈ e.metrics[a.1]?, ∀ m' ∈ e.metrics[b.1]?,
    m.descriptor a.2 = m'.wireDescriptor b.2 → m.name = m'.name → a.2 = b.2

instance (e : Exporter) (series : List (Nat × Attributes)) : Decidable (e.Distinguishes series) :=
  inferInstanceAs (Decidable (∀ a ∈ series, ∀ b ∈ series, ∀ m ∈ e.metrics[a.1]?, ∀ m' ∈ e.metrics[b.1]?, _))

end AsapCollector
