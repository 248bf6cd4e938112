import AsapCollector.Cold.Finalizer
import AsapCollector.Edge.Aggregator

/-! `asapEdgeProcessor` (`ingest.go`, `flush.go`, `control_plane.go`) without the cold tier, the forwarding of raw data
and the locks. The hash that spreads data points over shards is seeded at random in every process, so it is a parameter,
and so are the sketches of each metric. -/

namespace AsapCollector.Edge

open Precompute

structure MetricFamily where
  family : FamilyKind
  aggregateBy : List Bytes := []
  relativeAccuracy : Float64 := ⟨0⟩
  k : Int := 0
  rows : Int := 0
  cols : Int := 0
  hllSparse : Bool := false

structure Processor (σ : Type) where
  shards : List (GoMap Bytes (SketchAggregator σ))
  sketchMetrics : GoMap Bytes MetricFamily
  windowDuration : Int
  producerEpoch : Bytes
  coldExtLabels : GoMap Bytes Bytes := ∅

/-- A data point of a sum or a gauge, decoded: `attrs` without the keys of the row-sampling metadata. -/
structure Sample where
  metric : Bytes
  attrs : GoMap Bytes Bytes
  value : Float64
  tsMs : Nat
  rowSampled : Option RowSampledMeta := none

abbrev Site := Nat × Bytes

def resolveLabelValue (k metricName : Bytes) (attrs extLabels : GoMap Bytes Bytes) : Option Bytes :=
  (extLabels.lookup k).or ((attrs.lookup k).or
    (if k = str "__name__" then some (sanitizePromLabelValue metricName) else none))

def lenPrefixed (s : Bytes) : Bytes := putUvarint s.length ++ s

/-- `SeriesKey` of `asap-gorilla-go`: the labels in the order of their names, without the empty ones. -/
def gorillaSeriesKey (metricName : Bytes) (attrs extLabels : GoMap Bytes Bytes) : Bytes :=
  let keys := str "__name__" :: (attrs.keys ++ extLabels.keys).filter fun k => k ≠ str "__name__"
  ((keys.insertionSort (· ≤ ·)).destutter (· ≠ ·)).flatMap fun k =>
    match resolveLabelValue k metricName attrs extLabels with
    | none | some [] => []
    | some v => lenPrefixed k ++ lenPrefixed v

namespace Processor

section
variable {σ : Type} (hash : Bytes → UInt64) (F : Bytes → SketchImpl σ)

variable (p : Processor σ) (plan : CollectorPlan)

def shardForKey (key : Bytes) : Nat :=
  if p.shards.length ≤ 1 then 0 else (hash key).toNat % p.shards.length

def aggregator (site : Site) : Option (SketchAggregator σ) :=
  p.shards[site.1]?.bind fun sh => sh.lookup site.2

def setAggregator (site : Site) (sa : SketchAggregator σ) : Processor σ :=
  { p with shards := p.shards.modify site.1 fun sh => sh.insert site.2 sa }

def consume (x : Sample) (ω : RangeOrder (Bytes × Bytes)) (orders : RangeOrders σ) : Processor σ :=
  let site := (p.shardForKey hash (gorillaSeriesKey x.metric x.attrs p.coldExtLabels), x.metric)
  match p.aggregator site with
  | none => p
  | some sa =>
    p.setAggregator site <|
      match x.rowSampled with
      | some m => sa.observeRowSampled (F x.metric) x.attrs x.value x.tsMs m ω orders
      | none => sa.observe (F x.metric) x.attrs x.value x.tsMs none ω orders

def visit (f : Site → SketchAggregator σ → SketchAggregator σ × FlushResult)
    (acc : Processor σ × List (Site × FlushResult)) (site : Site) : Processor σ × List (Site × FlushResult) :=
  match acc.1.aggregator site with
  | none => acc
  | some sa => (acc.1.setAggregator site (f site sa).1, acc.2 ++ [(site, (f site sa).2)])

variable (ω : RangeOrder (Bytes × SketchAggregator σ))

def sitesOf (idx : Nat) : List Site :=
  (p.shards[idx]?.map fun sh => (sh.range ω).map fun e => (idx, e.1)).getD []

def sites : List Site :=
  (List.range p.shards.length).flatMap (p.sitesOf ω)

structure Clock (σ : Type) where
  order : RangeOrder (Bytes × SketchAggregator σ)
  checkpointMS : Site → UInt64
  surroundings : Site → Surroundings σ

def flushAll (clock : Clock σ) : Processor σ × List (Site × FlushResult) :=
  (p.sites clock.order).foldl
    (visit fun site sa => sa.flush (F site.2) (clock.checkpointMS site) (clock.surroundings site)) (p, [])

def flushShardWarmCold (idx : Nat) (clock : Clock σ) : Processor σ × List (Site × FlushResult) :=
  (p.sitesOf clock.order idx).foldl
    (visit fun site sa => sa.flush (F site.2) (clock.checkpointMS site) (clock.surroundings site)) (p, [])

def flushSubWindow (nowMs : UInt64) (clock : Clock σ) : Processor σ × List (Site × FlushResult) :=
  (p.sites clock.order).foldl
    (visit fun site sa => sa.emitSubWindow (F site.2) nowMs (clock.surroundings site)) (p, [])

inductive GenerationError where
  | noMaterializations
  | duplicateOrEmptyMetric (metric : Bytes)
  | missingRule (aggID : UInt64)
  | metricCount (generation runtime : Nat)
  | omitsMetric (metric : Bytes)
  | shapeMismatch (metric : Bytes)
deriving DecidableEq

def transmissionRuleFor (materialization : UInt64) : Option TransmissionRule :=
  plan.transmissionRules.find? fun rule => rule.materialization = materialization

def csmDims (fam : MetricFamily) : Int × Int :=
  (if fam.rows < 1 then 5 else fam.rows, if fam.cols < 2 then 2048 else fam.cols)

def paramIs (cfg : PrecomputeConfig) (key : Bytes) (want : Float64) : Bool := (cfg.sketchParams.get ⟨0⟩ key).eq want

/-- `runtimeShapeMatches`; a nil list of labels is an empty one here. -/
def runtimeShapeMatches (cfg : PrecomputeConfig) (fam : MetricFamily) (window : Int) : Bool :=
  let shaped (sketchType : SketchType) (aggKind : AggregationKind) (params : Bool) : Bool :=
    params && cfg.sketchType = sketchType && cfg.aggKind = aggKind
  cfg.mode = .tumbling && cfg.window.size = window && cfg.window.slide = window && cfg.aggregateBy = fam.aggregateBy &&
    match fam.family with
    | .ddSketch => shaped .ddSketch .sketch (paramIs cfg (str "relative_accuracy") fam.relativeAccuracy)
    | .kll => shaped .kllSketch .sketch (paramIs cfg (str "k") (Float64.ofInt (if fam.k < 2 then 200 else fam.k)))
    | .hll => shaped .hllSketch .sketch (paramIs cfg (str "precision") (Float64.ofInt 14) && !fam.hllSparse)
    | .countMinSketch => shaped .countMinSketch .sketch
        (paramIs cfg (str "rows") (Float64.ofInt (csmDims fam).1) &&
          paramIs cfg (str "columns") (Float64.ofInt (csmDims fam).2))
    | .countSketch => shaped .countSketch .sketch
        (paramIs cfg (str "depth") (Float64.ofInt (csmDims fam).1) &&
          paramIs cfg (str "width") (Float64.ofInt (csmDims fam).2))
    | .sum => shaped .unspecified .sum true
    | .other _ => false

def configsByMetric (configs : List PrecomputeConfig) : Except GenerationError (GoMap Bytes PrecomputeConfig) :=
  configs.foldlM (fun acc cfg =>
    if cfg.metricName = [] ∨ (acc.lookup cfg.metricName).isSome then .error (.duplicateOrEmptyMetric cfg.metricName)
    else if (transmissionRuleFor plan cfg.aggID).isNone then .error (.missingRule cfg.aggID)
    else .ok (acc.insert cfg.metricName cfg)) ∅

def checkMetric (configs : GoMap Bytes PrecomputeConfig) (window : Int) (src : Bytes × MetricFamily) :
    Option GenerationError :=
  match configs.lookup src.1 with
  | none => some (.omitsMetric src.1)
  | some cfg => if runtimeShapeMatches cfg src.2 window then none else some (.shapeMismatch src.1)

def checkGeneration (plan : CollectorPlan) (configs : List PrecomputeConfig) (ω : RangeOrder (Bytes × MetricFamily)) :
    Except GenerationError (GoMap Bytes PrecomputeConfig) := do
  if configs.isEmpty then throw .noMaterializations
  let byMetric ← configsByMetric plan configs
  if byMetric.len ≠ p.sketchMetrics.len then throw (.metricCount byMetric.len p.sketchMetrics.len)
  match (p.sketchMetrics.range ω).findSome? (checkMetric byMetric p.windowDuration) with
  | some e => throw e
  | none => return byMetric

/-- The body of the loop under the locks. An aggregator whose metric has no configuration or no rule does
not occur behind the checks. -/
def bindAt (version : UInt64) (configs : GoMap Bytes PrecomputeConfig) (producerEpoch : Bytes) (clock : Clock σ)
    (site : Site) (sa : SketchAggregator σ) : SketchAggregator σ × FlushResult :=
  match configs.lookup site.2 with
  | none => (sa, .nothing)
  | some cfg =>
    match transmissionRuleFor plan cfg.aggID with
    | none => (sa, .nothing)
    | some rule =>
      sa.bindPlan (F site.2) plan rule cfg version producerEpoch (clock.checkpointMS site) (clock.surroundings site)

/-- `applyPhysicalGeneration`, up to the publication of what the old generation still held. -/
def applyPhysicalGeneration (plan : CollectorPlan) (set : PrecomputeConfigSet) (ω : RangeOrder (Bytes × MetricFamily))
    (clock : Clock σ) : Processor σ × Except GenerationError (List (Site × FlushResult)) :=
  match p.checkGeneration plan set.configs ω with
  | .error e => (p, .error e)
  | .ok configs =>
    let (q, retired) := (p.sites clock.order).foldl
      (visit (bindAt F plan set.version configs p.producerEpoch clock)) (p, [])
    (q, .ok retired)

inductive Call (σ : Type) where
  | consumeMetrics (points : List (Sample × RangeOrder (Bytes × Bytes) × RangeOrders σ))
  | flushAll (clock : Clock σ)
  | flushShardWarmCold (idx : Nat) (clock : Clock σ)
  | flushSubWindow (nowMs : UInt64) (clock : Clock σ)
  | applyPhysicalGeneration (plan : CollectorPlan) (set : PrecomputeConfigSet) (ω : RangeOrder (Bytes × MetricFamily))
      (clock : Clock σ)

def Call.planVersion? : Call σ → Option UInt64
  | .applyPhysicalGeneration plan _ _ _ => some plan.envelope.planVersion
  | _ => none

def step : Call σ → Processor σ
  | .consumeMetrics points => points.foldl (fun p x => p.consume hash F x.1 x.2.1 x.2.2) p
  | .flushAll clock => (p.flushAll F clock).1
  | .flushShardWarmCold idx clock => (p.flushShardWarmCold F idx clock).1
  | .flushSubWindow nowMs clock => (p.flushSubWindow F nowMs clock).1
  | .applyPhysicalGeneration plan set ω clock => (p.applyPhysicalGeneration F plan set ω clock).1

def run (calls : List (Call σ)) : Processor σ := calls.foldl (step hash F) p

def frames : List SummaryFrameIdentity :=
  p.shards.flatMap fun sh => sh.pairs.flatMap fun e => e.2.attached

end

/-- An aggregator as `newSketchAggregator` makes it. What it derives from the settings of the metric may
be anything, except that the edge only has tumbling windows. -/
structure New {σ : Type} (sa : SketchAggregator σ) : Prop where
  pc : sa.pc = new (some sa.pcfg)
  mode : sa.pcfg.mode = .tumbling
  framePlan : sa.framePlan = none
  frameRule : sa.frameRule = none
  frameSequencer : sa.frameSequencer = {}
  consumed : sa.consumed = []
  attached : sa.attached = []

/-- A processor as `newProcessor` makes it: each shard has aggregators of metrics of its own. -/
structure Fresh {σ : Type} (p : Processor σ) : Prop where
  new : ∀ site sa, p.aggregator site = some sa → New sa
  metrics : ∀ site sa, p.aggregator site = some sa → site.2 ∈ p.sketchMetrics

end Processor

end AsapCollector.Edge
