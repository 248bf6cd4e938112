import AsapCollector.Precompute.Runtime

/-! `sketchAggregator` of `asapedgeprocessor/warm_sketch.go`. The logger, the monitor and the encoding to OTLP are left
out: an envelope counts as sent as soon as its identity is attached. -/

namespace AsapCollector

/-- `FamilyKind`, with any other text a configuration might hold. -/
inductive FamilyKind where
  | sum
  | ddSketch
  | kll
  | hll
  | countSketch
  | countMinSketch
  | other (text : Bytes)
deriving DecidableEq

inductive ObserveKind where
  | float
  | bytesHash
  | keyedFreq
  | keyedItem
  | itemHLL
  | itemCMS
deriving DecidableEq

inductive TopkWeight where
  | value
  | count
deriving DecidableEq

namespace Edge

open Precompute

/-- What `extractRowSampledMeta` finds on a data point that an SDK has sampled by rows. -/
structure RowSampledMeta where
  admittedRows : UInt64
  rows : Int
  sampleP : Float64

/-- A sample with its labels as the aggregator hands them on, the configuration its runtime has at that
moment, and the version of the plan then bound. -/
structure Consumed where
  planVersion : Option UInt64
  cfg : PrecomputeConfig
  labels : List KeyValue

def Consumed.entryLabels (x : Consumed) : List KeyValue := if x.cfg.isWholeStream then [] else x.labels

/-- The series identity of a frame whose entry has the given labels and count. -/
def frameSeries (cfg : PrecomputeConfig) (labels : List KeyValue) (count : Nat) : Bytes :=
  seriesKey cfg.aggID []
    (envelopeLabels ({ sketch := (), seriesKey := [], lastSeenMs := 0, labels, count } : SeriesEntry Unit) cfg) []

/-- `sketchAggregator`. `consumed` and `attached` only record, the samples given to the runtime and the
frames whose identities were attached; no function reads them. -/
structure SketchAggregator (σ : Type) where
  pc : Precompute σ
  pcfg : PrecomputeConfig
  family : FamilyKind
  rows : Int := 0
  obsKind : ObserveKind := .float
  itemLabel : Bytes := []
  weightMode : TopkWeight := .value
  droppedSamples : Nat := 0
  framePlan : Option CollectorPlan := none
  frameRule : Option TransmissionRule := none
  frameSequencer : FrameSequencer := {}
  producerEpoch : Bytes := []
  checkpointAtMS : UInt64 := 0
  consumed : List Consumed := []
  attached : List SummaryFrameIdentity := []

/-- What a call takes from its surroundings: the orders of its loops over maps, and the clock where
`attachFrameIdentities` reads it. -/
structure Surroundings (σ : Type) where
  orders : RangeOrders σ
  attachMS : UInt64

inductive FlushResult where
  | nothing
  | refused
  | sent (envelopes : List SketchEnvelope)

namespace SketchAggregator

section
variable {σ : Type} (F : SketchImpl σ)

variable (am : GoMap Bytes Bytes)

/-- `fillKVScratch`: the attributes in the order of the loop, without the dropped one. -/
def fillKVScratch (ω : RangeOrder (Bytes × Bytes)) (drop : Bytes) : List KeyValue :=
  ((am.range ω).filter fun kv => !(drop ≠ [] ∧ kv.1 = drop)).map fun kv => ⟨kv.1, kv.2⟩

variable (s : SketchAggregator σ)

def dropLabel : Bytes :=
  if s.obsKind = .itemHLL ∨ s.obsKind = .itemCMS then s.itemLabel else []

def observationValue (kv : List KeyValue) (val : Float64) : ObservationValue :=
  match s.obsKind with
  | .float => { kind := .float, float := val }
  | .bytesHash => { kind := .bytes, bytes := attributesKey kv [] }
  | .keyedFreq => { kind := .float, float := Float64.ofInt 1, bytes := attributesKey kv [] }
  | .keyedItem =>
    { kind := .float
      float := if s.weightMode = .count then Float64.ofInt 1 else val
      bytes := if s.itemLabel = [] then [] else am.get [] s.itemLabel }
  | .itemHLL | .itemCMS => { kind := .bytes, bytes := am.get [] s.itemLabel }

def takesRows : Bool :=
  match s.obsKind with
  | .bytesHash | .keyedFreq | .keyedItem => true
  | .float => s.family = .sum || s.family = .ddSketch
  | .itemHLL | .itemCMS => false

def drop : SketchAggregator σ := { s with droppedSamples := s.droppedSamples + 1 }

def observeKeyed (obs : Observation) (orders : RangeOrders σ) : SketchAggregator σ :=
  let (pc, err) := s.pc.observeKeyed F (s.pcfg.seriesKeyFor obs) obs orders
  let s := { s with
    pc := pc
    consumed := s.consumed ++
      (s.pc.cfg.map fun cfg => ⟨s.framePlan.map (·.envelope.planVersion), cfg, obs.labels⟩).toList }
  if err.isSome then s.drop else s

def observe (val : Float64) (tsMs : Nat) (sampled : Option (UInt64 × Float64))
    (ω : RangeOrder (Bytes × Bytes)) (orders : RangeOrders σ) : SketchAggregator σ :=
  let kv := fillKVScratch am ω s.dropLabel
  let value := s.observationValue am kv val
  match sampled with
  | none => s.observeKeyed F { timestampMs := tsMs, labels := kv, value } orders
  | some (admittedRows, sampleP) =>
    if s.takesRows then
      s.observeKeyed F { timestampMs := tsMs, labels := kv
                         value := { value with rowSampled := true, admittedRows, sampleP } } orders
    else s.drop

def validRows (m : RowSampledMeta) : Bool :=
  s.rows ≠ 0 && m.rows = s.rows && 0 < m.rows && m.rows ≤ 64 && m.admittedRows ≠ 0 &&
    (m.rows = 64 || m.admittedRows.toNat < 2 ^ m.rows.toNat) &&
    !m.sampleP.le ⟨0⟩ && !(Float64.ofInt 1).lt m.sampleP && !m.sampleP.isNaN

def observeRowSampled (val : Float64) (tsMs : Nat) (m : RowSampledMeta)
    (ω : RangeOrder (Bytes × Bytes)) (orders : RangeOrders σ) : SketchAggregator σ :=
  if s.validRows m then s.observe F am val tsMs (some (m.admittedRows, m.sampleP)) ω orders else s.drop

def checkpointDue (nowMS : UInt64) : Bool :=
  match s.frameRule with
  | none => false
  | some rule =>
    match rule.mode, rule.fullCheckpointEveryMS with
    | .delta, some cadence =>
      s.checkpointAtMS = 0 || (s.checkpointAtMS ≤ nowMS && cadence ≤ nowMS - s.checkpointAtMS)
    | _, _ => false

def forceCheckpointIfDue (nowMS : UInt64) : SketchAggregator σ :=
  if s.checkpointDue nowMS then { s with pc := s.pc.resetDeltaBase, checkpointAtMS := nowMS } else s

/-- The emission of an envelope; the window bounds are `uint64` nanoseconds. -/
def emission (nowMS : UInt64) (env : SketchEnvelope) : FrameEmission where
  seriesIdentity := seriesKey env.aggID env.resourceLabels env.labels []
  windowStartUnixNano := UInt64.ofNat env.windowStartMs * 1000000
  windowEndUnixNano := UInt64.ofNat env.windowEndMs * 1000000
  nowUnixMS := nowMS
  emittedFull := env.encoding = .protoFull || env.encoding = .msgpack

def sealEnvelope (frame : SummaryFrameIdentity) (env : SketchEnvelope) : SketchEnvelope :=
  { env with frameAttributes := sealFrameAttributes frame.otlpAttributes env.payload }

/-- `attachFrameIdentities`; `none` is the result false. -/
def attachFrameIdentities (envs : List SketchEnvelope) (nowMS : UInt64) :
    SketchAggregator σ × Option (List SketchEnvelope) :=
  match s.framePlan, s.frameRule with
  | some plan, some rule =>
    if envs.any fun env => env.aggID ≠ rule.materialization then (s, none)
    else
      match s.frameSequencer.nextBatchForEmission plan rule s.producerEpoch (envs.map (emission nowMS)) with
      | .error _ => (s, none)
      | .ok (sequencer, frames) =>
        ({ s with frameSequencer := sequencer, attached := s.attached ++ frames },
          some (frames.zipWith sealEnvelope envs))
  | _, _ => (s, some envs)

/-- What `flush` and `emitSubWindow` do with the envelopes of the runtime. -/
def publish (envs : List SketchEnvelope) (nowMS : UInt64) : SketchAggregator σ × FlushResult :=
  if envs.isEmpty then (s, .nothing)
  else
    match s.attachFrameIdentities envs nowMS with
    | (s, none) => (s, .refused)
    | (s, some envs) => (s, .sent envs)

def flush (checkpointMS : UInt64) (surr : Surroundings σ) : SketchAggregator σ × FlushResult :=
  let s := s.forceCheckpointIfDue checkpointMS
  let (pc, envs) := s.pc.drain F surr.orders
  { s with pc }.publish envs surr.attachMS

def subWindowEnabled : Bool :=
  s.pcfg.deltaTransmission && (0 < s.pcfg.subWindowInterval || Float64.lt ⟨0⟩ s.pcfg.gosDeltaEpsilon)

def emitSubWindow (nowMs : UInt64) (surr : Surroundings σ) : SketchAggregator σ × FlushResult :=
  if s.subWindowEnabled then
    let s := s.forceCheckpointIfDue nowMs
    let (pc, envs) := s.pc.emitSubWindow F nowMs.toNat surr.orders
    { s with pc }.publish envs surr.attachMS
  else (s, .nothing)

/-- The body of the locked loop of `applyPhysicalGeneration` for one aggregator: what was open is
emitted under the old plan, or dropped if there was none, and the new plan is bound. -/
def bindPlan (plan : CollectorPlan) (rule : TransmissionRule) (cfg : PrecomputeConfig) (version : UInt64)
    (producerEpoch : Bytes) (checkpointMS : UInt64) (surr : Surroundings σ) : SketchAggregator σ × FlushResult :=
  let (s, retired) :=
    if s.framePlan.isSome then s.flush F checkpointMS surr
    else ({ s with pc := (s.pc.drain F surr.orders).1 }, .nothing)
  ({ s with
    pc := s.pc.updateConfig ⟨version, [cfg]⟩
    pcfg := cfg
    framePlan := some plan
    frameRule := some rule
    frameSequencer := {}
    producerEpoch
    checkpointAtMS := 0 }, retired)

end

end SketchAggregator

inductive AggregatorCall (σ : Type) where
  | observe (am : GoMap Bytes Bytes) (val : Float64) (tsMs : Nat) (sampled : Option (UInt64 × Float64))
      (ω : RangeOrder (Bytes × Bytes)) (orders : RangeOrders σ)
  | emitSubWindow (nowMs : UInt64) (surr : Surroundings σ)
  | flush (checkpointMS : UInt64) (surr : Surroundings σ)

def AggregatorCall.readings {σ : Type} : AggregatorCall σ → List UInt64
  | .observe .. => []
  | .emitSubWindow nowMs surr => [nowMs, surr.attachMS]
  | .flush checkpointMS surr => [checkpointMS, surr.attachMS]

namespace SketchAggregator

variable {σ : Type} (F : SketchImpl σ)

def call (s : SketchAggregator σ) : AggregatorCall σ → SketchAggregator σ × FlushResult
  | .observe am val tsMs sampled ω orders => (s.observe F am val tsMs sampled ω orders, .nothing)
  | .emitSubWindow nowMs surr => s.emitSubWindow F nowMs surr
  | .flush checkpointMS surr => s.flush F checkpointMS surr

def results (s : SketchAggregator σ) : List (AggregatorCall σ) → List FlushResult
  | [] => []
  | c :: calls => (s.call F c).2 :: (s.call F c).1.results calls

end SketchAggregator

end Edge

end AsapCollector
