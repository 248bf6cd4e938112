import AsapCollector.Precompute.Runtime

/-! `window.rs` and the scalar path of `precompute.rs` and `snapshot_cache.rs`. The settings are read from the same
`PrecomputeConfig`. A sketch is used through the same interface, where a method that returns a `Vec` never returns
`none`. -/

namespace AsapCollector.Precompute.Rust

/-- `SeriesEntry`. `contents` only records what was observed; no function reads it. -/
structure SeriesEntry (τ : Type) where
  sketch : τ
  resourceLabels : List KeyValue
  labels : List KeyValue
  lastSeenMs : Nat
  count : Nat := 0
  contents : List Observation := []

structure WindowState (τ : Type) where
  series : GoMap Bytes (SeriesEntry τ) := ∅
  activeStartMs : Nat := 0
  activeEndMs : Nat := 0
  initialized : Bool := false

/-- `PrecomputeImpl`, without its counters. `outbound` is the part of the snapshot cache that these calls
use; `emitted` only records which entry went into which envelope. -/
structure PrecomputeImpl (τ : Type) where
  cfg : Option PrecomputeConfig
  closed : Bool := false
  window : WindowState τ := {}
  outbound : GoMap Bytes Bytes := ∅
  emitted : List (SeriesEntry τ × SketchEnvelope) := []

abbrev SeriesOrder (τ : Type) := RangeOrder (Bytes × SeriesEntry τ)

def seriesKeyForEntry (cfg : PrecomputeConfig) (resourceLabels labels : List KeyValue) : Bytes :=
  if cfg.globalAggregation then seriesKey cfg.aggID [] [] []
  else if cfg.omitResourceAttrs then seriesKey cfg.aggID [] labels cfg.aggregateBy
  else seriesKey cfg.aggID resourceLabels labels cfg.aggregateBy

def seriesKeyFor (cfg : PrecomputeConfig) (obs : Observation) : Bytes :=
  seriesKeyForEntry cfg obs.resourceLabels obs.labels

section
variable {τ : Type} (R : SketchImpl τ)

namespace WindowState

variable (w : WindowState τ)

def initWindow (refMs : Nat) (cfg : PrecomputeConfig) : WindowState τ :=
  if w.initialized then w
  else
    let size := cfg.windowSizeMs
    let start := if size = 0 then refMs else refMs / size * size
    { w with activeStartMs := start, activeEndMs := start + size, initialized := true }

/-- The series that `EvictOldest` removes: the first visited among those seen least recently. -/
def oldest (ρ : SeriesOrder τ) : Option Bytes :=
  ((w.series.range ρ).foldl (fun best e =>
    if e.2.lastSeenMs < (best.map Prod.snd).getD (2 ^ 64 - 1) then some (e.1, e.2.lastSeenMs) else best) none).map
    Prod.fst

def makeRoom (cfg : PrecomputeConfig) (ρ : SeriesOrder τ) : Except PrecomputeError (WindowState τ) :=
  if 0 < cfg.maxSeries ∧ cfg.maxSeries.toNat ≤ w.series.len then
    match cfg.onOverflow with
    | .drop | .block => .error .seriesCapExceeded
    | .evictOldest => .ok (((w.oldest ρ).map fun k => { w with series := w.series.erase k }).getD w)
  else .ok w

def newEntry (obs : Observation) (cfg : PrecomputeConfig) : SeriesEntry τ :=
  { sketch := R.factory
    resourceLabels := if cfg.globalAggregation || cfg.omitResourceAttrs then [] else obs.resourceLabels
    labels := if cfg.globalAggregation then [] else obs.labels
    lastSeenMs := obs.timestampMs }

/-- The entry that an observation goes to: a new one, or the one that exists, seen now. -/
def entryFor (key : Bytes) (obs : Observation) (cfg : PrecomputeConfig) (ρ : SeriesOrder τ) :
    Except PrecomputeError (WindowState τ × SeriesEntry τ) := do
  match w.series.lookup key with
  | some entry => return (w, { entry with lastSeenMs := max entry.lastSeenMs obs.timestampMs })
  | none => return (← w.makeRoom cfg ρ, newEntry R obs cfg)

def observed (entry : SeriesEntry τ) (obs : Observation) : SeriesEntry τ :=
  let (sketch, err) := R.observe entry.sketch obs.value
  match err with
  | some _ => { entry with sketch }
  | none => { entry with sketch, count := entry.count + 1, contents := entry.contents ++ [obs] }

def observe (obs : Observation) (cfg : PrecomputeConfig) (ρ : SeriesOrder τ) : WindowState τ × Option PrecomputeError :=
  let w := w.initWindow obs.timestampMs cfg
  if 0 < cfg.window.allowedLateness ∧ obs.timestampMs + cfg.latenessMs < w.activeStartMs then (w, some .lateData)
  else
    match w.entryFor R (seriesKeyFor cfg obs) obs cfg ρ with
    | .error e => (w, some e)
    | .ok (w, entry) =>
      ({ w with series := w.series.insert (seriesKeyFor cfg obs) (observed R entry obs) },
        (R.observe entry.sketch obs.value).2.map .sketchObserve)

def advanceWindow (nowMs : Nat) (cfg : PrecomputeConfig) : WindowState τ :=
  let size := cfg.windowSizeMs
  if size = 0 then { w with activeStartMs := nowMs, activeEndMs := nowMs }
  else
    let bucketStart := nowMs / size * size
    let start := if bucketStart ≤ w.activeStartMs then w.activeEndMs else bucketStart
    { w with activeStartMs := start, activeEndMs := start + size }

abbrev Closed (τ : Type) := List (SeriesEntry τ) × Nat × Nat

def rotateLocked (nowMs : Nat) (cfg : PrecomputeConfig) (ρ : SeriesOrder τ) : WindowState τ × Closed τ :=
  if w.series.len = 0 then (w.advanceWindow nowMs cfg, [], 0, 0)
  else
    ({ w with series := ∅ }.advanceWindow nowMs cfg,
      (w.series.range ρ).map Prod.snd, w.activeStartMs, w.activeEndMs)

def rotate (nowMs : Nat) (cfg : PrecomputeConfig) (ρ : SeriesOrder τ) : WindowState τ × Closed τ :=
  if w.initialized = false then (w, [], 0, 0)
  else if 0 < cfg.windowSizeMs ∧ nowMs < w.activeEndMs then (w, [], 0, 0)
  else w.rotateLocked nowMs cfg ρ

def drain (cfg : PrecomputeConfig) (ρ : SeriesOrder τ) : WindowState τ × Closed τ :=
  if w.initialized = false then (w, [], 0, 0)
  else if w.series.len = 0 then (w, [], 0, 0)
  else w.rotateLocked w.activeEndMs cfg ρ

end WindowState

variable (outbound : GoMap Bytes Bytes) (p : PrecomputeImpl τ)

/-- The payload of `SnapshotCache::compute_delta`, whole if the cache has no base. -/
def deltaPayload (key : Bytes) (current : τ) (threshold : UInt64) : Except String (Option Bytes × Bool) :=
  match outbound.lookup key with
  | none => (R.snapshot current).map fun full => (full, true)
  | some prev => (R.computeDeltaAgainst current prev threshold).2

def nextBase (current : τ) (payload : Option Bytes) (isFull : Bool) : Except String Bytes := do
  match ← R.deltaAgainstEmptyBase current with
  | some emptyBase => return emptyBase
  | none => return (← if isFull then pure payload else R.snapshot current).getD []

def computeDelta (key : Bytes) (current : τ) (threshold : UInt64) : Except String (GoMap Bytes Bytes × Bytes × Bool) :=
  do
  let (payload, isFull) ← deltaPayload R outbound key current threshold
  let base ← nextBase R current payload isFull
  return (outbound.insert key base, payload.getD [], isFull)

variable (entry : SeriesEntry τ) (cfg : PrecomputeConfig)

def seriesPayload : Except String (GoMap Bytes Bytes × Bytes × Bool) :=
  let key := seriesKeyForEntry cfg entry.resourceLabels entry.labels
  if cfg.deltaTransmission then computeDelta R outbound key entry.sketch cfg.deltaThreshold
  else (R.snapshot entry.sketch).map fun snap => (outbound.insert key (snap.getD []), snap.getD [], true)

def envelopeLabels : List KeyValue :=
  seriesAttrs entry.labels cfg.aggregateBy ++
    if cfg.emitWindowStats then
      [⟨str "sample_count", Bytes.formatUint (UInt64.ofNat entry.count)⟩,
        ⟨str "window_duration_seconds", Bytes.formatUint (UInt64.ofNat (durationIn second cfg.window.size))⟩]
    else []

def envelopeOf (startMs endMs : Nat) (payload : Bytes) (isFull : Bool) :
    SketchEnvelope :=
  { schemaVersion := 1
    sketchType := cfg.sketchType
    aggID := cfg.aggID
    resourceLabels := entry.resourceLabels
    labels := envelopeLabels entry cfg
    windowStartMs := startMs
    windowEndMs := endMs
    encoding := if isFull then .protoFull else .protoDelta
    payload := payload
    metricName := cfg.metricName
    count := entry.count
    aggregationTemporality := cfg.temporality }

def finishEntry (startMs endMs : Nat)
    (acc : PrecomputeImpl τ × List SketchEnvelope) (entry : SeriesEntry τ) :
    PrecomputeImpl τ × List SketchEnvelope :=
  match seriesPayload R acc.1.outbound entry cfg with
  | .error _ => acc
  | .ok (outbound, payload, isFull) =>
    if payload = [] then ({ acc.1 with outbound }, acc.2)
    else
      let env := envelopeOf entry cfg startMs endMs payload isFull
      ({ acc.1 with outbound, emitted := acc.1.emitted ++ [(entry, env)] }, acc.2 ++ [env])

def finishRotate (closed : WindowState.Closed τ) : PrecomputeImpl τ × List SketchEnvelope :=
  match p.cfg with
  | none => (p, [])
  | some cfg => closed.1.foldl (finishEntry R cfg closed.2.1 closed.2.2) (p, [])

def observe (obs : Observation) (ρ : SeriesOrder τ) : PrecomputeImpl τ × Option PrecomputeError :=
  if p.closed then (p, some .closed)
  else
    match p.cfg with
    | none => (p, some .noConfig)
    | some cfg =>
      if cfg.admits obs = false then (p, none)
      else
        let (w, err) := p.window.observe R obs cfg ρ
        ({ p with window := w }, err)

def tick (nowMs : Nat) (ρ : SeriesOrder τ) : PrecomputeImpl τ × List SketchEnvelope :=
  match p.cfg with
  | none => (p, [])
  | some cfg =>
    let (w, closed) := p.window.rotate nowMs cfg ρ
    finishRotate R { p with window := w } closed

def drain (ρ : SeriesOrder τ) : PrecomputeImpl τ × List SketchEnvelope :=
  match p.cfg with
  | none => (p, [])
  | some cfg =>
    let (w, closed) := p.window.drain cfg ρ
    finishRotate R { p with window := w } closed

end

end AsapCollector.Precompute.Rust
