import AsapCollector.Precompute.SnapshotCache

/-! `window.go`. The eviction heap orders the entries of `series` by `(LastSeenMs, seriesKey)`, and every change of an
entry restores the heap; its root is found here by looking at the entries themselves. The hooks that call out to a
monitor, to the flush timer or to a pool of sketches are left out. -/

namespace AsapCollector.Precompute

structure Admission where
  cfg : PrecomputeConfig
  obs : Observation

/-- `seriesEntry`. `contents` only records what was admitted to the entry; no function reads it. -/
structure SeriesEntry (σ : Type) where
  sketch : σ
  seriesKey : Bytes
  resourceLabels : List KeyValue := []
  labels : List KeyValue := []
  lastSeenMs : Nat
  count : Nat := 0
  deltaWindowStartMs : Nat := 0
  deltaWindowEndMs : Nat := 0
  subWindowAcked : Bool := false
  ackVal : Float64 := ⟨0⟩
  contents : List Admission := []

/-- An order in which the series of a map are visited. -/
abbrev SeriesOrder (σ : Type) := RangeOrder (Bytes × SeriesEntry σ)

structure SlidingPane (σ : Type) where
  series : GoMap Bytes (SeriesEntry σ)
  startMs : Nat
  endMs : Nat

structure PrecomputeStats where
  inputObservations : Nat := 0
  inputEnvelopes : Nat := 0
  outputEnvelopes : Nat := 0
  activeSeries : Int := 0
  droppedOverflow : Nat := 0
  droppedLate : Nat := 0
  droppedSerialize : Nat := 0
  lastTickMs : Nat := 0
  lastEmittedEnvelopes : Nat := 0

inductive Event (σ : Type) where
  | closed (entry : SeriesEntry σ) (startMs endMs : Nat)
  | emitted (cfg : PrecomputeConfig) (entry : SeriesEntry σ) (env : SketchEnvelope)

/-- `windowState`, with the snapshot cache and the counters it shares with the runtime. `log` records
what became of the entries; no function reads it. -/
structure WindowState (σ : Type) where
  series : GoMap Bytes (SeriesEntry σ) := ∅
  activeStartMs : Nat := 0
  activeEndMs : Nat := 0
  initialized : Bool := false
  panes : List (SlidingPane σ) := []
  snapshotCache : SnapshotCache := {}
  stats : PrecomputeStats := {}
  log : List (Event σ) := []

inductive PrecomputeError where
  | closed
  | noConfig
  | seriesCapExceeded
  | lateData
  | futureData
  | sketchObserve (text : String)
  | aggIDMismatch
  | sketchTypeMismatch
  | frame (text : Bytes)
  | applyDelta (text : String)
  | mergeFullEnvelope (text : String)
  | unsupportedEncoding
deriving DecidableEq

namespace WindowState

variable {σ : Type} (F : SketchImpl σ)

variable (w : WindowState σ)

def hasAccumulatedState : Bool :=
  w.series.len ≠ 0 || w.panes.any fun pane => pane.series.len ≠ 0

def initWindow (refMs : Nat) (cfg : PrecomputeConfig) : WindowState σ :=
  if w.initialized then w
  else
    let size := cfg.rotationStepMs
    let start := if size = 0 then refMs else refMs / size * size
    { w with activeStartMs := start, activeEndMs := start + size, initialized := true }

def validateTimestamp (timestampMs : Nat) (cfg : PrecomputeConfig) : Option PrecomputeError :=
  if w.activeEndMs ≤ timestampMs then some .futureData
  else if timestampMs < w.activeStartMs ∧ cfg.latenessMs < w.activeStartMs - timestampMs then some .lateData
  else none

/-- `Less` of the eviction heap. -/
def evictedBefore (a b : SeriesEntry σ) : Bool :=
  if a.lastSeenMs = b.lastSeenMs then a.seriesKey < b.seriesKey else a.lastSeenMs < b.lastSeenMs

def oldest : Option (SeriesEntry σ) :=
  (w.series.pairs.map Prod.snd).foldl (fun acc e =>
    match acc with
    | none => some e
    | some o => if evictedBefore e o then some e else some o) none

def evictOldest : WindowState σ :=
  match w.oldest with
  | none => w
  | some e =>
    { w with
      series := w.series.erase e.seriesKey
      snapshotCache := w.snapshotCache.delete e.seriesKey
      stats.activeSeries := if e.seriesKey = [] then w.stats.activeSeries else w.stats.activeSeries - 1 }

/-- The check of the series cap: whether the window is full, and what the overflow policy then does. -/
def makeRoom (cfg : PrecomputeConfig) : Except PrecomputeError (WindowState σ) :=
  if cfg.maxSeries = 0 ∨ w.series.len < cfg.maxSeries.toNat then .ok w
  else
    match cfg.onOverflow with
    | .drop | .block => .error .seriesCapExceeded
    | .evictOldest => .ok w.evictOldest

def newSketch (cfg : PrecomputeConfig) : σ :=
  if Float64.lt ⟨0⟩ cfg.sampleP then F.setSampleP F.factory cfg.sampleP else F.factory

variable (key : Bytes) (obs : Observation) (cfg : PrecomputeConfig)

def newEntry : SeriesEntry σ :=
  { sketch := newSketch F cfg
    seriesKey := key
    resourceLabels := if cfg.isWholeStream || cfg.omitResourceAttrs then [] else obs.resourceLabels
    labels := if cfg.isWholeStream then [] else obs.labels
    lastSeenMs := obs.timestampMs }

def admitSeries :
    Except PrecomputeError (WindowState σ × SeriesEntry σ) := do
  let w ← if cfg.isWholeStream then pure w else w.makeRoom cfg
  let entry := newEntry F key obs cfg
  return ({ w with
    series := w.series.insert key entry
    stats.activeSeries := w.stats.activeSeries + 1 }, entry)

def recordedEntry (entry : SeriesEntry σ) (obs : Observation) (cfg : PrecomputeConfig) : SeriesEntry σ :=
  let (sketch, err) := F.observe entry.sketch obs.value
  let entry := { entry with sketch, lastSeenMs := max entry.lastSeenMs obs.timestampMs }
  match err with
  | some _ => entry
  | none => { entry with count := entry.count + 1, contents := entry.contents ++ [⟨cfg, obs⟩] }

def record (entry : SeriesEntry σ) (obs : Observation) (cfg : PrecomputeConfig) :
    WindowState σ × Option PrecomputeError :=
  ({ w with series := w.series.insert key (recordedEntry F entry obs cfg) },
    (F.observe entry.sketch obs.value).2.map .sketchObserve)

/-- The part of `observeWithKey` under the read lock: an initialized window that rejects the timestamp
or has the series already settles the call. -/
def observeExisting :
    Option (WindowState σ × Option PrecomputeError) :=
  if w.initialized then
    match w.validateTimestamp obs.timestampMs cfg with
    | some err => some (w, some err)
    | none => (w.series.lookup key).map fun entry => w.record F key entry obs cfg
  else none

def observeLocked : WindowState σ × Option PrecomputeError :=
  let w := w.initWindow obs.timestampMs cfg
  match w.validateTimestamp obs.timestampMs cfg with
  | some err => (w, some err)
  | none =>
    match w.series.lookup key with
    | some entry => w.record F key entry obs cfg
    | none =>
      match w.admitSeries F key obs cfg with
      | .error err => (w, some err)
      | .ok (w, entry) => w.record F key entry obs cfg

def observeWithKey : WindowState σ × Option PrecomputeError :=
  (w.observeExisting F key obs cfg).getD (w.observeLocked F key obs cfg)

variable (nowMs : Nat)

def advanceWindow (cfg : PrecomputeConfig) : WindowState σ :=
  let step := cfg.rotationStepMs
  if step = 0 then { w with activeStartMs := nowMs, activeEndMs := nowMs }
  else
    let bucketStart := nowMs / step * step
    let start := if bucketStart ≤ w.activeStartMs then w.activeEndMs else bucketStart
    { w with activeStartMs := start, activeEndMs := start + step }

structure Rotation (σ : Type) where
  entries : List (SeriesEntry σ) := []
  startMs : Nat := 0
  endMs : Nat := 0

/-- The `range` over the panes of `rotateSlidingLocked`, for one entry. -/
def mergeEntry (merged : GoMap Bytes (SeriesEntry σ)) (src : Bytes × SeriesEntry σ) : GoMap Bytes (SeriesEntry σ) :=
  let dst := (merged.lookup src.1).getD
    { sketch := F.factory, seriesKey := src.1, resourceLabels := src.2.resourceLabels
      labels := src.2.labels, lastSeenMs := src.2.lastSeenMs }
  merged.insert src.1 { dst with
    sketch := (F.merge dst.sketch src.2.sketch).1
    count := dst.count + src.2.count
    lastSeenMs := max dst.lastSeenMs src.2.lastSeenMs
    contents := dst.contents ++ src.2.contents }

def mergePanes (panes : List (SlidingPane σ)) (ω : SeriesOrder σ) :
    GoMap Bytes (SeriesEntry σ) :=
  panes.foldl (fun merged pane => (pane.series.range ω).foldl (mergeEntry F) merged) ∅

def rotateSliding (cfg : PrecomputeConfig) (ω : SeriesOrder σ) :
    WindowState σ × Rotation σ :=
  let panes := w.panes ++ [⟨w.series, w.activeStartMs, w.activeEndMs⟩]
  let panes := panes.drop (panes.length - cfg.panesPerWindow)
  let w := { w with series := ∅, panes }.advanceWindow nowMs cfg
  let merged := mergePanes F panes ω
  if merged.len = 0 then (w, {})
  else
    let startMs := (panes.head?.map SlidingPane.startMs).getD 0
    let endMs := (panes.getLast?.map SlidingPane.endMs).getD 0
    (w, ⟨(merged.range ω).map Prod.snd, startMs, endMs⟩)

/-- `rotateLocked`; `ω` is the order of its loops over the series. -/
def rotateLocked (cfg : PrecomputeConfig) (ω : SeriesOrder σ) : WindowState σ × Rotation σ :=
  if cfg.mode = .sliding then w.rotateSliding F nowMs cfg ω
  else if w.series.len = 0 then (w.advanceWindow nowMs cfg, {})
  else
    ({ w with series := ∅ }.advanceWindow nowMs cfg,
      ⟨(w.series.range ω).map Prod.snd, w.activeStartMs, w.activeEndMs⟩)

def rotate (cfg : PrecomputeConfig) (ω : SeriesOrder σ) : WindowState σ × Rotation σ :=
  if w.initialized = false then (w, {})
  else if 0 < cfg.rotationStepMs ∧ nowMs < w.activeEndMs then (w, {})
  else w.rotateLocked F nowMs cfg ω

def drain (ω : SeriesOrder σ) : WindowState σ × Rotation σ :=
  if w.initialized = false then (w, {})
  else if w.series.len = 0 ∧ (cfg.mode ≠ .sliding ∨ w.panes = []) then (w, {})
  else w.rotateLocked F w.activeEndMs cfg ω

end WindowState

end AsapCollector.Precompute
