import AsapCollector.Frame.Receiver
import AsapCollector.Precompute.Window

/-! `precompute.go`. Every method runs here as one step; what an early close emits waits in `pendingOutput` for the next
`Tick` or `Drain`. -/

namespace AsapCollector

open Precompute in
structure Precompute (σ : Type) where
  cfg : Option PrecomputeConfig
  pendingCfg : Option PrecomputeConfig := none
  window : WindowState σ := {}
  isClosed : Bool := false
  frameReceiver : FrameReceiver := {}
  pendingOutput : List SketchEnvelope := []

namespace Precompute

structure RangeOrders (σ : Type) where
  series : SeriesOrder σ
  lineages : RangeOrder (FrameLineageKey × ReceivedFrameState)

def RangeOrders.stored (σ : Type) : RangeOrders σ := ⟨.stored _, .stored _⟩

/-! ### Serializing one series -/

section
variable {σ : Type} (F : SketchImpl σ)

def applyGosMode (sketch : σ) (cfg : PrecomputeConfig) : σ :=
  if cfg.gosDeltaEpsilon.le ⟨0⟩ then sketch
  else F.setGosMode sketch cfg.gosDeltaEpsilon (if cfg.sketchType = .kllSketch then none else some cfg.gosSites)

variable (entry : SeriesEntry σ) (cfg : PrecomputeConfig) (cache : SnapshotCache) (w : WindowState σ) (p : Precompute σ)

def envelopeLabels (cfg : PrecomputeConfig) : List KeyValue :=
  seriesAttrs entry.labels cfg.aggregateBy ++
    if cfg.emitWindowStats then
      [⟨str "sample_count", Bytes.formatUint (UInt64.ofNat entry.count)⟩,
        ⟨str "window_duration_seconds", Bytes.formatUint (UInt64.ofNat (durationIn second cfg.window.size))⟩]
    else []

/-- The envelope of an entry, before the parts in which a boundary and a sub-window differ. -/
def envelopeOf (cfg : PrecomputeConfig) (encoding : Encoding) (payload : Bytes) : SketchEnvelope :=
  { schemaVersion := 1
    sketchType := cfg.sketchType
    aggKind := cfg.aggKind
    aggID := cfg.aggID
    resourceLabels := entry.resourceLabels
    labels := envelopeLabels entry cfg
    encoding := encoding
    payload := payload
    metricName := cfg.metricName
    count := entry.count
    aggregationTemporality := cfg.temporality }

def boundaryEncoding (isFull : Bool) : Encoding :=
  if cfg.encoding = .msgpack then if isFull then .msgpack else .msgpackDelta
  else if isFull then .protoFull else .protoDelta

/-- The payload part of `serializeSeries`: the cache after it, and the payload with its flag. -/
def boundaryPayload (key : Bytes) (entry : SeriesEntry σ) (cfg : PrecomputeConfig) :
    SnapshotCache × Except String (Option Bytes × Bool) :=
  if cfg.deltaTransmission then
    cache.computeDelta F key (applyGosMode F entry.sketch cfg) cfg.deltaThreshold
  else
    match F.snapshot entry.sketch with
    | .error e => (cache, .error e)
    | .ok payload => (cache.cacheOutbound key payload, .ok (payload, true))

def SeriesEntry.cacheKey (cfg : PrecomputeConfig) : Bytes :=
  if entry.seriesKey = [] then cfg.seriesKeyForEntry entry.resourceLabels entry.labels else entry.seriesKey

/-- `serializeSeries`; an error and a nil payload both end without an envelope. -/
def serializeSeries (entry : SeriesEntry σ) (cfg : PrecomputeConfig) (startMs endMs : Nat) :
    SnapshotCache × Option SketchEnvelope :=
  match boundaryPayload F cache (entry.cacheKey cfg) entry cfg with
  | (cache, .ok (some payload, isFull)) =>
    (cache, some { envelopeOf entry cfg (boundaryEncoding cfg isFull) payload with
      windowStartMs := startMs
      windowEndMs := endMs
      relativeAccuracy := F.relativeAccuracy entry.sketch })
  | (cache, _) => (cache, none)

/-! ### Sub-window emission -/

def subWindowSegmentMode : Bool := cfg.sketchType = .kllSketch

def subWindowDivergence (cfg : PrecomputeConfig) : Float64 × Float64 :=
  let byCount := ((Float64.ofInt entry.count).sub entry.ackVal, Float64.ofInt entry.count)
  if cfg.aggKind = .sum then
    ((F.sum entry.sketch).map fun cur => ((cur.sub entry.ackVal).abs, cur.abs)).getD byCount
  else if cfg.sketchType = .hllSketch then
    ((F.estimateCardinality entry.sketch).map fun cur => ((cur.sub entry.ackVal).abs, cur)).getD byCount
  else if cfg.sketchType = .countSketch then (F.l2DivergenceSinceEmit entry.sketch).getD byCount
  else byCount

/-- The families for which a GOS emission is decided by the sketch and not by the divergence. -/
def gosDecides : Bool :=
  Float64.lt ⟨0⟩ cfg.gosDeltaEpsilon && (cfg.aggKind = .sum || cfg.sketchType ≠ .unspecified)

def subWindowShouldEmit (cfg : PrecomputeConfig) : Bool :=
  gosDecides cfg || cfg.subWindowEpsilon.le ⟨0⟩ || !entry.subWindowAcked ||
    let (div, norm) := subWindowDivergence F entry cfg
    norm.le ⟨0⟩ || (cfg.subWindowEpsilon.mul norm).le div

def subWindowMarkEmitted (cfg : PrecomputeConfig) : SeriesEntry σ :=
  let entry := { entry with subWindowAcked := true }
  let gos := Float64.lt ⟨0⟩ cfg.gosDeltaEpsilon
  if cfg.aggKind = .sum then
    if gos then entry else { entry with ackVal := (F.sum entry.sketch).getD entry.ackVal }
  else if cfg.sketchType = .hllSketch then
    if gos then entry else { entry with ackVal := (F.estimateCardinality entry.sketch).getD entry.ackVal }
  else if cfg.sketchType = .countSketch then
    if gos then entry else { entry with sketch := F.markSubWindowEmitted entry.sketch }
  else if cfg.sketchType = .countMinSketch ∨ cfg.sketchType = .kllSketch then
    if gos then entry else { entry with ackVal := Float64.ofInt entry.count }
  else { entry with ackVal := Float64.ofInt entry.count }

/-- `serializeSubWindowSeries`: the entry comes back with the sketch as the delta left it. -/
def serializeSubWindowSeries (entry : SeriesEntry σ) (cfg : PrecomputeConfig) :
    SnapshotCache × SeriesEntry σ × Option SketchEnvelope :=
  let key := cfg.seriesKeyForEntry entry.resourceLabels entry.labels
  match cache.computeSubWindowDelta F key (applyGosMode F entry.sketch cfg) cfg.deltaThreshold with
  | (cache, sketch, .ok (some payload, isFull)) =>
    (cache, { entry with sketch }, some (envelopeOf entry cfg (if isFull then .protoFull else .protoDelta) payload))
  | (cache, sketch, _) => (cache, { entry with sketch }, none)

def visitSubWindow (cache : SnapshotCache) (entry : SeriesEntry σ) :
    SnapshotCache × SeriesEntry σ × Option SketchEnvelope :=
  if subWindowShouldEmit F entry cfg then
    match serializeSubWindowSeries F cache entry cfg with
    | (cache, entry, none) => (cache, entry, none)
    | (cache, entry, some env) =>
      let entry := subWindowMarkEmitted F entry cfg
      (cache, if subWindowSegmentMode cfg then { entry with sketch := F.reset entry.sketch } else entry, some env)
  else (cache, entry, none)

/-! ### Closing windows -/

/-- One turn of the loop of `finishRotate`; `generation` is that of a delta run. -/
def finishEntry (startMs endMs : Nat) (generation : Option UInt64) (acc : WindowState σ × List SketchEnvelope)
    (entry : SeriesEntry σ) : WindowState σ × List SketchEnvelope :=
  let (w, envelopes) := acc
  let cache := (generation.map (w.snapshotCache.touch entry.seriesKey)).getD w.snapshotCache
  match serializeSeries F cache entry cfg startMs endMs with
  | (cache, some env) =>
    ({ w with
      snapshotCache := cache
      log := w.log ++ [.closed entry startMs endMs, .emitted cfg entry env] }, envelopes ++ [env])
  | (cache, none) =>
    ({ w with
      snapshotCache := cache
      stats.droppedSerialize := w.stats.droppedSerialize + 1
      log := w.log ++ [.closed entry startMs endMs] }, envelopes)

def countOutput (emitted nowMs : Nat) : WindowState σ :=
  { w with
    stats.outputEnvelopes := w.stats.outputEnvelopes + emitted
    stats.lastEmittedEnvelopes := emitted
    stats.lastTickMs := nowMs }

/-- The generation that a delta run of `finishRotate` begins; zero stands for none. -/
def beginRotation (cfg : PrecomputeConfig) : SnapshotCache × Option UInt64 :=
  if cfg.deltaTransmission then
    let cache := cache.beginGeneration
    (cache, if cache.generation = 0 then none else some cache.generation)
  else (cache, none)

def finishRotate (r : WindowState.Rotation σ) (cfg : PrecomputeConfig) (nowMs : Nat) :
    WindowState σ × List SketchEnvelope :=
  if r.entries.isEmpty then (w, [])
  else
    let (cache, generation) := beginRotation w.snapshotCache cfg
    let (w, envelopes) := r.entries.foldl (finishEntry F cfg r.startMs r.endMs generation)
      ({ w with snapshotCache := cache }, [])
    let cache := (generation.map w.snapshotCache.endGeneration).getD w.snapshotCache
    (countOutput { w with snapshotCache := cache } envelopes.length nowMs, envelopes)

def activatePendingConfig : Precompute σ :=
  match p.pendingCfg with
  | none => p
  | some pending =>
    { p with cfg := some pending, pendingCfg := none, window.snapshotCache := p.window.snapshotCache.reset }

/-- What `Tick` and `rotateForFuture` do under the lock. -/
def rotateAndFinish (cfg : PrecomputeConfig) (nowMs : Nat) (ω : RangeOrders σ) : Precompute σ × List SketchEnvelope :=
  let (w, r) := p.window.rotate F nowMs cfg ω.series
  let (w, envelopes) := finishRotate F w r cfg nowMs
  let p := { p with window := w }
  (if r.startMs = 0 ∧ r.endMs = 0 then p else activatePendingConfig p, envelopes)

def takePendingOutput (current : List SketchEnvelope) : Precompute σ × List SketchEnvelope :=
  ({ p with pendingOutput := [] }, p.pendingOutput ++ current)

def tick (nowMs : Nat) (ω : RangeOrders σ) : Precompute σ × List SketchEnvelope :=
  match p.cfg with
  | none => (p, [])
  | some cfg =>
    let (p, envelopes) := rotateAndFinish F p cfg nowMs ω
    takePendingOutput p envelopes

def drain (ω : RangeOrders σ) : Precompute σ × List SketchEnvelope :=
  match p.cfg with
  | none => (p, [])
  | some cfg =>
    let (w, r) := p.window.drain F cfg ω.series
    let (w, envelopes) := finishRotate F w r cfg r.endMs
    takePendingOutput (activatePendingConfig { p with window := w }) envelopes

def rotateForFuture (timestampMs : Nat) (ω : RangeOrders σ) : Precompute σ :=
  match p.cfg with
  | none => p
  | some cfg =>
    let (p, envelopes) := rotateAndFinish F p cfg timestampMs ω
    { p with pendingOutput := p.pendingOutput ++ envelopes }

def visitEntry (acc : WindowState σ × List (SeriesEntry σ × SketchEnvelope)) (src : Bytes × SeriesEntry σ) :
    WindowState σ × List (SeriesEntry σ × SketchEnvelope) :=
  let (w, emitted) := acc
  let (cache, entry, env) := visitSubWindow F cfg w.snapshotCache src.2
  ({ w with series := w.series.insert src.1 entry, snapshotCache := cache },
    emitted ++ (env.map fun env => (src.2, env)).toList)

def emitSubWindow (nowMs : Nat) (ω : RangeOrders σ) : Precompute σ × List SketchEnvelope :=
  match p.cfg with
  | none => (p, [])
  | some cfg =>
    if cfg.deltaTransmission = false ∨ p.window.initialized = false ∨ cfg.mode = .sliding then (p, [])
    else
      let (w, emitted) := (p.window.series.range ω.series).foldl (visitEntry F cfg) (p.window, [])
      let (startMs, endMs) := (w.activeStartMs, w.activeEndMs)
      if (startMs = 0 ∧ endMs = 0) ∨ emitted = [] then ({ p with window := w }, [])
      else
        let emitted := emitted.map fun e => (e.1, { e.2 with windowStartMs := startMs, windowEndMs := endMs })
        let w := { w with log := w.log ++ emitted.map fun e => .emitted cfg e.1 e.2 }
        ({ p with window := countOutput w emitted.length nowMs }, emitted.map Prod.snd)

def resetDeltaBase : Precompute σ :=
  { p with window.snapshotCache := p.window.snapshotCache.reset }

/-! ### Inbound envelopes -/

/-- The series cap as `observeEnvelope` checks it, and the entry of a new series. -/
def admitEnvelope (key : Bytes) (env : SketchEnvelope) (cfg : PrecomputeConfig) (refMs : Nat) :
    Except PrecomputeError (WindowState σ × SeriesEntry σ) := do
  match w.series.lookup key with
  | some entry => return (w, entry)
  | none =>
    let w ← w.makeRoom cfg
    let entry : SeriesEntry σ := { sketch := F.factory, seriesKey := key, labels := env.labels, lastSeenMs := refMs }
    return ({ w with
      series := w.series.insert key entry
      stats.activeSeries := w.stats.activeSeries + 1 }, entry)

variable (env : SketchEnvelope)

/-- The delta case of `observeEnvelope`: the entry, and what is cached for the series. -/
def applyEnvelopeDelta : SeriesEntry σ × Except PrecomputeError (Option (Option Bytes)) :=
  let sketch :=
    if entry.deltaWindowEndMs ≠ 0 ∧
        (entry.deltaWindowStartMs ≠ env.windowStartMs ∨ entry.deltaWindowEndMs ≠ env.windowEndMs) then
      F.reset entry.sketch
    else entry.sketch
  match F.applyDelta sketch env.payload with
  | (sketch, some e) => ({ entry with sketch }, .error (.applyDelta e))
  | (sketch, none) =>
    ({ entry with
      sketch
      deltaWindowStartMs := env.windowStartMs
      deltaWindowEndMs := env.windowEndMs }, .ok (F.snapshot sketch).toOption)

def mergeEnvelope : SeriesEntry σ × Except PrecomputeError (Option (Option Bytes)) :=
  match F.applyDelta F.factory env.payload with
  | (_, some e) => (entry, .error (.mergeFullEnvelope e))
  | (other, none) =>
    match F.merge entry.sketch other with
    | (sketch, some e) => ({ entry with sketch }, .error (.mergeFullEnvelope e))
    | (sketch, none) => ({ entry with sketch }, .ok (some (some env.payload)))

def observeEnvelopeWindow (cfg : PrecomputeConfig) : WindowState σ × Option PrecomputeError :=
  let refMs := if env.windowEndMs = 0 then env.windowStartMs else env.windowEndMs
  let w := w.initWindow refMs cfg
  let key := cfg.seriesKeyForEntry [] env.labels
  match admitEnvelope F w key env cfg refMs with
  | .error e => (w, some e)
  | .ok (w, entry) =>
    let (entry, result) :=
      match env.encoding with
      | .protoDelta | .msgpackDelta => applyEnvelopeDelta F entry env
      | .protoFull | .msgpack | .unspecified => mergeEnvelope F entry env
    match result with
    | .error e => ({ w with series := w.series.insert key entry }, some e)
    | .ok cached =>
      let entry := { entry with count := entry.count + env.count, lastSeenMs := max entry.lastSeenMs refMs }
      ({ w with
        series := w.series.insert key entry
        snapshotCache := (cached.map (w.snapshotCache.cacheInbound key)).getD w.snapshotCache }, none)

def checkEnvelope : Option PrecomputeError :=
  if cfg.aggID ≠ 0 ∧ env.aggID ≠ 0 ∧ env.aggID ≠ cfg.aggID then some .aggIDMismatch
  else if cfg.sketchType ≠ .unspecified ∧ env.sketchType ≠ .unspecified ∧ env.sketchType ≠ cfg.sketchType then
    some .sketchTypeMismatch
  else none

def countDrop : Option PrecomputeError → Precompute σ
  | some .seriesCapExceeded => { p with window.stats.droppedOverflow := p.window.stats.droppedOverflow + 1 }
  | some .lateData => { p with window.stats.droppedLate := p.window.stats.droppedLate + 1 }
  | _ => p

def observeEnvelope (ω : RangeOrders σ) : Precompute σ × Option PrecomputeError :=
  if p.isClosed then (p, some .closed)
  else
    match p.cfg with
    | none => (p, some .noConfig)
    | some cfg =>
      match checkEnvelope cfg env with
      | some e => (p, some e)
      | none =>
        match p.frameReceiver.prepare ⟨env.frameAttributes, env.payload⟩ cfg.maxSeries with
        | (receiver, .error e) => ({ p with frameReceiver := receiver }, some (.frame e.message))
        | (receiver, .ok .duplicate) => ({ p with frameReceiver := receiver }, none)
        | (receiver, .ok receipt) =>
          let p := { p with
            frameReceiver := receiver
            window.stats.inputEnvelopes := p.window.stats.inputEnvelopes + 1 }
          match observeEnvelopeWindow F p.window env cfg with
          | (w, some e) => (countDrop { p with window := w } (some e), some e)
          | (w, none) => ({ p with window := w, frameReceiver := receiver.commit ω.lineages receipt }, none)

/-! ### Observations -/

variable (key : Option Bytes) (obs : Observation)

/-- `observeOnce`; `key` is what the caller of `ObserveKeyed` has already built. -/
def observeOnce : Precompute σ × Option PrecomputeError :=
  match p.cfg with
  | none => (p, some .noConfig)
  | some cfg =>
    if cfg.admits obs = false then (p, none)
    else
      let (w, err) := p.window.observeWithKey F (key.getD (cfg.seriesKeyFor obs)) obs cfg
      ({ p with window := w }, err)

variable (ω : RangeOrders σ)

/-- What `Observe` and `ObserveKeyed` do with a scalar: a sample beyond the window closes it and is
tried again. -/
def observeScalar : Precompute σ × Option PrecomputeError :=
  match observeOnce F p key obs with
  | (p, some .futureData) =>
    let (p, err) := observeOnce F (rotateForFuture F p obs.timestampMs ω) none obs
    (countDrop p err, err)
  | (p, err) => (countDrop p err, err)

def observeWith : Precompute σ × Option PrecomputeError :=
  if p.isClosed then (p, some .closed)
  else
    let p := { p with window.stats.inputObservations := p.window.stats.inputObservations + 1 }
    match obs.carried with
    | some env => observeEnvelope F p env ω
    | none => observeScalar F p key obs ω

def observe : Precompute σ × Option PrecomputeError :=
  observeWith F p none obs ω

/-- `ObserveKeyed`: an empty key is built from the observation. -/
def observeKeyed (key : Bytes) (obs : Observation) (ω : RangeOrders σ) : Precompute σ × Option PrecomputeError :=
  observeWith F p (if key = [] then none else some key) obs ω

/-! ### Configuration -/

def new (initialCfg : Option PrecomputeConfig) : Precompute σ :=
  { cfg := initialCfg.filter PrecomputeConfig.validMatchers }

def chooseConfig (active : Option PrecomputeConfig) (cs : PrecomputeConfigSet) : Option PrecomputeConfig :=
  (active.bind fun a => cs.configs.find? fun c => c.aggID = a.aggID).or cs.configs.head?

def updateConfig (cs : PrecomputeConfigSet) : Precompute σ :=
  match chooseConfig p.cfg cs with
  | none => p
  | some chosen =>
    if chosen.validMatchers = false then p
    else if p.cfg.isSome ∧ p.window.hasAccumulatedState then { p with pendingCfg := some chosen }
    else { p with cfg := some chosen, pendingCfg := none }

end

end Precompute

end AsapCollector
