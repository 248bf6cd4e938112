import AsapCollector.Lib.Run
import AsapCollector.Precompute.History

/-! What the runtime does to a single series, as a machine of its own: the entry in the active window, the payload its
next delta is computed against, and what has happened to it so far. -/

namespace AsapCollector.Precompute

def Event.key {σ : Type} : Event σ → Bytes
  | .closed entry _ _ => entry.seriesKey
  | .emitted _ entry _ => entry.seriesKey

def Event.envelope? {σ : Type} : Event σ → Option SketchEnvelope
  | .closed _ _ _ => none
  | .emitted _ _ env => some env

section
variable {σ : Type} (F : SketchImpl σ)

def payloadAgainst (base : Option Bytes) (current : σ) (threshold : UInt64) : σ × Except String (Option Bytes × Bool) :=
  match base with
  | none => (current, (F.snapshot current).map fun full => (full, true))
  | some prev => F.computeDeltaAgainst current prev threshold

def nextBase (current : σ) (payload : Option Bytes) (isFull : Bool) : Except String Bytes := do
  match ← F.deltaAgainstEmptyBase current with
  | some (b :: bs) => return b :: bs
  | _ =>
    let full ← if isFull then pure payload else F.snapshot current
    return full.getD []

variable (cfg : PrecomputeConfig) (h : History σ)

/-- What closing a window makes of a series: the next base, and the payload of its envelope with its
flag, if there is one. -/
def boundaryDelta (base : Option Bytes) (sketch : σ) : Option Bytes × Option (Bytes × Bool) :=
  if cfg.deltaTransmission then
    match payloadAgainst F base (applyGosMode F sketch cfg) cfg.deltaThreshold with
    | (_, .error _) => (base, none)
    | (current, .ok (payload, isFull)) =>
      match nextBase F current payload isFull with
      | .error _ => (base, none)
      | .ok b => (some b, payload.map fun payload => (payload, isFull))
  else
    match F.snapshot sketch with
    | .error _ => (base, none)
    | .ok payload => (some (payload.getD []), payload.map fun payload => (payload, true))

def subWindowDelta (base : Option Bytes) (sketch : σ) : Option Bytes × σ × Option (Bytes × Bool) :=
  match payloadAgainst F base (applyGosMode F sketch cfg) cfg.deltaThreshold with
  | (current, .error _) => (base, current, none)
  | (current, .ok (payload, true)) => (some (payload.getD []), current, payload.map fun payload => (payload, true))
  | (current, .ok (payload, false)) =>
    match F.snapshot current with
    | .error _ => (base, current, none)
    | .ok full => (some (full.getD []), current, payload.map fun payload => (payload, false))

def afterEmit (entry : SeriesEntry σ) : SeriesEntry σ :=
  let entry := subWindowMarkEmitted F entry cfg
  if subWindowSegmentMode cfg then { entry with sketch := F.reset entry.sketch } else entry

structure Lane (σ : Type) where
  live : Option (SeriesEntry σ) := none
  base : Option Bytes := none
  startMs : Nat := 0
  log : List (Event σ) := []
  accepted : List Acceptance := []

def boundaryEnvelope (entry : SeriesEntry σ) (startMs endMs : Nat) (payload : Bytes × Bool) : SketchEnvelope :=
  { envelopeOf entry cfg (boundaryEncoding cfg payload.2) payload.1 with
    windowStartMs := startMs
    windowEndMs := endMs
    relativeAccuracy := F.relativeAccuracy entry.sketch }

def subWindowEnvelope (entry : SeriesEntry σ) (startMs endMs : Nat) (payload : Bytes × Bool) : SketchEnvelope :=
  { envelopeOf entry cfg (if payload.2 then .protoFull else .protoDelta) payload.1 with
    windowStartMs := startMs
    windowEndMs := endMs }

/-- What is asked of a series, by its base and its entry, where it is about to emit or to be closed. -/
structure Guard (σ : Type) where
  emit : Option Bytes → SeriesEntry σ → Prop
  close : Option Bytes → SeriesEntry σ → Prop

def Guard.free : Guard σ := ⟨fun _ _ => True, fun _ _ => True⟩

namespace Lane

variable (cfg : PrecomputeConfig)

def entryFor (key : Bytes) (obs : Observation) (l : Lane σ) : SeriesEntry σ :=
  l.live.getD (WindowState.newEntry F key obs cfg)

def record (key : Bytes) (obs : Observation) (l : Lane σ) : Lane σ :=
  { l with live := some (WindowState.recordedEntry F (l.entryFor F cfg key obs) obs cfg) }

variable (entry : SeriesEntry σ)

def emit (l : Lane σ) : Lane σ :=
  match subWindowDelta F cfg l.base entry.sketch with
  | (base, sketch, none) => { l with live := some { entry with sketch }, base }
  | (base, sketch, some payload) =>
    { l with
      live := some (afterEmit F cfg { entry with sketch })
      base
      log := l.log ++ [.emitted cfg entry
        (subWindowEnvelope cfg entry l.startMs (l.startMs + cfg.windowSizeMs) payload)] }

def boundaryEvents (startMs endMs : Nat) (payload : Option (Bytes × Bool)) : List (Event σ) :=
  .closed entry startMs endMs ::
    (payload.map fun payload => .emitted cfg entry (boundaryEnvelope F cfg entry startMs endMs payload)).toList

def close (nextStartMs : Nat) (l : Lane σ) : Lane σ :=
  let (base, payload) := boundaryDelta F cfg l.base entry.sketch
  { l with
    live := none
    base
    startMs := nextStartMs
    log := l.log ++ boundaryEvents F cfg entry l.startMs (l.startMs + cfg.windowSizeMs) payload }

/-- The steps of a series under one configuration, as far as the guard lets it. -/
inductive Step (cfg : PrecomputeConfig) (G : Guard σ) (key : Bytes) : Lane σ → Lane σ → Prop
  /-- An observation of the series within the window and the allowed lateness is counted. -/
  | accept (l : Lane σ) (obs : Observation) (hkey : cfg.seriesKeyFor obs = key) (hadmits : cfg.admits obs = true)
      (hlate : l.startMs ≤ obs.timestampMs + cfg.latenessMs) (hend : obs.timestampMs < l.startMs + cfg.windowSizeMs)
      (hok : (F.observe (l.entryFor F cfg key obs).sketch obs.value).2 = none) :
      Step cfg G key l { l.record F cfg key obs with accepted := l.accepted ++ [⟨key, l.startMs, obs⟩] }
  /-- The sketch refuses the value; a new series stays in the window all the same. -/
  | refuse (l : Lane σ) (obs : Observation) (hkey : cfg.seriesKeyFor obs = key) (text : String)
      (herr : (F.observe (l.entryFor F cfg key obs).sketch obs.value).2 = some text) :
      Step cfg G key l (l.record F cfg key obs)
  | emit (l : Lane σ) (entry : SeriesEntry σ) (hlive : l.live = some entry) (hdelta : cfg.deltaTransmission = true)
      (hshould : subWindowShouldEmit F entry cfg = true) (hguard : G.emit l.base entry) :
      Step cfg G key l (l.emit F cfg entry)
  | close (l : Lane σ) (entry : SeriesEntry σ) (next : Nat) (hlive : l.live = some entry) (hnext : l.startMs < next)
      (hguard : G.close l.base entry) : Step cfg G key l (l.close F cfg entry next)
  /-- The window moves on without the series. -/
  | pass (l : Lane σ) (next : Nat) (hlive : l.live = none) (hnext : l.startMs ≤ next) :
      Step cfg G key l { l with startMs := next }
  /-- The cache drops a series that the last closed window did not have. -/
  | forget (l : Lane σ) (hlive : l.live = none) : Step cfg G key l { l with base := none }

end Lane

def laneOf (p : Precompute σ) (accepted : List Acceptance) (key : Bytes) : Lane σ :=
  { live := p.window.series.lookup key
    base := p.window.snapshotCache.outbound.lookup key
    startMs := p.window.activeStartMs
    log := p.window.log.filter fun ev => ev.key = key
    accepted := accepted.filter fun a => a.key = key }

variable (key : Bytes)

def History.lane : Lane σ := laneOf h.p h.accepted key

variable (startMs : Nat)

/-- The envelope of an event that serialized the series of a key in the window at `startMs`. -/
def Event.emissionOf? : Event σ → Option SketchEnvelope
  | .closed _ _ _ => none
  | .emitted _ entry env => if entry.seriesKey = key ∧ env.windowStartMs = startMs then some env else none

def History.emissions : List SketchEnvelope :=
  h.p.window.log.filterMap (Event.emissionOf? key startMs)

def History.admissions : List Observation :=
  (h.accepted.filter fun a => a.key = key ∧ a.startMs = startMs).map Acceptance.obs

def History.Closed : Prop :=
  ∃ entry endMs, Event.closed entry startMs endMs ∈ h.p.window.log ∧ entry.seriesKey = key

/-- What `observeEnvelope` does with an envelope of a series it has: the switch on the encoding. -/
def absorb (entry : SeriesEntry σ) (env : SketchEnvelope) : SeriesEntry σ :=
  match env.encoding with
  | .protoDelta | .msgpackDelta => (applyEnvelopeDelta F entry env).1
  | .protoFull | .msgpack | .unspecified => (mergeEnvelope F entry env).1

/-- A receiver that starts from an empty sketch and takes some envelopes of one series. -/
def received (envs : List SketchEnvelope) : SeriesEntry σ :=
  envs.foldl (absorb F) { sketch := F.factory, seriesKey := [], lastSeenMs := 0 }

def closes (p : Precompute σ) : Call σ → Bool
  | .observe obs _ _ => p.window.initialized && p.window.activeEndMs ≤ obs.timestampMs && p.cfg.any (·.admits obs)
  | .tick nowMs _ => p.window.initialized && p.window.activeEndMs ≤ nowMs
  | .drain _ => p.window.initialized
  | .emitSubWindow _ _ => false

def Call.emits : Call σ → Bool
  | .emitSubWindow _ _ => true
  | _ => false

/-- A call finds every series of the active window as the guard asks. -/
def Guard.Met (G : Guard σ) (p : Precompute σ) (c : Call σ) : Prop :=
  ∀ key entry, p.window.series.lookup key = some entry →
    (closes p c = true → G.close (p.window.snapshotCache.outbound.lookup key) entry) ∧
      (c.emits = true → G.emit (p.window.snapshotCache.outbound.lookup key) entry)

/-- Every call of the run meets the guard. -/
abbrev Guard.AllMet (G : Guard σ) : History σ → List (Call σ) → Prop := Always (History.step F) fun h c => G.Met h.p c

end

end AsapCollector.Precompute
