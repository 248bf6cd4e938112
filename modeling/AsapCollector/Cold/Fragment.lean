import AsapCollector.Lib.GoMap
import AsapCollector.Lib.Heap
import AsapCollector.Lib.StringMap
import AsapCollector.Cold.BestOfN

/-! The streaming encoder of `asap-gorilla-go/fragment.go`. Pointers to series states are indices of `states`; a state
that is no longer in `series` keeps its address. A loop is given the rounds it can run. Times are milliseconds. -/

namespace AsapCollector

structure SeriesId where
  metricName : Bytes
  attrs : StringMap
deriving DecidableEq

def canonicalAttrsKey (attrs : StringMap) : Bytes :=
  attrs.entries.flatMap fun e => e.1 ++ (str "=" ++ (e.2 ++ str ";"))

def SeriesId.key (id : SeriesId) : Bytes := id.metricName ++ (0xff :: canonicalAttrsKey id.attrs)

/-- `TSDBSample`; the timestamp in nanoseconds, as `UnixNano` returns it. -/
structure TSDBSample extends SeriesId where
  timestamp : BitVec 64
  value : Float64
deriving DecidableEq

def Sample.time (p : Sample) : Int := p.t.toInt

/-- The `pendingPoint` of a sample: its value at a time in milliseconds. -/
def TSDBSample.point (s : TSDBSample) : Sample := ⟨BitVec.ofInt 64 (s.timestamp.toInt.tdiv 1000000), s.value⟩

/-- `Fragment`, without its ULID and the constant encoding `"xor"`. -/
structure Fragment extends SeriesId where
  minTime : Int
  maxTime : Int
  count : Nat
  data : Bytes
  oooDropCount : Nat
  source : Bytes
  watermarkTime : Int
deriving DecidableEq

/-- `fragmentSeriesState`. The open chunk is known by the samples appended to it. -/
structure FragmentSeriesState extends SeriesId where
  key : Bytes
  pending : Array Sample
  openChunk : Option (List Sample)
  openMin : Int
  openMax : Int
  openCount : Nat
  lastTs : Int
  hasLast : Bool
  lastActive : Int
  inEvictQueue : Bool

def minInt64 : Int := -2 ^ 63

def maxInt64 : Int := 2 ^ 63 - 1

/-- `StreamingFragmentEncoder`. The counter `dropped` is known by what it has counted. -/
structure StreamingFragmentEncoder where
  reorderGrace : Int
  samplesPerChk : Nat
  source : Bytes
  idleEvictMs : Int
  states : List FragmentSeriesState
  series : GoMap Bytes Nat
  drainQueue : Array (Int × Nat)
  evictQueue : Array (Int × Nat)
  maxObserved : Int
  queued : List Fragment
  dropped : List (SeriesId × Sample)
  lastReportedDropped : Nat
  evicted : Nat

structure StreamingFragmentOptions where
  reorderGrace : Int
  samplesPerChunk : Int
  source : Bytes
  idleEvict : Int

def defaultTSDBSamplesPerChunk : Nat := 120

namespace FragmentSeriesState

def new (id : SeriesId) : FragmentSeriesState :=
  { toSeriesId := id, key := id.key, pending := #[], openChunk := none, openMin := 0, openMax := 0, openCount := 0,
    lastTs := minInt64, hasLast := false, lastActive := minInt64, inEvictQueue := false }

def openSamples (st : FragmentSeriesState) : List Sample := st.openChunk.getD []

/-- The part of `appendLocked` that changes the series: a chunk is opened if there is none. -/
def append (st : FragmentSeriesState) (p : Sample) : FragmentSeriesState :=
  match st.openChunk with
  | none =>
    { st with
      openChunk := some [p], openMin := p.time, openMax := p.time, openCount := 1, lastTs := p.time, hasLast := true }
  | some chunk =>
    { st with
      openChunk := some (chunk ++ [p]), openMax := p.time, openCount := st.openCount + 1, lastTs := p.time,
        hasLast := true }

end FragmentSeriesState

namespace StreamingFragmentEncoder

def new (opts : StreamingFragmentOptions) : StreamingFragmentEncoder :=
  let reorderGrace := opts.reorderGrace.tdiv 1000000
  { reorderGrace := reorderGrace
    samplesPerChk := if opts.samplesPerChunk ≤ 0 then defaultTSDBSamplesPerChunk else opts.samplesPerChunk.toNat
    source := opts.source
    idleEvictMs :=
      if opts.idleEvict < 0 then 0
      else if 0 < opts.idleEvict then opts.idleEvict.tdiv 1000000
      else 3 * reorderGrace
    states := [], series := ∅, drainQueue := #[], evictQueue := #[], maxObserved := 0, queued := [], dropped := []
    lastReportedDropped := 0, evicted := 0 }

def droppedSamples (e : StreamingFragmentEncoder) : Nat := e.dropped.length

def getSeries (e : StreamingFragmentEncoder) (id : SeriesId) : StreamingFragmentEncoder × Nat :=
  match e.series.lookup id.key with
  | some a => (e, a)
  | none =>
    ({ e with states := e.states ++ [.new id], series := e.series.insert id.key e.states.length }, e.states.length)

variable (xor : XorChunk)

variable (e : StreamingFragmentEncoder)

def newFragment (st : FragmentSeriesState) (chunk : List Sample) (watermark : Int) : Fragment :=
  { toSeriesId := st.toSeriesId, minTime := st.openMin, maxTime := st.openMax, count := st.openCount
    data := xor.encode chunk
    oooDropCount := e.dropped.length - e.lastReportedDropped
    source := e.source
    watermarkTime := if watermark = maxInt64 then e.maxObserved - e.reorderGrace else watermark }

variable (a : Nat) (watermark : Int)

/-- `flushOpenChunkLocked` for the state `st` at address `a`. -/
def flushOpenChunk (e : StreamingFragmentEncoder) (st : FragmentSeriesState) :
    StreamingFragmentEncoder × FragmentSeriesState :=
  match st.openChunk with
  | none => (e, st)
  | some chunk =>
    if st.openCount = 0 then (e, st)
    else
      let e' := { e with
        queued := e.queued ++ [e.newFragment xor st chunk watermark], lastReportedDropped := e.dropped.length }
      let st' := { st with openChunk := none, openCount := 0 }
      if 0 < e.idleEvictMs ∧ st.inEvictQueue = false then
        ({ e' with evictQueue := Heap.push Prod.fst e.evictQueue (st.lastActive, a) },
          { st' with inEvictQueue := true })
      else (e', st')

def append (e : StreamingFragmentEncoder) (st : FragmentSeriesState) (p : Sample) :
    StreamingFragmentEncoder × FragmentSeriesState :=
  if e.samplesPerChk ≤ (st.append p).openCount then
    e.flushOpenChunk xor a (e.maxObserved - e.reorderGrace) (st.append p)
  else (e, st.append p)

/-- One round of `drainSeriesLocked`, with the point it has popped. -/
def take (e : StreamingFragmentEncoder) (st : FragmentSeriesState) (p : Sample) :
    StreamingFragmentEncoder × FragmentSeriesState :=
  if st.hasLast = true ∧ p.time ≤ st.lastTs then ({ e with dropped := e.dropped ++ [(st.toSeriesId, p)] }, st)
  else e.append xor a st p

def popReady (pending : Array Sample) : Option (Sample × Array Sample) :=
  match pending[0]? with
  | none => none
  | some root => if root.time ≤ watermark then Heap.pop Sample.time pending else none

def drainSeriesLoop (a : Nat) (watermark : Int) :
    Nat → StreamingFragmentEncoder → FragmentSeriesState → StreamingFragmentEncoder × FragmentSeriesState
  | 0, e, st => (e, st)
  | rounds + 1, e, st =>
    match popReady watermark st.pending with
    | none => (e, st)
    | some (p, pending) =>
      let r := e.take xor a { st with pending := pending } p
      drainSeriesLoop a watermark rounds r.1 r.2

def drainSeries (e : StreamingFragmentEncoder) (st : FragmentSeriesState) :
    StreamingFragmentEncoder × FragmentSeriesState :=
  drainSeriesLoop xor a watermark st.pending.size e st

def visit (f : StreamingFragmentEncoder → FragmentSeriesState → StreamingFragmentEncoder × FragmentSeriesState) :
    StreamingFragmentEncoder :=
  match e.states[a]? with
  | none => e
  | some st => { (f e st).1 with states := (f e st).1.states.set a (f e st).2 }

def requeue : StreamingFragmentEncoder :=
  match (e.states[a]?).bind fun st => st.pending[0]? with
  | none => e
  | some p => { e with drainQueue := Heap.push Prod.fst e.drainQueue (p.time, a) }

def popEntry (time : Int) (queue : Array (Int × Nat)) : Option ((Int × Nat) × Array (Int × Nat)) :=
  match queue[0]? with
  | none => none
  | some root => if root.1 ≤ time then Heap.pop Prod.fst queue else none

def drainReadyLoop (watermark : Int) : Nat → StreamingFragmentEncoder → StreamingFragmentEncoder
  | 0, e => e
  | rounds + 1, e =>
    match popEntry watermark e.drainQueue with
    | none => e
    | some (entry, queue) =>
      drainReadyLoop watermark rounds
        (({ e with drainQueue := queue }.visit entry.2 (drainSeries xor entry.2 watermark)).requeue entry.2)

/-- `drainLocked(watermark, false)`: a series is put back with a time after the watermark, so each entry
is popped at most once. -/
def drainReady (watermark : Int) : StreamingFragmentEncoder :=
  drainReadyLoop xor watermark e.drainQueue.size e

/-- One round of `sweepEvictionsLocked`, with the entry it has popped. -/
def evictEntry (entry : Int × Nat) : StreamingFragmentEncoder :=
  e.visit entry.2 fun e st =>
    if e.series.lookup st.key ≠ some entry.2 then (e, { st with inEvictQueue := false })
    else if entry.1 < st.lastActive then
      ({ e with evictQueue := Heap.push Prod.fst e.evictQueue (st.lastActive, entry.2) }, st)
    else if 0 < st.pending.size ∨ st.openChunk.isSome = true ∨ 0 < st.openCount then
      (e, { st with inEvictQueue := false })
    else if e.maxObserved - st.lastActive ≤ e.idleEvictMs then (e, { st with inEvictQueue := false })
    else ({ e with series := e.series.erase st.key, evicted := e.evicted + 1 }, { st with inEvictQueue := false })

def sweepEvictionsLoop (cutoff : Int) : Nat → StreamingFragmentEncoder → StreamingFragmentEncoder
  | 0, e => e
  | rounds + 1, e =>
    match popEntry cutoff e.evictQueue with
    | none => e
    | some (entry, queue) => sweepEvictionsLoop cutoff rounds ({ e with evictQueue := queue }.evictEntry entry)

/-- `sweepEvictionsLocked`: an entry is put back at most once, with the series' own last activity. -/
def sweepEvictions : StreamingFragmentEncoder :=
  if e.idleEvictMs ≤ 0 then e
  else sweepEvictionsLoop (e.maxObserved - e.idleEvictMs) (2 * e.evictQueue.size) e

/-- The drops that no flush has carried go to the fragment queued last. -/
def attributeResidual : StreamingFragmentEncoder :=
  match e.queued.getLast? with
  | some last =>
    if e.lastReportedDropped < e.dropped.length then
      { e with
        queued := e.queued.dropLast ++
          [{ last with oooDropCount := last.oooDropCount + (e.dropped.length - e.lastReportedDropped) }]
        lastReportedDropped := e.dropped.length }
    else e
  | none => e

def drainAndFlush (e : StreamingFragmentEncoder) (st : FragmentSeriesState) :
    StreamingFragmentEncoder × FragmentSeriesState :=
  let r := e.drainSeries xor a maxInt64 st
  r.1.flushOpenChunk xor a maxInt64 r.2

def drainAll (series : List (Bytes × Nat)) : StreamingFragmentEncoder :=
  series.foldl (fun e entry => e.visit entry.2 (drainAndFlush xor entry.2)) e

def drainForced (ω : RangeOrder (Bytes × Nat)) : StreamingFragmentEncoder :=
  ({ e.drainAll xor (e.series.range ω) with drainQueue := #[] }).attributeResidual.sweepEvictions

def accept (p : Sample) : StreamingFragmentEncoder :=
  match e.states[a]? with
  | none => e
  | some st =>
    let pending := Heap.push Sample.time st.pending p
    let e' := { e with
      states := e.states.set a { st with lastActive := max st.lastActive p.time, pending := pending } }
    if (pending[0]?).map Sample.time = some p.time then
      { e' with drainQueue := Heap.push Prod.fst e.drainQueue (p.time, a) }
    else e'

def addSample (s : TSDBSample) : StreamingFragmentEncoder :=
  let r := { e with maxObserved := max e.maxObserved s.point.time }.getSeries s.toSeriesId
  let e' := r.1.accept r.2 s.point
  e'.drainReady xor (e'.maxObserved - e'.reorderGrace)

def drain (force : Bool) (ω : RangeOrder (Bytes × Nat)) : List Fragment × StreamingFragmentEncoder :=
  let e' := if force then e.drainForced xor ω else e.drainReady xor (e.maxObserved - e.reorderGrace)
  (e'.queued, { e' with queued := [] })

end StreamingFragmentEncoder

end AsapCollector
