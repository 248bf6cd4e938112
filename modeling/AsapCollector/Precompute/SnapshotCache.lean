import AsapCollector.Precompute.Config

/-! The interface through which the runtime uses a sketch, and `snapshot_cache.go`. A payload that is a nil slice is
`none`. -/

namespace AsapCollector

/-- One family of sketches as the runtime sees it: the factory, the `SketchObserver`, the methods of
the `Sketch` interface and the optional methods it asserts. A call that may change the sketch returns
it, also when it fails. -/
structure SketchImpl (σ : Type) where
  factory : σ
  observe : σ → ObservationValue → σ × Option String
  snapshot : σ → Except String (Option Bytes)
  computeDeltaAgainst : σ → Bytes → UInt64 → σ × Except String (Option Bytes × Bool)
  applyDelta : σ → Bytes → σ × Option String
  merge : σ → σ → σ × Option String
  reset : σ → σ
  /-- `none` also for a family that does not have the method. -/
  deltaAgainstEmptyBase : σ → Except String (Option Bytes) := fun _ => .ok none
  setSampleP : σ → Float64 → σ := fun s _ => s
  /-- The number of sites is only passed to the families whose method takes it. -/
  setGosMode : σ → Float64 → Option UInt32 → σ := fun s _ _ => s
  relativeAccuracy : σ → Float64 := fun _ => ⟨0⟩
  sum : σ → Option Float64 := fun _ => none
  estimateCardinality : σ → Option Float64 := fun _ => none
  l2DivergenceSinceEmit : σ → Option (Float64 × Float64) := fun _ => none
  markSubWindowEmitted : σ → σ := id

structure SnapshotCache where
  outbound : GoMap Bytes Bytes := ∅
  inbound : GoMap Bytes Bytes := ∅
  generation : UInt64 := 1
  seen : GoMap Bytes UInt64 := ∅

namespace SnapshotCache

variable (c : SnapshotCache)

/-- `CacheOutbound`: a nil payload is stored as an empty one. -/
def cacheOutbound (key : Bytes) (payload : Option Bytes) : SnapshotCache :=
  { c with outbound := c.outbound.insert key (payload.getD []), seen := c.seen.insert key c.generation }

def cacheInbound (key : Bytes) (payload : Option Bytes) : SnapshotCache :=
  { c with inbound := c.inbound.insert key (payload.getD []), seen := c.seen.insert key c.generation }

def beginGeneration : SnapshotCache := { c with generation := c.generation + 1 }

def touch (key : Bytes) (generation : UInt64) : SnapshotCache :=
  if generation = c.generation then { c with seen := c.seen.insert key generation } else c

def endGeneration (generation : UInt64) : SnapshotCache :=
  if generation ≠ c.generation then c
  else
    let current (key : Bytes) : Bool := c.seen.get 0 key = generation
    { c with
      outbound := GoMap.filter c.outbound fun key _ => current key
      inbound := GoMap.filter c.inbound fun key _ => current key
      seen := GoMap.filter c.seen fun _ seen => seen = generation }

def delete (key : Bytes) : SnapshotCache :=
  { c with outbound := c.outbound.erase key, inbound := c.inbound.erase key, seen := c.seen.erase key }

def reset : SnapshotCache :=
  { outbound := ∅, inbound := ∅, seen := ∅, generation := c.generation + 1 }

section
variable {σ : Type} (F : SketchImpl σ)

variable (c : SnapshotCache) (key : Bytes) (current : σ) (threshold : UInt64)

/-- The first half of `ComputeDelta`: the payload, whole if the cache has no base. -/
def deltaPayload : σ × Except String (Option Bytes × Bool) :=
  match c.outbound.lookup key with
  | none => (current, (F.snapshot current).map fun full => (full, true))
  | some prev => F.computeDeltaAgainst current prev threshold

/-- The second half of `ComputeDelta`: the base of the next delta. -/
def refreshBase (payload : Option Bytes) (isFull : Bool) : Except String SnapshotCache := do
  match ← F.deltaAgainstEmptyBase current with
  | some (b :: bs) => return c.cacheOutbound key (some (b :: bs))
  | _ =>
    let full ← if isFull then pure payload else F.snapshot current
    return c.cacheOutbound key full

def computeDelta : SnapshotCache × Except String (Option Bytes × Bool) :=
  match c.deltaPayload F key current threshold with
  | (_, .error e) => (c, .error e)
  | (current, .ok (payload, isFull)) =>
    match c.refreshBase F key current payload isFull with
    | .error e => (c, .error e)
    | .ok c => (c, .ok (payload, isFull))

/-- `ComputeSubWindowDelta`: the base of the next delta is always the current state. -/
def computeSubWindowDelta :
    SnapshotCache × σ × Except String (Option Bytes × Bool) :=
  match c.deltaPayload F key current threshold with
  | (current, .error e) => (c, current, .error e)
  | (current, .ok (payload, true)) => (c.cacheOutbound key payload, current, .ok (payload, true))
  | (current, .ok (payload, false)) =>
    match F.snapshot current with
    | .error e => (c, current, .error e)
    | .ok full => (c.cacheOutbound key full, current, .ok (payload, false))

end

end SnapshotCache

end AsapCollector
