import AsapCollector.Sketches.Sum

/-! `sketches/cms.go`, `countsketch.go`, `ddsketch.go` and `gos_threshold.go`. `CellLib` has what all three wrappers
call of `sketchlib-go`, at the shape of one wrapper and with exact integers for the weights; each family adds what only
its wrapper calls. The guards against a nil sketch, the memo of the empty base of a CountMin, the wake signal and the
queries are left out. The sampler that a CountSketch wrapper keeps beside its sketch is part of the sketch here. -/

namespace AsapCollector.Sketches

/-! ### The library -/

/-- What is inserted: a hashed item, an item by its key with a weight, either of them at the rows that a
source has admitted, or a value of a DDSketch. -/
inductive Insertion where
  | hash (h : UInt64)
  | hashAtRows (h : UInt64) (value : Float64) (admittedRows : UInt64) (sampleP : Float64)
  | key (key : Bytes) (count : Float64)
  | keyAtRows (key : Bytes) (count : Float64) (admittedRows : UInt64) (sampleP : Float64)
  | value (v : Float64)

/-- A sparse delta: differences of cells, and for the matrices the differences of the row norms and the
keys of the heavy hitters. -/
structure CellDelta (C : Type) where
  cells : List (C × ℤ)
  norms : List Float64 := []
  hhKeys : List Bytes := []

structure CellLib (S C : Type) where
  cells : S → C → ℤ
  new : S
  withSampleP : S → Float64 → S
  insert : S → Insertion → S
  /-- The insertion that takes cells which reach the threshold out of the sketch and reports them. -/
  insertGos : S → Insertion → UInt64 → S × List (C × ℤ)
  merge : S → S → Except String S
  encode : S → Except String Bytes
  decode : Bytes → Except String S
  computeDelta : S → S → UInt64 → Except String (CellDelta C)
  encodeDelta : CellDelta C → Except String Bytes
  decodeDelta : Bytes → Except String (CellDelta C)
  applyDelta : S → CellDelta C → S
  /-- `uint64` of a `float64` beyond its range. -/
  overflow : Float64 → UInt64

structure CountMinLib (S C : Type) extends CellLib S C where
  hash : Bytes → UInt64
  /-- `CM_L1`. -/
  mass : S → Float64
  /-- `L1`. -/
  norms : S → List Float64
  encodeMsgpack : S → Except String Bytes
  computeDeltaAgainstEmpty : S → UInt64 → Except String (CellDelta C)

structure CountSketchLib (S C : Type) extends CellLib S C where
  rows : Nat
  cols : Nat
  grid : List C
  reset : S → S
  /-- `QueryWithHash(QuerySum2, 0)`. -/
  norm : S → Float64
  /-- `L2`. -/
  norms : S → List Float64
  candidates : S → List Bytes
  encodeHeap : S → Nat → Except String Bytes
  decodeHeap : Bytes → Except String S
  encodeHeapDelta : S → S → Nat → UInt64 → Except String Bytes
  isHeapDelta : Bytes → Bool
  applyHeapDelta : S → Bytes → Except String S
  sqrt : Float64 → Float64

/-- The DDSketch; its cells are the buckets. -/
structure DDSketchLib (S C : Type) extends CellLib S C where
  clear : S → S
  setWireSampleP : S → Float64 → S
  count : S → UInt64
  populatedBuckets : S → UInt32
  /-- `NewFromStateProtoBytes`. -/
  decodeState : Bytes → Except String S
  text : Float64 → String

/-! ### Thresholds -/

def siteCount (k : UInt32) : Float64 := Float64.ofInt (max 1 k.toNat : Nat)

def f2IsotropicThreshold (sqrt : Float64 → Float64) (epsilon norm : Float64) (k : UInt32) (d w : Nat) : Float64 :=
  if d * w = 0 then .inf false
  else epsilon * norm / (Float64.ofInt 2 * siteCount k * sqrt (Float64.ofInt (d * w : Nat)))

def cmsIsotropicThreshold (epsilon n : Float64) (k : UInt32) : Float64 := epsilon * n / siteCount k

def ddSketchIsotropicThreshold (epsilon n : Float64) (k b : UInt32) : Float64 :=
  if b = 0 then .inf false else epsilon * n / (siteCount k * Float64.ofInt b.toNat)

/-! ### What the wrappers share -/

/-- The fields that all three wrappers have. `gosBaseline` is `gosL1Baseline` or `gosL2Baseline`; a
DDSketch has none. -/
structure GosState (S C : Type) where
  sk : S
  sampleP : Float64 := Float64.ofInt 1
  gosEpsilon : Float64 := ⟨0⟩
  gosSites : UInt32 := 0
  gosThreshold : UInt64 := 0
  gosDirty : List (C × ℤ) := []
  gosBaseline : List Float64 := []

namespace GosState

section
variable {S C : Type} (lib : CellLib S C)

variable (w : GosState S C)

def setGosMode (epsilon : Float64) (sites : UInt32) : GosState S C :=
  { w with gosEpsilon := epsilon, gosSites := sites }

def gos : Bool := Float64.lt ⟨0⟩ w.gosEpsilon

/-- `GosDeltaThreshold` once the threshold of the moment is known: the one in force never falls. -/
def raiseThreshold (t : Float64) : GosState S C :=
  let candidate : UInt64 :=
    if !t.isInf && !t.isNaN && (Float64.ofInt 1).lt t then t.ceilUint64 lib.overflow else 1
  { w with gosThreshold := max 1 (max w.gosThreshold candidate) }

def insert (o : Insertion) : GosState S C := { w with sk := lib.insert w.sk o }

/-- An insertion with GOS, and `recordDirty`. -/
def insertGos (t : Float64) (o : Insertion) : GosState S C :=
  let w := w.raiseThreshold lib t
  let (sk, crossed) := lib.insertGos w.sk o w.gosThreshold
  { w with sk, gosDirty := w.gosDirty ++ crossed }

/-- `drainGosDelta`. `norms` are the row norms of the sketch and `hhKeys` its heavy hitters. -/
def drainGosDelta (norms : List Float64) (hhKeys : List Bytes) (w : GosState S C) :
    GosState S C × Except String (Option Bytes × Bool) :=
  if w.gosDirty.isEmpty then (w, .ok (none, false))
  else
    let w := { w with
      gosBaseline := if w.gosBaseline.length = norms.length then w.gosBaseline else norms.map fun _ => ⟨0⟩ }
    match lib.encodeDelta ⟨w.gosDirty, norms.zipWith Float64.sub w.gosBaseline, hhKeys⟩ with
    | .error e => (w, .error e)
    | .ok payload => ({ w with gosDirty := [], gosBaseline := norms }, .ok (some payload, false))

def resetGos : GosState S C :=
  { w with gosDirty := [], gosThreshold := 0, gosBaseline := [] }

def diff (prev : Bytes) (threshold : UInt64) : Except String Bytes := do
  let prev ← lib.decode prev
  let delta ← lib.computeDelta prev w.sk threshold
  lib.encodeDelta delta

def merge (other : GosState S C) : GosState S C × Option String :=
  match lib.merge w.sk other.sk with
  | .error e => (w, some e)
  | .ok sk => ({ w with sk }, none)

/-- `ApplyDelta` of a payload that may be a whole sketch: it is merged. -/
def mergeDecoded (decoded : Except String S) : Option (GosState S C × Option String) :=
  decoded.toOption.map fun other => w.merge lib { w with sk := other }

/-- `ApplyDelta` of a payload that may be a sparse delta. -/
def applyDecoded (decoded : Except String (CellDelta C)) : Option (GosState S C × Option String) :=
  decoded.toOption.map fun delta => ({ w with sk := lib.applyDelta w.sk delta }, none)

end

end GosState

/-- A whole frame in place of a delta. -/
def asFull (full : Except String Bytes) : Except String (Option Bytes × Bool) := full.map fun full => (some full, true)

/-- The end of `ComputeDeltaAgainst`: a delta that could not be computed, or is not smaller than the
whole frame, gives way to the whole frame. -/
def clampDelta (full delta : Except String Bytes) : Except String (Option Bytes × Bool) :=
  match delta, full with
  | .error _, _ => asFull full
  | .ok delta, .ok full => if full.length ≤ delta.length then .ok (some full, true) else .ok (some delta, false)
  | .ok delta, .error _ => .ok (some delta, false)

/-! ### CountMin -/

structure CMSWrapper (S C : Type) extends GosState S C where
  useMsgpack : Bool := false

namespace CMSWrapper

section
variable {S C : Type} (lib : CountMinLib S C)

def new (useMsgpack : Bool) : CMSWrapper S C := { sk := lib.new, useMsgpack }

variable (w : CMSWrapper S C)

def withSampleP (p : Float64) : CMSWrapper S C :=
  let p := if (Float64.ofInt 1).le p || p.isNaN then Float64.ofInt 1 else p
  { w with sampleP := p, sk := lib.withSampleP w.sk p }

def newSketch : S :=
  if Float64.lt ⟨0⟩ w.sampleP && w.sampleP.lt (Float64.ofInt 1) then lib.withSampleP lib.new w.sampleP else lib.new

/-- An insertion, with the threshold of `GosDeltaThreshold` if GOS is on. -/
def insert (o : Insertion) : CMSWrapper S C :=
  { w with
    toGosState :=
      if w.gos then
        w.insertGos lib.toCellLib (cmsIsotropicThreshold w.gosEpsilon (lib.mass w.sk) w.gosSites) o
      else w.toGosState.insert lib.toCellLib o }

def insertHash (h : UInt64) : CMSWrapper S C := w.insert lib (.hash h)

def applyAdmittedOccurrence (h : UInt64) (value : Float64) (admittedRows : UInt64) (sampleP : Float64) :
    CMSWrapper S C :=
  w.insert lib (.hashAtRows h value admittedRows sampleP)

def observe (v : ObservationValue) : CMSWrapper S C × Option String :=
  match v.kind with
  | .bytes =>
    if v.rowSampled then
      (w.applyAdmittedOccurrence lib (lib.hash v.bytes) (Float64.ofInt 1) v.admittedRows v.sampleP, none)
    else (w.insertHash lib (lib.hash v.bytes), none)
  | kind => (w, some ("CMSObserver: expected KindBytes, got " ++ SumWrapper.kindText kind))

def snapshot : Except String Bytes :=
  if w.useMsgpack then (lib.encodeMsgpack w.sk).mapError ("cms.SerializeMsgpack: " ++ ·)
  else (lib.encode w.sk).mapError ("cms.SerializeProtoBytesFO: " ++ ·)

def emptyBaseBytes : Option Bytes :=
  if w.useMsgpack then none else (lib.encode (w.newSketch lib)).toOption

def diffAgainstEmpty (prev : Bytes) (threshold : UInt64) : Option Bytes :=
  if w.emptyBaseBytes lib = some prev then
    (lib.computeDeltaAgainstEmpty w.sk threshold >>= lib.encodeDelta).toOption
  else none

def computeDeltaAgainst (prev : Bytes) (threshold : UInt64) : CMSWrapper S C × Except String (Option Bytes × Bool) :=
  if w.gos && !w.useMsgpack then
    let (g, result) := w.drainGosDelta lib.toCellLib (lib.norms w.sk) []
    ({ w with toGosState := g }, result)
  else if w.useMsgpack || prev.isEmpty then (w, asFull (w.snapshot lib))
  else
    match w.diffAgainstEmpty lib prev threshold with
    | some payload => (w, clampDelta (w.snapshot lib) (.ok payload))
    | none => (w, clampDelta (w.snapshot lib) (w.diff lib.toCellLib prev threshold))

def deltaAgainstEmptyBase : Except String (Option Bytes) :=
  if w.useMsgpack then .ok none
  else
    match w.emptyBaseBytes lib with
    | some b => .ok (some b)
    | none => .error "cms.SerializeProtoBytesFO(empty): construction failed"

def applyDelta (payload : Bytes) : CMSWrapper S C × Option String :=
  if payload.isEmpty then (w, none)
  else
    let applied := (w.mergeDecoded lib.toCellLib (lib.decode payload)).or
      (w.applyDecoded lib.toCellLib (lib.decodeDelta payload))
    match applied with
    | some (g, err) => ({ w with toGosState := g }, err)
    | none => (w, some "CMSWrapper: payload is neither a full proto state nor a delta")

def reset : CMSWrapper S C := { w with toGosState := { w.resetGos with sk := w.newSketch lib } }

end

end CMSWrapper

/-- The CountMin family; `factory` makes the sketch of a new series. -/
def countMinFamily {S C : Type} (lib : CountMinLib S C) (factory : CMSWrapper S C) : SketchImpl (CMSWrapper S C) where
  factory
  observe w v := w.observe lib v
  snapshot w := (w.snapshot lib).map some
  computeDeltaAgainst w prev threshold := w.computeDeltaAgainst lib prev threshold
  applyDelta w payload := w.applyDelta lib payload
  merge w other :=
    let (g, err) := w.toGosState.merge lib.toCellLib other.toGosState
    ({ w with toGosState := g }, err)
  reset w := w.reset lib
  deltaAgainstEmptyBase w := w.deltaAgainstEmptyBase lib
  setSampleP w p := w.withSampleP lib p
  setGosMode w epsilon sites := { w with toGosState := (sites.map (w.toGosState.setGosMode epsilon)).getD w.toGosState }

/-! ### CountSketch -/

structure CountSketchWrapper (S C : Type) extends GosState S C where
  heapMsgpack : Bool := false
  heapSize : Nat := 100
  ackedCells : Option (C → ℤ) := none

namespace CountSketchWrapper

section
variable {S C : Type} (lib : CountSketchLib S C)

def new : CountSketchWrapper S C := { sk := lib.new }

variable (w : CountSketchWrapper S C)

def withSampleP (p : Float64) : CountSketchWrapper S C :=
  let p := if (Float64.ofInt 1).le p || p.isNaN || p.le ⟨0⟩ then Float64.ofInt 1 else p
  { w with sampleP := p, sk := lib.withSampleP w.sk p }

/-- Whether GOS is on; the heap frames do not have it. -/
def gosActive : Bool := w.gos && !w.heapMsgpack

def insert (o : Insertion) : CountSketchWrapper S C :=
  { w with
    toGosState :=
      if w.gosActive then
        w.insertGos lib.toCellLib
          (f2IsotropicThreshold lib.sqrt w.gosEpsilon (lib.norm w.sk) w.gosSites lib.rows lib.cols) o
      else w.toGosState.insert lib.toCellLib o }

def updateString (key : Bytes) (count : Float64) : CountSketchWrapper S C :=
  w.insert lib (.key key count)

def applyAdmittedOccurrence (key : Bytes) (count : Float64) (admittedRows : UInt64) (sampleP : Float64) :
    CountSketchWrapper S C :=
  w.insert lib (.keyAtRows key count admittedRows sampleP)

def observe (defaultKey : Bytes) (w : CountSketchWrapper S C) (v : ObservationValue) :
    CountSketchWrapper S C × Option String :=
  match v.kind with
  | .float =>
    let key := if v.bytes.isEmpty then defaultKey else v.bytes
    if v.rowSampled then (w.applyAdmittedOccurrence lib key v.float v.admittedRows v.sampleP, none)
    else (w.updateString lib key v.float, none)
  | kind => (w, some ("CountSketchObserver: unsupported value kind " ++ SumWrapper.kindText kind))

def l2DivergenceSinceEmit : Float64 × Float64 :=
  let (d2, n2) := lib.grid.foldl (fun (acc : Float64 × Float64) c =>
    let cur := Float64.ofInt (lib.cells w.sk c)
    let d := cur - Float64.ofInt ((w.ackedCells.map (· c)).getD 0)
    (acc.1 + d * d, acc.2 + cur * cur)) (0, 0)
  (lib.sqrt d2, lib.sqrt n2)

def markSubWindowEmitted : CountSketchWrapper S C :=
  { w with ackedCells := some (lib.cells w.sk) }

def snapshot : Except String Bytes :=
  if w.heapMsgpack then lib.encodeHeap w.sk w.heapSize else lib.encode w.sk

def heapDiff (prev : Bytes) (threshold : UInt64) : Except String Bytes := do
  let base ← lib.decodeHeap prev
  lib.encodeHeapDelta w.sk base w.heapSize threshold

def computeDeltaAgainst (prev : Bytes) (threshold : UInt64) :
    CountSketchWrapper S C × Except String (Option Bytes × Bool) :=
  if w.gosActive then
    let (g, result) := w.drainGosDelta lib.toCellLib (lib.norms w.sk) (lib.candidates w.sk)
    ({ w with toGosState := g }, result)
  else if prev.isEmpty then (w, asFull (w.snapshot lib))
  else if w.heapMsgpack then (w, clampDelta (w.snapshot lib) (w.heapDiff lib prev threshold))
  else (w, clampDelta (w.snapshot lib) (w.diff lib.toCellLib prev threshold))

def deltaAgainstEmptyBase : Except String (Option Bytes) :=
  if w.heapMsgpack then
    ((lib.encodeHeap lib.new w.heapSize).mapError ("countsketch.SerializeMsgpackWithHeap(empty): " ++ ·)).map some
  else ((lib.encode lib.new).mapError ("countsketch.SerializeProtoBytes(empty): " ++ ·)).map some

def applyDelta (payload : Bytes) : CountSketchWrapper S C × Option String :=
  if payload.isEmpty then (w, some "CountSketchWrapper: ApplyDelta with empty payload")
  else if lib.isHeapDelta payload then
    match lib.applyHeapDelta w.sk payload with
    | .error e => (w, some e)
    | .ok sk => ({ w with sk }, none)
  else
    let applied := ((w.mergeDecoded lib.toCellLib (lib.decodeHeap payload)).or
      (w.mergeDecoded lib.toCellLib (lib.decode payload))).or
        (w.applyDecoded lib.toCellLib (lib.decodeDelta payload))
    match applied with
    | some (g, err) => ({ w with toGosState := g }, err)
    | none => (w, some "CountSketchWrapper: payload is neither a full proto state nor a delta")

def reset : CountSketchWrapper S C :=
  { w with toGosState := { w.resetGos with sk := lib.reset w.sk }, ackedCells := none }

end

end CountSketchWrapper

/-- The CountSketch family; `defaultKey` is the key of a value that names none. -/
def countSketchFamily {S C : Type} (lib : CountSketchLib S C) (defaultKey : Bytes) (factory : CountSketchWrapper S C) :
    SketchImpl (CountSketchWrapper S C) where
  factory
  observe w v := w.observe lib defaultKey v
  snapshot w := (w.snapshot lib).map some
  computeDeltaAgainst w prev threshold := w.computeDeltaAgainst lib prev threshold
  applyDelta w payload := w.applyDelta lib payload
  merge w other :=
    let (g, err) := w.toGosState.merge lib.toCellLib other.toGosState
    ({ w with toGosState := g }, err)
  reset w := w.reset lib
  deltaAgainstEmptyBase w := w.deltaAgainstEmptyBase lib
  setSampleP w p := w.withSampleP lib p
  setGosMode w epsilon sites := { w with toGosState := (sites.map (w.toGosState.setGosMode epsilon)).getD w.toGosState }
  l2DivergenceSinceEmit w := some (w.l2DivergenceSinceEmit lib)
  markSubWindowEmitted w := w.markSubWindowEmitted lib

/-! ### DDSketch -/

structure DDSketchWrapper (S C : Type) extends GosState S C where
  alpha : Float64
  externalSampling : Bool := false

namespace DDSketchWrapper

section
variable {S C : Type} (lib : DDSketchLib S C)

def new (alpha : Float64) : DDSketchWrapper S C := { sk := lib.new, alpha }

variable (w : DDSketchWrapper S C)

def withSampleP (p : Float64) : DDSketchWrapper S C :=
  let p := if (Float64.ofInt 1).le p || p.isNaN then Float64.ofInt 1 else p
  { w with sampleP := p, sk := lib.withSampleP w.sk p }

def update (v : Float64) : DDSketchWrapper S C :=
  { w with
    toGosState :=
      if w.gos then
        w.insertGos lib.toCellLib (ddSketchIsotropicThreshold w.gosEpsilon (Float64.ofInt (lib.count w.sk).toNat)
          w.gosSites (lib.populatedBuckets w.sk)) (.value v)
      else w.toGosState.insert lib.toCellLib (.value v) }

def applyAdmittedOccurrence (v : Float64) (admittedRows : UInt64) (sampleP : Float64) :
    DDSketchWrapper S C × Option String :=
  if admittedRows ≠ 1 then
    (w, some ("DDSketchWrapper: admitted_rows must be 1 for a one-row sketch, got 0x" ++
      String.ofList (Nat.toDigits 16 admittedRows.toNat)))
  else if sampleP.le ⟨0⟩ || (Float64.ofInt 1).lt sampleP || sampleP.isNaN then
    (w, some ("DDSketchWrapper: sample_p must be in (0,1], got " ++ lib.text sampleP))
  else if w.externalSampling && !w.sampleP.eq sampleP then
    (w, some ("DDSketchWrapper: sample_p changed within a window: " ++ lib.text w.sampleP ++ " to " ++
      lib.text sampleP))
  else
    let sk := lib.setWireSampleP (lib.withSampleP w.sk (Float64.ofInt 1)) sampleP
    (({ w with sampleP, externalSampling := true, sk } : DDSketchWrapper S C).update lib v, none)

def observe (v : ObservationValue) : DDSketchWrapper S C × Option String :=
  match v.kind with
  | .float =>
    if v.rowSampled then w.applyAdmittedOccurrence lib v.float v.admittedRows v.sampleP
    else (w.update lib v.float, none)
  | kind => (w, some ("DDSketchObserver: unsupported value kind " ++ SumWrapper.kindText kind))

def snapshot : Except String Bytes :=
  (lib.encode w.sk).mapError ("ddsketch.SerializePortable: " ++ ·)

def computeDeltaAgainst (prev : Bytes) (threshold : UInt64) :
    DDSketchWrapper S C × Except String (Option Bytes × Bool) :=
  if w.gos then
    let (g, result) := w.drainGosDelta lib.toCellLib [] []
    ({ w with toGosState := g }, result)
  else if prev.isEmpty then (w, asFull (w.snapshot lib))
  else (w, clampDelta (w.snapshot lib) (w.diff lib.toCellLib prev threshold))

def deltaAgainstEmptyBase (_ : DDSketchWrapper S C) : Except String (Option Bytes) :=
  ((lib.encode lib.new).mapError ("ddsketch.SerializePortable(empty): " ++ ·)).map some

def applyDelta (payload : Bytes) : DDSketchWrapper S C × Option String :=
  if payload.isEmpty then (w, none)
  else
    match (w.mergeDecoded lib.toCellLib (lib.decode payload)).or
      (w.mergeDecoded lib.toCellLib (lib.decodeState payload)) with
    | some (g, err) => ({ w with toGosState := g }, err)
    | none =>
      match lib.decodeDelta payload with
      | .error e => (w, some e)
      | .ok delta => ({ w with sk := lib.applyDelta w.sk delta }, none)

def reset : DDSketchWrapper S C :=
  let sk := lib.clear w.sk
  let sk := if Float64.lt ⟨0⟩ w.sampleP && w.sampleP.lt (Float64.ofInt 1) then lib.withSampleP sk w.sampleP else sk
  { w with toGosState := { w.resetGos with sk }, externalSampling := false }

end

end DDSketchWrapper

def ddSketchFamily {S C : Type} (lib : DDSketchLib S C) (factory : DDSketchWrapper S C) :
    SketchImpl (DDSketchWrapper S C) where
  factory
  observe w v := w.observe lib v
  snapshot w := (w.snapshot lib).map some
  computeDeltaAgainst w prev threshold := w.computeDeltaAgainst lib prev threshold
  applyDelta w payload := w.applyDelta lib payload
  merge w other :=
    let (g, err) := w.toGosState.merge lib.toCellLib other.toGosState
    ({ w with toGosState := g }, err)
  reset w := w.reset lib
  deltaAgainstEmptyBase w := w.deltaAgainstEmptyBase lib
  setSampleP w p := w.withSampleP lib p
  setGosMode w epsilon sites := { w with toGosState := (sites.map (w.toGosState.setGosMode epsilon)).getD w.toGosState }
  relativeAccuracy w := w.alpha

/-! ### The three families -/

inductive MatrixFamily (S C : Type) where
  | countMin (lib : CountMinLib S C)
  | countSketch (lib : CountSketchLib S C) (defaultKey : Bytes)
  | ddSketch (lib : DDSketchLib S C)

namespace MatrixFamily

variable {S C : Type}

@[reducible] def Wrapper : MatrixFamily S C → Type
  | .countMin _ => CMSWrapper S C
  | .countSketch _ _ => CountSketchWrapper S C
  | .ddSketch _ => DDSketchWrapper S C

@[reducible] def lib : MatrixFamily S C → CellLib S C
  | .countMin lib => lib.toCellLib
  | .countSketch lib _ => lib.toCellLib
  | .ddSketch lib => lib.toCellLib

def core : (m : MatrixFamily S C) → m.Wrapper → GosState S C
  | .countMin _ => CMSWrapper.toGosState
  | .countSketch _ _ => CountSketchWrapper.toGosState
  | .ddSketch _ => DDSketchWrapper.toGosState

def msgpack : (m : MatrixFamily S C) → m.Wrapper → Bool
  | .countMin _ => CMSWrapper.useMsgpack
  | .countSketch _ _ => CountSketchWrapper.heapMsgpack
  | .ddSketch _ => fun _ => false

def cells (m : MatrixFamily S C) (w : m.Wrapper) : C → ℤ := m.lib.cells (m.core w).sk

def impl : (m : MatrixFamily S C) → m.Wrapper → SketchImpl m.Wrapper
  | .countMin lib => countMinFamily lib
  | .countSketch lib defaultKey => countSketchFamily lib defaultKey
  | .ddSketch lib => ddSketchFamily lib

end MatrixFamily

end AsapCollector.Sketches
