import AsapCollector.Lib.SliceSort
import AsapCollector.Sketches.Matrix

/-! `sketches/hll.go`: the wrapper of the HyperLogLog of `sketchlib-go`, which is a parameter. Under GOS the wrapper
keeps the value that each register last reported, and the registers that have moved far enough since; a register is
never reset. -/

namespace AsapCollector.Sketches

structure RegisterUpdate where
  index : UInt32
  value : UInt8
deriving DecidableEq

structure HllLib (S : Type) where
  /-- `NewHyperLogLog`, or `NewSparseHyperLogLog`. -/
  new : Bool → S
  withSampleP : S → Float64 → S
  hash : Bytes → UInt64
  updateValue : S → Float64 → S
  insertWithHash : S → UInt64 → S
  /-- The insertions that report the register they changed, with its new value. -/
  updateValueReportingChange : S → Float64 → S × Option RegisterUpdate
  insertWithHashReportingChange : S → UInt64 → S × Option RegisterUpdate
  merge : S → S → Except String S
  encode : S → Except String Bytes
  decode : Bytes → Except String S
  computeRegisterDelta : S → S → List RegisterUpdate
  encodeDelta : List RegisterUpdate → Except String Bytes
  decodeDelta : Bytes → Except String (List RegisterUpdate)
  applyDelta : S → List RegisterUpdate → S
  /-- `uint` of a `float64` beyond its range. -/
  overflow : Float64 → UInt64

structure HLLWrapper (S : Type) where
  sk : S
  sampleP : Float64 := Float64.ofInt 1
  sparse : Bool := false
  gosTau : Float64 := ⟨0⟩
  gosLastSent : GoMap UInt32 UInt8 := ∅
  gosDirty : List RegisterUpdate := []
  gosWake : Bool := false

namespace HLLWrapper

def powerOfTwo (n : Nat) : UInt64 := if n < 64 then UInt64.ofNat (2 ^ n) else 0

section
variable {S : Type} (lib : HllLib S)

def crossingThreshold (tau : Float64) : UInt64 :=
  if Float64.lt ⟨0⟩ tau then
    powerOfTwo (if !tau.isInf && decide (tau.trunc < 2 ^ 64) then tau.trunc.toNat else (lib.overflow tau).toNat)
  else 1

def gosRegisterCrossed (last cur : UInt8) (tau : Float64) : Bool :=
  if cur ≤ last then false
  else if last = 0 then true
  else crossingThreshold lib tau ≤ powerOfTwo cur.toNat - powerOfTwo last.toNat

variable (w : HLLWrapper S)

def newSketch : S :=
  if Float64.lt ⟨0⟩ w.sampleP && w.sampleP.lt (Float64.ofInt 1) then lib.withSampleP (lib.new w.sparse) w.sampleP
  else lib.new w.sparse

def new (sparse : Bool) : HLLWrapper S := { sk := lib.new sparse, sparse }

def setGosMode (tau : Float64) : HLLWrapper S := { w with gosTau := tau }

def gos : Bool := Float64.lt ⟨0⟩ w.gosTau

def recordGosCrossing (changed : RegisterUpdate) : HLLWrapper S :=
  if gosRegisterCrossed lib (w.gosLastSent.get 0 changed.index) changed.value w.gosTau then
    { w with
      gosLastSent := w.gosLastSent.insert changed.index changed.value
      gosWake := w.gosWake || w.gosDirty.isEmpty
      gosDirty := w.gosDirty ++ [changed] }
  else w

/-- An insertion under GOS: the register it changed, if any, may cross. -/
def reportChange (inserted : S × Option RegisterUpdate) : HLLWrapper S :=
  match inserted with
  | (sk, none) => { w with sk }
  | (sk, some changed) => { w with sk }.recordGosCrossing lib changed

def updateValue (v : Float64) : HLLWrapper S :=
  if w.gos then w.reportChange lib (lib.updateValueReportingChange w.sk v) else { w with sk := lib.updateValue w.sk v }

def updateBytes (b : Bytes) : HLLWrapper S :=
  if b.isEmpty then w
  else if w.gos then w.reportChange lib (lib.insertWithHashReportingChange w.sk (lib.hash b))
  else { w with sk := lib.insertWithHash w.sk (lib.hash b) }

def snapshot : Except String Bytes := lib.encode w.sk

def latest (dirty : List RegisterUpdate) : GoMap UInt32 UInt8 := dirty.foldl (fun m u => m.insert u.index u.value) ∅

/-- The registers of `drainGosDelta`: each dirty one once, in ascending order. -/
def latestUpdates (dirty : List RegisterUpdate) : List RegisterUpdate :=
  (SliceSort.stable fun u : RegisterUpdate => u.index.toNat).sort ((latest dirty).pairs.map fun e => ⟨e.1, e.2⟩)

def drainGosDelta : HLLWrapper S × Except String (Option Bytes × Bool) :=
  if w.gosDirty.isEmpty then (w, .ok (none, false))
  else ({ w with gosDirty := [] }, clampDelta (w.snapshot lib) (lib.encodeDelta (latestUpdates w.gosDirty)))

def diff (prev : Bytes) : Except String Bytes := do
  let prev ← lib.decode prev
  lib.encodeDelta (lib.computeRegisterDelta prev w.sk)

def computeDeltaAgainst (prev : Bytes) : HLLWrapper S × Except String (Option Bytes × Bool) :=
  if w.gos then w.drainGosDelta lib
  else if prev.isEmpty then (w, asFull (w.snapshot lib))
  else (w, clampDelta (w.snapshot lib) (w.diff lib prev))

def merge (other : S) : HLLWrapper S × Option String :=
  match lib.merge w.sk other with
  | .error e => (w, some e)
  | .ok sk => ({ w with sk }, none)

def applyDelta (payload : Bytes) : HLLWrapper S × Option String :=
  if payload.isEmpty then (w, none)
  else
    match lib.decode payload, lib.decodeDelta payload with
    | .ok other, _ => w.merge lib other
    | .error _, .ok delta => ({ w with sk := lib.applyDelta w.sk delta }, none)
    | .error _, .error _ => (w, some "HLLWrapper: payload is neither a full proto state nor a register delta")

def reset : HLLWrapper S :=
  { w with sk := w.newSketch lib, gosLastSent := ∅, gosDirty := [], gosWake := false }

end

end HLLWrapper

inductive HllCall (S : Type)
  | updateValue (v : Float64)
  | updateBytes (b : Bytes)
  | merge (other : S)
  | applyDelta (payload : Bytes)
  | computeDelta (prev : Bytes)

/-- A wrapper, and the payloads that its deltas have shipped so far, each with whether it is whole. -/
structure HllSession (S : Type) where
  w : HLLWrapper S
  shipped : List (Bytes × Bool) := []

namespace HllSession

variable {S : Type} (lib : HllLib S)

def step (s : HllSession S) : HllCall S → HllSession S
  | .updateValue v => { s with w := s.w.updateValue lib v }
  | .updateBytes b => { s with w := s.w.updateBytes lib b }
  | .merge other => { s with w := (s.w.merge lib other).1 }
  | .applyDelta payload => { s with w := (s.w.applyDelta lib payload).1 }
  | .computeDelta prev =>
    match s.w.computeDeltaAgainst lib prev with
    | (w, .ok (some payload, isFull)) => { w, shipped := s.shipped ++ [(payload, isFull)] }
    | (w, _) => { s with w }

def run (s : HllSession S) (calls : List (HllCall S)) : HllSession S := calls.foldl (step lib) s

end HllSession

end AsapCollector.Sketches
