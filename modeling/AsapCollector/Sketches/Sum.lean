import AsapCollector.Lib.FixedInt
import AsapCollector.Precompute.SnapshotCache

/-! `sketches/sum.go` without its wake signal. `SumFormat` says how numbers are compared and written:
`SumFormat.float64` is the format of the source, and `SumFormat.exact` computes with rationals and integers in its
place. -/

namespace AsapCollector.Sketches

structure SumFormat (R N : Type) where
  abs : R → R
  lt : R → R → Bool
  le : R → R → Bool
  isZero : R → Bool
  ofFloat64 : Float64 → R
  toFloat64 : R → Float64
  text : Float64 → String
  encode : R → N → Bytes
  /-- What a payload holds; `none` for one shorter than `sumPayloadLen`. -/
  decode : Bytes → Option (R × N)

structure SumWrapper (R N : Type) where
  sum : R
  count : N
  gosEpsilon : R
  gosSites : UInt32 := 0
  gosSinceCrossSum : R
  gosSinceCrossCount : N
  gosReadySum : R
  gosReadyCount : N

def sumPayloadLen : Nat := 16

namespace SumWrapper

section
variable {R N : Type} [Zero R] [Add R] [Sub R] [Mul R] [Div R] [NatCast R]
variable [Zero N] [One N] [Add N] [Sub N] [DecidableEq N] (A : SumFormat R N)

def new : SumWrapper R N where
  sum := 0
  count := 0
  gosEpsilon := 0
  gosSinceCrossSum := 0
  gosSinceCrossCount := 0
  gosReadySum := 0
  gosReadyCount := 0

variable (w : SumWrapper R N)

def setGosMode (epsilon : Float64) (sites : UInt32) : SumWrapper R N :=
  { w with gosEpsilon := A.ofFloat64 epsilon, gosSites := sites }

def isotropicThreshold (epsilon n : R) (k : UInt32) : R := epsilon * n / ((max 1 k.toNat : Nat) : R)

def cross : SumWrapper R N :=
  { w with
    gosReadySum := w.gosReadySum + w.gosSinceCrossSum
    gosReadyCount := w.gosReadyCount + w.gosSinceCrossCount
    gosSinceCrossSum := 0
    gosSinceCrossCount := 0 }

def update (v : R) : SumWrapper R N :=
  let w := { w with sum := w.sum + v, count := w.count + 1 }
  if A.le w.gosEpsilon 0 then w
  else
    let w := { w with
      gosSinceCrossSum := w.gosSinceCrossSum + v
      gosSinceCrossCount := w.gosSinceCrossCount + 1 }
    if A.lt (A.abs w.gosSinceCrossSum) (isotropicThreshold w.gosEpsilon (A.abs w.sum) w.gosSites) then w else w.cross

def applyAdmittedOccurrence (v : Float64) (admittedRows : UInt64) (sampleP : Float64) :
    SumWrapper R N × Option String :=
  if admittedRows ≠ 1 then
    (w, some ("SumWrapper: admitted_rows must be 1 for a one-row aggregate, got 0x" ++
      String.ofList (Nat.toDigits 16 admittedRows.toNat)))
  else if sampleP.le ⟨0⟩ || (Float64.ofInt 1).lt sampleP || sampleP.isNaN then
    (w, some ("SumWrapper: sample_p must be in (0,1], got " ++ A.text sampleP))
  else (w.update A (A.ofFloat64 v / A.ofFloat64 sampleP), none)

def kindText : ObservationValueKind → String
  | .float => "Float"
  | .hash => "Hash"
  | .bytes => "Bytes"
  | .envelope => "Envelope"

def observe (v : ObservationValue) : SumWrapper R N × Option String :=
  match v.kind with
  | .float =>
    if v.rowSampled then w.applyAdmittedOccurrence A v.float v.admittedRows v.sampleP
    else (w.update A (A.ofFloat64 v.float), none)
  | kind => (w, some ("SumObserver: unsupported value kind " ++ kindText kind))

def drainGosDelta : SumWrapper R N × Option Bytes :=
  if w.gosReadyCount = 0 then (w, none)
  else ({ w with gosReadySum := 0, gosReadyCount := 0 }, some (A.encode w.gosReadySum w.gosReadyCount))

def snapshot : Option Bytes :=
  if w.count = 0 then none
  else if A.lt 0 w.gosEpsilon then some (A.encode (w.sum - w.gosReadySum) (w.count - w.gosReadyCount))
  else some (A.encode w.sum w.count)

def computeDeltaAgainst (prev : Bytes) : SumWrapper R N × Option Bytes :=
  if A.lt 0 w.gosEpsilon then w.drainGosDelta A
  else
    let (prevSum, prevCount) := (A.decode prev).getD (0, 0)
    let (dSum, dCount) := (w.sum - prevSum, w.count - prevCount)
    (w, if A.isZero dSum && dCount = 0 then none else some (A.encode dSum dCount))

def applyDelta (payload : Bytes) : SumWrapper R N × Option String :=
  if payload.length = 0 then (w, none)
  else
    match A.decode payload with
    | none => (w, some s!"sum.ApplyDelta: payload too short ({payload.length} bytes, want {sumPayloadLen})")
    | some (sum, count) => ({ w with sum := w.sum + sum, count := w.count + count }, none)

def merge (other : SumWrapper R N) : SumWrapper R N :=
  { w with sum := w.sum + other.sum, count := w.count + other.count }

def reset : SumWrapper R N :=
  { (new : SumWrapper R N) with gosEpsilon := w.gosEpsilon, gosSites := w.gosSites }

end

end SumWrapper

/-- The Sum family; `factory` makes the aggregate of a new series. -/
def sumFamily {R N : Type} [Zero R] [Add R] [Sub R] [Mul R] [Div R] [NatCast R] [Zero N] [One N] [Add N] [Sub N]
    [DecidableEq N] (A : SumFormat R N) (factory : SumWrapper R N) : SketchImpl (SumWrapper R N) where
  factory
  observe w v := w.observe A v
  snapshot w := .ok (w.snapshot A)
  computeDeltaAgainst w prev _ :=
    let (w, payload) := w.computeDeltaAgainst A prev
    (w, .ok (payload, false))
  applyDelta w payload := w.applyDelta A payload
  merge w other := (w.merge other, none)
  reset w := w.reset
  deltaAgainstEmptyBase _ := .ok (some (List.replicate sumPayloadLen 0))
  setGosMode w epsilon sites := (sites.map (w.setGosMode A epsilon)).getD w
  sum w := some (A.toFloat64 w.sum)

instance : Zero Float64 := ⟨⟨0⟩⟩
instance : Add Float64 := ⟨Float64.add⟩
instance : Sub Float64 := ⟨Float64.sub⟩
instance : Mul Float64 := ⟨Float64.mul⟩
instance : Div Float64 := ⟨Float64.div⟩
instance : NatCast Float64 := ⟨fun n => Float64.ofInt n⟩

/-- The format of the source: the bits of the sum and the count, eight bytes each, lowest byte first. -/
def SumFormat.float64 (text : Float64 → String) : SumFormat Float64 UInt64 where
  abs := Float64.abs
  lt := Float64.lt
  le := Float64.le
  isZero x := x.eq ⟨0⟩
  ofFloat64 := id
  toFloat64 := id
  text
  encode sum count := littleEndian 8 sum.bits.toNat ++ littleEndian 8 count.toNat
  decode payload :=
    if payload.length < sumPayloadLen then none
    else some (⟨UInt64.ofNat (ofLittleEndian (payload.take 8))⟩,
      UInt64.ofNat (ofLittleEndian ((payload.drop 8).take 8)))

/-- How rationals stand in for `float64`, and integers for `uint64`: where a value comes in, where one goes
out, and a payload that loses nothing. -/
structure RationalWire where
  ofFloat64 : Float64 → ℚ
  toFloat64 : ℚ → Float64
  text : Float64 → String
  encode : ℚ → ℤ → Bytes
  decode : Bytes → Option (ℚ × ℤ)
  decode_encode : ∀ sum count, decode (encode sum count) = some (sum, count)
  decode_zero : decode (List.replicate sumPayloadLen 0) = some (0, 0)
  decode_short : ∀ payload, payload.length < sumPayloadLen → decode payload = none

def SumFormat.exact (W : RationalWire) : SumFormat ℚ ℤ where
  abs x := |x|
  lt x y := x < y
  le x y := x ≤ y
  isZero x := x = 0
  ofFloat64 := W.ofFloat64
  toFloat64 := W.toFloat64
  text := W.text
  encode := W.encode
  decode := W.decode

end AsapCollector.Sketches
