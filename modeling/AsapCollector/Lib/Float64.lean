import Mathlib.Data.UInt
import Mathlib.Data.Nat.Log

/-! A Go `float64` is its IEEE-754 bit pattern. Go's `==` is not equality of patterns: a NaN equals nothing, and the two
zeros are equal. Arithmetic is exact on ratios of naturals and rounds once, to nearest with ties to even. -/

namespace AsapCollector

/-- A Go `float64`, by its bit pattern (`math.Float64bits`). -/
structure Float64 where
  bits : UInt64
deriving DecidableEq, Repr

namespace Float64

variable (x : Float64)

def isNaN : Bool := x.bits &&& 0x7fffffffffffffff > 0x7ff0000000000000

def isInf : Bool := x.bits &&& 0x7fffffffffffffff = 0x7ff0000000000000

def isZero : Bool := x.bits &&& 0x7fffffffffffffff = 0

variable (y : Float64)

def eq : Bool := !x.isNaN && !y.isNaN && (x.bits == y.bits || (x.isZero && y.isZero))

def sign : Bool := 2 ^ 63 ≤ x.bits.toNat

/-- The pattern without its sign; larger patterns are larger numbers. -/
def magnitude : Nat := x.bits.toNat % 2 ^ 63

/-- A finite `x` is `± mantissa x * 2 ^ exponent x`. -/
def mantissa : Nat :=
  if x.magnitude < 2 ^ 52 then x.magnitude else 2 ^ 52 + x.magnitude % 2 ^ 52

def exponent : Int :=
  if x.magnitude < 2 ^ 52 then -1074 else (x.magnitude / 2 ^ 52 : Nat) - 1075

def ofMagnitude (s : Bool) (m : Nat) : Float64 := ⟨UInt64.ofNat (if s then m + 2 ^ 63 else m)⟩

def nan : Float64 := ⟨0x7ff8000000000001⟩

def inf (s : Bool) : Float64 := ofMagnitude s 0x7ff0000000000000

/-- `n / d` to the nearest natural, ties to even. -/
def divRound (n d : Nat) : Nat :=
  let q := n / d
  let r := n % d
  if d < 2 * r ∨ (d = 2 * r ∧ q % 2 = 1) then q + 1 else q

/-- `n / (d * 2 ^ e)` as a ratio of naturals. -/
def scaled (n d : Nat) (e : Int) : Nat × Nat :=
  if 0 ≤ e then (n, d * 2 ^ e.toNat) else (n * 2 ^ (-e).toNat, d)

/-- The exponent at which `n / d` has a mantissa of 53 bits, or the least exponent there is. -/
def ratioExponent (n d : Nat) : Int :=
  let e : Int := n.log2 - d.log2 - 52
  let (n', d') := scaled n d e
  max (if n' / d' < 2 ^ 52 then e - 1 else e) (-1074)

def ofRatio (s : Bool) (n d : Nat) : Float64 :=
  if n = 0 then ofMagnitude s 0
  else
    let e := ratioExponent n d
    let (n', d') := scaled n d e
    -- a mantissa that rounds up to 2 ^ 53 carries into the exponent field
    let m := (e + 1074).toNat * 2 ^ 52 + divRound n' d'
    if m < 0x7ff0000000000000 then ofMagnitude s m else inf s

def mul : Float64 :=
  let s := x.sign ^^ y.sign
  if x.isNaN || y.isNaN then nan
  else if x.isInf || y.isInf then if x.isZero || y.isZero then nan else inf s
  else
    let (n, d) := scaled (x.mantissa * y.mantissa) 1 (-(x.exponent + y.exponent))
    ofRatio s n d

def div : Float64 :=
  let s := x.sign ^^ y.sign
  if x.isNaN || y.isNaN then nan
  else if x.isInf then if y.isInf then nan else inf s
  else if y.isInf then ofMagnitude s 0
  else if y.isZero then if x.isZero then nan else inf s
  else
    let (n, d) := scaled x.mantissa y.mantissa (y.exponent - x.exponent)
    ofRatio s n d

/-- A finite value in units of `2 ^ e`, for `e` at most its exponent. -/
def inUnits (e : Int) : Int :=
  let m : Int := x.mantissa * 2 ^ (x.exponent - e).toNat
  if x.sign then -m else m

def add : Float64 :=
  if x.isNaN || y.isNaN then nan
  else if x.isInf then if y.isInf && x.sign != y.sign then nan else x
  else if y.isInf then y
  else
    let e := min x.exponent y.exponent
    let v := x.inUnits e + y.inUnits e
    if v = 0 then ofMagnitude (x.sign && y.sign) 0
    else
      let (n, d) := scaled v.natAbs 1 (-e)
      ofRatio (v < 0) n d

def sub : Float64 := x.add ⟨y.bits ^^^ 0x8000000000000000⟩

def abs : Float64 := ⟨x.bits &&& 0x7fffffffffffffff⟩

def lt : Bool :=
  let key (z : Float64) : Int := if z.sign then -z.magnitude else z.magnitude
  !x.isNaN && !y.isNaN && key x < key y

def le : Bool := x.lt y || x.eq y

def ofInt (i : Int) : Float64 := ofRatio (i < 0) i.natAbs 1

/-- `math.Round`: to the nearest integer, halves away from zero. -/
def round : Float64 :=
  if x.isNaN || x.isInf || 0 ≤ x.exponent then x
  else
    let k := (-x.exponent).toNat
    ofRatio x.sign ((x.mantissa + 2 ^ (k - 1)) / 2 ^ k) 1

/-- A finite value without its fraction. -/
def trunc : Int :=
  let m : Nat := if 0 ≤ x.exponent then x.mantissa * 2 ^ x.exponent.toNat else x.mantissa / 2 ^ (-x.exponent).toNat
  if x.sign then -m else m

/-- `int64(x)`. What a value outside the range of `int64` gives is up to the implementation. -/
def toInt64 (overflow : Float64 → BitVec 64) (x : Float64) : BitVec 64 :=
  if !x.isNaN && !x.isInf && decide (-2 ^ 63 ≤ x.trunc ∧ x.trunc < 2 ^ 63) then BitVec.ofInt 64 x.trunc else overflow x

/-- `uint64(math.Ceil(x))` for a positive value. What one beyond the range of `uint64` gives is up to the
implementation. -/
def ceilUint64 (overflow : Float64 → UInt64) (x : Float64) : UInt64 :=
  let n : Nat := if 0 ≤ x.exponent then x.mantissa * 2 ^ x.exponent.toNat
    else (x.mantissa + 2 ^ (-x.exponent).toNat - 1) / 2 ^ (-x.exponent).toNat
  if n < 2 ^ 64 then UInt64.ofNat n else overflow x

end Float64

end AsapCollector
