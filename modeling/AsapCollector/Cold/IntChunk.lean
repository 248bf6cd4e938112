import AsapCollector.Lib.Float64
import AsapCollector.Lib.Varint

/-! `intchunk/codec.go`, `intchunk/scale.go` and `intchunk/intchunk.go`. `int64` and `uint64` are `BitVec 64`, whose
arithmetic wraps like Go's. -/

namespace AsapCollector

structure Sample where
  t : BitVec 64
  v : Float64
deriving DecidableEq

inductive CodecTag where
  | gorillaXOR
  | intForDelta
  | intForDoD
  | intForDeltaVarint
  | intForDoDVarint
deriving DecidableEq

inductive CodecError where
  | empty
  | corruptChunk
  | badCodecTag
deriving DecidableEq

namespace CodecError

def message : CodecError → Bytes
  | .empty => str "intchunk: no samples"
  | .corruptChunk => str "intchunk: corrupt chunk"
  | .badCodecTag => str "intchunk: unknown codec tag"

end CodecError

namespace CodecTag

def toByte : CodecTag → UInt8
  | .gorillaXOR => 0
  | .intForDelta => 1
  | .intForDoD => 2
  | .intForDeltaVarint => 3
  | .intForDoDVarint => 4

def ofByte (b : UInt8) : Option CodecTag :=
  if b = 0 then some .gorillaXOR
  else if b = 1 then some .intForDelta
  else if b = 2 then some .intForDoD
  else if b = 3 then some .intForDeltaVarint
  else if b = 4 then some .intForDoDVarint
  else none

end CodecTag

namespace IntChunk

def maxResidualWidth : Nat := 56

def maxScaleExp : Nat := 15

abbrev Read (α : Type) := Reader CodecError α

def u8 : Read UInt8 := Reader.u8 .corruptChunk

def uvarint : Read Nat := readUvarint .corruptChunk

def varint : Read (BitVec 64) := readVarint .corruptChunk

def len64 (u : BitVec 64) : Nat := if u.toNat = 0 then 0 else u.toNat.log2 + 1

def bitPackWidth (us : List (BitVec 64)) : Nat := len64 (us.foldl (fun m u => if m < u then u else m) 0)

/-- The inner loop of `packBits`: the whole bytes among the lowest `nbits` bits of `cur`, and how many
bits are left. The first argument bounds the rounds. -/
def flush (cur : Nat) : Nat → Nat → Bytes × Nat
  | 0, nbits => ([], nbits)
  | fuel + 1, nbits =>
    if 8 ≤ nbits then
      let (out, left) := flush cur fuel (nbits - 8)
      (UInt8.ofNat (cur >>> (nbits - 8)) :: out, left)
    else ([], nbits)

def packLoop (width : Nat) (cur nbits : Nat) : List (BitVec 64) → Bytes
  | [] => if 0 < nbits then [UInt8.ofNat (cur <<< (8 - nbits))] else []
  | u :: us =>
    let cur := (cur <<< width ||| u.toNat % 2 ^ width) % 2 ^ 64
    let (out, nbits) := flush cur (nbits + width) (nbits + width)
    out ++ packLoop width cur nbits us

def packBits (us : List (BitVec 64)) (width : Nat) : Bytes := if width = 0 then [] else packLoop width 0 0 us

/-- The inner loop of `unpackBits`: read bytes until there are `width` bits. -/
def fill (width cur nbits : Nat) : Bytes → Option (Nat × Nat × Bytes)
  | [] => if nbits < width then none else some (cur, nbits, [])
  | b :: src =>
    if nbits < width then fill width ((cur <<< 8 ||| b.toNat) % 2 ^ 64) (nbits + 8) src else some (cur, nbits, b :: src)

def unpackLoop (width : Nat) : Nat → Nat → Nat → Bytes → Except CodecError (List (BitVec 64))
  | 0, _, _, _ => .ok []
  | n + 1, cur, nbits, src =>
    match fill width cur nbits src with
    | none => .error .corruptChunk
    | some (cur, nbits, src) => do
      let us ← unpackLoop width n cur (nbits - width) src
      return BitVec.ofNat 64 ((cur >>> (nbits - width)) % 2 ^ width) :: us

def unpackBits (src : Bytes) (n width : Nat) : Except CodecError (List (BitVec 64)) :=
  if width = 0 then .ok (List.replicate n 0) else unpackLoop width n 0 0 src

def deltas (prev : BitVec 64) : List (BitVec 64) → List (BitVec 64)
  | [] => []
  | x :: xs => (x - prev) :: deltas x xs

def dods (prev prevDelta : BitVec 64) : List (BitVec 64) → List (BitVec 64)
  | [] => []
  | x :: xs => (x - prev - prevDelta) :: dods x (x - prev) xs

def undeltas (prev : BitVec 64) : List (BitVec 64) → List (BitVec 64)
  | [] => []
  | d :: ds => (prev + d) :: undeltas (prev + d) ds

def undods (prev prevDelta : BitVec 64) : List (BitVec 64) → List (BitVec 64)
  | [] => []
  | d :: ds => (prev + (prevDelta + d)) :: undods (prev + (prevDelta + d)) (prevDelta + d) ds

def encodeTimestamps : List (BitVec 64) → Bytes
  | [] => []
  | [t0] => putVarint t0
  | t0 :: t1 :: ts => putVarint t0 ++ (putVarint (t1 - t0) ++ (dods t1 (t1 - t0) ts).flatMap putVarint)

/-- `decodeTimestamps`; it reads its varints one by one and adds them up as it goes. -/
def decodeTimestamps : Nat → Read (List (BitVec 64))
  | 0 => return []
  | 1 => do
    let t0 ← varint
    return [t0]
  | n + 2 => do
    let t0 ← varint
    let delta ← varint
    let ds ← Reader.times varint n
    return t0 :: (t0 + delta) :: undods (t0 + delta) delta ds

def residualFits (v : BitVec 64) : Bool := len64 (zigzag v) ≤ maxResidualWidth

variable (dod : Bool)

def intResiduals : List (BitVec 64) → Option (BitVec 64 × BitVec 64 × List (BitVec 64))
  | [] => none
  | [a] => some (a, 0, [])
  | a :: b :: rest =>
    let residuals := if dod then dods b (b - a) rest else deltas b rest
    if residualFits (b - a) && residuals.all residualFits then some (a, b - a, residuals) else none

def reconstructInts (base firstResidual : BitVec 64) (residuals : List (BitVec 64)) (n : Nat) (dod : Bool) :
    List (BitVec 64) :=
  if n = 1 then [base]
  else
    let next := base + firstResidual
    base :: next :: (if dod then undods next firstResidual residuals else undeltas next residuals)

def pow10 (e : Nat) : Float64 := Float64.ofInt (10 ^ e)

/-- `pow10Abs`, with its loop for exponents outside the table. -/
def pow10Abs (e : Int) : Float64 :=
  if 0 ≤ e ∧ e ≤ maxScaleExp then pow10 e.toNat
  else (List.replicate e.toNat (pow10 1)).foldl Float64.mul (pow10 0)

/-- `float64(i) / 10^e`, what the decoder makes of an integer and the guard compares with. -/
def unscale (factor : Float64) (i : BitVec 64) : Float64 := (Float64.ofInt i.toInt).div factor

def scaleValue (overflow : Float64 → BitVec 64) (e : Nat) (v : Float64) : Option (BitVec 64) :=
  let r := (v.mul (pow10 e)).round
  if (Float64.ofInt (2 ^ 63 - 1)).lt r || r.lt (Float64.ofInt (-2 ^ 63)) then none
  else
    let iv := r.toInt64 overflow
    if (unscale (pow10 e) iv).eq v then some iv else none

/-- `tryScaleToInt64`: the first exponent at which every value comes back. -/
def tryScaleToInt64 (overflow : Float64 → BitVec 64) (vals : List Float64) : Option (Nat × List (BitVec 64)) :=
  if vals.any fun v => v.isNaN || v.isInf then none
  else (List.range (maxScaleExp + 1)).findSome? fun e => (vals.mapM (scaleValue overflow e)).map fun ints => (e, ints)

inductive BodyFormat where
  | fixed
  | varint
deriving DecidableEq

def codecTagFor (body : BodyFormat) : CodecTag :=
  match dod, body with
  | false, .fixed => .intForDelta
  | true, .fixed => .intForDoD
  | false, .varint => .intForDeltaVarint
  | true, .varint => .intForDoDVarint

def encodeBody (residuals : List (BitVec 64)) : BodyFormat → Bytes
  | .varint => residuals.flatMap putVarint
  | .fixed =>
    let zz := residuals.map zigzag
    UInt8.ofNat (bitPackWidth zz) :: packBits zz (bitPackWidth zz)

def encodeIntChunk (samples : List Sample) (scaleExp : Nat) (ints : List (BitVec 64)) (dod : Bool)
    (body : BodyFormat) : Option Bytes :=
  (intResiduals dod ints).map fun (base, firstResidual, residuals) =>
    [(codecTagFor dod body).toByte] ++ (putUvarint samples.length ++ (encodeTimestamps (samples.map Sample.t) ++
      ([UInt8.ofNat scaleExp] ++ (putVarint base ++ (putVarint firstResidual ++ encodeBody residuals body)))))

/-- The packed residuals as `decodeIntChunk` reads them: it unpacks them from what is left of the
buffer, then advances past them. -/
def decodePacked (n width : Nat) : Read (List (BitVec 64)) := fun rest => do
  let zz ← unpackBits rest n width
  let packedBytes := (n * width + 7) / 8
  if rest.length < packedBytes then .error .corruptChunk else .ok (zz.map unzigzag, rest.drop packedBytes)

def decodeBody (n : Nat) : BodyFormat → Read (List (BitVec 64))
  | .varint => Reader.times varint n
  | .fixed => do
    let width ← u8
    decodePacked n width.toNat

def decodeIntChunk (body : BodyFormat) : Read (List Sample) := do
  let n ← uvarint
  let ts ← decodeTimestamps n
  let rawExp ← u8
  let base ← varint
  let firstResidual ← varint
  let residuals ← decodeBody (n - 2) body
  let ints := reconstructInts base firstResidual residuals n dod
  return List.zipWith (fun t i => ⟨t, unscale (pow10Abs rawExp.toBitVec.toInt) i⟩) ts ints

/-- The loop of `findCutEnd` for first differences, at the index `i`. -/
def cutDelta (prev : BitVec 64) (i : Nat) : List (BitVec 64) → Nat
  | [] => i
  | x :: xs => if residualFits (x - prev) then cutDelta x (i + 1) xs else i

def cutDod (prev prevDelta : BitVec 64) (i : Nat) : List (BitVec 64) → Nat
  | [] => i
  | x :: xs => if residualFits (x - prev - prevDelta) then cutDod x (x - prev) (i + 1) xs else i

def findCutEnd : List (BitVec 64) → Nat
  | [] => 0
  | [_] => 1
  | a :: b :: rest =>
    if dod then if residualFits (b - a) then cutDod b (b - a) 2 rest else 1 else cutDelta a 1 (b :: rest)

/-- The loop of `encodeIntChunks`; every round takes at least one sample, so as many rounds as there are
samples are enough. -/
def cutChunks (scaleExp : Nat) (dod : Bool) (body : BodyFormat) :
    Nat → List Sample → List (BitVec 64) → Option (List Bytes)
  | _, [], _ => some []
  | 0, _ :: _, _ => none
  | fuel + 1, samples, ints => do
    let k := findCutEnd dod ints
    let chunk ← encodeIntChunk (samples.take k) scaleExp (ints.take k) dod body
    let chunks ← cutChunks scaleExp dod body fuel (samples.drop k) (ints.drop k)
    return chunk :: chunks

def encodeIntChunks (samples : List Sample) (scaleExp : Nat) (ints : List (BitVec 64)) (dod : Bool)
    (body : BodyFormat) : Option (List Bytes) :=
  if samples = [] then none else cutChunks scaleExp dod body samples.length samples ints

end IntChunk

end AsapCollector
