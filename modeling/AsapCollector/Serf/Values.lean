import AsapCollector.Cold.IntChunk
import AsapCollector.Lib.Bits

/-! The value streams of the Serf exporter and receiver: `exporter/serfexporter/encoder.go`,
`receiver/serfreceiver/decoder.go` and the `bitreader.go` beside it. -/

namespace AsapCollector.Serf

open List (replicate)

inductive SerfError where
  | eof
  | invalidCenterBits
deriving DecidableEq

/-- A call of a `bitReader`, over the bits that are left before its `length`. -/
abbrev BitReader := StateT (List Bool) (Except SerfError)

def readBit : BitReader Bool := fun
  | [] => .error .eof
  | bit :: bits => .ok (bit, bits)

def readBitsLoop : Nat → BitVec 64 → BitReader (BitVec 64)
  | 0, result => return result
  | n + 1, result => do
    let bit ← readBit
    readBitsLoop n (result <<< 1 ||| (if bit then 1 else 0))

def readBits (n : Nat) : BitReader (BitVec 64) := readBitsLoop n 0

def eliasGammaEncode (n : BitVec 64) : List Bool :=
  let n := if n = 0 then 1 else n
  let k := IntChunk.len64 n - 1
  replicate k false ++ bitsOf (k + 1) n.toNat

/-- The loop of `eliasGammaDecode`: the zeros before the first one, which is read too. -/
def readZeros : List Bool → Except SerfError (Nat × List Bool)
  | [] => .error .eof
  | true :: bits => .ok (0, bits)
  | false :: bits => (readZeros bits).map fun (k, rest) => (k + 1, rest)

def eliasGammaDecode : BitReader (BitVec 64) := do
  let k ← readZeros
  if k = 0 then return 1
  let rest ← readBits k
  return (1 : BitVec 64) <<< k ||| rest

/-- What `push` of a `serfQtValueEncoder` writes for its step `q`. -/
def writeStep (q : BitVec 64) : List Bool := eliasGammaEncode (zigzag q + 1)

/-- The step that `decodeQtValue` reads. -/
def readStep : BitReader (BitVec 64) := do
  let n ← eliasGammaDecode
  return unzigzag (n - 1)

def leadingZeros64 (x : BitVec 64) : Nat := 64 - IntChunk.len64 x

def trailingZeros64 (x : BitVec 64) : Nat := ((List.range 64).find? x.getLsbD).getD 64

def serfLeadingRound : List Nat :=
  replicate 8 0 ++ replicate 4 8 ++ replicate 4 12 ++ [16, 16, 18, 18, 20, 20, 22, 22] ++ replicate 40 24

def serfLeadingRepresentation : List Nat :=
  replicate 8 0 ++ replicate 4 1 ++ replicate 4 2 ++ [3, 3, 4, 4, 5, 5, 6, 6] ++ replicate 40 7

def serfTrailingRound : List Nat :=
  replicate 22 0 ++ replicate 6 22 ++ replicate 4 28 ++ replicate 4 32 ++ replicate 4 36 ++ [40, 40] ++
    replicate 4 42 ++ replicate 18 46

def serfTrailingRepresentation : List Nat :=
  replicate 22 0 ++ replicate 6 1 ++ replicate 4 2 ++ replicate 4 3 ++ replicate 4 4 ++ [5, 5] ++ replicate 4 6 ++
    replicate 18 7

structure Window where
  leading : Nat
  trailing : Nat

def Window.centerBits (w : Window) : Nat := 64 - w.leading - w.trailing

def Window.round (xor : BitVec 64) : Window :=
  ⟨serfLeadingRound.getD (leadingZeros64 xor) 0, serfTrailingRound.getD (trailingZeros64 xor) 0⟩

/-- `compressValue` with the stored value and window: the window it leaves and the bits it writes. -/
def compressValue (storedVal : BitVec 64) (w : Window) (thisVal : BitVec 64) : Window × List Bool :=
  let xor := storedVal ^^^ thisVal
  let new := Window.round xor
  if xor = 0 then (w, bitsOf 2 0b01)
  else if w.leading ≤ new.leading ∧ w.trailing ≤ new.trailing ∧
      new.leading - w.leading + (new.trailing - w.trailing) < 1 + 3 + 3 then
    (w, true :: bitsOf w.centerBits (xor >>> w.trailing).toNat)
  else
    (new, bitsOf 2 0b00 ++ bitsOf 3 (serfLeadingRepresentation.getD (leadingZeros64 xor) 0) ++
      bitsOf 3 (serfTrailingRepresentation.getD (trailingZeros64 xor) 0) ++
        bitsOf new.centerBits (xor >>> new.trailing).toNat)

/-- The window of `newSerfValEncoder`, which no value can reuse. -/
def Window.unset : Window := ⟨65, 65⟩

def compressValues : BitVec 64 → Window → List (BitVec 64) → List Bool
  | _, _, [] => []
  | storedVal, w, v :: vs => (compressValue storedVal w v).2 ++ compressValues v (compressValue storedVal w v).1 vs

/-- The windows whose centre bits are written. -/
def windows : BitVec 64 → Window → List (BitVec 64) → List Window
  | _, _, [] => []
  | storedVal, w, v :: vs =>
    let w' := (compressValue storedVal w v).1
    if v = storedVal then windows v w' vs else w' :: windows v w' vs

/-- What a `bitReader` finds of `bytes()`: the bits are padded to bytes, and their number is a `uint32`. -/
def readable (bits : List Bool) : List Bool :=
  let padded := bits ++ replicate ((8 - bits.length % 8) % 8) false
  padded.take (padded.length % 2 ^ 32)

def xorLeadingRepr : List Nat := [0, 8, 12, 16, 18, 20, 22, 24]

def xorTrailingRepr : List Nat := [0, 22, 28, 32, 36, 40, 42, 46]

/-- The value whose difference is in the centre bits. -/
def readCenter (storedVal : BitVec 64) (w : Window) : BitReader (BitVec 64 × Window) := do
  let center ← readBits w.centerBits
  return (storedVal ^^^ center <<< w.trailing, w)

def decodeXORValue (storedVal : BitVec 64) (w : Window) : BitReader (BitVec 64 × Window) := do
  if ← readBit then
    if w.centerBits = 0 then return (storedVal, w) else readCenter storedVal w
  else if ← readBit then
    return (storedVal, w)
  else
    let leadCode ← readBits 3
    let trailCode ← readBits 3
    let new : Window := ⟨xorLeadingRepr.getD leadCode.toNat 0, xorTrailingRepr.getD trailCode.toNat 0⟩
    if new.centerBits = 0 then throw .invalidCenterBits else readCenter storedVal new

def decodeXORValues (storedVal : BitVec 64) (w : Window) : Nat → BitReader (List (BitVec 64))
  | 0 => return []
  | n + 1 => do
    let (v, w') ← decodeXORValue storedVal w
    let vs ← decodeXORValues v w' n
    return v :: vs

/-- `decodeValues` in xor mode, of which the count is not zero. -/
def decodeValues (firstValBits : BitVec 64) (data : List Bool) (count : Nat) : Except SerfError (List (BitVec 64)) := do
  let (vs, _) ← (decodeXORValues firstValBits ⟨0, 0⟩ (count - 1)).run data
  return firstValBits :: vs

end AsapCollector.Serf
