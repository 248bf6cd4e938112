import AsapCollector.Cold.IntChunk

/-! `intchunk/gorilla.go` and `intchunk/bestofn.go`. The XOR chunk is that of `prometheus/tsdb/chunkenc`, which is not
part of the repository, so it is a parameter. -/

namespace AsapCollector

/-- A `chunkenc.XORChunk`: the bytes after appending samples, and the samples an iterator over such
bytes yields before it ends without an error. -/
structure XorChunk where
  encode : List Sample → Bytes
  decode : Bytes → Option (List Sample)

/-- `xorChunkMaxSamples`: the chunk counts its samples in a `uint16`. -/
def xorChunkMaxSamples : Nat := 2 ^ 16

def XorChunk.Lossless (xor : XorChunk) : Prop :=
  ∀ samples, samples.length < xorChunkMaxSamples → xor.decode (xor.encode samples) = some samples

namespace IntChunk

structure Candidate where
  tag : CodecTag
  chunks : List Bytes
deriving DecidableEq

def Candidate.bytes (c : Candidate) : Nat := (c.chunks.map List.length).sum

variable (xor : XorChunk) (overflow : Float64 → BitVec 64)

variable (samples : List Sample)

def encodeGorillaChunk : Option Bytes :=
  if samples = [] ∨ xorChunkMaxSamples ≤ samples.length then none
  else some ([CodecTag.gorillaXOR.toByte] ++ (putUvarint samples.length ++ xor.encode samples))

def readXor : Read (List Sample) := fun rest =>
  match xor.decode rest with
  | some samples => .ok (samples, rest)
  | none => .error .corruptChunk

/-- `decodeGorillaChunk`, after the tag; the count it reads only sizes a slice. -/
def decodeGorillaChunk : Read (List Sample) := do
  let _ ← uvarint
  readXor xor

def intCandidates : List Candidate :=
  match tryScaleToInt64 overflow (samples.map Sample.v) with
  | none => []
  | some (scaleExp, ints) =>
    [(false, BodyFormat.fixed), (true, .fixed), (false, .varint), (true, .varint)].filterMap fun (dod, body) =>
      (encodeIntChunks samples scaleExp ints dod body).map fun chunks => ⟨codecTagFor dod body, chunks⟩

def gorillaCandidate : Option Candidate :=
  (encodeGorillaChunk xor samples).map fun chunk => ⟨.gorillaXOR, [chunk]⟩

def candidates : List Candidate :=
  intCandidates overflow samples ++ (gorillaCandidate xor samples).toList

/-- The loop of `Encode` over the candidates: the first of the smallest. -/
def smallest (best : Candidate) (cands : List Candidate) : Candidate :=
  cands.foldl (fun best c => if c.bytes < best.bytes then c else best) best

def encode : Except CodecError Candidate :=
  if samples = [] then .error .empty
  else
    match candidates xor overflow samples with
    | [] => .error .empty
    | c :: cands => .ok (smallest c cands)

def decodeTagged : CodecTag → Read (List Sample)
  | .gorillaXOR => decodeGorillaChunk xor
  | .intForDelta => decodeIntChunk false .fixed
  | .intForDoD => decodeIntChunk true .fixed
  | .intForDeltaVarint => decodeIntChunk false .varint
  | .intForDoDVarint => decodeIntChunk true .varint

def decodeChunk (chunk : Bytes) : Except CodecError (List Sample) := do
  let (tagByte, rest) ← u8.run chunk
  match CodecTag.ofByte tagByte with
  | none => throw .badCodecTag
  | some tag =>
    let (samples, _) ← (decodeTagged xor tag).run rest
    return samples

def decodeChunks (chunks : List Bytes) : Except CodecError (List Sample) := do
  let samples ← chunks.mapM (decodeChunk xor)
  return samples.flatten

namespace Runtime

inductive ChunkError where
  | codec (err : CodecError)
  | panic
deriving DecidableEq

abbrev Read (α : Type) := Reader ChunkError α

/-- A reader of `byteReader`, which checks the position before it reads. -/
def plain {α : Type} (r : IntChunk.Read α) : Read α := fun rest => (r.run rest).mapError .codec

variable (maxAlloc : Nat)

/-- `make` of a slice with `n` elements, where `n` was a `uint64` before it became an `int`. -/
def makeSlice (size n : Nat) : Read Unit := if n < 2 ^ 63 ∧ n * size ≤ maxAlloc then return () else throw .panic

def storeResiduals (n : Nat) (us : List (BitVec 64)) : Read (List (BitVec 64)) :=
  if us.length ≤ n then return us else throw .panic

def decodeBody (n : Nat) : BodyFormat → Read (List (BitVec 64))
  | .varint => plain (Reader.times varint n)
  | .fixed => do
    let width ← plain u8
    makeSlice maxAlloc 8 n
    -- the bytes of the packed residuals are counted in an `int`; no slice as long as `n` makes that number wrap
    let us ← plain (decodePacked n width.toNat)
    storeResiduals n us

/-- The last loop of `decodeIntChunk`, over `ts[i]` and `ints[i]`. -/
def fillSamples (factor : Float64) : Nat → List (BitVec 64) → List (BitVec 64) → Except ChunkError (List Sample)
  | 0, _, _ => .ok []
  | n + 1, t :: ts, i :: ints => do
    let out ← fillSamples factor n ts ints
    return ⟨t, unscale factor i⟩ :: out
  | _ + 1, _, _ => .error .panic

def decodeIntChunk (dod : Bool) (body : BodyFormat) : Read (List Sample) := do
  let n ← plain uvarint
  makeSlice maxAlloc 8 n
  let ts ← plain (decodeTimestamps n)
  let rawExp ← plain u8
  let base ← plain varint
  let firstResidual ← plain varint
  makeSlice maxAlloc 8 (n - 2)
  let residuals ← decodeBody maxAlloc (n - 2) body
  makeSlice maxAlloc 8 n
  let ints := reconstructInts base firstResidual residuals n dod
  makeSlice maxAlloc 16 n
  fillSamples (pow10Abs rawExp.toBitVec.toInt) n ts ints

/-- `chunkenc.FromData` does not fail for the encoding `EncXOR`, so that `make` comes before the samples are read. -/
def decodeGorillaChunk : Read (List Sample) := do
  let n ← plain uvarint
  makeSlice maxAlloc 16 n
  plain (readXor xor)

def decodeTagged : CodecTag → Read (List Sample)
  | .gorillaXOR => decodeGorillaChunk xor maxAlloc
  | .intForDelta => decodeIntChunk maxAlloc false .fixed
  | .intForDoD => decodeIntChunk maxAlloc true .fixed
  | .intForDeltaVarint => decodeIntChunk maxAlloc false .varint
  | .intForDoDVarint => decodeIntChunk maxAlloc true .varint

def decodeChunk (chunk : Bytes) : Except ChunkError (List Sample) := do
  let (tagByte, rest) ← (plain u8).run chunk
  match CodecTag.ofByte tagByte with
  | none => throw (.codec .badCodecTag)
  | some tag =>
    let (samples, _) ← (decodeTagged xor maxAlloc tag).run rest
    return samples

end Runtime

end IntChunk

end AsapCollector
