import AsapCollector.Lib.Check
import AsapCollector.Lib.StringMap
import AsapCollector.Lib.Varint

/-! `asap-gorilla-go/fragment_codec.go`. A Go run-time panic is an outcome of its own, `DecodeError.panic`; the largest
allocation of the run time is a parameter. A `nil` map is the empty map, and `nil` data are the empty data. -/

namespace AsapCollector.FragmentCodec

structure Fragment where
  metricName : Bytes
  attributes : StringMap
  minTime : BitVec 64
  maxTime : BitVec 64
  count : BitVec 64
  encoding : Bytes
  data : Bytes
  oooDropCount : UInt64
  fragmentULID : Bytes
  source : Bytes
  watermarkTime : BitVec 64
deriving DecidableEq

def fragmentBatchMagic : Bytes := str "ASAPFRG1"

def fragmentBatchVersion : UInt8 := 1

def fragmentEncodingXOR : UInt8 := 0

def fragmentEncodingUnsupported : UInt8 := 0xFF

def appendCodecStr (s : Bytes) : Bytes := putUvarint s.length ++ s

def encodingByte (enc : Bytes) : UInt8 :=
  if enc = [] ∨ enc = str "xor" then fragmentEncodingXOR else fragmentEncodingUnsupported

def encodeLabels (es : List (Bytes × Bytes)) : Bytes := es.flatMap fun e => appendCodecStr e.1 ++ appendCodecStr e.2

def encodeFragment (f : Fragment) : Bytes :=
  appendCodecStr f.metricName ++ (putUvarint f.attributes.entries.length ++ (encodeLabels f.attributes.entries ++
    (putVarint f.minTime ++ (putVarint f.maxTime ++ (putUvarint f.count.toNat ++ ([encodingByte f.encoding] ++
      (appendCodecStr f.source ++ (putUvarint f.data.length ++ f.data))))))))

def encodeFragmentBatch (frags : List Fragment) : Bytes :=
  fragmentBatchMagic ++ ([fragmentBatchVersion] ++ (putUvarint frags.length ++ frags.flatMap encodeFragment))

inductive ReadError where
  | need (n left : Int)
  | endOfBuffer
  | invalidUvarint
  | invalidVarint
deriving DecidableEq

inductive Field where
  | metric
  | labelCount
  | labelName (j : Nat)
  | labelValue (j : Nat)
  | minTime
  | maxTime
  | count
  | encoding
  | source
  | dataLen
  | data
deriving DecidableEq

inductive DecodeError where
  | magic (err : ReadError)
  | badMagic (bytes : Bytes)
  | version (err : ReadError)
  | unsupportedVersion (ver : UInt8)
  | count (err : ReadError)
  | fragment (i : Nat) (field : Field) (err : ReadError)
  | unknownEncoding (i : Nat) (b : UInt8)
  | panic
deriving DecidableEq

def decimal (n : Int) : Bytes := (if n < 0 then str "-" else []) ++ Bytes.formatUint (UInt64.ofNat n.natAbs)

def ReadError.message : ReadError → Bytes
  | .need n left =>
    str "unexpected end of buffer (need " ++ decimal n ++ str ", have " ++ decimal left ++ str ")"
  | .endOfBuffer => str "unexpected end of buffer"
  | .invalidUvarint => str "invalid uvarint"
  | .invalidVarint => str "invalid varint"

def Field.text : Field → Bytes
  | .metric => str "metric"
  | .labelCount => str "label count"
  | .labelName j => str "label " ++ decimal j ++ str " name"
  | .labelValue j => str "label " ++ decimal j ++ str " value"
  | .minTime => str "min_time"
  | .maxTime => str "max_time"
  | .count => str "count"
  | .encoding => str "encoding"
  | .source => str "source"
  | .dataLen => str "data len"
  | .data => str "data"

/-- The texts of the errors, with the quoting of `%q`; a panic has none here. -/
def DecodeError.message (quote : Bytes → Bytes) : DecodeError → Bytes
  | .magic err => str "fragment batch: magic: " ++ err.message
  | .badMagic bytes => str "fragment batch: bad magic " ++ quote bytes
  | .version err => str "fragment batch: version: " ++ err.message
  | .unsupportedVersion ver => str "fragment batch: unsupported version " ++ decimal ver.toNat
  | .count err => str "fragment batch: count: " ++ err.message
  | .fragment i field err => str "fragment " ++ decimal i ++ str ": " ++ field.text ++ str ": " ++ err.message
  | .unknownEncoding i b => str "fragment " ++ decimal i ++ str ": unknown encoding byte " ++ decimal b.toNat
  | .panic => []

abbrev Read (α : Type) := Reader DecodeError α

/-- `codecReader.take(int(n))` in a frame of `total` bytes: from 2^63 on the conversion is negative, and a
position that wraps passes the check and makes the slice expression panic. -/
def take (total : Nat) (wrap : ReadError → DecodeError) (n : Nat) : Read Bytes := fun rest =>
  let pos := total - rest.length
  if 2 ^ 63 ≤ n then .error (wrap (.need (n - 2 ^ 64) (total - pos)))
  else if 2 ^ 63 ≤ pos + n then .error .panic
  else if total < pos + n then .error (wrap (.need n (total - pos)))
  else .ok (rest.take n, rest.drop n)

def readStr (total : Nat) (wrap : ReadError → DecodeError) : Read Bytes := do
  let l ← readUvarint (wrap .invalidUvarint)
  take total wrap l

def encodingString (i : Nat) (b : UInt8) : Read Bytes :=
  if b = fragmentEncodingXOR then return str "xor" else throw (.unknownEncoding i b)

def decodeLabels (total i : Nat) : Nat → Nat → StringMap → Read StringMap
  | 0, _, attributes => return attributes
  | n + 1, j, attributes => do
    let k ← readStr total (.fragment i (.labelName j))
    let v ← readStr total (.fragment i (.labelValue j))
    decodeLabels total i n (j + 1) (attributes.set k v)

def decodeFragment (total i : Nat) : Read Fragment := do
  let metricName ← readStr total (.fragment i .metric)
  let nl ← readUvarint (.fragment i .labelCount .invalidUvarint)
  let attributes ← decodeLabels total i nl 0 StringMap.empty
  let minTime ← readVarint (.fragment i .minTime .invalidVarint)
  let maxTime ← readVarint (.fragment i .maxTime .invalidVarint)
  let cnt ← readUvarint (.fragment i .count .invalidUvarint)
  let encB ← Reader.u8 (.fragment i .encoding .endOfBuffer)
  let encoding ← encodingString i encB
  let source ← readStr total (.fragment i .source)
  let dl ← readUvarint (.fragment i .dataLen .invalidUvarint)
  let data ← take total (.fragment i .data) dl
  return ⟨metricName, attributes, minTime, maxTime, BitVec.ofNat 64 cnt, encoding, data, 0, [], source, 0⟩

def decodeFragments (total : Nat) : Nat → Nat → Read (List Fragment)
  | 0, _ => return []
  | n + 1, i => do
    let f ← decodeFragment total i
    let frags ← decodeFragments total n (i + 1)
    return f :: frags

def checkMagic (magic : Bytes) : Except DecodeError Unit :=
  check (decide (magic ≠ fragmentBatchMagic)) (.badMagic magic)

def checkVersion (ver : UInt8) : Except DecodeError Unit :=
  check (decide (ver ≠ fragmentBatchVersion)) (.unsupportedVersion ver)

def fragmentSize : Nat := 136

def makeFragments (maxAlloc n : Nat) : Except DecodeError Unit := check (decide (maxAlloc < n * fragmentSize)) .panic

def readBatch (maxAlloc total : Nat) : Read (List Fragment) := do
  let magic ← take total .magic fragmentBatchMagic.length
  checkMagic magic
  let ver ← Reader.u8 (.version .endOfBuffer)
  checkVersion ver
  let n ← readUvarint (.count .invalidUvarint)
  makeFragments maxAlloc n
  decodeFragments total n 0

def decodeFragmentBatch (maxAlloc : Nat) (b : Bytes) : Except DecodeError (List Fragment) := do
  let frags ← (readBatch maxAlloc b.length).run b
  return frags.1

end AsapCollector.FragmentCodec
