import AsapCollector.Lib.SliceSort
import AsapCollector.Lib.FixedInt
import AsapCollector.Cold.BestOfN
import AsapCollector.Cold.Labels

/-! `asap-gorilla-go/coldpart/coldpart.go`. Offsets and lengths are numbers that wrap at 64 bits where the source's
wrap. A Go run-time panic is an outcome of its own, `PartError.panic`. The checksum of `hash/crc32` and the largest
allocation of the run time are parameters. -/

namespace AsapCollector.ColdPart

inductive PartError where
  | short
  | badMagic
  | badVersion (version : UInt8)
  | badCRC
  | indexOffPastFooter (indexOff footerOff : Nat)
  | indexLenOverruns (indexLen : Nat)
  | symtabMismatch (indexEnd symtabOff : Nat)
  | symtabPastFooter (symtabOff footerOff : Nat)
  | corrupt
  | symbolRef
  | chunkRun
  | chunkLengthSum (sum len : Nat)
  | noSamples (i : Nat)
  | badTimeRange
  | encodeSeries (i : Nat) (err : CodecError)
  | decodeChunk (err : CodecError)
  | decodeChunks (err : CodecError)
  | panic
deriving DecidableEq

def decimal (n : Nat) : Bytes := Bytes.formatUint (UInt64.ofNat n)

/-- The texts of the errors; a panic has none here. -/
def PartError.message : PartError → Bytes
  | .short => str "coldpart: buffer too short"
  | .badMagic => str "coldpart: bad magic"
  | .badVersion version => str "coldpart: unsupported version: " ++ decimal version.toNat
  | .badCRC => str "coldpart: crc32c mismatch"
  | .indexOffPastFooter indexOff footerOff =>
    str "coldpart: corrupt part: index_off " ++ decimal indexOff ++ str " past footer " ++ decimal footerOff
  | .indexLenOverruns indexLen => str "coldpart: corrupt part: index_len " ++ decimal indexLen ++ str " overruns region"
  | .symtabMismatch indexEnd symtabOff =>
    str "coldpart: corrupt part: index_off+index_len " ++ decimal indexEnd ++ str " != symtab_off " ++ decimal symtabOff
  | .symtabPastFooter symtabOff footerOff =>
    str "coldpart: corrupt part: symtab_off " ++ decimal symtabOff ++ str " past footer " ++ decimal footerOff
  | .corrupt => str "coldpart: corrupt part"
  | .symbolRef => str "coldpart: corrupt part: symbol ref out of range"
  | .chunkRun => str "coldpart: corrupt part: chunk run out of range"
  | .chunkLengthSum sum len =>
    str "coldpart: corrupt part: chunk length sum " ++ decimal sum ++ str " != run length " ++ decimal len
  | .noSamples i => str "coldpart: series has no samples: series " ++ decimal i
  | .badTimeRange => str "coldpart: block_end_ms < block_start_ms"
  | .encodeSeries i err => str "coldpart: encode series " ++ decimal i ++ str ": " ++ err.message
  | .decodeChunk err => str "coldpart: decode chunk: " ++ err.message
  | .decodeChunks err => str "coldpart: decode chunks: " ++ err.message
  | .panic => []

def magic : Bytes := str "ASAPCC1"

def version : UInt8 := 1

def footerLen : Nat := 8 + 8 + 8 + 4

structure Series where
  labels : Labels
  samples : List Sample
deriving DecidableEq

variable (syms : List Bytes)

/-- `symbolTable.intern`; a symbol's ordinal is its position. -/
def intern (s : Bytes) : List Bytes := if s ∈ syms then syms else syms ++ [s]

/-- `symbolTable.ref`: a symbol that is not there has the zero value of the map. -/
def ref (s : Bytes) : Nat := if s ∈ syms then syms.idxOf s else 0

def internLabels (ls : Labels) : List Bytes :=
  ls.entries.foldl (fun syms l => intern (intern syms l.1) l.2) syms

def symbolTable (series : List Series) : List Bytes := series.foldl (fun syms s => internLabels syms s.labels) []

structure IdxEntry where
  labelRefs : List Nat
  chunkOff : Nat
  chunkLen : Nat
  chunkLens : List Nat
  minTS : BitVec 64
  maxTS : BitVec 64

def newEntry (off : Nat) (s : Series) (chunks : List Bytes) : IdxEntry :=
  { labelRefs := s.labels.entries.flatMap fun l => [ref syms l.1, ref syms l.2]
    chunkOff := off
    chunkLen := chunks.flatten.length % 2 ^ 32
    chunkLens := chunks.map List.length
    minTS := (s.samples.head?.map Sample.t).getD 0
    maxTS := (s.samples.getLast?.map Sample.t).getD 0 }

def u32Bytes (v : Nat) : Bytes := littleEndian 4 v

def u64Bytes (v : Nat) : Bytes := littleEndian 8 v

def i64Bytes (v : BitVec 64) : Bytes := u64Bytes v.toNat

variable (blockStartMs blockEndMs : BitVec 64)

def headerBytes (seriesCount : Nat) : Bytes :=
  magic ++ ([version] ++ (i64Bytes blockStartMs ++ (i64Bytes blockEndMs ++ putUvarint seriesCount)))

def entryBytes (chunksStart : Nat) (e : IdxEntry) : Bytes :=
  putUvarint (e.labelRefs.length / 2) ++ (e.labelRefs.flatMap putUvarint ++ (u64Bytes (chunksStart + e.chunkOff) ++
    (u32Bytes e.chunkLen ++ (putUvarint e.chunkLens.length ++ (e.chunkLens.flatMap putUvarint ++
      (i64Bytes e.minTS ++ i64Bytes e.maxTS))))))

def symtabBytes : Bytes :=
  putUvarint syms.length ++ syms.flatMap fun s => putUvarint s.length ++ s

variable (xor : XorChunk) (overflow : Float64 → BitVec 64) (crc32c : Bytes → UInt32) (maxAlloc : Nat)

def encodeSeries (syms : List Bytes) : Nat → Bytes → List Series → Except PartError (Bytes × List IdxEntry)
  | _, region, [] => .ok (region, [])
  | i, region, s :: series =>
    match IntChunk.encode xor overflow s.samples with
    | .error err => .error (.encodeSeries i err)
    | .ok res =>
      (encodeSeries syms (i + 1) (region ++ res.chunks.flatten) series).map fun r =>
        (r.1, newEntry syms region.length s res.chunks :: r.2)

/-- What the checksum covers: the whole part but for the checksum. -/
def body (seriesCount : Nat) (syms : List Bytes) (region : Bytes)
    (entries : List IdxEntry) : Bytes :=
  let header := headerBytes blockStartMs blockEndMs seriesCount
  let index := entries.flatMap (entryBytes header.length)
  let indexOff := header.length + region.length
  header ++ (region ++ (index ++ (symtabBytes syms ++
    (u64Bytes indexOff ++ (u64Bytes index.length ++ u64Bytes (indexOff + index.length))))))

def withChecksum (body : Bytes) : Bytes := body ++ u32Bytes (crc32c body).toNat

def writePart (sort : SliceSort fun s : Series => s.labels.order) (blockStartMs blockEndMs : BitVec 64)
    (series : List Series) : Except PartError Bytes :=
  if blockEndMs.toInt < blockStartMs.toInt then .error .badTimeRange
  else
    let sorted := sort.sort series
    match sorted.findIdx? fun s => s.samples.isEmpty with
    | some i => .error (.noSamples i)
    | none =>
      let syms := symbolTable sorted
      (encodeSeries xor overflow syms 0 [] sorted).map fun r =>
        withChecksum crc32c (body blockStartMs blockEndMs sorted.length syms r.1 r.2)

structure IndexSeries where
  lbls : Labels
  chunkOff : Nat
  chunkLen : Nat
  chunkLens : List Nat
  minTS : BitVec 64
  maxTS : BitVec 64
deriving DecidableEq

structure Part where
  version : UInt8
  blockStartMs : BitVec 64
  blockEndMs : BitVec 64
  buf : Bytes
  symbols : List Bytes
  series : List IndexSeries
deriving DecidableEq

abbrev Read (α : Type) := Reader PartError α

def readU32 : Read Nat := do
  let bytes ← readBytes .short 4
  return ofLittleEndian bytes

def readU64 : Read Nat := do
  let bytes ← readBytes .short 8
  return ofLittleEndian bytes

def readI64 : Read (BitVec 64) := do
  let v ← readU64
  return BitVec.ofNat 64 v

def readUvarint : Read Nat := AsapCollector.readUvarint .corrupt

variable (total : Nat)

/-- `take(int(n))` in a buffer of `total` bytes: from 2^63 on the conversion is negative, and a position
that wraps passes the check and makes the slice expression panic. -/
def take (n : Nat) : Read Bytes := fun rest =>
  let pos := total - rest.length
  if 2 ^ 63 ≤ n then .error .short
  else if 2 ^ 63 ≤ pos + n then .error .panic
  else if total < pos + n then .error .short
  else .ok (rest.take n, rest.drop n)

/-- `make` with a capacity of `n` elements of a size. -/
def makeCap (size n : Nat) : Read Unit := if maxAlloc < n * size then throw .panic else return ()

structure Header where
  version : UInt8
  blockStartMs : BitVec 64
  blockEndMs : BitVec 64
  seriesCount : Nat

def readHeader : Read Header := do
  let ver ← Reader.u8 .short
  if ver ≠ version then throw (.badVersion ver)
  let blockStart ← readI64
  let blockEnd ← readI64
  let seriesCount ← readUvarint
  return ⟨ver, blockStart, blockEnd, seriesCount⟩

structure Footer where
  indexOff : Nat
  indexLen : Nat
  symtabOff : Nat

def readFooter : Read Footer := do
  let indexOff ← readU64
  let indexLen ← readU64
  let symtabOff ← readU64
  return ⟨indexOff, indexLen, symtabOff⟩

def checkFooter (f : Footer) (footerOff : Nat) : Except PartError Unit :=
  if footerOff < f.indexOff then .error (.indexOffPastFooter f.indexOff footerOff)
  else if footerOff - f.indexOff < f.indexLen then .error (.indexLenOverruns f.indexLen)
  else if f.indexOff + f.indexLen ≠ f.symtabOff then .error (.symtabMismatch (f.indexOff + f.indexLen) f.symtabOff)
  else if footerOff < f.symtabOff then .error (.symtabPastFooter f.symtabOff footerOff)
  else .ok ()

def readSymbol : Read Bytes := do
  let n ← readUvarint
  take total n

/-- The symbol table; a string header takes 16 bytes. -/
def readSymbols : Read (List Bytes) := do
  let symCount ← readUvarint
  makeCap maxAlloc 16 symCount
  Reader.times (readSymbol total) symCount

/-- The labels of an index entry, set in a builder one after the other. -/
def readLabels (symbols : List Bytes) : Nat → Labels → Read Labels
  | 0, ls => return ls
  | n + 1, ls => do
    let nameRef ← readUvarint
    let valRef ← readUvarint
    match symbols[nameRef]?, symbols[valRef]? with
    | some name, some value => readLabels symbols n (ls.setLabel name value)
    | _, _ => throw .symbolRef

def checkEntry (s : IndexSeries) : Except PartError Unit :=
  if total < (s.chunkOff + s.chunkLen) % 2 ^ 64 then .error .chunkRun
  else if s.chunkLens.sum % 2 ^ 64 ≠ s.chunkLen then .error (.chunkLengthSum (s.chunkLens.sum % 2 ^ 64) s.chunkLen)
  else .ok ()

variable (symbols : List Bytes)

def readIndexSeries : Read IndexSeries := do
  let nLabels ← readUvarint
  let lbls ← readLabels symbols nLabels StringMap.empty
  let chunkOff ← readU64
  let chunkLen ← readU32
  let chunkCount ← readUvarint
  makeCap maxAlloc 8 chunkCount
  let chunkLens ← Reader.times readUvarint chunkCount
  let minTS ← readI64
  let maxTS ← readI64
  checkEntry total ⟨lbls, chunkOff, chunkLen, chunkLens, minTS, maxTS⟩
  return ⟨lbls, chunkOff, chunkLen, chunkLens, minTS, maxTS⟩

/-- An entry takes 80 bytes of memory, 24 of them for `labels.Labels`, a slice. -/
def readIndex (seriesCount : Nat) : Read (List IndexSeries) := do
  makeCap maxAlloc 80 seriesCount
  Reader.times (readIndexSeries maxAlloc total symbols) seriesCount

/-- `Open` of a buffer with the right magic and checksum. -/
def openIntact (b : Bytes) : Except PartError Part := do
  let header ← readHeader.run (b.drop magic.length)
  let footerOff := b.length - footerLen
  let footer ← readFooter.run (b.drop footerOff)
  checkFooter footer.1 footerOff
  let symbols ← (readSymbols maxAlloc b.length).run (b.drop footer.1.symtabOff)
  let series ← (readIndex maxAlloc b.length symbols.1 header.1.seriesCount).run (b.drop footer.1.indexOff)
  return ⟨header.1.version, header.1.blockStartMs, header.1.blockEndMs, b, symbols.1, series.1⟩

def openPart (b : Bytes) : Except PartError Part := do
  if b.length < magic.length + 1 + 8 + 8 + 1 + footerLen then throw .short
  if b.take magic.length ≠ magic then throw .badMagic
  if (crc32c (b.take (b.length - 4))).toNat ≠ ofLittleEndian (b.drop (b.length - 4)) then throw .badCRC
  openIntact maxAlloc b

/-- `splitChunks`, from an offset on: `run` reaches to the end of the buffer, as its capacity does. -/
def splitChunks (run : Bytes) : Nat → List Nat → Except PartError (List Bytes)
  | _, [] => .ok []
  | off, l :: lens =>
    let high := (off + l) % 2 ^ 64
    if high < off ∨ run.length < high then .error .panic
    else (splitChunks run high lens).map fun chunks => (run.drop off).take l :: chunks

def decodeSeries (p : Part) (s : IndexSeries) : Except PartError (List Sample) :=
  let high := (s.chunkOff + s.chunkLen) % 2 ^ 64
  if high < s.chunkOff ∨ p.buf.length < high then .error .panic
  else
    let run := p.buf.drop s.chunkOff
    if s.chunkLens.length ≤ 1 then (IntChunk.decodeChunk xor (run.take s.chunkLen)).mapError .decodeChunk
    else do
      let chunks ← splitChunks run 0 s.chunkLens
      (IntChunk.decodeChunks xor chunks).mapError .decodeChunks

/-- `MatchesAll`; a nil matcher is skipped. -/
def matchesAll (ls : Labels) (matchers : List (Option Matcher)) : Bool :=
  matchers.all fun m => m.all fun m => m.isMatch (ls.getLabel m.name)

def Part.seriesLabels (p : Part) : List Labels := p.series.map IndexSeries.lbls

def Part.query (p : Part) (matchers : List (Option Matcher)) (mintMs maxtMs : BitVec 64) :
    Except PartError (List Series) :=
  (p.series.filter fun s =>
    !(decide (maxtMs.toInt < s.minTS.toInt) || decide (s.maxTS.toInt < mintMs.toInt)) &&
      matchesAll s.lbls matchers).mapM
    fun s => (decodeSeries xor p s).map fun samples => ⟨s.lbls, samples⟩

end AsapCollector.ColdPart
