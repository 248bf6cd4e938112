import AsapCollector.Lib.SliceSort
import AsapCollector.Cold.Fragment
import AsapCollector.Cold.Labels

/-! The finalizer of `asap-gorilla-go/fragment.go`, which collects fragments into a TSDB block, and `drainShardCold` of
`asapedgeprocessor/cold_encoder.go`. A block is known by the chunks of each series. -/

namespace AsapCollector

def sanitizePromLabelValue (v : Bytes) : Bytes := if v = [] then str "unknown" else v

variable (external : StringMap)

def SeriesId.labels (id : SeriesId) : Labels :=
  let named := Labels.setLabel StringMap.empty (str "__name__") (sanitizePromLabelValue id.metricName)
  let attributed := id.attrs.entries.foldl (fun ls e => Labels.setLabel ls e.1 e.2) named
  external.entries.foldl (fun ls e => Labels.setLabel ls e.1 e.2) attributed

structure ChunkMeta where
  data : Bytes
  minTime : Int
  maxTime : Int
deriving DecidableEq

/-- What the files of a `TSDBBlockArtifact` hold, and its statistics. -/
structure TSDBBlock where
  series : GoMap Labels (List ChunkMeta)
  minTime : Int
  maxTime : Int
  numSeries : Nat
  numSamples : Nat
  numChunks : Nat
  numOOODropped : Nat

structure FragmentBlockFinalizer where
  external : StringMap
  series : GoMap Labels (List ChunkMeta)
  minTime : Int
  maxTime : Int
  numSamples : Nat
  numChunks : Nat
  numOOODropped : Nat

namespace FragmentBlockFinalizer

def new (external : StringMap) : FragmentBlockFinalizer :=
  { external := external, series := ∅, minTime := maxInt64, maxTime := minInt64, numSamples := 0, numChunks := 0
    numOOODropped := 0 }

def chunkOf (fragment : Fragment) : ChunkMeta := ⟨fragment.data, fragment.minTime, fragment.maxTime⟩

variable (f : FragmentBlockFinalizer)

def addFragment (fragment : Fragment) : FragmentBlockFinalizer :=
  if fragment.count = 0 ∨ fragment.data = [] then f
  else
    let ls := fragment.labels f.external
    { f with
      series := f.series.insert ls (GoMap.get f.series [] ls ++ [chunkOf fragment])
      numSamples := f.numSamples + fragment.count
      numChunks := f.numChunks + 1
      numOOODropped := f.numOOODropped + fragment.oooDropCount
      minTime := min fragment.minTime f.minTime
      maxTime := max fragment.maxTime f.maxTime }

def addFragments (fragments : List Fragment) : FragmentBlockFinalizer :=
  fragments.foldl addFragment f

/-- The loop of `Finalize` over the sorted chunks of a series: a chunk that begins before the last one
kept has ended is discarded. -/
def keepChunks (lastMax : Int) : List ChunkMeta → List ChunkMeta
  | [] => []
  | chk :: chks => if chk.minTime ≤ lastMax then keepChunks lastMax chks else chk :: keepChunks chk.maxTime chks

variable (sort : SliceSort ChunkMeta.minTime)

def written (chunks : List ChunkMeta) : List ChunkMeta :=
  keepChunks minInt64 (sort.sort chunks)

def finalize : Option TSDBBlock :=
  if f.numSamples = 0 then none
  else
    let series := (f.series.map (written sort)).filter fun _ chunks => !chunks.isEmpty
    some
      { series := series, minTime := f.minTime, maxTime := f.maxTime, numSeries := series.len
        numSamples := f.numSamples, numChunks := f.numChunks
        numOOODropped := f.numOOODropped +
          (f.series.pairs.map fun e => e.2.length - (written sort e.2).length).sum }

end FragmentBlockFinalizer

def TSDBBlock.samples (xor : XorChunk) (block : TSDBBlock) (ls : Labels) : List Sample :=
  (GoMap.get block.series [] ls).flatMap fun chk => (xor.decode chk.data).getD []

structure ColdConfig where
  reorderGrace : Int
  source : Bytes

def newColdEncoder (cfg : ColdConfig) : StreamingFragmentEncoder :=
  .new { reorderGrace := cfg.reorderGrace, samplesPerChunk := 0, source := cfg.source, idleEvict := 0 }

/-- The cold tier of a shard: its encoder and the fragments it has shipped. The other fields only
record the run: the samples of the present encoder, those of the encoders already drained, and what
the drained encoders have counted as dropped. -/
structure ColdShard where
  cold : StreamingFragmentEncoder
  shipped : List Fragment
  current : List TSDBSample
  archived : List TSDBSample
  lost : List (SeriesId × Sample)

inductive ColdOp where
  | addSample (s : TSDBSample)
  | drainShardCold (ω : RangeOrder (Bytes × Nat))

namespace ColdShard

variable (xor : XorChunk) (cfg : ColdConfig)

def new : ColdShard := { cold := newColdEncoder cfg, shipped := [], current := [], archived := [], lost := [] }

def addSample (sh : ColdShard) (s : TSDBSample) : ColdShard :=
  { sh with cold := sh.cold.addSample xor s, current := sh.current ++ [s] }

def drainShardCold (sh : ColdShard) (ω : RangeOrder (Bytes × Nat)) : ColdShard :=
  let r := sh.cold.drain xor true ω
  { cold := newColdEncoder cfg
    shipped := sh.shipped ++ r.1
    current := []
    archived := sh.archived ++ sh.current
    lost := sh.lost ++ r.2.dropped }

def step (sh : ColdShard) : ColdOp → ColdShard
  | .addSample s => sh.addSample xor s
  | .drainShardCold ω => sh.drainShardCold xor cfg ω

def run (ops : List ColdOp) : ColdShard := ops.foldl (step xor cfg) (new cfg)

end ColdShard

def blockEntry (id : SeriesId) (p : Sample) : Labels × Sample := (id.labels external, p)

/-- Every sample that was added more often than it was counted as dropped is in the block, or another
sample of its label set with its timestamp is. -/
def Complete (xor : XorChunk) (external : StringMap) (sh : ColdShard) (block : Option TSDBBlock) : Prop :=
  ∀ s ∈ sh.archived,
    (sh.lost.map fun d => blockEntry external d.1 d.2).count (blockEntry external s.toSeriesId s.point) <
      (sh.archived.map fun a => blockEntry external a.toSeriesId a.point).count
        (blockEntry external s.toSeriesId s.point) →
    ∃ b ∈ block, ∃ s' ∈ sh.archived, s'.labels external = s.labels external ∧ s'.point.time = s.point.time ∧
      s'.point ∈ b.samples xor (s.labels external)

def blockOf (sort : SliceSort ChunkMeta.minTime) (fragments : List Fragment) : Option TSDBBlock :=
  ((FragmentBlockFinalizer.new external).addFragments fragments).finalize sort

end AsapCollector
