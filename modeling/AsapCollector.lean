import AsapCollector.Theorems.Frame.Recovery
import AsapCollector.Theorems.Series.Rehydration
import AsapCollector.Theorems.Sketches.MatrixGos
import AsapCollector.Theorems.Sketches.SumGos
import AsapCollector.Theorems.Precompute.Reconfigure
import AsapCollector.Theorems.Sketches.SumSwitch
import AsapCollector.Theorems.Control.Status
import AsapCollector.Theorems.Cold.ShipWorker
import AsapCollector.Theorems.Edge.Routing
import AsapCollector.Theorems.Control.PlanAgreement
import AsapCollector.Theorems.Cold.Eviction
import AsapCollector.Theorems.Cold.FragmentCodec
import AsapCollector.Theorems.Sdk.Recovery
import AsapCollector.Theorems.Series.Registration
import AsapCollector.Theorems.Otap.Codec
import AsapCollector.Theorems.Frame.SequencerRust
import AsapCollector.Theorems.Control.LifecycleRust
import AsapCollector.Theorems.Edge.Forward
import AsapCollector.Theorems.Edge.Ingest
import AsapCollector.Theorems.Precompute.Router
import AsapCollector.Theorems.Precompute.WindowRust
import AsapCollector.Theorems.Cold.PartSafety
import AsapCollector.Theorems.Cold.FragmentSafety
import AsapCollector.Theorems.Cold.SeriesIdentity
import AsapCollector.Theorems.Cold.SeriesKey
import AsapCollector.Theorems.Cold.BlockMeta
import AsapCollector.Theorems.Cold.ChunkSafety
import AsapCollector.Theorems.Precompute.EnvelopeErrors
import AsapCollector.Sdk.DeltaExport
import AsapCollector.Theorems.Sdk.DeltaExport
import AsapCollector.Sketches.Hll
import AsapCollector.Sketches.Kll
import AsapCollector.Theorems.Sketches.Hll
import AsapCollector.Theorems.Sketches.Kll
import AsapCollector.Theorems.Precompute.SeriesKey
import AsapCollector.Otap.Cancellation
import AsapCollector.Theorems.Frame.Batch
import AsapCollector.Theorems.Otap.Cancellation
import AsapCollector.Theorems.Sketches.SampleRate
import AsapCollector.Serf.Values
import AsapCollector.Theorems.Serf.Values

