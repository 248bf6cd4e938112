import AsapCollector.Frame.Receiver
import AsapCollector.Lib.Run

/-! The frame protocol as one system: the channel offers the sealed frames of a `FrameSequencer` to one `FrameReceiver`
in some order, each any number of times. Frames are named by their place in the order of emission. -/

namespace AsapCollector

inductive SequencerCall where
  | next (plan : CollectorPlan) (rule : TransmissionRule) (producerEpoch seriesIdentity : Bytes)
      (windowStart windowEnd nowUnixMS : UInt64)
  | nextForEmission (plan : CollectorPlan) (rule : TransmissionRule) (producerEpoch : Bytes) (e : FrameEmission)
  | nextBatchForEmission (plan : CollectorPlan) (rule : TransmissionRule) (producerEpoch : Bytes)
      (es : List FrameEmission)

namespace SequencerCall

def plan : SequencerCall → CollectorPlan
  | next plan .. | nextForEmission plan .. | nextBatchForEmission plan .. => plan

def rule : SequencerCall → TransmissionRule
  | next _ rule .. | nextForEmission _ rule .. | nextBatchForEmission _ rule .. => rule

/-- What a decoded plan of a configured collector promises about a call: `DecodeCollectorPlan`
refuses a zero plan id, version or materialization, and the configuration of the control channel an
empty collector id, which `next` compares the producer with. -/
structure Planned (c : SequencerCall) : Prop where
  planID : c.plan.envelope.planID ≠ 0
  planVersion : c.plan.envelope.planVersion ≠ 0
  materialization : c.rule.materialization ≠ 0
  producerID : c.rule.producerID ≠ []

theorem planned_iff (c : SequencerCall) : c.Planned ↔ c.plan.envelope.planID ≠ 0 ∧
    c.plan.envelope.planVersion ≠ 0 ∧ c.rule.materialization ≠ 0 ∧ c.rule.producerID ≠ [] :=
  ⟨fun h => ⟨h.planID, h.planVersion, h.materialization, h.producerID⟩, fun ⟨h₁, h₂, h₃, h₄⟩ => ⟨h₁, h₂, h₃, h₄⟩⟩

instance (c : SequencerCall) : Decidable c.Planned := decidable_of_iff' _ c.planned_iff

end SequencerCall

namespace FrameSequencer

/-- The frames of one call; a call that fails gives none and changes nothing. -/
def call (s : FrameSequencer) : SequencerCall → FrameSequencer × List SummaryFrameIdentity
  | .next plan rule epoch series windowStart windowEnd now =>
    match s.next plan rule epoch series windowStart windowEnd now none with
    | .ok (s, f) => (s, [f])
    | .error _ => (s, [])
  | .nextForEmission plan rule epoch e =>
    match s.nextForEmission plan rule epoch e with
    | .ok (s, f) => (s, [f])
    | .error _ => (s, [])
  | .nextBatchForEmission plan rule epoch es =>
    match s.nextBatchForEmission plan rule epoch es with
    | .ok (s, fs) => (s, fs)
    | .error _ => (s, [])

def emitted (s : FrameSequencer) : List SequencerCall → List SummaryFrameIdentity
  | [] => []
  | c :: cs => (s.call c).2 ++ (s.call c).1.emitted cs

end FrameSequencer

/-- One offer of the frame emitted at place `index`, under the lineage limit then in force. -/
structure Offer (n : Nat) where
  index : Fin n
  limit : UInt64
  order : RangeOrder (FrameLineageKey × ReceivedFrameState) := RangeOrder.stored _

def sampleRule : TransmissionRule where
  materialization := 11
  producerID := str "edge-a"
  schemaID := str "schema"
  mode := .delta
  encoding := str "sketchlib_protobuf_v1"
  emitEveryMS := 1000
  fullCheckpointEveryMS := none
  destinationRef := str "backend"
  runtimePolicy :=
    { sampling := ⟨str "none", ⟨0⟩, []⟩, delta := none,
      adaptation := ⟨false, 0, 0, 0, none, none, none, none⟩ }

def samplePlan : CollectorPlan where
  collectorID := str "edge-a"
  envelope := ⟨7, 2, str "backend-v1"⟩
  transmissionRules := [sampleRule]

def sampleCall (series : Bytes) (full : Bool) : SequencerCall :=
  .nextForEmission samplePlan sampleRule (str "epoch-1") ⟨series, 0, 10, 1, full⟩

def sampleFrame (series : Bytes) : SummaryFrameIdentity :=
  (FrameSequencer.emit {} samplePlan sampleRule (str "epoch-1") series 0 10 1 true).2

def sampleFrames (fulls : List Bool) : List SummaryFrameIdentity :=
  FrameSequencer.emitted {} (fulls.map (sampleCall (str "a")))

def sampleLineage (series : Bytes) : FrameLineageKey := ⟨7, 2, 11, series, str "edge-a", str "epoch-1"⟩

namespace Channel

variable (frames : List SummaryFrameIdentity)

def lineageAt (i : Fin frames.length) : FrameLineageKey := (frames.get i).lineage

/-- The offers respect the order of each lineage, the state being the places offered before: when a
frame is offered, every earlier frame of its lineage has been offered and no later one has. -/
abbrev InOrder : List (Fin frames.length) → List (Offer frames.length) → Prop :=
  Always (fun seen o => o.index :: seen) fun seen o =>
    (∀ j < o.index, lineageAt frames j = lineageAt frames o.index → j ∈ seen) ∧
      ∀ j ∈ seen, lineageAt frames j = lineageAt frames o.index → j ≤ o.index

/-- No offer finds more lineages on offer so far, its own included, than its limit allows. -/
abbrev WithinLimit : List (Fin frames.length) → List (Offer frames.length) → Prop :=
  Always (fun seen o => o.index :: seen) fun seen o =>
    ((o.index :: seen).map (lineageAt frames)).dedup.length ≤ (FrameReceiver.effectiveLimit o.limit).toNat

variable (payload : Fin frames.length → Bytes)

/-- The delivery an offer makes: the frame sealed over its payload, applied when it is let through. -/
def delivery (o : Offer frames.length) : FrameReceiver.Delivery where
  envelope := (frames.get o.index).sealed (payload o.index)
  limit := o.limit
  order := o.order

def outcomes (r : FrameReceiver) : List (Offer frames.length) → List FrameReceiver.Outcome
  | [] => []
  | o :: os => (r.deliver (delivery frames payload o)).2 :: outcomes (r.deliver (delivery frames payload o)).1 os

end Channel

end AsapCollector
