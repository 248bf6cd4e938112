import AsapCollector.Control.PlanRust
import AsapCollector.Frame.Identity

/-! `frame_identity.rs` of `asap-precompute-rs`. A lineage has the same fields in both languages. -/

namespace AsapCollector.Control.Rust

structure SummaryFrameIdentity where
  identityVersion : UInt32
  planID : UInt64
  planVersion : UInt64
  backendCompat : Bytes
  materialization : UInt64
  seriesIdentity : Bytes
  schemaID : Bytes
  producerID : Bytes
  producerEpoch : Bytes
  windowStartUnixNano : UInt64
  windowEndUnixNano : UInt64
  sequence : UInt64
  kind : FrameKind
  encoding : StateEncoding
  checkpointID : Option Bytes
  baseCheckpointID : Option Bytes

def StateEncoding.text : StateEncoding → Bytes
  | .sketchlibProtobufV1 => str "sketchlib_protobuf_v1"
  | .sketchCoreMsgpackV1 => str "sketch_core_msgpack_v1"
  | .exactAccumulatorV1 => str "exact_accumulator_v1"

def insertSome (attrs : GoMap Bytes Bytes) (name : Bytes) : Option Bytes → GoMap Bytes Bytes
  | some value => attrs.insert name value
  | none => attrs

def SummaryFrameIdentity.otlpAttributes (f : SummaryFrameIdentity) : GoMap Bytes Bytes :=
  let attrs := (∅ : GoMap Bytes Bytes)
    |>.insert (str "asap.frame.identity_version") (Bytes.formatUint f.identityVersion.toUInt64)
    |>.insert (str "asap.frame.plan_id") (Bytes.formatUint f.planID)
    |>.insert (str "asap.frame.plan_version") (Bytes.formatUint f.planVersion)
    |>.insert (str "asap.frame.backend_compat") f.backendCompat
    |>.insert (str "asap.frame.materialization") (Bytes.formatUint f.materialization)
    |>.insert (str "asap.frame.series_identity") f.seriesIdentity
    |>.insert (str "asap.frame.schema_id") f.schemaID
    |>.insert (str "asap.frame.producer_id") f.producerID
    |>.insert (str "asap.frame.producer_epoch") f.producerEpoch
    |>.insert (str "asap.frame.sequence") (Bytes.formatUint f.sequence)
    |>.insert (str "asap.frame.kind") f.kind.text
    |>.insert (str "asap.frame.encoding") f.encoding.text
  let attrs := insertSome attrs (str "asap.frame.checkpoint_id") f.checkpointID
  insertSome attrs (str "asap.frame.base_checkpoint_id") f.baseCheckpointID

def GosPolicy.eq (a b : GosPolicy) : Bool :=
  a.epsilonStaleness.eq b.epsilonStaleness && a.sites == b.sites && a.thresholdMode == b.thresholdMode

def DeltaPolicy.eq (a b : DeltaPolicy) : Bool :=
  a.absoluteThreshold.eq b.absoluteThreshold && deepEqualPtr GosPolicy.eq a.gos b.gos

def SamplingPolicy.eq : SamplingPolicy → SamplingPolicy → Bool
  | .disabled, .disabled => true
  | .fixed p e, .fixed p' e' => p.eq p' && e == e'
  | _, _ => false

def TransmissionRule.eq (a b : TransmissionRule) : Bool :=
  a.materialization == b.materialization && a.producerID == b.producerID && a.schemaID == b.schemaID &&
  a.mode == b.mode && a.encoding == b.encoding && a.emitEveryMS == b.emitEveryMS &&
  a.fullCheckpointEveryMS == b.fullCheckpointEveryMS && a.destinationRef == b.destinationRef &&
  (a.sampling.eq b.sampling && deepEqualPtr DeltaPolicy.eq a.delta b.delta && a.adaptation.deepEqual b.adaptation)

inductive FrameIdentityError where
  | ruleMismatch
  | invalidWindow
deriving DecidableEq

structure FrameSequencer where
  lineages : GoMap FrameLineageKey FrameLineageState := ∅

structure SequencerCall where
  plan : CollectorPlan
  rule : TransmissionRule
  producerEpoch : Bytes
  seriesIdentity : Bytes
  windowStart : UInt64
  windowEnd : UInt64
  nowUnixMS : UInt64

variable (c : SequencerCall)

def SequencerCall.key : FrameLineageKey :=
  ⟨c.plan.envelope.planID, c.plan.envelope.planVersion, c.rule.materialization, c.seriesIdentity, c.rule.producerID,
    c.producerEpoch⟩

def SequencerCall.accepted : Bool :=
  c.rule.producerID = c.plan.collectorID && c.plan.transmissionRules.any (fun candidate => candidate.eq c.rule) &&
    c.producerEpoch ≠ [] && c.seriesIdentity ≠ [] && c.windowStart < c.windowEnd

namespace FrameSequencer

def saturatingSucc (n : UInt64) : UInt64 := if n.toNat + 1 < 2 ^ 64 then n + 1 else n

def saturatingSub (a b : UInt64) : UInt64 := if b ≤ a then a - b else 0

/-- `checkpoint_due`, after the sequence number has been raised. -/
def checkpointDue (c : SequencerCall) (state : FrameLineageState) : Bool :=
  state.sequence = 1 || c.rule.mode = .full ||
    c.rule.fullCheckpointEveryMS.any fun cadence => cadence ≤ saturatingSub c.nowUnixMS state.checkpointAtMS

def advance (c : SequencerCall) (entry : FrameLineageState) : FrameLineageState :=
  let state := { entry with sequence := saturatingSucc entry.sequence }
  if checkpointDue c state then
    { state with
      checkpointID := c.rule.producerID ++ str ":" ++ c.producerEpoch ++ str ":" ++ Bytes.formatUint c.windowStart ++
        str ":" ++ Bytes.formatUint state.sequence
      checkpointAtMS := c.nowUnixMS }
  else state

variable (s : FrameSequencer)

def emit (c : SequencerCall) : FrameSequencer × SummaryFrameIdentity :=
  let entry := s.lineages.get {} c.key
  let full := checkpointDue c { entry with sequence := saturatingSucc entry.sequence }
  let state := advance c entry
  (⟨s.lineages.insert c.key state⟩,
    { identityVersion := 1, planID := c.plan.envelope.planID, planVersion := c.plan.envelope.planVersion,
      backendCompat := c.plan.envelope.backendCompat, materialization := c.rule.materialization,
      seriesIdentity := c.seriesIdentity, schemaID := c.rule.schemaID, producerID := c.rule.producerID,
      producerEpoch := c.producerEpoch, windowStartUnixNano := c.windowStart, windowEndUnixNano := c.windowEnd,
      sequence := state.sequence, kind := if full then .full else .delta, encoding := c.rule.encoding,
      checkpointID := if full then some state.checkpointID else none,
      baseCheckpointID := if full then none else some state.checkpointID })

def next (c : SequencerCall) : Except FrameIdentityError (FrameSequencer × SummaryFrameIdentity) :=
  if c.rule.producerID ≠ c.plan.collectorID ∨ c.plan.transmissionRules.any (fun candidate => candidate.eq c.rule) =
      false ∨ c.producerEpoch = [] ∨ c.seriesIdentity = [] then .error .ruleMismatch
  else if c.windowEnd ≤ c.windowStart then .error .invalidWindow
  else .ok (s.emit c)

def run (s : FrameSequencer) : List SequencerCall → List (Except FrameIdentityError SummaryFrameIdentity)
  | [] => []
  | c :: calls =>
    match s.next c with
    | .error e => .error e :: run s calls
    | .ok (s, frame) => .ok frame :: run s calls

end FrameSequencer

section
variable (stated : UInt64 → Bool)

/-- The plan of a call for Go, where each rule is spelled as `stated` has it for the rule's materialization. -/
def SequencerCall.goPlan : PlanDocument := c.plan.toGo fun _ rule => stated rule.materialization

def SequencerCall.goRule : AsapCollector.TransmissionRule := c.rule.toGo (stated c.rule.materialization)

/-- `Next` of the Go sequencer with the same arguments. -/
def SequencerCall.goNext (s : AsapCollector.FrameSequencer) :
    Except SequencerError (AsapCollector.FrameSequencer × AsapCollector.SummaryFrameIdentity) :=
  s.next (c.goPlan stated).toCollectorPlan (c.goRule stated) c.producerEpoch c.seriesIdentity c.windowStart c.windowEnd
    c.nowUnixMS none

def goRun (s : AsapCollector.FrameSequencer) :
    List SequencerCall → List (Except SequencerError AsapCollector.SummaryFrameIdentity)
  | [] => []
  | c :: calls =>
    match c.goNext stated s with
    | .error e => .error e :: goRun s calls
    | .ok (s, frame) => .ok frame :: goRun s calls

end

/-- A text that Go leaves empty where Rust has none. -/
def ofText (text : Bytes) : Option Bytes := if text = [] then none else some text

/-- Both fail, or both return the same frame with the same attributes. -/
def SameResult : Except SequencerError AsapCollector.SummaryFrameIdentity →
    Except FrameIdentityError SummaryFrameIdentity → Prop
  | .error _, .error _ => True
  | .ok g, .ok r =>
    g.sequence = r.sequence ∧ g.kind = r.kind ∧ r.checkpointID = ofText g.checkpointID ∧
      r.baseCheckpointID = ofText g.baseCheckpointID ∧ g.otlpAttributes = r.otlpAttributes
  | _, _ => False

end AsapCollector.Control.Rust
