import AsapCollector.Lib.Check
import AsapCollector.Lib.GoMap
import AsapCollector.Plan

/-! `frame_identity.go`. A method of `FrameSequencer` that fails leaves the sequencer as it was, so each one returns
either an error or the next sequencer with its result. -/

namespace AsapCollector

inductive FrameKind where
  | full
  | delta
deriving DecidableEq

def FrameKind.text : FrameKind → Bytes
  | full => str "full"
  | delta => str "delta"

/-- `frameLineageKey`; the receiver's `receivedFrameKey` has the same six fields. -/
structure FrameLineageKey where
  planID : UInt64
  planVersion : UInt64
  materialization : UInt64
  seriesIdentity : Bytes
  producerID : Bytes
  producerEpoch : Bytes
deriving DecidableEq

structure SummaryFrameIdentity where
  identityVersion : UInt32
  planID : UInt64
  planVersion : UInt64
  backendCompat : Bytes
  materialization : UInt64
  seriesIdentity : Bytes
  schemaID : Bytes
  producerID : Bytes
  producerEpoch : Bytes
  windowStartUnixNano : UInt64
  windowEndUnixNano : UInt64
  sequence : UInt64
  kind : FrameKind
  encoding : Bytes
  checkpointID : Bytes
  baseCheckpointID : Bytes
deriving DecidableEq

namespace SummaryFrameIdentity

variable (f : SummaryFrameIdentity)

def lineage : FrameLineageKey :=
  ⟨f.planID, f.planVersion, f.materialization, f.seriesIdentity, f.producerID, f.producerEpoch⟩

/-- The checkpoint in force once the frame is applied: its own if it is full, else its base. -/
def checkpoint : Bytes :=
  match f.kind with
  | .full => f.checkpointID
  | .delta => f.baseCheckpointID

def setIfNonEmpty (attrs : GoMap Bytes Bytes) (name value : Bytes) : GoMap Bytes Bytes :=
  if value = [] then attrs else attrs.insert name value

def otlpAttributes : GoMap Bytes Bytes :=
  let attrs := (∅ : GoMap Bytes Bytes)
    |>.insert (str "asap.frame.identity_version") (Bytes.formatUint f.identityVersion.toUInt64)
    |>.insert (str "asap.frame.plan_id") (Bytes.formatUint f.planID)
    |>.insert (str "asap.frame.plan_version") (Bytes.formatUint f.planVersion)
    |>.insert (str "asap.frame.backend_compat") f.backendCompat
    |>.insert (str "asap.frame.materialization") (Bytes.formatUint f.materialization)
    |>.insert (str "asap.frame.series_identity") f.seriesIdentity
    |>.insert (str "asap.frame.schema_id") f.schemaID
    |>.insert (str "asap.frame.producer_id") f.producerID
    |>.insert (str "asap.frame.producer_epoch") f.producerEpoch
    |>.insert (str "asap.frame.sequence") (Bytes.formatUint f.sequence)
    |>.insert (str "asap.frame.kind") f.kind.text
    |>.insert (str "asap.frame.encoding") f.encoding
  let attrs := setIfNonEmpty attrs (str "asap.frame.checkpoint_id") f.checkpointID
  setIfNonEmpty attrs (str "asap.frame.base_checkpoint_id") f.baseCheckpointID

end SummaryFrameIdentity

/-- `frameLineageState`; the zero value stands for a lineage without frames. -/
structure FrameLineageState where
  sequence : UInt64 := 0
  checkpointID : Bytes := []
  checkpointAtMS : UInt64 := 0

structure FrameSequencer where
  lineages : GoMap FrameLineageKey FrameLineageState := ∅

structure FrameEmission where
  seriesIdentity : Bytes
  windowStartUnixNano : UInt64
  windowEndUnixNano : UInt64
  nowUnixMS : UInt64
  emittedFull : Bool

inductive SequencerError where
  | invalidFrameLineage
  | ruleNotInPlan
  | deltaWhereFullRequired
deriving DecidableEq

def SequencerError.message : SequencerError → String
  | invalidFrameLineage => "invalid frame lineage"
  | ruleNotInPlan => "transmission rule does not belong to plan"
  | deltaWhereFullRequired => "runtime emitted delta when a full checkpoint was required"

namespace FrameSequencer

variable (s : FrameSequencer)

def state (key : FrameLineageKey) : FrameLineageState := s.lineages.get {} key

def checkpointDue (rule : TransmissionRule) (state : FrameLineageState) (nowUnixMS : UInt64) : Bool :=
  match rule.fullCheckpointEveryMS with
  | none => false
  | some every => state.checkpointAtMS ≤ nowUnixMS && every ≤ nowUnixMS - state.checkpointAtMS

def checkpointName (producerID producerEpoch : Bytes) (windowStart sequence : UInt64) : Bytes :=
  producerID ++ str ":" ++ producerEpoch ++ str ":" ++ Bytes.formatUint windowStart ++ str ":" ++
    Bytes.formatUint sequence

theorem checkpointName_ne_nil (producerID producerEpoch : Bytes) (windowStart sequence : UInt64) :
    checkpointName producerID producerEpoch windowStart sequence ≠ [] := by
  simp [checkpointName]

def fullRequired (rule : TransmissionRule) (previous : FrameLineageState) (nowUnixMS : UInt64) : Bool :=
  previous.sequence + 1 = 1 || rule.mode = .full || checkpointDue rule previous nowUnixMS

variable (plan : CollectorPlan) (rule : TransmissionRule) (producerEpoch seriesIdentity : Bytes)

def lineageKey :
    FrameLineageKey :=
  ⟨plan.envelope.planID, plan.envelope.planVersion, rule.materialization, seriesIdentity, rule.producerID,
    producerEpoch⟩

def advance (previous : FrameLineageState) (producerID producerEpoch : Bytes) (windowStart nowUnixMS : UInt64)
    (full : Bool) : FrameLineageState :=
  let sequence := previous.sequence + 1
  if full then ⟨sequence, checkpointName producerID producerEpoch windowStart sequence, nowUnixMS⟩
  else { previous with sequence := sequence }

variable (windowStart windowEnd nowUnixMS : UInt64)

/-- The end of `next`: store the lineage's new state and build the frame. -/
def emit
    (full : Bool) :
    FrameSequencer × SummaryFrameIdentity :=
  let key := lineageKey plan rule producerEpoch seriesIdentity
  let state := advance (s.state key) rule.producerID producerEpoch windowStart nowUnixMS full
  (⟨s.lineages.insert key state⟩,
    { identityVersion := 1, planID := plan.envelope.planID, planVersion := plan.envelope.planVersion,
      backendCompat := plan.envelope.backendCompat, materialization := rule.materialization,
      seriesIdentity := seriesIdentity, schemaID := rule.schemaID, producerID := rule.producerID,
      producerEpoch := producerEpoch, windowStartUnixNano := windowStart, windowEndUnixNano := windowEnd,
      sequence := state.sequence, kind := if full then .full else .delta, encoding := rule.encoding,
      checkpointID := if full then state.checkpointID else [],
      baseCheckpointID := if full then [] else state.checkpointID })

/-- `FrameSequencer.next`; `emittedFull` is the pointer that `Next` leaves nil. -/
def next
    (emittedFull : Option Bool) : Except SequencerError (FrameSequencer × SummaryFrameIdentity) :=
  if producerEpoch = [] ∨ seriesIdentity = [] ∨ windowEnd ≤ windowStart ∨ rule.producerID ≠ plan.collectorID then
    .error .invalidFrameLineage
  else if plan.transmissionRules.any (fun candidate => candidate.deepEqual rule) = false then
    .error .ruleNotInPlan
  else
    let required := fullRequired rule (s.state (lineageKey plan rule producerEpoch seriesIdentity)) nowUnixMS
    if required = true ∧ emittedFull = some false then .error .deltaWhereFullRequired
    else
      .ok (s.emit plan rule producerEpoch seriesIdentity windowStart windowEnd nowUnixMS
        (emittedFull.getD required))

theorem next_eq_ok {s : FrameSequencer} {plan : CollectorPlan} {rule : TransmissionRule} {epoch series : Bytes}
    {windowStart windowEnd now : UInt64} {emittedFull : Option Bool} {r : FrameSequencer × SummaryFrameIdentity} :
    s.next plan rule epoch series windowStart windowEnd now emittedFull = .ok r ↔
      epoch ≠ [] ∧ series ≠ [] ∧ windowStart < windowEnd ∧ rule.producerID = plan.collectorID ∧
        plan.transmissionRules.any (fun candidate => candidate.deepEqual rule) = true ∧
        (fullRequired rule (s.state (lineageKey plan rule epoch series)) now = true → emittedFull ≠ some false) ∧
        s.emit plan rule epoch series windowStart windowEnd now
          (emittedFull.getD (fullRequired rule (s.state (lineageKey plan rule epoch series)) now)) = r := by
  unfold next
  dsimp only
  split
  · rename_i h
    refine ⟨nofun, fun ⟨hepoch, hseries, hwindow, hproducer, _⟩ => ?_⟩
    simp [hepoch, hseries, UInt64.not_le.mpr hwindow, hproducer] at h
  · rename_i h
    simp only [not_or, UInt64.not_le, not_not, ne_eq] at h
    split
    · rename_i hrule
      simp [hrule]
    · rename_i hrule
      split
      · rename_i hdelta
        simp [hdelta.1, hdelta.2]
      · rename_i hdelta
        exact ⟨fun heq => ⟨h.1, h.2.1, h.2.2.1, h.2.2.2, (Bool.not_eq_false _).mp hrule, fun hr he => hdelta ⟨hr, he⟩,
          Except.ok.inj heq⟩, fun hall => congrArg Except.ok hall.2.2.2.2.2.2⟩

def nextForEmission
    (producerEpoch : Bytes) (e : FrameEmission) : Except SequencerError (FrameSequencer × SummaryFrameIdentity) :=
  s.next plan rule producerEpoch e.seriesIdentity e.windowStartUnixNano e.windowEndUnixNano e.nowUnixMS
    (some e.emittedFull)

/-- `NextBatchForEmission`: the loop runs on a copy of the lineages, which replaces them only if
every emission succeeds. -/
def nextBatchForEmission (s : FrameSequencer) (plan : CollectorPlan) (rule : TransmissionRule)
    (producerEpoch : Bytes) : List FrameEmission →
    Except SequencerError (FrameSequencer × List SummaryFrameIdentity)
  | [] => .ok (s, [])
  | e :: es => do
    let (s, frame) ← s.nextForEmission plan rule producerEpoch e
    let (s, frames) ← s.nextBatchForEmission plan rule producerEpoch es
    return (s, frame :: frames)

theorem nextBatchForEmission_cons {s t : FrameSequencer} {plan : CollectorPlan} {rule : TransmissionRule}
    {epoch : Bytes} {e : FrameEmission} {es : List FrameEmission} {fs : List SummaryFrameIdentity} :
    s.nextBatchForEmission plan rule epoch (e :: es) = .ok (t, fs) ↔
      ∃ u f gs, s.nextForEmission plan rule epoch e = .ok (u, f) ∧
        u.nextBatchForEmission plan rule epoch es = .ok (t, gs) ∧ fs = f :: gs := by
  simp only [nextBatchForEmission, bind_eq_ok, pure_eq_ok, Prod.mk.injEq, Prod.exists]
  constructor
  · rintro ⟨u, f, hone, _, gs, hrest, rfl, rfl⟩
    exact ⟨u, f, gs, hone, hrest, rfl⟩
  · rintro ⟨u, f, gs, hone, hrest, rfl⟩
    exact ⟨u, f, hone, t, gs, hrest, rfl, rfl⟩

end FrameSequencer

end AsapCollector
