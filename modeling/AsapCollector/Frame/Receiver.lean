import AsapCollector.Frame.Identity
import AsapCollector.Lib.Sha256
import AsapCollector.Lib.StringMap

/-! `frame_receiver.go`. `prepare` decides what to do with an envelope and `commit` records it once it has been applied;
`deliver` is the way `precompute.ObserveEnvelope` uses the two, one envelope at a time under its lock. -/

namespace AsapCollector

def frameChecksumAttribute : Bytes := str "asap.frame.payload_checksum"

variable (attrs : GoMap Bytes Bytes)

def checksumKeys : List Bytes :=
  (attrs.keys.filter fun key => key ≠ frameChecksumAttribute).insertionSort (· ≤ ·)

def checksumHeader : Bytes :=
  (checksumKeys attrs).flatMap fun key =>
    let value := attrs.get [] key
    Bytes.bigEndian32 key.length ++ key ++ Bytes.bigEndian32 value.length ++ value

variable (payload : Bytes)

def checksumInput : Bytes :=
  let header := checksumHeader attrs
  str "ASAP-FRAME-V1" ++ Bytes.bigEndian32 header.length ++ header ++ payload

def frameChecksum : Bytes :=
  Bytes.hexEncode (Sha256.sum256 (checksumInput attrs payload)).toList

def sealFrameAttributes : GoMap Bytes Bytes :=
  attrs.insert frameChecksumAttribute (frameChecksum attrs payload)

structure FramedEnvelope where
  frameAttributes : GoMap Bytes Bytes
  payload : Bytes

def SummaryFrameIdentity.sealed (f : SummaryFrameIdentity) (payload : Bytes) : FramedEnvelope :=
  ⟨sealFrameAttributes f.otlpAttributes payload, payload⟩

structure ReceivedFrameState where
  sequence : UInt64 := 0
  checkpoint : Bytes := []
  fingerprint : Digest := Vector.replicate 32 0
  lastUsed : UInt64 := 0

structure FrameReceiver where
  lineages : GoMap FrameLineageKey ReceivedFrameState := ∅
  clock : UInt64 := 0

/-- `frameReceipt`, by its flags: not framed, a duplicate, or a frame to apply and commit. -/
inductive FrameReceipt where
  | unframed
  | duplicate
  | fresh (key : FrameLineageKey) (state : ReceivedFrameState) (limit : UInt64)

inductive FrameError where
  | invalidField (name : Bytes)
  | incompleteLineage
  | checksum
  | conflict
  | gap
  | base
  | invalidKind
deriving DecidableEq

def FrameError.message : FrameError → Bytes
  | invalidField name => str "precompute: invalid " ++ name
  | incompleteLineage => str "precompute: incomplete frame lineage"
  | checksum => str "precompute: frame checksum mismatch"
  | conflict => str "precompute: conflicting frame replay"
  | gap => str "precompute: frame sequence gap"
  | base => str "precompute: unknown delta base checkpoint"
  | invalidKind => str "precompute: invalid frame kind"

def parseRequiredUint (name : Bytes) : Except FrameError UInt64 :=
  match Bytes.parseUint (attrs.get [] name) with
  | none => .error (.invalidField name)
  | some value => if value = 0 then .error (.invalidField name) else .ok value

structure FrameHeader where
  key : FrameLineageKey
  sequence : UInt64
  fingerprint : Digest

/-- The first part of `prepare`: the checks that need no receiver state. -/
def parseHeader (env : FramedEnvelope) : Except FrameError FrameHeader := do
  let a := env.frameAttributes
  let planID ← parseRequiredUint a (str "asap.frame.plan_id")
  let version ← parseRequiredUint a (str "asap.frame.plan_version")
  let materialization ← parseRequiredUint a (str "asap.frame.materialization")
  let sequence ← parseRequiredUint a (str "asap.frame.sequence")
  let key : FrameLineageKey :=
    ⟨planID, version, materialization, a.get [] (str "asap.frame.series_identity"),
      a.get [] (str "asap.frame.producer_id"), a.get [] (str "asap.frame.producer_epoch")⟩
  if key.seriesIdentity = [] ∨ key.producerID = [] ∨ key.producerEpoch = [] then .error .incompleteLineage
  else
    let want := Bytes.toLower (a.get [] frameChecksumAttribute)
    if want = [] ∨ want ≠ frameChecksum a env.payload then .error .checksum
    else .ok ⟨key, sequence, Sha256.sum256 (want ++ [0] ++ env.payload)⟩

namespace FrameReceiver

variable (r : FrameReceiver)

def state (key : FrameLineageKey) : ReceivedFrameState := r.lineages.get {} key

def nextCheckpoint (a : GoMap Bytes Bytes) (previous : Bytes) : Except FrameError Bytes :=
  let kind := a.get [] (str "asap.frame.kind")
  if kind = str "full" then
    let checkpoint := a.get [] (str "asap.frame.checkpoint_id")
    if checkpoint = [] then .error .base else .ok checkpoint
  else if kind = str "delta" then
    if previous = [] ∨ a.get [] (str "asap.frame.base_checkpoint_id") ≠ previous then .error .base
    else .ok previous
  else .error .invalidKind

/-- The lineage limit in force: zero stands for 100000. -/
def effectiveLimit (limit : UInt64) : UInt64 := if limit = 0 then 100000 else limit

def prepareLocked (a : GoMap Bytes Bytes) (h : FrameHeader) (limit : UInt64) :
    FrameReceiver × Except FrameError FrameReceipt :=
  let r := { r with clock := r.clock + 1 }
  let previous := r.state h.key
  if h.sequence = previous.sequence ∧ h.sequence ≠ 0 then
    if previous.fingerprint ≠ h.fingerprint then (r, .error .conflict)
    else
      ({ r with lineages := r.lineages.insert h.key { previous with lastUsed := r.clock } }, .ok .duplicate)
  else if h.sequence ≠ previous.sequence + 1 then (r, .error .gap)
  else
    match nextCheckpoint a previous.checkpoint with
    | .error e => (r, .error e)
    | .ok checkpoint =>
      (r, .ok (.fresh h.key ⟨h.sequence, checkpoint, h.fingerprint, r.clock⟩ (effectiveLimit limit)))

def prepare (env : FramedEnvelope) (limit : UInt64) :
    FrameReceiver × Except FrameError FrameReceipt :=
  if env.frameAttributes.len = 0 then (r, .ok .unframed)
  else
    match parseHeader env with
    | .error e => (r, .error e)
    | .ok h => r.prepareLocked env.frameAttributes h limit

/-- The key and use of the least recently used of some entries, as the loop of `commit` finds
them; `(key, use)` are the loop's variables. -/
def oldest (start : FrameLineageKey × UInt64) (entries : List (FrameLineageKey × ReceivedFrameState)) :
    FrameLineageKey × UInt64 :=
  entries.foldl (fun acc e => if e.2.lastUsed < acc.2 then (e.1, e.2.lastUsed) else acc) start

variable (ω : RangeOrder (FrameLineageKey × ReceivedFrameState))

/-- The key that `commit` deletes before it stores a new lineage in a full map. -/
def oldestKey : FrameLineageKey :=
  (oldest (⟨0, 0, 0, [], [], []⟩, 0xffffffffffffffff) (r.lineages.range ω)).1

/-- `frameReceiver.commit`; `ω` is the order of its loop over the lineages. -/
def commit :
    FrameReceipt → FrameReceiver
  | .unframed => r
  | .duplicate => r
  | .fresh key state limit =>
    let lineages :=
      if r.lineages.lookup key = none ∧ limit.toNat ≤ r.lineages.len then r.lineages.erase (r.oldestKey ω)
      else r.lineages
    { r with lineages := lineages.insert key state }

inductive Outcome where
  | unframed
  | duplicate
  | accepted (key : FrameLineageKey) (sequence : UInt64)
  | notApplied (key : FrameLineageKey) (sequence : UInt64)
  | rejected (e : FrameError)
deriving DecidableEq

/-- One use of the receiver by `ObserveEnvelope`: the envelope, the lineage limit of the active
configuration, whether the window takes the envelope, and the order of the loop in `commit`. -/
structure Delivery where
  envelope : FramedEnvelope
  limit : UInt64
  applies : Bool := true
  order : RangeOrder (FrameLineageKey × ReceivedFrameState) := RangeOrder.stored _

/-- `prepare`, then `commit` if the window applied the envelope. -/
def deliver (d : Delivery) : FrameReceiver × Outcome :=
  match r.prepare d.envelope d.limit with
  | (r, .error e) => (r, .rejected e)
  | (r, .ok .unframed) => (r, .unframed)
  | (r, .ok .duplicate) => (r, .duplicate)
  | (r, .ok (.fresh key state limit)) =>
    if d.applies then (r.commit d.order (.fresh key state limit), .accepted key state.sequence)
    else (r, .notApplied key state.sequence)

def receive (r : FrameReceiver) : List Delivery → FrameReceiver
  | [] => r
  | d :: ds => (r.deliver d).1.receive ds

end FrameReceiver

end AsapCollector
