import AsapCollector.Edge.Aggregator
import AsapCollector.Otel.Adapter

/-! The end of `flush` and `emitSubWindow` of `asapedgeprocessor/warm_sketch.go`: the envelopes that got past
`attachFrameIdentities` are encoded to OTLP and appended to `dst`, or counted as dropped. -/

namespace AsapCollector.Edge

open Otel

/-- The batch that is being put together, and the counter of envelopes that could not be encoded. -/
structure Output where
  dst : List ResourceMetrics := []
  encodeDropCount : Nat := 0

def metricsOf (md : List ResourceMetrics) : List Metric := md.flatMap fun rm => rm.scopeMetrics.flatMap (·.metrics)

def Output.tally (out : Output) : Nat := (metricsOf out.dst).length + out.encodeDropCount

/-- The calls that send what the runtime returns; both take the clock reading of the checkpoint. -/
inductive SendCall where
  | flush (checkpointMS : UInt64)
  | emitSubWindow (nowMs : UInt64)

def SendCall.isSubWindow : SendCall → Bool
  | .flush _ => false
  | .emitSubWindow _ => true

section
variable (enc : Option AdapterConfig) (order : RangeOrder (Bytes × Bytes))

/-- The end of `flush`, and that of `emitSubWindow`, which does not count. -/
def forward (call : SendCall) (out : Output) : FlushResult → Output
  | .nothing | .refused => out
  | .sent envs =>
    match encode enc order (envs.map some), call with
    | .ok md, _ => { out with dst := out.dst ++ md }
    | .error _, .flush _ => { out with encodeDropCount := out.encodeDropCount + envs.length }
    | .error _, .emitSubWindow _ => out

variable {σ : Type} (F : SketchImpl σ)

namespace SketchAggregator

def send (s : SketchAggregator σ) (call : SendCall) (surr : Surroundings σ) (out : Output) :
    SketchAggregator σ × Output :=
  let (s, result) :=
    match call with
    | .flush checkpointMS => s.flush F checkpointMS surr
    | .emitSubWindow nowMs => s.emitSubWindow F nowMs surr
  (s, forward enc order call out result)

def returned (s : SketchAggregator σ) (call : SendCall) (surr : Surroundings σ) : List SketchEnvelope :=
  match call with
  | .flush checkpointMS => ((s.forceCheckpointIfDue checkpointMS).pc.drain F surr.orders).2
  | .emitSubWindow nowMs =>
    if s.subWindowEnabled then ((s.forceCheckpointIfDue nowMs).pc.emitSubWindow F nowMs.toNat surr.orders).2 else []

end SketchAggregator

end

end AsapCollector.Edge
