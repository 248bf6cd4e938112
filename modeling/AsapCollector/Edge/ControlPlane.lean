import AsapCollector.Control.OpAmp
import AsapCollector.Edge.Processor

/-! `applyConfigSet` of `asapedgeprocessor/control_plane.go`. The channel is a type with its `Ack`, as the processor has
it behind the interface `controlChannel`; the OpAMP channel is one of them. -/

namespace AsapCollector.Edge

open Precompute

structure ControlSet extends PrecomputeConfigSet where
  collectorPlan : Option CollectorPlan := none

inductive ApplyError where
  | nilConfigSet
  | generation (e : Processor.GenerationError)
  | publishRetired
deriving DecidableEq

def FlushResult.envelopes : FlushResult → List SketchEnvelope
  | .sent envelopes => envelopes
  | _ => []

/-- `asapEdgeProcessor` with its control channel. `acknowledged` only records the versions whose
acknowledgement the channel has confirmed. -/
structure ControlPlane (σ χ : Type) where
  processor : Processor σ
  ctrlChan : χ
  ctrlLastApply : UInt64 := 0
  acknowledged : List UInt64 := []

/-- What a call of `applyConfigSet` takes from its surroundings: the orders of its loops, the clock, and
whether the next consumer takes the metrics it is given. -/
structure ApplySurroundings (σ : Type) where
  metrics : RangeOrder (Bytes × MetricFamily)
  clock : Processor.Clock σ
  consumed : Bool

namespace ControlPlane

section
variable {σ χ : Type} (F : Bytes → SketchImpl σ) (ack : χ → UInt64 → χ × Bool)

/-- `forward`: nothing is published where there is nothing. -/
def forward (consumed : Bool) (out : List SketchEnvelope) : Bool := out.isEmpty || consumed

def updateConfigs (p : Processor σ) (set : PrecomputeConfigSet) (ω : RangeOrder (Bytes × SketchAggregator σ)) :
    Processor σ :=
  ((p.sites ω).foldl (Processor.visit fun _ sa => ({ sa with pc := sa.pc.updateConfig set }, .nothing)) (p, [])).1

/-- The end of `applyConfigSet`; `ack` also says whether the channel confirms the version. -/
def acknowledge (c : ControlPlane σ χ) (version : UInt64) : ControlPlane σ χ :=
  let (ctrlChan, confirmed) := ack c.ctrlChan version
  { c with
    ctrlLastApply := version
    ctrlChan
    acknowledged := c.acknowledged ++ if confirmed then [version] else [] }

def applyConfigSet (c : ControlPlane σ χ) (set : Option ControlSet) (surr : ApplySurroundings σ) :
    ControlPlane σ χ × Except ApplyError Unit :=
  match set with
  | none => (c, .error .nilConfigSet)
  | some set =>
    match set.collectorPlan with
    | some plan =>
      match c.processor.applyPhysicalGeneration F plan set.toPrecomputeConfigSet surr.metrics surr.clock with
      | (p, .error e) => ({ c with processor := p }, .error (.generation e))
      | (p, .ok retired) =>
        let c := { c with processor := p }
        if forward surr.consumed (retired.flatMap fun r => r.2.envelopes) then (c.acknowledge ack set.version, .ok ())
        else (c, .error .publishRetired)
    | none =>
      let c := { c with processor := updateConfigs c.processor set.toPrecomputeConfigSet surr.clock.order }
      (c.acknowledge ack set.version, .ok ())

end

def opAmpAck (written : Bool) (ch : Control.OpAmpChannel × Option Control.AppliedPlanState) (version : UInt64) :
    (Control.OpAmpChannel × Option Control.AppliedPlanState) × Bool :=
  let (channel, disk, report) := ch.1.ack ch.2 version written
  ((channel, disk), report.any fun r => r.status = .applied)

end ControlPlane

end AsapCollector.Edge
