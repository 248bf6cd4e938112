import AsapCollector.Precompute.Runtime

/-! The calls of a host with what came back: the verdict on each observation and the envelopes handed out. An
observation that `Observe` took is written down with the series and the active window it was taken into. -/

namespace AsapCollector.Precompute

/-- A call of the host. An `Observe` that carries an envelope is a call of `ObserveEnvelope` and is not
among these. -/
inductive Call (σ : Type) where
  | observe (obs : Observation) (scalar : obs.carried = none) (ω : RangeOrders σ)
  | tick (nowMs : Nat) (ω : RangeOrders σ)
  | drain (ω : RangeOrders σ)
  | emitSubWindow (nowMs : Nat) (ω : RangeOrders σ)

structure Acceptance where
  key : Bytes
  startMs : Nat
  obs : Observation

structure History (σ : Type) where
  p : Precompute σ
  verdicts : List (Observation × Option PrecomputeError) := []
  accepted : List Acceptance := []
  returned : List SketchEnvelope := []

section
variable {σ : Type} (F : SketchImpl σ)

/-- What `Observe` did with a scalar, read off its verdict and the state it left: one that passes the
matchers and meets no error has been counted in the active window. -/
def acceptance (p : Precompute σ) (obs : Observation) (err : Option PrecomputeError) : Option Acceptance :=
  match p.cfg, err with
  | some cfg, none =>
    if cfg.admits obs then some ⟨cfg.seriesKeyFor obs, p.window.activeStartMs, obs⟩ else none
  | _, _ => none

variable (h : History σ)

def History.step : Call σ → History σ
  | .observe obs _ ω =>
    let (p, err) := observe F h.p obs ω
    { h with
      p := p
      verdicts := h.verdicts ++ [(obs, err)]
      accepted := h.accepted ++ (acceptance p obs err).toList }
  | .tick nowMs ω =>
    let (p, envelopes) := tick F h.p nowMs ω
    { h with p := p, returned := h.returned ++ envelopes }
  | .drain ω =>
    let (p, envelopes) := drain F h.p ω
    { h with p := p, returned := h.returned ++ envelopes }
  | .emitSubWindow nowMs ω =>
    let (p, envelopes) := emitSubWindow F h.p nowMs ω
    { h with p := p, returned := h.returned ++ envelopes }

def History.run (calls : List (Call σ)) : History σ := calls.foldl (History.step F) h

def History.start (cfg : PrecomputeConfig) : History σ := { p := new (some cfg) }

inductive ControlledCall (σ : Type) where
  | call (c : Call σ)
  | updateConfig (cs : PrecomputeConfigSet)

def History.controlledStep : ControlledCall σ → History σ
  | .call c => h.step F c
  | .updateConfig cs => { h with p := updateConfig h.p cs }

def History.controlledRun (calls : List (ControlledCall σ)) : History σ :=
  calls.foldl (History.controlledStep F) h

end

end AsapCollector.Precompute
