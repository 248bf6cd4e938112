import AsapCollector.Plan
import AsapCollector.Precompute.Config

/-! `controlchannel/opamp.go`. A call is its section under the mutex; what it reports afterwards is part of its result,
so that the report can be made later than the section. A body is what its two readers find in its JSON. -/

namespace AsapCollector.Control

structure PlanIdentity where
  planID : UInt64
  planVersion : UInt64
  activationUnixMS : UInt64
  expiryUnixMS : Option UInt64

structure Generation where
  set : PrecomputeConfigSet
  plan : CollectorPlan

/-- The body of a plan message: what `planIdentityForStatus` and `DecodeCollectorPlan` read from it. The
latter takes no plan without a version. -/
structure PlanBody where
  identity : PlanIdentity
  decoded : Option Generation
  version_eq : ∀ g ∈ decoded, g.set.version = identity.planVersion
  version_ne : ∀ g ∈ decoded, g.set.version ≠ 0

inductive PlanStatus where
  | staged
  | applied
  | failed
deriving DecidableEq

inductive PlanError where
  | undecodable
  | expired
  | closed
  | staleOrDuplicate
  | expiredBeforeApplication
  | stateNotPersisted
  | installationRejected (applyErr : Option Bytes)
deriving DecidableEq

abbrev PlanKey := UInt64 × UInt64

structure PlanReport where
  key : PlanKey
  status : PlanStatus
  err : Option PlanError := none
deriving DecidableEq

structure AppliedPlanState where
  planID : UInt64
  planVersion : UInt64
deriving DecidableEq

structure OpAmpChannel where
  stateFile : Bytes
  closed : Bool := false
  pending : Option Generation := none
  pendingPlanID : UInt64 := 0
  pendingActivationUnixMS : UInt64 := 0
  pendingExpiryUnixMS : Option UInt64 := none
  delivered : UInt64 := 0
  deliveredPlanID : UInt64 := 0
  lastAcked : UInt64 := 0
  lastAckedPlanID : UInt64 := 0
  maxVersion : UInt64 := 0

def PlanBody.key (body : PlanBody) : PlanKey := (body.identity.planID, body.identity.planVersion)

def expiredAt (expiryUnixMS : Option UInt64) (nowUnixMS : UInt64) : Bool := expiryUnixMS.any fun e => e ≤ nowUnixMS

namespace OpAmpChannel

/-- `NewOpAmpChannel` with what `loadAppliedPlanState` finds; a state without a version is malformed. -/
def new (stateFile : Bytes) (disk : Option AppliedPlanState) : Option OpAmpChannel :=
  if stateFile = [] then some { stateFile }
  else
    match disk with
    | none => some { stateFile }
    | some state =>
      if state.planVersion = 0 then none
      else
        some { stateFile, maxVersion := state.planVersion, lastAcked := state.planVersion,
               lastAckedPlanID := state.planID }

variable (o : OpAmpChannel)

def receiveCollectorPlan (body : PlanBody) (nowUnixMS : UInt64) : OpAmpChannel × PlanReport :=
  match body.decoded with
  | none => (o, ⟨body.key, .failed, some .undecodable⟩)
  | some g =>
    let key : PlanKey := (body.identity.planID, g.set.version)
    if expiredAt body.identity.expiryUnixMS nowUnixMS then (o, ⟨key, .failed, some .expired⟩)
    else if o.closed then (o, ⟨key, .failed, some .closed⟩)
    else if g.set.version ≤ o.maxVersion ∨ o.pending.isSome ∨ o.delivered ≠ 0 then
      (o, ⟨key, .failed, some .staleOrDuplicate⟩)
    else
      ({ o with
        pending := some g
        maxVersion := g.set.version
        pendingPlanID := body.identity.planID
        pendingActivationUnixMS := body.identity.activationUnixMS
        pendingExpiryUnixMS := body.identity.expiryUnixMS }, ⟨key, .staged, none⟩)

structure Polled where
  channel : OpAmpChannel
  report : Option PlanReport := none
  set : Option Generation := none

def poll (nowUnixMS : UInt64) : Polled :=
  match o.pending with
  | none => { channel := o }
  | some g =>
    if o.closed then { channel := o }
    else if nowUnixMS < o.pendingActivationUnixMS then { channel := o }
    else if expiredAt o.pendingExpiryUnixMS nowUnixMS then
      { channel := { o with pending := none, pendingPlanID := 0, pendingExpiryUnixMS := none }
        report := some ⟨(o.pendingPlanID, g.set.version), .failed, some .expiredBeforeApplication⟩ }
    else
      { channel := { o with
          pending := none, deliveredPlanID := o.pendingPlanID, pendingPlanID := 0, pendingExpiryUnixMS := none
          delivered := g.set.version }
        set := some g }

/-- An answer for a version is one for the plan delivered last. -/
def answers (planVersion : UInt64) : Bool :=
  !o.closed && planVersion ≠ 0 && planVersion = o.delivered

def persistAppliedPlanState (stateFile : Bytes) (disk : Option AppliedPlanState) (state : AppliedPlanState)
    (written : Bool) : Option (Option AppliedPlanState) :=
  if stateFile = [] then some disk else if written then some (some state) else none

def ack (disk : Option AppliedPlanState) (planVersion : UInt64) (written : Bool) :
    OpAmpChannel × Option AppliedPlanState × Option PlanReport :=
  if o.answers planVersion then
    match persistAppliedPlanState o.stateFile disk ⟨o.deliveredPlanID, planVersion⟩ written with
    | none => (o, disk, some ⟨(o.deliveredPlanID, planVersion), .failed, some .stateNotPersisted⟩)
    | some disk =>
      ({ o with lastAcked := planVersion, lastAckedPlanID := o.deliveredPlanID, delivered := 0, deliveredPlanID := 0 },
        disk, some ⟨(o.deliveredPlanID, planVersion), .applied, none⟩)
  else (o, disk, none)

def reject (planVersion : UInt64) (applyErr : Option Bytes) : OpAmpChannel × Option PlanReport :=
  if o.answers planVersion then
    ({ o with delivered := 0, deliveredPlanID := 0 },
      some ⟨(o.deliveredPlanID, planVersion), .failed, some (.installationRejected applyErr)⟩)
  else (o, none)

def close : OpAmpChannel := { o with closed := true }

end OpAmpChannel

/-- A channel with the goroutine that receives plans and the one that polls. `receiver` and `poller` hold the
report that each of them has yet to make. `received`, `accepted`, `acknowledged` and `answered` only record: the
plans received, accepted, and answered by `Ack`, and the version of the plan that was answered last, until the
next one is accepted. -/
structure Bridge where
  channel : OpAmpChannel
  disk : Option AppliedPlanState
  receiver : Option PlanReport := none
  poller : Option PlanReport := none
  reports : List PlanReport := []
  received : List PlanKey := []
  accepted : List PlanKey := []
  acknowledged : List PlanKey := []
  answered : Option UInt64 := none

inductive BridgeStep where
  | receive (body : PlanBody) (nowUnixMS : UInt64)
  | receiverReports
  | poll (nowUnixMS : UInt64)
  | ack (planVersion : UInt64) (written : Bool)
  | reject (planVersion : UInt64) (applyErr : Option Bytes)
  | pollerReports

namespace Bridge

def receive (b : Bridge) (body : PlanBody) (nowUnixMS : UInt64) : Bridge :=
  let (channel, report) := b.channel.receiveCollectorPlan body nowUnixMS
  let b := { b with channel, receiver := some report, received := b.received ++ [body.key] }
  if report.status = .staged then { b with accepted := b.accepted ++ [body.key], answered := none } else b

/-- One step; a goroutine makes its report before its next call. -/
def step (b : Bridge) : BridgeStep → Bridge
  | .receive body nowUnixMS => if b.receiver.isSome then b else b.receive body nowUnixMS
  | .receiverReports => { b with reports := b.reports ++ b.receiver.toList, receiver := none }
  | .poll nowUnixMS =>
    if b.poller.isSome then b
    else
      let r := b.channel.poll nowUnixMS
      { b with channel := r.channel, poller := r.report }
  | .ack planVersion written =>
    if b.poller.isSome ∨ b.channel.answers planVersion = false then b
    else
      let (channel, disk, report) := b.channel.ack b.disk planVersion written
      { b with
        channel, disk, poller := report
        acknowledged := b.acknowledged ++ [(b.channel.deliveredPlanID, planVersion)]
        answered := some planVersion }
  | .reject planVersion applyErr =>
    if b.poller.isSome ∨ b.channel.answers planVersion = false then b
    else
      let (channel, report) := b.channel.reject planVersion applyErr
      { b with channel, poller := report, answered := some planVersion }
  | .pollerReports => { b with reports := b.reports ++ b.poller.toList, poller := none }

def run (b : Bridge) (steps : List BridgeStep) : Bridge := steps.foldl step b

end Bridge

structure Handout where
  generation : Generation
  nowUnixMS : UInt64

/-- The processes that share a state file, one after the other. `accepted` and `handed` are of the process
that runs now, `reports` of all. -/
structure Lifetimes where
  disk : Option AppliedPlanState
  channel : Option OpAmpChannel := none
  accepted : List PlanBody := []
  handed : List Handout := []
  reports : List PlanReport := []

inductive LifetimeStep where
  | start
  | receiveCollectorPlan (body : PlanBody) (nowUnixMS : UInt64)
  | poll (nowUnixMS : UInt64)
  | ack (planVersion : UInt64) (written : Bool)
  | reject (planVersion : UInt64) (applyErr : Option Bytes)
  | close

namespace Lifetimes

def call (l : Lifetimes) (o : OpAmpChannel) : LifetimeStep → Lifetimes
  | .start => l
  | .receiveCollectorPlan body nowUnixMS =>
    let (channel, report) := o.receiveCollectorPlan body nowUnixMS
    { l with
      channel, reports := l.reports ++ [report]
      accepted := l.accepted ++ if report.status = .staged then [body] else [] }
  | .poll nowUnixMS =>
    let r := o.poll nowUnixMS
    { l with
      channel := r.channel, reports := l.reports ++ r.report.toList
      handed := l.handed ++ (r.set.map fun g => ⟨g, nowUnixMS⟩).toList }
  | .ack planVersion written =>
    let (channel, disk, report) := o.ack l.disk planVersion written
    { l with channel, disk, reports := l.reports ++ report.toList }
  | .reject planVersion applyErr =>
    let (channel, report) := o.reject planVersion applyErr
    { l with channel, reports := l.reports ++ report.toList }
  | .close => { l with channel := o.close }

def step (stateFile : Bytes) (l : Lifetimes) : LifetimeStep → Lifetimes
  | .start => { l with channel := OpAmpChannel.new stateFile l.disk, accepted := [], handed := [] }
  | c =>
    match l.channel with
    | none => l
    | some o => l.call o c

def run (stateFile : Bytes) (disk : Option AppliedPlanState) (steps : List LifetimeStep) : Lifetimes :=
  steps.foldl (step stateFile) { disk }

end Lifetimes

end AsapCollector.Control
