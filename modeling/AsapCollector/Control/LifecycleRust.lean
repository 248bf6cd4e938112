import AsapCollector.Control.PlanRust

/-! `CollectorPlanLifecycle` of `collector_plan.rs`. A `BTreeMap` is a finite map here; the one loop over its keys looks
for a maximum. -/

namespace AsapCollector.Control.Rust

inductive PlanPhase where
  | staged
  | active
  | draining
  | retired
deriving DecidableEq

structure PlanStatus where
  planID : UInt64
  planVersion : UInt64
  phase : PlanPhase
deriving DecidableEq

abbrev Generation := UInt64 × UInt64

variable (plan : CollectorPlan)

def CollectorPlan.generation : Generation := (plan.envelope.planID, plan.envelope.planVersion)

structure CollectorPlanLifecycle where
  active : Option CollectorPlan := none
  staged : GoMap Generation CollectorPlan := ∅
  statuses : GoMap Generation PlanStatus := ∅

inductive LifecycleError where
  | plan (err : CollectorPlanError)
  | panicked
deriving DecidableEq

def expiredPlan : LifecycleError := .plan (.identity "cannot stage an expired plan")
def alreadyStaged : LifecycleError := .plan (.identity "plan generation is already staged")
def versionNotNewer : LifecycleError := .plan (.identity "plan version is not newer than the latest known generation")
def notStaged : LifecycleError := .plan (.identity "plan generation is not staged")
def notYetDue : LifecycleError := .plan (.identity "activation time has not been reached")
def activationExpired : LifecycleError := .plan (.identity "cannot activate an expired plan")
def wouldDowngrade : LifecycleError := .plan (.identity "activation would downgrade the active generation")

namespace CollectorPlanLifecycle

variable (l : CollectorPlanLifecycle)

def newestKnownVersion : UInt64 :=
  (l.statuses.keys.map Prod.snd ++ l.active.toList.map fun plan => plan.envelope.planVersion).foldl max 0

def stage (collectorID : Bytes) (nowUnixMS : UInt64) :
    CollectorPlanLifecycle × Except LifecycleError Unit :=
  match validate plan collectorID with
  | .error e => (l, .error (.plan e))
  | .ok _ =>
    if plan.expiryUnixMS.any (· ≤ nowUnixMS) then (l, .error expiredPlan)
    else if plan.generation ∈ l.statuses.keys then (l, .error alreadyStaged)
    else if plan.envelope.planVersion ≤ l.newestKnownVersion then (l, .error versionNotNewer)
    else
      ({ l with
        statuses := l.statuses.insert plan.generation ⟨plan.generation.1, plan.generation.2, .staged⟩
        staged := l.staged.insert plan.generation plan }, .ok ())

def setPhase (statuses : GoMap Generation PlanStatus) (key : Generation) (phase : PlanPhase) :
    GoMap Generation PlanStatus :=
  match statuses.lookup key with
  | some status => statuses.insert key { status with phase }
  | none => statuses

def expectPhase {α : Type} (l : CollectorPlanLifecycle) (key : Generation) (phase : PlanPhase)
    (result : Except LifecycleError α) : CollectorPlanLifecycle × Except LifecycleError α :=
  if key ∈ l.statuses.keys then ({ l with statuses := setPhase l.statuses key phase }, result)
  else (l, .error .panicked)

/-- The end of `activate`: the plan replaces the active one, whose status drains. -/
def cutOver : CollectorPlanLifecycle :=
  { l with
    active := some plan
    statuses := (l.active.map fun previous => setPhase l.statuses previous.generation .draining).getD l.statuses }

def activate (planID planVersion nowUnixMS : UInt64) : CollectorPlanLifecycle × Except LifecycleError CollectorPlan :=
  let key : Generation := (planID, planVersion)
  match l.staged.lookup key with
  | none => (l, .error notStaged)
  | some plan =>
    let l := { l with staged := l.staged.erase key }
    if nowUnixMS < plan.activationUnixMS then ({ l with staged := l.staged.insert key plan }, .error notYetDue)
    else if plan.expiryUnixMS.any (· ≤ nowUnixMS) then expectPhase l key .retired (.error activationExpired)
    else if l.active.any fun active => plan.envelope.planVersion ≤ active.envelope.planVersion then
      ({ l with staged := l.staged.insert key plan }, .error wouldDowngrade)
    else expectPhase (l.cutOver plan) key .active (.ok plan)

def retireDrained : CollectorPlanLifecycle :=
  { l with
    statuses := l.statuses.map fun status => if status.phase =
      .draining then { status with phase := .retired } else status }

end CollectorPlanLifecycle

inductive LifecycleCall where
  | stage (plan : CollectorPlan) (collectorID : Bytes) (nowUnixMS : UInt64)
  | activate (planID planVersion nowUnixMS : UInt64)
  | retireDrained

namespace CollectorPlanLifecycle

variable (l : CollectorPlanLifecycle)

def step : LifecycleCall → CollectorPlanLifecycle × Option LifecycleError
  | .stage plan collectorID nowUnixMS =>
    match l.stage plan collectorID nowUnixMS with
    | (l, .ok _) => (l, none)
    | (l, .error e) => (l, some e)
  | .activate planID planVersion nowUnixMS =>
    match l.activate planID planVersion nowUnixMS with
    | (l, .ok _) => (l, none)
    | (l, .error e) => (l, some e)
  | .retireDrained => (l.retireDrained, none)

def run (calls : List LifecycleCall) : CollectorPlanLifecycle :=
  calls.foldl (fun l c => (l.step c).1) l

def Same (l' : CollectorPlanLifecycle) : Prop :=
  l'.active = l.active ∧ (∀ key, l'.staged.lookup key = l.staged.lookup key) ∧
    ∀ key, l'.statuses.lookup key = l.statuses.lookup key

def phase? (key : Generation) : Option PlanPhase := (l.statuses.lookup key).map PlanStatus.phase

/-- The three parts of a lifecycle tell the same story: the staged plans are those whose phase is `staged`, the one plan
whose phase is `active` is the active plan, and plans and statuses are filed under their own generation. -/
structure Coherent (l : CollectorPlanLifecycle) : Prop where
  staged : ∀ key, (∃ plan, l.staged.lookup key = some plan) ↔ l.phase? key = some .staged
  active : ∀ key, l.phase? key = some .active ↔ ∃ plan, l.active = some plan ∧ plan.generation = key
  plans : ∀ key plan, l.staged.lookup key = some plan → plan.generation = key
  named : ∀ key status, l.statuses.lookup key = some status → (status.planID, status.planVersion) = key

end CollectorPlanLifecycle

end AsapCollector.Control.Rust
