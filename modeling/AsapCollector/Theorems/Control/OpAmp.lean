import AsapCollector.Control.OpAmp

/-! At most one of the slots is taken. Over processes that share a state file, the version in the file stays below the
plan in the slots and is at least every version reported as applied (`Lifetimes.Inv`). -/

namespace AsapCollector.Control

open List Option

variable {now v : UInt64}

theorem expiredAt_eq_false {expiry : Option UInt64} :
    expiredAt expiry now = false ↔ ∀ e ∈ expiry, now < e := by
  cases expiry with
  | none => simp [expiredAt]
  | some e => simp [expiredAt]

namespace OpAmpChannel

variable (o : OpAmpChannel)

def holding (body : PlanBody) (g : Generation) : OpAmpChannel :=
  { o with
    pending := some g
    maxVersion := g.set.version
    pendingPlanID := body.identity.planID
    pendingActivationUnixMS := body.identity.activationUnixMS
    pendingExpiryUnixMS := body.identity.expiryUnixMS }

def cleared : OpAmpChannel := { o with pending := none, pendingPlanID := 0, pendingExpiryUnixMS := none }

def delivering (g : Generation) : OpAmpChannel :=
  { o with
    pending := none, deliveredPlanID := o.pendingPlanID, pendingPlanID := 0, pendingExpiryUnixMS := none
    delivered := g.set.version }

structure Free (version : UInt64) : Prop where
  isOpen : o.closed = false
  newer : o.maxVersion < version
  pending : o.pending = none
  delivered : o.delivered = 0

theorem receiveCollectorPlan_free {body : PlanBody} {g : Generation} (hdecoded : body.decoded = some g)
    (hexpiry : expiredAt body.identity.expiryUnixMS now = false) (hfree : o.Free g.set.version) :
    o.receiveCollectorPlan body now = (o.holding body g, ⟨body.key, .staged, none⟩) := by
  have hslots : ¬(g.set.version ≤ o.maxVersion ∨ o.pending.isSome = true ∨ o.delivered ≠ 0) := by
    rw [hfree.pending, hfree.delivered]
    simpa using hfree.newer
  unfold receiveCollectorPlan
  simp only [hdecoded, hexpiry, hfree.isOpen, Bool.false_eq_true, if_false, if_neg hslots, holding, PlanBody.key]
  rw [body.version_eq g hdecoded]

theorem receiveCollectorPlan_cases (body : PlanBody) (now : UInt64) :
    (∃ err, o.receiveCollectorPlan body now = (o, ⟨body.key, .failed, some err⟩)) ∨
      ∃ g, body.decoded = some g ∧ o.Free g.set.version ∧
        o.receiveCollectorPlan body now = (o.holding body g, ⟨body.key, .staged, none⟩) := by
  cases hdecoded : body.decoded with
  | none => exact .inl ⟨_, by rw [receiveCollectorPlan, hdecoded]⟩
  | some g =>
    have hkey : (body.identity.planID, g.set.version) = body.key := by rw [PlanBody.key, body.version_eq g hdecoded]
    by_cases hexpiry : expiredAt body.identity.expiryUnixMS now = true
    · exact .inl ⟨.expired, by simp only [receiveCollectorPlan, hdecoded, hexpiry, if_true, hkey]⟩
    by_cases hclosed : o.closed = true
    · exact .inl ⟨.closed, by simp only [receiveCollectorPlan, hdecoded, if_neg hexpiry, hclosed, if_true, hkey]⟩
    by_cases hslots : g.set.version ≤ o.maxVersion ∨ o.pending.isSome ∨ o.delivered ≠ 0
    · exact .inl ⟨.staleOrDuplicate, by
        simp only [receiveCollectorPlan, hdecoded, if_neg hexpiry, if_neg hclosed, if_pos hslots, hkey]⟩
    · obtain ⟨hnewer, hslots⟩ := not_or.mp hslots
      obtain ⟨hpending, hdelivered⟩ := not_or.mp hslots
      have hfree : o.Free g.set.version :=
        ⟨by simpa using hclosed, UInt64.not_le.mp hnewer, by simpa using hpending, not_not.mp hdelivered⟩
      exact .inr ⟨g, rfl, hfree, o.receiveCollectorPlan_free hdecoded (by simpa using hexpiry) hfree⟩

theorem poll_cases (now : UInt64) :
    o.poll now = { channel := o } ∨
    ∃ g, o.pending = some g ∧
      (o.poll now = { channel := o.cleared, report := some ⟨(o.pendingPlanID, g.set.version), .failed,
        some .expiredBeforeApplication⟩ } ∨ (o.pendingActivationUnixMS ≤ now ∧ (∀ e ∈ o.pendingExpiryUnixMS, now < e) ∧
          o.poll now = { channel := o.delivering g, set := some g })) := by
  unfold poll
  cases hpending : o.pending with
  | none => exact .inl rfl
  | some g =>
    dsimp only
    by_cases hclosed : o.closed = true
    · exact .inl (if_pos hclosed)
    rw [if_neg hclosed]
    by_cases hactive : now < o.pendingActivationUnixMS
    · exact .inl (if_pos hactive)
    rw [if_neg hactive]
    refine .inr ⟨g, rfl, ?_⟩
    by_cases hexpiry : expiredAt o.pendingExpiryUnixMS now = true
    · exact .inl (if_pos hexpiry)
    · exact .inr ⟨UInt64.not_lt.mp hactive, expiredAt_eq_false.mp (by simpa using hexpiry), if_neg hexpiry⟩

def emptied : OpAmpChannel := { o with delivered := 0, deliveredPlanID := 0 }

theorem answers_iff : o.answers v = true ↔ o.closed = false ∧ v ≠ 0 ∧ v = o.delivered := by
  simp [answers, and_assoc]

theorem ack_cases (disk : Option AppliedPlanState) (written : Bool) (h : o.answers v = true) :
    (o.stateFile ≠ [] ∧ written = false ∧
      o.ack disk v written = (o, disk, some ⟨(o.deliveredPlanID, v), .failed, some .stateNotPersisted⟩)) ∨
    ((o.stateFile = [] ∨ written = true) ∧
      o.ack disk v written =
        ({ o.emptied with lastAcked := v, lastAckedPlanID := o.deliveredPlanID },
          if o.stateFile = [] then disk else some ⟨o.deliveredPlanID, v⟩,
          some ⟨(o.deliveredPlanID, v), .applied, none⟩)) := by
  unfold ack persistAppliedPlanState
  rw [if_pos h]
  by_cases hfile : o.stateFile = []
  · exact .inr ⟨.inl hfile, by simp [hfile, emptied]⟩
  · cases written with
    | false => exact .inl ⟨hfile, rfl, by simp [hfile]⟩
    | true => exact .inr ⟨.inr rfl, by simp [hfile, emptied]⟩

theorem reject_eq {applyErr : Option Bytes} (h : o.answers v = true) :
    o.reject v applyErr = (o.emptied, some ⟨(o.deliveredPlanID, v), .failed,
      some (.installationRejected applyErr)⟩) := by
  rw [reject, if_pos h, emptied]

theorem new_slots {stateFile : Bytes} {disk : Option AppliedPlanState} {o : OpAmpChannel}
    (ho : new stateFile disk = some o) : o.closed = false ∧ o.pending = none ∧ o.delivered = 0 := by
  unfold new at ho
  split at ho
  · cases ho; exact ⟨rfl, rfl, rfl⟩
  · split at ho
    · cases ho; exact ⟨rfl, rfl, rfl⟩
    · split at ho
      · cases ho
      · cases ho; exact ⟨rfl, rfl, rfl⟩

theorem new_maxVersion {stateFile : Bytes} {disk : Option AppliedPlanState} {o : OpAmpChannel} (hfile : stateFile ≠ [])
    (ho : new stateFile disk = some o) :
    o.stateFile = stateFile ∧ o.maxVersion = (disk.map AppliedPlanState.planVersion).getD 0 := by
  unfold new at ho
  rw [if_neg hfile] at ho
  cases disk with
  | none => cases ho; exact ⟨rfl, rfl⟩
  | some state =>
    dsimp only at ho
    split at ho
    · cases ho
    · cases ho; exact ⟨rfl, rfl⟩

end OpAmpChannel

def PlanReport.appliedVersion? (r : PlanReport) : Option UInt64 := if r.status = .applied then some r.key.2 else none

namespace Lifetimes

open OpAmpChannel

def appliedVersions (l : Lifetimes) : List UInt64 := l.reports.filterMap PlanReport.appliedVersion?

def diskVersion (l : Lifetimes) : UInt64 := (l.disk.map AppliedPlanState.planVersion).getD 0

/-- The body of the plan was accepted, and the time lies in the plan's interval. -/
def Timely (l : Lifetimes) (h : Handout) : Prop :=
  ∃ body ∈ l.accepted, body.decoded = some h.generation ∧ body.identity.activationUnixMS ≤ h.nowUnixMS ∧
    ∀ e ∈ body.identity.expiryUnixMS, h.nowUnixMS < e

/-- Versions go up, a plan is handed out once and in its time, and at most one slot is taken. -/
structure Regular (l : Lifetimes) : Prop where
  applied : l.appliedVersions.Pairwise (· < ·)
  handed : l.handed.Pairwise fun a b => a.generation.set.version < b.generation.set.version
  timely : ∀ h ∈ l.handed, l.Timely h
  single : ∀ o ∈ l.channel, o.pending.isSome → o.delivered = 0

/-- The plan in the first slot is newer than everything before it, and its body was accepted. -/
structure Waits (disk : UInt64) (accepted : List PlanBody) (handed : List Handout) (o : OpAmpChannel) (g : Generation) :
    Prop where
  newest : g.set.version = o.maxVersion
  above : disk < g.set.version
  alone : o.delivered = 0
  unseen : ∀ h ∈ handed, h.generation.set.version < g.set.version
  body : ∃ body ∈ accepted, body.decoded = some g ∧ body.identity.activationUnixMS = o.pendingActivationUnixMS ∧
    body.identity.expiryUnixMS = o.pendingExpiryUnixMS

structure Sound (stateFile : Bytes) (disk : UInt64) (accepted : List PlanBody) (handed : List Handout)
    (o : OpAmpChannel) : Prop where
  file : o.stateFile = stateFile
  floor : disk ≤ o.maxVersion
  waits : ∀ g ∈ o.pending, Waits disk accepted handed o g
  out : o.delivered ≠ 0 → disk < o.delivered ∧ o.delivered ≤ o.maxVersion
  seen : ∀ h ∈ handed, h.generation.set.version ≤ o.maxVersion

structure Inv (stateFile : Bytes) (l : Lifetimes) : Prop where
  applied : l.appliedVersions.Pairwise (· < ·)
  recorded : ∀ v ∈ l.appliedVersions, v ≤ l.diskVersion
  handed : l.handed.Pairwise fun a b => a.generation.set.version < b.generation.set.version
  timely : ∀ h ∈ l.handed, l.Timely h
  sound : ∀ o ∈ l.channel, Sound stateFile l.diskVersion l.accepted l.handed o

variable {stateFile : Bytes} {l : Lifetimes} {o : OpAmpChannel}

theorem Inv.regular (h : Inv stateFile l) : l.Regular where
  applied := h.applied
  handed := h.handed
  timely := h.timely
  single o ho hp := by
    obtain ⟨g, hg⟩ := isSome_iff_exists.mp hp
    exact ((h.sound o ho).waits g hg).alone

theorem Inv.quiet {accepted : List PlanBody} {r : List PlanReport} (h : Inv stateFile l)
    (haccepted : l.accepted ⊆ accepted)
    (hr : ∀ x ∈ r, x.status ≠ .applied) (hsound : Sound stateFile l.diskVersion accepted l.handed o) :
    Inv stateFile { l with channel := some o, accepted, reports := l.reports ++ r } := by
  have happlied : appliedVersions { l with channel := some o, accepted, reports := l.reports ++ r } =
    l.appliedVersions := by
    have hnone : r.filterMap PlanReport.appliedVersion? = [] := filterMap_eq_nil_iff.mpr fun x hx => if_neg (hr x hx)
    rw [appliedVersions, filterMap_append, hnone, append_nil, appliedVersions]
  refine ⟨happlied ▸ h.applied, happlied ▸ h.recorded, h.handed, fun x hx => ?_, fun o' ho' => some.inj ho' ▸ hsound⟩
  obtain ⟨body, hbody, ht⟩ := h.timely x hx
  exact ⟨body, haccepted hbody, ht⟩

theorem inv_init (disk : Option AppliedPlanState) : Inv stateFile { disk } :=
  ⟨.nil, nofun, .nil, nofun, nofun⟩

section
variable (h : Inv stateFile l)
include h

theorem Inv.start (hfile : stateFile ≠ []) : Inv stateFile (l.step stateFile .start) := by
  refine ⟨h.applied, h.recorded, .nil, nofun, fun o ho => ?_⟩
  obtain ⟨-, hpending, hdelivered⟩ := new_slots ho
  obtain ⟨hpath, hmax⟩ := new_maxVersion hfile ho
  exact ⟨hpath, UInt64.le_of_eq hmax.symm, (fun g hg => by rw [hpending] at hg; cases hg),
    fun hne => absurd hdelivered hne, nofun⟩

theorem Inv.receive (ho : l.channel = some o) (body : PlanBody) (now : UInt64) :
    Inv stateFile (l.call o (.receiveCollectorPlan body now)) := by
  have hsound := h.sound o ho
  rcases o.receiveCollectorPlan_cases body now with ⟨err, heq⟩ | ⟨g, hdecoded, hfree, heq⟩
  · simp only [call, heq, reduceCtorEq, if_false, append_nil]
    exact h.quiet (Subset.refl _) (by simp) hsound
  · simp only [call, heq, if_true]
    -- newer than anything before it
    have hbelow : l.diskVersion < g.set.version := UInt64.lt_of_le_of_lt hsound.floor hfree.newer
    have hseen : ∀ x ∈ l.handed, x.generation.set.version < g.set.version := fun x hx =>
      UInt64.lt_of_le_of_lt (hsound.seen x hx) hfree.newer
    refine h.quiet (subset_append_left _ _) (by simp) ⟨hsound.file, UInt64.le_of_lt hbelow, fun g' hg' => ?_,
      fun hne => absurd hfree.delivered hne, fun x hx => UInt64.le_of_lt (hseen x hx)⟩
    obtain rfl : g = g' := some.inj hg'
    exact ⟨rfl, hbelow, hfree.delivered, hseen, body, mem_append_right _ (mem_singleton.mpr rfl), hdecoded, rfl, rfl⟩

theorem Inv.poll (ho : l.channel = some o) (now : UInt64) : Inv stateFile (l.call o (.poll now)) := by
  have hsound := h.sound o ho
  rcases o.poll_cases now with heq | ⟨g, hpending, heq | ⟨hactive, hexpiry, heq⟩⟩
  · simp only [call, heq, toList_none, map_none, append_nil, ← ho]
    exact h
  · simp only [call, heq, toList_some, map_none, toList_none, append_nil]
    exact h.quiet (Subset.refl _) (by simp) ⟨hsound.file, hsound.floor, nofun, hsound.out, hsound.seen⟩
  · have hwaits := hsound.waits g hpending
    obtain ⟨body, hbody, hdecoded, hactivation, hexpiry'⟩ := hwaits.body
    simp only [call, heq, toList_some, map_some, toList_none, append_nil]
    refine ⟨h.applied, h.recorded, ?_, forall_mem_append.mpr ⟨h.timely, forall_mem_singleton.mpr ?_⟩, fun o' ho' => ?_⟩
    · refine pairwise_append.mpr ⟨h.handed, pairwise_singleton _ _, fun x hx y hy => ?_⟩
      exact mem_singleton.mp hy ▸ hwaits.unseen x hx
    · exact ⟨body, hbody, hdecoded, hactivation ▸ hactive, hexpiry' ▸ hexpiry⟩
    · obtain rfl : o.delivering g = o' := some.inj ho'
      exact ⟨hsound.file, hsound.floor, nofun, fun _ => ⟨hwaits.above, UInt64.le_of_eq hwaits.newest⟩,
        forall_mem_append.mpr ⟨hsound.seen, forall_mem_singleton.mpr (UInt64.le_of_eq hwaits.newest)⟩⟩

theorem Inv.reject (ho : l.channel = some o) (v : UInt64) (applyErr : Option Bytes) :
    Inv stateFile (l.call o (.reject v applyErr)) := by
  have hsound := h.sound o ho
  by_cases hanswers : o.answers v = true
  · simp only [call, o.reject_eq hanswers, toList_some]
    exact h.quiet (Subset.refl _) (by simp) ⟨hsound.file, hsound.floor,
      fun g hg => { hsound.waits g hg with alone := rfl }, fun hne => absurd rfl hne, hsound.seen⟩
  · simp only [call, OpAmpChannel.reject, if_neg hanswers, toList_none, append_nil, ← ho]
    exact h

theorem Inv.ack (hfile : stateFile ≠ []) (ho : l.channel = some o) (v : UInt64) (written : Bool) :
    Inv stateFile (l.call o (.ack v written)) := by
  have hsound := h.sound o ho
  by_cases hanswers : o.answers v = true
  · obtain ⟨-, hne, rfl⟩ := o.answers_iff.mp hanswers
    rcases o.ack_cases l.disk written hanswers with ⟨-, -, heq⟩ | ⟨-, heq⟩
    · simp only [call, heq, toList_some]
      exact h.quiet (Subset.refl _) (by simp) hsound
    · obtain ⟨hbelow, hmax⟩ := hsound.out hne
      simp only [call, heq, toList_some, if_neg (hsound.file.symm ▸ hfile)]
      have happlied : (l.reports ++ [(⟨(o.deliveredPlanID, o.delivered), .applied, none⟩ : PlanReport)]).filterMap
          PlanReport.appliedVersion? = l.appliedVersions ++ [o.delivered] := by
        rw [filterMap_append, appliedVersions]
        rfl
      refine ⟨?_, ?_, h.handed, h.timely, fun o' ho' => ?_⟩
      · -- the version applied is above the one in the file, and that one is the last applied
        rw [appliedVersions, happlied]
        refine pairwise_append.mpr ⟨h.applied, pairwise_singleton _ _, fun v hv w hw => ?_⟩
        exact mem_singleton.mp hw ▸ UInt64.lt_of_le_of_lt (h.recorded v hv) hbelow
      · rw [appliedVersions, happlied]
        exact forall_mem_append.mpr ⟨fun v hv => UInt64.le_of_lt (UInt64.lt_of_le_of_lt (h.recorded v hv) hbelow),
          forall_mem_singleton.mpr (UInt64.le_refl _)⟩
      · obtain rfl := some.inj ho'
        exact ⟨hsound.file, hmax, fun g hg => absurd (hsound.waits g hg).alone hne, fun hne' => absurd rfl hne',
          hsound.seen⟩
  · simp only [call, OpAmpChannel.ack, if_neg hanswers, toList_none, append_nil, ← ho]
    exact h

theorem Inv.close (ho : l.channel = some o) : Inv stateFile (l.call o .close) := by
  have hsound := h.sound o ho
  refine ⟨h.applied, h.recorded, h.handed, h.timely, fun o' ho' => ?_⟩
  obtain rfl : o.close = o' := some.inj ho'
  exact ⟨hsound.file, hsound.floor, fun g hg => { hsound.waits g hg with }, hsound.out, hsound.seen⟩

theorem Inv.step (hfile : stateFile ≠ []) (c : LifetimeStep) :
    Inv stateFile (l.step stateFile c) := by
  cases hchannel : l.channel with
  | none =>
    cases c
    case start => exact h.start hfile
    all_goals
      simp only [Lifetimes.step, hchannel]
      exact h
  | some o =>
    cases c <;> simp only [Lifetimes.step, hchannel]
    case start => exact h.start hfile
    case receiveCollectorPlan body now => exact h.receive hchannel body now
    case poll now => exact h.poll hchannel now
    case ack v written => exact h.ack hfile hchannel v written
    case reject v applyErr => exact h.reject hchannel v applyErr
    case close => exact h.close hchannel

end

/-- Over any number of processes that share a state file, whatever their calls and however their writes end,
the versions reported as applied go up, a process hands out a plan once and in its time, and at most one plan
waits or is out for application. -/
theorem applied_versions_increase (hfile : stateFile ≠ []) (disk : Option AppliedPlanState)
    (steps : List LifetimeStep) : (run stateFile disk steps).Regular := by
  have hrun : ∀ {l : Lifetimes}, Inv stateFile l → Inv stateFile (steps.foldl (step stateFile) l) := by
    induction steps with
    | nil => exact fun h => h
    | cons c steps ih => exact fun h => ih (h.step hfile c)
  exact (hrun (inv_init disk)).regular

end Lifetimes

def samplePlan (version : UInt64) (h : version ≠ 0) : PlanBody where
  identity := ⟨1, version, 10, some 20⟩
  decoded := some ⟨⟨version, []⟩, ⟨str "edge", ⟨1, version, str "v1"⟩, []⟩⟩
  version_eq g hg := by cases hg; rfl
  version_ne g hg := by cases hg; exact h

def plan5 : PlanBody := samplePlan 5 (by decide)

def plan7 : PlanBody := samplePlan 7 (by decide)

namespace Lifetimes

/-- The first process applies version 5; the second refuses it and applies version 7 after a failed write. -/
def twoProcesses : List LifetimeStep :=
  [.start, .receiveCollectorPlan plan5 8, .poll 9, .poll 12, .ack 5 true, .start,
    .receiveCollectorPlan plan5 13, .receiveCollectorPlan plan7 14, .poll 15,
    .ack 7 false, .ack 7 true]

theorem applied_versions_increase_restarted :
    (run (str "state") none twoProcesses).appliedVersions = [5, 7] ∧ (run (str "state") none twoProcesses).Regular :=
  ⟨by decide +kernel, applied_versions_increase (by decide) none twoProcesses⟩

end Lifetimes

end AsapCollector.Control
