import AsapCollector.Control.LifecycleRust

/-! Staged plans, the active plan and the statuses stay coherent, and versions of the active plan only grow. -/

namespace AsapCollector.Control.Rust.CollectorPlanLifecycle

open AList Option

variable {l : CollectorPlanLifecycle}

/-! ### Statuses -/

theorem lookup_setPhase (statuses : GoMap Generation PlanStatus) (key key' : Generation) (phase : PlanPhase) :
    (setPhase statuses key phase).lookup key' =
      if key' = key then (statuses.lookup key).map fun status => { status with phase } else statuses.lookup key' := by
  unfold setPhase
  cases h : statuses.lookup key with
  | none =>
    by_cases hk : key' = key
    · rw [hk, if_pos rfl, h]
      rfl
    · rw [if_neg hk]
  | some status =>
    by_cases hk : key' = key
    · rw [hk, if_pos rfl, lookup_insert]
      rfl
    · rw [if_neg hk, lookup_insert_ne hk]

theorem phase_setPhase (l : CollectorPlanLifecycle) (key key' : Generation) (phase : PlanPhase) :
    ({ l with statuses := setPhase l.statuses key phase } : CollectorPlanLifecycle).phase? key' =
      if key' = key then (l.phase? key).map fun _ => phase else l.phase? key' := by
  unfold phase?
  rw [lookup_setPhase]
  split <;> simp [Function.comp_def]

variable {statuses : GoMap Generation PlanStatus}

theorem named_setPhase
    (h : ∀ key status, statuses.lookup key = some status → (status.planID, status.planVersion) = key) (key : Generation)
    (phase : PlanPhase) :
    ∀ key' status, (setPhase statuses key phase).lookup key' = some status →
      (status.planID, status.planVersion) = key' := by
  intro key' status hstatus
  rw [lookup_setPhase] at hstatus
  split at hstatus
  · next hk =>
    obtain ⟨old, hold, rfl⟩ := map_eq_some_iff.mp hstatus
    exact (h key old hold).trans hk.symm
  · exact h key' status hstatus

variable {key : Generation}

theorem mem_keys_of_phase {phase : PlanPhase} (h : l.phase? key = some phase) : key ∈ l.statuses.keys := by
  obtain ⟨status, hstatus, -⟩ := map_eq_some_iff.mp h
  exact GoMap.mem_keys_of_lookup hstatus

/-! ### stage -/

theorem stage_cases (l : CollectorPlanLifecycle) (plan : CollectorPlan) (collectorID : Bytes) (nowUnixMS : UInt64) :
    (∃ e, l.stage plan collectorID nowUnixMS = (l, .error (.plan e))) ∨ plan.generation ∉ l.statuses.keys ∧
      l.stage plan collectorID nowUnixMS = ({ l with
        statuses := l.statuses.insert plan.generation ⟨plan.generation.1, plan.generation.2, .staged⟩
        staged := l.staged.insert plan.generation plan }, .ok ()) := by
  unfold stage
  split
  · exact .inl ⟨_, rfl⟩
  · split
    · exact .inl ⟨_, rfl⟩
    · split
      · exact .inl ⟨_, rfl⟩
      · next hnew =>
        split
        · exact .inl ⟨_, rfl⟩
        · exact .inr ⟨hnew, rfl⟩

theorem phase_eq_none (h : key ∉ l.statuses.keys) : l.phase? key = none := by
  rw [phase?, lookup_eq_none.mpr h, map_none]

theorem Coherent.stage (h : l.Coherent) (plan : CollectorPlan) (collectorID : Bytes) (nowUnixMS : UInt64) :
    (l.stage plan collectorID nowUnixMS).1.Coherent := by
  rcases stage_cases l plan collectorID nowUnixMS with ⟨e, heq⟩ | ⟨hnew, heq⟩ <;> rw [heq]
  · exact h
  have hactive := h.active plan.generation
  rw [phase_eq_none hnew] at hactive
  refine ⟨fun key => ?_, fun key => ?_, GoMap.forall_lookup_insert h.plans rfl, GoMap.forall_lookup_insert h.named
    rfl⟩ <;> by_cases hk : key = plan.generation
  · subst hk
    simp [phase?]
  · simpa [phase?, hk] using h.staged key
  · subst hk
    simpa [phase?] using hactive
  · simpa [phase?, hk] using h.active key

/-! ### activate -/

def activated (l : CollectorPlanLifecycle) (plan : CollectorPlan) : CollectorPlanLifecycle :=
  let l := ({ l with staged := l.staged.erase plan.generation } : CollectorPlanLifecycle).cutOver plan
  { l with statuses := setPhase l.statuses plan.generation .active }

def expired (l : CollectorPlanLifecycle) (key : Generation) : CollectorPlanLifecycle :=
  { l with staged := l.staged.erase key, statuses := setPhase l.statuses key .retired }

/-- What an activation does: it finds no plan, puts it back, retires it, or makes it the active one. -/
inductive Activation (l : CollectorPlanLifecycle) (nowUnixMS : UInt64) (key : Generation) :
    CollectorPlanLifecycle × Except LifecycleError CollectorPlan → Prop
  | missing : Activation l nowUnixMS key (l, .error notStaged)
  | refused (plan : CollectorPlan) (e : LifecycleError) (hplan : l.staged.lookup key = some plan)
    (herr : e ≠ .panicked) :
      Activation l nowUnixMS key ({ l with staged := (l.staged.erase key).insert key plan }, .error e)
  | expired (hstaged : l.phase? key = some .staged) :
    Activation l nowUnixMS key (l.expired key, .error activationExpired)
  | activated (plan : CollectorPlan) (hplan : l.staged.lookup key = some plan)
      (hdue : plan.activationUnixMS ≤ nowUnixMS) (hexpiry : ∀ expiry ∈ plan.expiryUnixMS, nowUnixMS < expiry)
      (hnewer : ∀ active ∈ l.active, active.envelope.planVersion < plan.envelope.planVersion) :
      Activation l nowUnixMS key (l.activated plan, .ok plan)

variable {plan : CollectorPlan}

theorem Coherent.mem_keys (h : l.Coherent) (hplan : l.staged.lookup key = some plan) :
    key ∈ l.statuses.keys :=
  mem_keys_of_phase ((h.staged key).mp ⟨plan, hplan⟩)

theorem mem_keys_setPhase {key key' : Generation} {phase : PlanPhase}
    (h : key' ∈ statuses.keys) : key' ∈ (setPhase statuses key phase).keys := by
  unfold setPhase
  split
  · exact (mem_insert _).mpr (.inr h)
  · exact h

theorem activation (h : l.Coherent) (planID planVersion nowUnixMS : UInt64) :
    Activation l nowUnixMS (planID, planVersion) (l.activate planID planVersion nowUnixMS) := by
  unfold activate
  dsimp only
  cases hplan : l.staged.lookup (planID, planVersion) with
  | none => exact .missing
  | some plan =>
    have hkey := h.mem_keys hplan
    have hgen := h.plans _ _ hplan
    dsimp only
    split
    · exact .refused plan _ hplan (by decide)
    · next hdue =>
      split
      · rw [expectPhase, if_pos hkey]
        exact .expired ((h.staged _).mp ⟨plan, hplan⟩)
      · next hexpiry =>
        split
        · exact .refused plan _ hplan (by decide)
        · next hnewer =>
          have hkept : (planID, planVersion) ∈
              (({ l with staged := l.staged.erase (planID, planVersion) } : CollectorPlanLifecycle).cutOver
                plan).statuses.keys := by
            cases l.active with
            | none => exact hkey
            | some previous => exact mem_keys_setPhase hkey
          rw [expectPhase, if_pos hkept, ← hgen]
          refine .activated plan (hgen ▸ hplan) (UInt64.not_lt.mp hdue) (fun expiry hmem => ?_) fun active hmem => ?_
          · simpa [mem_def.mp hmem] using hexpiry
          · simpa [mem_def.mp hmem] using hnewer

theorem same_refused (h : l.staged.lookup key = some plan) :
    l.Same { l with staged := (l.staged.erase key).insert key plan } := by
  refine ⟨rfl, fun key' => ?_, fun _ => rfl⟩
  by_cases hk : key' = key
  · rw [hk, lookup_insert, h]
  · rw [lookup_insert_ne hk, lookup_erase_ne hk]

variable {l' : CollectorPlanLifecycle}

theorem Coherent.same (h : l.Coherent) (hsame : l.Same l') : l'.Coherent := by
  obtain ⟨hactive, hstaged, hstatuses⟩ := hsame
  have hphase : ∀ key, l'.phase? key = l.phase? key := fun key => by rw [phase?, hstatuses, phase?]
  constructor
  · intro key
    rw [hstaged, hphase]
    exact h.staged key
  · intro key
    rw [hactive, hphase]
    exact h.active key
  · intro key plan hplan
    rw [hstaged] at hplan
    exact h.plans key plan hplan
  · intro key status hstatus
    rw [hstatuses] at hstatus
    exact h.named key status hstatus

theorem lookup_erase {key key' : Generation} (staged : GoMap Generation CollectorPlan) :
    (staged.erase key).lookup key' = if key' = key then none else staged.lookup key' := by
  split
  · next hk => rw [hk, AList.lookup_erase]
  · next hk => rw [lookup_erase_ne hk]

section
variable (h : l.Coherent)
include h

theorem Coherent.expired (hphase : l.phase? key = some .staged) :
    (l.expired key).Coherent := by
  have hnew : ∀ key', (l.expired key).phase? key' = if key' = key then some .retired else l.phase? key' :=
    fun key' => by
    have hset := phase_setPhase l key key' .retired
    rw [hphase] at hset
    exact hset
  have hstaged : (l.expired key).staged = l.staged.erase key := rfl
  have hkept : (l.expired key).active = l.active := rfl
  have hactive := h.active key
  rw [hphase] at hactive
  refine ⟨fun key' => ?_, fun key' => ?_, fun key' plan hplan => ?_, named_setPhase h.named key .retired⟩ <;>
    by_cases hk : key' = key
  · simp [hnew, hstaged, lookup_erase, hk]
  · simpa [hnew, hstaged, lookup_erase, hk] using h.staged key'
  · simpa [hnew, hkept, hk] using hactive
  · simpa [hnew, hkept, hk] using h.active key'
  · simp [hstaged, lookup_erase, hk] at hplan
  · exact h.plans key' plan (by simpa [hstaged, lookup_erase, hk] using hplan)

theorem phase_cutOver (staged : GoMap Generation CollectorPlan) (plan : CollectorPlan) (key : Generation) :
    (({ l with staged := staged } : CollectorPlanLifecycle).cutOver plan).phase? key =
      if l.phase? key = some .active then some .draining else l.phase? key := by
  cases hactive : l.active with
  | some previous =>
    have hprevious : l.phase? previous.generation = some .active := (h.active _).mpr ⟨previous, hactive, rfl⟩
    have honly : l.phase? key = some .active ↔ key = previous.generation := by
      rw [h.active key, hactive]
      constructor
      · rintro ⟨p, hp, rfl⟩
        cases hp
        rfl
      · rintro rfl
        exact ⟨previous, rfl, rfl⟩
    have hset := phase_setPhase l previous.generation key .draining
    simp only [hprevious, map_some] at hset
    simp only [honly]
    exact hset
  | none =>
    have hno : l.phase? key ≠ some .active := fun hkey => by
      obtain ⟨previous, hprevious, -⟩ := (h.active key).mp hkey
      rw [hactive] at hprevious
      cases hprevious
    rw [if_neg hno]
    rfl

theorem phase_activated (hphase : l.phase? plan.generation = some .staged)
    (key : Generation) :
    (l.activated plan).phase? key = if key = plan.generation then some .active
      else if l.phase? key = some .active then some .draining else l.phase? key := by
  have hcut := phase_cutOver h (l.staged.erase plan.generation) plan
  have hset := phase_setPhase (({ l with staged := l.staged.erase plan.generation } : CollectorPlanLifecycle).cutOver
    plan) plan.generation key .active
  rw [hcut, hcut, hphase] at hset
  exact hset

theorem Coherent.activated (hplan : l.staged.lookup plan.generation = some plan) :
    (l.activated plan).Coherent := by
  have hnew := phase_activated h ((h.staged _).mp ⟨plan, hplan⟩)
  have hstaged : (l.activated plan).staged = l.staged.erase plan.generation := rfl
  have hactive : (l.activated plan).active = some plan := rfl
  refine ⟨fun key => ?_, fun key => ?_, fun key p hp => ?_, ?_⟩
  · rw [hnew, hstaged, lookup_erase]
    split
    · simp
    · split
      · next hphase =>
        have hiff := h.staged key
        rw [hphase] at hiff
        simpa using hiff
      · exact h.staged key
  · rw [hnew, hactive]
    split
    · next hk => simp [hk]
    · next hk =>
      have hno : ¬∃ p, some plan = some p ∧ p.generation = key := by
        rintro ⟨p, hp, rfl⟩
        cases hp
        exact hk rfl
      split <;> simp_all
  · rw [hstaged, lookup_erase] at hp
    split at hp
    · cases hp
    · exact h.plans key p hp
  · refine named_setPhase ?_ plan.generation .active
    cases l.active with
    | none => exact h.named
    | some previous => exact named_setPhase h.named previous.generation .draining

theorem Coherent.retireDrained : l.retireDrained.Coherent := by
  have hlook : ∀ key, l.retireDrained.statuses.lookup key = (l.statuses.lookup key).map fun status =>
      if status.phase = .draining then { status with phase := .retired } else status := fun key =>
    GoMap.lookup_map_eq
  have hphase : ∀ key (phase : PlanPhase), phase = .staged ∨ phase = .active →
      (l.retireDrained.phase? key = some phase ↔ l.phase? key = some phase) := by
    intro key phase hor
    unfold phase?
    rw [hlook]
    cases l.statuses.lookup key with
    | none => simp
    | some status =>
      obtain ⟨id, version, current⟩ := status
      rcases hor with rfl | rfl <;> cases current <;> simp
  refine ⟨fun key => ?_, fun key => ?_, h.plans, fun key status hstatus => ?_⟩
  · rw [hphase key _ (.inl rfl)]
    exact h.staged key
  · rw [hphase key _ (.inr rfl)]
    exact h.active key
  · rw [hlook] at hstatus
    obtain ⟨old, hold, rfl⟩ := map_eq_some_iff.mp hstatus
    have hname := h.named key old hold
    split <;> exact hname

end

/-! ### Runs -/

def Advanced (l l' : CollectorPlanLifecycle) : Prop :=
  ∀ plan ∈ l.active, ∃ plan' ∈ l'.active, plan' = plan ∨ plan.envelope.planVersion < plan'.envelope.planVersion

theorem Advanced.of_active (h : l'.active = l.active) : l.Advanced l' :=
  fun plan hplan => ⟨plan, h ▸ hplan, .inl rfl⟩

theorem Advanced.trans {l₁ l₂ l₃ : CollectorPlanLifecycle} (h : l₁.Advanced l₂) (h' : l₂.Advanced l₃) :
    l₁.Advanced l₃ := by
  intro plan hplan
  obtain ⟨plan', hplan', hnewer⟩ := h plan hplan
  obtain ⟨plan'', hplan'', hnewer'⟩ := h' plan' hplan'
  refine ⟨plan'', hplan'', ?_⟩
  rcases hnewer with rfl | hlt
  · exact hnewer'
  · rcases hnewer' with rfl | hlt'
    · exact .inr hlt
    · exact .inr (UInt64.lt_trans hlt hlt')

def Timely (c : LifecycleCall) (plan : CollectorPlan) : Prop :=
  ∃ nowUnixMS, c = .activate plan.envelope.planID plan.envelope.planVersion nowUnixMS ∧
    plan.activationUnixMS ≤ nowUnixMS ∧ ∀ expiry ∈ plan.expiryUnixMS, nowUnixMS < expiry

structure Stepped (l : CollectorPlanLifecycle) (c : LifecycleCall)
    (r : CollectorPlanLifecycle × Option LifecycleError) : Prop where
  coherent : r.1.Coherent
  advanced : l.Advanced r.1
  timely : r.1.active ≠ l.active → ∃ plan, r.1.active = some plan ∧ Timely c plan
  safe : r.2 ≠ some .panicked

theorem Stepped.of_active {c : LifecycleCall} {r : CollectorPlanLifecycle × Option LifecycleError}
    (hcoherent : r.1.Coherent) (hactive : r.1.active = l.active) (hsafe : r.2 ≠ some .panicked) : l.Stepped c r :=
  ⟨hcoherent, .of_active hactive, fun h => absurd hactive h, hsafe⟩

theorem Coherent.stepped (h : l.Coherent) (c : LifecycleCall) : l.Stepped c (l.step c) := by
  cases c with
  | stage plan collectorID nowUnixMS =>
    have hcoherent := h.stage plan collectorID nowUnixMS
    rw [step]
    rcases stage_cases l plan collectorID nowUnixMS with ⟨e, heq⟩ | ⟨-, heq⟩ <;> rw [heq] at hcoherent ⊢ <;>
      exact .of_active hcoherent rfl nofun
  | retireDrained => exact .of_active h.retireDrained rfl nofun
  | activate planID planVersion nowUnixMS =>
    have hcases := activation h planID planVersion nowUnixMS
    rw [step]
    generalize l.activate planID planVersion nowUnixMS = result at hcases
    cases hcases with
    | missing => exact .of_active h rfl nofun
    | refused plan e hplan herr => exact .of_active (h.same (same_refused hplan)) rfl fun heq => herr (some.inj heq)
    | expired hstaged => exact .of_active (h.expired hstaged) rfl nofun
    | activated plan hplan hdue hexpiry hnewer =>
      have hgen : plan.generation = (planID, planVersion) := h.plans _ _ hplan
      obtain ⟨hid, hversion⟩ := Prod.mk.inj hgen
      exact ⟨h.activated (hgen ▸ hplan), fun active hactive => ⟨plan, rfl, .inr (hnewer active hactive)⟩,
        fun _ => ⟨plan, rfl, nowUnixMS, by rw [hid, hversion], hdue, hexpiry⟩, nofun⟩

theorem coherent_start : ({} : CollectorPlanLifecycle).Coherent :=
  ⟨fun _ => by simp [phase?, lookup_empty], fun _ => by simp [phase?, lookup_empty],
    fun key plan h => by simp [lookup_empty] at h, fun key status h => by simp [lookup_empty] at h⟩

theorem Coherent.run (h : l.Coherent) (calls : List LifecycleCall) :
    (l.run calls).Coherent ∧ l.Advanced (l.run calls) := by
  induction calls generalizing l with
  | nil => exact ⟨h, .of_active rfl⟩
  | cons c calls ih =>
    have hstep := h.stepped c
    obtain ⟨hcoherent, hadvanced⟩ := ih hstep.coherent
    exact ⟨hcoherent, hstep.advanced.trans hadvanced⟩

theorem same_of_refused {planID planVersion nowUnixMS : UInt64} {e : LifecycleError} (h : l.Coherent)
    (herr : (l.activate planID planVersion nowUnixMS).2 = .error e) (he : e = notYetDue ∨ e = wouldDowngrade) :
    l.Same (l.activate planID planVersion nowUnixMS).1 := by
  have hcases := activation h planID planVersion nowUnixMS
  generalize l.activate planID planVersion nowUnixMS = result at hcases herr
  cases hcases with
  | missing =>
    cases herr
    exact absurd he (by decide)
  | refused plan e' hplan => exact same_refused hplan
  | expired =>
    cases herr
    exact absurd he (by decide)
  | activated => cases herr

/-- Along every sequence of calls of a fresh lifecycle: staged plans, active plan and statuses agree; whatever is called
later, the active plan stays or gives way to a newer version; a call that changes the active plan activates one that is
due and has not expired; no call panics; and an activation refused as early or as a downgrade leaves the lifecycle the
same. -/
theorem lifecycle_invariants (calls : List LifecycleCall) :
    let l := run {} calls
    l.Coherent ∧ (∀ later, l.Advanced (run {} (calls ++ later))) ∧
      (∀ c, (l.step c).1.active ≠ l.active → ∃ plan, (l.step c).1.active = some plan ∧ Timely c plan) ∧
      (∀ c, (l.step c).2 ≠ some .panicked) ∧
      ∀ planID planVersion nowUnixMS e, (l.activate planID planVersion nowUnixMS).2 = .error e →
        e = notYetDue ∨ e = wouldDowngrade → l.Same (l.activate planID planVersion nowUnixMS).1 := by
  intro l
  have hcoherent : l.Coherent := (coherent_start.run calls).1
  refine ⟨hcoherent, fun later => ?_, fun c => (hcoherent.stepped c).timely, fun c => (hcoherent.stepped c).safe,
    fun _ _ _ _ => same_of_refused hcoherent⟩
  rw [show run {} (calls ++ later) = l.run later from List.foldl_append]
  exact (hcoherent.run later).2

end AsapCollector.Control.Rust.CollectorPlanLifecycle
