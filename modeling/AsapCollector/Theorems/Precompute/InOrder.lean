import AsapCollector.Theorems.Precompute.Tumbling

/-! A window that is closed by draining alone moves one step with every drain that finds a series. Data in order meets
the window as long as no drain takes it further ahead of the newest timestamp than the lateness allows. -/

namespace AsapCollector.Precompute

open WindowState History List Call

variable {σ : Type} {F : SketchImpl σ} {cfg : PrecomputeConfig}

def History.newest (h : History σ) : Nat := (h.verdicts.map fun v => v.1.timestampMs).foldl max 0

def Call.timestamp? : Call σ → Option Nat
  | .observe obs _ _ => some obs.timestampMs
  | _ => none

/-- Observations and drains, the observations in the order of their timestamps. -/
structure InOrder (calls : List (Call σ)) : Prop where
  drained : ∀ c ∈ calls, c.timestamp?.isSome = true ∨ ∃ ω, c = .drain ω
  ordered : (calls.filterMap timestamp?).Pairwise (· ≤ ·)

/-- A drain that finds series leaves the newest timestamp within the lateness of the next window. -/
def Paced (cfg : PrecomputeConfig) (h : History σ) : Call σ → Prop
  | .drain _ => h.p.window.series ≠ ∅ → h.p.window.activeEndMs ≤ h.newest + cfg.latenessMs
  | _ => True

/-- Every drain of the run keeps pace. -/
abbrev AllPaced (F : SketchImpl σ) (cfg : PrecomputeConfig) : History σ → List (Call σ) → Prop :=
  Always (step F) (Paced cfg)

structure Meets (cfg : PrecomputeConfig) (timestampMs : Nat) (p : Precompute σ) : Prop where
  config : ∀ c, p.cfg = some c → c = cfg
  pending : p.pendingCfg = none
  start : p.window.initialized = true → p.window.activeStartMs ≤ timestampMs + cfg.latenessMs

variable {p : Precompute σ}

theorem Meets.mono {t t' : Nat} (h : Meets cfg t p) (ht : t ≤ t') : Meets cfg t' p :=
  ⟨h.config, h.pending, fun hi => (h.start hi).trans (Nat.add_le_add_right ht _)⟩

variable {t : Nat}

theorem Meets.withStats (h : Meets cfg t p) (stats : PrecomputeStats) : Meets cfg t (withStats p stats) :=
  ⟨h.config, h.pending, h.start⟩

theorem Meets.activate (h : Meets cfg t p) : Meets cfg t (activatePendingConfig p) := by
  rcases activatePendingConfig_cases p with ⟨heq, -⟩ | ⟨pending, hpending, -⟩
  · rw [heq]
    exact h
  · rw [h.pending] at hpending
    cases hpending

variable {w : WindowState σ}

theorem Meets.finished (h : Meets cfg t p) (r : Rotation σ)
    (hw : w.initialized = true → w.activeStartMs ≤ t + cfg.latenessMs) (nowMs : Nat) :
    Meets cfg t { p with window := (finishRotate F w r cfg nowMs).1 } := by
  have hsame := (@finishRotate_writes σ F cfg w r nowMs).same
  refine ⟨h.config, h.pending, ?_⟩
  rw [hsame.activeStartMs, hsame.initialized]
  exact hw

theorem start_initWindow (h : w.initialized = true → w.activeStartMs ≤ t + cfg.latenessMs) :
    (w.initWindow t cfg).activeStartMs ≤ t + cfg.latenessMs := by
  cases hi : w.initialized with
  | true =>
    rw [initWindow_of_initialized hi]
    exact h hi
  | false => exact (initWindow_le hi t).trans (Nat.le_add_right _ _)

theorem start_advanceWindow (h : 0 < cfg.rotationStepMs → w.activeEndMs ≤ t) :
    (w.advanceWindow t cfg).activeStartMs ≤ t := by
  have hle : t / cfg.rotationStepMs * cfg.rotationStepMs ≤ t := Nat.div_mul_le_self _ _
  unfold advanceWindow
  dsimp only
  split
  · exact Nat.le_refl t
  · dsimp only
    split
    · exact h (by omega)
    · exact hle

theorem drain_empty (hmode : cfg.mode ≠ .sliding) (h : w.series = ∅) (ω : SeriesOrder σ) :
    w.drain F cfg ω = (w, {}) := by
  have hlen : w.series.len = 0 := by rw [h]; rfl
  unfold WindowState.drain
  split
  · rfl
  · rw [if_pos ⟨hlen, .inl hmode⟩]

theorem validateTimestamp_ne_late (h : w.activeStartMs ≤ t + cfg.latenessMs) :
    w.validateTimestamp t cfg ≠ some .lateData := by
  intro hlate
  rcases validateTimestamp_eq_some hlate with ⟨hno, -⟩ | ⟨-, -, hlt⟩
  · cases hno
  · omega

theorem Meets.observeOnce {obs : Observation} (h : Meets cfg obs.timestampMs p) (key : Option Bytes) :
    Meets cfg obs.timestampMs (observeOnce F p key obs).1 ∧ (observeOnce F p key obs).2 ≠ some .lateData := by
  unfold Precompute.observeOnce
  split
  · exact ⟨h, nofun⟩
  · rename_i c hc
    obtain rfl := h.config c hc
    split
    · exact ⟨h, nofun⟩
    · have hstart := start_initWindow h.start
      rcases observeWithKey_cases F c p.window (key.getD (c.seriesKeyFor obs)) obs with
        ⟨err, hwhy, heq⟩ | ⟨-, w₁, stats, hroom, heq⟩
      · rw [heq]
        refine ⟨⟨h.config, h.pending, fun _ => hstart⟩, fun hlate => ?_⟩
        cases hlate
        rcases hwhy with ⟨-, hcap⟩ | hlate
        · cases hcap
        · exact validateTimestamp_ne_late hstart hlate
      · rw [heq]
        refine ⟨⟨h.config, h.pending, fun _ => ?_⟩, fun hlate => ?_⟩
        · rcases hroom with rfl | ⟨-, k, stats', rfl⟩ <;> exact hstart
        · obtain ⟨text, -, hno⟩ := Option.map_eq_some_iff.mp hlate
          cases hno

section
variable (hmode : cfg.mode ≠ .sliding)
include hmode

theorem Meets.rotateForFuture (h : Meets cfg t p)
    (ω : RangeOrders σ) : Meets cfg t (rotateForFuture F p t ω) := by
  cases hc : p.cfg with
  | none =>
    unfold Precompute.rotateForFuture
    rw [hc]
    exact h
  | some c =>
    obtain rfl := h.config c hc
    have hwindow : (p.window.rotate F t c ω.series).1.initialized = true →
        (p.window.rotate F t c ω.series).1.activeStartMs ≤ t + c.latenessMs := by
      rcases rotate_cases hmode p.window t ω.series (F := F) with ⟨heq, -⟩ | ⟨-, hdue, hrot⟩
      · rw [heq]
        exact h.start
      · intro _
        rw [hrot.advanced.1]
        exact (start_advanceWindow hdue).trans (Nat.le_add_right _ _)
    have hfinished : Meets c t (rotateAndFinish F p c t ω).1 := by
      have hdone := h.finished (F := F) (p.window.rotate F t c ω.series).2 hwindow t
      unfold rotateAndFinish
      dsimp only
      split
      · exact hdone
      · exact hdone.activate
    rw [rotateForFuture_eq hc]
    exact ⟨hfinished.config, hfinished.pending, hfinished.start⟩

theorem Meets.observe {obs : Observation} (h : Meets cfg obs.timestampMs p)
    (hscalar : obs.carried = none) (ω : RangeOrders σ) :
    Meets cfg obs.timestampMs (observe F p obs ω).1 ∧ (observe F p obs ω).2 ≠ some .lateData := by
  unfold Precompute.observe
  rcases observeWith_cases F p none hscalar ω with ⟨-, heq⟩ | ⟨counted, stats, ⟨-, heq⟩ | ⟨p', hfuture, heq⟩⟩ <;>
    rw [heq]
  · exact ⟨h, nofun⟩
  · have honce := (h.withStats counted).observeOnce (F := F) none
    exact ⟨honce.1.withStats stats, honce.2⟩
  · have honce := ((h.withStats counted).observeOnce (F := F) none).1
    rw [hfuture] at honce
    have hretry := (honce.rotateForFuture (F := F) hmode ω).observeOnce (F := F) none
    exact ⟨hretry.1.withStats stats, hretry.2⟩

theorem Meets.drain (h : Meets cfg t p)
    (hpaced : p.window.series ≠ ∅ → p.window.activeEndMs ≤ t + cfg.latenessMs) (ω : RangeOrders σ) :
    Meets cfg t (drain F p ω).1 := by
  unfold Precompute.drain
  split
  · exact h
  · rename_i c hc
    obtain rfl := h.config c hc
    have hwindow : (p.window.drain F c ω.series).1.initialized = true →
        (p.window.drain F c ω.series).1.activeStartMs ≤ t + c.latenessMs := by
      by_cases hempty : p.window.series = ∅
      · rw [drain_empty hmode hempty]
        exact h.start
      · rcases drain_cases hmode p.window ω.series (F := F) with ⟨heq, -⟩ | ⟨-, hrot⟩
        · rw [heq]
          exact h.start
        · intro _
          rw [hrot.advanced.1]
          exact (start_advanceWindow fun _ => Nat.le_refl _).trans (hpaced hempty)
    have hdone := (h.finished (F := F) (p.window.drain F c ω.series).2 hwindow
      (p.window.drain F c ω.series).2.endMs).activate
    exact ⟨hdone.config, hdone.pending, hdone.start⟩

end

theorem newest_observe (h : History σ) (obs : Observation) (hscalar : obs.carried = none) (ω : RangeOrders σ) :
    (h.step F (.observe obs hscalar ω)).newest = max h.newest obs.timestampMs := by
  simp [newest, step, foldl_append]

theorem meets_start (cfg : PrecomputeConfig) : Meets cfg 0 (start cfg : History σ).p where
  config c hc := by
    have hfilter : (some cfg).filter PrecomputeConfig.validMatchers = some c := hc
    exact ((Option.filter_eq_some_iff.mp hfilter).1 |> Option.some.inj).symm
  pending := rfl
  start hi := nomatch hi

/-- What a run in order keeps: no observation was late, and the next one will not be. -/
structure Timely (cfg : PrecomputeConfig) (h : History σ) : Prop where
  meets : Meets cfg h.newest h.p
  verdicts : ∀ v ∈ h.verdicts, v.2 ≠ some .lateData

theorem Timely.observe {h : History σ} (hmode : cfg.mode ≠ .sliding) (ht : Timely cfg h) {obs : Observation}
    (hnew : h.newest ≤ obs.timestampMs) (hscalar : obs.carried = none) (ω : RangeOrders σ) :
    Timely cfg (h.step F (.observe obs hscalar ω)) := by
  have hobs := (ht.meets.mono hnew).observe (F := F) hmode hscalar ω
  refine ⟨?_, fun v hv => ?_⟩
  · rw [newest_observe, max_eq_right hnew]
    exact hobs.1
  · exact forall_mem_append.mpr ⟨ht.verdicts, forall_mem_singleton.mpr hobs.2⟩ v hv

theorem Timely.drain {h : History σ} (hmode : cfg.mode ≠ .sliding) (ht : Timely cfg h) {ω : RangeOrders σ}
    (hpaced : Paced cfg h (.drain ω)) : Timely cfg (h.step F (.drain ω)) :=
  ⟨ht.meets.drain hmode hpaced ω, ht.verdicts⟩

theorem Timely.run (hmode : cfg.mode ≠ .sliding) : ∀ {calls : List (Call σ)} {h : History σ}, Timely cfg h →
    InOrder calls → (∀ t ∈ calls.filterMap timestamp?, h.newest ≤ t) → AllPaced F cfg h calls →
    Timely cfg (h.run F calls)
  | [], _, ht, _, _, _ => ht
  | c :: calls, h, ht, ⟨hcalls, hordered⟩, hnew, hpaced => by
    have hrest : ∀ c' ∈ calls, c'.timestamp?.isSome = true ∨ ∃ ω, c' = .drain ω := fun c' hc' =>
      hcalls c' (mem_cons_of_mem _ hc')
    cases c with
    | observe obs hscalar ω =>
      obtain ⟨hfirst, htail⟩ := pairwise_cons.mp hordered
      have hle := hnew obs.timestampMs mem_cons_self
      show Timely cfg ((h.step F (.observe obs hscalar ω)).run F calls)
      refine Timely.run hmode (ht.observe hmode hle hscalar ω) ⟨hrest, htail⟩ (fun t htime => ?_) hpaced.2
      rw [newest_observe, max_eq_right hle]
      exact hfirst t htime
    | drain ω =>
      show Timely cfg ((h.step F (.drain ω)).run F calls)
      exact Timely.run hmode (ht.drain hmode hpaced.1) ⟨hrest, hordered⟩ hnew hpaced.2
    | tick nowMs ω => exact absurd (hcalls _ mem_cons_self) (by simp [timestamp?])
    | emitSubWindow nowMs ω => exact absurd (hcalls _ mem_cons_self) (by simp [timestamp?])

theorem Timely.start (cfg : PrecomputeConfig) : Timely cfg (start cfg : History σ) :=
  ⟨meets_start cfg, fun _ hv => nomatch hv⟩

/-- Where every drain keeps pace with the data, no observation in order is late. -/
theorem in_order_never_late (F : SketchImpl σ) (cfg : PrecomputeConfig) (hmode : cfg.mode = .tumbling)
    (calls : List (Call σ)) (horder : InOrder calls) (hpaced : AllPaced F cfg (start cfg) calls) :
    ∀ v ∈ ((start cfg).run F calls).verdicts, v.2 ≠ some .lateData := by
  have hnew : ∀ t ∈ calls.filterMap timestamp?, (start cfg : History σ).newest ≤ t := fun t _ => Nat.zero_le t
  exact (Timely.run (by rw [hmode]; decide) (.start cfg) horder hnew hpaced).verdicts

/-- Windows of ten milliseconds, and samples up to ten milliseconds before them. -/
def tenMsLate : PrecomputeConfig :=
  { tenMs with window := { size := 10 * millisecond, allowedLateness := 10 * millisecond } }

/-- A second sample of one timestamp after a drain, and a third after the window has caught up. -/
theorem in_order_never_late_drained :
    tenMsLate.mode = .tumbling ∧ ∀ v ∈ ((start tenMsLate).run counter [sampleAt (str "cpu") 12, .drain (.stored _),
      sampleAt (str "cpu") 12,
      sampleAt (str "cpu") 25, .drain (.stored _), sampleAt (str "cpu") 25]).verdicts, v.2 ≠ some .lateData :=
  ⟨rfl, in_order_never_late counter tenMsLate rfl _
    ⟨by simp [sampleAt, timestamp?], by decide⟩
    ⟨trivial, fun _ => by decide +kernel, trivial, trivial, fun _ => by decide +kernel, trivial, trivial⟩⟩

/-- The same timestamp three times, with a drain after each: the third is late. -/
theorem drains_outrun_data :
    tenMsLate.mode = .tumbling ∧ tenMsLate.window.size ≤ tenMsLate.window.allowedLateness ∧
      InOrder [sampleAt (str "cpu") 0, .drain (.stored _), sampleAt (str "cpu") 0, .drain (.stored _),
        sampleAt (str "cpu") 0] ∧
      ((start tenMsLate).run counter [sampleAt (str "cpu") 0, .drain (.stored _), sampleAt (str "cpu") 0,
        .drain (.stored _), sampleAt (str "cpu") 0]).verdicts.map Prod.snd = [none, none, some .lateData] :=
  ⟨rfl, by decide, ⟨by simp [sampleAt, timestamp?], by decide⟩, by decide +kernel⟩

end AsapCollector.Precompute
