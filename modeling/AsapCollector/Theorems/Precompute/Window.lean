import AsapCollector.Theorems.Precompute.Close

/-! What `observeWithKey`, `rotate` and `drain` do to a window, as equations. -/

namespace AsapCollector.Precompute.WindowState

open SnapshotCache

variable {σ : Type} {F : SketchImpl σ} {cfg : PrecomputeConfig} {w : WindowState σ}

theorem initWindow_of_initialized (h : w.initialized = true) (refMs : Nat) : w.initWindow refMs cfg = w := by
  rw [initWindow, if_pos h]

@[simp] theorem initialized_initWindow (w : WindowState σ) (refMs : Nat) :
    (w.initWindow refMs cfg).initialized = true := by
  unfold initWindow
  split
  · assumption
  · rfl

@[simp] theorem series_initWindow (w : WindowState σ) (refMs : Nat) : (w.initWindow refMs cfg).series = w.series := by
  unfold initWindow
  split <;> rfl

@[simp] theorem panes_initWindow (w : WindowState σ) (refMs : Nat) : (w.initWindow refMs cfg).panes = w.panes := by
  unfold initWindow
  split <;> rfl

@[simp] theorem snapshotCache_initWindow (w : WindowState σ) (refMs : Nat) :
    (w.initWindow refMs cfg).snapshotCache = w.snapshotCache := by
  unfold initWindow
  split <;> rfl

@[simp] theorem log_initWindow (w : WindowState σ) (refMs : Nat) : (w.initWindow refMs cfg).log = w.log := by
  unfold initWindow
  split <;> rfl

theorem validateTimestamp_eq_none {ts : Nat} (h : w.validateTimestamp ts cfg = none) :
    ts < w.activeEndMs ∧ w.activeStartMs ≤ ts + cfg.latenessMs := by
  unfold validateTimestamp at h
  split at h
  · cases h
  · split at h
    · cases h
    · omega

theorem validateTimestamp_eq_some {ts : Nat} {err : PrecomputeError} (h : w.validateTimestamp ts cfg = some err) :
    (err = .futureData ∧ w.activeEndMs ≤ ts) ∨
      (err = .lateData ∧ ts < w.activeEndMs ∧ ts + cfg.latenessMs < w.activeStartMs) := by
  unfold validateTimestamp at h
  split at h
  · exact Or.inl ⟨(Option.some.inj h).symm, by assumption⟩
  · split at h
    · exact Or.inr ⟨(Option.some.inj h).symm, by omega, by omega⟩
    · cases h

theorem observeWithKey_eq_locked (w : WindowState σ) (key : Bytes) (obs : Observation) :
    w.observeWithKey F key obs cfg = w.observeLocked F key obs cfg := by
  unfold observeWithKey observeExisting
  cases hi : w.initialized with
  | false => rfl
  | true =>
    unfold observeLocked
    simp only [if_true, initWindow_of_initialized hi]
    cases w.validateTimestamp obs.timestampMs cfg with
    | some err => rfl
    | none =>
      cases w.series.lookup key with
      | some entry => rfl
      | none => rfl

def entryFor (F : SketchImpl σ) (w : WindowState σ) (key : Bytes) (obs : Observation) (cfg : PrecomputeConfig) :
    SeriesEntry σ :=
  (w.series.lookup key).getD (newEntry F key obs cfg)

/-- The window has made room for a series, by an eviction where the policy asks for one. -/
def MadeRoom (cfg : PrecomputeConfig) (w w' : WindowState σ) : Prop :=
  w' = w ∨ (cfg.maxSeries ≠ 0 ∧ cfg.onOverflow = .evictOldest) ∧ ∃ k stats,
    w' = { w with series := w.series.erase k, snapshotCache := w.snapshotCache.delete k, stats }

theorem MadeRoom.lookup {w w' : WindowState σ} (h : MadeRoom cfg w w') {key : Bytes} (hl : w.series.lookup key = none) :
    w'.series.lookup key = none := by
  rcases h with rfl | ⟨-, k, stats, rfl⟩
  · exact hl
  · by_cases hk : key = k
    · subst hk
      exact AList.lookup_erase _ _
    · exact (AList.lookup_erase_ne hk).trans hl

theorem makeRoom_cases (cfg : PrecomputeConfig) (w : WindowState σ) :
    cfg.maxSeries ≠ 0 ∧ w.makeRoom cfg = .error .seriesCapExceeded ∨
      ∃ w', w.makeRoom cfg = .ok w' ∧ MadeRoom cfg w w' := by
  unfold makeRoom
  split
  · exact Or.inr ⟨w, rfl, Or.inl rfl⟩
  · rename_i hfull
    cases hpolicy : cfg.onOverflow with
    | drop => exact Or.inl ⟨fun hzero => hfull (Or.inl hzero), rfl⟩
    | block => exact Or.inl ⟨fun hzero => hfull (Or.inl hzero), rfl⟩
    | evictOldest =>
      refine Or.inr ⟨w.evictOldest, rfl, ?_⟩
      unfold evictOldest
      cases w.oldest with
      | none => exact Or.inl rfl
      | some e => exact Or.inr ⟨⟨fun hzero => hfull (Or.inl hzero), hpolicy⟩, e.seriesKey, _, rfl⟩

theorem admitSeries_cases (F : SketchImpl σ) (cfg : PrecomputeConfig) (w : WindowState σ) (key : Bytes)
    (obs : Observation) :
    cfg.maxSeries ≠ 0 ∧ w.admitSeries F key obs cfg = .error .seriesCapExceeded ∨ ∃ w', MadeRoom cfg w w' ∧
      w.admitSeries F key obs cfg = .ok ({ w' with
        series := w'.series.insert key (newEntry F key obs cfg)
        stats.activeSeries := w'.stats.activeSeries + 1 }, newEntry F key obs cfg) := by
  unfold admitSeries
  split
  · exact Or.inr ⟨w, Or.inl rfl, rfl⟩
  · rcases makeRoom_cases cfg w with ⟨hcap, h⟩ | ⟨w', h, hroom⟩
    · rw [h]
      exact Or.inl ⟨hcap, rfl⟩
    · rw [h]
      exact Or.inr ⟨w', hroom, rfl⟩

theorem observeWithKey_cases (F : SketchImpl σ) (cfg : PrecomputeConfig) (w : WindowState σ) (key : Bytes)
    (obs : Observation) :
    (∃ err, (cfg.maxSeries ≠ 0 ∧ err = .seriesCapExceeded ∨
        (w.initWindow obs.timestampMs cfg).validateTimestamp obs.timestampMs cfg = some err) ∧
        w.observeWithKey F key obs cfg = (w.initWindow obs.timestampMs cfg, some err)) ∨
      (w.initWindow obs.timestampMs cfg).validateTimestamp obs.timestampMs cfg = none ∧
        ∃ w₁ stats, MadeRoom cfg (w.initWindow obs.timestampMs cfg) w₁ ∧
          w.observeWithKey F key obs cfg =
            ({ w₁ with series := w₁.series.insert key (recordedEntry F (w₁.entryFor F key obs cfg) obs cfg), stats },
              (F.observe (w₁.entryFor F key obs cfg).sketch obs.value).2.map .sketchObserve) := by
  rw [observeWithKey_eq_locked]
  unfold observeLocked
  dsimp only
  generalize w.initWindow obs.timestampMs cfg = w₀
  cases w₀.validateTimestamp obs.timestampMs cfg with
  | some err => exact Or.inl ⟨err, Or.inr rfl, rfl⟩
  | none =>
    cases hl : w₀.series.lookup key with
    | some entry =>
      refine Or.inr ⟨rfl, w₀, w₀.stats, Or.inl rfl, ?_⟩
      unfold entryFor
      rw [hl]
      rfl
    | none =>
      rcases admitSeries_cases F cfg w₀ key obs with ⟨hcap, h⟩ | ⟨w₁, hroom, h⟩
      · rw [h]
        exact Or.inl ⟨_, Or.inl ⟨hcap, rfl⟩, rfl⟩
      · rw [h]
        refine Or.inr ⟨rfl, w₁, { w₁.stats with activeSeries := w₁.stats.activeSeries + 1 }, hroom, ?_⟩
        unfold record entryFor
        simp only [hroom.lookup hl, Option.getD_none, AList.insert_insert]

theorem observeWithKey_uncapped (hcap : cfg.maxSeries = 0) (w : WindowState σ) (key : Bytes) (obs : Observation) :
    (∃ err, (w.initWindow obs.timestampMs cfg).validateTimestamp obs.timestampMs cfg = some err ∧
        w.observeWithKey F key obs cfg = (w.initWindow obs.timestampMs cfg, some err)) ∨
      ((w.initWindow obs.timestampMs cfg).validateTimestamp obs.timestampMs cfg = none ∧
        ∃ stats, w.observeWithKey F key obs cfg =
          ({ w.initWindow obs.timestampMs cfg with
              series := w.series.insert key (recordedEntry F (w.entryFor F key obs cfg) obs cfg)
              stats := stats },
            (F.observe (w.entryFor F key obs cfg).sketch obs.value).2.map .sketchObserve)) := by
  rcases observeWithKey_cases F cfg w key obs with ⟨err, ⟨hno, -⟩ | herr, heq⟩ | ⟨hv, w₁, stats, hroom, heq⟩
  · exact absurd hcap hno
  · exact Or.inl ⟨err, herr, heq⟩
  · rcases hroom with rfl | ⟨hno, -⟩
    · refine Or.inr ⟨hv, stats, ?_⟩
      rw [heq, entryFor, entryFor, series_initWindow]
    · exact absurd hcap hno.1

theorem advanceWindow_frame (w : WindowState σ) (nowMs : Nat) :
    (w.advanceWindow nowMs cfg).series = w.series ∧ (w.advanceWindow nowMs cfg).initialized = w.initialized ∧
      (w.advanceWindow nowMs cfg).panes = w.panes ∧ (w.advanceWindow nowMs cfg).snapshotCache = w.snapshotCache ∧
      (w.advanceWindow nowMs cfg).log = w.log := by
  unfold advanceWindow
  dsimp only
  split <;> exact ⟨rfl, rfl, rfl, rfl, rfl⟩

theorem advanceWindow_bounds {step nowMs : Nat} (hstep : cfg.rotationStepMs = step) (hpos : 0 < step)
    (hdvd : step ∣ w.activeStartMs) (hend : w.activeEndMs = w.activeStartMs + step) (hnow : w.activeEndMs ≤ nowMs) :
    step ∣ (w.advanceWindow nowMs cfg).activeStartMs ∧
      (w.advanceWindow nowMs cfg).activeEndMs = (w.advanceWindow nowMs cfg).activeStartMs + step ∧
      w.activeEndMs ≤ (w.advanceWindow nowMs cfg).activeStartMs ∧
      (w.advanceWindow nowMs cfg).activeStartMs ≤ nowMs ∧ nowMs < (w.advanceWindow nowMs cfg).activeEndMs := by
  -- `nowMs` lies in its own bucket, which starts at the end of the window or later
  have hbucket : w.activeEndMs ≤ nowMs / step * step := by
    obtain ⟨q, hq⟩ := hdvd
    have hq' : (q + 1) * step ≤ nowMs := by rw [hend, hq] at hnow; nlinarith
    rw [hend, hq]
    calc step * q + step = (q + 1) * step := by ring
      _ ≤ nowMs / step * step := Nat.mul_le_mul_right _ ((Nat.le_div_iff_mul_le hpos).mpr hq')
  have hlow : nowMs / step * step ≤ nowMs := Nat.div_mul_le_self _ _
  have hhigh : nowMs < nowMs / step * step + step := by
    have := @Nat.lt_div_mul_add nowMs step hpos
    omega
  unfold advanceWindow
  simp only [hstep]
  rw [if_neg (by omega), if_neg (by omega)]
  exact ⟨Dvd.intro_left _ rfl, rfl, hbucket, hlow, hhigh⟩

structure Rotated (cfg : PrecomputeConfig) (ω : SeriesOrder σ) (nowMs : Nat) (w w' : WindowState σ)
    (r : Rotation σ) : Prop where
  series : w'.series = ∅
  initialized : w'.initialized = w.initialized
  panes : w'.panes = w.panes
  snapshotCache : w'.snapshotCache = w.snapshotCache
  log : w'.log = w.log
  advanced : w'.activeStartMs = (w.advanceWindow nowMs cfg).activeStartMs ∧
    w'.activeEndMs = (w.advanceWindow nowMs cfg).activeEndMs
  entries : r.entries = (w.series.range ω).map Prod.snd
  range : r.entries ≠ [] → r.startMs = w.activeStartMs ∧ r.endMs = w.activeEndMs
  none : r.entries = [] → r.startMs = 0 ∧ r.endMs = 0

theorem eq_empty_of_len {κ υ : Type} {m : GoMap κ υ} (h : m.len = 0) : m = ∅ := by
  apply AList.ext
  have : m.entries.map Sigma.fst = [] := List.length_eq_zero_iff.mp h
  exact List.map_eq_nil_iff.mp this

theorem rotateLocked_fst (w : WindowState σ) (nowMs : Nat) (ω : SeriesOrder σ) :
    ∃ panes, (w.rotateLocked F nowMs cfg ω).1 = { w with series := ∅, panes }.advanceWindow nowMs cfg := by
  unfold rotateLocked rotateSliding
  split
  · dsimp only
    split <;> exact ⟨_, rfl⟩
  · split
    · rename_i hlen
      exact ⟨w.panes, by rw [← eq_empty_of_len hlen]⟩
    · exact ⟨w.panes, rfl⟩

section
variable (hmode : cfg.mode ≠ .sliding)
include hmode

theorem rotateLocked_rotated (w : WindowState σ) (nowMs : Nat)
    (ω : SeriesOrder σ) :
    Rotated cfg ω nowMs w (w.rotateLocked F nowMs cfg ω).1 (w.rotateLocked F nowMs cfg ω).2 := by
  obtain ⟨hs, hi, hp, hc, hl⟩ := @advanceWindow_frame σ cfg w nowMs
  unfold rotateLocked
  rw [if_neg hmode]
  split
  · rename_i hlen
    have hempty := eq_empty_of_len hlen
    have hrange : w.series.range ω = [] := List.length_eq_zero_iff.mp ((GoMap.length_range _ _).trans hlen)
    exact ⟨hs.trans hempty, hi, hp, hc, hl, ⟨rfl, rfl⟩, by rw [hrange]; rfl, fun h => absurd rfl h, fun _ => ⟨rfl, rfl⟩⟩
  · rename_i hlen
    obtain ⟨hs', hi', hp', hc', hl'⟩ := @advanceWindow_frame σ cfg { w with series := ∅ } nowMs
    refine ⟨hs', hi', hp', hc', hl', ?_, rfl, fun _ => ⟨rfl, rfl⟩, fun h => ?_⟩
    · unfold advanceWindow
      dsimp only
      split <;> exact ⟨rfl, rfl⟩
    · exact absurd ((GoMap.length_range _ _).symm.trans (by rw [List.map_eq_nil_iff.mp h]; rfl)) hlen

theorem rotate_cases (w : WindowState σ) (nowMs : Nat)
    (ω : SeriesOrder σ) :
    (w.rotate F nowMs cfg ω = (w, {}) ∧ (w.initialized = true → nowMs < w.activeEndMs)) ∨
      (w.initialized = true ∧ (0 < cfg.rotationStepMs → w.activeEndMs ≤ nowMs) ∧
        Rotated cfg ω nowMs w (w.rotate F nowMs cfg ω).1 (w.rotate F nowMs cfg ω).2) := by
  unfold rotate
  split
  · rename_i h
    exact Or.inl ⟨rfl, fun h' => absurd (h.symm.trans h') (by decide)⟩
  · rename_i hi
    split
    · rename_i h
      exact Or.inl ⟨rfl, fun _ => h.2⟩
    · rename_i h
      exact Or.inr ⟨by simpa using hi, fun hpos => by omega, rotateLocked_rotated hmode _ _ _⟩

theorem drain_cases (w : WindowState σ) (ω : SeriesOrder σ) :
    (w.drain F cfg ω = (w, {}) ∧ (w.initialized = true → w.series = ∅)) ∨
      (w.initialized = true ∧ Rotated cfg ω w.activeEndMs w (w.drain F cfg ω).1 (w.drain F cfg ω).2) := by
  unfold drain
  split
  · rename_i h
    exact Or.inl ⟨rfl, fun h' => absurd (h.symm.trans h') (by decide)⟩
  · rename_i hi
    split
    · rename_i h
      exact Or.inl ⟨rfl, fun _ => eq_empty_of_len h.1⟩
    · exact Or.inr ⟨by simpa using hi, rotateLocked_rotated hmode _ _ _⟩

end

end AsapCollector.Precompute.WindowState
