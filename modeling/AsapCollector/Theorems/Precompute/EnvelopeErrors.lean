import AsapCollector.Sketches.Sum
import AsapCollector.Theorems.Frame.Seal
import AsapCollector.Theorems.Precompute.Lane

/-! An envelope that fails in the window has already opened it, made room for its series, added the series or reset its
sketch. -/

namespace AsapCollector

open Sketches

theorem FrameReceiver.prepare_lineages {r r' : FrameReceiver} {env : FramedEnvelope} {limit : UInt64}
    {result : Except FrameError FrameReceipt} (h : r.prepare env limit = (r', result))
    (hnew : result ≠ .ok .duplicate) :
    r'.lineages = r.lineages := by
  unfold prepare prepareLocked at h
  dsimp only at h
  repeat' split at h
  all_goals first | cases h; rfl | cases h; exact absurd rfl hnew

namespace Precompute

open WindowState FrameReceiver

variable {σ : Type} {F : SketchImpl σ} {cfg : PrecomputeConfig} {env : SketchEnvelope}

/-- The bounds of the window, its series and the cache are the same. -/
structure Intact (w w' : WindowState σ) : Prop where
  initialized : w'.initialized = w.initialized
  activeStartMs : w'.activeStartMs = w.activeStartMs
  activeEndMs : w'.activeEndMs = w.activeEndMs
  series : ∀ key, w'.series.lookup key = w.series.lookup key
  snapshotCache : w'.snapshotCache = w.snapshotCache

/-- A call of the family that fails returns the sketch it was given. -/
structure FailsCleanly (F : SketchImpl σ) : Prop where
  applyDelta : ∀ {s payload s' e}, F.applyDelta s payload = (s', some e) → s' = s
  merge : ∀ {s t s' e}, F.merge s t = (s', some e) → s' = s

/-- The envelope has the sketch of the series reset before it is applied: it is a delta of another upstream range. -/
def Resets (entry : SeriesEntry σ) (env : SketchEnvelope) : Prop :=
  env.encoding.isDelta = true ∧ entry.deltaWindowEndMs ≠ 0 ∧
    (entry.deltaWindowStartMs ≠ env.windowStartMs ∨ entry.deltaWindowEndMs ≠ env.windowEndMs)

/-- The window is open, and it has no room for the series, or has it and does not reset a sketch with anything in it. -/
def Refuses (F : SketchImpl σ) (w : WindowState σ) (cfg : PrecomputeConfig) (env : SketchEnvelope) : Prop :=
  w.initialized = true ∧
    match w.series.lookup (cfg.seriesKeyForEntry [] env.labels) with
    | none => w.makeRoom cfg = .error .seriesCapExceeded
    | some entry => Resets entry env → F.reset entry.sketch = entry.sketch

variable {entry : SeriesEntry σ} {err : PrecomputeError}

theorem withSketch_eq_iff {sketch : σ} : { entry with sketch } = entry ↔ sketch = entry.sketch := by
  refine ⟨congrArg SeriesEntry.sketch, ?_⟩
  rintro rfl
  rfl

def refMs (env : SketchEnvelope) : Nat := if env.windowEndMs = 0 then env.windowStartMs else env.windowEndMs

theorem admitEnvelope_cases (F : SketchImpl σ) (cfg : PrecomputeConfig) (w : WindowState σ) (key : Bytes)
    (env : SketchEnvelope) (refMs : Nat) :
    (w.series.lookup key = none ∧ w.makeRoom cfg = .error .seriesCapExceeded ∧
        admitEnvelope F w key env cfg refMs = .error .seriesCapExceeded) ∨
      (w.series.lookup key = none ∧ w.makeRoom cfg ≠ .error .seriesCapExceeded ∧ ∃ w₁ entry,
        w₁.initialized = w.initialized ∧ admitEnvelope F w key env cfg refMs = .ok (w₁, entry)) ∨
      ∃ entry, w.series.lookup key = some entry ∧ admitEnvelope F w key env cfg refMs = .ok (w, entry) := by
  unfold admitEnvelope
  cases hl : w.series.lookup key with
  | some entry => exact .inr (.inr ⟨entry, rfl, rfl⟩)
  | none =>
    rcases makeRoom_cases cfg w with ⟨-, hroom⟩ | ⟨w₁, hroom, hmade⟩ <;> rw [hroom]
    · exact .inl ⟨rfl, rfl, rfl⟩
    · refine .inr (.inl ⟨rfl, nofun, _, _, ?_, rfl⟩)
      rcases hmade with rfl | ⟨-, k, stats, rfl⟩ <;> rfl

section
variable (hclean : FailsCleanly F)
include hclean

theorem applyEnvelopeDelta_failed {entry' : SeriesEntry σ} (hdelta : env.encoding.isDelta = true)
    (h : applyEnvelopeDelta F entry env = (entry', .error err)) :
    entry' = entry ↔ (Resets entry env → F.reset entry.sketch = entry.sketch) := by
  unfold applyEnvelopeDelta at h
  unfold Resets
  rw [hdelta, eq_self, true_and]
  dsimp only at h
  split at h
  · rename_i hfail
    cases h
    rw [withSketch_eq_iff, hclean.applyDelta hfail]
    split
    · rename_i hresets
      exact (imp_iff_right hresets).symm
    · rename_i hno
      exact iff_of_true rfl fun hresets => absurd hresets hno
  · cases h

theorem mergeEnvelope_failed {entry' : SeriesEntry σ} (hfull : env.encoding.isDelta = false)
    (h : mergeEnvelope F entry env = (entry', .error err)) :
    entry' = entry ↔ (Resets entry env → F.reset entry.sketch = entry.sketch) := by
  refine iff_of_true ?_ fun hresets => nomatch hfull.symm.trans hresets.1
  unfold mergeEnvelope at h
  split at h
  · cases h
    rfl
  · split at h
    · rename_i hfail
      cases h
      exact withSketch_eq_iff.mpr (hclean.merge hfail)
    · cases h

theorem observeEnvelopeWindow_error {w w' : WindowState σ} {key : Bytes}
    (hkey : cfg.seriesKeyForEntry [] env.labels = key) (h : observeEnvelopeWindow F w env cfg = (w', some err)) :
    (∃ e, admitEnvelope F (w.initWindow (refMs env) cfg) key env cfg (refMs env) = .error e ∧
        w' = w.initWindow (refMs env) cfg) ∨
      ∃ w₁ entry entry', admitEnvelope F (w.initWindow (refMs env) cfg) key env cfg (refMs env) = .ok (w₁, entry) ∧
        w' = { w₁ with series := w₁.series.insert key entry' } ∧
        (entry' = entry ↔ (Resets entry env → F.reset entry.sketch = entry.sketch)) := by
  unfold observeEnvelopeWindow at h
  rw [← refMs, hkey] at h
  dsimp only at h
  cases hadm : admitEnvelope F (w.initWindow (refMs env) cfg) key env cfg (refMs env) with
  | error e =>
    rw [hadm] at h
    cases h
    exact .inl ⟨_, rfl, rfl⟩
  | ok admitted =>
    obtain ⟨w₁, entry⟩ := admitted
    rw [hadm] at h
    refine .inr ⟨w₁, entry, ?_⟩
    cases henc : env.encoding <;> rw [henc] at h <;> dsimp only at h
    case protoDelta | msgpackDelta =>
      rcases hfold : applyEnvelopeDelta F entry env with ⟨entry', err' | cached⟩ <;> rw [hfold] at h <;> cases h
      exact ⟨entry', rfl, rfl, applyEnvelopeDelta_failed hclean (by rw [henc]; rfl) hfold⟩
    all_goals
      rcases hfold : mergeEnvelope F entry env with ⟨entry', err' | cached⟩ <;> rw [hfold] at h <;> cases h
      exact ⟨entry', rfl, rfl, mergeEnvelope_failed hclean (by rw [henc]; rfl) hfold⟩

theorem observeEnvelopeWindow_failed {w w' : WindowState σ} (h : observeEnvelopeWindow F w env cfg = (w', some err)) :
    Intact w w' ↔ Refuses F w cfg env := by
  unfold Refuses
  generalize hkey : cfg.seriesKeyForEntry [] env.labels = key
  have hcases := observeEnvelopeWindow_error hclean hkey h
  have hopen := @initialized_initWindow σ cfg w (refMs env)
  have hsame := fun hi => @initWindow_of_initialized σ cfg w hi (refMs env)
  generalize w.initWindow (refMs env) cfg = w₀ at hcases hopen hsame
  have hadmit := admitEnvelope_cases F cfg w₀ key env (refMs env)
  cases hi : w.initialized with
  | false =>
    -- the window has been opened
    refine iff_of_false (fun hintact => ?_) (fun hno => nomatch hno.1)
    have hclosed := hintact.initialized.trans hi
    rcases hcases with ⟨e, -, rfl⟩ | ⟨w₁, entry, entry', hok, rfl, -⟩
    · exact absurd (hopen.symm.trans hclosed) (by decide)
    · rcases hadmit with ⟨-, -, hadm⟩ | ⟨-, -, w₂, e₂, hinit, hadm⟩ | ⟨e₂, -, hadm⟩ <;> cases hok.symm.trans hadm
      · exact absurd ((hinit.trans hopen).symm.trans hclosed) (by decide)
      · exact absurd (hopen.symm.trans hclosed) (by decide)
  | true =>
    obtain rfl := hsame hi
    rw [and_iff_right rfl]
    rcases hadmit with ⟨hl, hroom, hadm⟩ | ⟨hl, hroom, w₂, e₂, -, hadm⟩ | ⟨e₂, hl, hadm⟩ <;> rw [hl] <;>
      rcases hcases with ⟨e, hno, rfl⟩ | ⟨w₁, entry, entry', hok, rfl, hkeeps⟩
    · exact iff_of_true ⟨rfl, rfl, rfl, fun _ => rfl, rfl⟩ hroom
    · cases hok.symm.trans hadm
    · cases hno.symm.trans hadm
    · -- the series has been added
      refine iff_of_false (fun hintact => ?_) hroom
      have hno := hintact.series key
      rw [AList.lookup_insert, hl] at hno
      cases hno
    · cases hno.symm.trans hadm
    · cases hok.symm.trans hadm
      dsimp only
      rw [← hkeeps]
      refine ⟨fun hintact => ?_, ?_⟩
      · have heq := hintact.series key
        rw [AList.lookup_insert, hl] at heq
        exact Option.some.inj heq
      · rintro rfl
        refine ⟨rfl, rfl, rfl, fun k => ?_, rfl⟩
        by_cases hk : k = key
        · subst hk
          exact (AList.lookup_insert _).trans hl.symm
        · exact AList.lookup_insert_ne hk

end

/-- What `ObserveEnvelope` reads and writes besides its counters. -/
structure Unaffected (p p' : Precompute σ) : Prop where
  window : Intact p.window p'.window
  lineages : p'.frameReceiver.lineages = p.frameReceiver.lineages

/-- The envelope is turned away before the window, or the window refuses it. -/
def Harmless (F : SketchImpl σ) (p : Precompute σ) (env : SketchEnvelope) : Prop :=
  p.isClosed = true ∨ p.cfg = none ∨ ∃ cfg, p.cfg = some cfg ∧
    (checkEnvelope cfg env ≠ none ∨
      (∃ e, (p.frameReceiver.prepare ⟨env.frameAttributes, env.payload⟩ cfg.maxSeries).2 = .error e) ∨
      Refuses F p.window cfg env)

theorem Unaffected.refl (p : Precompute σ) : Unaffected p p := ⟨⟨rfl, rfl, rfl, fun _ => rfl, rfl⟩, rfl⟩

theorem refuses_withStats (w : WindowState σ) (stats : PrecomputeStats) :
    Refuses F { w with stats } cfg env ↔ Refuses F w cfg env := by
  unfold Refuses makeRoom
  dsimp only
  split
  · split
    · exact iff_of_false nofun nofun
    · cases cfg.onOverflow with
      | drop | block => exact Iff.rfl
      | evictOldest => exact iff_of_false nofun nofun
  · exact Iff.rfl

theorem unaffected_countDrop_iff (hclean : FailsCleanly F) {p p' : Precompute σ} {stats : PrecomputeStats}
    (hlineages : p'.frameReceiver.lineages = p.frameReceiver.lineages)
    (h : observeEnvelopeWindow F { p.window with stats } env cfg = (p'.window, some err)) :
    Unaffected p (countDrop p' (some err)) ↔ Refuses F p.window cfg env := by
  rw [← @refuses_withStats σ F cfg env p.window stats, ← observeEnvelopeWindow_failed hclean h]
  obtain ⟨counted, hdrop⟩ := countDrop_eq p' (some err)
  rw [hdrop]
  constructor
  · rintro ⟨⟨hi, hs, he, hseries, hcache⟩, -⟩
    exact ⟨hi, hs, he, hseries, hcache⟩
  · rintro ⟨hi, hs, he, hseries, hcache⟩
    exact ⟨⟨hi, hs, he, hseries, hcache⟩, hlineages⟩

/-- A call of `ObserveEnvelope` that fails leaves the window, its series, the cache and the lineages as they were
exactly if the envelope is turned away before the window, or finds it open and neither adds its series nor resets a
sketch. -/
theorem failed_envelope_unaffected_iff (F : SketchImpl σ) (hclean : FailsCleanly F) (p : Precompute σ)
    (env : SketchEnvelope) (ω : RangeOrders σ) (hfail : (observeEnvelope F p env ω).2 ≠ none) :
    Unaffected p (observeEnvelope F p env ω).1 ↔ Harmless F p env := by
  unfold observeEnvelope at hfail ⊢
  split
  · exact iff_of_true (.refl p) (.inl ‹_›)
  rename_i hopen
  rw [if_neg hopen] at hfail
  unfold Harmless
  rw [or_iff_right hopen]
  cases hcfg : p.cfg with
  | none => exact iff_of_true (.refl p) (.inl rfl)
  | some cfg =>
    simp only [hcfg, reduceCtorEq, false_or, Option.some.injEq, exists_eq_left'] at hfail ⊢
    cases hcheck : checkEnvelope cfg env with
    | some e => exact iff_of_true (.refl p) (.inl nofun)
    | none =>
      rw [hcheck] at hfail
      rw [or_iff_right (not_not_intro rfl)]
      rcases hprep : p.frameReceiver.prepare ⟨env.frameAttributes, env.payload⟩ cfg.maxSeries with
        ⟨receiver, e | _ | _ | _⟩ <;> rw [hprep] at hfail <;> dsimp only at hfail ⊢
      · exact iff_of_true ⟨(Unaffected.refl p).window, prepare_lineages hprep nofun⟩ (.inl ⟨e, rfl⟩)
      pick_goal 2
      · exact absurd rfl hfail
      -- the envelope goes to the window, framed or not
      all_goals
        rw [or_iff_right nofun]
        rcases hwin : observeEnvelopeWindow F _ env cfg with ⟨w, _ | err⟩ <;> rw [hwin] at hfail
        · exact absurd rfl hfail
        · exact unaffected_countDrop_iff hclean (prepare_lineages hprep nofun) hwin

def float64Sums : SketchImpl (SumWrapper Float64 UInt64) := sumFamily (.float64 fun _ => "") .new

def tenMsSums : PrecomputeConfig := { aggID := 7, window := { size := 10 * millisecond, slide := 10 * millisecond } }

def deltaOf (payload : Bytes) : SketchEnvelope := { aggID := 7, windowEndMs := 10, encoding := .protoDelta, payload }

/-- A window with a series, whose sum is that of a first delta. -/
def oneSeries : Precompute (SumWrapper Float64 UInt64) :=
  (observeEnvelope float64Sums (.new (some tenMsSums)) (deltaOf (List.replicate 16 1)) (.stored _)).1

/-- The next delta of the series is cut short. -/
theorem cut_delta_leaves_series :
    oneSeries.window.series.len = 1 ∧ (observeEnvelope float64Sums oneSeries (deltaOf [1]) (.stored _)).2 ≠ none ∧
      Unaffected oneSeries (observeEnvelope float64Sums oneSeries (deltaOf [1]) (.stored _)).1 := by
  have hclean : FailsCleanly float64Sums := by
    refine ⟨fun h => ?_, nofun⟩
    simp only [float64Sums, sumFamily, SumWrapper.applyDelta] at h
    split at h
    · cases h
    · split at h <;> cases h
      rfl
  have hfail : (observeEnvelope float64Sums oneSeries (deltaOf [1]) (.stored _)).2 ≠ none := by decide +kernel
  have hharmless : Harmless float64Sums oneSeries (deltaOf [1]) := by
    refine .inr (.inr ⟨tenMsSums, rfl, .inr (.inr ⟨rfl, ?_⟩)⟩)
    rintro ⟨-, -, hstart | hend⟩
    · exact absurd rfl hstart
    · exact absurd rfl hend
  exact ⟨by decide +kernel, hfail, (failed_envelope_unaffected_iff float64Sums hclean oneSeries (deltaOf [1])
    (.stored _) hfail).mpr hharmless⟩

/-- A delta that is cut short comes first. -/
theorem cut_delta_opens_window :
    let p := new (some tenMsSums)
    (observeEnvelope float64Sums p (deltaOf [1]) (.stored _)).2 ≠ none ∧
      ¬Unaffected p (observeEnvelope float64Sums p (deltaOf [1]) (.stored _)).1 := by
  refine ⟨by decide, fun h => ?_⟩
  exact absurd h.window.initialized (by decide)

end Precompute

end AsapCollector
