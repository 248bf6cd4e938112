import AsapCollector.Edge.Aggregator
import AsapCollector.Theorems.Precompute.SubWindow

/-! An entry keeps the key and the labels of the observation that opened it, and every envelope carries the labels of
its entry, so those in the window and in what it emits are among those observed (`Q`). -/

namespace AsapCollector.Precompute

open Edge List Option WindowState Precompute

variable {σ : Type} {F : SketchImpl σ} {cfg : PrecomputeConfig} {Q : Bytes → List KeyValue → Prop}

/-- The key and the labels of an entry are of the given kind, and it has no resource labels. -/
def LabelsFrom (Q : Bytes → List KeyValue → Prop) (entry : SeriesEntry σ) : Prop :=
  entry.resourceLabels = [] ∧ Q entry.seriesKey entry.labels

/-- The series identity of an envelope is that of labels of the given kind. -/
def Named (cfg : PrecomputeConfig) (Q : Bytes → List KeyValue → Prop) (env : SketchEnvelope) : Prop :=
  ∃ key labels count, Q key labels ∧ seriesKey env.aggID env.resourceLabels env.labels [] = frameSeries cfg labels count

variable {entry : SeriesEntry σ}

theorem LabelsFrom.named (h : LabelsFrom Q entry) {env : SketchEnvelope} (haggID : env.aggID = cfg.aggID)
    (hresource : env.resourceLabels = entry.resourceLabels) (hlabels : env.labels = envelopeLabels entry cfg) :
    Named cfg Q env := by
  refine ⟨entry.seriesKey, entry.labels, entry.count, h.2, ?_⟩
  rw [haggID, hresource, hlabels, h.1]
  rfl

theorem frameSeries_count (h : cfg.emitWindowStats = false) (labels : List KeyValue)
    (count : Nat) : frameSeries cfg labels count = frameSeries cfg labels 0 := by
  unfold frameSeries envelopeLabels
  rw [h]
  rfl

/-- The entries are under their own keys, with labels from where `Q` says. -/
structure Sourced (Q : Bytes → List KeyValue → Prop) (w : WindowState σ) : Prop where
  series : ∀ key entry, w.series.lookup key = some entry → entry.seriesKey = key ∧ LabelsFrom Q entry
  panes : w.panes = []
  blank : w.initialized = false → w.series = ∅

variable {w : WindowState σ} {Q' : Bytes → List KeyValue → Prop}

theorem Sourced.mono (hQ : ∀ key labels, Q key labels → Q' key labels)
    (h : Sourced Q w) : Sourced Q' w :=
  ⟨fun key entry he => ⟨(h.series key entry he).1, (h.series key entry he).2.1, hQ _ _ (h.series key entry he).2.2⟩,
    h.panes, h.blank⟩

variable {w w' : WindowState σ}

theorem Sourced.same (h : Sourced Q w) (hs : SameWindow w w') : Sourced Q w' where
  series := hs.series ▸ h.series
  panes := hs.panes.trans h.panes
  blank hi := hs.series.trans (h.blank (hs.initialized ▸ hi))

theorem Sourced.insert (h : Sourced Q w) (hi : w.initialized = true) (key : Bytes) (hkey : entry.seriesKey = key)
    (he : LabelsFrom Q entry) : Sourced Q { w with series := w.series.insert key entry } where
  series := GoMap.forall_lookup_insert h.series ⟨hkey, he⟩
  panes := h.panes
  blank hno := absurd (hi.symm.trans hno) (by decide)

theorem Sourced.initWindow (h : Sourced Q w) (refMs : Nat) (cfg : PrecomputeConfig) :
    Sourced Q (w.initWindow refMs cfg) where
  series := by rw [series_initWindow]; exact h.series
  panes := by rw [panes_initWindow]; exact h.panes
  blank hno := by rw [initialized_initWindow] at hno; cases hno

theorem Sourced.madeRoom (h : Sourced Q w) (hroom : MadeRoom cfg w w') :
    Sourced Q w' ∧ w'.initialized = w.initialized := by
  rcases hroom with rfl | ⟨-, k, stats, rfl⟩
  · exact ⟨h, rfl⟩
  · refine ⟨⟨fun key entry hl => ?_, h.panes, fun hno => ?_⟩, rfl⟩
    · by_cases hk : key = k
      · subst hk
        rw [AList.lookup_erase] at hl
        cases hl
      · rw [AList.lookup_erase_ne hk] at hl
        exact h.series key entry hl
    · dsimp only at hno ⊢
      rw [h.blank hno]
      rfl

variable {obs : Observation}

theorem newEntry_labelsFrom (F : SketchImpl σ) (key : Bytes) (hresource : obs.resourceLabels = [])
    (hQ : Q key (if cfg.isWholeStream then [] else obs.labels)) :
    LabelsFrom Q (newEntry F key obs cfg) := by
  unfold newEntry LabelsFrom
  rw [hresource]
  exact ⟨by split <;> rfl, hQ⟩

theorem Sourced.observeWithKey {key : Bytes} (h : Sourced Q w) (hresource : obs.resourceLabels = [])
    (hQ : Q key (if cfg.isWholeStream then [] else obs.labels)) : Sourced Q (w.observeWithKey F key obs cfg).1 := by
  have hw := h.initWindow obs.timestampMs cfg
  rcases observeWithKey_cases F cfg w key obs with ⟨err, -, heq⟩ | ⟨-, w₁, stats, hroom, heq⟩ <;> rw [heq]
  · exact hw
  · obtain ⟨hw₁, hi⟩ := hw.madeRoom hroom
    rw [initialized_initWindow] at hi
    have hentry : (w₁.entryFor F key obs cfg).seriesKey = key ∧ LabelsFrom Q (w₁.entryFor F key obs cfg) := by
      unfold entryFor
      cases hl : w₁.series.lookup key with
      | none => exact ⟨rfl, newEntry_labelsFrom F key hresource hQ⟩
      | some entry => exact hw₁.series key entry hl
    obtain ⟨hk, hres, hlab⟩ := @recordedEntry_frame σ cfg F (w₁.entryFor F key obs cfg) obs
    have hins := hw₁.insert hi key (hk.trans hentry.1) ⟨hres.trans hentry.2.1, by rw [hk, hlab]; exact hentry.2.2⟩
    exact { hins with }

theorem finishRotate_named (F : SketchImpl σ) (w : WindowState σ) {r : Rotation σ} (nowMs : Nat)
    (hentries : ∀ entry ∈ r.entries, LabelsFrom Q entry) :
    SameWindow w (finishRotate F w r cfg nowMs).1 ∧ ∀ env ∈ (finishRotate F w r cfg nowMs).2, Named cfg Q env := by
  refine ⟨(finishRotate_writes w r nowMs).same, fun env henv => ?_⟩
  obtain ⟨entry, he, hser⟩ := mem_finishRotate henv
  cases hser with
  | emitted payload hdelta => exact (hentries entry he).named rfl rfl rfl

theorem Sourced.rotated {r : Rotation σ} {nowMs : Nat}
    {ω : SeriesOrder σ} (h : Sourced Q w) (hr : Rotated cfg ω nowMs w w' r) :
    Sourced Q w' ∧ ∀ entry ∈ r.entries, LabelsFrom Q entry := by
  refine ⟨⟨fun key entry hl => ?_, hr.panes.trans h.panes, fun _ => hr.series⟩, fun entry he => ?_⟩
  · rw [hr.series] at hl
    cases hl
  · rw [hr.entries] at he
    obtain ⟨⟨key, e⟩, hmem, rfl⟩ := List.mem_map.mp he
    exact (h.series key e (GoMap.mem_range.mp hmem)).2

/-- The labels in a runtime and in the queue of what it has emitted, under its own configuration. -/
structure Provenance (Q : Bytes → List KeyValue → Prop) (p : Precompute σ) : Prop where
  window : Sourced Q p.window
  pending : p.pendingCfg = none
  mode : ∀ cfg, p.cfg = some cfg → cfg.mode = .tumbling
  queued : ∀ env ∈ p.pendingOutput, ∃ cfg, p.cfg = some cfg ∧ Named cfg Q env
  unset : p.cfg = none → p.window.series = ∅

variable {p : Precompute σ}

theorem Provenance.notSliding (h : Provenance Q p) (hcfg : p.cfg = some cfg) : cfg.mode ≠ .sliding := by
  rw [h.mode cfg hcfg]
  decide

theorem Provenance.mono (hQ : ∀ key labels, Q key labels → Q' key labels)
    (h : Provenance Q p) : Provenance Q' p := by
  refine { h with window := h.window.mono hQ, queued := fun env henv => ?_ }
  obtain ⟨cfg, hcfg, key, labels, count, hl, heq⟩ := h.queued env henv
  exact ⟨cfg, hcfg, key, labels, count, hQ _ _ hl, heq⟩

theorem Provenance.withWindow (h : Provenance Q p) (hcfg : p.cfg = some cfg)
    (hw : Sourced Q w) : Provenance Q { p with window := w } :=
  { h with window := hw, unset := fun hno => by rw [show p.cfg = none from hno] at hcfg; cases hcfg }

section
variable (F) {p : Precompute σ}

theorem Provenance.finished (h : Provenance Q p) (hcfg : p.cfg = some cfg)
    {r : Rotation σ} (hw : Sourced Q w) (hr : ∀ entry ∈ r.entries, LabelsFrom Q entry) (nowMs : Nat) :
    Provenance Q { p with window := (finishRotate F w r cfg nowMs).1 } ∧
      (finishRotate F w r cfg nowMs).1.series = w.series ∧
      ∀ env ∈ (finishRotate F w r cfg nowMs).2, Named cfg Q env := by
  obtain ⟨hsame, hnamed⟩ := @finishRotate_named σ cfg Q F w r nowMs hr
  exact ⟨h.withWindow hcfg (hw.same hsame), hsame.series, hnamed⟩

theorem Provenance.rotateAndFinish (h : Provenance Q p) (hcfg : p.cfg = some cfg) (nowMs : Nat)
    (ω : RangeOrders σ) :
    Provenance Q (rotateAndFinish F p cfg nowMs ω).1 ∧ (rotateAndFinish F p cfg nowMs ω).1.cfg = some cfg ∧
      (rotateAndFinish F p cfg nowMs ω).1.pendingOutput = p.pendingOutput ∧
      ∀ env ∈ (rotateAndFinish F p cfg nowMs ω).2, Named cfg Q env := by
  have hrot : Sourced Q (p.window.rotate F nowMs cfg ω.series).1 ∧
      ∀ entry ∈ (p.window.rotate F nowMs cfg ω.series).2.entries, LabelsFrom Q entry := by
    rcases @rotate_cases σ F cfg (h.notSliding hcfg) p.window nowMs ω.series with ⟨heq, -⟩ | ⟨-, -, hr⟩
    · rw [heq]
      exact ⟨h.window, forall_mem_nil _⟩
    · exact h.window.rotated hr
  obtain ⟨hp, -, hnamed⟩ := h.finished F hcfg hrot.1 hrot.2 nowMs
  rw [rotateAndFinish_eq h.pending]
  exact ⟨hp, hcfg, rfl, hnamed⟩

theorem Provenance.drain (h : Provenance Q p) (ω : RangeOrders σ) :
    Provenance Q (drain F p ω).1 ∧ (drain F p ω).1.cfg = p.cfg ∧
      (drain F p ω).1.window.series = ∅ ∧ (drain F p ω).1.pendingOutput = [] ∧
      ∀ env ∈ (drain F p ω).2, ∃ cfg, p.cfg = some cfg ∧ Named cfg Q env := by
  cases hcfg : p.cfg with
  | none =>
    have hdrain : Precompute.drain F p ω = (p, []) := by
      unfold Precompute.drain
      split
      · rfl
      · rename_i hsome
        rw [hcfg] at hsome
        cases hsome
    rw [hdrain]
    refine ⟨h, hcfg, h.unset hcfg, eq_nil_iff_forall_not_mem.mpr fun env henv => ?_, forall_mem_nil _⟩
    obtain ⟨cfg, hsome, -⟩ := h.queued env henv
    rw [hcfg] at hsome
    cases hsome
  | some cfg =>
    have hdrain : Sourced Q (p.window.drain F cfg ω.series).1 ∧ (p.window.drain F cfg ω.series).1.series = ∅ ∧
        ∀ entry ∈ (p.window.drain F cfg ω.series).2.entries, LabelsFrom Q entry := by
      rcases @drain_cases σ F cfg (h.notSliding hcfg) p.window ω.series with ⟨heq, hempty⟩ | ⟨-, hr⟩
      · rw [heq]
        refine ⟨h.window, ?_, forall_mem_nil _⟩
        cases hi : p.window.initialized with
        | true => exact hempty hi
        | false => exact h.window.blank hi
      · exact ⟨(h.window.rotated hr).1, hr.series, (h.window.rotated hr).2⟩
    obtain ⟨hp, hseries, hnamed⟩ := h.finished F hcfg hdrain.1 hdrain.2.2 (p.window.drain F cfg ω.series).2.endMs
    rw [drain_eq hcfg h.pending]
    refine ⟨{ hp with queued := forall_mem_nil _ }, hcfg, hseries.trans hdrain.2.1, rfl, forall_mem_append.mpr
      ⟨fun env henv => ?_, fun env henv => ⟨cfg, rfl, hnamed env henv⟩⟩⟩
    obtain ⟨c, hc, hnamed⟩ := h.queued env henv
    exact ⟨c, hcfg ▸ hc, hnamed⟩

theorem Provenance.rotateForFuture (h : Provenance Q p) (ts : Nat) (ω : RangeOrders σ) :
    Provenance Q (rotateForFuture F p ts ω) ∧ (rotateForFuture F p ts ω).cfg = p.cfg := by
  unfold Precompute.rotateForFuture
  split
  · exact ⟨h, rfl⟩
  · rename_i cfg hcfg
    obtain ⟨hp, hc, hq, hnamed⟩ := h.rotateAndFinish F hcfg ts ω
    exact ⟨{ hp with queued := forall_mem_append.mpr ⟨hp.queued, fun env henv => ⟨cfg, hc, hnamed env henv⟩⟩ },
      hc.trans hcfg.symm⟩

theorem Provenance.observeOnce (h : Provenance Q p) (key : Option Bytes)
    (hresource : obs.resourceLabels = [])
    (hQ : ∀ cfg, p.cfg = some cfg → Q (key.getD (cfg.seriesKeyFor obs))
      (if cfg.isWholeStream then [] else obs.labels)) :
    Provenance Q (observeOnce F p key obs).1 ∧ (observeOnce F p key obs).1.cfg = p.cfg := by
  unfold Precompute.observeOnce
  split
  · exact ⟨h, rfl⟩
  · rename_i cfg hcfg
    split
    · exact ⟨h, rfl⟩
    · exact ⟨h.withWindow hcfg (h.window.observeWithKey hresource (hQ cfg hcfg)), rfl⟩

theorem Provenance.stats (h : Provenance Q p) (stats : PrecomputeStats) :
    Provenance Q (withStats p stats) :=
  { h with window := { h.window with } }

theorem Provenance.observeKeyed {p : Precompute σ} (h : Provenance Q p) (key : Bytes) {obs : Observation}
    (hscalar : obs.carried = none) (hresource : obs.resourceLabels = [])
    (hQ : ∀ cfg, p.cfg = some cfg → ∀ k, k = key ∨ k = cfg.seriesKeyFor obs →
      Q k (if cfg.isWholeStream then [] else obs.labels)) (ω : RangeOrders σ) :
    Provenance Q (observeKeyed F p key obs ω).1 ∧ (observeKeyed F p key obs ω).1.cfg = p.cfg := by
  unfold Precompute.observeKeyed
  have hkey : ∀ k, (if key = [] then none else some key : Option Bytes).getD k = key ∨
      (if key = [] then none else some key : Option Bytes).getD k = k := by
    intro k
    split
    · exact Or.inr rfl
    · exact Or.inl rfl
  generalize (if key = [] then none else some key : Option Bytes) = given at hkey ⊢
  rcases observeWith_cases F p given hscalar ω with ⟨-, heq⟩ | ⟨counted, stats, ⟨-, heq⟩ | ⟨p', hfuture, heq⟩⟩ <;>
    rw [heq]
  · exact ⟨h, rfl⟩
  · obtain ⟨honce, hc⟩ := (h.stats counted).observeOnce F given hresource fun cfg hcfg => hQ cfg hcfg _ (hkey _)
    exact ⟨honce.stats stats, hc⟩
  · -- the window is closed early, and the observation is tried again
    obtain ⟨honce, hc⟩ := (h.stats counted).observeOnce F given hresource fun cfg hcfg => hQ cfg hcfg _ (hkey _)
    rw [hfuture] at honce hc
    obtain ⟨hrot, hcrot⟩ := honce.rotateForFuture F obs.timestampMs ω
    have hcfg : (Precompute.rotateForFuture F p' obs.timestampMs ω).cfg = p.cfg := hcrot.trans hc
    obtain ⟨hagain, hcagain⟩ := hrot.observeOnce F none hresource fun cfg hsome => hQ cfg (hcfg ▸ hsome) _ (Or.inr rfl)
    exact ⟨hagain.stats stats, hcagain.trans hcfg⟩

theorem visitSubWindow_labels (cache : SnapshotCache) (entry : SeriesEntry σ) :
    (visitSubWindow F cfg cache entry).2.1.seriesKey = entry.seriesKey ∧
      (visitSubWindow F cfg cache entry).2.1.resourceLabels = entry.resourceLabels ∧
      (visitSubWindow F cfg cache entry).2.1.labels = entry.labels ∧
      ∀ env, (visitSubWindow F cfg cache entry).2.2 = some env →
        ∃ payload, env = openEnvelope cfg entry payload := by
  obtain ⟨-, -, hentry, henv⟩ := @visitSubWindow_spec σ F cfg cache entry _ rfl
  obtain ⟨hkey, hres, hlab, -⟩ := @visited_frame σ F cfg (cache.outbound.lookup
    (cfg.seriesKeyForEntry entry.resourceLabels entry.labels)) entry
  rw [hentry, henv]
  refine ⟨hkey, hres, hlab, fun env h => ?_⟩
  obtain ⟨payload, -, rfl⟩ := map_eq_some_iff.mp h
  exact ⟨payload, rfl⟩

theorem visitAll_named :
    ∀ (visits : List (Bytes × SeriesEntry σ)) {w : WindowState σ} {emitted : List (SeriesEntry σ × SketchEnvelope)},
      Sourced Q w → w.initialized = true → (∀ src ∈ visits, src.2.seriesKey = src.1 ∧ LabelsFrom Q src.2) →
      (∀ e ∈ emitted, LabelsFrom Q e.1 ∧ ∃ payload, e.2 = openEnvelope cfg e.1 payload) →
      Sourced Q (visits.foldl (visitEntry F cfg) (w, emitted)).1 ∧
        ∀ e ∈ (visits.foldl (visitEntry F cfg) (w, emitted)).2,
          LabelsFrom Q e.1 ∧ ∃ payload, e.2 = openEnvelope cfg e.1 payload
  | [], _, _, hw, _, _, hemitted => ⟨hw, hemitted⟩
  | (key, entry) :: visits, w, emitted, hw, hi, hvisits, hemitted => by
    obtain ⟨hown, hentry⟩ := hvisits _ mem_cons_self
    obtain ⟨hkey, hres, hlab, henv⟩ := @visitSubWindow_labels σ F cfg w.snapshotCache entry
    rw [foldl_cons]
    unfold visitEntry
    dsimp only
    generalize visitSubWindow F cfg w.snapshotCache entry = r at hkey hres hlab henv ⊢
    obtain ⟨cache, entry', env⟩ := r
    have hins := hw.insert hi key (hkey.trans hown)
      (show LabelsFrom Q entry' from ⟨hres.trans hentry.1, by rw [hkey, hlab]; exact hentry.2⟩)
    refine visitAll_named visits { hins with } hi
      (fun src hsrc => hvisits src (mem_cons_of_mem _ hsrc)) (forall_mem_append.mpr ⟨hemitted, fun e he => ?_⟩)
    obtain ⟨env', henv', rfl⟩ := map_eq_some_iff.mp (mem_toList.mp he)
    exact ⟨hentry, henv env' henv'⟩

theorem Provenance.emitSubWindow (h : Provenance Q p) (nowMs : Nat) (ω : RangeOrders σ) :
    Provenance Q (emitSubWindow F p nowMs ω).1 ∧ (emitSubWindow F p nowMs ω).1.cfg = p.cfg ∧
      ∀ env ∈ (emitSubWindow F p nowMs ω).2, ∃ cfg, p.cfg = some cfg ∧ Named cfg Q env := by
  unfold Precompute.emitSubWindow
  split
  · exact ⟨h, rfl, forall_mem_nil _⟩
  · rename_i cfg hcfg
    split
    · exact ⟨h, rfl, forall_mem_nil _⟩
    · rename_i hidle
      rw [not_or, not_or] at hidle
      have hi : p.window.initialized = true := by simpa using hidle.2.1
      have hall := @visitAll_named σ F cfg Q (p.window.series.range ω.series) p.window [] h.window hi
        (fun src hsrc => h.window.series src.1 src.2 (GoMap.mem_range.mp hsrc)) (forall_mem_nil _)
      dsimp only
      have hp := h.withWindow hcfg hall.1
      split
      · exact ⟨hp, rfl, forall_mem_nil _⟩
      · refine ⟨{ hp with window := { hp.window with } }, rfl, ?_⟩
        intro env henv
        obtain ⟨e, he, rfl⟩ := List.mem_map.mp henv
        obtain ⟨e', he', rfl⟩ := List.mem_map.mp he
        obtain ⟨hlabels, payload, heq⟩ := hall.2 e' he'
        refine ⟨cfg, hcfg, hlabels.named ?_ ?_ ?_⟩ <;> rw [heq] <;> rfl

end

theorem Provenance.resetDeltaBase (h : Provenance Q p) : Provenance Q (resetDeltaBase p) :=
  { h with window := { h.window with } }

theorem Sourced.noState (h : Sourced Q w) (hseries : w.series = ∅) : w.hasAccumulatedState = false := by
  unfold hasAccumulatedState
  rw [hseries, h.panes]
  rfl

theorem chooseConfig_singleton (active : Option PrecomputeConfig) (version : UInt64) (cfg : PrecomputeConfig) :
    chooseConfig active ⟨version, [cfg]⟩ = some cfg := by
  unfold chooseConfig
  cases active with
  | none => rfl
  | some a => by_cases ha : cfg.aggID = a.aggID <;> simp [ha]

theorem Provenance.updateConfig (h : Provenance Q p) (hseries : p.window.series = ∅)
    (hqueue : p.pendingOutput = []) (hmode : cfg.mode = .tumbling) (version : UInt64)
    (Q' : Bytes → List KeyValue → Prop) : Provenance Q' (updateConfig p ⟨version, [cfg]⟩) := by
  have hempty : Sourced Q' p.window :=
    ⟨(fun key entry hl => by rw [hseries] at hl; cases hl), h.window.panes, fun _ => hseries⟩
  have hnone : ∀ env ∈ p.pendingOutput, False := fun env henv => by rw [hqueue] at henv; cases henv
  unfold Precompute.updateConfig
  rw [chooseConfig_singleton]
  dsimp only
  split
  · exact ⟨hempty, h.pending, h.mode, fun env henv => (hnone env henv).elim, h.unset⟩
  · rw [h.window.noState hseries, if_neg (fun hno => nomatch hno.2)]
    exact ⟨hempty, rfl, fun c hc => (some.inj hc) ▸ hmode, fun env henv => (hnone env henv).elim, fun _ => hseries⟩

theorem Provenance.updateConfig_taken (h : Provenance Q p) (hseries : p.window.series = ∅)
    (hvalid : cfg.validMatchers = true) (version : UInt64) :
    (Precompute.updateConfig p ⟨version, [cfg]⟩).cfg = some cfg ∧
      (Precompute.updateConfig p ⟨version, [cfg]⟩).pendingOutput = p.pendingOutput := by
  unfold Precompute.updateConfig
  rw [chooseConfig_singleton]
  dsimp only
  rw [if_neg (by rw [hvalid]; decide), h.window.noState hseries, if_neg (fun hno => nomatch hno.2)]
  exact ⟨rfl, rfl⟩

theorem provenance_new (hmode : cfg.mode = .tumbling) :
    Provenance Q (new (some cfg) : Precompute σ) where
  window := ⟨nofun, rfl, fun _ => rfl⟩
  pending := rfl
  mode c hc := by
    have hc : (some cfg).filter PrecomputeConfig.validMatchers = some c := hc
    rw [filter_eq_some_iff] at hc
    exact (some.inj hc.1) ▸ hmode
  queued _ h := nomatch h
  unset _ := rfl

end AsapCollector.Precompute
