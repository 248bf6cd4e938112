import AsapCollector.Theorems.Precompute.Tumbling

/-! A pane that is closed joins the ring, and what is put out is the merge of the ring. The ring is cut by the number of
its panes. -/

namespace AsapCollector.Precompute

open List WindowState AList History Precompute Acceptance PrecomputeConfig

variable {σ : Type} {F : SketchImpl σ} {cfg : PrecomputeConfig}

/-! ### The merge of the panes -/

theorem mergePanes_eq (panes : List (SlidingPane σ)) (ω : SeriesOrder σ) :
    mergePanes F panes ω =
      (panes.flatMap fun pane => pane.series.range ω).foldl (mergeEntry F) ∅ :=
  foldl_flatMap.symm

variable {ω : SeriesOrder σ}

/-- What holds of the entries of the panes, and is kept when one is merged into another, holds of what is merged. -/
theorem mergePanes_induction {P : Bytes → SeriesEntry σ → Prop} {panes : List (SlidingPane σ)}
    (hpanes : ∀ pane ∈ panes, ∀ key entry, pane.series.lookup key = some entry → P key entry)
    (hmerge : ∀ m key src, P key src → (∀ dst, AList.lookup key m = some dst → P key dst) →
      ∀ dst, (mergeEntry F m (key, src)).lookup key = some dst → P key dst) :
    ∀ key entry, (mergePanes F panes ω).lookup key = some entry → P key entry := by
  have hfold : ∀ (l : List (Bytes × SeriesEntry σ)) (m : GoMap Bytes (SeriesEntry σ)), (∀ src ∈ l, P src.1 src.2) →
      (∀ key entry, m.lookup key = some entry → P key entry) →
      ∀ key entry, AList.lookup key (l.foldl (mergeEntry F) m) = some entry → P key entry := by
    intro l
    induction l with
    | nil => exact fun m _ hm => hm
    | cons src l ih =>
      intro m hl hm
      refine ih _ (fun s hs => hl s (mem_cons_of_mem _ hs)) fun key entry hentry => ?_
      by_cases hkey : key = src.1
      · subst hkey
        exact hmerge m src.1 src.2 (hl src mem_cons_self) (hm src.1) entry hentry
      · refine hm key entry ?_
        rw [← hentry]
        exact (lookup_insert_ne hkey).symm
  rw [mergePanes_eq]
  refine hfold _ ∅ (fun src hsrc => ?_) fun _ _ h => nomatch h
  obtain ⟨pane, hpane, hsrc⟩ := mem_flatMap.mp hsrc
  exact hpanes pane hpane src.1 src.2 (GoMap.mem_range.mp hsrc)

/-! ### A rotation -/

def activePane (w : WindowState σ) : SlidingPane σ := ⟨w.series, w.activeStartMs, w.activeEndMs⟩

def ring (cfg : PrecomputeConfig) (w : WindowState σ) : List (SlidingPane σ) :=
  (w.panes ++ [activePane w]).drop (w.panes.length + 1 - cfg.panesPerWindow)

structure Slid (F : SketchImpl σ) (cfg : PrecomputeConfig) (ω : SeriesOrder σ) (nowMs : Nat)
    (w w' : WindowState σ) (r : Rotation σ) : Prop where
  series : w'.series = ∅
  initialized : w'.initialized = w.initialized
  panes : w'.panes = ring cfg w
  log : w'.log = w.log
  advanced : w'.activeStartMs = (w.advanceWindow nowMs cfg).activeStartMs ∧
    w'.activeEndMs = (w.advanceWindow nowMs cfg).activeEndMs
  entries : ∀ entry ∈ r.entries, ∃ key, (mergePanes F (ring cfg w) ω).lookup key = some entry
  range : r.entries ≠ [] → r.startMs = ((ring cfg w).head?.map SlidingPane.startMs).getD 0 ∧
    r.endMs = ((ring cfg w).getLast?.map SlidingPane.endMs).getD 0

theorem rotateLocked_slid (hmode : cfg.mode = .sliding) (w : WindowState σ) (nowMs : Nat)
    (ω : SeriesOrder σ) :
    Slid F cfg ω nowMs w (w.rotateLocked F nowMs cfg ω).1 (w.rotateLocked F nowMs cfg ω).2 := by
  have hring : (w.panes ++ [activePane w]).drop ((w.panes ++ [activePane w]).length - cfg.panesPerWindow) =
      ring cfg w := by
    rw [length_append]
    rfl
  have hbounds : ∀ panes, ({ w with series := ∅, panes }.advanceWindow nowMs cfg).activeStartMs =
      (w.advanceWindow nowMs cfg).activeStartMs ∧ ({ w with series := ∅, panes }.advanceWindow nowMs cfg).activeEndMs =
      (w.advanceWindow nowMs cfg).activeEndMs := fun panes => by
    unfold advanceWindow
    dsimp only
    split <;> exact ⟨rfl, rfl⟩
  obtain ⟨hs, hi, hp, -, hl⟩ := @advanceWindow_frame σ cfg { w with series := ∅, panes := ring cfg w } nowMs
  unfold rotateLocked rotateSliding
  rw [if_pos hmode]
  dsimp only
  rw [show (⟨w.series, w.activeStartMs, w.activeEndMs⟩ : SlidingPane σ) = activePane w from rfl, hring]
  split
  · exact ⟨hs, hi, hp, hl, hbounds _, (fun _ h => nomatch h), fun h => absurd rfl h⟩
  · refine ⟨hs, hi, hp, hl, hbounds _, fun entry hentry => ?_, fun _ => ⟨rfl, rfl⟩⟩
    obtain ⟨src, hsrc, rfl⟩ := mem_map.mp hentry
    exact ⟨src.1, GoMap.mem_range.mp hsrc⟩

/-! ### Sketches as multisets -/

/-- A sketch is the multiset of what it observed, and a merge is the union. -/
structure Unites (F : SketchImpl σ) (view : σ → Multiset ObservationValue) : Prop where
  factory : view F.factory = 0
  sampled : ∀ s p, view (F.setSampleP s p) = view s
  observed : ∀ s v, (F.observe s v).2 = none → view (F.observe s v).1 = view s + {v}
  refused : ∀ s v, (F.observe s v).2 ≠ none → view (F.observe s v).1 = view s
  merged : ∀ s t, view (F.merge s t).1 = view s + view t

variable {view : σ → Multiset ObservationValue}

def viewAt (view : σ → Multiset ObservationValue) (m : GoMap Bytes (SeriesEntry σ)) (key : Bytes) :
    Multiset ObservationValue := ((m.lookup key).map fun entry => view entry.sketch).getD 0

variable {entry : SeriesEntry σ} {key : Bytes}

theorem viewAt_of_lookup {m : GoMap Bytes (SeriesEntry σ)} (h : m.lookup key = some entry) :
    viewAt view m key = view entry.sketch := by
  unfold viewAt
  rw [h]
  rfl

theorem viewAt_insert_of_ne (m : GoMap Bytes (SeriesEntry σ)) {key' : Bytes} (hne : key ≠ key')
    (entry : SeriesEntry σ) : viewAt view (m.insert key' entry) key = viewAt view m key := by
  unfold viewAt
  rw [lookup_insert_ne hne]

theorem viewAt_foldl_mergeEntry (hF : Unites F view) (key : Bytes) : ∀ (l : List (Bytes × SeriesEntry σ))
    (m : GoMap Bytes (SeriesEntry σ)), viewAt view (l.foldl (mergeEntry F) m) key =
      viewAt view m key + ((l.filter fun src => src.1 = key).map fun src => view src.2.sketch).sum
  | [], m => (add_zero _).symm
  | src :: l, m => by
    rw [foldl_cons, viewAt_foldl_mergeEntry hF key l]
    by_cases hkey : src.1 = key
    · have hmerge : viewAt view (mergeEntry F m src) key = viewAt view m key + view src.2.sketch := by
        subst hkey
        unfold mergeEntry
        rw [viewAt_of_lookup (lookup_insert _), hF.merged]
        unfold viewAt
        cases m.lookup src.1 with
        | none => exact congrArg (· + _) hF.factory
        | some dst => rfl
      rw [hmerge, filter_cons_of_pos (by simpa using hkey), map_cons, sum_cons, add_assoc]
    · rw [filter_cons_of_neg (by simpa using hkey)]
      exact congrArg (· + _) (viewAt_insert_of_ne m (Ne.symm hkey) _)

theorem viewAt_mergePanes (hF : Unites F view) (panes : List (SlidingPane σ)) (ω : SeriesOrder σ)
    (key : Bytes) :
    viewAt view (mergePanes F panes ω) key = (panes.map fun pane => viewAt view pane.series key).sum := by
  rw [mergePanes_eq, viewAt_foldl_mergeEntry hF]
  refine (zero_add _).trans ?_
  induction panes with
  | nil => rfl
  | cons pane panes ih =>
    rw [flatMap_cons, filter_append, map_append, sum_append, ih, GoMap.filter_range, map_cons,
      sum_cons]
    congr 1
    unfold viewAt
    cases pane.series.lookup key with
    | none => rfl
    | some entry => exact add_zero _

theorem view_newSketch (hF : Unites F view) : view (newSketch F cfg) = 0 := by
  unfold newSketch
  split
  · rw [hF.sampled, hF.factory]
  · exact hF.factory

theorem view_observe (hF : Unites F view) (s : σ) (v : ObservationValue) :
    view (F.observe s v).1 = view s + if (F.observe s v).2.isNone then {v} else 0 := by
  have hobserved := hF.observed s v
  have hrefused := hF.refused s v
  cases hv : (F.observe s v).2 with
  | none => exact hobserved hv
  | some text => exact (hrefused fun hno => nomatch hv.symm.trans hno).trans (add_zero _).symm

/-! ### Panes side by side -/

/-- A sliding configuration, with windows of `n` panes of `slide` milliseconds, that evicts nothing. -/
structure Slides (cfg : PrecomputeConfig) (n slide : Nat) : Prop where
  mode : cfg.mode = .sliding
  slides : cfg.slideMs = slide
  pos : 0 < slide
  size : cfg.windowSizeMs = n * slide
  panes : cfg.panesPerWindow = n
  some : 1 ≤ n
  keeps : cfg.maxSeries = 0 ∨ cfg.onOverflow ≠ .evictOldest

theorem Slides.step {n slide : Nat} (h : Slides cfg n slide) : cfg.rotationStepMs = slide := by
  unfold rotationStepMs
  rw [if_pos h.mode, h.slides]

/-- No rotation comes a whole pane late, and the configuration stays. -/
def steady (σ : Type) : Watch σ where
  rotate cfg w nowMs := 0 < cfg.rotationStepMs → nowMs < w.activeEndMs + cfg.rotationStepMs
  update _ _ := False
  uncounted _ _ _ _ h := h
  degenerate _ _ _ h hpos := absurd h (Nat.pos_iff_ne_zero.mp hpos)

/-- An observation of a series whose pane lies within the last window before a time. -/
def Acceptance.within (cfg : PrecomputeConfig) (key : Bytes) (endMs : Nat) (a : Acceptance) : Bool :=
  a.key = key && endMs ≤ a.startMs + cfg.windowSizeMs && a.startMs + cfg.slideMs ≤ endMs

/-- An envelope spans one window at most, and the entry it was made of is the merge of what the series admitted in
the last window before its end. -/
structure WindowOf (view : σ → Multiset ObservationValue) (cfg : PrecomputeConfig) (accepted : List Acceptance)
    (entry : SeriesEntry σ) (env : SketchEnvelope) : Prop where
  proper : env.windowStartMs < env.windowEndMs
  span : env.windowEndMs - env.windowStartMs ≤ cfg.windowSizeMs
  merged : view entry.sketch =
    ((accepted.filter (within cfg entry.seriesKey env.windowEndMs)).map fun a => a.obs.value : List ObservationValue)

def takenAt (accepted : List Acceptance) (key : Bytes) (startMs : Nat) : List ObservationValue :=
  ((accepted.filter fun a => a.key = key).filter fun a => a.startMs = startMs).map fun a => a.obs.value

structure Holds (view : σ → Multiset ObservationValue) (accepted : List Acceptance) (pane : SlidingPane σ) : Prop where
  taken : ∀ key, viewAt view pane.series key = takenAt accepted key pane.startMs
  keyed : ∀ key entry, pane.series.lookup key = some entry → entry.seriesKey = key

theorem takenAt_eq_nil {accepted : List Acceptance} {startMs : Nat} (h : ∀ a ∈ accepted, a.startMs ≠ startMs)
    (key : Bytes) : takenAt accepted key startMs = [] := by
  unfold takenAt
  rw [map_eq_nil_iff, filter_eq_nil_iff]
  exact fun a ha => by simpa using h a (mem_filter.mp ha).1

theorem takenAt_append (accepted later : List Acceptance) (key : Bytes) (startMs : Nat) :
    takenAt (accepted ++ later) key startMs = takenAt accepted key startMs ++ takenAt later key startMs := by
  unfold takenAt
  rw [filter_append, filter_append, map_append]

theorem holds_empty {accepted : List Acceptance} {startMs endMs : Nat} (h : ∀ a ∈ accepted, a.startMs ≠ startMs) :
    Holds view accepted (⟨∅, startMs, endMs⟩ : SlidingPane σ) :=
  ⟨fun key => by rw [takenAt_eq_nil h]; rfl, fun _ _ h => nomatch h⟩

/-- The panes of the ring lie side by side up to the active pane, and each holds what was admitted to it. -/
structure Ringed (view : σ → Multiset ObservationValue) (cfg : PrecomputeConfig) (n slide : Nat) (h : History σ) :
    Prop where
  config : h.p.cfg = some cfg
  pending : h.p.pendingCfg = none
  idle : h.p.window.initialized = false → h.p.window.panes = [] ∧ h.p.window.series = ∅ ∧ h.accepted = [] ∧
    h.p.window.log = []
  aligned : h.p.window.initialized = true →
    slide ∣ h.p.window.activeStartMs ∧ h.p.window.activeEndMs = h.p.window.activeStartMs + slide
  length : h.p.window.panes.length ≤ n
  starts : h.p.window.initialized = true → ∃ base, base + slide * h.p.window.panes.length = h.p.window.activeStartMs ∧
    h.p.window.panes.map SlidingPane.startMs = range' base h.p.window.panes.length slide ∧
    (h.p.window.panes.length < n → ∀ a ∈ h.accepted, base ≤ a.startMs)
  taken : ∀ a ∈ h.accepted, slide ∣ a.startMs ∧ a.startMs ≤ h.p.window.activeStartMs
  holds : ∀ pane ∈ h.p.window.panes ++ [activePane h.p.window], Holds view h.accepted pane
  emitted : ∀ c entry env, Event.emitted c entry env ∈ h.p.window.log →
    env.windowEndMs ≤ h.p.window.activeStartMs ∧ WindowOf view cfg h.accepted entry env

variable {n slide : Nat}

theorem ringed_start (hvalid : cfg.validMatchers = true) : Ringed view cfg n slide (start cfg) where
  config := by simp [start, new, hvalid]
  pending := rfl
  idle _ := ⟨rfl, rfl, rfl, rfl⟩
  aligned h := nomatch h
  length := Nat.zero_le _
  starts h := nomatch h
  taken _ h := nomatch h
  holds pane hpane := by
    cases mem_singleton.mp hpane
    exact holds_empty fun _ h => nomatch h
  emitted _ _ _ h := nomatch h

variable {h : History σ}

theorem Ringed.opened (hc : Slides cfg n slide) (hr : Ringed view cfg n slide h) (timestampMs : Nat) :
    Ringed view cfg n slide { h with p.window := h.p.window.initWindow timestampMs cfg } := by
  cases hi : h.p.window.initialized with
  | true =>
    rw [initWindow_of_initialized hi]
    exact hr
  | false =>
    obtain ⟨hpanes, hseries, haccepted, hlog⟩ := hr.idle hi
    have hpos : cfg.rotationStepMs ≠ 0 := by
      rw [hc.step]
      exact Nat.pos_iff_ne_zero.mp hc.pos
    have hopen : h.p.window.initWindow timestampMs cfg = { h.p.window with
        activeStartMs := timestampMs / slide * slide
        activeEndMs := timestampMs / slide * slide + slide
        initialized := true } := by
      unfold initWindow
      rw [if_neg (by rw [hi]; decide)]
      dsimp only
      rw [if_neg hpos, hc.step]
    rw [hopen]
    refine ⟨hr.config, hr.pending, (fun h => nomatch h), fun _ => ⟨Dvd.intro_left _ rfl, rfl⟩, hr.length,
      fun _ => ⟨timestampMs / slide * slide, by simp [hpanes], by simp [hpanes], by simp [haccepted]⟩,
      by simp [haccepted], fun pane hpane => ?_, by simp [hlog]⟩
    simp only [hpanes, nil_append, mem_singleton, activePane, hseries] at hpane
    rw [hpane]
    exact holds_empty (by simp [haccepted])

theorem WindowOf.later {accepted : List Acceptance} {env : SketchEnvelope} (h : WindowOf view cfg accepted entry env)
    (later : List Acceptance) (hpos : 0 < cfg.slideMs) (hlater : ∀ a ∈ later, env.windowEndMs ≤ a.startMs) :
    WindowOf view cfg (accepted ++ later) entry env := by
  refine ⟨h.proper, h.span, ?_⟩
  have hnone : later.filter (within cfg entry.seriesKey env.windowEndMs) = [] :=
    filter_eq_nil_iff.mpr fun a ha => by
      have := hlater a ha
      simp [within]
      omega
  rw [filter_append, hnone, append_nil]
  exact h.merged

theorem Ringed.before (hc : Slides cfg n slide) (hr : Ringed view cfg n slide h)
    (hi : h.p.window.initialized = true) : ∀ pane ∈ h.p.window.panes, h.p.window.activeStartMs ≠ pane.startMs := by
  intro pane hpane heq
  obtain ⟨base, hbase, hstarts, -⟩ := hr.starts hi
  have hmem : pane.startMs ∈ range' base h.p.window.panes.length slide := hstarts ▸ mem_map_of_mem hpane
  obtain ⟨i, hlt, hval⟩ := mem_range'.mp hmem
  have := (Nat.mul_lt_mul_left hc.pos).mpr hlt
  omega

theorem Holds.recorded (hF : Unites F view) {w : WindowState σ} {accepted : List Acceptance}
    (hw : Holds view accepted (activePane w)) (key : Bytes) (obs : Observation) :
    Holds view (accepted ++ if (F.observe (w.entryFor F key obs cfg).sketch obs.value).2.isNone then
        [⟨key, w.activeStartMs, obs⟩] else [])
      (activePane { w with series := w.series.insert key (recordedEntry F (w.entryFor F key obs cfg) obs cfg) }) := by
  have hfound : view (w.entryFor F key obs cfg).sketch = viewAt view w.series key ∧
      (w.entryFor F key obs cfg).seriesKey = key := by
    unfold entryFor viewAt
    cases hl : w.series.lookup key with
    | none => exact ⟨view_newSketch hF, rfl⟩
    | some entry => exact ⟨rfl, hw.keyed key entry hl⟩
  have hview := view_observe hF (w.entryFor F key obs cfg).sketch obs.value
  refine ⟨fun k => ?_, GoMap.forall_lookup_insert hw.keyed ((recordedEntry_frame F _ obs).1.trans hfound.2)⟩
  have hold : viewAt view w.series k = takenAt accepted k w.activeStartMs := hw.taken k
  show viewAt view _ k = takenAt _ k w.activeStartMs
  rw [takenAt_append, ← Multiset.coe_add]
  by_cases hk : k = key
  · subst hk
    refine (viewAt_of_lookup (lookup_insert _)).trans ?_
    rw [sketch_recordedEntry, hview, hfound.1, ← hold]
    split
    · simp [takenAt]
    · rfl
  · refine (viewAt_insert_of_ne w.series hk _).trans (hold.trans ?_)
    split
    · simp [takenAt, Ne.symm hk]
    · exact (add_zero _).symm

theorem Ringed.recorded (hF : Unites F view) (hc : Slides cfg n slide) (hr : Ringed view cfg n slide h)
    (obs : Observation) (hi : h.p.window.initialized = true) (key : Bytes) :
    Ringed view cfg n slide { h with
      p.window.series := h.p.window.series.insert key
        (recordedEntry F (h.p.window.entryFor F key obs cfg) obs cfg)
      accepted := h.accepted ++
        if (F.observe (h.p.window.entryFor F key obs cfg).sketch obs.value).2.isNone then
          [⟨key, h.p.window.activeStartMs, obs⟩]
        else [] } := by
  have hactive := @Holds.recorded σ F cfg view hF _ _ (hr.holds _ (mem_append_right _ (mem_singleton_self _))) key obs
  generalize hnew : (if (F.observe (h.p.window.entryFor F key obs cfg).sketch obs.value).2.isNone then
    [(⟨key, h.p.window.activeStartMs, obs⟩ : Acceptance)] else []) = new at hactive ⊢
  have hstart : ∀ a ∈ new, a.startMs = h.p.window.activeStartMs := fun a ha => by
    rw [← hnew] at ha
    split at ha
    · cases mem_singleton.mp ha
      rfl
    · cases ha
  refine ⟨hr.config, hr.pending, (fun hno => nomatch hi.symm.trans hno), hr.aligned, hr.length, fun _ => ?_,
    fun a ha => ?_, fun pane hpane => ?_, fun c e env hev => ?_⟩
  · obtain ⟨base, hbase, hstarts, hfirst⟩ := hr.starts hi
    refine ⟨base, hbase, hstarts, fun hlen a ha => (mem_append.mp ha).elim (hfirst hlen a) fun ha => ?_⟩
    rw [hstart a ha, ← hbase]
    exact Nat.le_add_right _ _
  · refine (mem_append.mp ha).elim (hr.taken a) fun ha => ?_
    rw [hstart a ha]
    exact ⟨(hr.aligned hi).1, Nat.le_refl _⟩
  · rcases mem_append.mp hpane with hold | hnow
    · have hpane := hr.holds pane (mem_append_left _ hold)
      refine ⟨fun k => ?_, hpane.keyed⟩
      rw [takenAt_append, @takenAt_eq_nil new _ (fun a ha => hstart a ha ▸ hr.before hc hi pane hold), append_nil]
      exact hpane.taken k
    · cases mem_singleton.mp hnow
      exact hactive
  · obtain ⟨hend, hwindow⟩ := hr.emitted c e env hev
    exact ⟨hend, hwindow.later _ (by rw [hc.slides]; exact hc.pos) fun a ha => (hstart a ha).symm ▸ hend⟩

section
variable (hc : Slides cfg n slide)
include hc

theorem Ringed.advanced (hr : Ringed view cfg n slide h)
    (hi : h.p.window.initialized = true) {nowMs : Nat} (hdue : h.p.window.activeEndMs ≤ nowMs)
    (hsoon : nowMs < h.p.window.activeEndMs + slide) :
    slide ∣ h.p.window.activeEndMs ∧ (h.p.window.advanceWindow nowMs cfg).activeStartMs = h.p.window.activeEndMs ∧
      (h.p.window.advanceWindow nowMs cfg).activeEndMs = h.p.window.activeEndMs + slide := by
  obtain ⟨hdvd, hend⟩ := hr.aligned hi
  obtain ⟨⟨q, hq⟩, hend', hafter, hbefore, -⟩ := advanceWindow_bounds hc.step hc.pos hdvd hend hdue
  have hdvd' : slide ∣ h.p.window.activeEndMs := hend ▸ Nat.dvd_add hdvd (Nat.dvd_refl _)
  refine ⟨hdvd', ?_⟩
  suffices hstart : (h.p.window.advanceWindow nowMs cfg).activeStartMs = h.p.window.activeEndMs from
    ⟨hstart, by rw [hend', hstart]⟩
  obtain ⟨r, hr'⟩ := hdvd'
  have hlow : r ≤ q := Nat.le_of_mul_le_mul_left (hr' ▸ hq ▸ hafter) hc.pos
  have hhigh : q < r + 1 := by
    refine Nat.lt_of_mul_lt_mul_left (a := slide) ?_
    rw [← hq, Nat.mul_succ, ← hr']
    exact Nat.lt_of_le_of_lt hbefore hsoon
  rw [hq, hr', Nat.le_antisymm (Nat.lt_succ_iff.mp hhigh) hlow]

/-- The ring after a rotation: its panes end with the active one, and nothing is missing unless they fill a window. -/
theorem Ringed.ring (hr : Ringed view cfg n slide h)
    (hi : h.p.window.initialized = true) :
    0 < (ring cfg h.p.window).length ∧ (ring cfg h.p.window).length ≤ n ∧
      ∃ base, base + slide * (ring cfg h.p.window).length = h.p.window.activeEndMs ∧
        (ring cfg h.p.window).map SlidingPane.startMs =
          range' base (ring cfg h.p.window).length slide ∧
        ((ring cfg h.p.window).length < n → ∀ a ∈ h.accepted, base ≤ a.startMs) := by
  obtain ⟨base, hbase, hstarts, hfirst⟩ := hr.starts hi
  obtain ⟨-, hend⟩ := hr.aligned hi
  have hlen : (Precompute.ring cfg h.p.window).length = h.p.window.panes.length +
      1 - (h.p.window.panes.length + 1 - n) := by
    unfold Precompute.ring
    rw [length_drop, length_append, hc.panes]
    rfl
  have hsome := hc.some
  rw [hlen]
  refine ⟨by omega, by omega, base + (h.p.window.panes.length + 1 - n) * slide, ?_, ?_, fun hshort a ha => ?_⟩
  · generalize hk : h.p.window.panes.length + 1 - n = k
    have hsum : h.p.window.panes.length + 1 - k + k = h.p.window.panes.length + 1 := by omega
    have hmul := congrArg (slide * ·) hsum
    simp only [Nat.mul_add, Nat.mul_one] at hmul
    rw [Nat.mul_comm k slide]
    omega
  · unfold Precompute.ring
    rw [map_drop, map_append, hstarts, hc.panes, map_singleton, show (activePane h.p.window).startMs =
      base + slide * h.p.window.panes.length from hbase.symm, ← range'_concat, drop_range']
  · have hzero : h.p.window.panes.length + 1 - n = 0 := by omega
    rw [hzero, Nat.zero_mul, Nat.add_zero]
    exact hfirst (by omega) a ha

theorem getLast?_ring (w : WindowState σ) : (ring cfg w).getLast? = some (activePane w) := by
  unfold ring
  have hsome := hc.some
  rw [getLast?_drop, if_neg, getLast?_concat]
  rw [length_append, hc.panes]
  simp only [length_singleton]
  omega

theorem mem_range'_iff_within {base m endMs : Nat} (hend : base + slide * m = endMs) (hm : m ≤ n)
    (hdvd : slide ∣ endMs) {a : Acceptance} (hkey : a.key = key) (hdvd' : slide ∣ a.startMs)
    (hfirst : m < n → base ≤ a.startMs) :
    a.startMs ∈ range' base m slide ↔ a.within cfg key endMs = true := by
  have hpos := hc.pos
  have hwithin : a.within cfg key endMs = true ↔ endMs ≤ a.startMs + n * slide ∧ a.startMs + slide ≤ endMs := by
    simp [within, hkey, hc.size, hc.slides]
  rw [hwithin, mem_range']
  have hdvdBase : slide ∣ base := (Nat.dvd_add_left (Nat.dvd_mul_right slide m)).mp (hend ▸ hdvd)
  obtain ⟨b, rfl⟩ := hdvdBase
  obtain ⟨t, ht⟩ := hdvd'
  rw [ht] at hfirst ⊢
  have hends : endMs = slide * (b + m) := by rw [← hend, Nat.mul_add]
  have hstart : slide * t + n * slide = slide * (t + n) := by ring
  have hnext : slide * t + slide = slide * (t + 1) := by ring
  rw [hends, hstart, hnext, Nat.mul_le_mul_left_iff hpos, Nat.mul_le_mul_left_iff hpos]
  rw [Nat.mul_le_mul_left_iff hpos] at hfirst
  constructor
  · rintro ⟨i, hlt, hval⟩
    have : t = b + i := by
      apply Nat.eq_of_mul_eq_mul_left hpos
      rw [hval, Nat.mul_add]
    omega
  · rintro ⟨hlow, hhigh⟩
    refine ⟨t - b, by omega, ?_⟩
    rw [← Nat.mul_add]
    congr 1
    omega

end

theorem Ringed.mem_ring {pane : SlidingPane σ} (hpane : pane ∈ Precompute.ring cfg h.p.window) :
    pane ∈ h.p.window.panes ++ [activePane h.p.window] :=
  mem_of_mem_drop hpane

theorem sum_coe {α β : Type} (f : α → List β) :
    ∀ l : List α, (l.map fun x => (f x : Multiset β)).sum = (l.flatMap f : List β)
  | [] => rfl
  | x :: l => by rw [map_cons, sum_cons, sum_coe f l, flatMap_cons, Multiset.coe_add]

theorem Ringed.merged (hF : Unites F view) (hc : Slides cfg n slide) (hr : Ringed view cfg n slide h)
    (hi : h.p.window.initialized = true)
    (hl : (mergePanes F (Precompute.ring cfg h.p.window) ω).lookup key = some entry) :
    view entry.sketch = ((h.accepted.filter (within cfg entry.seriesKey h.p.window.activeEndMs)).map
      fun a => a.obs.value : List ObservationValue) := by
  have hkey : entry.seriesKey = key := mergePanes_induction (P := fun key entry => entry.seriesKey = key)
    (fun pane hpane => (hr.holds pane (Ringed.mem_ring hpane)).keyed) (fun m key src _ hm dst hdst => by
      unfold mergeEntry at hdst
      rw [lookup_insert] at hdst
      cases hdst
      cases hd : m.lookup key with
      | none => rfl
      | some dst => exact hm dst hd) key entry hl
  obtain ⟨-, hlen, base, hbase, hstarts, hfirst⟩ := hr.ring hc hi
  obtain ⟨hdvd, hend⟩ := hr.aligned hi
  have hview : view entry.sketch = (((Precompute.ring cfg h.p.window).map SlidingPane.startMs).flatMap
      (takenAt h.accepted key) : List ObservationValue) := by
    refine (viewAt_of_lookup hl).symm.trans ?_
    rw [viewAt_mergePanes hF, map_congr_left fun pane hpane =>
      (hr.holds pane (Ringed.mem_ring hpane)).taken key, sum_coe, flatMap_map]
  have hperm := flatMap_filter_key startMs (h.accepted.filter fun a => a.key = key)
    (@List.nodup_range' base (Precompute.ring cfg h.p.window).length slide hc.pos)
  have hfilter : (h.accepted.filter fun a => a.key = key).filter
      (fun a => a.startMs ∈ range' base (Precompute.ring cfg h.p.window).length slide) =
      h.accepted.filter (within cfg entry.seriesKey h.p.window.activeEndMs) := by
    rw [filter_filter, hkey]
    refine filter_congr fun a ha => ?_
    by_cases hk : a.key = key
    · have hiff := mem_range'_iff_within hc hbase hlen (hend ▸ Nat.dvd_add hdvd (Nat.dvd_refl _)) hk (hr.taken a ha).1
        fun hshort => hfirst hshort a ha
      rw [Bool.eq_iff_iff]
      simpa [hk] using hiff
    · simp [within, hk]
  rw [hview, hstarts, ← hfilter]
  exact Multiset.coe_eq_coe.mpr ((Perm.of_eq map_flatMap.symm).trans (hperm.map _))

theorem Ringed.rotated (hF : Unites F view) (hc : Slides cfg n slide) (hr : Ringed view cfg n slide h)
    (hi : h.p.window.initialized = true) {nowMs : Nat} (hdue : h.p.window.activeEndMs ≤ nowMs)
    (hsoon : nowMs < h.p.window.activeEndMs + slide) (at_ : Nat) (ω : SeriesOrder σ) :
    Ringed view cfg n slide { h with
      p.window := (finishRotate F
        (h.p.window.rotateLocked F nowMs cfg ω).1 (h.p.window.rotateLocked F nowMs cfg ω).2 cfg at_).1
      p.pendingOutput := h.p.pendingOutput ++ (finishRotate F (h.p.window.rotateLocked F nowMs cfg ω).1
        (h.p.window.rotateLocked F nowMs cfg ω).2 cfg at_).2 } := by
  have hslid := @rotateLocked_slid σ F cfg hc.mode h.p.window nowMs ω
  obtain ⟨hsame, evs, hlog, -, hevs⟩ := @finishRotate_writes σ F cfg (h.p.window.rotateLocked F nowMs cfg ω).1
    (h.p.window.rotateLocked F nowMs cfg ω).2 at_
  obtain ⟨hdvd, hstart', hend'⟩ := hr.advanced hc hi hdue hsoon
  obtain ⟨hsome, hlen, base, hbase, hstarts, hfirst⟩ := hr.ring hc hi
  obtain ⟨-, hend⟩ := hr.aligned hi
  have hpos := hc.pos
  generalize h.p.window.rotateLocked F nowMs cfg ω = rotation at hslid hsame hlog hevs ⊢
  obtain ⟨w, r⟩ := rotation
  generalize finishRotate F w r cfg at_ = finished at hsame hlog ⊢
  obtain ⟨w', envs⟩ := finished
  have hpanes := hsame.panes.trans hslid.panes
  have hseries := hsame.series.trans hslid.series
  have hstart := (hsame.activeStartMs.trans hslid.advanced.1).trans hstart'
  have hinit := (hsame.initialized.trans hslid.initialized).trans hi
  have hactive : activePane w' = ⟨∅, h.p.window.activeEndMs, w'.activeEndMs⟩ := by
    unfold activePane
    rw [hseries, hstart]
  refine ⟨hr.config, hr.pending, (fun hno => nomatch hinit.symm.trans hno), fun _ => ?_, ?_, fun _ => ?_,
    fun a ha => ?_, fun pane hpane => ?_, fun c entry env hev => ?_⟩
  · dsimp only
    rw [hstart, (hsame.activeEndMs.trans hslid.advanced.2).trans hend']
    exact ⟨hdvd, rfl⟩
  · dsimp only
    rw [hpanes]
    exact hlen
  · dsimp only
    rw [hpanes, hstart]
    exact ⟨base, hbase, hstarts, hfirst⟩
  · obtain ⟨hdvd', hle⟩ := hr.taken a ha
    rw [hstart]
    omega
  · dsimp only at hpane
    rw [hpanes, hactive] at hpane
    rcases mem_append.mp hpane with hold | hnew
    · exact hr.holds pane (Ringed.mem_ring hold)
    · cases mem_singleton.mp hnew
      -- nothing was admitted to a pane that has just been opened
      exact holds_empty fun a ha => by
        have := (hr.taken a ha).2
        omega
  · dsimp only at hev ⊢
    rw [hlog, hslid.log] at hev
    rw [hstart]
    rcases mem_append.mp hev with hold | hnew
    · obtain ⟨hle, hwindow⟩ := hr.emitted c entry env hold
      exact ⟨by omega, hwindow⟩
    · obtain ⟨entry', hentry, hser⟩ := hevs _ hnew
      obtain ⟨hrs, hre⟩ := hslid.range (ne_nil_of_mem hentry)
      rw [getLast?_ring hc] at hre
      have hhead : (Precompute.ring cfg h.p.window).head?.map SlidingPane.startMs = some base := by
        rw [← head?_map, hstarts]
        obtain ⟨m, hm⟩ := Nat.exists_eq_succ_of_ne_zero (Nat.pos_iff_ne_zero.mp hsome)
        rw [hm]
        rfl
      rw [hhead] at hrs
      obtain ⟨key, hl⟩ := hslid.entries entry' hentry
      cases hser with
      | emitted payload hdelta =>
        have hs : (boundaryEnvelope F cfg entry r.startMs r.endMs payload).windowStartMs = base := hrs
        have he : (boundaryEnvelope F cfg entry r.startMs r.endMs payload).windowEndMs = h.p.window.activeEndMs := hre
        refine ⟨Nat.le_of_eq he, ?_, ?_, ?_⟩
        · rw [hs, he, ← hbase]
          have := Nat.mul_pos hpos hsome
          omega
        · rw [hs, he, ← hbase, hc.size, Nat.add_sub_cancel_left, Nat.mul_comm]
          exact Nat.mul_le_mul_right _ hlen
        · rw [he]
          exact hr.merged hF hc hi hl

theorem Ringed.move (hF : Unites F view) (hc : Slides cfg n slide) {r : Bool} {h h' : History σ}
    (hmove : Move F (steady σ) r h h') (hr : Ringed view cfg n slide h) : Ringed view cfg n slide h' := by
  cases hmove with
  | counted =>
    exact ⟨hr.config, hr.pending, hr.idle, hr.aligned, hr.length, hr.starts, hr.taken, hr.holds, hr.emitted⟩
  | opened _ c timestampMs hcfg =>
    cases hr.config.symm.trans hcfg
    exact hr.opened hc timestampMs
  | evicted _ c key hcfg hpolicy =>
    cases hr.config.symm.trans hcfg
    rcases hc.keeps with hzero | hother
    · exact absurd hzero hpolicy.1
    · exact absurd hpolicy.2 hother
  | recorded _ c obs hcfg _ hi _ =>
    cases hr.config.symm.trans hcfg
    exact hr.recorded hF hc obs hi _
  | rotated _ c nowMs at_ ω hcfg hi hdue hwatch =>
    cases hr.config.symm.trans hcfg
    have hpos : 0 < cfg.rotationStepMs := hc.step ▸ hc.pos
    exact hr.rotated hF hc hi (hdue hpos) (hc.step ▸ hwatch hpos) at_ ω
  | activated _ _ =>
    rcases activatePendingConfig_cases h.p with ⟨heq, -⟩ | ⟨pending, hpending, -⟩
    · rw [heq]
      exact hr
    · cases hr.pending.symm.trans hpending
  | updated _ _ hwatch => exact hwatch.elim

theorem slides_of (hmode : cfg.mode = .sliding) (hpos : 0 < cfg.slideMs) (hsize : 0 < cfg.windowSizeMs)
    (hwhole : cfg.slideMs ∣ cfg.windowSizeMs) (hkeeps : cfg.maxSeries = 0 ∨ cfg.onOverflow ≠ .evictOldest) :
    Slides cfg (cfg.windowSizeMs / cfg.slideMs) cfg.slideMs := by
  obtain ⟨q, hq⟩ := hwhole
  have hqpos : 1 ≤ q := Nat.pos_of_ne_zero fun hzero => by
    rw [hq, hzero] at hsize
    exact absurd hsize (Nat.lt_irrefl 0)
  have hdiv : cfg.windowSizeMs / cfg.slideMs = q := by rw [hq, Nat.mul_div_cancel_left _ hpos]
  rw [hdiv]
  refine ⟨hmode, rfl, hpos, hq.trans (Nat.mul_comm _ _), ?_, hqpos, hkeeps⟩
  unfold panesPerWindow
  rw [if_neg (by omega), hq]
  have hceil : (cfg.slideMs * q + cfg.slideMs - 1) / cfg.slideMs = q := by
    rw [Nat.add_sub_assoc hpos, Nat.mul_add_div hpos, Nat.div_eq_of_lt (Nat.sub_lt hpos Nat.one_pos), Nat.add_zero]
  rw [hceil]
  exact Nat.max_eq_right hqpos

theorem durationIn_pos {d : Int} (h : millisecond ≤ d) : 0 < durationIn millisecond d := by
  have hpos : (0 : Int) < millisecond := by decide
  have hquot : 1 ≤ d.tdiv millisecond := by
    rw [Int.tdiv_eq_ediv_of_nonneg (by omega)]
    exact (Int.le_ediv_iff_mul_le hpos).mpr (by omega)
  unfold durationIn
  rw [if_pos (by omega)]
  omega

theorem controlledRun_calls (F : SketchImpl σ) (h : History σ) (calls : List (Call σ)) :
    h.controlledRun F (calls.map .call) = h.run F calls :=
  foldl_map

/-- Where panes are closed one by one, every envelope spans one window at most, and is made of an entry that merges
exactly the observations of the series whose panes lie within the last window before its end. -/
theorem sliding_windows_hold_their_panes (F : SketchImpl σ) (view : σ → Multiset ObservationValue) (hF : Unites F view)
    (cfg : PrecomputeConfig) (N : Nat) (hmode : cfg.mode = .sliding) (hN : 1 ≤ N)
    (hslide : millisecond ≤ cfg.window.slide)
    (hsize : cfg.window.size = N * cfg.window.slide) (hwhole : cfg.slideMs ∣ cfg.windowSizeMs)
    (hkeeps : cfg.maxSeries = 0 ∨ cfg.onOverflow ≠ .evictOldest) (calls : List (Call σ))
    (hmet : (steady σ).AllMet F (start cfg) (calls.map .call)) :
    ((start cfg).run F calls).Recorded ∧
      ∀ c entry env, Event.emitted c entry env ∈ ((start cfg).run F calls).p.window.log →
        WindowOf view cfg ((start cfg).run F calls).accepted entry env := by
  have hms : (0 : Int) < millisecond := by decide
  have hslideMs : 0 < cfg.slideMs := by
    unfold slideMs
    rw [if_pos (by omega)]
    exact durationIn_pos hslide
  have hlong : millisecond ≤ cfg.window.size := by
    nlinarith
  have hsizeMs : 0 < cfg.windowSizeMs := by
    unfold windowSizeMs
    rw [if_neg (by omega)]
    exact durationIn_pos hlong
  have hc := slides_of hmode hslideMs hsizeMs hwhole hkeeps
  have hrecorded := watched_induction (fun _ _ _ => Recorded.move) hmet rfl
  rw [controlledRun_calls] at hrecorded
  refine ⟨hrecorded, fun c entry env hev => ?_⟩
  rcases valid_or_idle F cfg calls with hvalid | ⟨hlog, -⟩
  · have hr := watched_induction (fun _ _ _ => Ringed.move hF hc) hmet (ringed_start hvalid)
    rw [controlledRun_calls] at hr
    exact (hr.emitted c entry env hev).2
  · rw [hlog] at hev
    cases hev

/-- The smallest sketch that meets the assumption: it keeps what it observes. -/
def collector : SketchImpl (List ObservationValue) where
  factory := []
  observe l v := (l ++ [v], none)
  snapshot l := .ok (some [UInt8.ofNat l.length])
  computeDeltaAgainst l _ _ := (l, .ok (some [UInt8.ofNat l.length], true))
  applyDelta l _ := (l, none)
  merge l m := (l ++ m, none)
  reset _ := []

def collected (l : List ObservationValue) : Multiset ObservationValue := l

theorem unites_collector : Unites collector collected where
  factory := rfl
  sampled _ _ := rfl
  observed _ _ _ := (Multiset.coe_add _ _).symm
  refused _ _ h := absurd rfl h
  merged _ _ := (Multiset.coe_add _ _).symm

instance (p : Precompute σ) : (c : ControlledCall σ) → Decidable ((steady σ).Met p c)
  | .call c => inferInstanceAs (Decidable (c.emits = false ∧ ∀ cfg ∈ p.cfg, closes p c = true → 0 < cfg.rotationStepMs →
      c.timeMs p < p.window.activeEndMs + cfg.rotationStepMs))
  | .updateConfig _ => .isFalse id

def twoPanes : PrecomputeConfig := { tenMs with
  mode := .sliding, window := { size := 20 * millisecond, slide := 10 * millisecond } }

def collectAt (timestampMs : Nat) : Call (List ObservationValue) :=
  .observe { timestampMs, metric := str "cpu" } rfl (.stored _)

def ticked : List (Call (List ObservationValue)) :=
  [collectAt 5, .tick 10 (.stored _), collectAt 15, .tick 20 (.stored _), .tick 30 (.stored _)]

def emittedRanges (log : List (Event (List ObservationValue))) : List (Nat × Nat × Nat) :=
  log.filterMap fun
    | .emitted _ entry env => some (env.windowStartMs, env.windowEndMs, entry.sketch.length)
    | .closed _ _ _ => none

theorem sliding_windows_hold_their_panes_ticked :
    (∀ c entry env, Event.emitted c entry env ∈ ((start twoPanes).run collector ticked).p.window.log →
        WindowOf collected twoPanes ((start twoPanes).run collector ticked).accepted entry env) ∧
      emittedRanges ((start twoPanes).run collector ticked).p.window.log = [(0, 10, 1), (0, 20, 2), (10, 30, 1)] :=
  ⟨(sliding_windows_hold_their_panes collector collected unites_collector twoPanes 2 rfl (by decide) (by decide)
    (by decide) (by decide) (Or.inl rfl) ticked (by decide +kernel)).2, by decide +kernel⟩

def idled : List (Call (List ObservationValue)) :=
  [collectAt 15, .tick 1000 (.stored _), collectAt 1003, .tick 1010 (.stored _)]

/-- The pane of the first sample is still in the ring a second later, and the window of twenty milliseconds that is
put out spans the second. -/
theorem idle_gap_keeps_old_pane :
    emittedRanges ((start twoPanes).run collector idled).p.window.log = [(10, 20, 1), (10, 1010, 2)] ∧
      ∃ c entry env, Event.emitted c entry env ∈ ((start twoPanes).run collector idled).p.window.log ∧
        ¬ WindowOf collected twoPanes ((start twoPanes).run collector idled).accepted entry env := by
  have hranges : emittedRanges ((start twoPanes).run collector idled).p.window.log = [(10, 20, 1), (10, 1010, 2)] := by
    decide +kernel
  refine ⟨hranges, ?_⟩
  have hmem : (10, 1010, 2) ∈ emittedRanges ((start twoPanes).run collector idled).p.window.log := by
    rw [hranges]
    decide
  obtain ⟨ev, hev, heq⟩ := mem_filterMap.mp hmem
  cases ev with
  | closed _ _ _ => cases heq
  | emitted c entry env =>
    refine ⟨c, entry, env, hev, fun hwindow => ?_⟩
    obtain ⟨hstart, hrest⟩ := Prod.mk.inj (Option.some.inj heq)
    have hend := (Prod.mk.inj hrest).1
    have hspan := hwindow.span
    rw [hstart, hend] at hspan
    exact absurd hspan (by decide)

end AsapCollector.Precompute
