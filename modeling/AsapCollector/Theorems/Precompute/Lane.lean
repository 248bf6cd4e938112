import AsapCollector.Theorems.Precompute.Moves

/-! Under one tumbling configuration without a series cap, every call takes the lane of each key through steps of
`Lane.Step`, so what each step keeps holds of every series in every run. -/

namespace AsapCollector.Precompute

open SnapshotCache List GoMap WindowState History Precompute

structure Tumbling (cfg : PrecomputeConfig) : Prop where
  mode : cfg.mode = .tumbling
  size : 0 < cfg.windowSizeMs
  uncapped : cfg.maxSeries = 0
  valid : cfg.validMatchers = true

variable {σ : Type} {F : SketchImpl σ} {cfg : PrecomputeConfig} {G : Guard σ}

theorem Tumbling.notSliding (h : Tumbling cfg) : cfg.mode ≠ .sliding := by
  rw [h.mode]
  decide

theorem Tumbling.step (h : Tumbling cfg) : cfg.rotationStepMs = cfg.windowSizeMs := by
  rw [PrecomputeConfig.rotationStepMs, if_neg h.notSliding]

def Keyed (cfg : PrecomputeConfig) (series : GoMap Bytes (SeriesEntry σ)) : Prop :=
  ∀ key entry, series.lookup key = some entry →
    entry.seriesKey = key ∧ cfg.seriesKeyForEntry entry.resourceLabels entry.labels = key

/-- The runtime between two calls: one configuration, aligned bounds, and keyed entries. -/
structure Ready (cfg : PrecomputeConfig) (p : Precompute σ) : Prop where
  config : p.cfg = some cfg
  pending : p.pendingCfg = none
  isOpen : p.isClosed = false
  aligned : p.window.initialized = true →
    cfg.windowSizeMs ∣ p.window.activeStartMs ∧ p.window.activeEndMs = p.window.activeStartMs + cfg.windowSizeMs
  blank : p.window.initialized = false → p.window.series = ∅ ∧ p.window.activeStartMs = 0
  keyed : Keyed cfg p.window.series

theorem Keyed.empty : Keyed cfg (∅ : GoMap Bytes (SeriesEntry σ)) := fun _ _ h => nomatch h

variable {series : GoMap Bytes (SeriesEntry σ)} {entry : SeriesEntry σ}

section
variable (h : Keyed cfg series)
include h

theorem Keyed.ownKey {key : Bytes}
    (he : series.lookup key = some entry) : OwnKey cfg entry := by
  obtain ⟨hkey, hlabels⟩ := h key entry he
  unfold OwnKey SeriesEntry.cacheKey
  split
  · rw [hlabels, hkey]
  · rfl

theorem Keyed.entry_of_mem {ω : SeriesOrder σ}
    (he : entry ∈ (series.range ω).map Prod.snd) : series.lookup entry.seriesKey = some entry := by
  obtain ⟨⟨key, e⟩, hmem, rfl⟩ := mem_map.mp he
  have hl := mem_range.mp hmem
  rw [(h key e hl).1]
  exact hl

theorem Keyed.range_keys (ω : SeriesOrder σ) :
    ((series.range ω).map Prod.snd).map SeriesEntry.seriesKey = (series.range ω).map Prod.fst := by
  rw [map_map]
  apply map_congr_left
  rintro ⟨key, e⟩ hmem
  exact (h key e (mem_range.mp hmem)).1

theorem Keyed.filter_entries (ω : SeriesOrder σ) (key : Bytes) :
    ((series.range ω).map Prod.snd).filter (fun e => e.seriesKey = key) = (series.lookup key).toList := by
  have hkey : (series.range ω).filter ((fun e => decide (e.seriesKey = key)) ∘ Prod.snd) =
      (series.range ω).filter fun e => e.1 = key := by
    refine filter_congr fun e he => ?_
    rw [Function.comp_apply, (h e.1 e.2 (mem_range.mp he)).1]
  rw [filter_map, hkey, filter_range, map_map]
  exact map_id _

end

theorem newEntry_keyed (F : SketchImpl σ) (obs : Observation) :
    cfg.seriesKeyForEntry (newEntry F (cfg.seriesKeyFor obs) obs cfg).resourceLabels
      (newEntry F (cfg.seriesKeyFor obs) obs cfg).labels = cfg.seriesKeyFor obs := by
  unfold newEntry PrecomputeConfig.seriesKeyFor PrecomputeConfig.seriesKeyForEntry
  cases cfg.isWholeStream <;> cases cfg.omitResourceAttrs <;> rfl

theorem recordedEntry_frame (F : SketchImpl σ) (entry : SeriesEntry σ) (obs : Observation) :
    (recordedEntry F entry obs cfg).seriesKey = entry.seriesKey ∧
      (recordedEntry F entry obs cfg).resourceLabels = entry.resourceLabels ∧
      (recordedEntry F entry obs cfg).labels = entry.labels := by
  unfold recordedEntry
  dsimp only
  split <;> exact ⟨rfl, rfl, rfl⟩

theorem sketch_recordedEntry (entry : SeriesEntry σ) (obs : Observation) :
    (recordedEntry F entry obs cfg).sketch = (F.observe entry.sketch obs.value).1 := by
  unfold recordedEntry
  dsimp only
  split <;> rfl

theorem Keyed.insert (h : Keyed cfg series) {key : Bytes} (hkey : entry.seriesKey = key)
    (hlabels : cfg.seriesKeyForEntry entry.resourceLabels entry.labels = key) :
    Keyed cfg (series.insert key entry) :=
  forall_lookup_insert h ⟨hkey, hlabels⟩

/-! ### Moves -/

/-- What a guard asks of a window that is rotated. No configuration set arrives. -/
def Guard.watch (G : Guard σ) : Watch σ where
  rotate cfg w _ := 0 < cfg.rotationStepMs → ∀ key entry, w.series.lookup key = some entry →
    G.close (w.snapshotCache.outbound.lookup key) entry
  update _ _ := False
  uncounted _ _ _ _ h := h
  degenerate _ _ _ hzero hpos := absurd hzero (Nat.ne_of_gt hpos)

structure Goes (F : SketchImpl σ) (cfg : PrecomputeConfig) (G : Guard σ) (h h' : History σ) : Prop where
  ready : Ready cfg h'.p
  lanes : ∀ key, Relation.ReflTransGen (Lane.Step F cfg G key) (h.lane key) (h'.lane key)
  initialized : h.p.window.initialized = true → h'.p.window.initialized = true
  start : h.p.window.activeStartMs ≤ h'.p.window.activeStartMs

variable {h h' : History σ} {p : Precompute σ}

theorem Goes.refl (hr : Ready cfg h.p) : Goes F cfg G h h := ⟨hr, fun _ => .refl, id, Nat.le_refl _⟩

theorem Ready.opened (ht : Tumbling cfg) (hr : Ready cfg h.p) (ts : Nat) :
    Goes F cfg G h { h with p.window := h.p.window.initWindow ts cfg } := by
  cases hi : h.p.window.initialized with
  | true =>
    rw [initWindow_of_initialized hi]
    exact .refl hr
  | false =>
    obtain ⟨hempty, hzero⟩ := hr.blank hi
    have hsize := ht.size
    have hw : h.p.window.initWindow ts cfg = { h.p.window with
        activeStartMs := ts / cfg.windowSizeMs * cfg.windowSizeMs
        activeEndMs := ts / cfg.windowSizeMs * cfg.windowSizeMs + cfg.windowSizeMs
        initialized := true } := by
      unfold initWindow
      rw [if_neg (by rw [hi]; decide), ht.step]
      dsimp only
      rw [if_neg (by omega)]
    have hstart : h.p.window.activeStartMs ≤ ts / cfg.windowSizeMs * cfg.windowSizeMs := by omega
    rw [hw]
    refine ⟨⟨hr.config, hr.pending, hr.isOpen, fun _ => ⟨Dvd.intro_left _ rfl, rfl⟩, nofun, hr.keyed⟩, fun key => ?_,
      fun _ => rfl, hstart⟩
    refine .single (.pass _ _ ?_ hstart)
    show h.p.window.series.lookup key = none
    rw [hempty]
    rfl

theorem Ready.rotated (ht : Tumbling cfg) (hr : Ready cfg h.p) {nowMs at_ : Nat} {ω : SeriesOrder σ}
    (hi : h.p.window.initialized = true) (hdue : h.p.window.activeEndMs ≤ nowMs) (hguard : ∀ key entry,
      h.p.window.series.lookup key = some entry → G.close (h.p.window.snapshotCache.outbound.lookup key) entry)
    (pendingOutput : List SketchEnvelope) :
    Goes F cfg G h { h with p := { h.p with
      window := (finishRotate F (h.p.window.rotateLocked F nowMs cfg ω).1 (h.p.window.rotateLocked F nowMs cfg ω).2
        cfg at_).1
      pendingOutput } } := by
  have hrot := @rotateLocked_rotated σ F cfg ht.notSliding h.p.window nowMs ω
  generalize h.p.window.rotateLocked F nowMs cfg ω = rotation at hrot ⊢
  obtain ⟨w, r⟩ := rotation
  dsimp only at hrot ⊢
  obtain ⟨hdvd, hend⟩ := hr.aligned hi
  obtain ⟨hdvd', hend', hnext, hlow, hhigh⟩ := advanceWindow_bounds ht.step ht.size hdvd hend hdue
  rw [← hrot.advanced.1] at hdvd' hend' hnext
  rw [← hrot.advanced.2] at hend'
  have hown : ∀ e ∈ r.entries, OwnKey cfg e := fun e he => by
    rw [hrot.entries] at he
    exact hr.keyed.ownKey (hr.keyed.entry_of_mem he)
  have hkeys : r.entries.map SeriesEntry.seriesKey = (h.p.window.series.range ω).map Prod.fst := by
    rw [hrot.entries, hr.keyed.range_keys]
  have hnodup : (r.entries.map SeriesEntry.seriesKey).Nodup := by
    rw [hkeys]
    exact nodup_keys_range _ _
  have hf := @finishRotate_finished σ F cfg w r at_ hown hnodup
  have hsame := (@finishRotate_writes σ F cfg w r at_).same
  generalize (finishRotate F w r cfg at_).1 = w' at hf hsame ⊢
  have hstart : w'.activeStartMs = w.activeStartMs := hsame.activeStartMs
  have hseries : w'.series = ∅ := hsame.series.trans hrot.series
  have hinit : w'.initialized = true := by rw [hsame.initialized, hrot.initialized, hi]
  have hlt : h.p.window.activeStartMs < w'.activeStartMs := by
    have := ht.size
    omega
  refine ⟨⟨hr.config, hr.pending, hr.isOpen, fun _ => ?_, fun hno => ?_, ?_⟩, fun key => ?_, fun _ => hinit,
    Nat.le_of_lt hlt⟩
  · exact ⟨hstart ▸ hdvd', by rw [hsame.activeEndMs, hstart, hend']⟩
  · cases hno.symm.trans hinit
  · rw [hseries]
    exact Keyed.empty
  have hlog : (w'.log.filter fun ev => ev.key = key) = (h.p.window.log.filter fun ev => ev.key = key) ++
      (h.p.window.series.lookup key).toList.flatMap (closingEvents F cfg r.startMs r.endMs
        h.p.window.snapshotCache) := by
    rw [hf.log, filter_append, filter_closingEvents, hrot.log, hrot.snapshotCache, hrot.entries,
      hr.keyed.filter_entries]
  cases hlive : h.p.window.series.lookup key with
  | some entry =>
    have hmem : entry ∈ r.entries := by
      rw [hrot.entries]
      exact mem_map_of_mem (mem_range.mpr hlive)
    obtain ⟨hs, he⟩ := hrot.range (ne_nil_of_mem hmem)
    have hbase := hf.base entry hmem
    rw [(hr.keyed key entry hlive).1, hrot.snapshotCache] at hbase
    rw [hlive, Option.toList_some, flatMap_singleton, closingEvents, (hr.keyed key entry hlive).1, hs, he, hend] at hlog
    have hlane : laneOf { h.p with window := w', pendingOutput } h.accepted key =
        (h.lane key).close F cfg entry w'.activeStartMs := by
      unfold lane laneOf Lane.close
      rw [hseries, hbase, hlog]
      rfl
    unfold lane at hlane ⊢
    rw [hlane]
    exact .single (.close _ entry _ hlive hlt (hguard key entry hlive))
  | none =>
    have hnot : key ∉ r.entries.map SeriesEntry.seriesKey := by
      rw [hkeys]
      intro hmem
      obtain ⟨⟨k, e⟩, hke, rfl⟩ := mem_map.mp hmem
      rw [mem_range.mp hke] at hlive
      cases hlive
    have hpass : Lane.Step F cfg G key (h.lane key) { h.lane key with startMs := w'.activeStartMs } :=
      .pass _ _ hlive (Nat.le_of_lt hlt)
    rw [hlive, Option.toList_none, flatMap_nil, append_nil] at hlog
    have hlane : laneOf { h.p with window := w', pendingOutput } h.accepted key =
        { h.lane key with startMs := w'.activeStartMs, base := w'.snapshotCache.outbound.lookup key } := by
      unfold lane laneOf
      rw [hseries, hlog, hlive]
      rfl
    unfold lane at hlane ⊢
    rw [hlane]
    rcases hf.kept key hnot with hbase | hbase
    · rw [hbase, hrot.snapshotCache]
      exact .single hpass
    · rw [hbase]
      exact .tail (.single hpass) (.forget _ hlive)

theorem entryFor_keyed (h : Ready cfg p) (obs : Observation) :
    (p.window.entryFor F (cfg.seriesKeyFor obs) obs cfg).seriesKey = cfg.seriesKeyFor obs ∧
      cfg.seriesKeyForEntry (p.window.entryFor F (cfg.seriesKeyFor obs) obs cfg).resourceLabels
        (p.window.entryFor F (cfg.seriesKeyFor obs) obs cfg).labels = cfg.seriesKeyFor obs := by
  unfold entryFor
  cases hl : p.window.series.lookup (cfg.seriesKeyFor obs) with
  | some e => exact h.keyed _ e hl
  | none => exact ⟨rfl, newEntry_keyed F obs⟩

theorem Ready.recorded (hr : Ready cfg h.p) {obs : Observation} (hi : h.p.window.initialized = true)
    (hadmits : cfg.admits obs = true) (hvalid : h.p.window.validateTimestamp obs.timestampMs cfg = none) :
    Goes F cfg G h { h with
      p.window.series := h.p.window.series.insert (cfg.seriesKeyFor obs)
        (recordedEntry F (h.p.window.entryFor F (cfg.seriesKeyFor obs) obs cfg) obs cfg)
      accepted := h.accepted ++
        if (F.observe (h.p.window.entryFor F (cfg.seriesKeyFor obs) obs cfg).sketch obs.value).2.isNone then
          [⟨cfg.seriesKeyFor obs, h.p.window.activeStartMs, obs⟩]
        else [] } := by
  obtain ⟨hf₁, hf₂, hf₃⟩ := @recordedEntry_frame σ cfg F (h.p.window.entryFor F (cfg.seriesKeyFor obs) obs cfg) obs
  obtain ⟨hkey, hlabels⟩ := @entryFor_keyed σ F cfg h.p hr obs
  obtain ⟨-, hend⟩ := hr.aligned hi
  obtain ⟨hts, hlate⟩ := validateTimestamp_eq_none hvalid
  rw [hend] at hts
  refine ⟨⟨hr.config, hr.pending, hr.isOpen, hr.aligned, fun hno => absurd (hno.symm.trans hi) (by decide), ?_⟩,
    fun key => ?_, id, Nat.le_refl _⟩
  · exact hr.keyed.insert (hf₁.trans hkey) (by rw [hf₂, hf₃]; exact hlabels)
  unfold lane laneOf
  dsimp only
  by_cases hk : key = cfg.seriesKeyFor obs
  · subst hk
    rw [AList.lookup_insert, filter_append]
    cases herr : (F.observe (h.p.window.entryFor F (cfg.seriesKeyFor obs) obs cfg).sketch obs.value).2 with
    | some text =>
      rw [if_neg (by simp), filter_nil, append_nil]
      exact .single (.refuse _ obs rfl text herr)
    | none =>
      rw [if_pos (by simp), filter_cons_of_pos (by exact decide_eq_true rfl), filter_nil]
      exact .single (.accept _ obs rfl hadmits hlate hts herr)
  · have hother : (if (F.observe (h.p.window.entryFor F (cfg.seriesKeyFor obs) obs cfg).sketch obs.value).2.isNone then
        [(⟨cfg.seriesKeyFor obs, h.p.window.activeStartMs, obs⟩ : Acceptance)] else []).filter
          (fun a => a.key = key) = [] := by
      split
      · exact filter_cons_of_neg (fun heq => hk (of_decide_eq_true heq).symm)
      · rfl
    rw [AList.lookup_insert_ne hk, filter_append, hother, append_nil]

theorem Ready.move (ht : Tumbling cfg) (hr : Ready cfg h.p) {r : Bool} (hmove : Move F G.watch r h h') :
    Goes F cfg G h h' := by
  have hsame : ∀ {c : PrecomputeConfig}, h.p.cfg = some c → c = cfg := fun hc =>
    Option.some.inj (hc.symm.trans hr.config)
  cases hmove with
  | counted =>
    exact ⟨⟨hr.config, hr.pending, hr.isOpen, hr.aligned, hr.blank, hr.keyed⟩, fun _ => .refl, id, Nat.le_refl _⟩
  | opened _ c ts hc =>
    cases hsame hc
    exact hr.opened ht ts
  | evicted _ c _ hc hpolicy =>
    cases hsame hc
    exact absurd ht.uncapped hpolicy.1
  | recorded _ c obs hc hadmits hi hvalid =>
    cases hsame hc
    exact hr.recorded hi hadmits hvalid
  | rotated _ c nowMs at_ ω hc hi hdue hwatch =>
    cases hsame hc
    have hpos : 0 < cfg.rotationStepMs := ht.step ▸ ht.size
    exact hr.rotated ht hi (hdue hpos) (hwatch hpos) _
  | activated =>
    rcases activatePendingConfig_cases h.p with ⟨heq, -⟩ | ⟨next, hno, -⟩
    · rw [heq]
      exact .refl hr
    · cases hr.pending.symm.trans hno
  | updated _ _ hwatch => exact hwatch.elim

theorem Ready.performs (ht : Tumbling cfg) (hr : Ready cfg h.p) (hperforms : Performs F G.watch h h') :
    Goes F cfg G h h' := by
  refine hperforms.keeps (fun _ _ _ hmove hgoes => ?_) (.refl hr)
  have hnext := hgoes.ready.move ht hmove
  exact ⟨hnext.ready, fun key => (hgoes.lanes key).trans (hnext.lanes key),
    fun hi => hnext.initialized (hgoes.initialized hi), hgoes.start.trans hnext.start⟩

/-! ### A runtime without a configuration in waiting -/

theorem rotateAndFinish_eq (hp : p.pendingCfg = none) (nowMs : Nat) (ω : RangeOrders σ) :
    rotateAndFinish F p cfg nowMs ω =
      let rotated := p.window.rotate F nowMs cfg ω.series
      let done := finishRotate F rotated.1 rotated.2 cfg nowMs
      ({ p with window := done.1 }, done.2) := by
  simp only [rotateAndFinish, activatePendingConfig, hp, ite_self]

theorem drain_eq (hcfg : p.cfg = some cfg) (hp : p.pendingCfg = none) (ω : RangeOrders σ) :
    drain F p ω =
      let drained := p.window.drain F cfg ω.series
      let done := finishRotate F drained.1 drained.2 cfg drained.2.endMs
      takePendingOutput { p with window := done.1 } done.2 := by
  obtain ⟨_, _, w, isClosed, receiver, output⟩ := p
  cases hcfg
  cases hp
  rfl

/-! ### The verdict on an observation -/

variable {obs : Observation} {ω : RangeOrders σ}

theorem Ready.withStats (h : Ready cfg p) (stats : PrecomputeStats) :
    Ready cfg (withStats p stats) :=
  ⟨h.config, h.pending, h.isOpen, h.aligned, h.blank, h.keyed⟩

/-- What the verdict on an observation can be: one that the matchers turn away meets no error, any other is taken, late
or refused by its sketch. -/
def Explained (F : SketchImpl σ) (cfg : PrecomputeConfig) (v : Observation × Option PrecomputeError) : Prop :=
  if cfg.admits v.1 then
    v.2 = none ∨ v.2 = some .lateData ∨ ∃ s text, (F.observe s v.1.value).2 = some text ∧
      v.2 = some (.sketchObserve text)
  else v.2 = none

theorem Ready.error (ht : Tumbling cfg) (hr : Ready cfg p) (hnot : (observeOnce F p none obs).2 ≠ some .futureData) :
    Explained F cfg (obs, (observeOnce F p none obs).2) := by
  unfold Explained
  unfold observeOnce at hnot ⊢
  rw [hr.config] at hnot ⊢
  dsimp only [Option.getD_none] at hnot ⊢
  cases hadmits : cfg.admits obs with
  | false => rfl
  | true =>
    rw [hadmits, if_neg (by decide)] at hnot
    rw [if_pos rfl, if_neg (by decide)]
    rcases @observeWithKey_uncapped σ F cfg ht.uncapped p.window (cfg.seriesKeyFor obs) obs with
      ⟨err, hv, heq⟩ | ⟨-, stats, heq⟩ <;> rw [heq] at hnot ⊢
    · rcases validateTimestamp_eq_some hv with ⟨rfl, -⟩ | ⟨rfl, -⟩
      · exact absurd rfl hnot
      · exact .inr (.inl rfl)
    · generalize p.window.entryFor F (cfg.seriesKeyFor obs) obs cfg = entry
      cases herr : (F.observe entry.sketch obs.value).2 with
      | none => exact .inl rfl
      | some text => exact .inr (.inr ⟨entry.sketch, text, herr, rfl⟩)

theorem Ready.lt_rotateForFuture (ht : Tumbling cfg) (hr : Ready cfg p) {ts : Nat} (hi : p.window.initialized = true)
    (hts : p.window.activeEndMs ≤ ts) (ω : RangeOrders σ) : ts < (rotateForFuture F p ts ω).window.activeEndMs := by
  rw [rotateForFuture_eq hr.config, rotateAndFinish_eq hr.pending]
  rw [(finishRotate_writes _ _ _).same.activeEndMs]
  rcases @rotate_cases σ F cfg ht.notSliding p.window ts ω.series with ⟨-, hnot⟩ | ⟨-, -, hrot⟩
  · exact absurd (hnot hi) (Nat.not_lt.mpr hts)
  · obtain ⟨hdvd, hend⟩ := hr.aligned hi
    rw [hrot.advanced.2]
    exact (advanceWindow_bounds ht.step ht.size hdvd hend hts).2.2.2.2

theorem Ready.verdict (ht : Tumbling cfg) (hr : Ready cfg p) (scalar : obs.carried = none) :
    Explained F cfg (obs, (observe F p obs ω).2) := by
  unfold observe
  rcases observeWith_cases F p none scalar ω with ⟨hclosed, -⟩ | ⟨counted, stats, ⟨hnot, heq⟩ | ⟨p', hfuture, heq⟩⟩
  · cases hr.isOpen.symm.trans hclosed
  · rw [heq]
    exact (hr.withStats counted).error ht hnot
  · rw [heq]
    have hready := ((hr.withStats counted).performs (h := ⟨Precompute.withStats p counted, [], [], []⟩) (G := .free) ht
      (performs_rotateForFuture ω hfuture fun _ _ _ _ _ _ _ _ _ => trivial)).ready
    refine hready.error ht fun hagain => ?_
    -- the window that was opened for the observation ends after it
    obtain ⟨c, hc, -, hsame, hend⟩ := observeOnce_futureData (Prod.ext rfl hagain)
    cases hready.config.symm.trans hc
    rw [hsame] at hend
    obtain ⟨c, hc', -, rfl, hts⟩ := observeOnce_futureData hfuture
    cases hr.config.symm.trans hc'
    have hopened := ((hr.withStats counted).opened (F := F) (G := .free)
      (h := ⟨Precompute.withStats p counted, [], [], []⟩) ht obs.timestampMs).ready
    have hlt := hopened.lt_rotateForFuture (F := F) ht (initialized_initWindow _ _) hts ω
    generalize (rotateForFuture F _ obs.timestampMs ω).window = w at hlt hend
    cases hi : w.initialized with
    | false => exact absurd hend (Nat.not_le.mpr (lt_initWindow (ht.step ▸ ht.size) hi _))
    | true =>
      rw [initWindow_of_initialized hi] at hend
      exact absurd hend (Nat.not_le.mpr hlt)

/-! ### Whole calls -/

structure Advances (F : SketchImpl σ) (cfg : PrecomputeConfig) (G : Guard σ) (h h' : History σ) : Prop where
  ready : Ready cfg h'.p
  lanes : ∀ key, Relation.ReflTransGen (Lane.Step F cfg G key) (h.lane key) (h'.lane key)
  output : ∃ evs, h'.p.window.log = h.p.window.log ++ evs ∧
    (h'.returned ++ h'.p.pendingOutput).Perm (h.returned ++ h.p.pendingOutput ++ evs.filterMap Event.envelope?)
  initialized : h.p.window.initialized = true → h'.p.window.initialized = true
  start : h.p.window.activeStartMs ≤ h'.p.window.activeStartMs
  verdicts : ∃ vs, h'.verdicts = h.verdicts ++ vs ∧ ∀ v ∈ vs, Explained F cfg v

theorem Advances.refl (hr : Ready cfg h.p) : Advances F cfg G h h where
  ready := hr
  lanes _ := Relation.ReflTransGen.refl
  output := ⟨[], (append_nil _).symm, by rw [filterMap_nil, append_nil]⟩
  initialized := id
  start := Nat.le_refl _
  verdicts := ⟨[], (append_nil _).symm, fun _ h => nomatch h⟩

theorem Advances.trans {h h' h'' : History σ} (a : Advances F cfg G h h') (b : Advances F cfg G h' h'') :
    Advances F cfg G h h'' where
  ready := b.ready
  lanes key := (a.lanes key).trans (b.lanes key)
  output := by
    obtain ⟨evs, hlog, hperm⟩ := a.output
    obtain ⟨evs', hlog', hperm'⟩ := b.output
    refine ⟨evs ++ evs', by rw [hlog', hlog, append_assoc], hperm'.trans ?_⟩
    rw [filterMap_append, ← append_assoc]
    exact hperm.append_right _
  initialized hi := b.initialized (a.initialized hi)
  start := a.start.trans b.start
  verdicts := by
    obtain ⟨vs, hvs, hall⟩ := a.verdicts
    obtain ⟨vs', hvs', hall'⟩ := b.verdicts
    refine ⟨vs ++ vs', by rw [hvs', hvs, append_assoc], fun v hv => ?_⟩
    exact (mem_append.mp hv).elim (hall v) (hall' v)

theorem verdicts_step (ht : Tumbling cfg) (hr : Ready cfg h.p) (c : Call σ) :
    ∃ vs, (h.step F c).verdicts = h.verdicts ++ vs ∧ ∀ v ∈ vs, Explained F cfg v := by
  cases c with
  | observe obs scalar ω =>
    exact ⟨[(obs, (observe F h.p obs ω).2)], rfl, forall_mem_singleton.mpr (hr.verdict ht scalar)⟩
  | tick | drain | emitSubWindow => exact ⟨[], (append_nil _).symm, fun _ hv => nomatch hv⟩

theorem Ready.quiet (ht : Tumbling cfg) (hr : Ready cfg h.p) {c : Call σ} (hc : c.emits = false) (hmet : G.Met h.p c) :
    Advances F cfg G h (h.step F c) := by
  have hperforms : Performs F G.watch h (h.step F c) := @performs_controlledStep σ F G.watch h (.call c)
    ⟨hc, fun _ _ hcloses _ key entry he => (hmet key entry he).1 hcloses⟩
  have hverdicts := verdicts_step (F := F) ht hr c
  obtain ⟨hready, hlanes, hinit, hstart⟩ := hr.performs ht hperforms
  obtain ⟨evs, hlog, houtput⟩ := hperforms.output
  exact ⟨hready, hlanes, ⟨evs, hlog, .of_eq houtput⟩, hinit, hstart, hverdicts⟩

end AsapCollector.Precompute
