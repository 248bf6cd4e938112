import AsapCollector.Theorems.Precompute.Lane

/-! A visit of `EmitSubWindow` changes the entry of its own series, the base of that series and nothing else. -/

namespace AsapCollector.Precompute

open SnapshotCache List Option GoMap

variable {σ : Type} {F : SketchImpl σ} {cfg : PrecomputeConfig} {G : Guard σ}

def visited (F : SketchImpl σ) (cfg : PrecomputeConfig) (base : Option Bytes) (entry : SeriesEntry σ) :
    Option Bytes × SeriesEntry σ × Option (Bytes × Bool) :=
  if subWindowShouldEmit F entry cfg then
    match subWindowDelta F cfg base entry.sketch with
    | (base, sketch, none) => (base, { entry with sketch }, none)
    | (base, sketch, some payload) => (base, afterEmit F cfg { entry with sketch }, some payload)
  else (base, entry, none)

theorem afterEmit_frame (entry : SeriesEntry σ) :
    (afterEmit F cfg entry).seriesKey = entry.seriesKey ∧
      (afterEmit F cfg entry).resourceLabels = entry.resourceLabels ∧
      (afterEmit F cfg entry).labels = entry.labels ∧ (afterEmit F cfg entry).count = entry.count := by
  unfold afterEmit subWindowMarkEmitted
  dsimp only
  repeat' split
  all_goals exact ⟨rfl, rfl, rfl, rfl⟩

theorem visited_frame (base : Option Bytes) (entry : SeriesEntry σ) :
    (visited F cfg base entry).2.1.seriesKey = entry.seriesKey ∧
      (visited F cfg base entry).2.1.resourceLabels = entry.resourceLabels ∧
      (visited F cfg base entry).2.1.labels = entry.labels ∧ (visited F cfg base entry).2.1.count = entry.count := by
  unfold visited
  split
  · split
    · exact ⟨rfl, rfl, rfl, rfl⟩
    · exact afterEmit_frame _
  · exact ⟨rfl, rfl, rfl, rfl⟩

def openEnvelope (cfg : PrecomputeConfig) (entry : SeriesEntry σ) (payload : Bytes × Bool) : SketchEnvelope :=
  envelopeOf entry cfg (if payload.2 then .protoFull else .protoDelta) payload.1

theorem visitSubWindow_spec (cache : SnapshotCache) (entry : SeriesEntry σ) {key : Bytes}
    (hkey : cfg.seriesKeyForEntry entry.resourceLabels entry.labels = key) :
    (visitSubWindow F cfg cache entry).1.outbound.lookup key = (visited F cfg (cache.outbound.lookup key) entry).1 ∧
      Elsewhere key cache (visitSubWindow F cfg cache entry).1 ∧
      (visitSubWindow F cfg cache entry).2.1 = (visited F cfg (cache.outbound.lookup key) entry).2.1 ∧
      (visitSubWindow F cfg cache entry).2.2 =
        (visited F cfg (cache.outbound.lookup key) entry).2.2.map (openEnvelope cfg entry) := by
  unfold visitSubWindow visited
  split
  · obtain ⟨hcomp, hsketch⟩ := @computeSubWindowDelta_computed σ F cfg key cache entry.sketch
    unfold serializeSubWindowSeries
    rw [hkey]
    dsimp only
    generalize cache.computeSubWindowDelta F key (applyGosMode F entry.sketch cfg) cfg.deltaThreshold = r
      at hcomp hsketch ⊢
    generalize subWindowDelta F cfg (cache.outbound.lookup key) entry.sketch = d at hcomp hsketch ⊢
    obtain ⟨base, sketch', payload⟩ := d
    obtain ⟨cache', sketch, e | ⟨_ | bytes, isFull⟩⟩ := r <;> dsimp only at hcomp hsketch ⊢ <;> subst hsketch <;>
      have hpay := hcomp.payload <;> dsimp only [payloadOf] at hpay <;> subst hpay <;>
      exact ⟨hcomp.base, hcomp.elsewhere, rfl, rfl⟩
  · exact ⟨rfl, Elsewhere.refl _ _, rfl, rfl⟩

/-- What a visit emits, by the base that the cache holds for the series. -/
def emission (F : SketchImpl σ) (cfg : PrecomputeConfig) (cache : SnapshotCache) (e : Bytes × SeriesEntry σ) :
    Option (SeriesEntry σ × SketchEnvelope) :=
  (visited F cfg (cache.outbound.lookup e.1) e.2).2.2.map fun payload => (e.2, openEnvelope cfg e.2 payload)

structure Visited (F : SketchImpl σ) (cfg : PrecomputeConfig) (key : Bytes) (entry : SeriesEntry σ) (w : WindowState σ)
    (emitted : List (SeriesEntry σ × SketchEnvelope)) (w' : WindowState σ)
    (emitted' : List (SeriesEntry σ × SketchEnvelope)) : Prop where
  series : w'.series = w.series.insert key (visited F cfg (w.snapshotCache.outbound.lookup key) entry).2.1
  base : w'.snapshotCache.outbound.lookup key = (visited F cfg (w.snapshotCache.outbound.lookup key) entry).1
  elsewhere : Elsewhere key w.snapshotCache w'.snapshotCache
  emitted : emitted' = emitted ++ (emission F cfg w.snapshotCache (key, entry)).toList
  bounds : w'.activeStartMs = w.activeStartMs ∧ w'.activeEndMs = w.activeEndMs ∧ w'.initialized = w.initialized
  log : w'.log = w.log

theorem visitEntry_visited (w : WindowState σ) (emitted : List (SeriesEntry σ × SketchEnvelope)) {key : Bytes}
    {entry : SeriesEntry σ} (hkey : cfg.seriesKeyForEntry entry.resourceLabels entry.labels = key) :
    Visited F cfg key entry w emitted (visitEntry F cfg (w, emitted) (key, entry)).1
      (visitEntry F cfg (w, emitted) (key, entry)).2 := by
  obtain ⟨hbase, helse, hentry, henv⟩ := @visitSubWindow_spec σ F cfg w.snapshotCache entry key hkey
  unfold visitEntry
  dsimp only
  rw [hentry, henv]
  exact ⟨rfl, hbase, helse, by rw [emission, Option.map_map]; rfl, ⟨rfl, rfl, rfl⟩, rfl⟩

structure AllVisited (F : SketchImpl σ) (cfg : PrecomputeConfig) (entries : List (Bytes × SeriesEntry σ))
    (w : WindowState σ) (emitted : List (SeriesEntry σ × SketchEnvelope)) (w' : WindowState σ)
    (emitted' : List (SeriesEntry σ × SketchEnvelope)) : Prop where
  bounds : w'.activeStartMs = w.activeStartMs ∧ w'.activeEndMs = w.activeEndMs ∧ w'.initialized = w.initialized
  log : w'.log = w.log
  emitted : emitted' = emitted ++ entries.filterMap (emission F cfg w.snapshotCache)
  aside : ∀ key, key ∉ entries.map Prod.fst → w'.series.lookup key = w.series.lookup key ∧
    w'.snapshotCache.outbound.lookup key = w.snapshotCache.outbound.lookup key
  visited : ∀ key entry, (key, entry) ∈ entries →
    w'.series.lookup key = some (visited F cfg (w.snapshotCache.outbound.lookup key) entry).2.1 ∧
      w'.snapshotCache.outbound.lookup key = (visited F cfg (w.snapshotCache.outbound.lookup key) entry).1

variable {entry : SeriesEntry σ} {w w' : WindowState σ}

theorem visitAll : ∀ (entries : List (Bytes × SeriesEntry σ)) (w : WindowState σ)
    (emitted : List (SeriesEntry σ × SketchEnvelope)),
    (∀ key entry, (key, entry) ∈ entries →
      entry.seriesKey = key ∧ cfg.seriesKeyForEntry entry.resourceLabels entry.labels = key) →
    (entries.map Prod.fst).Nodup →
    AllVisited F cfg entries w emitted (entries.foldl (visitEntry F cfg) (w, emitted)).1
      (entries.foldl (visitEntry F cfg) (w, emitted)).2
  | [], w, emitted, _, _ =>
    ⟨⟨rfl, rfl, rfl⟩, rfl, (append_nil _).symm, fun _ _ => ⟨rfl, rfl⟩, fun _ _ h => nomatch h⟩
  | (key, entry) :: entries, w, emitted, hkeyed, hnodup => by
    rw [map_cons, nodup_cons] at hnodup
    have h := @visitEntry_visited σ F cfg w emitted key entry (hkeyed key entry mem_cons_self).2
    rw [foldl_cons]
    generalize visitEntry F cfg (w, emitted) (key, entry) = turn at h ⊢
    obtain ⟨w₁, emitted₁⟩ := turn
    dsimp only at h
    have ih := @visitAll entries w₁ emitted₁ (fun k e he => hkeyed k e (mem_cons_of_mem _ he)) hnodup.2
    have hne : ∀ e ∈ entries, e.1 ≠ key := fun e he heq =>
      hnodup.1 (List.mem_map.mpr ⟨e, he, heq⟩)
    refine ⟨⟨ih.bounds.1.trans h.bounds.1, ih.bounds.2.1.trans h.bounds.2.1, ih.bounds.2.2.trans h.bounds.2.2⟩,
      ih.log.trans h.log, ?_, fun k hk => ?_, fun k e he => ?_⟩
    · rw [ih.emitted, h.emitted, append_assoc, filterMap_cons, filterMap_congr fun e he => ?_]
      · cases emission F cfg w.snapshotCache (key, entry) <;> rfl
      · rw [emission, h.elsewhere.outbound _ (hne e he), emission]
    · rw [map_cons, mem_cons, not_or] at hk
      obtain ⟨hlive, hbase⟩ := ih.aside k hk.2
      rw [hlive, hbase, h.series, AList.lookup_insert_ne hk.1, h.elsewhere.outbound k hk.1]
      exact ⟨rfl, rfl⟩
    · rcases mem_cons.mp he with heq | he
      · obtain ⟨rfl, rfl⟩ := Prod.mk.inj heq
        obtain ⟨hlive, hbase⟩ := ih.aside k hnodup.1
        rw [hlive, hbase, h.series, AList.lookup_insert, h.base]
        exact ⟨rfl, rfl⟩
      · rw [← h.elsewhere.outbound k (hne (k, e) he)]
        exact ih.visited k e he

variable {emitted : List (SeriesEntry σ × SketchEnvelope)}

theorem AllVisited.mem_emitted {entries : List (Bytes × SeriesEntry σ)}
    (h : AllVisited F cfg entries w [] w' emitted)
    (hown : ∀ key entry, (key, entry) ∈ entries → entry.seriesKey = key) {e : SeriesEntry σ × SketchEnvelope} :
    e ∈ emitted ↔ ∃ entry, (entry.seriesKey, entry) ∈ entries ∧ ∃ payload,
      (Precompute.visited F cfg (w.snapshotCache.outbound.lookup entry.seriesKey) entry).2.2 = some payload ∧
        e = (entry, openEnvelope cfg entry payload) := by
  rw [h.emitted, nil_append, mem_filterMap]
  constructor
  · rintro ⟨⟨key, entry⟩, he, hsome⟩
    obtain rfl := hown key entry he
    obtain ⟨payload, hpay, rfl⟩ := map_eq_some_iff.mp hsome
    exact ⟨entry, he, payload, hpay, rfl⟩
  · rintro ⟨entry, he, payload, hpay, rfl⟩
    exact ⟨_, he, by rw [emission, hpay]; rfl⟩

def stamped (w : WindowState σ) (e : SeriesEntry σ × SketchEnvelope) : SeriesEntry σ × SketchEnvelope :=
  (e.1, { e.2 with windowStartMs := w.activeStartMs, windowEndMs := w.activeEndMs })

def afterSubWindow (cfg : PrecomputeConfig) (p : Precompute σ) (w : WindowState σ)
    (emitted : List (SeriesEntry σ × SketchEnvelope)) (stats : PrecomputeStats) : Precompute σ :=
  { p with window := { w with
      log := w.log ++ (emitted.map (stamped w)).map fun e => Event.emitted cfg e.1 e.2
      stats := stats } }

variable {p : Precompute σ}

theorem emitSubWindow_eq (hcfg : p.cfg = some cfg) (hdelta : cfg.deltaTransmission = true)
    (hi : p.window.initialized = true) (hmode : cfg.mode ≠ .sliding) (nowMs : Nat) (ω : RangeOrders σ)
    (hloop : (p.window.series.range ω.series).foldl (visitEntry F cfg) (p.window, []) = (w, emitted))
    (hend : 0 < w.activeEndMs) :
    ∃ stats, emitSubWindow F p nowMs ω =
      (afterSubWindow cfg p w emitted stats, (emitted.map (stamped w)).map Prod.snd) := by
  unfold emitSubWindow
  split
  · rename_i hnone
    rw [hcfg] at hnone
    cases hnone
  · rename_i hsome
    cases hsome.symm.trans hcfg
    rw [if_neg (by simp [hdelta, hi, hmode]), hloop]
    dsimp only
    split
    · rename_i h
      have hnil : emitted = [] := h.resolve_left fun hz => by omega
      subst hnil
      exact ⟨w.stats, by simp [afterSubWindow]⟩
    · exact ⟨_, rfl⟩

theorem emitSubWindow_idle (hcfg : p.cfg = some cfg)
    (hidle : cfg.deltaTransmission = false ∨ p.window.initialized = false) (nowMs : Nat) (ω : RangeOrders σ) :
    emitSubWindow F p nowMs ω = (p, []) := by
  unfold emitSubWindow
  split
  · rfl
  · rename_i hsome
    cases hsome.symm.trans hcfg
    rw [if_pos (hidle.imp id Or.inl)]

theorem Lane.visited_steps {key : Bytes} {l l' : Lane σ} (hentry : l.live = some entry)
    (hguard : G.emit l.base entry)
    (hdelta : cfg.deltaTransmission = true) (hlive : l'.live = some (visited F cfg l.base entry).2.1)
    (hbase : l'.base = (visited F cfg l.base entry).1) (hstart : l'.startMs = l.startMs)
    (haccepted : l'.accepted = l.accepted)
    (hlog : l'.log = l.log ++ ((visited F cfg l.base entry).2.2.map fun payload =>
      Event.emitted cfg entry (subWindowEnvelope cfg entry l.startMs (l.startMs + cfg.windowSizeMs) payload)).toList) :
    Relation.ReflTransGen (Lane.Step F cfg G key) l l' := by
  unfold visited at hlive hbase hlog
  cases hs : subWindowShouldEmit F entry cfg with
  | true =>
    have hlane : l' = l.emit F cfg entry := by
      unfold Lane.emit
      generalize subWindowDelta F cfg l.base entry.sketch = d at hlive hbase hlog ⊢
      obtain ⟨base, sketch, _ | payload⟩ := d <;> cases l' <;> simp_all
    rw [hlane]
    exact .single (.emit _ entry hentry hdelta hs hguard)
  | false =>
    have hlane : l' = l := by
      cases l'
      cases l
      simp_all
    rw [hlane]

section
variable {w w' : WindowState σ} {emitted : List (SeriesEntry σ × SketchEnvelope)} {ω : SeriesOrder σ}

section
variable (h : AllVisited F cfg (w.series.range ω) w [] w' emitted)
include h

theorem AllVisited.aside_of_none {key : Bytes}
    (hnone : w.series.lookup key = none) : w'.series.lookup key = none ∧
      w'.snapshotCache.outbound.lookup key = w.snapshotCache.outbound.lookup key := by
  rw [← hnone]
  refine h.aside key fun hmem => ?_
  obtain ⟨⟨k, e⟩, hke, rfl⟩ := List.mem_map.mp hmem
  rw [mem_range.mp hke] at hnone
  cases hnone

theorem AllVisited.keyed (hk : Keyed cfg w.series) :
    Keyed cfg w'.series := by
  intro key entry he
  cases hl : w.series.lookup key with
  | none =>
    rw [(h.aside_of_none hl).1] at he
    cases he
  | some old =>
    have hlive := (h.visited key old (mem_range.mpr hl)).1
    rw [he] at hlive
    obtain ⟨hkey, hlabels⟩ := hk key old hl
    obtain ⟨hf₁, hf₂, hf₃, -⟩ := @visited_frame σ F cfg (w.snapshotCache.outbound.lookup key) old
    rw [some.inj hlive, hf₁, hf₂, hf₃]
    exact ⟨hkey, hlabels⟩

theorem AllVisited.filter_log (hk : Keyed cfg w.series) (key : Bytes) :
    ((w'.log ++ (emitted.map (stamped w')).map fun e => Event.emitted cfg e.1 e.2).filter fun ev => ev.key = key) =
      (w.log.filter fun ev => ev.key = key) ++ (((w.series.lookup key).bind fun entry =>
        emission F cfg w.snapshotCache (key, entry)).map fun e => Event.emitted cfg e.1 (stamped w' e).2).toList := by
  have hown : (emitted.filter fun e => e.1.seriesKey = key) =
      ((w.series.range ω).filter fun e => e.1 = key).filterMap (emission F cfg w.snapshotCache) := by
    rw [h.emitted, nil_append, filter_filterMap, filterMap_filter]
    refine filterMap_congr fun e he => ?_
    have hkey := (hk e.1 e.2 (mem_range.mp he)).1
    unfold emission
    cases (Precompute.visited F cfg (w.snapshotCache.outbound.lookup e.1) e.2).2.2 with
    | none => simp
    | some payload => simp [filter_some, hkey]
  have hfilter : ((emitted.map (stamped w')).map fun e => Event.emitted cfg e.1 e.2).filter (fun ev => ev.key = key) =
      (emitted.filter fun e => e.1.seriesKey = key).map fun e => Event.emitted cfg e.1 (stamped w' e).2 := by
    rw [List.map_map, List.filter_map]
    rfl
  rw [filter_append, h.log, hfilter, hown, filter_range]
  cases w.series.lookup key with
  | none => rfl
  | some entry => cases hsome : emission F cfg w.snapshotCache (key, entry) <;> simp [hsome]

end

theorem AllVisited.lanes (h : AllVisited F cfg (p.window.series.range ω) p.window [] w emitted)
    (hdelta : cfg.deltaTransmission = true) (hk : Keyed cfg p.window.series)
    (hend : p.window.activeEndMs = p.window.activeStartMs + cfg.windowSizeMs)
    (hguard : ∀ key entry, p.window.series.lookup key = some entry →
      G.emit (p.window.snapshotCache.outbound.lookup key) entry)
    (stats : PrecomputeStats) (accepted : List Acceptance) (key : Bytes) :
    Relation.ReflTransGen (Lane.Step F cfg G key) (laneOf p accepted key)
      (laneOf (afterSubWindow cfg p w emitted stats) accepted key) := by
  have hlog : (laneOf (afterSubWindow cfg p w emitted stats) accepted key).log = _ := h.filter_log hk key
  cases hl : p.window.series.lookup key with
  | none =>
    obtain ⟨hlive, hbase⟩ := h.aside_of_none hl
    rw [hl, bind_none, map_none, toList_none, append_nil] at hlog
    have hlane : laneOf (afterSubWindow cfg p w emitted stats) accepted key = laneOf p accepted key := by
      unfold laneOf afterSubWindow at *
      dsimp only at hlog ⊢
      rw [hlive, hl, hbase, h.bounds.1, hlog]
    rw [hlane]
  | some entry =>
    obtain ⟨hlive, hbase⟩ := h.visited key entry (mem_range.mpr hl)
    refine Lane.visited_steps hl (hguard key entry hl) hdelta hlive hbase h.bounds.1 rfl ?_
    rw [hlog, hl, bind_some, emission, Option.map_map]
    simp only [stamped, h.bounds.1, h.bounds.2.1, hend]
    rfl

end

theorem Ready.emitSubWindow_visited (ht : Tumbling cfg) (hr : Ready cfg p) (hdelta : cfg.deltaTransmission = true)
    (hi : p.window.initialized = true) (nowMs : Nat) (ω : RangeOrders σ) :
    ∃ w emitted stats, AllVisited F cfg (p.window.series.range ω.series) p.window [] w emitted ∧
      emitSubWindow F p nowMs ω = (afterSubWindow cfg p w emitted stats, (emitted.map (stamped w)).map Prod.snd) := by
  have hvisit := @visitAll σ F cfg (p.window.series.range ω.series) p.window []
    (fun key entry he => hr.keyed key entry (mem_range.mp he)) (nodup_keys_range _ _)
  generalize hloop : (p.window.series.range ω.series).foldl (visitEntry F cfg) (p.window, []) = turn at hvisit
  obtain ⟨w, emitted⟩ := turn
  have hsize := ht.size
  have hend := (hr.aligned hi).2
  have hb := hvisit.bounds.2.1
  dsimp only at hb
  obtain ⟨stats, heq⟩ := emitSubWindow_eq hr.config hdelta hi ht.notSliding nowMs ω hloop (by omega)
  exact ⟨w, emitted, stats, hvisit, heq⟩

theorem Ready.emitSubWindow_live (ht : Tumbling cfg) (hr : Ready cfg p) (hdelta : cfg.deltaTransmission = true)
    {nowMs : Nat} {ω : RangeOrders σ} {key : Bytes} {entry' : SeriesEntry σ}
    (hlive : (Precompute.emitSubWindow F p nowMs ω).1.window.series.lookup key = some entry') :
    ∃ entry, p.window.series.lookup key = some entry ∧
      entry' = (visited F cfg (p.window.snapshotCache.outbound.lookup key) entry).2.1 := by
  cases hi : p.window.initialized with
  | false =>
    rw [emitSubWindow_idle hr.config (Or.inr hi), (hr.blank hi).1] at hlive
    cases hlive
  | true =>
    obtain ⟨w, emitted, stats, hvisit, heq⟩ := hr.emitSubWindow_visited (F := F) ht hdelta hi nowMs ω
    rw [heq] at hlive
    replace hlive : w.series.lookup key = some entry' := hlive
    cases hl : p.window.series.lookup key with
    | none =>
      rw [(hvisit.aside_of_none hl).1] at hlive
      cases hlive
    | some entry =>
      rw [(hvisit.visited key entry (mem_range.mpr hl)).1] at hlive
      exact ⟨entry, rfl, (some.inj hlive).symm⟩

theorem Ready.emitSubWindow (ht : Tumbling cfg) {h : History σ} (hr : Ready cfg h.p) {nowMs : Nat} {ω : RangeOrders σ}
    (hmet : G.Met h.p (.emitSubWindow nowMs ω)) : Advances F cfg G h (h.step F (.emitSubWindow nowMs ω)) := by
  by_cases hidle : cfg.deltaTransmission = false ∨ h.p.window.initialized = false
  · dsimp only [History.step]
    rw [emitSubWindow_idle hr.config hidle, append_nil]
    exact Advances.refl hr
  rw [not_or, Bool.not_eq_false, Bool.not_eq_false] at hidle
  obtain ⟨hdelta, hi⟩ := hidle
  obtain ⟨hdvd, hend⟩ := hr.aligned hi
  obtain ⟨w, emitted, stats, hvisit, heq⟩ := hr.emitSubWindow_visited (F := F) ht hdelta hi nowMs ω
  obtain ⟨hb₁, hb₂, hb₃⟩ := hvisit.bounds
  dsimp only [History.step]
  rw [heq]
  refine ⟨⟨hr.config, hr.pending, hr.isOpen, fun _ => ?_, fun hno => ?_, hvisit.keyed hr.keyed⟩,
    hvisit.lanes hdelta hr.keyed hend (fun key entry he => (hmet key entry he).2 rfl) stats h.accepted, ?_,
      fun _ => hb₃.trans hi, hb₁.ge,
    ⟨[], (append_nil _).symm, fun _ h => nomatch h⟩⟩
  · show cfg.windowSizeMs ∣ w.activeStartMs ∧ w.activeEndMs = w.activeStartMs + cfg.windowSizeMs
    rw [hb₁, hb₂]
    exact ⟨hdvd, hend⟩
  · rw [show w.initialized = false from hno, hi] at hb₃
    cases hb₃
  · refine ⟨(emitted.map (stamped w)).map fun e => Event.emitted cfg e.1 e.2, ?_, ?_⟩
    · show w.log ++ _ = _
      rw [hvisit.log]
    · have hout : ((emitted.map (stamped w)).map fun e => Event.emitted cfg e.1 e.2).filterMap Event.envelope? =
          (emitted.map (stamped w)).map Prod.snd := by
        rw [filterMap_map]
        exact congrFun filterMap_eq_map _
      rw [hout]
      rw [append_assoc, append_assoc]
      exact perm_append_comm.append_left _

end AsapCollector.Precompute
