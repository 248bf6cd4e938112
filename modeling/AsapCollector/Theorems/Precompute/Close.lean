import AsapCollector.Theorems.Precompute.Cache

/-! `finishRotate` leaves the window alone, and of the cache and the log it changes for each series what that series'
own entry decides. -/

namespace AsapCollector.Precompute

open SnapshotCache List Option WindowState

variable {σ : Type} {F : SketchImpl σ} {cfg : PrecomputeConfig} {startMs endMs : Nat}

/-- The window itself is the same: only the cache, the counters and the log may differ. -/
structure SameWindow (w w' : WindowState σ) : Prop where
  series : w'.series = w.series
  activeStartMs : w'.activeStartMs = w.activeStartMs
  activeEndMs : w'.activeEndMs = w.activeEndMs
  initialized : w'.initialized = w.initialized
  panes : w'.panes = w.panes

theorem SameWindow.refl (w : WindowState σ) : SameWindow w w := ⟨rfl, rfl, rfl, rfl, rfl⟩

variable {w w' w'' : WindowState σ}

theorem SameWindow.trans (h : SameWindow w w') (h' : SameWindow w' w'') :
    SameWindow w w'' :=
  ⟨h'.series.trans h.series, h'.activeStartMs.trans h.activeStartMs, h'.activeEndMs.trans h.activeEndMs,
    h'.initialized.trans h.initialized, h'.panes.trans h.panes⟩

variable (generation : Option UInt64) (cache : SnapshotCache) (key : Bytes)

def touched : SnapshotCache :=
  (generation.map (cache.touch key)).getD cache

theorem elsewhere_touched : Elsewhere key cache (touched generation cache key) := by
  cases generation with
  | none => exact Elsewhere.refl _ _
  | some g => exact elsewhere_touch _ _ _

theorem outbound_touched : (touched generation cache key).outbound = cache.outbound := by
  cases generation with
  | none => rfl
  | some g => exact outbound_touch _ _ _

theorem seen_touched :
    (touched (some cache.generation) cache key).seen.get 0 key =
      (touched (some cache.generation) cache key).generation := by
  rw [(elsewhere_touched _ _ _).generation]
  exact seen_touch _ _

def OwnKey (cfg : PrecomputeConfig) (entry : SeriesEntry σ) : Prop := entry.cacheKey cfg = entry.seriesKey

/-- What closing an entry writes, by the base that the cache holds for it. -/
def closingEvents (F : SketchImpl σ) (cfg : PrecomputeConfig) (startMs endMs : Nat) (cache : SnapshotCache)
    (entry : SeriesEntry σ) : List (Event σ) :=
  Lane.boundaryEvents F cfg entry startMs endMs
    (boundaryDelta F cfg (cache.outbound.lookup entry.seriesKey) entry.sketch).2

def closingEnvelope (F : SketchImpl σ) (cfg : PrecomputeConfig) (startMs endMs : Nat) (cache : SnapshotCache)
    (entry : SeriesEntry σ) : Option SketchEnvelope :=
  (boundaryDelta F cfg (cache.outbound.lookup entry.seriesKey) entry.sketch).2.map
    (boundaryEnvelope F cfg entry startMs endMs)

structure Finished (F : SketchImpl σ) (cfg : PrecomputeConfig) (startMs endMs : Nat) (generation : Option UInt64)
    (entry : SeriesEntry σ) (w : WindowState σ) (envs : List SketchEnvelope)
    (w' : WindowState σ) (envs' : List SketchEnvelope) : Prop where
  log : w'.log = w.log ++ closingEvents F cfg startMs endMs w.snapshotCache entry
  envs : envs' = envs ++ (closingEnvelope F cfg startMs endMs w.snapshotCache entry).toList
  base : w'.snapshotCache.outbound.lookup entry.seriesKey =
    (boundaryDelta F cfg (w.snapshotCache.outbound.lookup entry.seriesKey) entry.sketch).1
  elsewhere : Elsewhere entry.seriesKey w.snapshotCache w'.snapshotCache
  seen : generation = some w.snapshotCache.generation →
    w'.snapshotCache.seen.get 0 entry.seriesKey = w'.snapshotCache.generation

theorem finishEntry_finished (generation : Option UInt64) (w : WindowState σ) (envs : List SketchEnvelope)
    {entry : SeriesEntry σ} (hown : OwnKey cfg entry) :
    Finished F cfg startMs endMs generation entry w envs
      (finishEntry F cfg startMs endMs generation (w, envs) entry).1
      (finishEntry F cfg startMs endMs generation (w, envs) entry).2 := by
  obtain ⟨henv, r, hcomp⟩ := @serializeSeries_spec σ F cfg _ (touched generation w.snapshotCache entry.seriesKey)
    entry hown startMs endMs
  rw [outbound_touched] at henv hcomp
  have helse := (elsewhere_touched generation w.snapshotCache entry.seriesKey).trans hcomp.elsewhere
  have hseen : generation = some w.snapshotCache.generation → _ := fun h =>
    hcomp.seen (by rw [h]; exact seen_touched _ _)
  have hbase := hcomp.base
  unfold finishEntry touched at *
  cases hd : (boundaryDelta F cfg (w.snapshotCache.outbound.lookup entry.seriesKey) entry.sketch).2 with
  | none =>
    rw [hd, map_none] at henv
    dsimp only
    split <;> rename_i h <;> rw [h] at henv helse hseen hbase
    · cases henv
    · exact ⟨by rw [closingEvents, hd]; rfl, by rw [closingEnvelope, hd]; exact (append_nil _).symm, hbase, helse,
        hseen⟩
  | some payload =>
    rw [hd, map_some] at henv
    dsimp only
    split <;> rename_i h <;> rw [h] at henv helse hseen hbase
    · cases henv
      exact ⟨by rw [closingEvents, hd]; rfl, by rw [closingEnvelope, hd]; rfl, hbase, helse, hseen⟩
    · cases henv

structure AllFinished (F : SketchImpl σ) (cfg : PrecomputeConfig) (startMs endMs : Nat) (generation : Option UInt64)
    (entries : List (SeriesEntry σ)) (w : WindowState σ) (envs : List SketchEnvelope)
    (w' : WindowState σ) (envs' : List SketchEnvelope) : Prop where
  log : w'.log = w.log ++ entries.flatMap (closingEvents F cfg startMs endMs w.snapshotCache)
  envs : envs' = envs ++ entries.filterMap (closingEnvelope F cfg startMs endMs w.snapshotCache)
  sameGeneration : w'.snapshotCache.generation = w.snapshotCache.generation
  passed : ∀ key, key ∉ entries.map SeriesEntry.seriesKey →
    w'.snapshotCache.outbound.lookup key = w.snapshotCache.outbound.lookup key ∧
      w'.snapshotCache.seen.get 0 key = w.snapshotCache.seen.get 0 key
  base : ∀ entry ∈ entries, w'.snapshotCache.outbound.lookup entry.seriesKey =
    (boundaryDelta F cfg (w.snapshotCache.outbound.lookup entry.seriesKey) entry.sketch).1
  seen : generation = some w.snapshotCache.generation → ∀ entry ∈ entries,
    w'.snapshotCache.seen.get 0 entry.seriesKey = w'.snapshotCache.generation

theorem finishAll (generation : Option UInt64) :
    ∀ (entries : List (SeriesEntry σ)) (w : WindowState σ) (envs : List SketchEnvelope),
      (∀ entry ∈ entries, OwnKey cfg entry) → (entries.map SeriesEntry.seriesKey).Nodup →
      AllFinished F cfg startMs endMs generation entries w envs
        (entries.foldl (finishEntry F cfg startMs endMs generation) (w, envs)).1
        (entries.foldl (finishEntry F cfg startMs endMs generation) (w, envs)).2
  | [], w, envs, _, _ =>
    ⟨(append_nil _).symm, (append_nil _).symm, rfl, fun _ _ => ⟨rfl, rfl⟩, nofun, nofun⟩
  | entry :: entries, w, envs, hown, hnodup => by
    rw [map_cons, nodup_cons] at hnodup
    have h := @finishEntry_finished σ F cfg startMs endMs generation w envs entry (hown entry mem_cons_self)
    rw [foldl_cons]
    generalize finishEntry F cfg startMs endMs generation (w, envs) entry = done at h ⊢
    obtain ⟨w₁, envs₁⟩ := done
    dsimp only at h
    have ih := finishAll generation entries w₁ envs₁ (fun e he => hown e (mem_cons_of_mem _ he)) hnodup.2
    -- the other entries find the bases that were there before
    have hsame : ∀ e ∈ entries, w₁.snapshotCache.outbound.lookup e.seriesKey =
        w.snapshotCache.outbound.lookup e.seriesKey :=
      fun e he => h.elsewhere.outbound _ fun heq => hnodup.1 (heq ▸ List.mem_map_of_mem he)
    refine ⟨?_, ?_, ih.sameGeneration.trans h.elsewhere.generation, fun key hkey => ?_, fun e he => ?_,
      fun hg e he => ?_⟩
    · rw [ih.log, h.log, append_assoc, flatMap_cons, flatMap_congr fun e he => ?_]
      rw [closingEvents, hsame e he, closingEvents]
    · rw [ih.envs, h.envs, append_assoc, filterMap_cons, filterMap_congr fun e he => ?_]
      · cases closingEnvelope F cfg startMs endMs w.snapshotCache entry <;> rfl
      · rw [closingEnvelope, hsame e he, closingEnvelope]
    · rw [map_cons, mem_cons, not_or] at hkey
      obtain ⟨hbase, hseen⟩ := ih.passed key hkey.2
      exact ⟨hbase.trans (h.elsewhere.outbound key hkey.1), hseen.trans (h.elsewhere.seen key hkey.1)⟩
    · rcases mem_cons.mp he with rfl | he
      · rw [(ih.passed _ hnodup.1).1, h.base]
      · rw [ih.base e he, hsame e he]
    · rcases mem_cons.mp he with rfl | he
      · rw [(ih.passed _ hnodup.1).2, h.seen hg, ih.sameGeneration]
      · exact ih.seen (by rw [hg, h.elsewhere.generation]) e he

structure RotationFinished (F : SketchImpl σ) (cfg : PrecomputeConfig) (r : Rotation σ) (w : WindowState σ)
    (w' : WindowState σ) (envs : List SketchEnvelope) : Prop where
  log : w'.log = w.log ++ r.entries.flatMap (closingEvents F cfg r.startMs r.endMs w.snapshotCache)
  envs : envs = r.entries.filterMap (closingEnvelope F cfg r.startMs r.endMs w.snapshotCache)
  base : ∀ entry ∈ r.entries, w'.snapshotCache.outbound.lookup entry.seriesKey =
    (boundaryDelta F cfg (w.snapshotCache.outbound.lookup entry.seriesKey) entry.sketch).1
  kept : ∀ key, key ∉ r.entries.map SeriesEntry.seriesKey →
    w'.snapshotCache.outbound.lookup key = w.snapshotCache.outbound.lookup key ∨
      w'.snapshotCache.outbound.lookup key = none

theorem beginRotation_outbound : (beginRotation cache cfg).1.outbound = cache.outbound := by
  unfold beginRotation
  split <;> rfl

theorem beginRotation_generation {cache : SnapshotCache} {g : UInt64} (h : (beginRotation cache cfg).2 = some g) :
    g = (beginRotation cache cfg).1.generation := by
  unfold beginRotation at h ⊢
  split at h
  · rename_i hd
    rw [if_pos hd]
    dsimp only at h ⊢
    split at h
    · cases h
    · exact (some.inj h).symm
  · cases h

theorem finishRotate_finished (w : WindowState σ) (r : Rotation σ) (nowMs : Nat)
    (hown : ∀ entry ∈ r.entries, OwnKey cfg entry) (hnodup : (r.entries.map SeriesEntry.seriesKey).Nodup) :
    RotationFinished F cfg r w (finishRotate F w r cfg nowMs).1 (finishRotate F w r cfg nowMs).2 := by
  unfold finishRotate
  split
  · rename_i hempty
    rw [List.isEmpty_iff] at hempty
    refine ⟨?_, ?_, ?_, fun _ _ => Or.inl rfl⟩ <;> rw [hempty]
    · exact (append_nil _).symm
    · rfl
    · exact nofun
  · dsimp only
    have hout := @beginRotation_outbound cfg w.snapshotCache
    have hgen := @beginRotation_generation cfg w.snapshotCache
    generalize beginRotation w.snapshotCache cfg = begun at hout hgen ⊢
    obtain ⟨cache, generation⟩ := begun
    have h := @finishAll σ F cfg r.startMs r.endMs generation r.entries { w with snapshotCache := cache } [] hown hnodup
    generalize r.entries.foldl (finishEntry F cfg r.startMs r.endMs generation)
      ({ w with snapshotCache := cache }, []) = done at h ⊢
    obtain ⟨w₁, envs⟩ := done
    obtain ⟨hlog, henvs, hsame, hpassed, hbase, hseen⟩ := h
    unfold closingEvents at hlog
    unfold closingEnvelope at henvs
    rw [hout] at hlog henvs hpassed hbase
    refine ⟨hlog, henvs, fun entry he => (?_ : _ = _).trans (hbase entry he), fun key hkey => ?_⟩
    -- the end of the generation keeps what the loop has seen and may drop the rest
    · cases generation with
      | none => rfl
      | some g =>
        have hg : g = cache.generation := hgen rfl
        have hw : w₁.snapshotCache.generation = g := hsame.trans hg.symm
        exact outbound_endGeneration_of_seen _ hw ((hseen (by rw [hg]) entry he).trans hw)
    · rw [← (hpassed key hkey).1]
      cases generation with
      | none => exact Or.inl rfl
      | some g => exact outbound_endGeneration _ _ _

theorem RotationFinished.mem_envs {r : Rotation σ} {envs : List SketchEnvelope}
    (h : RotationFinished F cfg r w w' envs) {env : SketchEnvelope} :
    env ∈ envs ↔ ∃ entry ∈ r.entries, ∃ payload,
      (boundaryDelta F cfg (w.snapshotCache.outbound.lookup entry.seriesKey) entry.sketch).2 = some payload ∧
        env = boundaryEnvelope F cfg entry r.startMs r.endMs payload := by
  rw [h.envs, mem_filterMap]
  simp only [closingEnvelope, map_eq_some_iff, @eq_comm _ env]

theorem key_of_mem_closingEvents {cache : SnapshotCache} {entry : SeriesEntry σ} {ev : Event σ}
    (h : ev ∈ closingEvents F cfg startMs endMs cache entry) : ev.key = entry.seriesKey := by
  rcases mem_cons.mp h with rfl | h
  · rfl
  · obtain ⟨env, -, rfl⟩ := map_eq_some_iff.mp (mem_toList.mp h)
    rfl

theorem filter_closingEvents (entries : List (SeriesEntry σ)) :
    (entries.flatMap (closingEvents F cfg startMs endMs cache)).filter (fun ev => ev.key = key) =
      (entries.filter fun e => e.seriesKey = key).flatMap (closingEvents F cfg startMs endMs cache) := by
  induction entries with
  | nil => rfl
  | cons e entries ih =>
    rw [flatMap_cons, filter_append, ih]
    by_cases hk : e.seriesKey = key
    · rw [filter_cons_of_pos (by simpa using hk), flatMap_cons,
        filter_eq_self.mpr fun ev hev => decide_eq_true ((key_of_mem_closingEvents hev).trans hk)]
    · rw [filter_cons_of_neg (by simpa using hk), filter_eq_nil_iff.mpr, nil_append]
      exact fun ev hev hno => hk ((key_of_mem_closingEvents hev).symm.trans (of_decide_eq_true hno))

inductive Serialized (F : SketchImpl σ) (cfg : PrecomputeConfig) (startMs endMs : Nat) (entry : SeriesEntry σ) :
    Event σ → Prop
  | closed : Serialized F cfg startMs endMs entry (.closed entry startMs endMs)
  | emitted (payload : Bytes × Bool) (hdelta : payload.2 = false → cfg.deltaTransmission = true) :
      Serialized F cfg startMs endMs entry (.emitted cfg entry (boundaryEnvelope F cfg entry startMs endMs payload))

/-- An entry adds its events to the log and its envelopes to the output. -/
structure Writes (w : WindowState σ) (envs : List SketchEnvelope) (w' : WindowState σ) (envs' : List SketchEnvelope)
    (Q : Event σ → Prop) : Prop where
  same : SameWindow w w'
  events : ∃ evs, w'.log = w.log ++ evs ∧ envs' = envs ++ evs.filterMap Event.envelope? ∧ ∀ ev ∈ evs, Q ev

theorem serializeSeries_emitted {cache cache' : SnapshotCache} {entry : SeriesEntry σ}
    {env : SketchEnvelope} (h : serializeSeries F cache entry cfg startMs endMs = (cache', some env)) :
    Serialized F cfg startMs endMs entry (.emitted cfg entry env) := by
  unfold serializeSeries at h
  split at h
  · rename_i c payload isFull hpay
    cases h
    refine .emitted (payload, isFull) fun hfull => ?_
    unfold boundaryPayload at hpay
    by_contra hoff
    rw [if_neg hoff] at hpay
    split at hpay <;> cases hpay
    cases hfull
  · cases h

theorem finishEntry_writes (startMs endMs : Nat) (generation : Option UInt64) (w : WindowState σ)
    (envs : List SketchEnvelope) (entry : SeriesEntry σ) :
    Writes w envs (finishEntry F cfg startMs endMs generation (w, envs) entry).1
      (finishEntry F cfg startMs endMs generation (w, envs) entry).2 (Serialized F cfg startMs endMs entry) := by
  unfold finishEntry
  dsimp only
  split
  · rename_i cache env hser
    refine ⟨⟨rfl, rfl, rfl, rfl, rfl⟩, _, rfl, rfl, fun ev hev => ?_⟩
    rcases mem_cons.mp hev with rfl | hev
    · exact .closed
    · cases mem_singleton.mp hev
      exact serializeSeries_emitted hser
  · refine ⟨⟨rfl, rfl, rfl, rfl, rfl⟩, _, rfl, (append_nil _).symm, fun ev hev => ?_⟩
    cases mem_singleton.mp hev
    exact .closed

theorem finishEntries_writes (startMs endMs : Nat) (generation : Option UInt64) :
    ∀ (entries : List (SeriesEntry σ)) (w : WindowState σ) (envs : List SketchEnvelope),
      Writes w envs (entries.foldl (finishEntry F cfg startMs endMs generation) (w, envs)).1
        (entries.foldl (finishEntry F cfg startMs endMs generation) (w, envs)).2
        fun ev => ∃ entry ∈ entries, Serialized F cfg startMs endMs entry ev
  | [], w, envs => ⟨.refl w, [], (append_nil _).symm, (append_nil _).symm, (fun _ h => nomatch h)⟩
  | entry :: entries, w, envs => by
    obtain ⟨hsame, evs, hlog, henvs, hevs⟩ := @finishEntry_writes σ F cfg startMs endMs generation w envs entry
    rw [foldl_cons]
    generalize finishEntry F cfg startMs endMs generation (w, envs) entry = turn at hsame hlog henvs ⊢
    obtain ⟨w₁, envs₁⟩ := turn
    dsimp only at hsame hlog henvs
    obtain ⟨hsame', evs', hlog', henvs', hevs'⟩ := finishEntries_writes startMs endMs generation entries w₁ envs₁
    refine ⟨hsame.trans hsame', evs ++ evs', ?_, ?_, fun ev hev => ?_⟩
    · rw [hlog', hlog, append_assoc]
    · rw [henvs', henvs, filterMap_append, append_assoc]
    · rcases mem_append.mp hev with hev | hev
      · exact ⟨entry, mem_cons_self, hevs ev hev⟩
      · obtain ⟨e, he, hs⟩ := hevs' ev hev
        exact ⟨e, mem_cons_of_mem _ he, hs⟩

theorem finishRotate_writes (w : WindowState σ) (r : Rotation σ) (nowMs : Nat) :
    Writes w [] (finishRotate F w r cfg nowMs).1 (finishRotate F w r cfg nowMs).2
      fun ev => ∃ entry ∈ r.entries, Serialized F cfg r.startMs r.endMs entry ev := by
  unfold finishRotate
  split
  · exact ⟨.refl w, [], (append_nil _).symm, rfl, (fun _ h => nomatch h)⟩
  · generalize beginRotation w.snapshotCache cfg = started
    obtain ⟨cache, generation⟩ := started
    obtain ⟨hsame, hevents⟩ := @finishEntries_writes σ F cfg r.startMs r.endMs generation r.entries
      { w with snapshotCache := cache } []
    exact ⟨⟨hsame.series, hsame.activeStartMs, hsame.activeEndMs, hsame.initialized, hsame.panes⟩, hevents⟩

theorem mem_finishRotate {w : WindowState σ} {r : Rotation σ} {at_ : Nat} {env : SketchEnvelope}
    (henv : env ∈ (finishRotate F w r cfg at_).2) :
    ∃ entry ∈ r.entries, Serialized F cfg r.startMs r.endMs entry (.emitted cfg entry env) := by
  obtain ⟨-, evs, -, henvs, hevs⟩ := @finishRotate_writes σ F cfg w r at_
  rw [henvs, nil_append] at henv
  obtain ⟨ev, hev, heq⟩ := mem_filterMap.mp henv
  obtain ⟨entry, hentry, hser⟩ := hevs ev hev
  cases hser with
  | closed => cases heq
  | emitted payload hdelta =>
    cases heq
    exact ⟨entry, hentry, .emitted payload hdelta⟩

end AsapCollector.Precompute
