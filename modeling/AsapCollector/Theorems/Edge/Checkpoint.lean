import AsapCollector.Sketches.Sum
import AsapCollector.Theorems.Edge.Identity

/-! The aggregator resets its delta bases on a clock of its own. As long as nothing is closed between two flushes, each
base that a delta is computed against belongs to a lineage with a whole frame since the last reset, and the sequencer
takes what the runtime emits. -/

namespace AsapCollector

open List GoMap Sketches

namespace FrameSequencer

/-! ### What the sequencer accepts -/

structure DeltaRule (plan : CollectorPlan) (rule : TransmissionRule) (epoch : Bytes) (cadence : UInt64) : Prop where
  producer : rule.producerID = plan.collectorID
  member : plan.transmissionRules.any (fun candidate => candidate.deepEqual rule) = true
  epoch : epoch ≠ []
  mode : rule.mode = .delta
  cadence : rule.fullCheckpointEveryMS = some cadence

/-- A lineage has frames, and its last whole one is not older than `since`. -/
def Anchored (s : FrameSequencer) (since : UInt64) (key : FrameLineageKey) : Prop :=
  (s.state key).sequence ≠ 0 ∧ since ≤ (s.state key).checkpointAtMS

variable {plan : CollectorPlan} {rule : TransmissionRule} {epoch : Bytes} {cadence : UInt64} {s : FrameSequencer}

theorem Anchored.fullRequired (hrule : DeltaRule plan rule epoch cadence) {since now : UInt64}
    {key : FrameLineageKey} (h : s.Anchored since key) (hnow : now.toNat < since.toNat + cadence.toNat) :
    fullRequired rule (s.state key) now = false := by
  have hfirst : (s.state key).sequence + 1 ≠ 1 := fun heq => h.1 (by simpa using heq)
  have hdue : checkpointDue rule (s.state key) now = false := by
    unfold checkpointDue
    rw [hrule.cadence]
    have hsince := UInt64.le_iff_toNat_le.mp h.2
    by_cases hle : (s.state key).checkpointAtMS ≤ now
    · have hsub := UInt64.toNat_sub_of_le _ _ hle
      have hle := UInt64.le_iff_toNat_le.mp hle
      have hlt : ¬cadence ≤ now - (s.state key).checkpointAtMS := by
        rw [UInt64.le_iff_toNat_le, hsub]
        omega
      simp [hlt]
    · simp [hle]
  simp [FrameSequencer.fullRequired, hfirst, hrule.mode, hdue]

structure Acceptable (s : FrameSequencer) (plan : CollectorPlan) (rule : TransmissionRule) (epoch : Bytes)
    (cadence since now : UInt64) (e : FrameEmission) : Prop where
  series : e.seriesIdentity ≠ []
  window : e.windowStartUnixNano < e.windowEndUnixNano
  clock : e.nowUnixMS = now
  anchored : e.emittedFull = false → s.Anchored since (lineageKey plan rule epoch e.seriesIdentity) ∧
    now.toNat < since.toNat + cadence.toNat

structure Advanced (s : FrameSequencer) (since : UInt64) (n : Nat) (t : FrameSequencer) : Prop where
  bounded : ∀ key, (t.state key).sequence.toNat ≤ n
  kept : ∀ key, s.Anchored since key → t.Anchored since key

section
variable {since now : UInt64} (hrule : DeltaRule plan rule epoch cadence) (hsince : since ≤ now)
include hrule hsince

theorem Acceptable.next {n : Nat} {e : FrameEmission} (h : s.Acceptable plan rule epoch cadence since now e)
    (hbound : ∀ key, (s.state key).sequence.toNat ≤ n) (hn : n + 1 < 2 ^ 64) :
    ∃ t f, s.nextForEmission plan rule epoch e = .ok (t, f) ∧ Advanced s since (n + 1) t ∧
      (e.emittedFull = true → t.Anchored since (lineageKey plan rule epoch e.seriesIdentity)) := by
  refine ⟨_, _, next_eq_ok.mpr ⟨hrule.epoch, h.series, h.window, hrule.producer, hrule.member,
    fun hrequired hpart => ?_, rfl⟩, ?_⟩
  · obtain ⟨hanch, hnow⟩ := h.anchored (Option.some.inj hpart)
    rw [h.clock, hanch.fullRequired hrule hnow] at hrequired
    cases hrequired
  simp only [h.clock, Option.getD_some]
  generalize e.emittedFull = full, lineageKey plan rule epoch e.seriesIdentity = own
  obtain ⟨st, hst⟩ : ∃ st, st = advance (s.state own) rule.producerID epoch e.windowStartUnixNano now full := ⟨_, rfl⟩
  have hstate : state ⟨s.lineages.insert own st⟩ own = st := get_insert_self _ _ _ _
  have hothers : ∀ key, key ≠ own → state ⟨s.lineages.insert own st⟩ key = s.state key :=
    fun _ hkey => get_insert_of_ne hkey
  rw [← hst]
  generalize (⟨s.lineages.insert own st⟩ : FrameSequencer) = t at hstate hothers ⊢
  rw [hst] at hstate
  have hseq : (t.state own).sequence = (s.state own).sequence + 1 := by
    rw [hstate]
    cases full <;> rfl
  have hnat : (t.state own).sequence.toNat = (s.state own).sequence.toNat + 1 := by
    have hb := hbound own
    rw [hseq, UInt64.toNat_add]
    exact Nat.mod_eq_of_lt (by simpa using Nat.lt_of_le_of_lt (Nat.add_le_add_right hb 1) hn)
  have hpos : (t.state own).sequence ≠ 0 := fun hzero => by
    rw [hzero] at hnat
    simp at hnat
  refine ⟨⟨fun key => ?_, fun key hkey => ?_⟩, fun hfull => ⟨hpos, ?_⟩⟩
  · by_cases hk : key = own
    · subst hk
      have hb := hbound key
      omega
    · rw [hothers key hk]
      exact Nat.le_succ_of_le (hbound key)
  · by_cases hk : key = own
    · subst hk
      refine ⟨hpos, ?_⟩
      rw [hstate]
      cases full with
      | true => exact hsince
      | false => exact hkey.2
    · unfold Anchored
      rw [hothers key hk]
      exact hkey
  · rw [hstate, hfull]
    exact hsince

theorem nextBatch_accepts :
    ∀ {es : List FrameEmission} {s : FrameSequencer} {n : Nat}, (∀ key, (s.state key).sequence.toNat ≤ n) →
      n + es.length < 2 ^ 64 → (∀ e ∈ es, s.Acceptable plan rule epoch cadence since now e) →
      ∃ t fs, s.nextBatchForEmission plan rule epoch es = .ok (t, fs) ∧ fs.length = es.length ∧
        Advanced s since (n + es.length) t ∧
        ∀ e ∈ es, e.emittedFull = true → t.Anchored since (lineageKey plan rule epoch e.seriesIdentity)
  | [], s, n, hbound, _, _ => ⟨s, [], rfl, rfl, ⟨hbound, fun _ h => h⟩, nofun⟩
  | e :: es, s, n, hbound, hlen, hes => by
    rw [length_cons] at hlen
    obtain ⟨u, f, hnext, hadv, hown⟩ := (hes e mem_cons_self).next hrule hsince hbound (by omega)
    obtain ⟨t, fs, hrest, hfs, hadv', hfull⟩ := nextBatch_accepts hadv.bounded (by omega)
      fun e' (he' : e' ∈ es) =>
      have h := hes e' (mem_cons_of_mem _ he')
      ⟨h.series, h.window, h.clock, fun hd => ⟨hadv.kept _ (h.anchored hd).1, (h.anchored hd).2⟩⟩
    refine ⟨t, f :: fs, ?_, by rw [length_cons, length_cons, hfs], ⟨fun key => ?_, fun key hkey => ?_⟩, ?_⟩
    · simp only [nextBatchForEmission, hnext, hrest, bind, Except.bind, pure, Except.pure]
    · have h := hadv'.bounded key
      rw [length_cons]
      omega
    · exact hadv'.kept key (hadv.kept key hkey)
    · intro e' he' hwhole
      rcases mem_cons.mp he' with rfl | he'
      · exact hadv'.kept _ (hown hwhole)
      · exact hfull e' he' hwhole

end

end FrameSequencer

namespace Precompute

open Edge WindowState

variable {σ : Type} {F : SketchImpl σ} {cfg : PrecomputeConfig}

/-! ### Deltas have bases -/

/-- Without a base a frame is whole, and a base is left only with what the sketch serializes to. -/
def Fresh (F : SketchImpl σ) (cfg : PrecomputeConfig) (sketch : σ) (r : Option Bytes × Option (Bytes × Bool)) : Prop :=
  r = (none, none) ∨ ∃ base payload, F.snapshot (applyGosMode F sketch cfg) = .ok payload ∧
    r = (some base, payload.map fun payload => (payload, true))

variable {sketch : σ} {r : Option Bytes × Option (Bytes × Bool)}

theorem Fresh.not_delta (h : Fresh F cfg sketch r) (payload : Bytes) :
    r.2 ≠ some (payload, false) := by
  rcases h with rfl | ⟨base, _ | full, -, rfl⟩ <;> nofun

theorem Fresh.whole (h : Fresh F cfg sketch r)
    (hsome : F.snapshot (applyGosMode F sketch cfg) ≠ .ok none) (hbase : r.1 ≠ none) :
    ∃ payload, r.2 = some (payload, true) := by
  rcases h with rfl | ⟨base, _ | full, hs, rfl⟩
  · exact absurd rfl hbase
  · exact absurd hs hsome
  · exact ⟨full, rfl⟩

theorem boundaryDelta_fresh (hdelta : cfg.deltaTransmission = true) (sketch : σ) :
    Fresh F cfg sketch (boundaryDelta F cfg none sketch) := by
  unfold boundaryDelta payloadAgainst
  rw [if_pos hdelta]
  cases hs : F.snapshot (applyGosMode F sketch cfg) with
  | error e => exact .inl rfl
  | ok full =>
    dsimp only [Except.map]
    cases nextBase F (applyGosMode F sketch cfg) full true with
    | error e => exact .inl rfl
    | ok base => exact .inr ⟨base, full, hs, rfl⟩

theorem boundaryDelta_delta {base : Option Bytes} {payload : Bytes}
    (h : (boundaryDelta F cfg base sketch).2 = some (payload, false)) : cfg.deltaTransmission = true ∧ base ≠ none := by
  by_cases hdelta : cfg.deltaTransmission = true
  · refine ⟨hdelta, ?_⟩
    rintro rfl
    exact (boundaryDelta_fresh hdelta sketch).not_delta payload h
  · unfold boundaryDelta at h
    rw [if_neg hdelta] at h
    generalize F.snapshot sketch = full at h
    rcases full with _ | _ | _ <;> cases h

theorem visited_fresh (entry : SeriesEntry σ) :
    Fresh F cfg entry.sketch ((visited F cfg none entry).1, (visited F cfg none entry).2.2) := by
  unfold visited subWindowDelta payloadAgainst
  split
  · cases hs : F.snapshot (applyGosMode F entry.sketch cfg) with
    | error e => exact .inl rfl
    | ok full =>
      refine .inr ⟨full.getD [], full, hs, ?_⟩
      cases full <;> rfl
  · exact .inl rfl

/-! ### What the runtime offers -/

def seriesOf (env : SketchEnvelope) : Bytes := seriesKey env.aggID env.resourceLabels env.labels []

def isWhole (env : SketchEnvelope) : Bool := env.encoding = .protoFull || env.encoding = .msgpack

/-- The labels belong to the key, and the key decides the series identity. -/
def Identified (cfg : PrecomputeConfig) (idOf : Bytes → Bytes) (key : Bytes) (labels : List KeyValue) : Prop :=
  cfg.seriesKeyForEntry [] labels = key ∧ frameSeries cfg labels 0 = idOf key

/-- What a call of the runtime offers, given the window before it, and the bases it leaves. -/
structure Offered (cfg : PrecomputeConfig) (idOf : Bytes → Bytes) (w w' : WindowState σ) (envs : List SketchEnvelope) :
    Prop where
  count : envs.length ≤ w.series.len
  aggID : ∀ env ∈ envs, env.aggID = cfg.aggID
  range : ∀ env ∈ envs, w.initialized = true ∧ env.windowStartMs = w.activeStartMs ∧ env.windowEndMs = w.activeEndMs
  based : ∀ env ∈ envs, ∃ key, seriesOf env = idOf key ∧ (isWhole env = false →
    cfg.deltaTransmission = true ∧ w.snapshotCache.outbound.lookup key ≠ none)
  bases : cfg.deltaTransmission = true → ∀ key, w'.snapshotCache.outbound.lookup key ≠ none →
    w.snapshotCache.outbound.lookup key ≠ none ∨ ∃ env ∈ envs, isWhole env = true ∧ seriesOf env = idOf key

theorem Offered.nothing (idOf : Bytes → Bytes) (w : WindowState σ) : Offered cfg idOf w w [] where
  count := Nat.zero_le _
  aggID _ h := nomatch h
  range _ h := nomatch h
  based _ h := nomatch h
  bases _ _ h := Or.inl h

def Serializable (F : SketchImpl σ) (cfg : PrecomputeConfig) (outbound : GoMap Bytes Bytes)
    (series : GoMap Bytes (SeriesEntry σ)) : Prop :=
  cfg.deltaTransmission = true → ∀ key entry, series.lookup key = some entry → outbound.lookup key = none →
    F.snapshot (applyGosMode F entry.sketch cfg) ≠ .ok none

section
variable {idOf : Bytes → Bytes} {w : WindowState σ}

theorem Sourced.keyed (hw : Sourced (Identified cfg idOf) w) : Keyed cfg w.series := by
  intro key entry he
  obtain ⟨hkey, hres, hlabels, -⟩ := hw.series key entry he
  exact ⟨hkey, by rw [hres, hlabels, hkey]⟩

theorem Sourced.seriesOf_eq (hw : Sourced (Identified cfg idOf) w) (hstats : cfg.emitWindowStats = false)
    {key : Bytes} {entry : SeriesEntry σ} (he : w.series.lookup key = some entry) {env : SketchEnvelope}
    (haggID : env.aggID = cfg.aggID) (hresource : env.resourceLabels = entry.resourceLabels)
    (hlabels : env.labels = envelopeLabels entry cfg) : seriesOf env = idOf key := by
  obtain ⟨hkey, hres, -, hid⟩ := hw.series key entry he
  rw [seriesOf, haggID, hresource, hlabels, hres, ← hkey, ← hid, ← frameSeries_count hstats _ entry.count]
  rfl

theorem isWhole_boundaryEnvelope (F : SketchImpl σ) (cfg : PrecomputeConfig) (entry : SeriesEntry σ)
    (startMs endMs : Nat)
    (payload : Bytes × Bool) : isWhole (boundaryEnvelope F cfg entry startMs endMs payload) = payload.2 := by
  show (decide (boundaryEncoding cfg payload.2 = .protoFull) || decide (boundaryEncoding cfg payload.2 = .msgpack)) = _
  unfold boundaryEncoding
  cases payload.2 <;> split <;> rfl

variable {ω : SeriesOrder σ} (hw : Sourced (Identified cfg idOf) w) (hi : w.initialized = true)
  (hstats : cfg.emitWindowStats = false) (hfresh : Serializable F cfg w.snapshotCache.outbound w.series)
include hw hi hstats hfresh

theorem Offered.of_rotated {endMs : Nat} {w₁ : WindowState σ} {r : Rotation σ} (hr : Rotated cfg ω endMs w w₁ r)
    (nowMs : Nat) : Offered cfg idOf w (finishRotate F w₁ r cfg nowMs).1 (finishRotate F w₁ r cfg nowMs).2 := by
  have hlive : ∀ entry ∈ r.entries, w.series.lookup entry.seriesKey = some entry := by
    intro entry he
    rw [hr.entries] at he
    obtain ⟨⟨key, e⟩, hmem, rfl⟩ := mem_map.mp he
    have hl := mem_range.mp hmem
    rw [(hw.series key e hl).1]
    exact hl
  have hfin := @finishRotate_finished σ F cfg w₁ r nowMs (fun entry he => hw.keyed.ownKey (hlive entry he))
    (by rw [hr.entries, hw.keyed.range_keys]; exact nodup_keys_range _ _)
  generalize finishRotate F w₁ r cfg nowMs = done at hfin ⊢
  obtain ⟨w', envs⟩ := done
  dsimp only at hfin ⊢
  have hmem := @hfin.mem_envs
  have hlen : envs.length ≤ r.entries.length := hfin.envs ▸ length_filterMap_le _ _
  have hcache := hr.snapshotCache
  refine ⟨?_, fun env henv => ?_, fun env henv => ?_, fun env henv => ?_, fun hdelta key hbase => ?_⟩
  · rw [hr.entries, length_map, GoMap.length_range] at hlen
    exact hlen
  · obtain ⟨entry, -, payload, -, rfl⟩ := hmem.mp henv
    rfl
  · obtain ⟨entry, he, payload, -, rfl⟩ := hmem.mp henv
    obtain ⟨hstart, hend⟩ := hr.range (ne_nil_of_mem he)
    exact ⟨hi, hstart, hend⟩
  · obtain ⟨entry, he, ⟨bytes, isFull⟩, hpay, rfl⟩ := hmem.mp henv
    refine ⟨entry.seriesKey, hw.seriesOf_eq hstats (hlive entry he) rfl rfl rfl, fun hpart => ?_⟩
    rw [isWhole_boundaryEnvelope] at hpart
    subst hpart
    rw [← hcache]
    exact boundaryDelta_delta hpay
  · by_cases hold : w.snapshotCache.outbound.lookup key = none
    · right
      by_cases hk : key ∈ r.entries.map SeriesEntry.seriesKey
      · obtain ⟨entry, he, rfl⟩ := mem_map.mp hk
        rw [hfin.base entry he, hcache, hold] at hbase
        obtain ⟨payload, hpay⟩ := (boundaryDelta_fresh hdelta _).whole (hfresh hdelta _ entry (hlive entry he) hold)
          hbase
        refine ⟨_, hmem.mpr ⟨entry, he, (payload, true), by rw [hcache, hold]; exact hpay, rfl⟩,
          isWhole_boundaryEnvelope _ _ _ _ _ _, hw.seriesOf_eq hstats (hlive entry he) rfl rfl rfl⟩
      · rcases hfin.kept key hk with h | h
        · rw [h, hcache] at hbase
          exact absurd hold hbase
        · exact absurd h hbase
    · exact Or.inl hold

theorem Offered.of_visited (hdelta : cfg.deltaTransmission = true) {w₁ w' : WindowState σ}
    {emitted : List (SeriesEntry σ × SketchEnvelope)}
    (hloop : (w.series.range ω).foldl (visitEntry F cfg) (w, []) = (w₁, emitted))
    (hcache : w'.snapshotCache = w₁.snapshotCache) :
    Offered cfg idOf w w' ((emitted.map (stamped w₁)).map Prod.snd) := by
  have hkeyed : ∀ key entry, (key, entry) ∈ w.series.range ω →
      entry.seriesKey = key ∧ cfg.seriesKeyForEntry entry.resourceLabels entry.labels = key :=
    fun key entry he => hw.keyed key entry (mem_range.mp he)
  have hall := @visitAll σ F cfg (w.series.range ω) w [] hkeyed (nodup_keys_range _ _)
  rw [hloop] at hall
  have hmem := fun e => hall.mem_emitted (fun key entry he => (hkeyed key entry he).1) (e := e)
  -- an envelope is that of a live entry, with the range of the window
  have henvs : ∀ env ∈ (emitted.map (stamped w₁)).map Prod.snd, ∃ entry payload,
      w.series.lookup entry.seriesKey = some entry ∧
      (visited F cfg (w.snapshotCache.outbound.lookup entry.seriesKey) entry).2.2 = some payload ∧
      env = subWindowEnvelope cfg entry w.activeStartMs w.activeEndMs payload := by
    intro env henv
    rw [map_map] at henv
    obtain ⟨e, he, rfl⟩ := mem_map.mp henv
    obtain ⟨entry, hentry, payload, hpay, rfl⟩ := (hmem e).mp he
    refine ⟨entry, payload, mem_range.mp hentry, hpay, ?_⟩
    rw [← hall.bounds.1, ← hall.bounds.2.1]
    rfl
  have hwhole : ∀ (entry : SeriesEntry σ) payload,
      isWhole (subWindowEnvelope cfg entry w.activeStartMs w.activeEndMs payload) = payload.2 := by
    rintro entry ⟨bytes, _ | _⟩ <;> rfl
  refine ⟨?_, fun env henv => ?_, fun env henv => ?_, fun env henv => ?_, fun _ key hbase => ?_⟩
  · rw [length_map, length_map, show emitted = _ from hall.emitted, nil_append]
    exact (length_filterMap_le _ _).trans_eq (length_range _ _)
  · obtain ⟨entry, payload, -, -, rfl⟩ := henvs env henv
    rfl
  · obtain ⟨entry, payload, -, -, rfl⟩ := henvs env henv
    exact ⟨hi, rfl, rfl⟩
  · obtain ⟨entry, ⟨bytes, isFull⟩, hl, hpay, rfl⟩ := henvs env henv
    refine ⟨entry.seriesKey, hw.seriesOf_eq hstats hl rfl rfl rfl, fun hpart => ⟨hdelta, ?_⟩⟩
    rw [hwhole] at hpart
    subst hpart
    intro hnone
    exact (visited_fresh entry).not_delta bytes (hnone ▸ hpay)
  · rw [hcache] at hbase
    by_cases hold : w.snapshotCache.outbound.lookup key = none
    · right
      cases hl : w.series.lookup key with
      | none =>
        rw [(hall.aside_of_none hl).2] at hbase
        exact absurd hold hbase
      | some entry =>
        have hrange : (key, entry) ∈ w.series.range ω := mem_range.mpr hl
        obtain ⟨rfl, -⟩ := hkeyed key entry hrange
        rw [(hall.visited _ entry hrange).2, hold] at hbase
        obtain ⟨payload, hpay⟩ := (visited_fresh entry).whole (hfresh hdelta _ entry hl hold) hbase
        have hin := (hmem _).mpr ⟨entry, hrange, (payload, true), by rw [hold]; exact hpay, rfl⟩
        exact ⟨_, mem_map_of_mem (mem_map_of_mem hin), rfl, hw.seriesOf_eq hstats hl rfl rfl rfl⟩
    · exact Or.inl hold

end

section
variable {idOf : Bytes → Bytes} {p : Precompute σ} (hcfg : p.cfg = some cfg)

section
variable (hp : Provenance (Identified cfg idOf) p) (hstats : cfg.emitWindowStats = false)
  (hfresh : Serializable F cfg p.window.snapshotCache.outbound p.window.series)
include hcfg hp hstats hfresh

theorem drain_offered (hqueue : p.pendingOutput = []) (ω : RangeOrders σ) :
    Offered cfg idOf p.window (drain F p ω).1.window (drain F p ω).2 := by
  rw [drain_eq hcfg hp.pending, takePendingOutput, hqueue, nil_append]
  rcases @drain_cases σ F cfg (hp.notSliding hcfg) p.window ω.series with ⟨heq, -⟩ | ⟨hi, hr⟩
  · rw [heq]
    exact Offered.nothing idOf p.window
  · exact Offered.of_rotated hp.window hi hstats hfresh hr _

theorem emitSubWindow_offered (hend : p.window.initialized = true → 0 < p.window.activeEndMs) (nowMs : Nat)
    (ω : RangeOrders σ) : Offered cfg idOf p.window (emitSubWindow F p nowMs ω).1.window (emitSubWindow F p nowMs ω).2 ∧
      (emitSubWindow F p nowMs ω).1.pendingOutput = p.pendingOutput := by
  by_cases hidle : cfg.deltaTransmission = false ∨ p.window.initialized = false
  · rw [emitSubWindow_idle hcfg hidle]
    exact ⟨Offered.nothing idOf p.window, rfl⟩
  rw [not_or, Bool.not_eq_false, Bool.not_eq_false] at hidle
  obtain ⟨hdelta, hi⟩ := hidle
  cases hloop : (p.window.series.range ω.series).foldl (visitEntry F cfg) (p.window, []) with
  | mk w emitted =>
    have hbounds := (@visitAll σ F cfg (p.window.series.range ω.series) p.window []
      (fun key entry he => hp.window.keyed key entry (mem_range.mp he)) (nodup_keys_range _ _)).bounds
    rw [hloop] at hbounds
    obtain ⟨stats, heq⟩ := emitSubWindow_eq hcfg hdelta hi (hp.notSliding hcfg) nowMs ω hloop
      (by rw [hbounds.2.1]; exact hend hi)
    rw [heq]
    exact ⟨Offered.of_visited hp.window hi hstats hfresh hdelta hloop rfl, rfl⟩

end

/-! ### Observations inside the window -/

theorem WindowState.MadeRoom.outbound {w w' : WindowState σ} (h : MadeRoom cfg w w') {key : Bytes}
    (hbase : w'.snapshotCache.outbound.lookup key ≠ none) : w.snapshotCache.outbound.lookup key ≠ none := by
  rcases h with rfl | ⟨-, k, stats, rfl⟩
  · exact hbase
  · intro hnone
    by_cases hk : key = k
    · subst hk
      exact hbase (AList.lookup_erase _ _)
    · exact hbase ((AList.lookup_erase_ne hk).trans hnone)

variable (w : WindowState σ)

/-- The error is about the series or its sketch, and no base has been added. -/
def Settled (r : WindowState σ × Option PrecomputeError) : Prop :=
  r.2 ≠ some .futureData ∧
    ∀ key, r.1.snapshotCache.outbound.lookup key ≠ none → w.snapshotCache.outbound.lookup key ≠ none

theorem initWindow_end {ts : Nat} (hsize : 0 < cfg.rotationStepMs) (hts : w.initialized = true → ts < w.activeEndMs) :
    ts < (w.initWindow ts cfg).activeEndMs := by
  cases hi : w.initialized with
  | false => exact lt_initWindow hsize hi ts
  | true =>
    rw [initWindow_of_initialized hi]
    exact hts hi

theorem observeWithKey_settled (key : Bytes) {obs : Observation} (hsize : 0 < cfg.rotationStepMs)
    (hts : w.initialized = true → obs.timestampMs < w.activeEndMs) : Settled w (w.observeWithKey F key obs cfg) := by
  have hend := initWindow_end w hsize hts
  unfold Settled
  rw [← @snapshotCache_initWindow σ cfg w obs.timestampMs]
  rcases observeWithKey_cases F cfg w key obs with ⟨err, herr, heq⟩ | ⟨-, w₁, stats, hroom, heq⟩ <;> rw [heq]
  · refine ⟨fun hfuture => ?_, fun _ h => h⟩
    cases Option.some.inj hfuture
    rcases herr with ⟨-, herr⟩ | herr
    · cases herr
    · rcases validateTimestamp_eq_some herr with ⟨-, hle⟩ | ⟨heq, -⟩
      · omega
      · cases heq
  · refine ⟨fun hfuture => ?_, fun k hk => hroom.outbound hk⟩
    obtain ⟨text, -, heq⟩ := Option.map_eq_some_iff.mp hfuture
    cases heq

include hcfg in
theorem observeKeyed_settled (hsize : 0 < cfg.rotationStepMs) (key : Bytes) {obs : Observation}
    (hscalar : obs.carried = none) (hts : p.window.initialized = true → obs.timestampMs < p.window.activeEndMs)
    (ω : RangeOrders σ) :
    (observeKeyed F p key obs ω).1.pendingOutput = p.pendingOutput ∧
      ∀ k, (observeKeyed F p key obs ω).1.window.snapshotCache.outbound.lookup k ≠ none →
        p.window.snapshotCache.outbound.lookup k ≠ none := by
  unfold observeKeyed
  generalize (if key = [] then none else some key : Option Bytes) = given
  have honce : ∀ stats, (observeOnce F (withStats p stats) given obs).1.pendingOutput = p.pendingOutput ∧
      Settled p.window ((observeOnce F (withStats p stats) given obs).1.window,
        (observeOnce F (withStats p stats) given obs).2) := by
    intro stats
    unfold observeOnce
    rw [show (withStats p stats).cfg = some cfg from hcfg]
    dsimp only
    split
    · exact ⟨rfl, nofun, fun _ h => h⟩
    · exact ⟨rfl, observeWithKey_settled (withStats p stats).window _ hsize hts⟩
  rcases observeWith_cases F p given hscalar ω with ⟨-, heq⟩ | ⟨counted, stats, ⟨-, heq⟩ | ⟨p', hfuture, -⟩⟩
  · rw [heq]
    exact ⟨rfl, fun _ h => h⟩
  · obtain ⟨hqueue, -, hbases⟩ := honce counted
    rw [heq]
    exact ⟨hqueue, hbases⟩
  · obtain ⟨-, hnot, -⟩ := honce counted
    rw [hfuture] at hnot
    exact absurd rfl hnot

end

end Precompute

namespace Edge

open Precompute FrameSequencer

namespace SketchAggregator

open SketchAggregator

variable {σ : Type} {F : SketchImpl σ}

/-! ### One call of an aggregator -/

/-- What a flush or a sub-window needs of the state it finds, so that nothing is refused. -/
structure Attachable (F : SketchImpl σ) (cadence : UInt64) (sa : SketchAggregator σ) (nowMS attachMS : UInt64) :
    Prop where
  /-- The frames are numbered before the cadence has run out, or the bases have been reset. -/
  timely : sa.checkpointDue nowMS = false → attachMS.toNat < sa.checkpointAtMS.toNat + cadence.toNat
  /-- The window is a range of `uint64` nanoseconds. -/
  range : sa.pc.window.initialized = true →
    sa.pc.window.activeStartMs < sa.pc.window.activeEndMs ∧ sa.pc.window.activeEndMs * 1000000 < 2 ^ 64
  /-- A series that has no base, or loses it now, has something to serialize. -/
  serializable : sa.pcfg.deltaTransmission = true → ∀ key entry, sa.pc.window.series.lookup key = some entry →
    (sa.checkpointDue nowMS = true ∨ sa.pc.window.snapshotCache.outbound.lookup key = none) →
    F.snapshot (applyGosMode F entry.sketch sa.pcfg) ≠ .ok none
  /-- The numbers do not wrap. -/
  room : sa.attached.length + sa.pc.window.series.len < 2 ^ 64

/-- What each call needs of the state it finds; a sample does not lie beyond the window. -/
def Admissible (F : SketchImpl σ) (cadence : UInt64) (sa : SketchAggregator σ) : AggregatorCall σ → Prop
  | .observe _ _ tsMs _ _ _ => sa.pc.window.initialized = true → tsMs < sa.pc.window.activeEndMs
  | .emitSubWindow nowMs surr => Attachable F cadence sa nowMs surr.attachMS
  | .flush checkpointMS surr => Attachable F cadence sa checkpointMS surr.attachMS

/-- What an aggregator is bound to, and the series identity that each key stands for. -/
structure Binding where
  plan : CollectorPlan
  rule : TransmissionRule
  epoch : Bytes
  drop : Bytes
  cfg : PrecomputeConfig
  cadence : UInt64
  idOf : Bytes → Bytes
  delta : DeltaRule plan rule epoch cadence
  materialization : rule.materialization = cfg.aggID
  stats : cfg.emitWindowStats = false
  size : 0 < cfg.rotationStepMs

/-- Every base belongs to a lineage with a whole frame since the last reset of the bases. -/
def Anchors (b : Binding) (sa : SketchAggregator σ) : Prop :=
  b.cfg.deltaTransmission = true → ∀ key, sa.pc.window.snapshotCache.outbound.lookup key ≠ none →
    sa.frameSequencer.Anchored sa.checkpointAtMS (lineageKey b.plan b.rule b.epoch (b.idOf key))

structure Bound (b : Binding) (sa : SketchAggregator σ) : Prop where
  provenance : Provenance (Identified b.cfg b.idOf) sa.pc
  config : sa.pc.cfg = some b.cfg
  pcfg : sa.pcfg = b.cfg
  plan : sa.framePlan = some b.plan
  rule : sa.frameRule = some b.rule
  epoch : sa.producerEpoch = b.epoch
  drop : sa.dropLabel = b.drop
  queue : sa.pc.pendingOutput = []
  bounded : ∀ key, (sa.frameSequencer.state key).sequence.toNat ≤ sa.attached.length
  anchors : sa.checkpointAtMS ≠ 0 → Anchors b sa

section
variable {b : Binding} {sa : SketchAggregator σ}

theorem seriesKey_ne_nil (aggID : UInt64) (resourceLabels labels : List KeyValue) (aggregateBy : List Bytes) :
    seriesKey aggID resourceLabels labels aggregateBy ≠ [] := by
  simp only [seriesKey, ne_eq, append_eq_nil_iff]
  rintro ⟨⟨⟨⟨-, hbar⟩, -⟩, -⟩, -⟩
  exact absurd hbar (by decide)

theorem emission_window {env : SketchEnvelope} (nowMS : UInt64) (hlt : env.windowStartMs < env.windowEndMs)
    (hmax : env.windowEndMs * 1000000 < 2 ^ 64) :
    (emission nowMS env).windowStartUnixNano < (emission nowMS env).windowEndUnixNano := by
  have hnano : ∀ ms, ms * 1000000 < 2 ^ 64 → (UInt64.ofNat ms * 1000000).toNat = ms * 1000000 := by
    intro ms hms
    have hlt : ms < UInt64.size := Nat.lt_of_le_of_lt (Nat.le_mul_of_pos_right ms (by decide)) hms
    rw [UInt64.toNat_mul, UInt64.toNat_ofNat_of_lt' hlt]
    exact Nat.mod_eq_of_lt hms
  show (UInt64.ofNat env.windowStartMs * 1000000).toNat < (UInt64.ofNat env.windowEndMs * 1000000).toNat
  rw [hnano _ (Nat.lt_of_le_of_lt (Nat.mul_le_mul_right _ hlt.le) hmax), hnano _ hmax]
  exact Nat.mul_lt_mul_of_pos_right hlt (by decide)

/-- The state in which a flush or a sub-window asks its runtime for envelopes. -/
structure Prepared (F : SketchImpl σ) (b : Binding) (attachMS : UInt64) (sa : SketchAggregator σ) : Prop where
  bound : Bound b sa
  anchors : Anchors b sa
  clock : sa.checkpointAtMS ≤ attachMS
  timely : ∀ key, sa.pc.window.snapshotCache.outbound.lookup key ≠ none →
    attachMS.toNat < sa.checkpointAtMS.toNat + b.cadence.toNat
  range : sa.pc.window.initialized = true →
    sa.pc.window.activeStartMs < sa.pc.window.activeEndMs ∧ sa.pc.window.activeEndMs * 1000000 < 2 ^ 64
  serializable : Serializable F b.cfg sa.pc.window.snapshotCache.outbound sa.pc.window.series
  room : sa.attached.length + sa.pc.window.series.len < 2 ^ 64

variable {nowMS : UInt64}

theorem Bound.checkpointAt_ne_zero (h : Bound b sa) (hdue : sa.checkpointDue nowMS = false) :
    sa.checkpointAtMS ≠ 0 := by
  intro hzero
  unfold checkpointDue at hdue
  rw [h.rule] at hdue
  dsimp only at hdue
  rw [b.delta.mode, b.delta.cadence, hzero] at hdue
  cases hdue

theorem Bound.force (h : Bound b sa) {attachMS : UInt64} (hatt : Attachable F b.cadence sa nowMS attachMS)
    (hclock : sa.checkpointAtMS ≤ nowMS) (hnow : nowMS ≤ attachMS) :
    Prepared F b attachMS (sa.forceCheckpointIfDue nowMS) ∧
      ((sa.forceCheckpointIfDue nowMS).checkpointAtMS = sa.checkpointAtMS ∨
        (sa.forceCheckpointIfDue nowMS).checkpointAtMS = nowMS) := by
  have hser := hatt.serializable
  rw [h.pcfg] at hser
  unfold forceCheckpointIfDue
  cases hdue : sa.checkpointDue nowMS with
  | true =>
    -- no base is left
    have hnone : Anchors b { sa with pc := sa.pc.resetDeltaBase, checkpointAtMS := nowMS } :=
      fun _ _ hbase => absurd rfl hbase
    exact ⟨⟨{ h with provenance := h.provenance.resetDeltaBase, anchors := fun _ => hnone }, hnone, hnow,
      fun _ hbase => absurd rfl hbase, hatt.range, fun hon key entry he _ => hser hon key entry he (Or.inl hdue),
      hatt.room⟩, Or.inr rfl⟩
  | false =>
    exact ⟨⟨h, h.anchors (h.checkpointAt_ne_zero hdue), UInt64.le_trans hclock hnow, fun _ _ => hatt.timely hdue,
      hatt.range, fun hon key entry he hnone => hser hon key entry he (Or.inr hnone), hatt.room⟩, Or.inl rfl⟩

structure Stepped (b : Binding) (readings : List UInt64) (sa : SketchAggregator σ)
    (r : SketchAggregator σ × FlushResult) : Prop where
  accepted : r.2 ≠ .refused
  bound : Bound b r.1
  checkpoint : r.1.checkpointAtMS = sa.checkpointAtMS ∨ r.1.checkpointAtMS ∈ readings

theorem Prepared.publish {attachMS : UInt64} (h : Prepared F b attachMS sa) {pc : Precompute σ}
    {envs : List SketchEnvelope}
    (hpc : Provenance (Identified b.cfg b.idOf) pc) (hcfg : pc.cfg = some b.cfg) (hqueue : pc.pendingOutput = [])
    (hoffer : Offered b.cfg b.idOf sa.pc.window pc.window envs) {sa₀ : SketchAggregator σ}
    (hfrom : sa.checkpointAtMS = sa₀.checkpointAtMS ∨ sa.checkpointAtMS = nowMS) :
    Stepped b [nowMS, attachMS] sa₀ (publish { sa with pc } envs attachMS) := by
  have hacceptable : ∀ e ∈ envs.map (emission attachMS),
      sa.frameSequencer.Acceptable b.plan b.rule b.epoch b.cadence sa.checkpointAtMS attachMS e := by
    intro e he
    obtain ⟨env, henv, rfl⟩ := mem_map.mp he
    obtain ⟨hi, hstart, hend⟩ := hoffer.range env henv
    obtain ⟨hlt, hmax⟩ := h.range hi
    obtain ⟨key, hid, hpart⟩ := hoffer.based env henv
    refine ⟨seriesKey_ne_nil _ _ _ _, emission_window attachMS (by rw [hstart, hend]; exact hlt)
      (by rw [hend]; exact hmax), rfl, fun hdelta => ?_⟩
    obtain ⟨hon, hbase⟩ := hpart hdelta
    exact ⟨(show (emission attachMS env).seriesIdentity = b.idOf key from hid) ▸ h.anchors hon key hbase,
      h.timely key hbase⟩
  have hlen : sa.attached.length + (envs.map (emission attachMS)).length < 2 ^ 64 := by
    have hcount := hoffer.count
    have hroom := h.room
    rw [length_map]
    omega
  obtain ⟨t, fs, hbatch, hfs, hadv, hwhole⟩ := nextBatch_accepts b.delta h.clock h.bound.bounded hlen hacceptable
  have hnone : ¬(envs.any fun env => env.aggID ≠ b.rule.materialization) = true := by
    rw [any_eq_true]
    rintro ⟨env, henv, hne⟩
    exact of_decide_eq_true hne ((hoffer.aggID env henv).trans b.materialization.symm)
  have hattach : attachFrameIdentities { sa with pc } envs attachMS =
      ({ sa with pc, frameSequencer := t, attached := sa.attached ++ fs }, some (fs.zipWith sealEnvelope envs)) := by
    unfold attachFrameIdentities
    simp only [h.bound.plan, h.bound.rule, h.bound.epoch, if_neg hnone, hbatch]
  have hread : sa.checkpointAtMS = sa₀.checkpointAtMS ∨ sa.checkpointAtMS ∈ [nowMS, attachMS] :=
    hfrom.imp_right (by simp [·])
  have hb := h.bound
  unfold SketchAggregator.publish
  split
  · rename_i hempty
    rw [List.isEmpty_iff] at hempty
    subst hempty
    refine ⟨nofun, { hb with provenance := hpc, config := hcfg, queue := hqueue, anchors := ?_ }, hread⟩
    intro _ hon key hbase
    rcases hoffer.bases hon key hbase with hold | ⟨env, henv, -⟩
    · exact h.anchors hon key hold
    · cases henv
  · rw [hattach]
    refine ⟨nofun, { hb with provenance := hpc, config := hcfg, queue := hqueue, bounded := ?_, anchors := ?_ },
      hread⟩
    · intro key
      have hb := hadv.bounded key
      rw [← hfs] at hb
      rw [length_append]
      exact hb
    · intro _ hon key hbase
      rcases hoffer.bases hon key hbase with hold | ⟨env, henv, hfull, hid⟩
      · exact hadv.kept _ (h.anchors hon key hold)
      · have hanch := hwhole _ (mem_map_of_mem henv) hfull
        exact (show (emission attachMS env).seriesIdentity = b.idOf key from hid) ▸ hanch

section
variable (h : Bound b sa) {nowMS : UInt64} {surr : Surroundings σ}
  (hatt : Attachable F b.cadence sa nowMS surr.attachMS)
  (hclock : sa.checkpointAtMS ≤ nowMS) (hnow : nowMS ≤ surr.attachMS)
include h hatt hclock hnow

theorem Bound.flush : Stepped b [nowMS, surr.attachMS] sa (sa.flush F nowMS surr) := by
  obtain ⟨hready, hfrom⟩ := h.force hatt hclock hnow
  have hb := hready.bound
  obtain ⟨hpc, hcfg, -, hqueue, -⟩ := hb.provenance.drain F surr.orders
  exact hready.publish hpc (hcfg.trans hb.config) hqueue
    (drain_offered hb.config hb.provenance b.stats hready.serializable hb.queue surr.orders) hfrom

theorem Bound.emitSubWindow : Stepped b [nowMS, surr.attachMS] sa (sa.emitSubWindow F nowMS surr) := by
  unfold SketchAggregator.emitSubWindow
  split
  · obtain ⟨hready, hfrom⟩ := h.force hatt hclock hnow
    have hb := hready.bound
    obtain ⟨hpc, hcfg, -⟩ := hb.provenance.emitSubWindow F nowMS.toNat surr.orders
    obtain ⟨hoffer, hqueue⟩ := emitSubWindow_offered hb.config hb.provenance b.stats hready.serializable
      (fun hi => Nat.lt_of_le_of_lt (Nat.zero_le _) (hready.range hi).1) nowMS.toNat surr.orders
    exact hready.publish hpc (hcfg.trans hb.config) (hqueue.trans hb.queue) hoffer hfrom
  · exact ⟨nofun, h, Or.inl rfl⟩

end

theorem Bound.observeKeyed (h : Bound b sa) {obs : Observation} (hscalar : obs.carried = none)
    (hresource : obs.resourceLabels = [])
    (hid : Identified b.cfg b.idOf (b.cfg.seriesKeyFor obs) (if b.cfg.isWholeStream then [] else obs.labels))
    (hts : sa.pc.window.initialized = true → obs.timestampMs < sa.pc.window.activeEndMs) (orders : RangeOrders σ) :
    Stepped b [] sa (sa.observeKeyed F obs orders, .nothing) := by
  have hkey : sa.pcfg.seriesKeyFor obs = b.cfg.seriesKeyFor obs := by rw [h.pcfg]
  obtain ⟨hpc, hcfg⟩ := @Provenance.observeKeyed σ F _ sa.pc h.provenance (b.cfg.seriesKeyFor obs) obs hscalar hresource
    (fun c hc k hk => by
      cases hc.symm.trans h.config
      rcases hk with rfl | rfl <;> exact hid) orders
  obtain ⟨hqueue, hbases⟩ := @observeKeyed_settled σ F b.cfg sa.pc h.config b.size (b.cfg.seriesKeyFor obs) obs hscalar
    hts orders
  unfold SketchAggregator.observeKeyed
  rw [hkey]
  dsimp only at hpc hcfg hqueue hbases ⊢
  split
  all_goals exact ⟨nofun, { h with
    provenance := hpc, config := hcfg.trans h.config, queue := hqueue.trans h.queue
    anchors := fun hcp hon key hbase => h.anchors hcp hon key (hbases key hbase) }, Or.inl rfl⟩

theorem Bound.observe (h : Bound b sa) (am : GoMap Bytes Bytes) (val : Float64) {tsMs : Nat}
    (sampled : Option (UInt64 × Float64)) {ω : RangeOrder (Bytes × Bytes)} (orders : RangeOrders σ)
    (hid : Identified b.cfg b.idOf (b.cfg.seriesKeyForEntry [] (fillKVScratch am ω b.drop))
      (if b.cfg.isWholeStream then [] else fillKVScratch am ω b.drop))
    (hts : sa.pc.window.initialized = true → tsMs < sa.pc.window.activeEndMs) :
    Stepped b [] sa (sa.observe F am val tsMs sampled ω orders, .nothing) := by
  rw [← h.drop] at hid
  have hvalue := sa.observationValue_kind am (fillKVScratch am ω sa.dropLabel) val
  unfold SketchAggregator.observe
  split
  · refine h.observeKeyed ?_ rfl ?_ ?_ orders
    exacts [carried_eq_none hvalue, hid, hts]
  · split
    · refine h.observeKeyed ?_ rfl ?_ ?_ orders
      exacts [carried_eq_none hvalue, hid, hts]
    · exact ⟨nofun, { h with }, Or.inl rfl⟩

end

/-! ### Runs -/

/-- Every call of the run is admissible. -/
abbrev AllAdmissible (F : SketchImpl σ) (cadence : UInt64) : SketchAggregator σ → List (AggregatorCall σ) → Prop :=
  Always (fun sa c => (sa.call F c).1) (Admissible F cadence)

def sampleLabels (drop : Bytes) (calls : List (AggregatorCall σ)) : List (List KeyValue) :=
  calls.filterMap fun
    | .observe am _ _ _ ω _ => some (fillKVScratch am ω drop)
    | _ => none

def Binding.Covers (b : Binding) (labels : List (List KeyValue)) : Prop :=
  ∀ kv ∈ labels, Identified b.cfg b.idOf (b.cfg.seriesKeyForEntry [] kv) (if b.cfg.isWholeStream then [] else kv)

variable {sa : SketchAggregator σ}

theorem Bound.call {b : Binding} (h : Bound b sa) {c : AggregatorCall σ} (hadm : Admissible F b.cadence sa c)
    (hclock : (sa.checkpointAtMS :: c.readings).Pairwise (· ≤ ·)) (hid : b.Covers (sampleLabels b.drop [c])) :
    Stepped b c.readings sa (sa.call F c) := by
  cases c with
  | observe am val tsMs sampled ω orders =>
    exact h.observe am val sampled orders (hid _ (mem_singleton_self _)) hadm
  | emitSubWindow nowMs surr =>
    simp only [AggregatorCall.readings, pairwise_cons, mem_cons] at hclock
    exact h.emitSubWindow hadm (hclock.1 _ (Or.inl rfl)) (hclock.2.1 _ (Or.inl rfl))
  | flush checkpointMS surr =>
    simp only [AggregatorCall.readings, pairwise_cons, mem_cons] at hclock
    exact h.flush hadm (hclock.1 _ (Or.inl rfl)) (hclock.2.1 _ (Or.inl rfl))

theorem Bound.results {b : Binding} : ∀ (calls : List (AggregatorCall σ)) {sa : SketchAggregator σ}, Bound b sa →
    AllAdmissible F b.cadence sa calls → (sa.checkpointAtMS :: calls.flatMap AggregatorCall.readings).Pairwise (· ≤ ·) →
    b.Covers (sampleLabels b.drop calls) → ∀ r ∈ sa.results F calls, r ≠ .refused
  | [], _, _, _, _, _ => nofun
  | c :: calls, sa, h, hadm, hclock, hid => by
    rw [flatMap_cons] at hclock
    have hids : sampleLabels b.drop (c :: calls) = sampleLabels b.drop [c] ++ sampleLabels b.drop calls :=
      filterMap_append (l := [c])
    rw [hids] at hid
    have hfirst : (sa.checkpointAtMS :: c.readings).Pairwise (· ≤ ·) :=
      hclock.sublist ((sublist_append_left _ _).cons_cons _)
    have hstep := h.call (F := F) hadm.1 hfirst fun kv hkv =>
      hid kv (mem_append_left _ hkv)
    rw [SketchAggregator.results]
    intro r hr
    rcases mem_cons.mp hr with rfl | hr
    · exact hstep.accepted
    · refine Bound.results calls hstep.bound hadm.2 ?_
        (fun kv hkv => hid kv (mem_append_right _ hkv)) r hr
      -- the checkpoint is an earlier reading
      rw [pairwise_cons] at hclock ⊢
      rw [pairwise_append] at hclock
      refine ⟨fun t ht => ?_, hclock.2.2.1⟩
      rcases hstep.checkpoint with heq | hmem
      · rw [heq]
        exact hclock.1 t (mem_append_right _ ht)
      · exact hclock.2.2.2 _ hmem t ht

/-! ### Binding -/

theorem flush_emptied (h : Provenance (fun _ _ => True) sa.pc) (nowMS : UInt64) (surr : Surroundings σ) :
    Provenance (fun _ _ => True) (sa.flush F nowMS surr).1.pc ∧ (sa.flush F nowMS surr).1.pc.window.series = ∅ ∧
      (sa.flush F nowMS surr).1.pc.pendingOutput = [] ∧ (sa.flush F nowMS surr).1.dropLabel = sa.dropLabel := by
  have hforce : Provenance (fun _ _ => True) (sa.forceCheckpointIfDue nowMS).pc ∧
      (sa.forceCheckpointIfDue nowMS).dropLabel = sa.dropLabel := by
    unfold forceCheckpointIfDue
    split
    · exact ⟨h.resetDeltaBase, rfl⟩
    · exact ⟨h, rfl⟩
  unfold flush
  generalize sa.forceCheckpointIfDue nowMS = sa₁ at hforce ⊢
  obtain ⟨hpc, -, hseries, hqueue, -⟩ := hforce.1.drain F surr.orders
  obtain ⟨hsame, hdrop⟩ := publish_frame { sa₁ with pc := (sa₁.pc.drain F surr.orders).1 }
    (sa₁.pc.drain F surr.orders).2 surr.attachMS
  rw [hsame]
  exact ⟨hpc, hseries, hqueue, hdrop.trans hforce.2⟩

theorem bindPlan_bound (h : Provenance (fun _ _ => True) sa.pc) (b : Binding) (hlabel : sa.dropLabel = b.drop)
    (hmode : b.cfg.mode = .tumbling) (hvalid : b.cfg.validMatchers = true) (version nowMS : UInt64)
    (surr : Surroundings σ) :
    Bound b (sa.bindPlan F b.plan b.rule b.cfg version b.epoch nowMS surr).1 ∧
      (sa.bindPlan F b.plan b.rule b.cfg version b.epoch nowMS surr).1.checkpointAtMS = 0 := by
  have hrebound : ∀ sa₁ : SketchAggregator σ, Provenance (fun _ _ => True) sa₁.pc → sa₁.pc.window.series = ∅ →
      sa₁.pc.pendingOutput = [] → sa₁.dropLabel = sa.dropLabel →
      Bound b { sa₁ with
        pc := sa₁.pc.updateConfig ⟨version, [b.cfg]⟩, pcfg := b.cfg, framePlan := some b.plan, frameRule := some b.rule
        frameSequencer := {}, producerEpoch := b.epoch, checkpointAtMS := 0 } := by
    intro sa₁ hp hseries hqueue hdrop
    obtain ⟨hcfg, hout⟩ := hp.updateConfig_taken hseries hvalid version
    exact ⟨hp.updateConfig hseries hqueue hmode version _, hcfg, rfl, rfl, rfl, rfl, hdrop.trans hlabel,
      hout.trans hqueue, fun _ => Nat.zero_le _, fun hne => absurd rfl hne⟩
  unfold bindPlan
  cases sa.framePlan.isSome with
  | true =>
    obtain ⟨hp, hseries, hqueue, hdrop⟩ := flush_emptied (F := F) h nowMS surr
    exact ⟨hrebound _ hp hseries hqueue hdrop, rfl⟩
  | false =>
    obtain ⟨hp, -, hseries, hqueue, -⟩ := h.drain F surr.orders
    exact ⟨hrebound { sa with pc := (sa.pc.drain F surr.orders).1 } hp hseries hqueue rfl, rfl⟩

def KeysIdentify (cfg : PrecomputeConfig) (labels : List (List KeyValue)) : Prop :=
  ∀ kv ∈ labels, ∀ kv' ∈ labels, cfg.seriesKeyForEntry [] kv = cfg.seriesKeyForEntry [] kv' →
    frameSeries cfg (if cfg.isWholeStream then [] else kv) 0 = frameSeries cfg (if cfg.isWholeStream then [] else kv') 0

theorem KeysIdentify.identified {cfg : PrecomputeConfig} {labels : List (List KeyValue)} (h : KeysIdentify cfg labels) :
    ∃ idOf : Bytes → Bytes, ∀ kv ∈ labels, Identified cfg idOf (cfg.seriesKeyForEntry [] kv)
      (if cfg.isWholeStream then [] else kv) := by
  refine ⟨fun key => ((labels.find? fun kv => cfg.seriesKeyForEntry [] kv = key).map fun kv =>
    frameSeries cfg (if cfg.isWholeStream then [] else kv) 0).getD [], fun kv hkv => ⟨?_, ?_⟩⟩
  · by_cases hw : cfg.isWholeStream = true
    · unfold PrecomputeConfig.seriesKeyForEntry
      rw [if_pos hw, if_pos hw]
    · rw [if_neg hw]
  · cases hfind : labels.find? fun kv' => cfg.seriesKeyForEntry [] kv' = cfg.seriesKeyForEntry [] kv with
    | none => exact absurd (decide_eq_true rfl) (find?_eq_none.mp hfind kv hkv)
    | some kv' =>
      have hkey : cfg.seriesKeyForEntry [] kv' = cfg.seriesKeyForEntry [] kv := by simpa using find?_some hfind
      dsimp only
      rw [hfind]
      exact h kv hkv kv' (mem_of_find?_eq_some hfind) hkey.symm

/-- No flush of an aggregator bound to a delta rule is refused, in a run whose calls all find an
admissible state. -/
theorem bound_flushes_accepted (F : SketchImpl σ) {sa : SketchAggregator σ} (hsa : Provenance (fun _ _ => True) sa.pc)
    {plan : CollectorPlan} {rule : TransmissionRule} {cfg : PrecomputeConfig} {cadence : UInt64} {epoch : Bytes}
    (hrule : Processor.transmissionRuleFor plan cfg.aggID = some rule) (hmode : rule.mode = .delta)
    (hcadence : rule.fullCheckpointEveryMS = some cadence) (hproducer : rule.producerID = plan.collectorID)
    (hself : rule.deepEqual rule = true) (hepoch : epoch ≠ []) (htumbling : cfg.mode = .tumbling)
    (hvalid : cfg.validMatchers = true) (hsize : 0 < cfg.windowSizeMs) (hstats : cfg.emitWindowStats = false)
    (version nowMS : UInt64) (surr : Surroundings σ) (calls : List (AggregatorCall σ))
    (hclock : (calls.flatMap AggregatorCall.readings).Pairwise (· ≤ ·))
    (hlabels : KeysIdentify cfg (sampleLabels sa.dropLabel calls))
    (hadm : AllAdmissible F cadence (sa.bindPlan F plan rule cfg version epoch nowMS surr).1 calls) :
    ∀ r ∈ (sa.bindPlan F plan rule cfg version epoch nowMS surr).1.results F calls, r ≠ .refused := by
  have hdelta : DeltaRule plan rule epoch cadence :=
    ⟨hproducer, any_eq_true.mpr ⟨rule, mem_of_find?_eq_some hrule, hself⟩, hepoch, hmode, hcadence⟩
  have hmat : rule.materialization = cfg.aggID := by
    simpa using find?_some hrule
  have hstep : 0 < cfg.rotationStepMs := by
    rw [PrecomputeConfig.rotationStepMs, htumbling]
    exact hsize
  obtain ⟨idOf, hid⟩ := hlabels.identified
  obtain ⟨hbound, hzero⟩ := bindPlan_bound (F := F) hsa
    ⟨plan, rule, epoch, sa.dropLabel, cfg, cadence, idOf, hdelta, hmat, hstats, hstep⟩ rfl htumbling hvalid version
      nowMS surr
  refine hbound.results calls hadm ?_ hid
  exact pairwise_cons.mpr ⟨fun t _ => UInt64.le_iff_toNat_le.mpr (Nat.zero_le _), hclock⟩

/-! ### A window that is closed early -/

def floatSum : SketchImpl (SumWrapper Float64 UInt64) := sumFamily (.float64 fun _ => "") .new

def deltaSums : PrecomputeConfig where
  aggID := 7
  aggKind := .sum
  window := { size := 10 * millisecond, slide := 10 * millisecond }
  deltaTransmission := true
  subWindowInterval := millisecond

def deltaSumRule : TransmissionRule :=
  ⟨7, str "edge", str "sum", .delta, str "proto", 10, some 1000, str "backend", Processor.policyOfM⟩

def deltaSumPlan : CollectorPlan where
  collectorID := str "edge"
  envelope := ⟨3, 1, str "v1"⟩
  transmissionRules := [deltaSumRule]

def deltaSumAggregator : SketchAggregator (SumWrapper Float64 UInt64) where
  pc := new (some deltaSums)
  pcfg := deltaSums
  family := .sum

theorem deltaSumAggregator_provenance : Provenance (fun _ _ => True) deltaSumAggregator.pc := provenance_new rfl

def attachedAt (attachMS : UInt64) : Surroundings (SumWrapper Float64 UInt64) := ⟨.stored _, attachMS⟩

def boundSums : SketchAggregator (SumWrapper Float64 UInt64) :=
  (deltaSumAggregator.bindPlan floatSum deltaSumPlan deltaSumRule deltaSums 1 (str "1") 0 (attachedAt 0)).1

def sumSample (tsMs : Nat) : AggregatorCall (SumWrapper Float64 UInt64) :=
  .observe ∅ (Float64.ofInt 1) tsMs none (.stored _) (.stored _)

/-- The first frame is whole. Then a sample beyond the window closes it, its delta waits, and by the next
flush a checkpoint is due. -/
def earlyClose : List (AggregatorCall (SumWrapper Float64 UInt64)) :=
  [sumSample 5, .flush 1000 (attachedAt 1000), sumSample 12, sumSample 25, .flush 2500 (attachedAt 2500)]

def FlushResult.isRefused : FlushResult → Bool
  | .refused => true
  | _ => false

theorem early_close_refused :
    Processor.New deltaSumAggregator ∧ (earlyClose.flatMap AggregatorCall.readings).Pairwise (· ≤ ·) ∧
      ∃ r ∈ boundSums.results floatSum earlyClose, r = .refused := by
  refine ⟨⟨rfl, rfl, rfl, rfl, rfl, rfl, rfl⟩, by decide, ?_⟩
  have hany : (boundSums.results floatSum earlyClose).any FlushResult.isRefused = true := by decide +kernel
  obtain ⟨r, hr, href⟩ := any_eq_true.mp hany
  cases r with
  | refused => exact ⟨.refused, hr, rfl⟩
  | nothing => cases href
  | sent envs => cases href

/-- Where every series has something to serialize, nothing depends on its base. -/
theorem attachable_of_all {cadence : UInt64} {sa : SketchAggregator (SumWrapper Float64 UInt64)}
    {nowMS attachMS : UInt64}
    (h : (sa.checkpointDue nowMS = false → attachMS.toNat < sa.checkpointAtMS.toNat + cadence.toNat) ∧
      (sa.pc.window.initialized = true →
        sa.pc.window.activeStartMs < sa.pc.window.activeEndMs ∧ sa.pc.window.activeEndMs * 1000000 < 2 ^ 64) ∧
      (∀ src ∈ sa.pc.window.series.pairs, floatSum.snapshot (applyGosMode floatSum src.2.sketch sa.pcfg) ≠ .ok none) ∧
      sa.attached.length + sa.pc.window.series.len < 2 ^ 64) : Attachable floatSum cadence sa nowMS attachMS :=
  ⟨h.1, h.2.1, fun _ key entry he _ => h.2.2.1 (key, entry) (mem_pairs.mpr he), h.2.2.2⟩

def withinCadence : List (AggregatorCall (SumWrapper Float64 UInt64)) :=
  [sumSample 5, .flush 1000 (attachedAt 1001), sumSample 12, .emitSubWindow 1200 (attachedAt 1200), sumSample 13,
    .flush 1500 (attachedAt 1600), sumSample 21, .flush 2500 (attachedAt 2500)]

theorem bound_flushes_accepted_within_cadence :
    (∀ r ∈ boundSums.results floatSum withinCadence, r ≠ .refused) ∧
      (boundSums.call floatSum (sumSample 5)).1.pc.window.series.len = 1 :=
  ⟨bound_flushes_accepted floatSum deltaSumAggregator_provenance rfl rfl
    (show deltaSumRule.fullCheckpointEveryMS = some 1000 from rfl) rfl (by decide +kernel) (by decide) rfl rfl
    (by decide +kernel) rfl 1 0 (attachedAt 0) withinCadence (by decide +kernel)
    (by unfold KeysIdentify; decide +kernel)
    ⟨nofun, attachable_of_all (by decide +kernel), fun _ => by decide +kernel, attachable_of_all (by decide +kernel),
      fun _ => by decide +kernel, attachable_of_all (by decide +kernel), fun _ => by decide +kernel,
      attachable_of_all (by decide +kernel), trivial⟩, by decide +kernel⟩

end SketchAggregator

end Edge

end AsapCollector
