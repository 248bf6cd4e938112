import AsapCollector.Lib.ByKey
import AsapCollector.Theorems.Precompute.Run

/-! Every observation that is taken is counted in the one entry of its series and window. -/

namespace AsapCollector.Precompute

open List Event WindowState History

variable {σ : Type} {F : SketchImpl σ} {cfg : PrecomputeConfig} {G : Guard σ} {key : Bytes}

def Event.closedAt? : Event σ → Option Nat
  | .closed _ startMs _ => some startMs
  | .emitted _ _ _ => none

def Event.sent : Event σ → Nat
  | .closed _ _ _ => 0
  | .emitted _ _ env => env.count

namespace Lane

def takenAt (l : Lane σ) (startMs : Nat) : Nat := l.accepted.countP fun a => a.startMs = startMs

structure Tally (cfg : PrecomputeConfig) (key : Bytes) (l : Lane σ) : Prop where
  key : ∀ a ∈ l.accepted, a.key = key ∧ cfg.seriesKeyFor a.obs = key
  range : ∀ a ∈ l.accepted, a.startMs ≤ a.obs.timestampMs + cfg.latenessMs ∧
    a.obs.timestampMs < a.startMs + cfg.windowSizeMs
  started : ∀ a ∈ l.accepted, a.startMs < l.startMs ∨ a.startMs = l.startMs ∧ l.live.isSome = true
  live : ∀ e, l.live = some e → e.count = l.takenAt l.startMs
  closed : ∀ e s t, closed e s t ∈ l.log → s < l.startMs ∧ t = s + cfg.windowSizeMs ∧ e.count = l.takenAt s
  covered : ∀ a ∈ l.accepted, a.startMs < l.startMs → ∃ e t, Event.closed e a.startMs t ∈ l.log
  distinct : (l.log.filterMap closedAt?).Nodup

theorem Tally.new : Tally cfg key ({} : Lane σ) where
  key _ h := nomatch h
  range _ h := nomatch h
  started _ h := nomatch h
  live _ h := nomatch h
  closed _ _ _ h := nomatch h
  covered _ h := nomatch h
  distinct := nodup_nil

variable {l : Lane σ}

theorem Tally.takenAt_eq_zero (h : Tally cfg key l) (hlive : l.live = none) {startMs : Nat}
    (hs : l.startMs ≤ startMs) : l.takenAt startMs = 0 := by
  refine countP_eq_zero.mpr fun a ha hat => ?_
  have hat := of_decide_eq_true hat
  rcases h.started a ha with hlt | ⟨-, hsome⟩
  · omega
  · rw [hlive] at hsome
    cases hsome

theorem Tally.entryFor_count (h : Tally cfg key l) (obs : Observation) :
    (l.entryFor F cfg key obs).count = l.takenAt l.startMs := by
  unfold entryFor
  cases hl : l.live with
  | none => exact (h.takenAt_eq_zero hl (Nat.le_refl _)).symm
  | some e => exact h.live e hl

theorem recordedEntry_count (entry : SeriesEntry σ) (obs : Observation) :
    (recordedEntry F entry obs cfg).count =
      entry.count + if (F.observe entry.sketch obs.value).2 = none then 1 else 0 := by
  unfold recordedEntry
  dsimp only
  split <;> rename_i h <;> rw [h] <;> simp

theorem Tally.refused (h : Tally cfg key l) {obs : Observation} {text : String}
    (herr : (F.observe (l.entryFor F cfg key obs).sketch obs.value).2 = some text) :
    Tally cfg key (l.record F cfg key obs) where
  key := h.key
  range := h.range
  started a ha := (h.started a ha).imp id fun hs => ⟨hs.1, rfl⟩
  live e he := by
    cases he
    rw [recordedEntry_count, herr, if_neg nofun, Nat.add_zero]
    exact h.entryFor_count obs
  closed := h.closed
  covered := h.covered
  distinct := h.distinct

theorem takenAt_append (l : Lane σ) (live : Option (SeriesEntry σ)) (a : Acceptance) (startMs : Nat) :
    ({ l with live := live, accepted := l.accepted ++ [a] } : Lane σ).takenAt startMs =
      l.takenAt startMs + if a.startMs = startMs then 1 else 0 := by
  unfold takenAt
  simp

theorem Tally.accepted (h : Tally cfg key l) {obs : Observation} (hkey : cfg.seriesKeyFor obs = key)
    (hlate : l.startMs ≤ obs.timestampMs + cfg.latenessMs) (hend : obs.timestampMs < l.startMs + cfg.windowSizeMs)
    (hok : (F.observe (l.entryFor F cfg key obs).sketch obs.value).2 = none) :
    Tally cfg key { l.record F cfg key obs with accepted := l.accepted ++ [⟨key, l.startMs, obs⟩] } where
  key := forall_mem_append.mpr ⟨h.key, forall_mem_singleton.mpr ⟨rfl, hkey⟩⟩
  range := forall_mem_append.mpr ⟨h.range, forall_mem_singleton.mpr ⟨hlate, hend⟩⟩
  started := forall_mem_append.mpr ⟨fun a ha => (h.started a ha).imp id fun hs => ⟨hs.1, rfl⟩,
    forall_mem_singleton.mpr (Or.inr ⟨rfl, rfl⟩)⟩
  live e he := by
    cases he
    rw [recordedEntry_count, hok, if_pos rfl, h.entryFor_count obs]
    exact ((takenAt_append l _ ⟨key, l.startMs, obs⟩ l.startMs).trans (by rw [if_pos rfl])).symm
  closed e s t hev := by
    obtain ⟨hs, ht, hcount⟩ := h.closed e s t hev
    refine ⟨hs, ht, hcount.trans ?_⟩
    exact ((takenAt_append l _ ⟨key, l.startMs, obs⟩ s).trans
      (by rw [if_neg (by dsimp only; omega), Nat.add_zero])).symm
  covered := forall_mem_append.mpr ⟨h.covered, forall_mem_singleton.mpr fun hlt => absurd hlt (Nat.lt_irrefl _)⟩
  distinct := h.distinct

variable {entry : SeriesEntry σ}

theorem closed_mem_boundaryEvents {e : SeriesEntry σ} {startMs endMs s t : Nat} {payload : Option (Bytes × Bool)}
    (h : closed e s t ∈ boundaryEvents F cfg entry startMs endMs payload) : e = entry ∧ s = startMs ∧ t = endMs := by
  rcases mem_cons.mp h with heq | h
  · cases heq
    exact ⟨rfl, rfl, rfl⟩
  · obtain ⟨env, -, hev⟩ := Option.map_eq_some_iff.mp (Option.mem_toList.mp h)
    cases hev

theorem closedAt_boundaryEvents (entry : SeriesEntry σ) (startMs endMs : Nat) (payload : Option (Bytes × Bool)) :
    (boundaryEvents F cfg entry startMs endMs payload).filterMap closedAt? = [startMs] := by
  cases payload <;> rfl

theorem Tally.close (h : Tally cfg key l) {next : Nat} (hlive : l.live = some entry) (hnext : l.startMs < next) :
    Tally cfg key (l.close F cfg entry next) where
  key := h.key
  range := h.range
  started a ha := Or.inl (by
    rcases h.started a ha with hlt | ⟨heq, -⟩
    · exact hlt.trans hnext
    · exact heq ▸ hnext)
  live _ he := nomatch he
  closed e s t hev := by
    rcases mem_append.mp hev with hev | hev
    · obtain ⟨hs, ht, hcount⟩ := h.closed e s t hev
      exact ⟨hs.trans hnext, ht, hcount⟩
    · obtain ⟨rfl, rfl, rfl⟩ := closed_mem_boundaryEvents hev
      exact ⟨hnext, rfl, h.live e hlive⟩
  covered a ha _ := by
    rcases h.started a ha with hlt | ⟨heq, -⟩
    · obtain ⟨e, t, hev⟩ := h.covered a ha hlt
      exact ⟨e, t, mem_append_left _ hev⟩
    · exact ⟨entry, _, mem_append_right _ (by rw [heq]; exact mem_cons_self)⟩
  distinct := by
    show ((l.log ++ _).filterMap _).Nodup
    rw [filterMap_append, closedAt_boundaryEvents]
    refine Nodup.append h.distinct (nodup_singleton _) fun s hs hs' => ?_
    cases mem_singleton.mp hs'
    obtain ⟨ev, hev, heq⟩ := mem_filterMap.mp hs
    cases ev with
    | closed e s t =>
      cases heq
      exact absurd (h.closed e _ t hev).1 (Nat.lt_irrefl _)
    | emitted _ _ _ => cases heq

theorem emit_frame (l : Lane σ) (entry : SeriesEntry σ) :
    (l.emit F cfg entry).startMs = l.startMs ∧ (l.emit F cfg entry).accepted = l.accepted ∧
      (∃ e, (l.emit F cfg entry).live = some e ∧ e.count = entry.count) ∧
      ∃ evs, (l.emit F cfg entry).log = l.log ++ evs ∧ ∀ e s t, closed e s t ∉ evs := by
  unfold emit
  split
  · exact ⟨rfl, rfl, ⟨_, rfl, rfl⟩, [], (append_nil _).symm, nofun⟩
  · exact ⟨rfl, rfl, ⟨_, rfl, (afterEmit_frame _).2.2.2⟩, _, rfl, fun _ _ _ h => nomatch mem_singleton.mp h⟩

theorem closedAt_eq_nil {evs : List (Event σ)} (h : ∀ e s t, closed e s t ∉ evs) :
    evs.filterMap closedAt? = [] := by
  rw [filterMap_eq_nil_iff]
  intro ev hev
  cases ev with
  | closed e s t => exact absurd hev (h e s t)
  | emitted _ _ _ => rfl

theorem Tally.emit (h : Tally cfg key l) (hlive : l.live = some entry) : Tally cfg key (l.emit F cfg entry) := by
  obtain ⟨hstart, hacc, ⟨e', hlive', hcount⟩, evs, hlog, hevs⟩ := @emit_frame σ F cfg l entry
  have htaken : ∀ s, (l.emit F cfg entry).takenAt s = l.takenAt s := fun s => by rw [takenAt, hacc, takenAt]
  refine ⟨hacc ▸ h.key, hacc ▸ h.range, ?_, ?_, ?_, ?_, ?_⟩
  · rw [hacc, hstart, hlive']
    exact fun a ha => (h.started a ha).imp id fun hs => ⟨hs.1, rfl⟩
  · intro e he
    rw [hlive'] at he
    cases he
    rw [htaken, hstart, hcount, h.live entry hlive]
  · intro e s t hev
    rw [hlog] at hev
    rw [htaken, hstart]
    exact h.closed e s t ((mem_append.mp hev).resolve_right (hevs e s t))
  · intro a ha hlt
    rw [hacc] at ha
    rw [hstart] at hlt
    obtain ⟨e, t, hev⟩ := h.covered a ha hlt
    exact ⟨e, t, by rw [hlog]; exact mem_append_left _ hev⟩
  · rw [hlog, filterMap_append, closedAt_eq_nil hevs, append_nil]
    exact h.distinct

theorem Tally.pass (h : Tally cfg key l) {next : Nat} (hlive : l.live = none) (hnext : l.startMs ≤ next) :
    Tally cfg key { l with startMs := next } := by
  have hlt : ∀ a ∈ l.accepted, a.startMs < l.startMs := fun a ha =>
    (h.started a ha).resolve_right fun hs => by rw [hlive] at hs; cases hs.2
  refine ⟨h.key, h.range, fun a ha => Or.inl ((hlt a ha).trans_le hnext), fun e he => ?_, fun e s t hev => ?_,
    fun a ha _ => h.covered a ha (hlt a ha), h.distinct⟩
  · rw [show l.live = some e from he] at hlive
    cases hlive
  · obtain ⟨hs, ht, hcount⟩ := h.closed e s t hev
    exact ⟨hs.trans_le hnext, ht, hcount⟩

theorem Tally.step {l l' : Lane σ} (hs : Step F cfg G key l l') (h : Tally cfg key l) : Tally cfg key l' := by
  cases hs with
  | accept obs hkey _ hlate hend hok => exact h.accepted hkey hlate hend hok
  | refuse obs _ text herr => exact h.refused herr
  | emit entry hlive _ _ _ => exact h.emit hlive
  | close entry next hlive hnext _ => exact h.close hlive hnext
  | pass next hlive hnext => exact h.pass hlive hnext
  | forget _ => exact ⟨h.key, h.range, h.started, h.live, h.closed, h.covered, h.distinct⟩

/-! ### Conservation -/

def held (l : Lane σ) : Nat := (l.live.map SeriesEntry.count).getD 0

def Conserved (l : Lane σ) : Prop := l.accepted.length = (l.log.map sent).sum + l.held

theorem sent_boundaryEvents (hfull : cfg.deltaTransmission = false) (hsnap : ∀ s, ∃ b, F.snapshot s = .ok (some b))
    (base : Option Bytes) (entry : SeriesEntry σ) (startMs endMs : Nat) :
    ((boundaryEvents F cfg entry startMs endMs (boundaryDelta F cfg base entry.sketch).2).map sent).sum =
      entry.count := by
  obtain ⟨b, hb⟩ := hsnap entry.sketch
  unfold boundaryDelta
  rw [hfull, if_neg (by decide), hb]
  exact Nat.zero_add _

theorem Conserved.step (hfull : cfg.deltaTransmission = false) (hsnap : ∀ s, ∃ b, F.snapshot s = .ok (some b))
    {l l' : Lane σ} (hs : Step F cfg G key l l') (h : Conserved l) : Conserved l' := by
  have hentry : ∀ obs, (l.entryFor F cfg key obs).count = l.held := fun obs => by
    unfold entryFor held
    cases l.live <;> rfl
  unfold Conserved at h ⊢
  cases hs with
  | accept obs _ _ _ _ hok =>
    show (l.accepted ++ [_]).length = (l.log.map sent).sum + (recordedEntry F _ obs cfg).count
    rw [length_append, length_singleton, recordedEntry_count, hok, if_pos rfl, hentry]
    omega
  | refuse obs _ text herr =>
    show l.accepted.length = (l.log.map sent).sum + (recordedEntry F _ obs cfg).count
    rw [recordedEntry_count, herr, if_neg nofun, hentry]
    exact h
  | emit entry _ hdelta _ _ =>
    rw [hfull] at hdelta
    cases hdelta
  | close entry next hlive _ _ =>
    show l.accepted.length = ((l.log ++ boundaryEvents F cfg entry l.startMs _
      (boundaryDelta F cfg l.base entry.sketch).2).map sent).sum + 0
    have hheld : l.held = entry.count := by
      unfold held
      rw [hlive]
      rfl
    rw [map_append, sum_append, sent_boundaryEvents hfull hsnap, h, hheld, Nat.add_zero]
  | pass next hlive _ => exact h
  | forget hlive => exact h

end Lane

/-! ### The whole run -/

/-- What one series counts in one window. -/
structure Cell where
  key : Bytes
  startMs : Nat
  endMs : Nat
  count : Nat

def Event.cell? : Event σ → Option Cell
  | .closed entry startMs endMs => some ⟨entry.seriesKey, startMs, endMs, entry.count⟩
  | .emitted _ _ _ => none

/-- The entries of a run: those closed so far and those of the active window. -/
def History.cells (h : History σ) : List Cell :=
  h.p.window.log.filterMap cell? ++
    h.p.window.series.pairs.map fun e => ⟨e.1, h.p.window.activeStartMs, h.p.window.activeEndMs, e.2.count⟩

theorem nodup_of_nodup_snd {κ β : Type} [DecidableEq κ] :
    ∀ {l : List (κ × β)}, (∀ k, ((l.filter fun e => e.1 = k).map Prod.snd).Nodup) → l.Nodup
  | [], _ => nodup_nil
  | (k, b) :: l, h => by
    have hk := h k
    rw [filter_cons_of_pos (by exact decide_eq_true rfl), map_cons, nodup_cons] at hk
    refine nodup_cons.mpr ⟨fun hmem => hk.1 ?_, nodup_of_nodup_snd fun k' => ?_⟩
    · exact mem_map.mpr ⟨(k, b), mem_filter.mpr ⟨hmem, decide_eq_true rfl⟩, rfl⟩
    · exact (h k').sublist ((sublist_cons_self _ _).filter _ |>.map _)

theorem closed_cells_of_key (k : Bytes) : ∀ log : List (Event σ),
    ((((log.filterMap cell?).map fun c => (c.key, c.startMs)).filter fun e => e.1 = k).map Prod.snd) =
      (log.filter fun ev => ev.key = k).filterMap closedAt?
  | [] => rfl
  | .emitted _ entry _ :: log => by
    have ih := closed_cells_of_key k log
    rw [filterMap_cons_none (by rfl), ih]
    by_cases hk : entry.seriesKey = k
    · rw [filter_cons_of_pos (by exact decide_eq_true hk), filterMap_cons_none (by rfl)]
    · rw [filter_cons_of_neg (by exact fun h => hk (of_decide_eq_true h))]
  | .closed entry s t :: log => by
    have ih := closed_cells_of_key k log
    rw [filterMap_cons_some (by rfl), map_cons]
    by_cases hk : entry.seriesKey = k
    · rw [filter_cons_of_pos (by exact decide_eq_true hk), filter_cons_of_pos (by exact decide_eq_true hk),
        map_cons, filterMap_cons_some (by rfl), ih]
    · rw [filter_cons_of_neg (by exact fun h => hk (of_decide_eq_true h)),
        filter_cons_of_neg (by exact fun h => hk (of_decide_eq_true h)), ih]

section
variable {h : History σ}

theorem mem_lane_accepted {a : Acceptance} (ha : a ∈ h.accepted) : a ∈ (h.lane a.key).accepted :=
  mem_filter.mpr ⟨ha, decide_eq_true rfl⟩

theorem takenAt_lane (key : Bytes) (startMs : Nat) :
    (h.lane key).takenAt startMs = h.accepted.countP fun a => a.key = key ∧ a.startMs = startMs := by
  show (h.accepted.filter _).countP _ = _
  rw [countP_filter]
  simp [and_comm]

theorem mem_closed_cells {c : Cell} (hc : c ∈ h.p.window.log.filterMap cell?) :
    ∃ e, closed e c.startMs c.endMs ∈ (h.lane c.key).log ∧ c.count = e.count := by
  obtain ⟨ev, hev, heq⟩ := mem_filterMap.mp hc
  cases ev with
  | closed e s t =>
    cases heq
    exact ⟨e, mem_filter.mpr ⟨hev, decide_eq_true rfl⟩, rfl⟩
  | emitted _ _ _ => cases heq

variable (hT : ∀ key, Lane.Tally cfg key (h.lane key))
include hT

theorem cells_distinct : (h.cells.map fun c => (c.key, c.startMs)).Nodup := by
  unfold cells
  rw [map_append]
  refine Nodup.append ?_ ?_ ?_
  · refine nodup_of_nodup_snd fun k => ?_
    rw [closed_cells_of_key]
    exact (hT k).distinct
  · rw [map_map]
    have hnodup := GoMap.nodup_keys_range h.p.window.series (RangeOrder.stored _)
    exact (Nodup.of_map Prod.fst (by rw [map_map]; exact hnodup))
  · rintro ⟨k, s⟩ hclosed hactive
    obtain ⟨c, hc, heq⟩ := mem_map.mp hclosed
    obtain ⟨rfl, rfl⟩ := Prod.mk.inj heq
    obtain ⟨e, hev, -⟩ := mem_closed_cells hc
    obtain ⟨c', hc', heq'⟩ := mem_map.mp hactive
    obtain ⟨e', -, rfl⟩ := mem_map.mp hc'
    have hlt := ((hT c.key).closed e _ _ hev).1
    have hs : h.p.window.activeStartMs = c.startMs := (Prod.mk.inj heq').2
    exact absurd hs (Nat.ne_of_gt hlt)

theorem cell_of_accepted {a : Acceptance} (ha : a ∈ h.accepted) :
    ∃ c ∈ h.cells, c.key = a.key ∧ c.startMs = a.startMs := by
  have ha' := mem_lane_accepted ha
  rcases (hT a.key).started a ha' with hlt | ⟨heq, hlive⟩
  · obtain ⟨e, t, hev⟩ := (hT a.key).covered a ha' hlt
    obtain ⟨hev, hkey⟩ := mem_filter.mp hev
    refine ⟨⟨e.seriesKey, a.startMs, t, e.count⟩, mem_append_left _ (mem_filterMap.mpr ⟨_, hev, rfl⟩), ?_, rfl⟩
    exact of_decide_eq_true hkey
  · obtain ⟨e, he⟩ := Option.isSome_iff_exists.mp hlive
    refine ⟨_, mem_append_right _ (mem_map.mpr ⟨(a.key, e), GoMap.mem_pairs.mpr he, rfl⟩), rfl, heq.symm⟩

theorem cell_count (halign : h.p.window.series ≠ ∅ → h.p.window.activeEndMs = h.p.window.activeStartMs +
    cfg.windowSizeMs) {c : Cell} (hc : c ∈ h.cells) :
    c.endMs = c.startMs + cfg.windowSizeMs ∧
      c.count = h.accepted.countP fun a => a.key = c.key ∧ a.startMs = c.startMs := by
  rcases mem_append.mp hc with hc | hc
  · obtain ⟨e, hev, hcount⟩ := mem_closed_cells hc
    obtain ⟨-, hend, htaken⟩ := (hT c.key).closed e _ _ hev
    exact ⟨hend, by rw [hcount, htaken, takenAt_lane]⟩
  · obtain ⟨⟨k, e⟩, he, rfl⟩ := mem_map.mp hc
    have hlookup := GoMap.mem_pairs.mp he
    refine ⟨halign fun hempty => ?_, ?_⟩
    · rw [hempty] at hlookup
      cases hlookup
    · rw [← takenAt_lane]
      exact (hT k).live e hlookup

end

theorem sum_sent (log : List (Event σ)) :
    (log.map sent).sum = ((log.filterMap envelope?).map SketchEnvelope.count).sum := by
  induction log with
  | nil => rfl
  | cons ev log ih =>
    cases ev with
    | closed e s t => rw [filterMap_cons_none (by rfl), map_cons, sum_cons, ih]; exact Nat.zero_add _
    | emitted c e env => rw [filterMap_cons_some (by rfl), map_cons, map_cons, sum_cons, sum_cons, ih]; rfl

theorem conserved_of_lanes {h : History σ} (hC : ∀ key, Lane.Conserved (h.lane key)) :
    h.accepted.length = (h.p.window.log.map sent).sum +
      (h.p.window.series.pairs.map fun e => e.2.count).sum := by
  let K : Finset Bytes := (h.accepted.map Acceptance.key ++ h.p.window.log.map key ++
    h.p.window.series.pairs.map Prod.fst).toFinset
  have hacc := sum_filter_key Acceptance.key (fun _ => 1) K h.accepted
    fun a ha => mem_toFinset.mpr (by simp [mem_map_of_mem ha])
  have hlog := sum_filter_key key sent K h.p.window.log
    fun ev hev => mem_toFinset.mpr (by simp [mem_map_of_mem hev])
  have hlive := sum_filter_key Prod.fst (fun e : Bytes × SeriesEntry σ => e.2.count) K h.p.window.series.pairs
    fun e he => mem_toFinset.mpr (by simp only [mem_append]; exact Or.inr (mem_map_of_mem he))
  have hheld : ∀ k, ((h.p.window.series.pairs.filter fun e => e.1 = k).map fun e => e.2.count).sum =
      (h.lane k).held := by
    intro k
    show (((h.p.window.series.range (.stored _)).filter fun e => e.1 = k).map fun e => e.2.count).sum =
      ((h.p.window.series.lookup k).map SeriesEntry.count).getD 0
    rw [GoMap.filter_range]
    cases h.p.window.series.lookup k <;> rfl
  calc h.accepted.length
      = (h.accepted.map fun _ => 1).sum := by simp
    _ = ∑ k ∈ K, (h.lane k).accepted.length := by
        rw [← hacc]
        exact Finset.sum_congr rfl fun k _ => by simp [lane, laneOf]
    _ = ∑ k ∈ K, (((h.lane k).log.map sent).sum + (h.lane k).held) := Finset.sum_congr rfl fun k _ => hC k
    _ = _ := by
        rw [Finset.sum_add_distrib, ← hlog, ← hlive, Finset.sum_congr rfl fun k _ => (hheld k).symm]
        rfl

theorem accepted_eq_verdicts (ht : Tumbling cfg) : ∀ (calls : List (Call σ)) {h : History σ}, Ready cfg h.p →
    h.accepted.map Acceptance.obs = (h.verdicts.filter fun v => v.2 = none ∧ cfg.admits v.1 = true).map Prod.fst →
    (h.run F calls).accepted.map Acceptance.obs =
      ((h.run F calls).verdicts.filter fun v => v.2 = none ∧ cfg.admits v.1 = true).map Prod.fst
  | [], _, _, heq => heq
  | c :: calls, h, hr, heq => by
    have hready := (hr.step (F := F) ht (Guard.met_free h.p c)).ready
    refine accepted_eq_verdicts ht calls hready ?_
    cases c with
    | observe obs scalar ω =>
      have hcfg : (observe F h.p obs ω).1.cfg = some cfg := hready.config
      dsimp only [step]
      generalize observe F h.p obs ω = r at hcfg ⊢
      obtain ⟨p, err⟩ := r
      rw [map_append, filter_append, map_append, heq]
      congr 1
      cases err with
      | some err => rw [acceptance_error]; simp
      | none =>
        rw [acceptance_none hcfg]
        cases hadm : cfg.admits obs <;> simp [hadm]
    | tick nowMs ω => exact heq
    | drain ω => exact heq
    | emitSubWindow nowMs ω => exact heq

/-! ### Sizes and lateness in milliseconds -/

theorem windowSizeMs_eq {size : Nat} (hsize : cfg.window.size = size * millisecond) (hpos : 1 ≤ size) :
    cfg.windowSizeMs = size := by
  have hms : (0 : Int) < millisecond := by decide
  unfold PrecomputeConfig.windowSizeMs durationIn
  rw [if_neg (by rw [hsize]; nlinarith), hsize, Int.mul_tdiv_cancel _ (by decide)]
  simp

theorem latenessMs_le (hlate : 0 ≤ cfg.window.allowedLateness) :
    (cfg.latenessMs : Int) * millisecond ≤ cfg.window.allowedLateness := by
  unfold PrecomputeConfig.latenessMs durationIn
  have hq : 0 ≤ cfg.window.allowedLateness.tdiv millisecond := Int.tdiv_nonneg hlate (by decide)
  rw [if_pos hq, Int.toNat_of_nonneg hq]
  have hle := Int.tdiv_mul_le cfg.window.allowedLateness (show millisecond ≠ 0 by decide)
  rw [if_pos hlate] at hle
  simpa using hle

/-! ### Placement and conservation -/

/-- Where the observations of a run are. `size` is in milliseconds; the lateness is that of the
configuration, in nanoseconds. -/
structure Placed (cfg : PrecomputeConfig) (size : Nat) (h : History σ) : Prop where
  aligned : h.p.window.initialized = true →
    size ∣ h.p.window.activeStartMs ∧ h.p.window.activeEndMs = h.p.window.activeStartMs + size
  verdict : ∀ v ∈ h.verdicts, cfg.admits v.1 = true → v.2 = none ∨ v.2 = some .lateData
  turnedAway : ∀ v ∈ h.verdicts, cfg.admits v.1 = false → v.2 = none
  taken : h.accepted.map Acceptance.obs =
    (h.verdicts.filter fun v => v.2 = none ∧ cfg.admits v.1 = true).map Prod.fst
  range : ∀ a ∈ h.accepted, a.key = cfg.seriesKeyFor a.obs ∧
    (a.startMs : Int) * millisecond - cfg.window.allowedLateness ≤ a.obs.timestampMs * millisecond ∧
    a.obs.timestampMs < a.startMs + size
  distinct : (h.cells.map fun c => (c.key, c.startMs)).Nodup
  counted : ∀ a ∈ h.accepted, ∃ c ∈ h.cells, c.key = a.key ∧ c.startMs = a.startMs
  count : ∀ c ∈ h.cells, c.endMs = c.startMs + size ∧
    c.count = h.accepted.countP fun a => a.key = c.key ∧ a.startMs = c.startMs
  conserved : h.accepted.length = (h.returned.map SketchEnvelope.count).sum +
    (h.p.pendingOutput.map SketchEnvelope.count).sum + (h.p.window.series.pairs.map fun e => e.2.count).sum

theorem sum_output {h : History σ} (ha : Advances F cfg G (start cfg) h) :
    (h.p.window.log.map sent).sum =
      (h.returned.map SketchEnvelope.count).sum + (h.p.pendingOutput.map SketchEnvelope.count).sum := by
  rw [sum_sent, ← (ha.output_perm.map SketchEnvelope.count).sum_eq, map_append, sum_append]

/-- For every sequence of calls under a tumbling configuration without a series cap, with whole states transmitted and
sketches that accept and serialize: an observation that passes the matchers is rejected as late or counted in the one
entry of its series and of a window around its timestamp, any other is dropped without an error, no count is lost on the
way out, and the windows are aligned and only move forward. -/
theorem tumbling_places_and_conserves (F : SketchImpl σ) (cfg : PrecomputeConfig) (size : Nat)
    (hmode : cfg.mode = .tumbling) (hsize : cfg.window.size = size * millisecond) (hpos : 1 ≤ size)
    (hlate : 0 ≤ cfg.window.allowedLateness) (huncapped : cfg.maxSeries = 0) (hvalid : cfg.validMatchers = true)
    (hfull : cfg.deltaTransmission = false) (hobserve : ∀ s v, (F.observe s v).2 = none)
    (hsnapshot : ∀ s, ∃ payload, F.snapshot s = .ok (some payload)) (calls : List (Call σ)) :
    Placed cfg size ((start cfg).run F calls) ∧
      ∀ pre, pre <+: calls → ((start cfg).run F pre).p.window.activeStartMs ≤
        ((History.start cfg).run F calls).p.window.activeStartMs := by
  have hms := windowSizeMs_eq hsize hpos
  have ht : Tumbling cfg := ⟨hmode, by omega, huncapped, hvalid⟩
  have ha := run_advances (F := F) ht calls
  have hT := fun key => lane_induction (F := F) ht key Lane.Tally.new (fun _ _ hs => Lane.Tally.step hs) calls
  have hC := fun key => lane_induction (F := F) (P := Lane.Conserved) ht key rfl
    (fun _ _ hs => Lane.Conserved.step hfull hsnapshot hs) calls
  have htaken := accepted_eq_verdicts (F := F) ht calls (ready_start ht) rfl
  refine ⟨?_, fun pre hpre => (run_extended ht hpre).start⟩
  generalize (start cfg).run F calls = h at ha hT hC htaken ⊢
  have hexplained : ∀ v ∈ h.verdicts, Explained F cfg v := by
    obtain ⟨vs, hvs, hall⟩ := ha.verdicts
    exact fun v hv => hall v (hvs ▸ hv : v ∈ [] ++ vs)
  refine ⟨?_, ?_, ?_, htaken, ?_, cells_distinct hT, fun a => cell_of_accepted hT, ?_, ?_⟩
  · rw [← hms]
    exact ha.ready.aligned
  · intro v hv hadmits
    have hcases := hexplained v hv
    rw [Explained, if_pos hadmits] at hcases
    rcases hcases with hnone | hl | ⟨s, text, herr, -⟩
    · exact Or.inl hnone
    · exact Or.inr hl
    · rw [hobserve] at herr
      cases herr
  · intro v hv hno
    have hcases := hexplained v hv
    rwa [Explained, if_neg (by rw [hno]; decide)] at hcases
  · intro a hmem
    obtain ⟨hstart, hend⟩ := (hT a.key).range a (mem_lane_accepted hmem)
    have hlateness := latenessMs_le hlate
    refine ⟨((hT a.key).key a (mem_lane_accepted hmem)).2.symm, ?_, hms ▸ hend⟩
    have hms : (0 : Int) < millisecond := by decide
    nlinarith
  · intro c hc
    rw [← hms]
    refine cell_count hT (fun hne => (ha.ready.aligned ?_).2) hc
    by_contra hi
    exact hne (ha.ready.blank (Bool.eq_false_iff.mpr hi)).1
  · rw [conserved_of_lanes hC, sum_output ha]

def counter : SketchImpl Nat where
  factory := 0
  observe n _ := (n + 1, none)
  snapshot n := .ok (some [UInt8.ofNat n])
  computeDeltaAgainst n _ _ := (n, .ok (some [UInt8.ofNat n], true))
  applyDelta n _ := (n, none)
  merge n m := (n + m, none)
  reset _ := 0

def tenMs : PrecomputeConfig where
  aggID := 7
  window := { size := 10 * millisecond }
  matchers := [⟨[], str "cpu", .equal, none⟩]

def sampleAt (metric : Bytes) (timestampMs : Nat) : Call Nat :=
  .observe { timestampMs, metric } rfl (.stored _)

/-- Two samples in a first window and one that is turned away, one that closes the window early, and one that is late
then. -/
def earlyClose : List (Call Nat) :=
  [sampleAt (str "cpu") 12, sampleAt (str "mem") 13, sampleAt (str "cpu") 15, sampleAt (str "cpu") 31,
    sampleAt (str "cpu") 14]

theorem tumbling_places_and_conserves_early_close :
    Placed tenMs 10 ((start tenMs).run counter earlyClose) ∧
      ((start tenMs).run counter earlyClose).p.pendingOutput.map SketchEnvelope.count = [2] :=
  ⟨(tumbling_places_and_conserves counter tenMs 10 rfl (by decide) (by decide) (by decide) rfl (by decide) rfl
    (fun _ _ => rfl) (fun _ => ⟨_, rfl⟩) earlyClose).1, by decide +kernel⟩

/-- A sample that the matchers turn away is neither rejected nor counted anywhere. -/
theorem unmatched_neither_late_nor_counted :
    ((start tenMs).run counter [sampleAt (str "mem") 12]).verdicts.map Prod.snd = [none] ∧
      ((start tenMs).run counter [sampleAt (str "mem") 12]).cells.length = 0 ∧
      ((start tenMs).run counter [sampleAt (str "mem") 12]).returned.length = 0 ∧
      ((start tenMs).run counter [sampleAt (str "mem") 12]).p.pendingOutput.length = 0 := by
  decide +kernel

end AsapCollector.Precompute
