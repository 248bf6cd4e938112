import AsapCollector.Sdk.Interleaved
import AsapCollector.Theorems.Sdk.PointIdentity

/-! `Annotate` writes ids through the pointers of points whose structs may meanwhile belong to other series. With fresh
metric data it is known exactly when it hits such a struct. -/

namespace AsapCollector

open Aggregator List Session SeriesStruct

namespace SourceState

open SourceState

variable {s : SourceState} {P : Bytes → Nat → Prop}

theorem Sound.idOf (h : s.Sound P) {key : Bytes} (hne : s.idOf key ≠ 0) : P key (s.idOf key) := by
  unfold SourceState.idOf at hne ⊢
  cases hlookup : s.entries.lookup key with
  | none => simp [hlookup] at hne
  | some entry =>
    rw [hlookup] at hne
    by_cases hreg : entry.registered = true
    · simp only [hreg, if_true]
      exact h key entry hlookup hreg
    · simp [hreg] at hne

theorem idOf_insert {nextID : Nat} {key : Bytes} {entry : SeriesEntry} :
    (⟨nextID, s.entries.insert key entry⟩ : SourceState).idOf key = if entry.registered then entry.id else 0 := by
  simp [idOf]

theorem idOf_insert_of_ne {nextID : Nat} {key key' : Bytes} {entry : SeriesEntry} (hkey : key' ≠ key) :
    (⟨nextID, s.entries.insert key entry⟩ : SourceState).idOf key' = s.idOf key' := by
  simp [idOf, AList.lookup_insert_ne hkey]

theorem idOf_lookup (s : SourceState) (key : Bytes) (gen : Nat) :
    (∀ key', (s.lookup key gen).1.idOf key' = s.idOf key') ∧
      (if (s.lookup key gen).2.registered then (s.lookup key gen).2.id else 0) = s.idOf key := by
  have hid : (if (s.lookup key gen).2.registered then (s.lookup key gen).2.id else 0) = s.idOf key := by
    rcases lookup_cases s key gen with ⟨entry, hentry, heq⟩ | ⟨hnone, heq⟩
    · simp [heq, idOf, hentry]
    · simp [heq, idOf, hnone]
  refine ⟨fun key' => ?_, hid⟩
  by_cases hkey : key' = key
  · subst hkey
    rw [← hid]
    rcases lookup_cases s key' gen with ⟨entry, hentry, heq⟩ | ⟨hnone, heq⟩
    · rw [heq, idOf_insert]
    · rw [heq, idOf_insert]
  · rcases lookup_cases s key gen with ⟨entry, hentry, heq⟩ | ⟨hnone, heq⟩
    · rw [heq, idOf_insert_of_ne hkey]
    · rw [heq, idOf_insert_of_ne hkey]

theorem assignSeriesID_eq {descriptor : Attributes → Bytes} {gen : Nat} {dp : DataPoint} (hdp : dp.seriesID = 0) :
    ∃ s' attrs, s.assignSeriesID descriptor gen dp =
        (s', { dp with seriesID := s.idOf (descriptor dp.attributes), attributes := attrs }) ∧
      ∀ key, s'.idOf key = s.idOf key := by
  obtain ⟨hkeep, hid⟩ := idOf_lookup s (descriptor dp.attributes) gen
  unfold assignSeriesID
  rw [if_neg (not_not.mpr hdp)]
  by_cases hreg : (s.lookup (descriptor dp.attributes) gen).2.registered = true
  · simp only [hreg, if_true] at hid ⊢
    exact ⟨_, [], by rw [hid], hkeep⟩
  · simp only [hreg, if_false, Bool.false_eq_true] at hid ⊢
    refine ⟨_, dp.attributes, ?_, hkeep⟩
    rw [← hid, ← hdp]

end SourceState

/-- A point as a collection leaves it in fresh metric data: an id, or the attributes and the struct to write
the id into. -/
def FreshPoint (p : Attributes × DataPoint) : Prop :=
  (∃ id, id ≠ 0 ∧ p.2 = { seriesID := id }) ∨ ∃ r, p.2 = ⟨0, p.1, some r, some r⟩

def SeriesStruct.written (series : SeriesStruct) (id : Nat) : SeriesStruct :=
  { series with seriesID := id, attrs := if id = 0 then series.attrs else [] }

section
variable (descriptor : Attributes → Bytes) (gen : Nat) (s : SourceState) (heap : SeriesHeap)

theorem annotatePoint_fresh {p : Attributes × DataPoint} (hp : FreshPoint p) :
    (∀ key, (annotatePoint descriptor gen s heap p.2).1.idOf key = s.idOf key) ∧
      ∀ q, (annotatePoint descriptor gen s heap p.2).2.1 q =
        if p.2.seriesIDSink = some q then (heap q).written (s.idOf (descriptor p.1)) else heap q := by
  rcases hp with ⟨id, hid, hdp⟩ | ⟨r, hdp⟩
  · have hpoint : annotatePoint descriptor gen s ({ heap := heap } : Aggregator).heap p.2 = (s, heap, p.2) := by
      rw [hdp]
      exact annotatePoint_of_registered rfl hid
    rw [hpoint]
    refine ⟨fun key => rfl, fun q => ?_⟩
    rw [hdp, if_neg nofun]
  · obtain ⟨s', attrs, hassign, hkeep⟩ :=
      @SourceState.assignSeriesID_eq s descriptor gen ⟨0, p.1, some r, some r⟩ rfl
    have hpoint : annotatePoint descriptor gen s ({ heap := heap } : Aggregator).heap _ = _ :=
      annotatePoint_of_sink rfl rfl hassign
    rw [hdp, hpoint]
    refine ⟨hkeep, fun q => ?_⟩
    by_cases hq : r = q
    · subst hq
      simp [identified, written]
    · simp [identified, hq, Ne.symm hq]

theorem annotatePoints_fresh (points : List (Attributes × DataPoint)) (hfresh : ∀ p ∈ points, FreshPoint p)
    (hdistinct : points.Pairwise fun p q => ∀ r, p.2.seriesIDSink = some r → q.2.seriesIDSink ≠ some r) (q : Nat) :
    ((∀ p ∈ points, p.2.seriesIDSink ≠ some q) →
        (annotatePoints descriptor gen s heap (points.map Prod.snd)).2.1 q = heap q) ∧
      ∀ p ∈ points, p.2.seriesIDSink = some q →
        (annotatePoints descriptor gen s heap (points.map Prod.snd)).2.1 q = (heap q).written
          (s.idOf (descriptor p.1)) := by
  induction points generalizing s heap with
  | nil => exact ⟨fun _ => rfl, fun p hp => nomatch hp⟩
  | cons p points ih =>
    obtain ⟨hhead, htail⟩ := pairwise_cons.mp hdistinct
    obtain ⟨hkeep, hheap⟩ := annotatePoint_fresh descriptor gen s heap (hfresh p mem_cons_self)
    obtain ⟨hother, hown⟩ := ih (annotatePoint descriptor gen s heap p.2).1
      (annotatePoint descriptor gen s heap p.2).2.1 (fun p' hp' => hfresh p' (mem_cons_of_mem p hp')) htail
    have hrun : (annotatePoints descriptor gen s heap ((p :: points).map Prod.snd)).2.1 =
        (annotatePoints descriptor gen (annotatePoint descriptor gen s heap p.2).1
          (annotatePoint descriptor gen s heap p.2).2.1 (points.map Prod.snd)).2.1 := rfl
    rw [hrun]
    constructor
    · intro hnone
      rw [hother fun p' hp' => hnone p' (mem_cons_of_mem p hp'), hheap, if_neg (hnone p mem_cons_self)]
    · intro p' hp' hsink
      rcases mem_cons.mp hp' with rfl | hmem
      · rw [hother fun p'' hp'' => hhead p'' hp'' q hsink, hheap, if_pos hsink]
      · have hne : p.2.seriesIDSink ≠ some q := fun h => hhead p' hmem q h hsink
        rw [hown p' hmem hsink, hheap, if_neg hne, hkeep]

end

namespace Interleaved

variable {i : Instrument} {s : Interleaved}

structure Inv (i : Instrument) (s : Interleaved) : Prop where
  owns : Owns (i.Assigned s.assigned) s.agg
  known : s.dict.Sound (AssignedTo s.assigned)
  fresh : ∀ p ∈ s.pending, FreshPoint p
  distinct : s.pending.Pairwise fun p q => ∀ r, p.2.seriesIDSink = some r → q.2.seriesIDSink ≠ some r
  late : ∀ p ∈ s.pending, ∀ B r, p.2.seriesIDSink = some r → s.agg.values.lookup B = some r →
    (s.agg.heap r).seriesID = 0
  stays : i.temporality = .cumulative → ∀ p ∈ s.pending, ∀ r, p.2.seriesIDSink = some r →
    s.agg.values.lookup p.1 = some r

theorem Inv.init : Inv i {} where
  owns := Owns.empty
  known := Dictionary.Sound.empty
  fresh _ hp := nomatch hp
  distinct := .nil
  late _ hp := nomatch hp
  stays _ _ hp := nomatch hp

theorem Inv.owned (h : Inv i s) : s.Owned i := by
  rintro ⟨A, r⟩ hlive
  have hA := GoMap.mem_pairs.mp hlive
  by_cases hid : (s.agg.heap r).seriesID = 0
  · exact .inl ⟨h.owns.unregistered hA hid, hid⟩
  · exact .inr (h.owns.registered hA hid)

theorem Inv.annotated (h : Inv i s) (q : Nat) :
    ((∀ p ∈ s.pending, p.2.seriesIDSink ≠ some q) → (s.annotated i).2.1 q = s.agg.heap q) ∧
      ∀ p ∈ s.pending, p.2.seriesIDSink = some q → (s.annotated i).2.1 q = (s.agg.heap q).written (s.nextID i p) :=
  annotatePoints_fresh i.descriptor (s.dict.generation + 1) (s.dict.sources.get {} i.resourceKey) s.agg.heap s.pending
    h.fresh h.distinct q

theorem Inv.measure (h : Inv i s) (m : Measurement) : Inv i (s.step i (.measure m)) where
  owns := h.owns.measure m
  known := h.known
  fresh := h.fresh
  distinct := h.distinct
  late p hp B r hsink hB := by
    rcases live_measure hB with ⟨hB', hid⟩ | hid
    · exact hid.trans (h.late p hp B r hsink hB')
    · exact hid
  stays ht p hp r hsink := lookup_measure (h.stays ht p hp r hsink)

theorem mem_points {input : CollectInput} {p : Attributes × DataPoint} (hp : p ∈ s.points i input) :
    ∃ r, s.agg.values.lookup p.1 = some r ∧ p.2 = exportDataPoint (s.agg.heap r) r {} ∧
      (i.temporality = .cumulative → (s.agg.heap r).measuredSince = true) := by
  obtain ⟨⟨A, r⟩, he, rfl⟩ := mem_map.mp hp
  obtain ⟨hrange, hexports⟩ := mem_filter.mp he
  refine ⟨r, GoMap.mem_range.mp hrange, rfl, fun ht => ?_⟩
  simp only [exports, ht, Bool.and_eq_true, Bool.or_eq_true] at hexports
  simpa using hexports.1.1

theorem sink_exportDataPoint {series : SeriesStruct} {r q : Nat}
    (h : (exportDataPoint series r {}).seriesIDSink = some q) : series.seriesID = 0 ∧ r = q := by
  unfold exportDataPoint at h
  split at h
  · cases h
  · next hid => exact ⟨not_not.mp hid, Option.some.inj h⟩

section
variable (h : Inv i s)
include h

theorem Inv.collect (input : CollectInput) : Inv i (s.step i (.collect input)) where
  owns := h.owns.collected i.temporality
  known := h.known
  fresh p hp := by
    obtain ⟨r, hlive, hpoint, -⟩ := mem_points hp
    by_cases hid : (s.agg.heap r).seriesID = 0
    · refine .inr ⟨r, ?_⟩
      rw [hpoint, exportDataPoint, if_neg (not_not.mpr hid), h.owns.unregistered hlive hid]
    · refine .inl ⟨_, hid, ?_⟩
      rw [hpoint, exportDataPoint, if_pos hid]
  distinct := by
    have hkeys : ((s.agg.exported i.family i.temporality input).map Prod.fst).Nodup :=
      (GoMap.nodup_keys_range _ _).sublist (filter_sublist.map _)
    refine pairwise_map.mpr ((pairwise_map.mp hkeys).imp_of_mem fun {e e'} he he' hne r hsink hsink' => hne ?_)
    obtain ⟨-, hr⟩ := sink_exportDataPoint hsink
    obtain ⟨-, hr'⟩ := sink_exportDataPoint hsink'
    have hlive : s.agg.values.lookup e.1 = some e.2 := GoMap.mem_range.mp (mem_filter.mp he).1
    have hlive' : s.agg.values.lookup e'.1 = some e'.2 := GoMap.mem_range.mp (mem_filter.mp he').1
    exact h.owns.injective (hr ▸ hlive) (hr' ▸ hlive')
  late p hp B r hsink hB := by
    obtain ⟨q, -, hpoint, -⟩ := mem_points hp
    rw [hpoint] at hsink
    obtain ⟨hid, rfl⟩ := sink_exportDataPoint hsink
    exact (live_collected hB).2.trans hid
  stays ht p hp r hsink := by
    obtain ⟨q, hlive, hpoint, hmeasured⟩ := mem_points hp
    rw [hpoint] at hsink
    obtain ⟨-, rfl⟩ := sink_exportDataPoint hsink
    have hcollected : s.agg.collected i.temporality = s.agg.cumulativeDone := by rw [ht]; rfl
    change (s.agg.collected i.temporality).values.lookup p.1 = some q
    rw [hcollected]
    exact lookup_cumulativeDone_of_measured hlive (hmeasured ht)

theorem Inv.assigned_nextID (hclean : s.CleanStep i .annotate) {p : Attributes × DataPoint}
    (hp : p ∈ s.pending) {B : Attributes} {q : Nat} (hB : s.agg.values.lookup B = some q)
    (hsink : p.2.seriesIDSink = some q) (hne : s.nextID i p ≠ 0) : i.Assigned s.assigned B (s.nextID i p) := by
  cases ht : i.temporality with
  | delta => exact (hclean ht p hp (B, q) (GoMap.mem_pairs.mpr hB) hsink).resolve_left hne
  | cumulative =>
    obtain rfl := h.owns.injective hB (h.stays ht p hp q hsink)
    exact (h.known i.resourceKey).idOf hne

theorem Inv.annotate (hclean : s.CleanStep i .annotate) : Inv i (s.step i .annotate) where
  owns := by
    refine { h.owns with unregistered := ?_, registered := ?_ }
    · intro B q hB hid
      obtain ⟨hother, hown⟩ := h.annotated q
      by_cases hsink : ∃ p ∈ s.pending, p.2.seriesIDSink = some q
      · obtain ⟨p, hp, hsink⟩ := hsink
        simp only [step, hown p hp hsink, written] at hid ⊢
        rw [if_pos hid]
        exact h.owns.unregistered hB (h.late p hp B q hsink hB)
      · have hsame := hother fun p hp hq => hsink ⟨p, hp, hq⟩
        simp only [step, hsame] at hid ⊢
        exact h.owns.unregistered hB hid
    · intro B q hB hid
      obtain ⟨hother, hown⟩ := h.annotated q
      by_cases hsink : ∃ p ∈ s.pending, p.2.seriesIDSink = some q
      · obtain ⟨p, hp, hsink⟩ := hsink
        simp only [step, hown p hp hsink, written] at hid ⊢
        exact h.assigned_nextID hclean hp hB hsink hid
      · have hsame := hother fun p hp hq => hsink ⟨p, hp, hq⟩
        simp only [step, hsame] at hid ⊢
        exact h.owns.registered hB hid
  known := h.known.annotate _ _ _ _
  fresh _ hp := nomatch hp
  distinct := .nil
  late _ hp := nomatch hp
  stays _ _ hp := nomatch hp

theorem Inv.apply (as : List Assignment) : Inv i (s.step i (.apply as)) where
  owns := h.owns.mono fun _ _ => AssignedTo.append
  known := (h.known.mono fun _ _ _ => AssignedTo.append).apply as fun a ha =>
    ⟨a, mem_append_left _ ha, rfl, rfl, rfl⟩
  fresh := h.fresh
  distinct := h.distinct
  late := h.late
  stays := h.stays

theorem Inv.step {op : ReaderOp} (hclean : s.CleanStep i op) : Inv i (s.step i op) := by
  cases op with
  | measure m => exact h.measure m
  | collect input => exact h.collect input
  | annotate => exact h.annotate hclean
  | apply as => exact h.apply as

theorem Inv.cleanStep {op : ReaderOp} (howned : (s.step i op).Owned i) : s.CleanStep i op := by
  cases op with
  | measure m => exact trivial
  | collect input => exact trivial
  | apply as => exact trivial
  | annotate =>
    intro _ p hp live hlive hsink
    have hwritten := (h.annotated live.2).2 p hp hsink
    rcases howned live hlive with ⟨-, hid⟩ | hassigned
    · left
      simpa only [Interleaved.step, hwritten, written] using hid
    · right
      simpa only [Interleaved.step, hwritten, written] using hassigned

end

theorem owned_iff_clean_of_inv (ops : List ReaderOp) :
    ∀ {s : Interleaved}, Inv i s → ((∀ before, before <+: ops → (s.run i before).Owned i) ↔ s.Clean i ops) := by
  induction ops with
  | nil =>
    intro s h
    refine iff_of_true (fun before hbefore => ?_) trivial
    rw [prefix_nil.mp hbefore]
    exact h.owned
  | cons op ops ih =>
    intro s h
    constructor
    · intro howned
      have hclean : s.CleanStep i op := h.cleanStep (howned [op] (prefix_cons_inj op |>.mpr nil_prefix))
      refine ⟨hclean, (ih (h.step hclean)).mp fun before hbefore => ?_⟩
      exact howned (op :: before) ((prefix_cons_inj op).mpr hbefore)
    · rintro ⟨hclean, hrest⟩ before hbefore
      cases before with
      | nil => exact h.owned
      | cons op' before =>
        obtain ⟨rfl, htail⟩ := cons_prefix_cons.mp hbefore
        exact (ih (h.step hclean)).mpr hrest before htail

/-- Whatever is measured between the reader's steps, the live structs stay with their series through a whole run
exactly when no delta point writes an id into a struct that has become another series' own. -/
theorem owned_iff_clean (i : Instrument) (ops : List ReaderOp) :
    (∀ before, before <+: ops → (run i {} before).Owned i) ↔ Clean i {} ops :=
  owned_iff_clean_of_inv ops Inv.init

/-- A measurement of a host, whose new series takes a struct from the pool if it is there. -/
def measureHost (host : String) (pick : Option Nat) : ReaderOp :=
  .measure { attrs := hostAttrs host, limited := hostAttrs host, pick := pick }

/-- Host `a` is registered under id 7; then `b` is measured between a collection of `a` and its annotation. -/
def lateRun : List ReaderOp :=
  [measureHost "a" none, .collect ⟨.stored _, fun _ => true⟩, .annotate,
    .apply [⟨str "service.name=api|", str "meter", str "latency", str "DDSketch",
      attributesFingerprint (hostAttrs "a"), 7⟩],
    measureHost "a" (some 0), .collect ⟨.stored _, fun _ => true⟩, measureHost "b" (some 0), .annotate]

/-- The struct of host `b` has got the id of host `a`, and no attributes. -/
theorem late_id_hits_new_series :
    (run (sampleInstrument .delta) {} lateRun).agg.values.pairs = [(hostAttrs "b", 0)] ∧
      ((run (sampleInstrument .delta) {} lateRun).agg.heap 0).seriesID = 7 ∧
      ((run (sampleInstrument .delta) {} lateRun).agg.heap 0).attrs = [] ∧
      ¬(run (sampleInstrument .delta) {} lateRun).Owned (sampleInstrument .delta) := by
  decide

end Interleaved

end AsapCollector
