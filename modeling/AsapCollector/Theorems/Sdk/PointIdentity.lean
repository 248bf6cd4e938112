import AsapCollector.Sdk.Session
import AsapCollector.Theorems.Sdk.Annotate

/-! `exportDataPoint` writes only some fields of a slot. As long as no slot holds an old id or an old pointer where it
would be taken for the new point's own (`Clean`), every point identifies the series it was made from. -/

namespace AsapCollector.Session

open Aggregator List

variable {i : Instrument} {s : Session}

def AssignedTo (assigned : List Assignment) (resourceKey key : Bytes) (id : Nat) : Prop :=
  ∃ a ∈ assigned, a.resourceKey = resourceKey ∧ a.descriptor = key ∧ a.seriesID = id

theorem AssignedTo.append {as bs : List Assignment} {resourceKey key : Bytes} {id : Nat}
    (h : AssignedTo as resourceKey key id) : AssignedTo (bs ++ as) resourceKey key id := by
  obtain ⟨a, ha, hrest⟩ := h
  exact ⟨a, mem_append_right bs ha, hrest⟩

/-- The structs and the dictionary hold an id only for a series it was assigned to, and no slot points to a struct. -/
structure Inv (resourceKey : Bytes) (descriptor : Attributes → Bytes) (s : Session) : Prop where
  owns : Owns (fun A => AssignedTo s.assigned resourceKey (descriptor A)) s.agg
  known : s.dict.Sound (AssignedTo s.assigned)
  sinks : ∀ dp ∈ s.slots, dp.seriesIDSink = none

variable {resourceKey : Bytes} {descriptor : Attributes → Bytes}

theorem Inv.init : Inv resourceKey descriptor {} := ⟨Owns.empty, Dictionary.Sound.empty, by simp⟩

variable (input : CollectInput)

theorem length_exported_le : (s.exported i input).length ≤ s.agg.values.len := by
  refine (length_filter_le _ _).trans (Nat.le_of_eq ?_)
  exact GoMap.length_range _ _

theorem length_exported_le_slots (pooled : Bool) :
    (s.exported i input).length ≤ (s.slotsBefore pooled).length := by
  refine (length_exported_le input).trans ?_
  unfold slotsBefore reset
  split
  · simp
  · omega

theorem fill_eq (heap : SeriesHeap) :
    ∀ {es : List (Attributes × Nat)} {slots : List DataPoint}, es.length ≤ slots.length →
      fill heap es slots =
        zipWith (fun e dp => exportDataPoint (heap e.2) e.2 dp) es slots ++ slots.drop es.length
  | [], slots, _ => by simp [fill]
  | e :: es, [], h => by simp at h
  | e :: es, dp :: slots, h => by
    simp only [fill, zipWith_cons_cons, cons_append, length_cons, drop_succ_cons]
    rw [fill_eq heap (Nat.le_of_succ_le_succ h)]

def points (i : Instrument) (s : Session) (input : CollectInput) (pooled : Bool) : List (Attributes × DataPoint) :=
  ((s.exported i input).zip (s.slotsBefore pooled)).map fun p =>
    (p.1.1, exportDataPoint (s.agg.heap p.1.2) p.1.2 p.2)

theorem take_collectedSlots (pooled : Bool) :
    (s.collectedSlots i input pooled).take (s.exported i input).length = (s.points i input pooled).map Prod.snd := by
  have hlen := length_exported_le_slots (i := i) (s := s) input pooled
  rw [collectedSlots, fill_eq _ hlen, take_left' (by simp [hlen])]
  simp [points, zip, map_zipWith]

theorem drop_collectedSlots (pooled : Bool) :
    (s.collectedSlots i input pooled).drop (s.exported i input).length =
      (s.slotsBefore pooled).drop (s.exported i input).length := by
  have hlen := length_exported_le_slots (i := i) (s := s) input pooled
  rw [collectedSlots, fill_eq _ hlen, drop_left' (by simp [hlen])]

variable {pooled : Bool}

theorem Inv.sink_dest (h : Inv resourceKey descriptor s) {dp : DataPoint} (hdp : dp ∈ s.dest pooled) :
    dp.seriesIDSink = none := by
  unfold dest at hdp
  split at hdp
  · exact h.sinks dp hdp
  · simp at hdp

theorem Inv.sink_slotsBefore (h : Inv resourceKey descriptor s) {dp : DataPoint} (hdp : dp ∈ s.slotsBefore pooled) :
    dp.seriesIDSink = none := by
  unfold slotsBefore reset at hdp
  split at hdp
  · rw [eq_of_mem_replicate hdp]
  · exact h.sink_dest hdp

variable {input : CollectInput}

theorem lookup_of_exported {e : Attributes × Nat} (he : e ∈ s.exported i input) :
    s.agg.values.lookup e.1 = some e.2 :=
  GoMap.mem_range.mp (mem_filter.mp he).1

theorem Inv.ready (h : Inv i.resourceKey i.descriptor s) (hclean : s.CleanStep i (.export input pooled))
    {p : Attributes × DataPoint} (hp : p ∈ s.points i input pooled) (source : SourceState) :
    Ready (i.Assigned s.assigned) (AssignedTo s.assigned i.resourceKey) i.descriptor (s.agg.collected i.temporality)
      source p.1 p.2 := by
  obtain ⟨⟨⟨A, r⟩, dp⟩, hmem, rfl⟩ := mem_map.mp hp
  have hlive : s.agg.values.lookup A = some r := lookup_of_exported (of_mem_zip hmem).1
  have hslot : s.CleanSlot i (A, r) dp := hclean _ hmem
  unfold CleanSlot at hslot
  by_cases hid : (s.agg.heap r).seriesID = 0
  · -- an unregistered series: attributes and pointers are its own, the id is the slot's
    rw [if_pos hid] at hslot
    rw [exportDataPoint, if_neg (not_not.mpr hid)]
    refine .inr ⟨r, ⟨rfl, rfl, h.owns.unregistered hlive hid, hslot, id, ?_, ?_⟩⟩
    · intro B hB
      exact h.owns.injective (live_collected hB).1 hlive
    · intro hA hne
      rw [(live_collected hA).2] at hne
      exact absurd hid hne
  · -- a registered series: the id is its own, the pointers are the slot's
    rw [if_neg hid] at hslot
    rw [exportDataPoint, if_pos hid]
    have hsink : dp.seriesIDSink = none := h.sink_slotsBefore (of_mem_zip hmem).2
    refine .inl ⟨hsink, hid, h.owns.registered hlive hid, ?_⟩
    intro B q hB hclear
    rw [(live_collected hB).2]
    exact hslot (B, q) (GoMap.mem_pairs.mpr (live_collected hB).1) hclear

theorem map_fst_points (input : CollectInput) (pooled : Bool) :
    (s.points i input pooled).map Prod.fst = (s.exported i input).map Prod.fst := by
  have hfst := map_fst_zip (length_exported_le_slots (i := i) (s := s) input pooled)
  calc (s.points i input pooled).map Prod.fst
      = (((s.exported i input).zip (s.slotsBefore pooled)).map Prod.fst).map Prod.fst := by
        simp [points, Function.comp_def]
    _ = (s.exported i input).map Prod.fst := by rw [hfst]

theorem pairwise_points (input : CollectInput) (pooled : Bool) :
    (s.points i input pooled).Pairwise fun p q => q.1 = p.1 → q.2.seriesID = 0 → p.2.seriesID = 0 := by
  have hkeys : ((s.points i input pooled).map Prod.fst).Nodup := by
    rw [map_fst_points]
    exact (GoMap.nodup_keys_range _ _).sublist (filter_sublist.map _)
  exact (pairwise_map.mp hkeys).imp fun hne heq => absurd heq.symm hne

theorem Inv.annotated (h : Inv i.resourceKey i.descriptor s) (hclean : s.CleanStep i (.export input pooled)) :
    Owns (i.Assigned s.assigned) { s.agg.collected i.temporality with heap := (s.annotated i input pooled).2.1 } ∧
      (s.annotated i input pooled).1.Sound (AssignedTo s.assigned) ∧
      Forall₂ (fun p o => o.seriesIDSink = none ∧ Identifies (i.Assigned s.assigned) p.1 o)
        (s.points i input pooled) (s.annotated i input pooled).2.2 := by
  obtain ⟨source, heap, out, heq, hann, hall⟩ :=
    annotatePoints_ready (s.points i input pooled) (s.dict.generation + 1) (h.owns.collected i.temporality)
      (h.known i.resourceKey) (fun p hp => h.ready hclean hp _) (pairwise_points input pooled)
  have hdef : s.annotated i input pooled =
      (Dictionary.sweep ⟨s.dict.generation + 1, s.dict.sources.insert i.resourceKey source⟩ (s.dict.generation + 1),
        heap, out) := by
    unfold Session.annotated Dictionary.annotate
    rw [take_collectedSlots]
    simp only [heq]
  rw [hdef]
  exact ⟨hann.owns, (h.known.insert hann.sound _).sweep _, hall⟩

theorem of_mem_sent {Q : Attributes → DataPoint → Prop} {υ : Type} {series : List (Attributes × υ)}
    {out : List DataPoint} (hall : Forall₂ Q (series.map Prod.fst) out) {p : SentPoint}
    (hp : p ∈ zipWith (fun e dp => ⟨e.1, dp⟩) series out) : Q p.series p.point := by
  have hsent : zipWith (fun e dp => (⟨e.1, dp⟩ : SentPoint)) series out =
      zipWith SentPoint.mk (series.map Prod.fst) out := by
    rw [zipWith_map_left]
  rw [hsent, ← map_uncurry_zip_eq_zipWith] at hp
  obtain ⟨⟨A, dp⟩, hmem, rfl⟩ := mem_map.mp hp
  exact (forall₂_iff_zip.mp hall).2 hmem

theorem Inv.output (h : Inv i.resourceKey i.descriptor s) {op : SessionOp} (hclean : s.CleanStep i op) {p : SentPoint}
    (hp : p ∈ s.output i op) : Identifies (i.Assigned s.assigned) p.series p.point := by
  cases op with
  | measure m => simp [Session.output] at hp
  | apply as => simp [Session.output] at hp
  | «export» input pooled =>
    obtain ⟨-, -, hall⟩ := h.annotated hclean
    refine of_mem_sent ?_ hp
    rw [← map_fst_points, forall₂_map_left_iff]
    exact hall.imp fun _ _ ho => ho.2

theorem Inv.step (h : Inv i.resourceKey i.descriptor s) {op : SessionOp} (hclean : s.CleanStep i op) :
    Inv i.resourceKey i.descriptor (s.step i op) := by
  cases op with
  | measure m => exact ⟨h.owns.measure m, h.known, h.sinks⟩
  | apply as =>
    refine ⟨h.owns.mono fun A id => AssignedTo.append, ?_, h.sinks⟩
    refine (h.known.mono fun res key id => AssignedTo.append).apply as fun a ha => ?_
    exact ⟨a, mem_append_left _ ha, rfl, rfl, rfl⟩
  | «export» input pooled =>
    obtain ⟨howns, hknown, hall⟩ := h.annotated hclean
    refine ⟨howns, hknown, fun dp hdp => ?_⟩
    change dp ∈ s.slotsAfter i input pooled at hdp
    unfold slotsAfter at hdp
    split at hdp
    · exact h.sink_dest hdp
    · rw [drop_collectedSlots] at hdp
      rcases mem_append.mp hdp with hdp | hdp
      · exact ((forall₂_and_left _ _).mp hall.flip).1 dp hdp
      · exact h.sink_slotsBefore (mem_of_mem_drop hdp)

theorem Inv.run {ops : List SessionOp} (h : Inv i.resourceKey i.descriptor s) (hclean : s.Clean i ops) :
    Inv i.resourceKey i.descriptor (s.run i ops) :=
  hclean.invariant (fun _ h hclean => h.step hclean) h

/-- In a run whose exports meet only clean slots, every data point that leaves `Annotate` has no
series id and the attributes of its series, or an id that was assigned to the series' descriptor. -/
theorem sent_point_identifies_series (i : Instrument) (before after : List SessionOp) (op : SessionOp)
    (hclean : Clean i {} (before ++ op :: after)) (p : SentPoint) (hp : p ∈ (run i {} before).output i op) :
    (p.point.seriesID = 0 ∧ p.point.attributes = p.series) ∨
      i.Assigned (run i {} before).assigned p.series p.point.seriesID := by
  obtain ⟨hbefore, hrest⟩ := always_append.mp hclean
  exact (Inv.init.run hbefore).output hrest.1 hp

def sampleInstrument (temporality : Temporality) : Instrument :=
  ⟨.ddSketch, temporality, str "service.name=api|", str "meter", str "latency", str "DDSketch"⟩

def hostAttrs (host : String) : Attributes := [(str "host", .ofString (str host))]

def measureHost (host : String) : SessionOp := .measure { attrs := hostAttrs host, limited := hostAttrs host }

/-- An export into the metric data of the last one, with every payload serializable. -/
def exportAll : SessionOp := .export ⟨.stored _, fun _ => true⟩ true

def assignHost (host : String) (id : Nat) : SessionOp :=
  .apply [⟨str "service.name=api|", str "meter", str "latency", str "DDSketch",
    attributesFingerprint (hostAttrs host), id⟩]

/-- Host `a` is measured and gets id 7, and after another export the given host is measured. -/
def assignedThen (host : String) : List SessionOp :=
  [measureHost "a", exportAll, assignHost "a" 7, measureHost "a", exportAll, measureHost host]

theorem sent_point_identifies_series_cumulative :
    Clean (sampleInstrument .cumulative) {} (assignedThen "a" ++ exportAll :: []) ∧
      (sampleInstrument .cumulative).Assigned (run (sampleInstrument .cumulative) {} (assignedThen "a")).assigned
        (hostAttrs "a") 7 := by
  have hclean : Clean (sampleInstrument .cumulative) {} (assignedThen "a" ++ exportAll :: []) := by decide
  refine ⟨hclean, ?_⟩
  have hsent := sent_point_identifies_series (sampleInstrument .cumulative) _ [] exportAll hclean
    ⟨hostAttrs "a", ⟨7, [], none, none⟩⟩ (by decide)
  exact hsent.resolve_left fun h => absurd h.1 (by decide)

/-- The slot that carried host `a` under id 7 is reused for host `b`, which leaves with that id. -/
theorem reused_slot_keeps_series_id :
    (run (sampleInstrument .delta) {} (assignedThen "b")).output (sampleInstrument .delta) exportAll =
        [⟨hostAttrs "b", ⟨7, hostAttrs "b", none, none⟩⟩] ∧
      ¬(sampleInstrument .delta).Assigned (run (sampleInstrument .delta) {} (assignedThen "b")).assigned
        (hostAttrs "b") 7 := by
  decide

end AsapCollector.Session
