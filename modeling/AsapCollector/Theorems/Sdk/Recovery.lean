import AsapCollector.Sdk.Recovery
import AsapCollector.Theorems.Sdk.Exporter
import AsapCollector.Theorems.Sdk.Interleaved

/-! After `EvictByID` the series is sent with its attributes again as far as nothing else remembers the id: neither its
struct nor the slot its point is written into. -/

namespace AsapCollector

open Aggregator Session List

namespace Aggregator

variable {agg : Aggregator}

theorem recordRaw_seriesID (agg : Aggregator) (maxPerSeries r q : Nat) :
    ((agg.recordRaw maxPerSeries r).heap q).seriesID = (agg.heap q).seriesID := by
  by_cases hq : q = r
  · subst hq
    simp [recordRaw]
  · simp [recordRaw, hq]

theorem seriesID_measureRaw {maxPerSeries : Nat} {m : Measurement} {B : Attributes} {r : Nat}
    (hB : (agg.measureRaw maxPerSeries m).values.lookup B = some r) :
    (agg.values.lookup B = some r ∧ ((agg.measureRaw maxPerSeries m).heap r).seriesID = (agg.heap r).seriesID) ∨
      ((agg.measureRaw maxPerSeries m).heap r).seriesID = 0 := by
  obtain ⟨hvalues, hheap⟩ := get_same agg m.pick
  rcases measureRaw_cases agg maxPerSeries m with ⟨q, heq⟩ | heq
  · rw [heq] at hB ⊢
    exact .inl ⟨hB, recordRaw_seriesID _ _ _ _⟩
  · rw [heq] at hB ⊢
    rw [recordRaw_seriesID, ← hvalues, ← hheap]
    exact live_newSeries hB

end Aggregator

namespace SeriesInstrument

open SeriesInstrument

variable {j : SeriesInstrument} {s : Session} {A : Attributes}

/-- The invariant of a session of the instrument, which does not depend on how the series are stored. -/
abbrev Inv (j : SeriesInstrument) : Session → Prop := Session.Inv j.resourceKey j.descriptor

theorem Inv.measure (h : Inv j s) (m : Measurement) : Inv j (j.step s (.measure m)) := by
  refine ⟨?_, h.known, h.sinks⟩
  simp only [step, measured]
  split
  · exact h.owns.measure m
  · exact h.owns.measureRaw _ m

theorem Inv.apply (h : Inv j s) (as : List Assignment) : Inv j (j.step s (.apply as)) where
  owns := h.owns.mono fun _ _ => AssignedTo.append
  known := (h.known.mono fun _ _ _ => AssignedTo.append).apply as fun a ha =>
    ⟨a, mem_append_left _ ha, rfl, rfl, rfl⟩
  sinks := h.sinks

variable {input : CollectInput} {pooled : Bool}

theorem Inv.exported (h : Inv j s) (hclean : j.CleanStep s (.export input pooled)) :
    Inv j (j.exported s input pooled) := by
  unfold CleanStep at hclean
  unfold SeriesInstrument.exported
  split
  · next family temporality hstorage =>
    rw [hstorage] at hclean
    exact Session.Inv.step (i := j.sketch family temporality) h hclean
  · obtain ⟨source, heap, out, heq, hann, -⟩ :=
      annotatePoints_ready (s.agg.rawPoints input.order) (s.dict.generation + 1) h.owns.rawDone (h.known j.resourceKey)
        (fun p hp => h.owns.ready_rawPoints hp id _) (pairwise_rawPoints _ _)
    have hdef : j.rawAnnotated s input.order =
        (Dictionary.sweep ⟨s.dict.generation + 1, s.dict.sources.insert j.resourceKey source⟩ (s.dict.generation + 1),
          heap, out) := by
      unfold rawAnnotated Dictionary.annotate
      simp only [heq]
    rw [hdef]
    exact ⟨hann.owns, (h.known.insert hann.sound _).sweep _, h.sinks⟩

theorem Inv.step (h : Inv j s) {op : ExportOp} (hclean : j.CleanStep s op) : Inv j (j.step s op) := by
  cases op with
  | measure m => exact h.measure m
  | «export» input pooled => exact h.exported hclean
  | apply as => exact h.apply as
  | evictByID sids => exact ⟨h.owns, h.known.evictByID sids, h.sinks⟩

variable {ops before after : List ExportOp}

theorem Inv.run (h : Inv j s) (hclean : j.Clean s ops) : Inv j (j.run s ops) :=
  hclean.invariant (fun _ h hclean => h.step hclean) h

/-- Neither the aggregator nor the dictionary holds an id of the series. -/
structure Forgotten (j : SeriesInstrument) (s : Session) (A : Attributes) : Prop where
  uncached : Uncached s A
  unknown : s.dict.Unknown j.resourceKey (j.descriptor A)

/-- A point that a collection wrote for a live series into a slot without an id for `A`. -/
def Written (s : Session) (A : Attributes) (p : Attributes × DataPoint) : Prop :=
  ∃ r slot, s.agg.values.lookup p.1 = some r ∧ p.2 = exportDataPoint (s.agg.heap r) r slot ∧
    slot.seriesIDSink = none ∧ (p.1 = A → slot.seriesID = 0)

variable {p : Attributes × DataPoint}

theorem Written.point (hp : Written s A p) (h : Inv j s) (hf : Uncached s A) (hA : p.1 = A) :
    p.2.seriesID = 0 ∧ p.2.attributes = A := by
  obtain ⟨r, slot, hlive, hpoint, -, hslot⟩ := hp
  have hid : (s.agg.heap r).seriesID = 0 := hf r (hA ▸ hlive)
  rw [hpoint, exportDataPoint, if_neg (not_not.mpr hid)]
  exact ⟨hslot hA, hA ▸ h.owns.unregistered hlive hid⟩

theorem Written.sink (hp : Written s A p) (h : Inv j s) {r : Nat} (hr : s.agg.values.lookup A = some r)
    (hsink : p.2.seriesIDSink = some r) : p.1 = A := by
  obtain ⟨q, slot, hlive, hpoint, hnone, -⟩ := hp
  rw [hpoint, exportDataPoint] at hsink
  split at hsink
  · rw [hnone] at hsink
    cases hsink
  · obtain rfl := Option.some.inj hsink
    exact h.owns.injective hlive hr

theorem Forgotten.annotate (hf : Forgotten j s A) (h : Inv j s) (agg' : Aggregator)
    {points : List (Attributes × DataPoint)} (hlive : ∀ {r}, agg'.values.lookup A = some r →
      s.agg.values.lookup A = some r ∧ (agg'.heap r).seriesID = (s.agg.heap r).seriesID)
    (hpoints : ∀ p ∈ points, Written s A p) :
    (s.dict.annotate j.resourceKey j.descriptor agg'.heap (points.map Prod.snd)).1.Unknown j.resourceKey
      (j.descriptor A) ∧ (∀ r, agg'.values.lookup A = some r →
        ((s.dict.annotate j.resourceKey j.descriptor agg'.heap (points.map Prod.snd)).2.1 r).seriesID = 0) ∧
      Forall₂ (fun p o => p.1 = A → o.seriesID = 0 ∧ o.attributes = A) points
        (s.dict.annotate j.resourceKey j.descriptor agg'.heap (points.map Prod.snd)).2.2 := by
  obtain ⟨hunknown, hout, hheap⟩ := hf.unknown.annotate agg'.heap fun p hp => (hpoints p hp).point h hf.uncached
  refine ⟨hunknown, fun r hr => ?_, hout⟩
  obtain ⟨hbefore, hsame⟩ := hlive hr
  exact hheap r (fun p hp => (hpoints p hp).sink h hbefore) (hsame.trans (hf.uncached r hbefore))

theorem Inv.written_points (h : Inv j s) {family : SketchFamily} {temporality : Temporality}
    (hempty : ∀ p ∈ (s.exported (j.sketch family temporality) input).zip (s.slotsBefore pooled), p.1.1 = A →
      p.2.seriesID = 0)
    (hp : p ∈ s.points (j.sketch family temporality) input pooled) : Written s A p := by
  obtain ⟨⟨⟨B, r⟩, slot⟩, hmem, rfl⟩ := mem_map.mp hp
  obtain ⟨hexported, hslot⟩ := of_mem_zip hmem
  exact ⟨r, slot, lookup_of_exported hexported, rfl, h.sink_slotsBefore hslot,
    hempty _ hmem⟩

theorem written_rawPoints {order : RangeOrder (Attributes × Nat)} (hp : p ∈ s.agg.rawPoints order) : Written s A p := by
  obtain ⟨r, hlive, hpoint⟩ := mem_rawPoints hp
  exact ⟨r, {}, hlive, hpoint, rfl, fun _ => rfl⟩

theorem Forgotten.exported (hf : Forgotten j s A) (h : Inv j s)
    (hempty : j.EmptySlot s A (.export input pooled)) :
    Forgotten j (j.exported s input pooled) A ∧
      ∀ p ∈ j.output s (.export input pooled), p.series = A → p.point.seriesID = 0 ∧ p.point.attributes = A := by
  cases hstorage : j.storage with
  | sketch family temporality =>
    simp only [EmptySlot, hstorage] at hempty
    obtain ⟨hunknown, hcached, hall⟩ := hf.annotate h (s.agg.collected temporality) live_collected
      fun p hp => h.written_points hempty hp
    have hannotated : s.annotated (j.sketch family temporality) input pooled =
        s.dict.annotate j.resourceKey j.descriptor (s.agg.collected temporality).heap
          ((s.points (j.sketch family temporality) input pooled).map Prod.snd) := by
      rw [annotated, take_collectedSlots]
      rfl
    rw [← hannotated] at hunknown hcached hall
    simp only [SeriesInstrument.exported, output, hstorage]
    refine ⟨⟨hcached, hunknown⟩, fun p hp => ?_⟩
    refine of_mem_sent (Q := fun B o => B = A → o.seriesID = 0 ∧ o.attributes = A) ?_ hp
    rwa [← map_fst_points, forall₂_map_left_iff]
  | rawBuffer maxPerSeries =>
    obtain ⟨hunknown, hcached, hall⟩ := hf.annotate h s.agg.rawDone live_rawDone
      fun p (hp : p ∈ s.agg.rawPoints input.order) => written_rawPoints hp
    simp only [SeriesInstrument.exported, output, hstorage]
    refine ⟨⟨hcached, hunknown⟩, fun p hp => ?_⟩
    refine of_mem_sent (Q := fun B o => B = A → o.seriesID = 0 ∧ o.attributes = A) ?_ hp
    rwa [forall₂_map_left_iff]

theorem Forgotten.measure (hf : Forgotten j s A) (m : Measurement) : Forgotten j (j.step s (.measure m)) A := by
  refine ⟨fun r hr => ?_, hf.unknown⟩
  simp only [step, measured] at hr ⊢
  split at hr
  · rcases live_measure hr with ⟨hlive, hid⟩ | hid
    · exact hid.trans (hf.uncached r hlive)
    · exact hid
  · rcases seriesID_measureRaw hr with ⟨hlive, hid⟩ | hid
    · exact hid.trans (hf.uncached r hlive)
    · exact hid

theorem Forgotten.step (hf : Forgotten j s A) (h : Inv j s) {op : ExportOp} (hempty : j.EmptySlot s A op)
    (hassigned : j.NotAssigned A op) : Forgotten j (j.step s op) A := by
  cases op with
  | measure m => exact hf.measure m
  | «export» input pooled => exact (hf.exported h hempty).1
  | apply as => exact ⟨hf.uncached, hf.unknown.apply as hassigned⟩
  | evictByID sids => exact ⟨hf.uncached, hf.unknown.evictByID sids⟩

theorem Forgotten.run (hf : Forgotten j s A) (h : Inv j s) (hclean : j.Clean s ops) (hempty : j.EmptySlots A s ops)
    (hassigned : ∀ op ∈ ops, j.NotAssigned A op) : Forgotten j (j.run s ops) A :=
  ((always_and.mpr ⟨hclean, hempty⟩).invariant (I := fun s => Forgotten j s A ∧ Inv j s)
    (fun hop ⟨hf, h⟩ ⟨hclean, hempty⟩ => ⟨hf.step h hempty (hassigned _ hop), h.step hclean⟩) ⟨hf, h⟩).1

/-- After the id of a series is evicted, its points leave with no id and the attributes until an assignment for it
is applied, if the struct of the series caches no id then and the slots of its points hold none later. -/
theorem evicted_series_sends_attributes (j : SeriesInstrument) (A : Attributes) (before after : List ExportOp)
    (sids : List Nat) (op : ExportOp) (hclean : j.Clean {} (before ++ .evictByID sids :: (after ++ [op])))
    (hlisted : j.Listed (j.run {} before) A sids) (huncached : Uncached (j.run {} before) A)
    (hempty : j.EmptySlots A (j.run {} (before ++ [.evictByID sids])) (after ++ [op]))
    (hassigned : ∀ op' ∈ after, j.NotAssigned A op') :
    ∀ p ∈ j.output (j.run {} (before ++ .evictByID sids :: after)) op,
      p.series = A → p.point.seriesID = 0 ∧ p.point.attributes = A := by
  obtain ⟨hbefore, -, hrest⟩ := always_append.mp hclean
  obtain ⟨hafter, hop, -⟩ := always_append.mp hrest
  have hinv := Inv.run Inv.init hbefore
  have hevicted : Inv j (j.step (j.run {} before) (.evictByID sids)) := hinv.step trivial
  have hforgotten : Forgotten j (j.step (j.run {} before) (.evictByID sids)) A :=
    ⟨huncached, Dictionary.unknown_evictByID hlisted⟩
  have hstart : j.run {} (before ++ [.evictByID sids]) = j.step (j.run {} before) (.evictByID sids) := by
    simp [run]
  have hend : j.run {} (before ++ .evictByID sids :: after) =
      j.run (j.step (j.run {} before) (.evictByID sids)) after := by
    simp [run]
  rw [hstart] at hempty
  obtain ⟨hslots, hslot, -⟩ := always_append.mp hempty
  rw [hend]
  have hnow := hforgotten.run hevicted hafter hslots hassigned
  cases op with
  | measure m => exact fun p hp => nomatch hp
  | «export» input pooled => exact (hnow.exported (hevicted.run hafter) hslot).2
  | apply as => exact fun p hp => nomatch hp
  | evictByID sids => exact fun p hp => nomatch hp

def rawInstrument : SeriesInstrument :=
  ⟨.rawBuffer 10, str "service.name=api|", str "meter", str "latency", str "gauge_double"⟩

def measureRawHost (host : String) : ExportOp :=
  .measure { attrs := hostAttrs host, limited := hostAttrs host }

def exportRaw : ExportOp := .export ⟨.stored _, fun _ => true⟩ false

def assignRaw : ExportOp :=
  .apply [⟨str "service.name=api|", str "meter", str "latency", str "gauge_double",
    attributesFingerprint (hostAttrs "a"), 7⟩]

/-- Host `a` has been assigned an id, but no export has written it into the struct. -/
def uncachedRun : List ExportOp := [measureRawHost "a", exportRaw, assignRaw, measureRawHost "a"]

theorem evicted_uncached_host_sends_attributes :
    rawInstrument.output (rawInstrument.run {} (uncachedRun ++ .evictByID [7] :: [])) exportRaw ≠ [] ∧
      ∀ p ∈ rawInstrument.output (rawInstrument.run {} (uncachedRun ++ .evictByID [7] :: [])) exportRaw,
        p.series = hostAttrs "a" → p.point.seriesID = 0 ∧ p.point.attributes = hostAttrs "a" := by
  refine ⟨by decide, evicted_series_sends_attributes rawInstrument (hostAttrs "a") uncachedRun [] [7] exportRaw
    ?_ ?_ ?_ ⟨trivial, trivial⟩ nofun⟩
  · exact ⟨trivial, trivial, trivial, trivial, trivial, trivial, trivial⟩
  · intro e he _
    have hentry : rawInstrument.entryOf (rawInstrument.run {} uncachedRun) (hostAttrs "a") = some ⟨7, true, 1⟩ := by
      decide
    rw [hentry] at he
    obtain rfl := Option.some.inj he
    decide
  · intro r hr
    have hlive : (rawInstrument.run {} uncachedRun).agg.values.lookup (hostAttrs "a") = some 0 := by decide
    rw [hlive] at hr
    obtain rfl := Option.some.inj hr
    decide

/-- The struct of host `a` has got the id, and lost the attributes, in the second export. The evicted id is sent
without attributes again. -/
theorem evicted_id_stays_cached :
    rawInstrument.output
        (rawInstrument.run {} (uncachedRun ++ [exportRaw, .evictByID [7], measureRawHost "a"])) exportRaw =
      [⟨hostAttrs "a", ⟨7, [], none, none⟩⟩] := by
  decide

end SeriesInstrument

end AsapCollector
