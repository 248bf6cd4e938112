import AsapCollector.Series.World
import AsapCollector.Theorems.Sdk.Annotate
import AsapCollector.Theorems.Series.Cache

/-! The ids in the live series and in the dictionary are right with respect to the collector's cache (`Exporter.Ok`),
and so are the points of a request. -/

namespace AsapCollector

open Aggregator List Option Exporter

namespace Aggregator

open RawMetric

variable {may : Attributes → Nat → Prop} {agg : Aggregator}

theorem Owns.recordRaw (h : Owns may agg) (maxPerSeries r : Nat) : Owns may (agg.recordRaw maxPerSeries r) := by
  refine h.of_heap fun {A q} _ => ?_
  by_cases hq : q = r
  · subst hq
    simp
  · simp [hq]

theorem measureRaw_cases (agg : Aggregator) (maxPerSeries : Nat) (m : Measurement) :
    (∃ r, agg.measureRaw maxPerSeries m = agg.recordRaw maxPerSeries r) ∨
      agg.measureRaw maxPerSeries m =
        ((agg.get m.pick).2.newSeries m.limited (agg.get m.pick).1).recordRaw maxPerSeries (agg.get m.pick).1 := by
  unfold measureRaw
  split
  · exact .inl ⟨_, rfl⟩
  · split
    · exact .inl ⟨_, rfl⟩
    · exact .inr rfl

theorem Owns.measureRaw (h : Owns may agg) (maxPerSeries : Nat) (m : Measurement) :
    Owns may (agg.measureRaw maxPerSeries m) := by
  rcases measureRaw_cases agg maxPerSeries m with ⟨r, heq⟩ | heq
  · rw [heq]
    exact h.recordRaw _ _
  · obtain ⟨hget, hfresh, hpool, hlive⟩ := h.get m.pick
    rw [heq]
    exact (hget.newSeries hfresh hpool hlive m.limited).recordRaw _ _

theorem live_measureRaw {maxPerSeries : Nat} {m : Measurement} {A : Attributes} {r : Nat}
    (hA : (agg.measureRaw maxPerSeries m).values.lookup A = some r) :
    (∃ r, agg.values.lookup A = some r) ∨ A = m.limited := by
  rcases measureRaw_cases agg maxPerSeries m with ⟨q, heq⟩ | heq
  · rw [heq] at hA
    exact .inl ⟨r, hA⟩
  · rw [heq] at hA
    by_cases hkey : A = m.limited
    · exact .inr hkey
    · simp only [recordRaw, newSeries] at hA
      rw [AList.lookup_insert_ne hkey, (get_same agg m.pick).1] at hA
      exact .inl ⟨r, hA⟩

theorem Owns.rawDone (h : Owns may agg) : Owns may agg.rawDone :=
  h.cumulativeDone.of_heap fun _ => ⟨rfl, rfl⟩

theorem live_rawDone {A : Attributes} {r : Nat} (hA : agg.rawDone.values.lookup A = some r) :
    agg.values.lookup A = some r ∧ (agg.rawDone.heap r).seriesID = (agg.heap r).seriesID :=
  live_collected (t := .cumulative) hA

variable {order : RangeOrder (Attributes × Nat)} {p : Attributes × DataPoint}

theorem mem_rawPoints
    (hp : p ∈ agg.rawPoints order) :
    ∃ r, agg.values.lookup p.1 = some r ∧ p.2 = exportDataPoint (agg.heap r) r {} := by
  obtain ⟨⟨A, r⟩, he, hp⟩ := mem_flatMap.mp hp
  obtain rfl := eq_of_mem_replicate hp
  exact ⟨r, GoMap.mem_range.mp he, rfl⟩

theorem pairwise_rawPoints (agg : Aggregator) (order : RangeOrder (Attributes × Nat)) :
    (agg.rawPoints order).Pairwise fun p q => q.1 = p.1 → q.2.seriesID = 0 → p.2.seriesID = 0 := by
  refine pairwise_of_forall_mem_list fun p hp q hq hkey hzero => ?_
  obtain ⟨r, hr, hpeq⟩ := mem_rawPoints hp
  obtain ⟨r', hr', hqeq⟩ := mem_rawPoints hq
  obtain rfl : r = r' := by
    rw [hkey, hr] at hr'
    exact some.inj hr'
  rwa [hpeq, ← hqeq]

theorem Owns.ready_rawPoints (h : Owns may agg) {P : Bytes → Nat → Prop} {descriptor : Attributes → Bytes}
    (hp : p ∈ agg.rawPoints order)
    (hallows : ∀ {id}, P (descriptor p.1) id → may p.1 id) (source : SourceState) :
    Ready may P descriptor agg.rawDone source p.1 p.2 := by
  obtain ⟨r, hlive, hpoint⟩ := mem_rawPoints hp
  rw [hpoint]
  by_cases hid : (agg.heap r).seriesID = 0
  · rw [exportDataPoint, if_neg (not_not.mpr hid)]
    refine .inr ⟨r, ⟨rfl, rfl, h.unregistered hlive hid, .inl rfl, hallows, ?_, ?_⟩⟩
    · intro B hB
      exact h.injective (live_rawDone hB).1 hlive
    · intro hA hne
      rw [(live_rawDone hA).2] at hne
      exact absurd hid hne
  · rw [exportDataPoint, if_pos hid]
    exact .inl ⟨rfl, hid, h.registered hlive hid, fun _ hclear => by cases hclear⟩

end Aggregator

def RawMetric.config (m : RawMetric) : RawMetric := { m with agg := {} }

section Known

variable {sc sc' : SeriesCache} {x : Exporter} {series : List (Nat × Attributes)}

/-- The id was given to a series of the exporter `x` that the collector knows by the descriptor. -/
def Given (sc : SeriesCache) (x : Exporter) (series : List (Nat × Attributes)) (key : Bytes) (id : Nat) : Prop :=
  ∃ b ∈ series, ∃ m, x.metrics[b.1]? = some m ∧ key = m.wireDescriptor b.2 ∧ sc.Gave x.wireResourceKey id m.name b.2

/-- A point of the exporter `x`: it carries its attributes, or an id that can only stand for them. -/
def TaskOk (sc : SeriesCache) (x : Exporter) (series : List (Nat × Attributes)) (t : PointTask) : Prop :=
  ∃ b ∈ series, ∃ m, x.metrics[b.1]? = some m ∧ t.scopeKey = m.wireScopeKey ∧ t.metricName = m.name ∧
    t.metricType = m.metricType ∧ t.point.origin = b.2 ∧
    ((t.point.seriesID = 0 ∧ t.point.attributes = b.2) ∨
      (t.point.attributes = [] ∧ sc.May x.wireResourceKey m.name b.2 t.point.seriesID))

def AssignmentOk (sc : SeriesCache) (x : Exporter) (series : List (Nat × Attributes)) (a : Assignment) : Prop :=
  a.resourceKey = x.wireResourceKey ∧ Given sc x series a.descriptor a.seriesID

variable {id k : Nat}

theorem Given.keeps {key : Bytes} (h : Given sc x series key id) (hk : sc.Keeps sc' x.wireResourceKey) :
    Given sc' x series key id := by
  obtain ⟨b, hb, m, hm, hkey, hgave⟩ := h
  exact ⟨b, hb, m, hm, hkey, hgave.keeps hk⟩

theorem TaskOk.keeps {t : PointTask} (h : TaskOk sc x series t) (hk : sc.Keeps sc' x.wireResourceKey) :
    TaskOk sc' x series t := by
  obtain ⟨b, hb, m, hm, hscope, hname, htype, horigin, hpoint⟩ := h
  exact ⟨b, hb, m, hm, hscope, hname, htype, horigin, hpoint.imp id fun h => ⟨h.1, h.2.keeps hk⟩⟩

theorem TaskOk.seriesID_eq_zero {t : PointTask} (h : TaskOk sc x series t) (hattrs : t.point.attributes ≠ []) :
    t.point.seriesID = 0 := by
  obtain ⟨b, -, m, -, -, -, -, -, ⟨hid, -⟩ | ⟨hnil, -⟩⟩ := h
  · exact hid
  · exact absurd hnil hattrs

theorem AssignmentOk.keeps {a : Assignment} (h : AssignmentOk sc x series a) (hk : sc.Keeps sc' x.wireResourceKey) :
    AssignmentOk sc' x series a :=
  ⟨h.1, h.2.keeps hk⟩

variable {m : RawMetric}

theorem Given.may (hdistinct : x.Distinguishes series) {A : Attributes} (hA : (k, A) ∈ series)
    (hm : x.metrics[k]? = some m) (h : Given sc x series (m.descriptor A) id) :
      sc.May x.wireResourceKey m.name A id := by
  obtain ⟨⟨k', B⟩, hb, m', hm', hkey, src, hsrc, hne, hlt, hrec⟩ := h
  refine ⟨src, hsrc, hne, hlt, fun hlookup hname => ?_⟩
  obtain ⟨hname', hattrs⟩ := hrec hlookup
  rw [hattrs]
  exact (hdistinct (k, A) hA (k', B) hb m hm m' hm' hkey (hname.symm.trans hname')).symm

structure RawMetric.Ok (m : RawMetric) (sc : SeriesCache) (x : Exporter) (series : List (Nat × Attributes)) (k : Nat) :
    Prop where
  config : ∃ c, x.metrics[k]? = some c ∧ m.config = c.config
  owns : Owns (sc.May x.wireResourceKey m.name) m.agg
  measured : ∀ {A r}, m.agg.values.lookup A = some r → (k, A) ∈ series

structure Exporter.Ok (e : Exporter) (sc : SeriesCache) (x : Exporter) (series : List (Nat × Attributes)) : Prop where
  resourceKey : e.resourceKey = x.resourceKey
  wireResourceKey : e.wireResourceKey = x.wireResourceKey
  metrics : ∀ {k} {m : RawMetric}, e.metrics[k]? = some m → m.Ok sc x series k
  dict : e.dict.Sound fun res key id => res = x.resourceKey → Given sc x series key id

theorem RawMetric.Ok.keeps {m : RawMetric} (h : m.Ok sc x series k) (hk : sc.Keeps sc' x.wireResourceKey) :
    m.Ok sc' x series k :=
  ⟨h.config, h.owns.mono fun _ _ hmay => hmay.keeps hk, h.measured⟩

variable {e : Exporter}

section
variable (h : e.Ok sc x series)
include h

theorem Exporter.Ok.keeps (hk : sc.Keeps sc' x.wireResourceKey) :
    e.Ok sc' x series :=
  ⟨h.resourceKey, h.wireResourceKey, fun hm => (h.metrics hm).keeps hk,
    h.dict.mono fun _ _ _ hgiven hres => (hgiven hres).keeps hk⟩

theorem Exporter.Ok.of_holdsNoID (hnone : e.HoldsNoID) : e.Ok sc' x series where
  resourceKey := h.resourceKey
  wireResourceKey := h.wireResourceKey
  metrics {k m} hm :=
    { h.metrics hm with
      owns := { (h.metrics hm).owns with
        registered := fun {A r} hA hid =>
          absurd (hnone.1 m (mem_of_getElem? hm) (A, r) (GoMap.mem_pairs.mpr hA)) hid } }
  dict res key entry hentry hreg hres := by
    have hmem : (key, entry) ∈ (e.dict.sources.get {} e.resourceKey).entries.pairs := by
      rw [h.resourceKey, ← hres]
      exact GoMap.mem_pairs.mpr hentry
    rw [hnone.2 _ hmem] at hreg
    cases hreg

theorem Exporter.Ok.measure {m : Measurement}
    (hm : (k, m.limited) ∈ series) : (e.measure k m).Ok sc x series where
  resourceKey := h.resourceKey
  wireResourceKey := h.wireResourceKey
  metrics {j metric} hj := by
    rw [Exporter.measure, getElem?_modify] at hj
    cases hold : e.metrics[j]? with
    | none => simp [hold] at hj
    | some old =>
      have hok := h.metrics hold
      simp only [hold, Option.map_eq_map, map_some, some.injEq] at hj
      by_cases hkj : k = j
      · subst hkj
        simp only [if_true] at hj
        subst hj
        refine ⟨hok.config, hok.owns.measureRaw _ _, fun hA => ?_⟩
        rcases live_measureRaw hA with ⟨r, hr⟩ | rfl
        · exact hok.measured hr
        · exact hm
      · simp only [hkj, if_false] at hj
        exact hj ▸ hok
  dict := h.dict

theorem Exporter.Ok.apply {as : List Assignment} (has : ∀ a ∈ as, AssignmentOk sc x series a) :
    (e.apply as).Ok sc x series :=
  { h with dict := h.dict.apply as fun a ha _ => (has a ha).2 }

end

theorem RawMetric.of_config {c : RawMetric} (h : m.config = c.config) :
    m.descriptor = c.descriptor ∧ m.name = c.name ∧ m.wireScopeKey = c.wireScopeKey ∧ m.metricType = c.metricType := by
  have hfield : ∀ {α : Type} (f : RawMetric → α), f m.config = f c.config := fun f => congrArg f h
  exact ⟨hfield descriptor, hfield name, hfield wireScopeKey, hfield metricType⟩

theorem RawMetric.mem_tasks {gen : Nat} {source : SourceState} {order : RangeOrder (Attributes × Nat)} {t : PointTask}
    (ht : t ∈ (m.wireMetric gen source order).tasks) :
    ∃ p dp, (p, dp) ∈ (m.agg.rawPoints order).zip (m.annotated gen source order).2.2 ∧
      t = ⟨m.wireScopeKey, m.name, m.metricType, .gauge, m.wirePoint p.1 dp⟩ := by
  have hpoint : ∀ {p}, p ∈ (m.wireMetric gen source order).points →
      ∃ q dp, (q, dp) ∈ (m.agg.rawPoints order).zip (m.annotated gen source order).2.2 ∧ p = m.wirePoint q.1 dp := by
    intro p hp
    rw [wireMetric, ← map_uncurry_zip_eq_zipWith] at hp
    obtain ⟨⟨q, dp⟩, hmem, rfl⟩ := List.mem_map.mp hp
    exact ⟨q, dp, hmem, rfl⟩
  have htype : ∀ {p}, p ∈ (m.wireMetric gen source order).points → p.valueType = m.valueType := by
    intro p hp
    obtain ⟨q, dp, -, rfl⟩ := hpoint hp
    unfold wirePoint
    split <;> rfl
  have hlabel : ∀ own, pointMetricType m.valueType own .gauge = some m.metricType := by
    intro own
    unfold valueType metricType
    cases m.isInt <;> rfl
  unfold WireMetric.tasks at ht
  split at ht
  · simp at ht
  · rename_i first rest hpoints
    obtain ⟨p, hp, hsome⟩ := mem_filterMap.mp ht
    rw [htype (hpoints ▸ mem_cons_self), show (m.wireMetric gen source order).kind = .gauge from rfl, hlabel,
      map_some, some.injEq] at hsome
    obtain ⟨q, dp, hmem, rfl⟩ := hpoint hp
    exact ⟨q, dp, hmem, hsome.symm⟩

theorem RawMetric.Ok.exported (h : m.Ok sc x series k) (hdistinct : x.Distinguishes series) (gen : Nat)
    {source : SourceState} (hsource : source.Sound (Given sc x series)) (order : RangeOrder (Attributes × Nat)) :
    (m.exported gen source order).Ok sc x series k ∧
      (m.annotated gen source order).1.Sound (Given sc x series) ∧
      ∀ t ∈ (m.wireMetric gen source order).tasks, TaskOk sc x series t := by
  obtain ⟨c, hc, hconfig⟩ := h.config
  obtain ⟨hdescriptor, hname, hscope, htype⟩ := of_config hconfig
  have hready : ∀ p ∈ m.agg.rawPoints order,
      Ready (sc.May x.wireResourceKey m.name) (Given sc x series) m.descriptor m.agg.rawDone source p.1 p.2 := by
    intro p hp
    obtain ⟨r, hlive, -⟩ := mem_rawPoints hp
    refine h.owns.ready_rawPoints hp (fun hgiven => ?_) source
    rw [hname]
    exact Given.may hdistinct (h.measured hlive) hc (hdescriptor ▸ hgiven)
  obtain ⟨source', heap', out, heq, hann, hall⟩ :=
    annotatePoints_ready (m.agg.rawPoints order) gen h.owns.rawDone hsource hready (pairwise_rawPoints _ _)
  have hdef : m.annotated gen source order = (source', heap', out) := heq
  refine ⟨⟨⟨c, hc, hconfig⟩, ?_, ?_⟩, ?_, ?_⟩
  · rw [RawMetric.exported, hdef]
    exact hann.owns
  · exact fun hA => h.measured (live_rawDone hA).1
  · rw [hdef]
    exact hann.sound
  · intro t ht
    obtain ⟨p, dp, hmem, rfl⟩ := mem_tasks ht
    rw [hdef] at hmem
    obtain ⟨-, hident⟩ := (forall₂_iff_zip.mp hall).2 hmem
    obtain ⟨r, hlive, -⟩ := mem_rawPoints (of_mem_zip hmem).1
    refine ⟨(k, p.1), h.measured hlive, c, hc, hscope, hname, htype, ?_, ?_⟩
    · unfold wirePoint
      split <;> rfl
    · unfold wirePoint
      rcases hident with ⟨hzero, hattrs⟩ | hmay
      · rw [if_pos hzero]
        exact .inl ⟨rfl, hattrs⟩
      · obtain ⟨-, -, hne, -, -⟩ := id hmay
        rw [if_neg hne]
        exact .inr ⟨rfl, hname ▸ hmay⟩

theorem exportMetrics_ok (hdistinct : x.Distinguishes series) (gen : Nat) (ms : List RawMetric) :
    ∀ {k : Nat} {source : SourceState} (orders : Nat → RangeOrder (Attributes × Nat)),
      (∀ {j} {m : RawMetric}, ms[j]? = some m → m.Ok sc x series (k + j)) → source.Sound (Given sc x series) →
      (∀ {j} {m : RawMetric}, (exportMetrics gen source orders ms).2.1[j]? = some m →
        m.Ok sc x series (k + j)) ∧ (exportMetrics gen source orders ms).1.Sound (Given sc x series) ∧
        ∀ t ∈ (exportMetrics gen source orders ms).2.2.flatMap WireMetric.tasks, TaskOk sc x series t := by
  induction ms with
  | nil =>
    intro k source orders _ hsource
    exact ⟨fun h => by simp [exportMetrics] at h, hsource, fun t ht => by simp [exportMetrics] at ht⟩
  | cons m ms ih =>
    intro k source orders hms hsource
    have hm : m.Ok sc x series k := hms (j := 0) rfl
    obtain ⟨hok, hsound, htasks⟩ := hm.exported hdistinct gen hsource (orders 0)
    have hrest : ∀ {j} {m : RawMetric}, ms[j]? = some m → m.Ok sc x series (k + 1 + j) := by
      intro j m' hj
      rw [Nat.add_right_comm, Nat.add_assoc]
      exact hms (j := j + 1) hj
    obtain ⟨hoks, hsounds, htaskss⟩ := ih (fun j => orders (j + 1)) hrest hsound
    refine ⟨fun {j m'} hj => ?_, hsounds, fun t ht => ?_⟩
    · cases j with
      | zero =>
        obtain rfl := some.inj hj
        exact hok
      | succ j =>
        have hindex : k + 1 + j = k + (j + 1) := by omega
        exact hindex ▸ hoks hj
    · rcases mem_append.mp ht with ht | ht
      · exact htasks t ht
      · exact htaskss t ht

theorem Exporter.Ok.export (h : e.Ok sc x series) (hdistinct : x.Distinguishes series)
    (orders : Nat → RangeOrder (Attributes × Nat)) :
    (e.export orders).1.Ok sc x series ∧ (e.export orders).2.resourceKey = x.wireResourceKey ∧
      ∀ t ∈ (e.export orders).2.tasks, TaskOk sc x series t := by
  have hsource : (e.dict.sources.get {} e.resourceKey).Sound (Given sc x series) :=
    (h.dict e.resourceKey).mono fun key id hgiven => hgiven h.resourceKey
  obtain ⟨hmetrics, hsound, htasks⟩ :=
    exportMetrics_ok hdistinct (e.dict.generation + 1) e.metrics (k := 0) orders
      (fun {j m} hj => (Nat.zero_add j).symm ▸ h.metrics hj) hsource
  refine ⟨⟨h.resourceKey, h.wireResourceKey, fun {j m} hj => Nat.zero_add j ▸ hmetrics hj, ?_⟩, h.wireResourceKey,
    htasks⟩
  exact (h.dict.insert (hsound.mono fun key id hgiven _ => hgiven) _).sweep _

end Known

end AsapCollector
