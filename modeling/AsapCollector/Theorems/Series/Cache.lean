import AsapCollector.Series.Cache

/-! A source that stays in the cache never gives an id to a second series, so what is true of an id that was given out
stays true, unless the whole source is deleted and starts over. -/

namespace AsapCollector

open Function AList

namespace SeriesSource

/-- `src'` is a later state of `src`: the ids given out before still mean what they meant, if they mean
anything. -/
structure Extends (src src' : SeriesSource) : Prop where
  nextID : src.nextID ≤ src'.nextID
  records : ∀ {id rec'}, id < src.nextID → src'.series.lookup id = some rec' →
    ∃ rec, src.series.lookup id = some rec ∧ rec'.metricName = rec.metricName ∧ rec'.attrs = rec.attrs

variable (src : SeriesSource)

theorem Extends.refl : Extends src src := ⟨le_rfl, fun _ h => ⟨_, h, rfl, rfl⟩⟩

theorem extends_assignSeries (rec : SeriesRecord) : Extends src (src.assignSeries rec).1 := by
  have hid : src.nextID ≤ (src.assignSeries rec).2 := by
    unfold assignSeries
    simp only
    split <;> omega
  refine ⟨Nat.le_succ_of_le hid, fun {id rec'} hlt hlookup => ⟨rec', ?_, rfl, rfl⟩⟩
  have hne : id ≠ (src.assignSeries rec).2 := by omega
  rw [← hlookup]
  exact (lookup_insert_ne hne).symm

theorem extends_hydrateFromSeries (id : Nat) (metricName : Bytes) (dataType : MetricKind)
    (now : Int) : Extends src (src.hydrateFromSeries id metricName dataType now).1 := by
  unfold hydrateFromSeries
  split
  · rename_i rec hrec
    split
    · refine ⟨le_rfl, fun {id' rec'} _ hlookup => ?_⟩
      by_cases hid : id' = id
      · subst hid
        rw [lookup_insert, Option.some.injEq] at hlookup
        subst hlookup
        exact ⟨rec, hrec, rfl, rfl⟩
      · rw [lookup_insert_ne hid] at hlookup
        exact ⟨rec', hlookup, rfl, rfl⟩
    · exact Extends.refl src
  · exact Extends.refl src

theorem extends_evict (cutoff : Int) : Extends src (src.evict cutoff) :=
  ⟨le_rfl, fun _ h => ⟨_, (GoMap.lookup_filter.mp h).1, rfl, rfl⟩⟩

/-- The points an exporter sends carry attributes or an id, not both, so none is stored under an id of
the exporter's choosing. -/
theorem extends_rehydrateDataPoint (resourceKey : Bytes) {t : PointTask} (now : Int)
    (ht : t.point.attributes ≠ [] → t.point.seriesID = 0) :
    Extends src (src.rehydrateDataPoint resourceKey t now).1 := by
  unfold rehydrateDataPoint
  split
  · rename_i hattrs
    rw [if_pos (ht hattrs)]
    exact extends_assignSeries src _
  · split
    · exact Extends.refl src
    · split
      · rename_i heq
        have h := extends_hydrateFromSeries src t.point.seriesID t.metricName t.dataType now
        rwa [heq] at h
      · rename_i heq
        have h := extends_hydrateFromSeries src t.point.seriesID t.metricName t.dataType now
        rwa [heq] at h

theorem rehydrateDataPoint_assignment {src : SeriesSource} {resourceKey : Bytes} {t : PointTask} {now : Int}
    {a : Assignment} (ha : (src.rehydrateDataPoint resourceKey t now).2.2 = some a) :
    a = ⟨resourceKey, t.scopeKey, t.metricName, t.metricType, fingerprintAttributes t.point.attributes, a.seriesID⟩ ∧
      a.seriesID ≠ 0 ∧ a.seriesID < (src.rehydrateDataPoint resourceKey t now).1.nextID ∧
      (src.rehydrateDataPoint resourceKey t now).1.series.lookup a.seriesID =
        some ⟨t.metricName, t.dataType, t.point.attributes, now⟩ ∧
      t.point.attributes ≠ [] ∧ t.point.seriesID = 0 := by
  revert ha
  unfold rehydrateDataPoint
  split
  · rename_i hattrs
    split
    · rename_i hid
      intro ha
      obtain rfl := Option.some.inj ha
      refine ⟨rfl, ?_, Nat.lt_succ_self _, lookup_insert _, hattrs, hid⟩
      simp only [assignSeries]
      split <;> omega
    · intro ha
      cases ha
  · split
    · intro ha
      cases ha
    · split <;> intro ha <;> cases ha

/-- A point that came with an id only keeps its empty attributes or gets those of a record of its metric
name. -/
theorem rehydrateDataPoint_attributes {src : SeriesSource} {resourceKey : Bytes} {t : PointTask} {now : Int}
    (ht : t.point.attributes = []) :
    (src.rehydrateDataPoint resourceKey t now).2.1.attributes = [] ∨
      ∃ rec, src.series.lookup t.point.seriesID = some rec ∧ rec.metricName = t.metricName ∧
        (src.rehydrateDataPoint resourceKey t now).2.1.attributes = rec.attrs := by
  unfold rehydrateDataPoint
  rw [if_neg (not_not.mpr ht)]
  split
  · exact .inl ht
  · unfold hydrateFromSeries
    cases hrec : src.series.lookup t.point.seriesID with
    | none => exact .inl ht
    | some rec =>
      by_cases hmatch : rec.metricName = t.metricName ∧ rec.dataType = t.dataType
      · simp only [hmatch, and_self, if_true]
        exact .inr ⟨rec, rfl, hmatch.1, rfl⟩
      · simp only [hmatch, if_false]
        exact .inl ht

end SeriesSource

namespace SeriesCache

def Keeps (sc sc' : SeriesCache) (key : Bytes) : Prop :=
  ∀ {src}, sc.sources.lookup key = some src →
    sc'.sources.lookup key = some src ∧ (sc.heap src).Extends (sc'.heap src)

/-- The id was given out by the resource's source, and a record under it belongs to the series: it can
only be one with this metric name and these attributes. -/
def Gave (sc : SeriesCache) (key : Bytes) (id : Nat) (name : Bytes) (A : Attributes) : Prop :=
  ∃ src, sc.sources.lookup key = some src ∧ id ≠ 0 ∧ id < (sc.heap src).nextID ∧
    ∀ {rec}, (sc.heap src).series.lookup id = some rec → rec.metricName = name ∧ rec.attrs = A

/-- A point of the metric with this id cannot get other attributes than these. -/
def May (sc : SeriesCache) (key name : Bytes) (A : Attributes) (id : Nat) : Prop :=
  ∃ src, sc.sources.lookup key = some src ∧ id ≠ 0 ∧ id < (sc.heap src).nextID ∧
    ∀ {rec}, (sc.heap src).series.lookup id = some rec → rec.metricName = name → rec.attrs = A

variable {sc sc' : SeriesCache} {key name : Bytes} {A : Attributes} {id : Nat}

theorem Gave.keeps (h : sc.Gave key id name A) (hk : sc.Keeps sc' key) : sc'.Gave key id name A := by
  obtain ⟨src, hsrc, hne, hlt, hrec⟩ := h
  obtain ⟨hsrc', hext⟩ := hk hsrc
  refine ⟨src, hsrc', hne, hlt.trans_le hext.nextID, fun hlookup => ?_⟩
  obtain ⟨rec, hold, hname, hattrs⟩ := hext.records hlt hlookup
  rw [hname, hattrs]
  exact hrec hold

theorem May.keeps (h : sc.May key name A id) (hk : sc.Keeps sc' key) : sc'.May key name A id := by
  obtain ⟨src, hsrc, hne, hlt, hrec⟩ := h
  obtain ⟨hsrc', hext⟩ := hk hsrc
  refine ⟨src, hsrc', hne, hlt.trans_le hext.nextID, fun hlookup hname => ?_⟩
  obtain ⟨rec, hold, hname', hattrs⟩ := hext.records hlt hlookup
  rw [hattrs]
  exact hrec hold (hname' ▸ hname)

def Allocated (sc : SeriesCache) : Prop := ∀ key src, sc.sources.lookup key = some src → src < sc.fresh

theorem getOrCreateSource_cases (sc : SeriesCache) (key : Bytes) :
    (∃ src, sc.sources.lookup key = some src ∧ sc.getOrCreateSource key = (sc, src)) ∨
      (sc.sources.lookup key = none ∧
        sc.getOrCreateSource key =
          ({ sc with heap := update sc.heap sc.fresh {}, fresh := sc.fresh + 1,
                     sources := sc.sources.insert key sc.fresh }, sc.fresh)) := by
  unfold getOrCreateSource
  cases h : sc.sources.lookup key with
  | none => exact .inr ⟨rfl, rfl⟩
  | some src => exact .inl ⟨src, rfl, rfl⟩

theorem getOrCreateSource_spec (halloc : sc.Allocated) (key : Bytes) :
    (sc.getOrCreateSource key).1.Allocated ∧
      (sc.getOrCreateSource key).1.sources.lookup key = some (sc.getOrCreateSource key).2 ∧
      ∀ key', sc.Keeps (sc.getOrCreateSource key).1 key' := by
  rcases getOrCreateSource_cases sc key with ⟨src, hsrc, heq⟩ | ⟨hnone, heq⟩
  · rw [heq]
    exact ⟨halloc, hsrc, fun key' src' h => ⟨h, .refl _⟩⟩
  · rw [heq]
    refine ⟨GoMap.forall_lookup_insert (fun _ _ h => Nat.lt_succ_of_lt (halloc _ _ h)) (Nat.lt_succ_self _),
      lookup_insert _, fun key' src' h => ?_⟩
    · have hkey : key' ≠ key := by
        rintro rfl
        rw [hnone] at h
        cases h
      have hfresh : src' ≠ sc.fresh := Nat.ne_of_lt (halloc _ _ h)
      refine ⟨by rw [lookup_insert_ne hkey, h], ?_⟩
      simp only [update_of_ne hfresh]
      exact .refl _

theorem keeps_update {src : Nat} {later : SeriesSource} (h : (sc.heap src).Extends later) (key : Bytes) :
    sc.Keeps { sc with heap := update sc.heap src later } key := by
  intro src' hsrc'
  refine ⟨hsrc', ?_⟩
  by_cases heq : src' = src
  · subst heq
    simpa only [update_self] using h
  · simp only [update_of_ne heq]
    exact .refl _

theorem Allocated.update (h : sc.Allocated) {src : Nat} {later : SeriesSource} :
    Allocated { sc with heap := update sc.heap src later } := h

theorem Allocated.evict (h : sc.Allocated) (now : Int) : (sc.evict now).Allocated := by
  unfold SeriesCache.evict
  split
  · exact h
  · exact fun _ _ hsrc => h _ _ (GoMap.lookup_filter.mp hsrc).1

theorem evict_cases (sc : SeriesCache) (now : Int) (key : Bytes) :
    sc.Keeps (sc.evict now) key ∨ ∃ src, sc.sources.lookup key = some src ∧ sc.deletes now src = true := by
  by_cases hdel : ∃ src, sc.sources.lookup key = some src ∧ sc.deletes now src = true
  · exact .inr hdel
  · refine .inl fun {src} hsrc => ?_
    have hstay : sc.deletes now src = false := by
      by_contra h
      exact hdel ⟨src, hsrc, by simpa using h⟩
    unfold evict
    split
    · exact ⟨hsrc, .refl _⟩
    · refine ⟨GoMap.lookup_filter.mpr ⟨hsrc, by simp [hstay]⟩, ?_⟩
      simp only
      split
      · exact SeriesSource.extends_evict _ _
      · exact .refl _

end SeriesCache

end AsapCollector
