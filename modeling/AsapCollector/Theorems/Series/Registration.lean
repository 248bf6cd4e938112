import AsapCollector.Series.Registration
import AsapCollector.Theorems.Sdk.Annotate
import AsapCollector.Theorems.Series.Cache

/-! An assignment reaches the entry of its series exactly when resource key, scope key and metric type agree on both
sides. -/

namespace AsapCollector

open List PrintedValue

theorem appendAttributes_cons (text : PrintedValue → Bytes) (kv : Bytes × PrintedValue)
    (attrs : List (Bytes × PrintedValue)) :
    appendAttributes text (kv :: attrs) = kv.1 ++ str "=" ++ (text kv.2 ++ 124 :: appendAttributes text attrs) := by
  have hsep : str "|" = [124] := by decide
  simp [appendAttributes, hsep]

theorem appendAttributes_inj (attrs : List (Bytes × PrintedValue)) :
    appendAttributes emit attrs = appendAttributes PrintedValue.asString attrs ↔ PrintedAlike attrs := by
  induction attrs with
  | nil => simp [appendAttributes, PrintedAlike]
  | cons kv attrs ih =>
    have hsplit : kv.2.emit ++ 124 :: appendAttributes emit attrs =
        kv.2.asString ++ 124 :: appendAttributes PrintedValue.asString attrs ↔
        kv.2.emit = kv.2.asString ∧
          appendAttributes emit attrs = appendAttributes PrintedValue.asString attrs := by
      rcases kv.2.unlike with heq | ⟨hemit, hasString⟩
      · simp [heq]
      · exact append_separator_inj hemit hasString
    rw [appendAttributes_cons, appendAttributes_cons, append_cancel_left_eq, hsplit, ih]
    simp [PrintedAlike]

theorem resourceKey_eq_iff (r : Resource) : r.resourceKey = r.buildResourceKey ↔ PrintedAlike r.attributes := by
  rw [Resource.resourceKey, Resource.buildResourceKey, append_cancel_left_eq, appendAttributes_inj]

theorem scopeKey_eq_iff (s : Scope) : s.scopeKey = s.buildScopeKey ↔ PrintedAlike s.attributes := by
  rw [Scope.scopeKey, Scope.buildScopeKey, append_cancel_left_eq, appendAttributes_inj]

variable (data : MetricData)

def MetricData.wireType : Bytes := (pointMetricType data.valueType data.valueType data.kind).getD []

theorem MetricData.pointMetricType_eq :
    pointMetricType data.valueType data.valueType data.kind = some data.wireType := by
  rcases data with (_ | _) | (_ | _) | _ | _ | _ | _ | _ | _ | _ | _ <;> rfl

theorem MetricData.wireType_cases :
    (data.sameName = true ∧ data.wireType = data.metricType) ∨
      (data.sameName = false ∧
        ∃ c, data.wireType.getLast? = some c ∧ ∃ c', data.metricType.getLast? = some c' ∧ c ≠ c') := by
  rcases data with n | n | n | n | n | n | n | n | _ | _
  any_goals cases n
  all_goals first
    | exact .inl ⟨rfl, rfl⟩
    | exact .inr ⟨rfl, _, rfl, _, rfl, by decide⟩

theorem fingerprintAttributes_eq {attrs : Attributes} (hstrings : ∀ kv ∈ attrs, ∃ s, kv.2 = AttrValue.ofString s) :
    fingerprintAttributes attrs = attributesFingerprint attrs := by
  refine flatMap_congr fun kv hkv => ?_
  obtain ⟨s, hs⟩ := hstrings kv hkv
  rw [hs]
  rfl

/-- Under one metric name and fingerprint, two descriptors are the same only if their scope keys and metric types
are. -/
theorem descriptor_eq_iff {scope scope' name fingerprint : Bytes} (data : MetricData) :
    descriptorKeyFromParts scope' data.wireType name fingerprint = descriptorKeyFromParts scope data.metricType name
      fingerprint ↔ data.sameName = true ∧ scope' = scope := by
  simp only [descriptorKeyFromParts, append_left_inj]
  rcases data.wireType_cases with ⟨hsame, heq⟩ | ⟨hother, c, hc, c', hc', hne⟩
  · simp [hsame, heq]
  · refine iff_of_false (fun h => hne ?_) (by simp [hother])
    simpa [getLast?_append, hc, hc'] using congrArg getLast? h

/-- What tells the receiver the series of the point. -/
def DataPoint.identity (dp : DataPoint) : Nat × Attributes := (dp.seriesID, dp.attributes)

namespace ReportedMetric

open DataPoint

variable {m : ReportedMetric} {d : Dictionary} {heap : SeriesHeap} {sc : SeriesCache} {now : Int} {dp : DataPoint}

theorem identity_annotate (m : ReportedMetric) (d : Dictionary) (heap : SeriesHeap) (dp : DataPoint) :
    (m.annotate d heap dp).2.2.map identity =
      [((d.sources.get {} m.resource.resourceKey).assignSeriesID m.descriptor (d.generation + 1) dp).2.identity] := by
  simp only [annotate, Dictionary.annotate, annotatePoints, annotatePoint, map_cons, map_nil,
    identity, (clearAttrs_point _ _).1, clearAttrs_attributes, writeSink_point]

theorem unknown_of_sent (hne : dp.attributes ≠ [])
    (hsent : (m.annotate d heap dp).2.2.map identity = [(0, dp.attributes)]) :
    d.Unknown m.resource.resourceKey (m.descriptor dp.attributes) := by
  rw [identity_annotate, singleton_inj, identity, Prod.mk.injEq] at hsent
  rw [Dictionary.unknown_iff]
  intro e he
  refine Bool.eq_false_iff.mpr fun hreg => ?_
  by_cases hdp : dp.seriesID = 0
  · rw [SourceState.assignSeriesID_of_registered hdp he hreg] at hsent
    exact hne hsent.2.symm
  · rw [SourceState.assignSeriesID, if_pos hdp] at hsent
    exact hdp hsent.1

theorem assigned_eq (hne : dp.attributes ≠ [])
    (hsent : (m.annotate d heap dp).2.2.map identity = [(0, dp.attributes)]) (sc : SeriesCache) (now : Int) :
    ∃ id, id ≠ 0 ∧ m.assigned d heap sc now dp =
      [⟨m.resource.buildResourceKey, m.scope.buildScopeKey, m.name, m.data.wireType,
        fingerprintAttributes dp.attributes, id⟩] := by
  obtain ⟨o, ho⟩ : ∃ o, (m.annotate d heap dp).2.2 = [o] := length_eq_one_iff.mp (by simpa using congrArg length hsent)
  simp only [ho, map_cons, map_nil, singleton_inj, identity, Prod.mk.injEq] at hsent
  have htasks : (m.wire dp.attributes [o]).tasks = [⟨m.scope.buildScopeKey, m.name, m.data.wireType, m.data.kind,
      ⟨dp.attributes, 0, dp.attributes, m.data.valueType⟩⟩] := by
    simp [wire, wirePoint, WireMetric.tasks, hsent, m.data.pointMetricType_eq]
  simp only [assigned, ho, SeriesCache.rehydrate, htasks, SeriesSource.rehydrateTasks, SeriesSource.rehydrateDataPoint,
    ne_eq, hne, not_false_eq_true, if_true, Option.toList_some, append_nil]
  refine ⟨_, ?_, rfl⟩
  simp only [SeriesSource.assignSeries]
  split <;> omega

theorem annotate_of_registered {e : SeriesEntry} (hdp : dp.seriesID = 0)
    (he : (d.sources.get {} m.resource.resourceKey).entries.lookup (m.descriptor dp.attributes) = some e)
    (hreg : e.registered = true) : (m.annotate d heap dp).2.2.map identity = [(e.id, [])] := by
  rw [identity_annotate, SourceState.assignSeriesID_of_registered hdp he hreg]
  rfl

/-- After the point of a series has been annotated, sent with its attributes and answered by the collector, the next
point of the series gets the assigned id in place of the attributes exactly when the data type goes by one name on
both sides and both sides print the attributes of resource and scope alike. -/
theorem registration_converges_iff (m : ReportedMetric) (d : Dictionary) (sc : SeriesCache) (now : Int)
    (heap heap' : SeriesHeap) (dp dp' : DataPoint)
    (hstrings : ∀ kv ∈ dp.attributes, ∃ s, kv.2 = AttrValue.ofString s) (hne : dp.attributes ≠ [])
    (hsent : (m.annotate d heap dp).2.2.map identity = [(0, dp.attributes)])
    (hsame : dp'.identity = (0, dp.attributes)) :
    (∃ a, m.assigned d heap sc now dp = [a] ∧ a.seriesID ≠ 0 ∧
        (m.annotate (m.registered d heap sc now dp) heap' dp').2.2.map identity = [(a.seriesID, [])]) ↔
      m.data.sameName = true ∧ PrintedAlike m.resource.attributes ∧ PrintedAlike m.scope.attributes := by
  obtain ⟨id, hid, hassigned⟩ := assigned_eq hne hsent sc now
  obtain ⟨hdp', hattrs⟩ := Prod.mk.inj hsame
  rw [fingerprintAttributes_eq hstrings] at hassigned
  have hkey : ∀ {a}, m.assigned d heap sc now dp = [a] →
      ((a.resourceKey = m.resource.resourceKey ∧ a.descriptor = m.descriptor dp.attributes) ↔
        m.data.sameName = true ∧ PrintedAlike m.resource.attributes ∧ PrintedAlike m.scope.attributes) := by
    intro a ha
    rw [hassigned, singleton_inj] at ha
    subst ha
    rw [← resourceKey_eq_iff, ← scopeKey_eq_iff]
    simp only [Assignment.descriptor, descriptor, descriptorKey, descriptor_eq_iff]
    constructor
    · exact fun ⟨hres, hname, hscope⟩ => ⟨hname, hres.symm, hscope.symm⟩
    · exact fun ⟨hname, hres, hscope⟩ => ⟨hres.symm, hname, hscope.symm⟩
  constructor
  · rintro ⟨a, ha, -, hout⟩
    refine (hkey ha).mp (by_contra fun hother => ?_)
    have hunknown : (m.registered d heap sc now dp).Unknown m.resource.resourceKey (m.descriptor dp.attributes) := by
      rw [registered, ha]
      exact (Dictionary.Sound.annotate (unknown_of_sent hne hsent) _ _ _ _).applyOne hother
    have hpoint : ∀ p ∈ [(dp.attributes, dp')], p.1 = dp.attributes → p.2.seriesID = 0 ∧
        p.2.attributes = dp.attributes := by
      simp [hdp', hattrs]
    obtain ⟨-, hkept, -⟩ := hunknown.annotate heap' hpoint
    rw [map_cons, map_nil] at hkept
    rw [annotate] at hout
    generalize (Dictionary.annotate (m.registered d heap sc now dp) _ _ _ _).2.2 = sent at hkept hout
    obtain ⟨o, rest, hsame', -, rfl⟩ := forall₂_cons_left_iff.mp hkept
    have hempty : o.attributes = [] := (Prod.mk.inj (cons.inj hout).1).2
    exact hne ((hsame' rfl).2.symm.trans hempty)
  · intro halike
    obtain ⟨hres, hdescriptor⟩ := (hkey hassigned).mpr halike
    obtain ⟨e, he, hreg, heid⟩ := Dictionary.lookup_applyOne (m.annotate d heap dp).1 _
    rw [hres, hdescriptor] at he
    refine ⟨_, hassigned, hid, ?_⟩
    rw [registered, hassigned, ← heid]
    exact annotate_of_registered hdp' (hattrs ▸ he) hreg

def sampleMetric (data : MetricData) : ReportedMetric :=
  ⟨⟨[], [(str "service.name", .ofString (str "api"))]⟩, ⟨str "meter", [], [], []⟩, str "latency", data⟩

def samplePoint : DataPoint := { attributes := [(str "host", .ofString (str "a"))] }

theorem gauge_registers :
    ∃ a, (sampleMetric (.gauge .float64)).assigned {} (fun _ => {}) { ttl := 60 } 0 samplePoint = [a] ∧ a.seriesID ≠ 0 ∧
      ((sampleMetric (.gauge .float64)).annotate
        ((sampleMetric (.gauge .float64)).registered {} (fun _ => {}) { ttl := 60 } 0 samplePoint) (fun _ => {})
        samplePoint).2.2.map identity = [(a.seriesID, [])] := by
  refine (registration_converges_iff (sampleMetric (.gauge .float64)) {} { ttl := 60 } 0 (fun _ => {}) (fun _ => {})
    samplePoint samplePoint ?_ (by decide) (by decide) rfl).mpr ⟨rfl, ?_, ?_⟩
  · rintro kv hkv
    rw [mem_singleton.mp hkv]
    exact ⟨_, rfl⟩
  · rintro kv hkv
    rw [mem_singleton.mp hkv]
    rfl
  · exact fun kv hkv => nomatch hkv

/-- The collector assigns an id to the type `kllsketch`; the exporter goes on to look for `kllsketch_double`. -/
theorem kllSketch_never_registers :
    ((sampleMetric (.kllSketch .float64)).assigned {} (fun _ => {}) { ttl := 60 } 0 samplePoint).map
        Assignment.metricType = [str "kllsketch"] ∧
      ((sampleMetric (.kllSketch .float64)).annotate
        ((sampleMetric (.kllSketch .float64)).registered {} (fun _ => {}) { ttl := 60 } 0 samplePoint) (fun _ => {})
        samplePoint).2.2.map identity = [(0, samplePoint.attributes)] := by
  decide

end ReportedMetric

end AsapCollector
