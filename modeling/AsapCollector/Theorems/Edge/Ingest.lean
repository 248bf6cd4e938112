import AsapCollector.Edge.Ingest

/-! With `drop_original` the points of a warm metric have its aggregator. Those of a cold metric have the cold encoder
only where there is one, and never when an SDK has sampled them by rows. -/

namespace AsapCollector.Edge.IngestConfig

open List MetricSetting

variable {newCountSketch : Int → Int → Bool} {c : IngestConfig}

def archives (c : IngestConfig) (m : IngestMetric) : List Sample :=
  (m.points.map (·.sample m.name)).filter fun x => c.coldEnabled && !c.coldSkip x.metric && x.rowSampled.isNone

def observes (newCountSketch : Int → Int → Bool) (c : IngestConfig) (m : IngestMetric) : List Sample :=
  (m.points.map (·.sample m.name)).filter fun x => c.hasAggregator newCountSketch x.metric

theorem consumeMetric_eq (h : Handed) (m : IngestMetric) : c.consumeMetric newCountSketch h m =
    { h with archived := h.archived ++ c.archives m, observed := h.observed ++ c.observes newCountSketch m } := by
  unfold consumeMetric archives observes
  induction m.points generalizing h with
  | nil => simp
  | cons dp points ih =>
    have hname : (dp.sample m.name).metric = m.name := rfl
    rw [foldl_cons, ih]
    simp only [consumePoint, map_cons, filter_cons, hname]
    split <;> split <;> simp

theorem foldl_consumeMetric (ms : List IngestMetric) (h : Handed) : ms.foldl (c.consumeMetric newCountSketch) h =
    { h with archived := h.archived ++ ms.flatMap c.archives,
             observed := h.observed ++ ms.flatMap (c.observes newCountSketch) } := by
  induction ms generalizing h with
  | nil => simp
  | cons m ms ih => simp [ih, consumeMetric_eq]

theorem flatten_removeConfigured (md : IngestBatch) : (c.removeConfigured md).flatten.flatten =
    md.flatten.flatten.filter fun m => m.isUnsupportedType || !c.configured m.name := by
  simp only [removeConfigured, flatten_filter_not_isEmpty, flatten_flatten, map_map, Function.comp_def,
    filter_flatten]

/-- A data point of a metric is handed to the next consumer, to a cold encoder or to an aggregator. -/
def Reached (h : Handed) (m : IngestMetric) (dp : NumberDataPoint) : Prop :=
  m ∈ h.forwarded.flatten.flatten ∨ dp.sample m.name ∈ h.archived ∨ dp.sample m.name ∈ h.observed

theorem reached_iff {md : IngestBatch} {m : IngestMetric} (hm : m ∈ md.flatten.flatten) {dp : NumberDataPoint}
    (hdp : dp ∈ m.points) : Reached (c.consumeMetrics newCountSketch md) m dp ↔
      (c.dropOriginal = false ∨ c.configured m.name = false) ∨
      (c.coldEnabled = true ∧ c.coldSkip m.name = false ∧ dp.extractRowSampledMeta = none) ∨
      c.hasAggregator newCountSketch m.name = true := by
  have hnumeric : m.isUnsupportedType = false := by
    unfold IngestMetric.points at hdp
    unfold IngestMetric.isUnsupportedType
    cases hdata : m.data <;> simp_all
  have hx : dp.sample m.name ∈ m.points.map (·.sample m.name) := mem_map_of_mem hdp
  unfold Reached consumeMetrics
  rw [foldl_consumeMetric]
  refine or_congr ?_ (or_congr ?_ ?_)
  · cases hdrop : c.dropOriginal with
    | false => simpa using hm
    | true =>
      simp only [if_true, flatten_removeConfigured, mem_filter, hm, hnumeric, Bool.false_or, Bool.not_eq_true',
        true_and, Bool.true_eq_false, false_or]
  · simp only [archives, nil_append, mem_flatMap, mem_filter, Bool.and_eq_true, Bool.not_eq_true',
      Option.isNone_iff_eq_none, and_assoc]
    exact ⟨fun ⟨_, _, _, h⟩ => h, fun h => ⟨m, hm, hx, h⟩⟩
  · simp only [observes, nil_append, mem_flatMap, mem_filter]
    exact ⟨fun ⟨_, _, _, h⟩ => h, fun h => ⟨m, hm, hx, h⟩⟩

theorem eq_of_metric (hvalid : c.validate = true) {s t : MetricSetting} (hs : s ∈ c.metrics) (ht : t ∈ c.metrics)
    (h : s.metric = t.metric) : s = t := by
  unfold validate at hvalid
  simp only [Bool.and_eq_true, decide_eq_true_eq] at hvalid
  exact inj_on_of_nodup_map hvalid.1 hs ht h

section
variable (hlib : ∀ rows cols : Int, 1 ≤ rows → 2 ≤ cols → cols.toNat &&& (cols.toNat - 1) = 0 →
    newCountSketch rows cols = true) (hvalid : c.validate = true)
include hlib hvalid

theorem wired_of_validate {s : MetricSetting} (hs : s ∈ c.metrics) :
    s.wired newCountSketch = true ∧ (s.tier = .warm ∨ s.tier = .both ∨ s.tier = .unset ∨ s.tier = .cold) := by
  unfold validate at hvalid
  simp only [Bool.and_eq_true, all_eq_true] at hvalid
  obtain ⟨⟨⟨-, hfamily⟩, htier⟩, hdims⟩ := hvalid.2 s hs
  refine ⟨?_, by cases h : s.tier <;> simp_all⟩
  unfold wired
  cases h : s.family with
  | other text => simp [h] at hfamily
  | countSketch =>
    have hdims : s.validateCountSketchDims = true := by simpa [h] using hdims
    unfold validateCountSketchDims at hdims
    simp only [Bool.and_eq_true, decide_eq_true_eq] at hdims ⊢
    refine ⟨hlib _ _ ?_ ?_ hdims.1, hdims.2⟩ <;> unfold Processor.csmDims <;> split <;> omega
  | _ => rfl

theorem decides {s : MetricSetting} (hs : s ∈ c.metrics) : c.configured s.metric = true ∧
    c.coldSkip s.metric = !s.coldEligible ∧ c.hasAggregator newCountSketch s.metric = s.warmEligible := by
  have honly : ∀ t ∈ c.metrics, t.metric = s.metric → t = s := fun t ht htn => eq_of_metric hvalid ht hs htn
  refine ⟨any_eq_true.mpr ⟨s, hs, by simp⟩, ?_, ?_⟩
  · rw [Bool.eq_iff_iff]
    unfold coldSkip
    simp only [any_eq_true, Bool.and_eq_true, decide_eq_true_eq]
    exact ⟨fun ⟨t, ht, htn, hcold⟩ => honly t ht htn ▸ hcold, fun h => ⟨s, hs, rfl, h⟩⟩
  · unfold hasAggregator
    cases hfind : c.metrics.reverse.find? fun t => t.metric = s.metric && t.warmEligible with
    | none =>
      have hnone := find?_eq_none.mp hfind s (mem_reverse.mpr hs)
      exact Eq.symm (by simpa using hnone)
    | some t =>
      have hprop := find?_some hfind
      simp only [Bool.and_eq_true, decide_eq_true_eq] at hprop
      obtain rfl := honly t (mem_reverse.mp (mem_of_find?_eq_some hfind)) hprop.1
      rw [hprop.2]
      exact (wired_of_validate hlib hvalid hs).1

theorem reached_iff_of_validate {md : IngestBatch} {m : IngestMetric} (hm : m ∈ md.flatten.flatten)
    {dp : NumberDataPoint} (hdp : dp ∈ m.points) : Reached (c.consumeMetrics newCountSketch md) m dp ↔
      c.dropOriginal = false ∨ ∀ s ∈ c.metrics, s.metric = m.name → s.tier = .cold →
        c.coldEnabled = true ∧ dp.extractRowSampledMeta = none := by
  rw [reached_iff hm hdp, or_assoc]
  refine or_congr_right ?_
  by_cases hconf : ∃ s ∈ c.metrics, s.metric = m.name
  · obtain ⟨s, hs, hname⟩ := hconf
    have hall : (∀ t ∈ c.metrics, t.metric = m.name → t.tier = .cold →
        c.coldEnabled = true ∧ dp.extractRowSampledMeta = none) ↔
        (s.tier = .cold → c.coldEnabled = true ∧ dp.extractRowSampledMeta = none) :=
      ⟨fun h => h s hs hname, fun h t ht htn => eq_of_metric hvalid ht hs (htn.trans hname.symm) ▸ h⟩
    obtain ⟨hconf, hskip, hagg⟩ := decides hlib hvalid hs
    rw [hall, ← hname, hconf, hskip, hagg]
    unfold coldEligible warmEligible
    rcases (wired_of_validate hlib hvalid hs).2 with h | h | h | h <;> simp [h]
  · have hnot : c.configured m.name = false := by simpa [configured] using hconf
    simp only [hnot, true_or, true_iff]
    exact fun s hs hname => absurd ⟨s, hs, hname⟩ hconf

/-- Every data point of a batch is handed on exactly when originals are forwarded, or each point of a metric
that is configured cold meets a cold encoder and is not sampled by rows. -/
theorem points_reach_destination_iff (md : IngestBatch) :
    (∀ m ∈ md.flatten.flatten, ∀ dp ∈ m.points, Reached (c.consumeMetrics newCountSketch md) m dp) ↔
      c.dropOriginal = false ∨ ∀ m ∈ md.flatten.flatten, ∀ dp ∈ m.points, ∀ s ∈ c.metrics, s.metric = m.name →
        s.tier = .cold → c.coldEnabled = true ∧ dp.extractRowSampledMeta = none := by
  constructor
  · intro h
    by_cases hdrop : c.dropOriginal = false
    · exact .inl hdrop
    · exact .inr fun m hm dp hdp =>
        ((reached_iff_of_validate hlib hvalid hm hdp).mp (h m hm dp hdp)).resolve_left hdrop
  · exact fun h m hm dp hdp => (reached_iff_of_validate hlib hvalid hm hdp).mpr (h.imp_right fun h => h m hm dp hdp)

end

def coldOnly (coldEnabled : Bool) : IngestConfig :=
  { metrics := [{ family := .sum, metric := str "requests", tier := .cold }], dropOriginal := true, coldEnabled }

def onePoint (attributes : List (Bytes × AttributeValue)) : IngestBatch :=
  [[[⟨str "requests", .sum [⟨attributes, Float64.ofInt 1, 5⟩]⟩]]]

/-- What the wrapper documents of the constructor: both dimensions are positive, and the columns a power of two. -/
def documented (rows cols : Int) : Bool := 1 ≤ rows && 1 ≤ cols && cols.toNat &&& (cols.toNat - 1) = 0

theorem points_reach_destination_archived :
    (coldOnly true).validate = true ∧ ∀ m ∈ (onePoint []).flatten.flatten, ∀ dp ∈ m.points,
      Reached ((coldOnly true).consumeMetrics documented (onePoint [])) m dp := by
  have hlib (rows cols : Int) (hrows : 1 ≤ rows) (hcols : 2 ≤ cols) (hpow : cols.toNat &&& (cols.toNat - 1) = 0) :
      documented rows cols = true := by
    have : 1 ≤ cols := by omega
    simp [documented, *]
  refine ⟨by decide, (points_reach_destination_iff hlib (by decide) _).mpr (.inr ?_)⟩
  simp [onePoint, IngestMetric.points, coldOnly, NumberDataPoint.extractRowSampledMeta, NumberDataPoint.attributeOf]

/-- Without a cold tier the point has no destination, and with one it has none when it is sampled by rows. -/
theorem cold_points_vanish :
    let sampled := onePoint [(NumberDataPoint.rowSampledAdmittedRowsKey, ⟨str "1", 1, ⟨0⟩⟩)]
    ((coldOnly false).validate = true ∧
      let h := (coldOnly false).consumeMetrics documented (onePoint [])
      h.forwarded.flatten.flatten.length + h.archived.length + h.observed.length = 0) ∧
    ((coldOnly true).validate = true ∧
      let h := (coldOnly true).consumeMetrics documented sampled
      h.forwarded.flatten.flatten.length + h.archived.length + h.observed.length = 0) := by
  decide

end AsapCollector.Edge.IngestConfig
