import AsapCollector.Theorems.Edge.Aggregator
import AsapCollector.Theorems.Precompute.Tumbling

/-! While one aggregator consumes the samples of each series identity (`Separated`), no two frames of a run share an
identity; samples that are spread over shards and grouped again by their labels break it. -/

namespace AsapCollector.Edge.Processor

open Precompute SketchAggregator List Option AList SummaryFrameIdentity GoMap

variable {σ : Type} {hash : Bytes → UInt64} {F : Bytes → SketchImpl σ}

/-! ### Replacing aggregators -/

variable {p : Processor σ}

variable {site : Site} {sa : SketchAggregator σ} {bound : Nat}

theorem aggregator_setAggregator_self (h : p.aggregator site = some sa) (sa' : SketchAggregator σ) :
    (p.setAggregator site sa').aggregator site = some sa' := by
  obtain ⟨sh, hsh, -⟩ := bind_eq_some_iff.mp h
  unfold aggregator setAggregator
  rw [getElem?_modify_eq, hsh]
  exact lookup_insert _

theorem aggregator_setAggregator_of_ne (p : Processor σ) {site' : Site} (h : site' ≠ site) (sa' : SketchAggregator σ) :
    (p.setAggregator site sa').aggregator site' = p.aggregator site' := by
  unfold aggregator setAggregator
  by_cases hi : site'.1 = site.1
  · have hm : site'.2 ≠ site.2 := fun hm => h (Prod.ext hi hm)
    rw [hi, getElem?_modify_eq]
    cases p.shards[site.1]? with
    | none => rfl
    | some sh => exact lookup_insert_ne hm
  · dsimp only
    rw [getElem?_modify_ne _ _ (Ne.symm hi)]

theorem aggregator_visits (f : Site → SketchAggregator σ → SketchAggregator σ × FlushResult) :
    ∀ (sites : List Site) (acc : Processor σ × List (Site × FlushResult)), sites.Nodup → ∀ site,
      (sites.foldl (visit f) acc).1.aggregator site =
        if site ∈ sites then (acc.1.aggregator site).map fun sa => (f site sa).1 else acc.1.aggregator site
  | [], _, _, _ => (if_neg nofun).symm
  | s :: sites, acc, hnodup, site => by
    obtain ⟨hs, hnodup⟩ := nodup_cons.mp hnodup
    rw [foldl_cons, aggregator_visits f sites _ hnodup]
    have hother : site ≠ s → (visit f acc s).1.aggregator site = acc.1.aggregator site := by
      intro hne
      unfold visit
      split
      · rfl
      · exact aggregator_setAggregator_of_ne _ hne _
    by_cases heq : site = s
    · subst heq
      rw [if_neg hs, if_pos mem_cons_self]
      unfold visit
      cases hsa : acc.1.aggregator site with
      | none => exact hsa
      | some sa => exact aggregator_setAggregator_self hsa _
    · rw [hother heq]
      by_cases hmem : site ∈ sites
      · rw [if_pos hmem, if_pos (mem_cons_of_mem _ hmem)]
      · rw [if_neg hmem, if_neg (fun h => hmem ((mem_cons.mp h).resolve_left heq))]

theorem sketchMetrics_visits (f : Site → SketchAggregator σ → SketchAggregator σ × FlushResult) :
    ∀ (sites : List Site) (acc : Processor σ × List (Site × FlushResult)),
      (sites.foldl (visit f) acc).1.sketchMetrics = acc.1.sketchMetrics
  | [], _ => rfl
  | s :: sites, acc => by
    rw [foldl_cons, sketchMetrics_visits f sites]
    unfold visit
    split <;> rfl

theorem sitesOf_nodup (p : Processor σ) (ω : RangeOrder (Bytes × SketchAggregator σ)) (idx : Nat) :
    (p.sitesOf ω idx).Nodup := by
  unfold sitesOf
  cases p.shards[idx]? with
  | none => exact nodup_nil
  | some sh =>
    have hkeys := nodup_keys_range sh ω
    refine Nodup.of_map Prod.snd ?_
    rw [map_some, getD_some, List.map_map]
    exact hkeys

variable {idx bound' : Nat}

theorem fst_of_mem_sitesOf {ω : RangeOrder (Bytes × SketchAggregator σ)} (h : site ∈ p.sitesOf ω idx) :
    site.1 = idx := by
  unfold sitesOf at h
  cases hsh : p.shards[idx]? with
  | none => rw [hsh] at h; cases h
  | some sh =>
    rw [hsh, map_some, getD_some] at h
    obtain ⟨e, -, rfl⟩ := List.mem_map.mp h
    rfl

theorem sites_nodup (p : Processor σ) (ω : RangeOrder (Bytes × SketchAggregator σ)) : (p.sites ω).Nodup := by
  refine nodup_flatMap.mpr ⟨fun idx _ => p.sitesOf_nodup ω idx, ?_⟩
  refine (nodup_range).imp fun hne => ?_
  intro site h h'
  exact hne ((fst_of_mem_sitesOf h).symm.trans (fst_of_mem_sitesOf h'))

/-! ### The invariant of a run -/

structure AllGood (bound : Nat) (p : Processor σ) : Prop where
  good : ∀ site sa, p.aggregator site = some sa → Good bound sa
  metrics : ∀ site sa, p.aggregator site = some sa → site.2 ∈ p.sketchMetrics

section
variable (h : AllGood bound p)
include h

theorem AllGood.mono (hle : bound ≤ bound') : AllGood bound' p :=
  ⟨fun site sa hsa => (h.good site sa hsa).mono hle, h.metrics⟩

theorem AllGood.visits (hle : bound ≤ bound')
    {f : Site → SketchAggregator σ → SketchAggregator σ × FlushResult}
    (hf : ∀ site sa, site.2 ∈ p.sketchMetrics → Good bound sa → Good bound' (f site sa).1) {sites : List Site}
    (hnodup : sites.Nodup) : AllGood bound' (sites.foldl (visit f) (p, [])).1 := by
  refine ⟨fun site sa hsa => ?_, fun site sa hsa => ?_⟩ <;> rw [aggregator_visits f sites _ hnodup] at hsa <;>
    split at hsa
  · obtain ⟨sa₀, hsa₀, rfl⟩ := map_eq_some_iff.mp hsa
    exact hf site sa₀ (h.metrics site sa₀ hsa₀) (h.good site sa₀ hsa₀)
  · exact (h.good site sa hsa).mono hle
  · obtain ⟨sa₀, hsa₀, -⟩ := map_eq_some_iff.mp hsa
    rw [sketchMetrics_visits]
    exact h.metrics site sa₀ hsa₀
  · rw [sketchMetrics_visits]
    exact h.metrics site sa hsa

theorem AllGood.set {sa' : SketchAggregator σ} (hsa : p.aggregator site = some sa)
    (hnew : Good bound sa') : AllGood bound (p.setAggregator site sa') := by
  refine ⟨fun site' sa₁ hsa₁ => ?_, fun site' sa₁ hsa₁ => ?_⟩ <;> by_cases heq : site' = site
  · subst heq
    rw [aggregator_setAggregator_self hsa] at hsa₁
    cases hsa₁
    exact hnew
  · rw [aggregator_setAggregator_of_ne _ heq] at hsa₁
    exact h.good site' sa₁ hsa₁
  · subst heq
    exact h.metrics site' sa hsa
  · rw [aggregator_setAggregator_of_ne _ heq] at hsa₁
    exact h.metrics site' sa₁ hsa₁

theorem AllGood.consume (x : Sample) (ω : RangeOrder (Bytes × Bytes)) (orders : RangeOrders σ) :
    AllGood bound (p.consume hash F x ω orders) := by
  unfold Processor.consume
  dsimp only
  split
  · exact h
  · rename_i sa hsa
    refine h.set hsa ?_
    split
    · exact (h.good _ sa hsa).observeRowSampled _ _ _ _ _ _
    · exact (h.good _ sa hsa).observe _ _ _ _ _ _

end

variable {ω : RangeOrder (Bytes × MetricFamily)} {byMetric : GoMap Bytes PrecomputeConfig}
  {configs : List PrecomputeConfig}

section
variable {plan : CollectorPlan} (h : p.checkGeneration plan configs ω = .ok byMetric)
include h

theorem checkGeneration_ok :
    configsByMetric plan configs = .ok byMetric ∧ ∀ metric fam, p.sketchMetrics.lookup metric = some fam →
      ∃ cfg, byMetric.lookup metric = some cfg ∧ runtimeShapeMatches cfg fam p.windowDuration = true := by
  unfold checkGeneration at h
  simp only [bind, Except.bind, pure, Except.pure, throw, throwThe, MonadExceptOf.throw] at h
  split at h
  · cases h
  · cases hby : configsByMetric plan configs with
    | error e => simp [hby] at h
    | ok byMetric' =>
      simp only [hby] at h
      split at h
      · cases h
      · split at h
        · cases h
        · rename_i hfind
          cases h
          refine ⟨rfl, fun metric fam hfam => ?_⟩
          have hchecked := findSome?_eq_none_iff.mp hfind (metric, fam) (GoMap.mem_range.mpr hfam)
          unfold checkMetric at hchecked
          split at hchecked
          · cases hchecked
          · rename_i cfg hcfg
            exact ⟨cfg, hcfg, of_not_not fun hshape => by rw [if_neg hshape] at hchecked; cases hchecked⟩

theorem checkGeneration_tumbling
    {metric : Bytes} (hm : metric ∈ p.sketchMetrics)
    {cfg : PrecomputeConfig} (hcfg : byMetric.lookup metric = some cfg) : cfg.mode = .tumbling := by
  obtain ⟨fam, hfam⟩ := lookup_of_mem_keys hm
  obtain ⟨cfg', hcfg', hshape⟩ := (checkGeneration_ok h).2 metric fam hfam
  cases hcfg.symm.trans hcfg'
  unfold runtimeShapeMatches at hshape
  simp only [Bool.and_eq_true, decide_eq_true_eq] at hshape
  exact hshape.1.1.1.1

end

theorem AllGood.applyPhysicalGeneration (h : AllGood bound p) (plan : CollectorPlan) (set : PrecomputeConfigSet)
    (ω : RangeOrder (Bytes × MetricFamily)) (clock : Clock σ) (hversion : bound ≤ plan.envelope.planVersion.toNat) :
    AllGood (plan.envelope.planVersion.toNat + 1) (p.applyPhysicalGeneration F plan set ω clock).1 := by
  have hle : bound ≤ plan.envelope.planVersion.toNat + 1 := Nat.le_succ_of_le hversion
  unfold Processor.applyPhysicalGeneration
  split
  · exact h.mono hle
  · rename_i configs hchecked
    refine h.visits hle (fun site sa hmetric hgood => ?_) (p.sites_nodup clock.order)
    unfold bindAt
    split
    · exact hgood.mono hle
    · rename_i cfg hcfg
      split
      · exact hgood.mono hle
      · exact hgood.bindPlan _ (checkGeneration_tumbling hchecked hmetric hcfg) _ _ _ _ hversion

theorem AllGood.step {bound : Nat} {p : Processor σ} (h : AllGood bound p) (c : Call σ)
    (hversion : ∀ v, c.planVersion? = some v → bound ≤ v.toNat) :
    AllGood ((c.planVersion?.map fun v => v.toNat + 1).getD bound) (p.step hash F c) := by
  cases c with
  | consumeMetrics points =>
    clear hversion
    induction points generalizing p with
    | nil => exact h
    | cons x points ih => exact ih (h.consume x.1 x.2.1 x.2.2)
  | flushAll clock =>
    exact h.visits (Nat.le_refl _) (fun site sa _ hgood => (hgood.flush _ _).1) (p.sites_nodup clock.order)
  | flushShardWarmCold idx clock =>
    exact h.visits (Nat.le_refl _) (fun site sa _ hgood => (hgood.flush _ _).1) (p.sitesOf_nodup clock.order idx)
  | flushSubWindow nowMs clock =>
    exact h.visits (Nat.le_refl _) (fun site sa _ hgood => hgood.emitSubWindow _ _) (p.sites_nodup clock.order)
  | applyPhysicalGeneration plan set ω clock => exact h.applyPhysicalGeneration plan set ω clock (hversion _ rfl)

theorem AllGood.run : ∀ (calls : List (Call σ)) {bound : Nat} {p : Processor σ}, AllGood bound p →
    (calls.filterMap Call.planVersion?).Pairwise (· < ·) →
    (∀ v ∈ calls.filterMap Call.planVersion?, bound ≤ v.toNat) → ∃ bound', AllGood bound' (p.run hash F calls)
  | [], bound, _, h, _, _ => ⟨bound, h⟩
  | c :: calls, bound, p, h, hincreasing, hbound => by
    cases hc : c.planVersion? with
    | none =>
      rw [filterMap_cons_none hc] at hincreasing hbound
      have hstep := @AllGood.step σ hash F bound p h c (fun v hv => by rw [hc] at hv; cases hv)
      rw [hc] at hstep
      exact AllGood.run calls hstep hincreasing hbound
    | some v =>
      rw [filterMap_cons_some hc] at hincreasing hbound
      obtain ⟨hlt, hincreasing⟩ := pairwise_cons.mp hincreasing
      have hstep := @AllGood.step σ hash F bound p h c (fun v' hv => by
        rw [hc] at hv
        cases hv
        exact hbound v mem_cons_self)
      rw [hc] at hstep
      exact AllGood.run calls hstep hincreasing fun v' hv' => hlt v' hv'

theorem allGood_fresh (h : Fresh p) : AllGood 0 p :=
  ⟨fun site sa hsa => good_new (h.new site sa hsa), h.metrics⟩

/-! ### Uniqueness -/

/-- Samples that one series identity can stand for are consumed by one aggregator while a plan is bound. -/
def Separated (p : Processor σ) : Prop :=
  ∀ site site' sa sa', p.aggregator site = some sa → p.aggregator site' = some sa' →
    ∀ x ∈ sa.consumed, ∀ y ∈ sa'.consumed, x.planVersion = y.planVersion → ∀ count count',
      frameSeries x.cfg x.entryLabels count = frameSeries y.cfg y.entryLabels count' → site = site'

theorem AllGood.disjoint (h : AllGood bound p) (hsep : Separated p) {site' : Site} {sa' : SketchAggregator σ}
    (hsa : p.aggregator site = some sa) (hsa' : p.aggregator site' = some sa') (hne : site ≠ site') :
    List.Disjoint (sa.attached.map identity)
      (sa'.attached.map identity) := by
  intro i hi hi'
  obtain ⟨f, hf, rfl⟩ := List.mem_map.mp hi
  obtain ⟨g, hg, heq⟩ := List.mem_map.mp hi'
  have hlin : g.lineage = f.lineage := congrArg Prod.fst heq
  obtain ⟨x, hx, hxv, count, hxs⟩ := (h.good site sa hsa).known f hf
  obtain ⟨y, hy, hyv, count', hys⟩ := (h.good site' sa' hsa').known g hg
  refine hne (hsep site site' sa sa' hsa hsa' x hx y hy ?_ count count' ?_)
  · rw [hxv, hyv]
    exact congrArg some (congrArg FrameLineageKey.planVersion hlin).symm
  · rw [← hxs, ← hys]
    exact (congrArg FrameLineageKey.seriesIdentity hlin).symm

variable {sh : GoMap Bytes (SketchAggregator σ)} {e : Bytes × SketchAggregator σ}

theorem aggregator_of_mem
    (hsh : p.shards[idx]? = some sh) (he : e ∈ sh.pairs) :
    p.aggregator (idx, e.1) = some e.2 := by
  unfold aggregator
  rw [hsh]
  exact mem_pairs.mp he

theorem length_attached_le (hsh : sh ∈ p.shards)
    (he : e ∈ sh.pairs) : e.2.attached.length ≤ p.frames.length := by
  have hshard : e.2.attached.Sublist (sh.pairs.flatMap fun e => e.2.attached) :=
    sublist_flatten_of_mem (mem_map_of_mem he)
  have hall : (sh.pairs.flatMap fun e => e.2.attached).Sublist p.frames :=
    sublist_flatten_of_mem (mem_map_of_mem hsh)
  exact (hshard.trans hall).length_le

/-- In every run from a new processor under plans of increasing versions in which the samples of one series
identity are consumed by one aggregator, and with fewer frames than a `uint64` can count, no two frames
attached by any aggregators at any time have the same identity. -/
theorem frame_identities_unique (hash : Bytes → UInt64) (F : Bytes → SketchImpl σ) {p : Processor σ} (hfresh : Fresh p)
    (calls : List (Call σ)) (hversions : (calls.filterMap Call.planVersion?).Pairwise (· < ·))
    (hsep : Separated (p.run hash F calls)) (hcount : (p.run hash F calls).frames.length < 2 ^ 64) :
    ((p.run hash F calls).frames.map identity).Nodup := by
  obtain ⟨bound, h⟩ := @AllGood.run σ hash F calls 0 p (allGood_fresh hfresh) hversions fun _ _ => Nat.zero_le _
  generalize p.run hash F calls = q at hsep hcount h ⊢
  unfold frames
  rw [map_flatMap]
  have hshards : ∀ sh ∈ q.shards, ∃ idx : Nat, q.shards[idx]? = some sh := fun sh hsh => mem_iff_getElem?.mp hsh
  refine nodup_flatMap.mpr ⟨fun sh hsh => ?_, pairwise_iff_getElem.mpr fun i j hi hj hij => ?_⟩
  · -- within a shard: each aggregator for itself, and any two of them by their metrics
    obtain ⟨idx, hidx⟩ := hshards sh hsh
    rw [map_flatMap]
    refine nodup_flatMap.mpr ⟨fun e he => ?_, ?_⟩
    · refine ((h.good _ _ (aggregator_of_mem hidx he)).issued ?_).distinct
      exact (length_attached_le hsh he).trans_lt hcount
    · have hkeys : (sh.pairs.map Prod.fst).Nodup := nodup_keys_range sh (RangeOrder.stored _)
      refine (pairwise_map.mp hkeys).imp_of_mem fun {e e'} he he' hne => ?_
      exact h.disjoint hsep (aggregator_of_mem hidx he) (aggregator_of_mem hidx he') fun heq =>
        hne (congrArg Prod.snd heq)
  · -- in different shards
    intro f hf hf'
    dsimp only at hf hf'
    rw [map_flatMap] at hf hf'
    obtain ⟨e, he, hf⟩ := mem_flatMap.mp hf
    obtain ⟨e', he', hf'⟩ := mem_flatMap.mp hf'
    refine h.disjoint hsep (aggregator_of_mem (getElem?_eq_getElem hi) he)
      (aggregator_of_mem (getElem?_eq_getElem hj) he') (fun heq => ?_) hf hf'
    exact Nat.ne_of_lt hij (congrArg Prod.fst heq)

/-! ### Two shards -/

section
variable (aggregateBy : List Bytes)

/-- Sums of the metric `m` over windows of ten milliseconds, by some labels. -/
def sumOfM : PrecomputeConfig where
  aggID := 7
  aggKind := .sum
  window := { size := 10 * millisecond, slide := 10 * millisecond }
  aggregateBy
  metricName := str "m"

def aggregatorOfM : SketchAggregator Nat where
  pc := new (some (sumOfM aggregateBy))
  pcfg := sumOfM aggregateBy
  family := .sum

def twoShards : Processor Nat where
  shards := [singleton (str "m") (aggregatorOfM aggregateBy), singleton (str "m") (aggregatorOfM aggregateBy)]
  sketchMetrics := singleton (str "m") { family := .sum, aggregateBy }
  windowDuration := 10 * millisecond
  producerEpoch := str "1"

def policyOfM : RuntimeRulePolicy where
  sampling := ⟨str "none", Float64.ofInt 1, str "none"⟩
  delta := none
  adaptation := ⟨false, 0, 0, 0, none, none, none, none⟩

def planOfM : CollectorPlan where
  collectorID := str "edge"
  envelope := ⟨3, 1, str "v1"⟩
  transmissionRules := [⟨7, str "edge", str "sum", .full, str "proto", 10, none, str "backend", policyOfM⟩]

def byteSum (key : Bytes) : UInt64 := key.foldl (fun n b => n + b.toUInt64) 0

def someClock : Clock Nat := ⟨.stored _, fun _ => 20, fun _ => ⟨.stored _, 20⟩⟩

def hostSample (host : String) : Sample × RangeOrder (Bytes × Bytes) × RangeOrders Nat :=
  ({ metric := str "m"
     attrs := (singleton (str "region") (str "eu")).insert (str "host") (str host)
     value := Float64.ofInt 1
     tsMs := 15 }, .stored _, .stored _)

/-- The plan is bound, two hosts send a sample each, and the window is flushed. -/
def twoHosts : List (Call Nat) :=
  [.applyPhysicalGeneration planOfM ⟨1, [sumOfM aggregateBy]⟩ (.stored _) someClock,
    .consumeMetrics [hostSample "a", hostSample "b"], .flushAll someClock]

variable {aggregateBy} in
theorem twoShards_aggregator {sa : SketchAggregator Nat}
    (h : (twoShards aggregateBy).aggregator site = some sa) : site.2 = str "m" ∧ sa = aggregatorOfM aggregateBy := by
  obtain ⟨sh, hsh, hl⟩ := bind_eq_some_iff.mp h
  have hsh : sh = singleton (str "m") (aggregatorOfM aggregateBy) := by
    have hmem := mem_of_getElem? hsh
    simpa [twoShards] using hmem
  subst hsh
  have hmem := mem_singleton.mp (mem_lookup_iff.mp (mem_def.mpr hl))
  simpa using hmem

theorem twoShards_fresh : Fresh (twoShards aggregateBy) := by
  refine ⟨fun site sa h => ?_, fun site sa h => ?_⟩
  · obtain ⟨-, rfl⟩ := twoShards_aggregator h
    exact ⟨rfl, rfl, rfl, rfl, rfl, rfl, rfl⟩
  · rw [(twoShards_aggregator h).1]
    exact lookup_isSome.mp rfl

end

/-- Two hosts whose sums are grouped by region, in different shards: each shard numbers the one series of
their region from one. -/
theorem grouped_samples_share_identity :
    Fresh (twoShards [str "region"]) ∧ ((twoHosts [str "region"]).filterMap Call.planVersion?).Pairwise (· < ·) ∧
      ¬(((twoShards [str "region"]).run byteSum (fun _ => counter) (twoHosts [str "region"])).frames.map
        identity).Nodup :=
  ⟨twoShards_fresh _, by decide, by decide +kernel⟩

/-- What can be computed of the samples that an aggregator consumed: whether their configuration adds
statistics, and their series identities. -/
def consumedSeries (p : Processor σ) : List (Site × Bool × Bytes) :=
  p.shards.zipIdx.flatMap fun sh => sh.1.pairs.flatMap fun e => e.2.consumed.map fun x =>
    ((sh.2, e.1), x.cfg.emitWindowStats, frameSeries x.cfg x.entryLabels 0)

theorem mem_consumedSeries (h : p.aggregator site = some sa) {x : Consumed} (hx : x ∈ sa.consumed) :
    (site, x.cfg.emitWindowStats, frameSeries x.cfg x.entryLabels 0) ∈ p.consumedSeries := by
  obtain ⟨sh, hsh, hl⟩ := bind_eq_some_iff.mp h
  refine mem_flatMap.mpr ⟨(sh, site.1), mk_mem_zipIdx_iff_getElem?.mpr hsh, ?_⟩
  exact mem_flatMap.mpr ⟨(site.2, sa), mem_pairs.mpr hl, List.mem_map.mpr ⟨x, hx, rfl⟩⟩

theorem separated_of_consumedSeries (hstats : ∀ e ∈ p.consumedSeries, e.2.1 = false)
    (hsites : ∀ e ∈ p.consumedSeries, ∀ e' ∈ p.consumedSeries, e.2.2 = e'.2.2 → e.1 = e'.1) : Separated p := by
  intro site site' sa sa' hsa hsa' x hx y hy _ count count' heq
  have hmem := mem_consumedSeries hsa hx
  have hmem' := mem_consumedSeries hsa' hy
  rw [frameSeries_count (hstats _ hmem), frameSeries_count (hstats _ hmem')] at heq
  exact hsites _ hmem _ hmem' heq

/-- The same two hosts, each a series of its own. -/
theorem frame_identities_unique_ungrouped :
    (((twoShards []).run byteSum (fun _ => counter) (twoHosts [])).frames.map identity).Nodup ∧
      ((twoShards []).run byteSum (fun _ => counter) (twoHosts [])).frames.length = 2 :=
  ⟨frame_identities_unique byteSum (fun _ => counter) (twoShards_fresh []) (twoHosts []) (by decide)
    (separated_of_consumedSeries (by decide +kernel) (by decide +kernel)) (by decide +kernel), by decide +kernel⟩

end AsapCollector.Edge.Processor
