import AsapCollector.Edge.ControlPlane
import AsapCollector.Lib.Index
import AsapCollector.Theorems.Edge.Identity
import AsapCollector.Theorems.Precompute.Sliding
import AsapCollector.Theorems.Precompute.Staged

/-! A runtime refuses a configuration with a matcher that does not compile, and only stages one while `Drain` has left
something behind; the aggregator is bound all the same. -/

namespace AsapCollector.Precompute

open List Option WindowState

variable {σ : Type} {F : SketchImpl σ} {cfg : PrecomputeConfig}

/-! ### A runtime -/

/-- `Drain` leaves the panes behind, and a window that was never opened. -/
def retains (cfg : PrecomputeConfig) (w : WindowState σ) : Bool :=
  if w.initialized then (if cfg.mode = .sliding then ring cfg w else w.panes).any fun pane => pane.series.len ≠ 0
  else w.hasAccumulatedState

variable {w : WindowState σ} {p : Precompute σ}

theorem hasAccumulatedState_of_empty (h : w.series.len = 0) :
    w.hasAccumulatedState = w.panes.any fun pane => pane.series.len ≠ 0 := by
  unfold hasAccumulatedState
  rw [h]
  rfl

theorem hasAccumulatedState_drain (w : WindowState σ) (ω : SeriesOrder σ) :
    (w.drain F cfg ω).1.hasAccumulatedState = retains cfg w := by
  unfold retains
  by_cases hmode : cfg.mode = .sliding
  · rw [if_pos hmode]
    unfold WindowState.drain
    cases w.initialized with
    | false => rfl
    | true =>
      rw [if_neg Bool.noConfusion, if_pos rfl]
      split
      · rename_i hidle
        have hpanes : w.panes = [] := hidle.2.resolve_left fun hno => hno hmode
        rw [hasAccumulatedState_of_empty hidle.1, hpanes]
        -- the ring is the active pane, which is empty, or nothing
        refine (any_eq_false.mpr fun pane hpane => ?_).symm
        have hpane := mem_of_mem_drop hpane
        rw [hpanes, nil_append, mem_singleton] at hpane
        rw [hpane, show (activePane w).series = w.series from rfl, hidle.1]
        decide
      · have hslid := @rotateLocked_slid σ F cfg hmode w w.activeEndMs ω
        rw [hasAccumulatedState_of_empty (by rw [hslid.series]; rfl), hslid.panes]
  · rw [if_neg hmode]
    rcases @drain_cases σ F cfg hmode w ω with ⟨heq, hempty⟩ | ⟨hi, hr⟩
    · rw [heq]
      cases hi : w.initialized with
      | false => rfl
      | true => exact hasAccumulatedState_of_empty (by rw [hempty hi]; rfl)
    · rw [hi, if_pos rfl, hasAccumulatedState_of_empty (by rw [hr.series]; rfl), hr.panes]

/-- The configuration in force once `Drain` has activated what was staged. -/
def settledCfg (p : Precompute σ) : Option PrecomputeConfig := p.cfg.map fun c => p.pendingCfg.getD c

theorem SameWindow.hasAccumulatedState {w' : WindowState σ} (h : SameWindow w w') :
    w'.hasAccumulatedState = w.hasAccumulatedState := by
  unfold WindowState.hasAccumulatedState
  rw [h.series, h.panes]

theorem cfg_drain (p : Precompute σ) (ω : RangeOrders σ) : (p.drain F ω).1.cfg = p.settledCfg := by
  unfold settledCfg
  cases hcfg : p.cfg with
  | none =>
    unfold drain
    rw [hcfg]
    exact hcfg
  | some cfg =>
    simp only [drain, hcfg, takePendingOutput, activatePendingConfig]
    cases p.pendingCfg <;> rfl

theorem retains_drain (hcfg : p.cfg = some cfg) (ω : RangeOrders σ) :
    (p.drain F ω).1.window.hasAccumulatedState = retains cfg p.window := by
  rw [← @hasAccumulatedState_drain σ F cfg p.window ω.series]
  have hsame := (@finishRotate_writes σ F cfg (p.window.drain F cfg ω.series).1 (p.window.drain F cfg ω.series).2
    (p.window.drain F cfg ω.series).2.endMs).same
  simp only [drain, hcfg, takePendingOutput, activatePendingConfig]
  cases p.pendingCfg <;> exact hsame.hasAccumulatedState

def Takes (cfg : PrecomputeConfig) (p : Precompute σ) : Prop :=
  cfg.validMatchers = true ∧ ∀ c ∈ p.cfg, retains c p.window = false

instance (cfg : PrecomputeConfig) (p : Precompute σ) : Decidable (Takes cfg p) := inferInstanceAs (Decidable (_ ∧ _))

theorem Takes.cutover (h : Takes cfg p) (ω : RangeOrders σ) (version : UInt64) :
    ((p.drain F ω).1.updateConfig ⟨version, [cfg]⟩).cfg = some cfg := by
  have hidle : ¬((p.drain F ω).1.cfg.isSome = true ∧ (p.drain F ω).1.window.hasAccumulatedState = true) := by
    rintro ⟨hsome, hleft⟩
    rw [cfg_drain, settledCfg, isSome_map] at hsome
    obtain ⟨c, hc⟩ := isSome_iff_exists.mp hsome
    rw [retains_drain hc, h.2 c hc] at hleft
    cases hleft
  unfold updateConfig
  rw [chooseConfig_singleton]
  dsimp only
  rw [if_neg (by rw [h.1]; decide), if_neg hidle]

theorem cutover_of_not_takes (h : ¬ Takes cfg p) (ω : RangeOrders σ) (version : UInt64) :
    ((p.drain F ω).1.updateConfig ⟨version, [cfg]⟩).cfg = p.settledCfg := by
  rw [← @cfg_drain σ F p ω]
  unfold updateConfig
  rw [chooseConfig_singleton]
  dsimp only
  split
  · rfl
  · rename_i hvalid
    have hleft : ∃ c ∈ p.cfg, retains c p.window = true := by
      by_contra hno
      refine h ⟨Bool.eq_true_of_not_eq_false hvalid, fun c hc => Bool.eq_false_of_not_eq_true fun hleft => hno
        ⟨c, hc, hleft⟩⟩
    obtain ⟨c, hc, hleft⟩ := hleft
    have hsome : (p.drain F ω).1.cfg.isSome = true := by rw [cfg_drain, settledCfg, mem_def.mp hc]; rfl
    rw [if_pos ⟨hsome, (retains_drain hc ω).trans hleft⟩]

theorem SameWindow.retains {w' : WindowState σ} (h : SameWindow w w') (cfg : PrecomputeConfig) :
    retains cfg w' = Precompute.retains cfg w := by
  unfold Precompute.retains ring activePane
  rw [h.hasAccumulatedState, h.initialized, h.panes, h.series, h.activeStartMs, h.activeEndMs]

end AsapCollector.Precompute

namespace AsapCollector.Edge

open Precompute

/-! ### An aggregator -/

namespace SketchAggregator

variable {σ : Type} {F : SketchImpl σ} (sa : SketchAggregator σ)

/-- The generation that an aggregator runs: the configuration in force and its own copy, the plan and the rule. -/
def running :
    Option PrecomputeConfig × PrecomputeConfig × Option CollectorPlan × Option TransmissionRule :=
  (sa.pc.cfg, sa.pcfg, sa.framePlan, sa.frameRule)

theorem flush_pc (checkpointMS : UInt64) (surr : Surroundings σ) :
    ∃ p : Precompute σ, p.cfg = sa.pc.cfg ∧ p.pendingCfg = sa.pc.pendingCfg ∧ SameWindow sa.pc.window p.window ∧
      (sa.flush F checkpointMS surr).1.pc = (p.drain F surr.orders).1 := by
  refine ⟨(sa.forceCheckpointIfDue checkpointMS).pc, ?_, ?_, ?_, (publish_frame _ _ _).1⟩ <;>
    unfold forceCheckpointIfDue <;> split
  · rfl
  · rfl
  · rfl
  · rfl
  · exact ⟨rfl, rfl, rfl, rfl, rfl⟩
  · exact .refl _

theorem running_bindPlan (plan : CollectorPlan) (rule : TransmissionRule) (cfg : PrecomputeConfig)
    (version : UInt64) (epoch : Bytes) (checkpointMS : UInt64) (surr : Surroundings σ) :
    (sa.bindPlan F plan rule cfg version epoch checkpointMS surr).1.running =
      (if Takes cfg sa.pc then some cfg else sa.pc.settledCfg, cfg, some plan, some rule) := by
  have hcutover : ∀ p : Precompute σ, p.cfg = sa.pc.cfg → p.pendingCfg = sa.pc.pendingCfg →
      SameWindow sa.pc.window p.window → ((p.drain F surr.orders).1.updateConfig ⟨version, [cfg]⟩).cfg =
        if Takes cfg sa.pc then some cfg else sa.pc.settledCfg := by
    intro p hcfg hpending hsame
    have htakes : Takes cfg p ↔ Takes cfg sa.pc := by
      unfold Takes
      rw [hcfg]
      simp only [hsame.retains]
    split
    · rename_i ht
      exact (htakes.mpr ht).cutover _ _
    · rename_i ht
      rw [cutover_of_not_takes (fun h => ht (htakes.mp h)), settledCfg, hcfg, hpending]
      rfl
  unfold bindPlan running
  cases sa.framePlan.isSome with
  | true =>
    obtain ⟨p, hcfg, hpending, hsame, hpc⟩ := @flush_pc σ F sa checkpointMS surr
    rw [← hcutover p hcfg hpending hsame, ← hpc]
    rfl
  | false => exact Prod.ext (hcutover sa.pc rfl rfl (.refl _)) rfl

end SketchAggregator

namespace Processor

variable {σ : Type}

/-! ### The loop -/

theorem mem_sites {p : Processor σ} {site : Site} {sa : SketchAggregator σ} (h : p.aggregator site = some sa)
    (ω : RangeOrder (Bytes × SketchAggregator σ)) : site ∈ p.sites ω := by
  obtain ⟨sh, hsh, hl⟩ := Option.bind_eq_some_iff.mp h
  refine List.mem_flatMap.mpr ⟨site.1, List.mem_range.mpr (List.getElem?_eq_some_iff.mp hsh).1, ?_⟩
  unfold sitesOf
  rw [hsh]
  exact List.mem_map.mpr ⟨(site.2, sa), GoMap.mem_range.mpr hl, rfl⟩

theorem aggregator_visitAll (p : Processor σ) (f : Site → SketchAggregator σ → SketchAggregator σ × FlushResult)
    (ω : RangeOrder (Bytes × SketchAggregator σ)) (site : Site) :
    ((p.sites ω).foldl (visit f) (p, [])).1.aggregator site = (p.aggregator site).map fun sa => (f site sa).1 := by
  rw [aggregator_visits f _ _ (p.sites_nodup ω)]
  split
  · rfl
  · rename_i hsite
    cases hsa : p.aggregator site with
    | none => rfl
    | some sa => exact absurd (mem_sites hsa ω) hsite

theorem results_visits (f : Site → SketchAggregator σ → SketchAggregator σ × FlushResult) :
    ∀ (sites : List Site) (acc : Processor σ × List (Site × FlushResult)), sites.Nodup →
      (sites.foldl (visit f) acc).2 =
        acc.2 ++ sites.filterMap fun site => (acc.1.aggregator site).map fun sa => (site, (f site sa).2)
  | [], acc, _ => (List.append_nil _).symm
  | s :: sites, acc, hnodup => by
    obtain ⟨hs, hnodup⟩ := List.nodup_cons.mp hnodup
    rw [List.foldl_cons, results_visits f sites _ hnodup]
    have hothers : ∀ site ∈ sites, (visit f acc s).1.aggregator site = acc.1.aggregator site := by
      intro site hsite
      have h := aggregator_visits f [s] acc (List.nodup_singleton s) site
      rwa [if_neg (fun hno => hs (by rwa [← List.mem_singleton.mp hno]))] at h
    rw [List.filterMap_congr fun site hsite => by rw [hothers site hsite]]
    unfold visit
    cases hsa : acc.1.aggregator s with
    | none => rw [List.filterMap_cons_none (by rw [hsa]; rfl)]
    | some sa => rw [List.filterMap_cons_some (by rw [hsa]; rfl), List.append_assoc]; rfl

/-- The map holds the configurations by their metrics, and each has a rule. -/
structure Indexed (plan : CollectorPlan) (configs : List PrecomputeConfig) (byMetric : GoMap Bytes PrecomputeConfig) :
    Prop where
  lookup : ∀ metric cfg, byMetric.lookup metric = some cfg ↔ cfg ∈ configs ∧ cfg.metricName = metric
  rule : ∀ cfg ∈ configs, (transmissionRuleFor plan cfg.aggID).isSome = true

variable {byMetric : GoMap Bytes PrecomputeConfig} {configs : List PrecomputeConfig} {plan : CollectorPlan}

theorem indexed_configsByMetric (h : configsByMetric plan configs = .ok byMetric) :
    Indexed plan configs byMetric := by
  rw [configsByMetric, @foldlM_eq_ok_indexBy _ _ _ _ _ PrecomputeConfig.metricName
    fun cfg => cfg.metricName ≠ [] ∧ (transmissionRuleFor plan cfg.aggID).isSome = true] at h
  · obtain ⟨hgood, hnodup, rfl⟩ := h
    exact ⟨fun metric cfg => lookup_indexBy hnodup, fun cfg hcfg => (hgood cfg hcfg).2⟩
  · intro acc cfg acc'
    by_cases hname : cfg.metricName = []
    · simp [hname]
    · cases hl : acc.lookup cfg.metricName <;> cases hr : transmissionRuleFor plan cfg.aggID <;>
        simp [hname, eq_comm]

theorem Indexed.unique (h : Indexed plan configs byMetric) {cfg cfg' : PrecomputeConfig} (hcfg : cfg ∈ configs)
    (hcfg' : cfg' ∈ configs) (hname : cfg.metricName = cfg'.metricName) : cfg = cfg' :=
  Option.some.inj (((h.lookup _ cfg).mpr ⟨hcfg, hname⟩).symm.trans ((h.lookup _ cfg').mpr ⟨hcfg', rfl⟩))

def Covers (p : Processor σ) : Prop := ∀ site sa, p.aggregator site = some sa → site.2 ∈ p.sketchMetrics

theorem bindAt_eq {p : Processor σ} {ω : RangeOrder (Bytes × MetricFamily)}
    (h : p.checkGeneration plan configs ω = .ok byMetric) {site : Site} (hmetric : site.2 ∈ p.sketchMetrics)
    (F : Bytes → SketchImpl σ) (version : UInt64) (epoch : Bytes) (clock : Clock σ) (sa : SketchAggregator σ) :
    ∃ cfg rule, cfg ∈ configs ∧ cfg.metricName = site.2 ∧ transmissionRuleFor plan cfg.aggID = some rule ∧
      bindAt F plan version byMetric epoch clock site sa =
        sa.bindPlan (F site.2) plan rule cfg version epoch (clock.checkpointMS site) (clock.surroundings site) := by
  obtain ⟨hby, hshapes⟩ := checkGeneration_ok h
  have hindexed := indexed_configsByMetric hby
  obtain ⟨fam, hfam⟩ := GoMap.lookup_of_mem_keys hmetric
  obtain ⟨cfg, hcfg, -⟩ := hshapes site.2 fam hfam
  obtain ⟨hmem, hname⟩ := (hindexed.lookup _ cfg).mp hcfg
  obtain ⟨rule, hrule⟩ := Option.isSome_iff_exists.mp (hindexed.rule cfg hmem)
  refine ⟨cfg, rule, hmem, hname, hrule, ?_⟩
  unfold bindAt
  rw [hcfg]
  dsimp only
  rw [hrule]

end Processor

namespace ControlPlane

open Processor SketchAggregator

variable {σ χ : Type}

/-! ### The call -/

variable (plan : CollectorPlan)

/-- The aggregator runs the generation of a plan: the configuration of its metric, the plan and the rule. -/
def RunsGeneration (configs : List PrecomputeConfig) (site : Site) (sa : SketchAggregator σ) : Prop :=
  ∃ cfg rule, cfg ∈ configs ∧ cfg.metricName = site.2 ∧ transmissionRuleFor plan cfg.aggID = some rule ∧
    sa.running = (some cfg, cfg, some plan, some rule)

/-- Without an error every aggregator runs the new generation and the version is acknowledged; with an error
every aggregator runs the generation it ran before, and the version is not. -/
def AllOrNothing (set : ControlSet) (c : ControlPlane σ χ) :
    ControlPlane σ χ × Except ApplyError Unit → Prop
  | (c', .ok ()) =>
    (∀ site sa, c'.processor.aggregator site = some sa → RunsGeneration plan set.configs site sa) ∧
      c'.acknowledged = c.acknowledged ++ [set.version]
  | (c', .error _) =>
    (∀ site, (c'.processor.aggregator site).map (·.running) = (c.processor.aggregator site).map (·.running)) ∧
      c'.acknowledged = c.acknowledged

/-- Some aggregator has frames of its plan to send before the switch. -/
def Retires (F : Bytes → SketchImpl σ) (p : Processor σ) (clock : Clock σ) : Prop :=
  ∃ site sa, p.aggregator site = some sa ∧ sa.framePlan.isSome = true ∧
    (sa.flush (F site.2) (clock.checkpointMS site) (clock.surroundings site)).2.envelopes ≠ []

/-- The configuration will be in force, because the runtime takes it or has it anyway. -/
def Switches (cfg : PrecomputeConfig) (sa : SketchAggregator σ) : Prop :=
  Takes cfg sa.pc ∨ sa.pc.settledCfg = some cfg

/-- The aggregator has the generation already, and nothing is staged that would change it. -/
def Unmoved (cfg : PrecomputeConfig) (sa : SketchAggregator σ) : Prop :=
  sa.pcfg = cfg ∧ sa.framePlan = some plan ∧ sa.frameRule = transmissionRuleFor plan cfg.aggID ∧
    if Takes cfg sa.pc then sa.pc.cfg = some cfg else sa.pc.settledCfg = sa.pc.cfg

/-- The condition: if the plan passes the checks, then either the frames of the old generation are published,
the channel confirms and every runtime switches; or they are refused and there is nothing to switch. -/
def CutsOver (F : Bytes → SketchImpl σ) (ack : χ → UInt64 → χ × Bool) (c : ControlPlane σ χ) (plan : CollectorPlan)
    (set : ControlSet) (surr : ApplySurroundings σ) : Prop :=
  (c.processor.checkGeneration plan set.configs surr.metrics).isOk = true →
    (surr.consumed = false ∧ Retires F c.processor surr.clock →
      ∀ site sa cfg, c.processor.aggregator site = some sa → cfg ∈ set.configs → cfg.metricName = site.2 →
        Unmoved plan cfg sa) ∧
    (¬(surr.consumed = false ∧ Retires F c.processor surr.clock) → (ack c.ctrlChan set.version).2 = true ∧
      ∀ site sa cfg, c.processor.aggregator site = some sa → cfg ∈ set.configs → cfg.metricName = site.2 →
        Switches cfg sa)

variable {F : Bytes → SketchImpl σ} {ack : χ → UInt64 → χ × Bool}

theorem forward_eq_false_iff {consumed : Bool} {out : List SketchEnvelope} :
    forward consumed out = false ↔ consumed = false ∧ out ≠ [] := by
  unfold forward
  cases consumed <;> cases out <;> simp

theorem bindPlan_result (sa : SketchAggregator σ) (F : SketchImpl σ) (plan : CollectorPlan) (rule : TransmissionRule)
    (cfg : PrecomputeConfig) (version : UInt64) (epoch : Bytes) (checkpointMS : UInt64) (surr : Surroundings σ) :
    (sa.bindPlan F plan rule cfg version epoch checkpointMS surr).2 =
      if sa.framePlan.isSome then (sa.flush F checkpointMS surr).2 else .nothing := by
  unfold bindPlan
  dsimp only
  split <;> rfl

theorem retired_ne_nil_iff {p : Processor σ} (hcovers : p.Covers) {plan : CollectorPlan}
    {configs : List PrecomputeConfig} {ω : RangeOrder (Bytes × MetricFamily)} {byMetric : GoMap Bytes PrecomputeConfig}
    (h : p.checkGeneration plan configs ω = .ok byMetric) (version : UInt64) (clock : Clock σ) :
    (((p.sites clock.order).foldl (visit (bindAt F plan version byMetric p.producerEpoch clock)) (p, [])).2.flatMap
      fun r => r.2.envelopes) ≠ [] ↔ Retires F p clock := by
  rw [results_visits _ _ _ (p.sites_nodup clock.order), List.nil_append, ne_eq, List.flatMap_eq_nil_iff]
  have hresult : ∀ {site sa}, p.aggregator site = some sa →
      (bindAt F plan version byMetric p.producerEpoch clock site sa).2 = if sa.framePlan.isSome then
        (sa.flush (F site.2) (clock.checkpointMS site) (clock.surroundings site)).2 else .nothing := by
    intro site sa hsa
    obtain ⟨cfg, rule, -, -, -, heq⟩ := bindAt_eq h (hcovers site sa hsa) F version p.producerEpoch clock sa
    rw [heq, bindPlan_result]
  constructor
  · intro hne
    by_contra hno
    refine hne fun r hr => ?_
    obtain ⟨site, -, hsite⟩ := List.mem_filterMap.mp hr
    obtain ⟨sa, hsa, rfl⟩ := Option.map_eq_some_iff.mp hsite
    rw [hresult hsa]
    split
    · rename_i hplan
      exact of_not_not fun hframes => hno ⟨site, sa, hsa, hplan, hframes⟩
    · rfl
  · rintro ⟨site, sa, hsa, hplan, hframes⟩ hnil
    have hmem : (site, (bindAt F plan version byMetric p.producerEpoch clock site sa).2) ∈
        (p.sites clock.order).filterMap fun site =>
          (p.aggregator site).map fun sa => (site, (bindAt F plan version byMetric p.producerEpoch clock site sa).2) :=
      List.mem_filterMap.mpr ⟨site, mem_sites hsa _, by rw [hsa]; rfl⟩
    have hempty := hnil _ hmem
    rw [hresult hsa, if_pos hplan] at hempty
    exact hframes hempty

theorem unmoved_iff {plan : CollectorPlan} {cfg : PrecomputeConfig} {rule : TransmissionRule}
    (hrule : transmissionRuleFor plan cfg.aggID = some rule) (sa : SketchAggregator σ) :
    (if Takes cfg sa.pc then some cfg else sa.pc.settledCfg, cfg, some plan, some rule) = sa.running ↔
      Unmoved plan cfg sa := by
  unfold Unmoved running
  rw [hrule]
  split <;> simp only [Prod.mk.injEq] <;> constructor
  · exact fun ⟨hactive, hpcfg, hframePlan, hframeRule⟩ => ⟨hpcfg.symm, hframePlan.symm, hframeRule.symm, hactive.symm⟩
  · exact fun ⟨hpcfg, hframePlan, hframeRule, hactive⟩ => ⟨hactive.symm, hpcfg.symm, hframePlan.symm, hframeRule.symm⟩
  · exact fun ⟨hactive, hpcfg, hframePlan, hframeRule⟩ => ⟨hpcfg.symm, hframePlan.symm, hframeRule.symm, hactive⟩
  · exact fun ⟨hpcfg, hframePlan, hframeRule, hactive⟩ => ⟨hactive, hpcfg.symm, hframePlan.symm, hframeRule.symm⟩

structure Rebound (plan : CollectorPlan) (configs : List PrecomputeConfig) (p q : Processor σ) : Prop where
  absent : ∀ site, p.aggregator site = none → q.aggregator site = none
  running : ∀ site sa, p.aggregator site = some sa → ∃ sa' cfg rule, q.aggregator site = some sa' ∧
    (∀ cfg', cfg' ∈ configs ∧ cfg'.metricName = site.2 ↔ cfg' = cfg) ∧ transmissionRuleFor plan cfg.aggID = some rule ∧
    sa'.running = (if Takes cfg sa.pc then some cfg else sa.pc.settledCfg, cfg, some plan, some rule)

section
variable {plan : CollectorPlan} {configs : List PrecomputeConfig} {p q : Processor σ}

theorem rebound_of_checked (hcovers : p.Covers) {ω : RangeOrder (Bytes × MetricFamily)}
    {byMetric : GoMap Bytes PrecomputeConfig}
    (h : p.checkGeneration plan configs ω = .ok byMetric) (version : UInt64) (clock : Clock σ) :
    Rebound plan configs p
      ((p.sites clock.order).foldl (visit (bindAt F plan version byMetric p.producerEpoch clock)) (p, [])).1 := by
  have hvisited := p.aggregator_visitAll (bindAt F plan version byMetric p.producerEpoch clock) clock.order
  refine ⟨fun site hsite => ?_, fun site sa hsa => ?_⟩
  · rw [hvisited, hsite]
    rfl
  · obtain ⟨cfg, rule, hcfg, hname, hrule, heq⟩ := bindAt_eq h (hcovers site sa hsa) F version p.producerEpoch clock sa
    refine ⟨_, cfg, rule, (hvisited site).trans (by rw [hsa]; rfl), fun cfg' => ⟨fun ⟨hcfg', hname'⟩ => ?_, ?_⟩, hrule,
      ?_⟩
    · exact (indexed_configsByMetric (checkGeneration_ok h).1).unique hcfg' hcfg (hname'.trans hname.symm)
    · rintro rfl
      exact ⟨hcfg, hname⟩
    · dsimp only
      rw [heq, running_bindPlan]

theorem Rebound.same_iff (h : Rebound plan configs p q) :
    (∀ site, (q.aggregator site).map (·.running) = (p.aggregator site).map (·.running)) ↔
      ∀ site sa cfg, p.aggregator site = some sa → cfg ∈ configs → cfg.metricName = site.2 → Unmoved plan cfg sa := by
  constructor
  · intro hsame site sa cfg hsa hcfg hname
    obtain ⟨sa', cfg', rule, hsa', honly, hrule, hrunning⟩ := h.running site sa hsa
    cases (honly cfg).mp ⟨hcfg, hname⟩
    have hsite := hsame site
    rw [hsa, hsa'] at hsite
    exact (unmoved_iff hrule sa).mp (hrunning.symm.trans (Option.some.inj hsite))
  · intro hunmoved site
    cases hsa : p.aggregator site with
    | none => rw [h.absent site hsa]
    | some sa =>
      obtain ⟨sa', cfg, rule, hsa', honly, hrule, hrunning⟩ := h.running site sa hsa
      obtain ⟨hcfg, hname⟩ := (honly cfg).mpr rfl
      rw [hsa']
      exact congrArg some (hrunning.trans ((unmoved_iff hrule sa).mpr (hunmoved site sa cfg hsa hcfg hname)))

theorem Rebound.runs_iff (h : Rebound plan configs p q) :
    (∀ site sa', q.aggregator site = some sa' → RunsGeneration plan configs site sa') ↔
      ∀ site sa cfg, p.aggregator site = some sa → cfg ∈ configs → cfg.metricName = site.2 → Switches cfg sa := by
  constructor
  · intro hruns site sa cfg hsa hcfg hname
    obtain ⟨sa', cfg', rule, hsa', honly, -, hrunning⟩ := h.running site sa hsa
    cases (honly cfg).mp ⟨hcfg, hname⟩
    obtain ⟨cfg', rule', hcfg', hname', -, hruns⟩ := hruns site sa' hsa'
    cases (honly cfg').mp ⟨hcfg', hname'⟩
    have hactive := congrArg Prod.fst (hrunning.symm.trans hruns)
    split at hactive
    · rename_i ht
      exact .inl ht
    · exact .inr hactive
  · intro hswitches site sa' hsa'
    cases hsa : p.aggregator site with
    | none => exact nomatch hsa'.symm.trans (h.absent site hsa)
    | some sa =>
      obtain ⟨sa'', cfg, rule, hsa'', honly, hrule, hrunning⟩ := h.running site sa hsa
      obtain ⟨hcfg, hname⟩ := (honly cfg).mpr rfl
      cases hsa'.symm.trans hsa''
      refine ⟨cfg, rule, hcfg, hname, hrule, hrunning.trans ?_⟩
      split
      · rfl
      · rename_i ht
        rw [(hswitches site sa cfg hsa hcfg hname).resolve_left ht]

end

theorem acknowledged_iff (c : ControlPlane σ χ) (version : UInt64) :
    (c.acknowledge ack version).acknowledged = c.acknowledged ++ [version] ↔ (ack c.ctrlChan version).2 = true := by
  unfold acknowledge
  rw [List.append_cancel_left_eq]
  split
  · exact iff_of_true rfl ‹_›
  · exact iff_of_false nofun ‹_›

/-- A cutover is all or nothing if and only if it meets the condition. -/
theorem cutover_all_or_nothing_iff (F : Bytes → SketchImpl σ) (ack : χ → UInt64 → χ × Bool) {c : ControlPlane σ χ}
    (hcovers : c.processor.Covers) {set : ControlSet} {plan : CollectorPlan} (hplan : set.collectorPlan = some plan)
    (surr : ApplySurroundings σ) :
    AllOrNothing plan set c (c.applyConfigSet F ack (some set) surr) ↔ CutsOver F ack c plan set surr := by
  unfold CutsOver applyConfigSet
  dsimp only
  rw [hplan]
  dsimp only
  unfold applyPhysicalGeneration
  cases hcheck : c.processor.checkGeneration plan set.configs surr.metrics with
  | error e => exact iff_of_true ⟨fun _ => rfl, rfl⟩ nofun
  | ok byMetric =>
    have hretired := @retired_ne_nil_iff σ F _ hcovers plan set.configs surr.metrics byMetric hcheck set.version
      surr.clock
    have hrebound := @rebound_of_checked σ F _ _ _ hcovers surr.metrics byMetric hcheck set.version surr.clock
    dsimp only
    generalize (c.processor.sites surr.clock.order).foldl
      (visit (bindAt F plan set.version byMetric c.processor.producerEpoch surr.clock)) (c.processor, []) = done
      at hretired hrebound
    obtain ⟨q, retired⟩ := done
    cases hforward : forward surr.consumed (retired.flatMap fun r => r.2.envelopes) with
    | false =>
      -- the error comes after the loop
      have hrefused : surr.consumed = false ∧ Retires F c.processor surr.clock :=
        (forward_eq_false_iff.mp hforward).imp_right hretired.mp
      exact ⟨fun h _ => ⟨fun _ => hrebound.same_iff.mp h.1, fun hno => absurd hrefused hno⟩,
        fun h => ⟨hrebound.same_iff.mpr ((h rfl).1 hrefused), rfl⟩⟩
    | true =>
      have haccepted : ¬(surr.consumed = false ∧ Retires F c.processor surr.clock) := by
        intro hno
        rw [forward_eq_false_iff.mpr (hno.imp_right hretired.mpr)] at hforward
        cases hforward
      have hack := @acknowledged_iff σ χ ack { c with processor := q } set.version
      exact ⟨fun h _ => ⟨fun hno => absurd hno haccepted, fun _ => ⟨hack.mp h.2, hrebound.runs_iff.mp h.1⟩⟩,
        fun h => ⟨hrebound.runs_iff.mpr ((h rfl).2 haccepted).2, hack.mpr ((h rfl).2 haccepted).1⟩⟩

/-! ### Two shards -/

def deliveredTo (p : Processor Nat) (version : UInt64) :
    ControlPlane Nat (Control.OpAmpChannel × Option Control.AppliedPlanState) where
  processor := p
  ctrlChan := ({ stateFile := [], delivered := version, deliveredPlanID := 3 }, none)

def planSet (version : UInt64) : ControlSet where
  version
  configs := [sumOfM []]
  collectorPlan := some { planOfM with envelope := ⟨3, version, str "v1"⟩ }

def applySurroundings (consumed : Bool) : ApplySurroundings Nat := ⟨.stored _, someClock, consumed⟩

theorem cutover_all_or_nothing_first_plan :
    AllOrNothing { planOfM with envelope := ⟨3, 1, str "v1"⟩ } (planSet 1) (deliveredTo (twoShards []) 1)
      ((deliveredTo (twoShards []) 1).applyConfigSet (fun _ => counter) (opAmpAck true) (some (planSet 1))
        (applySurroundings true)) := by
  have hcovers : (deliveredTo (twoShards []) 1).processor.Covers := (twoShards_fresh []).metrics
  refine (cutover_all_or_nothing_iff (fun _ => counter) (opAmpAck true) hcovers rfl (applySurroundings true)).mpr
    fun _ => ⟨fun hno => Bool.noConfusion hno.1, fun _ => ⟨by decide +kernel, ?_⟩⟩
  intro site sa cfg hsa hcfg _
  refine .inl ⟨?_, fun c _ => ?_⟩
  · rw [List.mem_singleton.mp hcfg]
    rfl
  · rw [((twoShards_fresh []).new site sa hsa).pc]
    rfl

def busyShards : Processor Nat :=
  (twoShards []).run byteSum (fun _ => counter)
    [.applyPhysicalGeneration planOfM ⟨1, [sumOfM []]⟩ (.stored _) someClock, .consumeMetrics [hostSample "a"]]

theorem busyShards_covers : busyShards.Covers := by
  obtain ⟨bound, h⟩ := @AllGood.run Nat byteSum (fun _ => counter)
    [.applyPhysicalGeneration planOfM ⟨1, [sumOfM []]⟩ (.stored _) someClock, .consumeMetrics [hostSample "a"]]
    0 (twoShards []) (allGood_fresh (twoShards_fresh [])) (by decide) fun _ _ => Nat.zero_le _
  exact h.metrics

/-- The second plan is applied, and the next consumer refuses the frames of the first. -/
abbrev refusedSwitch :=
  (deliveredTo busyShards 2).applyConfigSet (fun _ => counter) (opAmpAck true) (some (planSet 2))
    (applySurroundings false)

/-- An error is returned, and the new plan is bound. -/
theorem refused_publication_has_switched :
    busyShards.Covers ∧ ¬ AllOrNothing { planOfM with envelope := ⟨3, 2, str "v1"⟩ } (planSet 2)
      (deliveredTo busyShards 2) refusedSwitch := by
  refine ⟨busyShards_covers, fun h => ?_⟩
  have herror : refusedSwitch.2.isOk = false := by decide +kernel
  have hplans : (refusedSwitch.1.processor.aggregator (0, str "m")).map
      (fun sa => sa.framePlan.map (·.envelope.planVersion)) ≠
      (busyShards.aggregator (0, str "m")).map fun sa => sa.framePlan.map (·.envelope.planVersion) := by
    decide +kernel
  generalize refusedSwitch = r at h herror hplans
  obtain ⟨c, result⟩ := r
  cases result with
  | ok _ => cases herror
  | error e =>
    have hsite := congrArg (Option.map fun running => running.2.2.1.map fun plan => plan.envelope.planVersion)
      (h.1 (0, str "m"))
    rw [Option.map_map, Option.map_map] at hsite
    exact hplans hsite

end ControlPlane

end AsapCollector.Edge
