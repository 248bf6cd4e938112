import AsapCollector.Theorems.Edge.Cutover

/-! A set without a plan is offered to every runtime, and each takes the configuration with the ID of its own, or else
the first of the set, whatever its metric. -/

namespace AsapCollector

/-- The sketch type and the kind of aggregation that `newSketchAggregator` gives a family. -/
def FamilyKind.shape : FamilyKind → Option (SketchType × AggregationKind)
  | .sum => some (.unspecified, .sum)
  | .ddSketch => some (.ddSketch, .sketch)
  | .kll => some (.kllSketch, .sketch)
  | .hll => some (.hllSketch, .sketch)
  | .countSketch => some (.countSketch, .sketch)
  | .countMinSketch => some (.countMinSketch, .sketch)
  | .other _ => none

namespace Precompute

variable {σ : Type}

/-- The configuration of a set that is offered to a runtime: the first with the ID of the active one, or else the
first of all. -/
def Offers (configs : List PrecomputeConfig) (active : Option PrecomputeConfig) (cfg : PrecomputeConfig) : Prop :=
  (∃ a ∈ active, (configs.find? fun c => c.aggID = a.aggID) = some cfg) ∨
    (∀ a ∈ active, ∀ c ∈ configs, c.aggID ≠ a.aggID) ∧ configs.head? = some cfg

theorem chooseConfig_eq_some_iff {active : Option PrecomputeConfig} {set : PrecomputeConfigSet}
    {cfg : PrecomputeConfig} : chooseConfig active set = some cfg ↔ Offers set.configs active cfg := by
  unfold chooseConfig Offers
  rw [Option.or_eq_some_iff, Option.bind_eq_some_iff, Option.bind_eq_none_iff]
  refine or_congr Iff.rfl (and_congr_left fun _ => forall₂_congr fun a _ => ?_)
  rw [List.find?_eq_none]
  exact forall₂_congr fun c _ => by rw [decide_eq_true_eq]

theorem Offers.mem {configs : List PrecomputeConfig} {active : Option PrecomputeConfig} {cfg : PrecomputeConfig}
    (h : Offers configs active cfg) : cfg ∈ configs := by
  rcases h with ⟨a, -, hfind⟩ | ⟨-, hhead⟩
  · exact List.mem_of_find?_eq_some hfind
  · exact List.mem_of_mem_head? hhead

/-- The configuration that an update replaces. -/
def slot (p : Precompute σ) : Option PrecomputeConfig :=
  if p.cfg.isSome ∧ p.window.hasAccumulatedState then p.pendingCfg else p.cfg

variable (own : PrecomputeConfig → Prop)

/-- A configuration in a slot was there before, or is one of the set that belongs there. -/
def KeptOr (configs : List PrecomputeConfig) (before after : Option PrecomputeConfig) : Prop :=
  ∀ cfg ∈ after, before = some cfg ∨ cfg ∈ configs ∧ own cfg

theorem KeptOr.refl (configs : List PrecomputeConfig) (before : Option PrecomputeConfig) :
    KeptOr own configs before before :=
  fun _ hcfg => .inl hcfg

theorem updateConfig_keptOr_iff (p : Precompute σ) (set : PrecomputeConfigSet) :
    (KeptOr own set.configs p.cfg (p.updateConfig set).cfg ∧
      KeptOr own set.configs p.pendingCfg (p.updateConfig set).pendingCfg) ↔
      ∀ cfg, Offers set.configs p.cfg cfg → cfg.validMatchers = true → own cfg ∨ p.slot = some cfg := by
  have hnot : ∀ {cfg}, chooseConfig p.cfg set ≠ some cfg → ¬ Offers set.configs p.cfg cfg := fun hno hoffers =>
    hno (chooseConfig_eq_some_iff.mpr hoffers)
  unfold updateConfig
  cases hchosen : chooseConfig p.cfg set with
  | none =>
    refine iff_of_true ⟨.refl _ _ _, .refl _ _ _⟩ fun cfg hoffers => ?_
    exact absurd hoffers (hnot (by rw [hchosen]; nofun))
  | some chosen =>
    have hoffers := chooseConfig_eq_some_iff.mp hchosen
    have honly : ∀ {cfg}, Offers set.configs p.cfg cfg → cfg = chosen := fun h =>
      Option.some.inj ((chooseConfig_eq_some_iff.mpr h).symm.trans hchosen)
    dsimp only
    split
    · rename_i hinvalid
      refine iff_of_true ⟨.refl _ _ _, .refl _ _ _⟩ fun cfg h hvalid => ?_
      rw [honly h, hinvalid] at hvalid
      cases hvalid
    · rename_i hvalid
      have hkept : ∀ before, KeptOr own set.configs before (some chosen) ↔ own chosen ∨ before = some chosen := by
        intro before
        constructor
        · intro h
          exact (h chosen rfl).symm.imp_left And.right
        · rintro h cfg ⟨⟩
          exact h.symm.imp_right fun hown => ⟨hoffers.mem, hown⟩
      have hcondition : (∀ cfg, Offers set.configs p.cfg cfg → cfg.validMatchers = true → own cfg ∨ p.slot = some cfg) ↔
          own chosen ∨ p.slot = some chosen :=
        ⟨fun h => h chosen hoffers (Bool.eq_true_of_not_eq_false hvalid), fun h cfg hcfg _ => honly hcfg ▸ h⟩
      rw [hcondition]
      unfold slot
      split
      · exact (and_iff_right (KeptOr.refl _ _ _)).trans (hkept _)
      · exact (and_iff_left fun _ hno => nomatch hno).trans (hkept _)

end Precompute

namespace Edge.ControlPlane

open Precompute Processor

variable {σ χ : Type}

/-- The configuration has the metric of the aggregator and the sketch of its family. -/
def Own (site : Site) (sa : SketchAggregator σ) (cfg : PrecomputeConfig) : Prop :=
  cfg.metricName = site.2 ∧ sa.family.shape = some (cfg.sketchType, cfg.aggKind)

/-- Every aggregator keeps its active and its staged configuration, or gets one of the set that is its own. -/
def KeepsOwn (configs : List PrecomputeConfig) (p q : Processor σ) : Prop :=
  ∀ site sa, p.aggregator site = some sa → ∃ sa', q.aggregator site = some sa' ∧
    KeptOr (Own site sa) configs sa.pc.cfg sa'.pc.cfg ∧ KeptOr (Own site sa) configs sa.pc.pendingCfg sa'.pc.pendingCfg

/-- The condition: what the set offers to a runtime, unless it is invalid, is the aggregator's own or already there. -/
def RoutesOwn (configs : List PrecomputeConfig) (p : Processor σ) : Prop :=
  ∀ site sa, p.aggregator site = some sa → ∀ cfg, Offers configs sa.pc.cfg cfg → cfg.validMatchers = true →
    Own site sa cfg ∨ sa.pc.slot = some cfg

def legacySet (cfg : PrecomputeConfig) : ControlSet where
  version := 2
  configs := [cfg]

def quantilesOfN : PrecomputeConfig where
  aggID := 9
  sketchType := .ddSketch
  aggKind := .sketch
  window := { size := 10 * millisecond, slide := 10 * millisecond }
  metricName := str "n"

end Edge.ControlPlane

end AsapCollector
