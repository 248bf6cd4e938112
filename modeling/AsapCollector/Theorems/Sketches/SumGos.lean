import AsapCollector.Theorems.Sketches.Sum

/-! With GOS a crossing moves what has accumulated to what the next delta ships. A first frame has what has not crossed,
and leaves it where it is. -/

namespace AsapCollector.Sketches

open Precompute Option History SumFormat SumWrapper

variable {W : RationalWire} {cfg : PrecomputeConfig} {factory w : SumWrapper ℚ ℤ}

/-- The GOS threshold at a total. -/
def RationalWire.threshold (W : RationalWire) (cfg : PrecomputeConfig) (total : ℚ) : ℚ :=
  isotropicThreshold (W.ofFloat64 cfg.gosDeltaEpsilon) |total| cfg.gosSites

/-- The state of a sum that is primed with the GOS settings of a configuration. -/
structure Primed (W : RationalWire) (cfg : PrecomputeConfig) (w : SumWrapper ℚ ℤ) : Prop where
  epsilon : w.gosEpsilon = W.ofFloat64 cfg.gosDeltaEpsilon
  sites : w.gosSites = cfg.gosSites
  sinceCount : 0 ≤ w.gosSinceCrossCount
  readyCount : 0 ≤ w.gosReadyCount
  ready : w.gosReadyCount = 0 → w.gosReadySum = 0
  below : |w.gosSinceCrossSum| < W.threshold cfg w.sum ∨ w.gosSinceCrossSum = 0

/-- A new sum in the GOS mode of the configuration. -/
def primedSum (W : RationalWire) (cfg : PrecomputeConfig) : SumWrapper ℚ ℤ :=
  SumWrapper.new.setGosMode (.exact W) cfg.gosDeltaEpsilon cfg.gosSites

theorem primed_primedSum : Primed W cfg (primedSum W cfg) := ⟨rfl, rfl, le_refl _, le_refl _, fun _ => rfl, Or.inr rfl⟩

section
variable (h : Primed W cfg w)
include h

theorem Primed.update (hpos : 0 < W.ofFloat64 cfg.gosDeltaEpsilon) (v : ℚ) :
    Primed W cfg (w.update (.exact W) v) ∧ (w.update (.exact W) v).sum = w.sum + v ∧
      (w.update (.exact W) v).gosSinceCrossSum + (w.update (.exact W) v).gosReadySum =
        w.gosSinceCrossSum + w.gosReadySum + v := by
  have hsince := h.sinceCount
  have hready := h.readyCount
  have hon : (exact W).le w.gosEpsilon 0 = false := by
    show decide (w.gosEpsilon ≤ 0) = false
    rw [decide_eq_false_iff_not, h.epsilon, not_le]
    exact hpos
  unfold SumWrapper.update
  dsimp only
  rw [hon, if_neg (by decide)]
  split
  · rename_i hlt
    refine ⟨⟨h.epsilon, h.sites, ?_, hready, h.ready, Or.inl ?_⟩, rfl, add_right_comm _ _ _⟩
    · show 0 ≤ w.gosSinceCrossCount + 1
      omega
    · rw [RationalWire.threshold, ← h.epsilon, ← h.sites]
      exact of_decide_eq_true hlt
  · refine ⟨⟨h.epsilon, h.sites, le_refl _, ?_, fun hzero => ?_, Or.inr rfl⟩, rfl, ?_⟩
    · show 0 ≤ w.gosReadyCount + (w.gosSinceCrossCount + 1)
      omega
    · have hzero : w.gosReadyCount + (w.gosSinceCrossCount + 1) = 0 := hzero
      omega
    · show 0 + (w.gosReadySum + (w.gosSinceCrossSum + v)) = w.gosSinceCrossSum + w.gosReadySum + v
      ring

theorem Primed.applyGosMode (hseg : cfg.sketchType ≠ .kllSketch) :
    applyGosMode (exactSum W factory) w cfg = w := by
  unfold Precompute.applyGosMode
  split
  · rfl
  · show w.setGosMode (.exact W) cfg.gosDeltaEpsilon cfg.gosSites = w
    unfold setGosMode
    rw [show (exact W).ofFloat64 cfg.gosDeltaEpsilon = w.gosEpsilon from h.epsilon.symm, ← h.sites]

section
variable (hpos : 0 < W.ofFloat64 cfg.gosDeltaEpsilon)
include hpos

theorem Primed.lt :
    (exact W).lt 0 w.gosEpsilon = true := by
  show decide (0 < w.gosEpsilon) = true
  rw [decide_eq_true_iff, h.epsilon]
  exact hpos

theorem Primed.snapshot :
    w.snapshot (.exact W) = none ∨ ∃ payload, w.snapshot (.exact W) = some payload ∧
      (W.amount payload).1 = w.sum - w.gosReadySum := by
  unfold SumWrapper.snapshot
  rw [h.lt hpos, if_pos rfl]
  split
  · exact Or.inl rfl
  · exact Or.inr ⟨_, rfl, by rw [show (exact W).encode = W.encode from rfl, W.amount_encode]⟩

theorem Primed.computeDelta (prev : Bytes) :
    ∃ w' payload, w.computeDeltaAgainst (.exact W) prev = (w', payload) ∧ Primed W cfg w' ∧ w'.sum = w.sum ∧
      w'.gosSinceCrossSum = w.gosSinceCrossSum ∧ w'.gosReadySum = 0 ∧
      (payload.map fun b => (W.amount b).1).getD 0 = w.gosReadySum := by
  unfold computeDeltaAgainst drainGosDelta
  rw [h.lt hpos, if_pos rfl]
  split
  · rename_i hnone
    exact ⟨w, none, rfl, h, rfl, rfl, h.ready hnone, (h.ready hnone).symm⟩
  · refine ⟨_, _, rfl, ⟨h.epsilon, h.sites, h.sinceCount, le_refl _, fun _ => rfl, h.below⟩, rfl, rfl, rfl, ?_⟩
    rw [map_some, getD_some, show (exact W).encode = W.encode from rfl, W.amount_encode]

end

end

/-- A series without a base emits only with nothing to ship, and is closed only when nothing has crossed
since the last emission. -/
def basedSums : Guard (SumWrapper ℚ ℤ) where
  emit base entry := base ≠ none ∨ entry.sketch.gosSinceCrossSum = 0 ∧ entry.sketch.gosReadySum = 0
  close base entry := base ≠ none ∨ entry.sketch.gosReadySum = 0

instance (base : Option Bytes) (entry : Precompute.SeriesEntry (SumWrapper ℚ ℤ)) :
    Decidable (basedSums.emit base entry) :=
  inferInstanceAs (Decidable (base ≠ none ∨ entry.sketch.gosSinceCrossSum = 0 ∧ entry.sketch.gosReadySum = 0))

instance (base : Option Bytes) (entry : Precompute.SeriesEntry (SumWrapper ℚ ℤ)) :
    Decidable (basedSums.close base entry) :=
  inferInstanceAs (Decidable (base ≠ none ∨ entry.sketch.gosReadySum = 0))

theorem Primed.emitted (h : Primed W cfg w) (hpos : 0 < W.ofFloat64 cfg.gosDeltaEpsilon)
    (hseg : cfg.sketchType ≠ .kllSketch) {base : Option Bytes}
    (hfirst : base = none → w.sum = w.gosSinceCrossSum + w.gosReadySum)
    (hguard : base ≠ none ∨ w.gosSinceCrossSum = 0 ∧ w.gosReadySum = 0) :
    ∃ base' w' payload, subWindowDelta (exactSum W factory) cfg base w = (some base', w', payload) ∧ Primed W cfg w' ∧
      w'.sum = w.sum ∧ w'.gosSinceCrossSum = w.gosSinceCrossSum ∧ w'.gosReadySum = 0 ∧
      (payload.map fun p => (W.amount p.1).1).getD 0 = w.gosReadySum := by
  rw [subWindowDelta_exactSum, h.applyGosMode hseg]
  cases base with
  | none =>
    obtain ⟨hsince, hready⟩ := hguard.resolve_left fun hno => hno rfl
    refine ⟨_, w, _, rfl, h, rfl, rfl, hready, ?_⟩
    rcases h.snapshot hpos with hnone | ⟨payload, hsome, hamount⟩
    · rw [hnone, hready]
      rfl
    · rw [hsome, map_some, map_some, getD_some, hamount, hfirst rfl, hsince, hready]
      ring
  | some prev =>
    obtain ⟨w', payload, hdelta, hprimed, hsum, hsince, hready, hsent⟩ := h.computeDelta hpos prev
    dsimp only
    rw [hdelta]
    refine ⟨_, w', _, rfl, hprimed, hsum, hsince, hready, ?_⟩
    rw [map_map]
    exact hsent

/-- The books of sums with GOS: a sum owes what has crossed and what has not. The meter shows the total. -/
def gosSums (W : RationalWire) (hpos : 0 < W.ofFloat64 cfg.gosDeltaEpsilon) (hseg : cfg.sketchType ≠ .kllSketch)
    (hdelta : cfg.deltaTransmission = true) : Ledger (exactSum W (primedSum W cfg)) cfg basedSums ℚ ℚ where
  start := 0
  meter p v := (p + (W.worth v).1, (W.worth v).1)
  value payload := (W.amount payload.1).1
  readable _ := True
  owes base w p m := Primed W cfg w ∧ w.sum = p ∧ m = w.gosSinceCrossSum + w.gosReadySum ∧
    (base = none → w.sum = w.gosSinceCrossSum + w.gosReadySum)
  idle _ := True
  left w p m := (m = 0 ∨ m = w.gosSinceCrossSum) ∧ (|m| < W.threshold cfg p ∨ m = 0)
  idle_none := trivial
  opened base _ := by
    rw [newSketch_exactSum]
    exact ⟨primed_primedSum, rfl, (add_zero _).symm, fun _ => (add_zero _).symm⟩
  observed base w p m v howes := by
    obtain ⟨hprimed, rfl, rfl, hfirst⟩ := howes
    rcases @observe_exactSum W (primedSum W cfg) w v with h | hrefused
    · obtain ⟨hprimed', hsum, hadded⟩ := hprimed.update hpos (W.worth v).1
      exact Or.inr ⟨_, h, hprimed', hsum, hadded.symm, fun hnone => by rw [hsum, hadded, hfirst hnone]⟩
    · exact Or.inl hrefused
  emitted base entry p m howes _ hguard := by
    obtain ⟨hprimed, rfl, rfl, hfirst⟩ := howes
    obtain ⟨base', w', payload, heq, hprimed', hsum, hsince, hready, hsent⟩ := hprimed.emitted hpos hseg hfirst hguard
    rw [heq]
    have howes' : w'.gosSinceCrossSum + w'.gosReadySum = entry.sketch.gosSinceCrossSum := by
      rw [hready, hsince, add_zero]
    cases payload with
    | none =>
      refine ⟨hprimed', hsum, ?_, nofun⟩
      rw [howes', ← hsent]
      exact add_zero _
    | some payload =>
      refine ⟨trivial, entry.sketch.gosSinceCrossSum, ?_, ?_⟩
      · rw [add_comm, ← hsent]
        rfl
      · rw [emittedSketch_exactSum hseg]
        exact ⟨hprimed', hsum, howes'.symm, nofun⟩
  closed base entry p m howes hguard := by
    obtain ⟨hprimed, rfl, rfl, hfirst⟩ := howes
    rw [boundaryDelta_exactSum _ _ _ _ hdelta, hprimed.applyGosMode hseg]
    refine ⟨trivial, fun _ _ => trivial, ?_⟩
    cases base with
    | none =>
      have hready := hguard.resolve_left fun hno => hno rfl
      rcases hprimed.snapshot hpos with hnone | ⟨payload, hsome, hamount⟩
      · refine ⟨entry.sketch.gosSinceCrossSum, ?_, Or.inr rfl, hprimed.below⟩
        rw [hnone, hready, add_zero]
        exact zero_add _
      · refine ⟨0, ?_, Or.inl rfl, Or.inr rfl⟩
        rw [hsome, map_some, map_some, getD_some, hamount, hfirst rfl, hready]
        ring
    | some prev =>
      obtain ⟨w', payload, hdelta', -, -, -, -, hsent⟩ := hprimed.computeDelta hpos prev
      refine ⟨entry.sketch.gosSinceCrossSum, ?_, Or.inr rfl, hprimed.below⟩
      dsimp only
      rw [hdelta', map_map, add_comm]
      exact congrArg (entry.sketch.gosSinceCrossSum + ·) hsent

theorem ready_visited (hkind : cfg.aggKind = .sum) (hon : Float64.lt ⟨0⟩ cfg.gosDeltaEpsilon = true)
    (hpos : 0 < W.ofFloat64 cfg.gosDeltaEpsilon) (hseg : cfg.sketchType ≠ .kllSketch) {base : Option Bytes}
    {entry : Precompute.SeriesEntry (SumWrapper ℚ ℤ)} (h : Primed W cfg entry.sketch)
    (hfirst : base = none → entry.sketch.sum = entry.sketch.gosSinceCrossSum + entry.sketch.gosReadySum)
    (hguard : basedSums.emit base entry) :
    (visited (exactSum W factory) cfg base entry).2.1.sketch.gosReadySum = 0 := by
  obtain ⟨base', w', payload, heq, -, -, -, hready, -⟩ := h.emitted hpos hseg hfirst hguard
  have hemits : subWindowShouldEmit (exactSum W factory) entry cfg = true := by
    simp [subWindowShouldEmit, gosDecides, hon, hkind]
  unfold visited
  rw [if_pos hemits, heq]
  cases payload with
  | none => exact hready
  | some payload =>
    rw [sketch_afterEmit, emittedSketch_exactSum hseg]
    exact hready

theorem RationalWire.threshold_pos (hpos : 0 < W.ofFloat64 cfg.gosDeltaEpsilon) {total : ℚ} (htotal : total ≠ 0) :
    0 < W.threshold cfg total := by
  have hsites : (0 : ℚ) < (max 1 cfg.gosSites.toNat : Nat) :=
    Nat.cast_pos.mpr (Nat.lt_of_lt_of_le Nat.zero_lt_one (le_max_left _ _))
  exact div_pos (mul_pos hpos (abs_pos.mpr htotal)) hsites

def gosSum : PrecomputeConfig := { deltaSum with gosDeltaEpsilon := Float64.ofInt 1, gosSites := 2 }

abbrev gosSumRun (calls : List (Call (SumWrapper ℚ ℤ))) : History (SumWrapper ℚ ℤ) :=
  (start gosSum).run (exactSum unaryWire (primedSum unaryWire gosSum)) calls

/-- A window without an amount, and one in which four has crossed and one has not when it emits. -/
def fourCrossed : List (Call (SumWrapper ℚ ℤ)) := [addAt 0 12, addAt 4 22, addAt 1 23, .emitSubWindow 25 (.stored _)]

def oneAdded : List (Call (SumWrapper ℚ ℤ)) := [addAt 3 12, .drain (.stored _)]

end AsapCollector.Sketches
