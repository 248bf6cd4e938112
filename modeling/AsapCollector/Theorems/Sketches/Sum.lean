import AsapCollector.Lib.Unary
import AsapCollector.Sketches.Sum
import AsapCollector.Theorems.Precompute.Ledger

/-! Without GOS a Sum owes its receiver the difference between its total and the total in the base of its next delta. -/

namespace AsapCollector.Sketches

open Precompute History SumFormat

namespace RationalWire

variable (W : RationalWire)

/-- Sum and count in a payload. -/
def amount (payload : Bytes) : ℚ × ℤ := (W.decode payload).getD (0, 0)

def held (base : Option Bytes) : ℚ × ℤ := (base.map W.amount).getD (0, 0)

/-- What an observed value adds; a row-sampled one counts for those that were not sent. -/
def worth (v : ObservationValue) : ℚ × ℤ :=
  (if v.rowSampled then W.ofFloat64 v.float / W.ofFloat64 v.sampleP else W.ofFloat64 v.float, 1)

@[simp] theorem amount_encode (sum : ℚ) (count : ℤ) : W.amount (W.encode sum count) = (sum, count) := by
  simp [amount, W.decode_encode]

@[simp] theorem amount_nil : W.amount [] = (0, 0) := by
  simp [amount, W.decode_short [] (by decide)]

theorem amount_zeros : W.amount (List.replicate sumPayloadLen 0) = (0, 0) := by
  simp [amount, W.decode_zero]

end RationalWire

/-- The sum wrapper over exact numbers. -/
def exactSum (W : RationalWire) (factory : SumWrapper ℚ ℤ) : SketchImpl (SumWrapper ℚ ℤ) := sumFamily (.exact W) factory

section
variable {W : RationalWire} {factory w : SumWrapper ℚ ℤ} {cfg : PrecomputeConfig}

theorem newSketch_exactSum : WindowState.newSketch (exactSum W factory) cfg = factory := by
  unfold WindowState.newSketch
  split <;> rfl

theorem emittedSketch_exactSum (hseg : cfg.sketchType ≠ .kllSketch) (w : SumWrapper ℚ ℤ) :
    emittedSketch (exactSum W factory) cfg w = w := by
  unfold emittedSketch
  rw [if_neg (by simp [subWindowSegmentMode, hseg])]
  split <;> rfl

theorem observe_exactSum (w : SumWrapper ℚ ℤ) (v : ObservationValue) :
    (exactSum W factory).observe w v = (w.update (.exact W) (W.worth v).1, none) ∨
      ∃ text, (exactSum W factory).observe w v = (w, some text) := by
  show w.observe (.exact W) v = _ ∨ ∃ text, w.observe (.exact W) v = _
  unfold SumWrapper.observe SumWrapper.applyAdmittedOccurrence RationalWire.worth
  split
  · split
    · split
      · exact Or.inr ⟨_, rfl⟩
      · split
        · exact Or.inr ⟨_, rfl⟩
        · exact Or.inl rfl
    · exact Or.inl rfl
  · exact Or.inr ⟨_, rfl⟩

section
variable (W) (factory) (cfg) (w)

theorem subWindowDelta_exactSum (base : Option Bytes) :
    subWindowDelta (exactSum W factory) cfg base w =
      match base with
      | none =>
        let w := applyGosMode (exactSum W factory) w cfg
        (some ((w.snapshot (.exact W)).getD []), w, (w.snapshot (.exact W)).map fun payload => (payload, true))
      | some prev =>
        let r := (applyGosMode (exactSum W factory) w cfg).computeDeltaAgainst (.exact W) prev
        (some ((r.1.snapshot (.exact W)).getD []), r.1, r.2.map fun payload => (payload, false)) := by
  cases base <;> rfl

theorem boundaryDelta_exactSum (hdelta : cfg.deltaTransmission = true) (base : Option Bytes) :
    boundaryDelta (exactSum W factory) cfg base w =
      (some (List.replicate sumPayloadLen 0),
        match base with
        | none => ((applyGosMode (exactSum W factory) w cfg).snapshot (.exact W)).map fun payload => (payload, true)
        | some prev => ((applyGosMode (exactSum W factory) w cfg).computeDeltaAgainst (.exact W) prev).2.map
            fun payload => (payload, false)) := by
  unfold boundaryDelta
  rw [if_pos hdelta]
  cases base <;> rfl

end

structure Plain (w : SumWrapper ℚ ℤ) : Prop where
  gos : w.gosEpsilon ≤ 0
  count : 0 ≤ w.count
  empty : w.count = 0 → w.sum = 0

theorem plain_new : Plain .new := ⟨le_refl _, le_refl _, fun _ => rfl⟩

section
variable (h : Plain w)
include h

theorem Plain.update (v : ℚ) :
    Plain (w.update (.exact W) v) ∧ (w.update (.exact W) v).sum = w.sum + v ∧
      (w.update (.exact W) v).count = w.count + 1 := by
  unfold SumWrapper.update
  rw [if_pos (by simpa [exact] using h.gos)]
  refine ⟨⟨h.gos, ?_, fun hzero => ?_⟩, rfl, rfl⟩
  · have := h.count
    show 0 ≤ w.count + 1
    omega
  · have := h.count
    have hzero : w.count + 1 = 0 := hzero
    omega

theorem Plain.lt : (exact W).lt 0 w.gosEpsilon = false := by
  simpa [exact] using h.gos

theorem Plain.snapshot : W.amount ((w.snapshot (.exact W)).getD []) = (w.sum, w.count) := by
  unfold SumWrapper.snapshot
  split
  · rename_i hzero
    rw [Option.getD_none, W.amount_nil, h.empty hzero, hzero]
  · rw [if_neg (by rw [h.lt]; decide), Option.getD_some]
    exact W.amount_encode _ _

theorem Plain.computeDelta (prev : Bytes) :
    (w.computeDeltaAgainst (.exact W) prev).1 = w ∧
      (((w.computeDeltaAgainst (.exact W) prev).2.map W.amount).getD 0) + W.amount prev = (w.sum, w.count) := by
  unfold SumWrapper.computeDeltaAgainst
  rw [if_neg (by rw [h.lt]; decide)]
  show w = w ∧ ((if ((exact W).isZero (w.sum - (W.amount prev).1) &&
    decide (w.count - (W.amount prev).2 = 0)) = true
    then none else some (W.encode (w.sum - (W.amount prev).1) (w.count - (W.amount prev).2))).map W.amount).getD 0 +
      W.amount prev = (w.sum, w.count)
  refine ⟨rfl, ?_⟩
  split
  · rename_i hsame
    simp only [exact, Bool.and_eq_true, decide_eq_true_eq, sub_eq_zero] at hsame
    rw [hsame.1, hsame.2]
    exact zero_add _
  · rw [Option.map_some, Option.getD_some, W.amount_encode, Prod.mk_add_mk]
    simp

theorem Plain.emitted (hgos : cfg.gosDeltaEpsilon.le ⟨0⟩ = true) (base : Option Bytes) :
    (subWindowDelta (exactSum W factory) cfg base w).2.1 = w ∧
      W.held (subWindowDelta (exactSum W factory) cfg base w).1 = (w.sum, w.count) ∧
      ((subWindowDelta (exactSum W factory) cfg base w).2.2.map fun p => W.amount p.1).getD 0 + W.held base =
        (w.sum, w.count) := by
  have happly : applyGosMode (exactSum W factory) w cfg = w := if_pos hgos
  rw [subWindowDelta_exactSum]
  cases base with
  | none =>
    dsimp only
    rw [happly]
    rw [← h.snapshot (W := W)]
    cases w.snapshot (.exact W) with
    | none => simp [RationalWire.held]
    | some payload => simp [RationalWire.held]
  | some prev =>
    obtain ⟨hsame, hsum⟩ := h.computeDelta (W := W) prev
    dsimp only
    rw [happly, hsame]
    refine ⟨rfl, h.snapshot, ?_⟩
    rw [Option.map_map]
    exact hsum

end

/-- The books of sums without GOS: a sum owes what its total has gained on its base. -/
def plainSums (W : RationalWire) (hgos : cfg.gosDeltaEpsilon.le ⟨0⟩ = true) (hseg : cfg.sketchType ≠ .kllSketch)
    (hdelta : cfg.deltaTransmission = true) : Ledger (exactSum W .new) cfg .free Unit (ℚ × ℤ) where
  start := ()
  meter _ v := ((), W.worth v)
  value payload := W.amount payload.1
  readable _ := True
  owes base w _ m := Plain w ∧ m + W.held base = (w.sum, w.count)
  idle base := W.held base = 0
  left _ _ m := m = 0
  idle_none := rfl
  opened base hidle := by
    rw [newSketch_exactSum, hidle, add_zero]
    exact ⟨plain_new, rfl⟩
  observed base w _ m v howes := by
    rcases @observe_exactSum W .new w v with h | hrefused
    · obtain ⟨hplain, hsum, hcount⟩ := howes.1.update (W := W) (W.worth v).1
      refine Or.inr ⟨_, h, hplain, ?_⟩
      rw [add_right_comm, howes.2, hsum, hcount]
      rfl
    · exact Or.inl hrefused
  emitted base entry _ m howes _ _ := by
    obtain ⟨hsame, hheld, hsum⟩ := @Plain.emitted W .new _ cfg howes.1 hgos base
    generalize subWindowDelta (exactSum W .new) cfg base entry.sketch = d at hsame hheld hsum ⊢
    obtain ⟨base', w, payload⟩ := d
    subst hsame
    have hshipped := add_right_cancel (hsum.trans howes.2.symm)
    cases payload with
    | none => exact ⟨howes.1, by rw [← hshipped, hheld]; exact zero_add _⟩
    | some p => exact ⟨trivial, 0, by rw [← hshipped, add_zero]; rfl, by
        rw [emittedSketch_exactSum hseg, hheld]
        exact ⟨howes.1, zero_add _⟩⟩
  closed base entry _ m howes _ := by
    obtain ⟨-, -, hsum⟩ := @Plain.emitted W .new _ cfg howes.1 hgos base
    have hshipped := add_right_cancel (hsum.trans howes.2.symm)
    rw [boundaryDelta_exactSum _ _ _ _ hdelta]
    refine ⟨W.amount_zeros, fun _ _ => trivial, 0, ?_, rfl⟩
    rw [← hshipped, add_zero, subWindowDelta_exactSum]
    cases base <;> rfl

end

def unaryWire : RationalWire where
  ofFloat64 x := x.trunc
  toFloat64 q := Float64.ofInt q.num
  text _ := ""
  encode sum count := List.replicate sumPayloadLen 0 ++ (signed sum.num ++ (unary sum.den ++ signed count))
  decode payload :=
    if payload.length < sumPayloadLen then none
    else
      let num := readSigned (payload.drop sumPayloadLen)
      let den := readUnary num.2
      some (mkRat num.1 den.1, (readSigned den.2).1)
  decode_encode sum count := by
    have hread : readSigned (signed count) = (count, []) := by
      have h := readSigned_signed count []
      rwa [List.append_nil] at h
    have hdrop : (List.replicate sumPayloadLen 0 ++ (signed sum.num ++ (unary sum.den ++ signed count))).drop
        sumPayloadLen = signed sum.num ++ (unary sum.den ++ signed count) := rfl
    rw [if_neg (by rw [List.length_append, List.length_replicate]; omega), hdrop, readSigned_signed]
    dsimp only
    rw [readUnary_unary]
    rw [hread, Rat.mkRat_self]
  decode_zero := by decide +kernel
  decode_short _ h := if_pos h

def deltaSum : PrecomputeConfig where
  aggID := 7
  aggKind := .sum
  window := { size := 10 * millisecond }
  deltaTransmission := true

def addAt (value : Int) (timestampMs : Nat) : Call (SumWrapper ℚ ℤ) :=
  .observe { timestampMs, value := { float := Float64.ofInt value } } (if_neg (by simp)) (.stored _)

def twoWindows : List (Call (SumWrapper ℚ ℤ)) :=
  [addAt 3 12, .emitSubWindow 13 (.stored _), addAt 4 15, .drain (.stored _), addAt 5 21, .drain (.stored _)]

end AsapCollector.Sketches
