import AsapCollector.Lib.Float64

/-!
# The order of floats

Without NaN the comparisons of `float64` are those of an integer key.
-/

namespace AsapCollector.Float64

/-- The position of a value; both zeros have the position 0. -/
def key (x : Float64) : Int := if x.sign then -x.magnitude else x.magnitude

theorem toNat_and_magnitudeMask (b : UInt64) : (b &&& 0x7fffffffffffffff).toNat = b.toNat % 2 ^ 63 := by
  rw [UInt64.toNat_and]
  exact Nat.and_two_pow_sub_one_eq_mod _ 63

variable {x y : Float64}

theorem isZero_iff : x.isZero = true ↔ x.magnitude = 0 := by
  rw [isZero, decide_eq_true_eq, ← UInt64.toNat_inj, toNat_and_magnitudeMask]
  rfl

theorem toNat_bits (x : Float64) : x.bits.toNat = (if x.sign then 2 ^ 63 else 0) + x.magnitude := by
  have hlt := x.bits.toNat_lt
  unfold sign magnitude
  by_cases h : 2 ^ 63 ≤ x.bits.toNat
  · simp only [h, decide_true, if_true]
    omega
  · simp only [h, decide_false, Bool.false_eq_true, if_false]
    omega

theorem lt_iff (hx : x.isNaN = false) (hy : y.isNaN = false) : x.lt y = true ↔ x.key < y.key := by
  simp [lt, key, hx, hy]

theorem eq_iff (hx : x.isNaN = false) (hy : y.isNaN = false) : x.eq y = true ↔ x.key = y.key := by
  simp only [eq, hx, hy, Bool.not_false, Bool.true_and, Bool.or_eq_true, beq_iff_eq, Bool.and_eq_true, isZero_iff]
  have hbx := toNat_bits x
  have hby := toNat_bits y
  constructor
  · rintro (h | ⟨hzx, hzy⟩)
    · obtain ⟨bx⟩ := x
      obtain ⟨by_⟩ := y
      cases h
      rfl
    · simp [key, hzx, hzy]
  · intro h
    by_cases hz : x.magnitude = 0 ∧ y.magnitude = 0
    · exact .inr hz
    · refine .inl (UInt64.toNat_inj.mp ?_)
      unfold key at h
      cases hsx : x.sign <;> cases hsy : y.sign <;>
        simp only [hsx, hsy, Bool.false_eq_true, if_false, if_true] at h hbx hby <;> omega

theorem le_iff (hx : x.isNaN = false) (hy : y.isNaN = false) : x.le y = true ↔ x.key ≤ y.key := by
  rw [le, Bool.or_eq_true, lt_iff hx hy, eq_iff hx hy, le_iff_lt_or_eq]

theorem le_eq_not_lt (hx : x.isNaN = false) (hy : y.isNaN = false) : x.le y = !y.lt x := by
  rw [Bool.eq_iff_iff, Bool.not_eq_true', ← Bool.not_eq_true, le_iff hx hy, lt_iff hy hx, not_lt]

end AsapCollector.Float64
