import AsapCollector.Lib.Bytes

/-! Bits, most significant first: numbers and byte strings are told apart by their streams. -/

namespace AsapCollector

/-- The lowest `w` bits of `x`, most significant first. -/
def bitsOf : Nat → Nat → List Bool
  | 0, _ => []
  | w + 1, x => x.testBit w :: bitsOf w x

@[simp] theorem length_bitsOf (w x : Nat) : (bitsOf w x).length = w := by
  induction w with
  | zero => rfl
  | succ w ih => rw [bitsOf, List.length_cons, ih]

theorem bitsOf_congr {w x y : Nat} (h : ∀ i < w, x.testBit i = y.testBit i) : bitsOf w x = bitsOf w y := by
  induction w with
  | zero => rfl
  | succ w ih =>
    rw [bitsOf, bitsOf, h w (Nat.lt_succ_self w), ih fun i hi => h i (Nat.lt_succ_of_lt hi)]

theorem bitsOf_mod {w k : Nat} (h : w ≤ k) (x : Nat) : bitsOf w (x % 2 ^ k) = bitsOf w x :=
  bitsOf_congr fun i hi => by rw [Nat.testBit_mod_two_pow]; simp [Nat.lt_of_lt_of_le hi h]

theorem bitsOf_add (a b x : Nat) : bitsOf (a + b) x = bitsOf a (x >>> b) ++ bitsOf b x := by
  induction a with
  | zero => rw [Nat.zero_add]; rfl
  | succ a ih =>
    rw [Nat.add_right_comm, bitsOf, bitsOf, ih, Nat.testBit_shiftRight, Nat.add_comm b a, List.cons_append]

theorem bitsOf_shiftLeft_or {a b x y : Nat} (hy : y < 2 ^ b) :
    bitsOf (a + b) (x <<< b ||| y) = bitsOf a x ++ bitsOf b y := by
  rw [bitsOf_add]
  congr 1
  · refine bitsOf_congr fun i _ => ?_
    have hyi : y.testBit (b + i) = false :=
      Nat.testBit_lt_two_pow (hy.trans_le (Nat.pow_le_pow_right (by decide) (Nat.le_add_right b i)))
    simp [Nat.testBit_shiftRight, Nat.testBit_or, Nat.testBit_shiftLeft, hyi]
  · refine bitsOf_congr fun i hi => ?_
    simp [Nat.testBit_or, Nat.testBit_shiftLeft, Nat.not_le.mpr hi]

theorem bitsOf_zero (w : Nat) : bitsOf w 0 = List.replicate w false := by
  induction w with
  | zero => rfl
  | succ w ih => rw [bitsOf, ih, Nat.zero_testBit, List.replicate_succ]

theorem testBit_of_bitsOf {w x y : Nat} (h : bitsOf w x = bitsOf w y) {i : Nat} (hi : i < w) :
    x.testBit i = y.testBit i := by
  induction w with
  | zero => omega
  | succ w ih =>
    obtain ⟨hhead, htail⟩ := List.cons.inj h
    rcases Nat.lt_succ_iff_lt_or_eq.mp hi with hi | rfl
    · exact ih htail hi
    · exact hhead

theorem bitsOf_inj {w x y : Nat} (hx : x < 2 ^ w) (hy : y < 2 ^ w) (h : bitsOf w x = bitsOf w y) : x = y := by
  refine Nat.eq_of_testBit_eq fun i => ?_
  by_cases hi : i < w
  · exact testBit_of_bitsOf h hi
  · have hle : 2 ^ w ≤ 2 ^ i := Nat.pow_le_pow_right (by decide) (Nat.not_lt.mp hi)
    rw [Nat.testBit_lt_two_pow (hx.trans_le hle), Nat.testBit_lt_two_pow (hy.trans_le hle)]

/-- The stream of a byte string. -/
def streamOf (bytes : Bytes) : List Bool := bytes.flatMap fun b => bitsOf 8 b.toNat

@[simp] theorem length_streamOf (bytes : Bytes) : (streamOf bytes).length = 8 * bytes.length := by
  induction bytes with
  | nil => rfl
  | cons b bytes ih =>
    rw [streamOf, List.flatMap_cons, List.length_append, length_bitsOf, List.length_cons]
    rw [streamOf] at ih
    omega

end AsapCollector
