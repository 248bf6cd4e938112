import AsapCollector.Lib.Check
import AsapCollector.Serf.Values
import AsapCollector.Theorems.Cold.BitPack

/-! What the Serf receiver reads back of a value stream. -/

namespace AsapCollector.Serf

open BitVec List Reader Window

theorem ofNat_shiftLeft_or (a : Nat) (bit : Bool) :
    BitVec.ofNat 64 a <<< 1 ||| (if bit then 1 else 0) = BitVec.ofNat 64 (Nat.bit bit a) := by
  refine eq_of_getLsbD_eq fun i hi => ?_
  have hbit : (if bit then 1 else 0 : BitVec 64).getLsbD i = (decide (i = 0) && bit) := by
    cases bit <;> simp
  rw [getLsbD_or, getLsbD_shiftLeft, getLsbD_ofNat, getLsbD_ofNat, hbit]
  cases i with
  | zero => simp
  | succ i => simp [Nat.testBit_bit_succ, hi, Nat.lt_of_succ_lt hi]

theorem readBitsLoop_bitsOf (x n : Nat) :
    ∀ a, Reads (readBitsLoop n (BitVec.ofNat 64 a)) (bitsOf n x) (BitVec.ofNat 64 (a * 2 ^ n + x % 2 ^ n)) := by
  induction n with
  | zero =>
    intro a
    rw [Nat.pow_zero, Nat.mul_one, Nat.mod_one, Nat.add_zero]
    exact .pure _
  | succ n ih =>
    intro a rest
    have hvalue : Nat.bit (x.testBit n) a * 2 ^ n + x % 2 ^ n = a * 2 ^ (n + 1) + x % 2 ^ (n + 1) := by
      rw [Nat.bit_val, Nat.toNat_testBit, Nat.mod_pow_succ, Nat.pow_succ]
      ring
    show (readBitsLoop n (BitVec.ofNat 64 a <<< 1 ||| (if x.testBit n then 1 else 0))).run (bitsOf n x ++ rest) = _
    rw [ofNat_shiftLeft_or, ih, hvalue]

theorem reads_readBits (n x : Nat) : Reads (readBits n) (bitsOf n x) (BitVec.ofNat 64 (x % 2 ^ n)) := by
  have h := readBitsLoop_bitsOf x n 0
  rwa [Nat.zero_mul, Nat.zero_add] at h

theorem reads_readZeros (k : Nat) : Reads readZeros (replicate k false ++ [true]) k := by
  intro rest
  induction k with
  | zero => rfl
  | succ k ih =>
    show (readZeros (replicate k false ++ [true] ++ rest)).map _ = _
    rw [show readZeros (replicate k false ++ [true] ++ rest) = .ok (k, rest) from ih]
    rfl

theorem one_shiftLeft_or {n : BitVec 64} {k : Nat} (hlow : 2 ^ k ≤ n.toNat) (hhigh : n.toNat < 2 ^ (k + 1)) :
    (1 : BitVec 64) <<< k ||| BitVec.ofNat 64 (n.toNat % 2 ^ k) = n := by
  have hrest : n.toNat % 2 ^ k = n.toNat - 2 ^ k := by
    rw [Nat.mod_eq_sub_mod hlow, Nat.mod_eq_of_lt (by omega)]
  have hor := Nat.two_pow_add_eq_or_of_lt (show n.toNat - 2 ^ k < 2 ^ k by omega) 1
  rw [Nat.mul_one, Nat.add_sub_cancel' hlow] at hor
  refine eq_of_toNat_eq ?_
  rw [toNat_or, toNat_shiftLeft, toNat_ofNat, show (1 : BitVec 64).toNat = 1 from rfl, Nat.one_shiftLeft,
    hrest, Nat.mod_eq_of_lt (hlow.trans_lt n.isLt), Nat.mod_eq_of_lt (Nat.lt_of_le_of_lt (Nat.sub_le _ _) n.isLt)]
  exact hor.symm

theorem reads_eliasGamma {n : BitVec 64} (hn : n ≠ 0) : Reads eliasGammaDecode (eliasGammaEncode n) n := by
  have hn0 : n.toNat ≠ 0 := fun h => hn (eq_of_toNat_eq h)
  obtain ⟨k, hk⟩ : ∃ k, k = n.toNat.log2 := ⟨_, rfl⟩
  have hbit : n.toNat.testBit k = true := hk ▸ Nat.testBit_log2 hn0
  have hcode : eliasGammaEncode n = replicate k false ++ [true] ++ bitsOf k n.toNat := by
    simp only [eliasGammaEncode, if_neg hn, IntChunk.len64, if_neg hn0, ← hk, Nat.add_sub_cancel, bitsOf, hbit,
      List.append_assoc, singleton_append]
  have hvalue := one_shiftLeft_or (hk ▸ Nat.log2_self_le hn0) (hk ▸ Nat.lt_log2_self)
  rw [hcode]
  refine (reads_readZeros k).bind ?_
  cases k with
  | zero =>
    rw [← hvalue, Nat.pow_zero, Nat.mod_one]
    exact .pure 1
  | succ k =>
    rw [if_neg (Nat.succ_ne_zero k)]
    have h := (reads_readBits (k + 1) n.toNat).bind_pure (f := fun rest => (1 : BitVec 64) <<< (k + 1) ||| rest)
    rwa [hvalue] at h

theorem reads_step {q : BitVec 64} (hq : q ≠ intMin 64) : Reads readStep (writeStep q) q := by
  have hne : zigzag q + 1 ≠ 0 := by
    intro h
    rw [← unzigzag_zigzag q, eq_neg_of_add_eq_zero_left h] at hq
    exact hq (by decide)
  have h := (reads_eliasGamma hne).bind_pure (f := fun n => unzigzag (n - 1))
  rwa [add_sub_cancel, unzigzag_zigzag] at h

theorem writeStep_intMin : writeStep (intMin 64) = writeStep 0 := by decide

theorem not_reads_of_mem {qs : List (BitVec 64)} (hmem : intMin 64 ∈ qs) :
    ¬Reads (times readStep qs.length) (qs.flatMap writeStep) qs := by
  intro h
  let read (q : BitVec 64) := if q = intMin 64 then 0 else q
  have hne (q) : read q ≠ intMin 64 := by
    by_cases hq : q = intMin 64
    · rw [show read q = 0 from if_pos hq]
      decide
    · rwa [show read q = q from if_neg hq]
  have hread : Reads (times readStep (qs.map read).length) ((qs.map read).flatMap writeStep) (qs.map read) := by
    refine reads_times fun q hq => reads_step ?_
    obtain ⟨q, -, rfl⟩ := mem_map.mp hq
    exact hne q
  have hbits : (qs.map read).flatMap writeStep = qs.flatMap writeStep := by
    rw [flatMap_map]
    refine flatMap_congr fun q _ => ?_
    by_cases hq : q = intMin 64 <;> simp [read, hq, writeStep_intMin]
  rw [hbits, length_map] at hread
  have hqs : qs = qs.map read := congrArg Prod.fst (Except.ok.inj ((h []).symm.trans (hread [])))
  rw [hqs] at hmem
  obtain ⟨q, -, hq⟩ := mem_map.mp hmem
  exact hne q hq

/-- A list of steps is read back, and all bits of it and no more are read, exactly when the least `int64` is not among
them. -/
theorem steps_read_back_iff (qs : List (BitVec 64)) :
    Reads (times readStep qs.length) (qs.flatMap writeStep) qs ↔ intMin 64 ∉ qs :=
  ⟨fun h hmem => not_reads_of_mem hmem h, fun h => reads_times fun _ hq => reads_step fun heq => h (heq ▸ hq)⟩

theorem least_step_reads_zero : readStep.run (writeStep (intMin 64)) = .ok (0, []) := by
  decide

section

variable {x : BitVec 64} {w : Window} (hl : w.leading ≤ leadingZeros64 x) (ht : w.trailing ≤ trailingZeros64 x)

theorem getLsbD_of_lt_trailingZeros {i : Nat} (hi : i < 64) (h : i < trailingZeros64 x) : x.getLsbD i = false := by
  unfold trailingZeros64 at h
  cases hfind : (range 64).find? x.getLsbD with
  | none => exact Bool.eq_false_iff.mpr (find?_eq_none.mp hfind i (mem_range.mpr hi))
  | some k =>
    rw [hfind] at h
    simpa using (find?_range_eq_some.mp hfind).2.2 i h

include ht in
theorem shiftRight_shiftLeft : x >>> w.trailing <<< w.trailing = x := by
  refine eq_of_getLsbD_eq fun i hi => ?_
  rw [getLsbD_shiftLeft, getLsbD_ushiftRight]
  by_cases hit : i < w.trailing
  · rw [getLsbD_of_lt_trailingZeros hi (hit.trans_le ht)]
    simp [hit]
  · simp [hit, hi, Nat.add_sub_cancel' (Nat.not_lt.mp hit)]

include hl in
theorem toNat_shiftRight_lt : (x >>> w.trailing).toNat < 2 ^ w.centerBits := by
  have hlt : x.toNat < 2 ^ (64 - w.leading) := by
    have := IntChunk.len64_le.mpr x.isLt
    unfold leadingZeros64 at hl
    exact IntChunk.len64_le.mp (by omega)
  rw [toNat_ushiftRight, Nat.shiftRight_eq_div_pow]
  refine Nat.div_lt_of_lt_mul (hlt.trans_le ?_)
  rw [← Nat.pow_add]
  exact Nat.pow_le_pow_right (by decide) (by unfold centerBits; omega)

include hl ht

theorem zeros_lt (hx : x ≠ 0) : w.leading + w.trailing < 64 := by
  by_contra h
  have hlt := toNat_shiftRight_lt hl
  rw [show w.centerBits = 0 by unfold centerBits; omega, Nat.pow_zero, Nat.lt_one_iff] at hlt
  have hshift := shiftRight_shiftLeft ht
  rw [show x >>> w.trailing = 0 from eq_of_toNat_eq hlt] at hshift
  exact hx (hshift.symm.trans (zero_shiftLeft _))

theorem reads_readCenter (storedVal : BitVec 64) :
    Reads (readCenter storedVal w) (bitsOf w.centerBits (x >>> w.trailing).toNat) (storedVal ^^^ x, w) := by
  have h := reads_readBits w.centerBits (x >>> w.trailing).toNat
  rw [Nat.mod_eq_of_lt (toNat_shiftRight_lt hl), ofNat_toNat, setWidth_eq] at h
  have hread : Reads (readCenter storedVal w) _ _ := h.bind_pure
  rwa [shiftRight_shiftLeft ht] at hread

end

/-- The tables round down, and the receiver has the rounded numbers under their codes. -/
theorem leading_tables : ∀ l < 64, serfLeadingRound.getD l 0 ≤ min l 24 ∧
    xorLeadingRepr.getD (serfLeadingRepresentation.getD l 0 % 2 ^ 3) 0 = serfLeadingRound.getD l 0 := by decide

theorem trailing_tables : ∀ t < 64, serfTrailingRound.getD t 0 ≤ t ∧
    xorTrailingRepr.getD (serfTrailingRepresentation.getD t 0 % 2 ^ 3) 0 = serfTrailingRound.getD t 0 := by decide

theorem centerBits_ne_zero {w : Window} (h : w.leading + w.trailing < 64) : w.centerBits ≠ 0 := by
  unfold centerBits
  omega

theorem reads_readBit (bit : Bool) : Reads readBit [bit] bit := fun _ => rfl

/-- The receiver has the window of the encoder, once that has one. -/
def Synced (w r : Window) : Prop := w.leading ≤ 24 → r = w ∧ w.leading + w.trailing < 64

theorem reads_value {w r : Window} (storedVal v : BitVec 64) (h : Synced w r) :
    ∃ r', Reads (decodeXORValue storedVal r) (compressValue storedVal w v).2 (v, r') ∧
      Synced (compressValue storedVal w v).1 r' ∧
        (v ≠ storedVal → (compressValue storedVal w v).1.leading + (compressValue storedVal w v).1.trailing < 64) := by
  obtain ⟨x, hx⟩ : ∃ x, x = storedVal ^^^ v := ⟨_, rfl⟩
  have hv : storedVal ^^^ x = v := by rw [hx, ← xor_assoc, BitVec.xor_self, zero_xor]
  simp only [compressValue, ← hx]
  by_cases hzero : x = 0
  · rw [if_pos hzero]
    have heq : storedVal = v := by rw [← hv, hzero]; exact xor_zero.symm
    exact ⟨r, fun _ => heq ▸ rfl, h, fun hne => absurd heq.symm hne⟩
  rw [if_neg hzero]
  obtain ⟨hl, hlead⟩ := leading_tables (leadingZeros64 x) (zeros_lt (w := ⟨_, 0⟩) le_rfl (Nat.zero_le _) hzero)
  obtain ⟨ht, htrail⟩ := trailing_tables (trailingZeros64 x)
    (Nat.zero_add (trailingZeros64 x) ▸ zeros_lt (w := ⟨0, _⟩) (Nat.zero_le _) le_rfl hzero)
  obtain ⟨hl, hmax⟩ : (round x).leading ≤ leadingZeros64 x ∧ (round x).leading ≤ 24 := le_min_iff.mp hl
  split
  · rename_i hreuse
    obtain ⟨rfl, hlt⟩ := h (hreuse.1.trans hmax)
    have hread := reads_readCenter (hreuse.1.trans hl) (hreuse.2.1.trans ht) storedVal
    refine ⟨r, (reads_readBit true).bind ?_, fun _ => ⟨rfl, hlt⟩, fun _ => hlt⟩
    rwa [if_pos rfl, if_neg (centerBits_ne_zero hlt), ← hv]
  · have hlt := zeros_lt hl ht hzero
    have hread := reads_readCenter hl ht storedVal
    have hnat (c : Nat) : (BitVec.ofNat 64 (c % 2 ^ 3)).toNat = c % 2 ^ 3 := by
      rw [toNat_ofNat]
      omega
    refine ⟨_, ?_, fun _ => ⟨rfl, hlt⟩, fun _ => hlt⟩
    rw [List.append_assoc, List.append_assoc]
    refine (reads_readBit false).bind ((reads_readBit false).bind
      ((reads_readBits 3 _).bind ((reads_readBits 3 _).bind ?_)))
    simp only [hnat, hlead, htrail]
    show Reads (if (round x).centerBits = 0 then _ else readCenter storedVal (round x)) _ _
    rwa [if_neg (centerBits_ne_zero hlt), ← hv]

theorem reads_values {w r : Window} (h : Synced w r) (storedVal : BitVec 64) (vs : List (BitVec 64)) :
    Reads (decodeXORValues storedVal r vs.length) (compressValues storedVal w vs) vs ∧
      ∀ u ∈ windows storedVal w vs, u.leading + u.trailing < 64 := by
  induction vs generalizing storedVal w r with
  | nil => exact ⟨.pure [], by simp [windows]⟩
  | cons v vs ih =>
    obtain ⟨r', hread, hsync, hwindow⟩ := reads_value storedVal v h
    obtain ⟨hrest, hwindows⟩ := ih hsync v
    refine ⟨hread.bind hrest.bind_pure, ?_⟩
    unfold windows
    split
    · exact hwindows
    · rename_i hne
      exact forall_mem_cons.mpr ⟨hwindow hne, hwindows⟩

def Extends {α : Type} (r : BitReader α) : Prop :=
  ∀ s v rest, r.run s = .ok (v, rest) → ∀ t, r.run (s ++ t) = .ok (v, rest ++ t)

section

variable {α β : Type}

theorem Extends.pure (v : α) : Extends (Pure.pure v) := by
  rintro s v rest ⟨⟩ t
  rfl

theorem Extends.bind {r : BitReader α} {f : α → BitReader β} (hr : Extends r) (hf : ∀ v, Extends (f v)) :
    Extends (r >>= f) := by
  intro s v rest h t
  rw [StateT.run_bind] at h ⊢
  obtain ⟨⟨u, mid⟩, hmid, hlast⟩ := bind_eq_ok.mp h
  rw [hr s u mid hmid t]
  exact hf u mid v rest hlast t

theorem extends_readBit : Extends readBit := by
  rintro (_ | ⟨b, s⟩) v rest h t
  · cases h
  · cases h
    rfl

theorem extends_readBits (n : Nat) : Extends (readBits n) := by
  have hloop : ∀ result, Extends (readBitsLoop n result) := by
    induction n with
    | zero => exact .pure
    | succ n ih => exact fun result => extends_readBit.bind fun bit => ih _
  exact hloop 0

theorem extends_decodeXORValue (storedVal : BitVec 64) (w : Window) : Extends (decodeXORValue storedVal w) := by
  have hcenter (w : Window) : Extends (readCenter storedVal w) := (extends_readBits _).bind fun _ => .pure _
  refine extends_readBit.bind fun bit1 => ?_
  split
  · split
    · exact .pure _
    · exact hcenter w
  · refine extends_readBit.bind fun bit2 => ?_
    split
    · exact .pure _
    · refine (extends_readBits 3).bind fun leadCode => (extends_readBits 3).bind fun trailCode => ?_
      dsimp only
      split
      · exact fun s v rest h => nomatch h
      · exact hcenter _

theorem extends_decodeXORValues (n : Nat) (storedVal : BitVec 64) (w : Window) :
    Extends (decodeXORValues storedVal w n) := by
  induction n generalizing storedVal w with
  | zero => exact .pure []
  | succ n ih => exact (extends_decodeXORValue storedVal w).bind fun u => (ih u.1 u.2).bind fun vs => .pure _

end

theorem readable_eq {bits : List Bool} (h : bits.length ≤ 2 ^ 32 - 8) : ∃ pad, readable bits = bits ++ pad := by
  unfold readable
  refine ⟨_, take_of_length_le ?_⟩
  rw [length_append, length_replicate]
  omega

theorem readable_cut {bits : List Bool} (h : 2 ^ 32 - 8 < bits.length) : ∃ t, t ≠ [] ∧ bits = readable bits ++ t := by
  obtain ⟨n, hn⟩ : ∃ n, n = (bits ++ replicate ((8 - bits.length % 8) % 8) false).length % 2 ^ 32 := ⟨_, rfl⟩
  have hlt : n < bits.length := by
    rw [length_append, length_replicate] at hn
    omega
  refine ⟨bits.drop n, by simpa using hlt, ?_⟩
  simp only [readable, ← hn, take_append_of_le_length hlt.le, take_append_drop]

/-- The patterns come back exactly when the number of bits, padded to bytes, is a `uint32`. -/
theorem values_come_back_iff (v : BitVec 64) (vs : List (BitVec 64)) :
    (decodeValues v (readable (compressValues v .unset vs)) (vs.length + 1) = .ok (v :: vs) ∧
      ∀ w ∈ windows v .unset vs, 1 ≤ w.centerBits ∧ w.centerBits ≤ 64) ↔
        (compressValues v .unset vs).length ≤ 2 ^ 32 - 8 := by
  obtain ⟨hread, hwindows⟩ := reads_values (show Synced .unset ⟨0, 0⟩ from nofun) v vs
  constructor
  · rintro ⟨hdecode, -⟩
    by_contra hlong
    obtain ⟨t, ht, hbits⟩ := readable_cut (Nat.lt_of_not_le hlong)
    obtain ⟨⟨vs', rest⟩, hrun, -⟩ := bind_eq_ok.mp hdecode
    have hlonger := extends_decodeXORValues vs.length v ⟨0, 0⟩ _ _ _ hrun t
    have hall := hread []
    rw [append_nil, hbits, hlonger] at hall
    exact ht (append_eq_nil_iff.mp (congrArg Prod.snd (Except.ok.inj hall))).2
  · intro hlen
    obtain ⟨pad, hpad⟩ := readable_eq hlen
    refine ⟨?_, fun w hw => ?_⟩
    · unfold decodeValues
      rw [hpad, Nat.add_sub_cancel, hread pad]
      rfl
    · have := hwindows w hw
      unfold centerBits
      omega

/-- The bits of a repeated value, two for each time, are `2 ^ 32` in all, and none of them is read. -/
theorem repeated_value_refused :
    decodeValues 0 (readable (compressValues 0 .unset (replicate (2 ^ 31) 0))) (2 ^ 31 + 1) = .error .eof := by
  have hlength (n : Nat) : (compressValues 0 .unset (replicate n 0)).length = 2 * n := by
    induction n with
    | zero => rfl
    | succ n ih =>
      rw [List.replicate_succ]
      show ([false, true] ++ compressValues 0 .unset (replicate n 0)).length = _
      rw [length_append, ih, length_cons, length_singleton]
      omega
  have hnone : readable (compressValues 0 .unset (replicate (2 ^ 31) 0)) = [] := by
    simp only [readable, length_append, length_replicate, hlength]
    exact take_zero
  rw [hnone]
  exact congrArg (· >>= _) (show (decodeXORValues 0 ⟨0, 0⟩ (2 ^ 31 - 1 + 1)).run [] = .error .eof from rfl)

end AsapCollector.Serf
