import AsapCollector.Cold.IntChunk
import AsapCollector.Lib.Bits

/-! `unpackBits` reads back what `packBits` has written: a width of at most 56 leaves room in a `uint64` for the bits
that are left over and the next field. -/

namespace AsapCollector.IntChunk

open List

theorem bitsOf_ofNat (x : Nat) : bitsOf 8 (UInt8.ofNat x).toNat = bitsOf 8 x := by
  exact bitsOf_mod (k := 8) le_rfl x

theorem streamOf_cons (b : UInt8) (bytes : Bytes) : streamOf (b :: bytes) = bitsOf 8 b.toNat ++ streamOf bytes := rfl

theorem streamOf_append (a b : Bytes) : streamOf (a ++ b) = streamOf a ++ streamOf b := flatMap_append

theorem flush_spec (cur : Nat) {fuel : Nat} :
    ∀ {nbits : Nat}, nbits ≤ fuel →
      (flush cur fuel nbits).2 < 8 ∧
        streamOf (flush cur fuel nbits).1 ++ bitsOf (flush cur fuel nbits).2 cur = bitsOf nbits cur := by
  induction fuel with
  | zero =>
    intro nbits h
    obtain rfl := Nat.le_zero.mp h
    exact ⟨Nat.succ_pos 7, rfl⟩
  | succ fuel ih =>
    intro nbits h
    unfold flush
    split
    · rename_i hge
      obtain ⟨hlt, hstream⟩ := @ih (nbits - 8) (by omega)
      refine ⟨hlt, ?_⟩
      have hsplit : bitsOf nbits cur = bitsOf 8 (cur >>> (nbits - 8)) ++ bitsOf (nbits - 8) cur := by
        rw [← bitsOf_add, Nat.add_sub_cancel' hge]
      simp only [streamOf_cons, bitsOf_ofNat, append_assoc, hstream]
      exact hsplit.symm
    · rename_i hlt
      exact ⟨Nat.not_le.mp hlt, rfl⟩

variable {width : Nat}

section
variable (hw : width ≤ maxResidualWidth)
include hw

theorem streamOf_packLoop (us : List (BitVec 64)) :
    ∀ (cur : Nat) {nbits : Nat}, nbits < 8 → ∃ pad < 8,
      streamOf (packLoop width cur nbits us) =
        bitsOf nbits cur ++ ((us.flatMap fun u => bitsOf width u.toNat) ++ replicate pad false) := by
  have hwidth : width ≤ 56 := hw
  induction us with
  | nil =>
    intro cur nbits hn
    unfold packLoop
    split
    · rename_i hpos
      refine ⟨8 - nbits, by omega, ?_⟩
      have hshift := bitsOf_shiftLeft_or (a := nbits) (b := 8 - nbits) (x := cur) (y := 0) (Nat.two_pow_pos _)
      rw [Nat.add_sub_cancel' (Nat.le_of_lt hn), Nat.or_zero, bitsOf_zero] at hshift
      rw [streamOf_cons, bitsOf_ofNat, hshift]
      simp [streamOf]
    · rename_i hzero
      obtain rfl : nbits = 0 := by omega
      exact ⟨0, by decide, rfl⟩
  | cons u us ih =>
    intro cur nbits hn
    -- the old bits and the new field fit in the word
    have hcur : bitsOf (nbits + width) ((cur <<< width ||| u.toNat % 2 ^ width) % 2 ^ 64) =
        bitsOf nbits cur ++ bitsOf width u.toNat := by
      rw [bitsOf_mod (by omega), bitsOf_shiftLeft_or (Nat.mod_lt _ (Nat.two_pow_pos _)), bitsOf_mod le_rfl]
    generalize hword : (cur <<< width ||| u.toNat % 2 ^ width) % 2 ^ 64 = word at hcur
    obtain ⟨hleft, hflush⟩ := flush_spec word (le_refl (nbits + width))
    obtain ⟨pad, hpad, hrest⟩ := ih word hleft
    refine ⟨pad, hpad, ?_⟩
    simp only [packLoop, hword, streamOf_append, hrest]
    rw [← append_assoc, hflush, hcur, flatMap_cons]
    simp only [append_assoc]

theorem fill_spec (src : Bytes) :
    ∀ (cur : Nat) {nbits : Nat}, width ≤ nbits + 8 * src.length →
      ∃ cur' nbits' src', fill width cur nbits src = some (cur', nbits', src') ∧ width ≤ nbits' ∧
        bitsOf nbits' cur' ++ streamOf src' = bitsOf nbits cur ++ streamOf src := by
  have hwidth : width ≤ 56 := hw
  induction src with
  | nil =>
    intro cur nbits h
    exact ⟨cur, nbits, [], by rw [fill, if_neg (by simpa using h)], by simpa using h, rfl⟩
  | cons b src ih =>
    intro cur nbits h
    by_cases hlt : nbits < width
    · have hlen : width ≤ nbits + 8 + 8 * src.length := by
        rw [length_cons] at h
        omega
      obtain ⟨cur', nbits', src', hfill, hle, hstream⟩ := ih ((cur <<< 8 ||| b.toNat) % 2 ^ 64) hlen
      refine ⟨cur', nbits', src', by rw [fill, if_pos hlt, hfill], hle, ?_⟩
      rw [hstream, bitsOf_mod (by omega), bitsOf_shiftLeft_or b.toNat_lt, append_assoc]
      rfl
    · exact ⟨cur, nbits, b :: src, by rw [fill, if_neg hlt], Nat.not_lt.mp hlt, rfl⟩

theorem unpackLoop_spec (us : List (BitVec 64)) :
    ∀ {cur nbits : Nat} {src : Bytes} {tail : List Bool}, (∀ u ∈ us, u.toNat < 2 ^ width) →
      bitsOf nbits cur ++ streamOf src = (us.flatMap fun u => bitsOf width u.toNat) ++ tail →
      unpackLoop width us.length cur nbits src = .ok us := by
  induction us with
  | nil => exact fun _ _ => rfl
  | cons u us ih =>
    intro cur nbits src tail hus hstream
    rw [flatMap_cons, append_assoc] at hstream
    have hlen : width ≤ nbits + 8 * src.length := by
      have h := congrArg length hstream
      simp only [length_append, length_bitsOf, length_streamOf] at h
      omega
    obtain ⟨cur', nbits', src', hfill, hle, hsame⟩ := fill_spec hw src cur hlen
    -- the field is in the upper bits of what is pending, the rest stays
    rw [← hsame, ← Nat.add_sub_cancel' hle, bitsOf_add, append_assoc] at hstream
    obtain ⟨hfield, hrest⟩ := append_inj hstream (by simp)
    have hvalue : (cur' >>> (nbits' - width)) % 2 ^ width = u.toNat := by
      refine bitsOf_inj (Nat.mod_lt _ (Nat.two_pow_pos _)) (hus u mem_cons_self) ?_
      rw [bitsOf_mod le_rfl, hfield]
    have htail := ih (fun v hv => hus v (mem_cons_of_mem u hv)) hrest
    simp only [length_cons, unpackLoop, hfill, htail, hvalue]
    simp

end

variable {us : List (BitVec 64)}

theorem unpackBits_packBits (hw : width ≤ maxResidualWidth) (hus : ∀ u ∈ us, u.toNat < 2 ^ width) (rest : Bytes) :
    unpackBits (packBits us width ++ rest) us.length width = .ok us := by
  unfold unpackBits packBits
  by_cases hzero : width = 0
  · subst hzero
    have hall : us = replicate us.length 0 := by
      refine eq_replicate_iff.mpr ⟨rfl, fun u hu => ?_⟩
      have hlt := hus u hu
      exact BitVec.eq_of_toNat_eq (by simpa using hlt)
    rw [if_pos rfl, ← hall]
  · rw [if_neg hzero, if_neg hzero]
    obtain ⟨pad, -, hstream⟩ := streamOf_packLoop hw us 0 (show 0 < 8 by decide)
    have hall : bitsOf 0 0 ++ streamOf (packLoop width 0 0 us ++ rest) =
        (us.flatMap fun u => bitsOf width u.toNat) ++ (replicate pad false ++ streamOf rest) := by
      rw [streamOf_append, hstream]
      simp [bitsOf]
    exact unpackLoop_spec hw us hus hall

theorem length_flatMap_bitsOf (width : Nat) (us : List (BitVec 64)) :
    (us.flatMap fun u => bitsOf width u.toNat).length = us.length * width := by
  induction us with
  | nil => simp
  | cons u us ih => rw [flatMap_cons, length_append, length_bitsOf, ih, length_cons, Nat.succ_mul, Nat.add_comm]

theorem length_packBits (hw : width ≤ maxResidualWidth) (us : List (BitVec 64)) :
    (packBits us width).length = (us.length * width + 7) / 8 := by
  unfold packBits
  by_cases hzero : width = 0
  · simp [hzero]
  · rw [if_neg hzero]
    obtain ⟨pad, hpad, hstream⟩ := streamOf_packLoop hw us 0 (show 0 < 8 by decide)
    have hlen := congrArg length hstream
    simp only [length_streamOf, length_append, length_bitsOf, length_flatMap_bitsOf, length_replicate] at hlen
    omega

theorem len64_le {u : BitVec 64} {n : Nat} : len64 u ≤ n ↔ u.toNat < 2 ^ n := by
  unfold len64
  by_cases hzero : u.toNat = 0
  · simp [hzero]
  · rw [if_neg hzero, Nat.succ_le_iff, Nat.log2_lt hzero]

theorem le_foldl_max (us : List (BitVec 64)) :
    ∀ {m u : BitVec 64}, u ≤ m ∨ u ∈ us → u ≤ us.foldl (fun m u => if m < u then u else m) m := by
  induction us with
  | nil => exact fun h => h.resolve_right (by simp)
  | cons x us ih =>
    intro m u h
    refine ih ?_
    rcases h with h | h
    · refine .inl ?_
      simp only
      split
      · rename_i hlt
        exact BitVec.le_trans h (BitVec.le_of_lt hlt)
      · exact h
    · rcases mem_cons.mp h with rfl | h
      · refine .inl ?_
        simp only
        split
        · exact BitVec.le_refl u
        · rename_i hle
          exact BitVec.not_lt.mp hle
      · exact .inr h

theorem foldl_max_mem (us : List (BitVec 64)) :
    ∀ {m : BitVec 64}, us.foldl (fun m u => if m < u then u else m) m = m ∨
      us.foldl (fun m u => if m < u then u else m) m ∈ us := by
  induction us with
  | nil => exact .inl rfl
  | cons x us ih =>
    intro m
    rw [foldl_cons]
    rcases @ih (if m < x then x else m) with h | h
    · rw [h]
      split
      · exact .inr mem_cons_self
      · exact .inl rfl
    · exact .inr (mem_cons_of_mem x h)

theorem lt_two_pow_bitPackWidth {u : BitVec 64} (hu : u ∈ us) :
    u.toNat < 2 ^ bitPackWidth us := by
  have hle : u ≤ us.foldl (fun m u => if m < u then u else m) 0 := le_foldl_max us (.inr hu)
  exact Nat.lt_of_le_of_lt (BitVec.le_def.mp hle) (len64_le.mp le_rfl)

theorem bitPackWidth_le {n : Nat} (h : ∀ u ∈ us, len64 u ≤ n) : bitPackWidth us ≤ n := by
  unfold bitPackWidth
  rcases @foldl_max_mem us 0 with hmax | hmax
  · rw [hmax]
    exact Nat.zero_le n
  · exact h _ hmax

end AsapCollector.IntChunk
