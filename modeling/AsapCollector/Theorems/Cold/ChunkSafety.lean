import AsapCollector.Lib.Fault
import AsapCollector.Theorems.Cold.BestOfN

/-! What keeps `DecodeChunk` from a run-time panic: the number of samples, which is allocated for before it is
checked. -/

namespace AsapCollector.IntChunk

open List StateT

open Reader

variable {ε α β : Type} {maxAlloc n : Nat} {dod : Bool} {body : BodyFormat}

theorem after_length_times (r : Reader ε α) (n : Nat) (rest : Bytes) :
    After ((times r n).run rest) fun out => out.1.length = n := by
  induction n generalizing rest with
  | zero => rfl
  | succ n ih =>
    simp only [times, run_bind, after_bind, run_pure, after_pure, length_cons, Nat.add_right_cancel_iff]
    exact after_iff.mpr fun out _ => ih out.2

theorem length_undeltas (ds : List (BitVec 64)) : ∀ prev, (undeltas prev ds).length = ds.length := by
  induction ds with
  | nil => exact fun _ => rfl
  | cons d ds ih => exact fun prev => congrArg (· + 1) (ih (prev + d))

theorem length_undods (ds : List (BitVec 64)) : ∀ prev prevDelta, (undods prev prevDelta ds).length = ds.length := by
  induction ds with
  | nil => exact fun _ _ => rfl
  | cons d ds ih => exact fun prev prevDelta => congrArg (· + 1) (ih (prev + (prevDelta + d)) (prevDelta + d))

theorem after_decodeTimestamps (n : Nat) (rest : Bytes) :
    After ((decodeTimestamps n).run rest) fun out => out.1.length = n := by
  match n with
  | 0 => rfl
  | 1 =>
    simp only [decodeTimestamps, run_bind, after_bind, run_pure, after_pure, length_singleton]
    exact after_iff.mpr fun _ _ => trivial
  | n + 2 =>
    simp only [decodeTimestamps, run_bind, after_bind, run_pure, after_pure, length_cons, length_undods,
      Nat.add_right_cancel_iff]
    exact after_iff.mpr fun _ _ => after_iff.mpr fun delta _ => after_length_times varint n delta.2

theorem after_unpackLoop (width : Nat) :
    ∀ n cur nbits src, After (unpackLoop width n cur nbits src) fun us => us.length = n
  | 0, _, _, _ => rfl
  | n + 1, cur, nbits, src => by
    rw [unpackLoop]
    split
    · trivial
    · simp only [after_bind, after_pure, length_cons, Nat.add_right_cancel_iff]
      exact after_unpackLoop width n _ _ _

theorem after_decodePacked (n width : Nat) (rest : Bytes) :
    After ((decodePacked n width).run rest) fun out => out.1.length = n := by
  have hunpack : After (unpackBits rest n width) fun us => us.length = n := by
    rw [unpackBits]
    split
    · exact length_replicate
    · exact after_unpackLoop width n 0 0 rest
  rw [run, decodePacked, after_bind]
  refine after_iff.mpr fun us hus => ?_
  dsimp only
  split
  · trivial
  · exact (length_map _).trans (after_iff.mp hunpack us hus)

theorem after_decodeBody (n : Nat) (body : BodyFormat) (rest : Bytes) :
    After ((decodeBody n body).run rest) fun out => out.1.length = n := by
  cases body with
  | varint => exact after_length_times varint n rest
  | fixed =>
    rw [decodeBody, run_bind, after_bind]
    exact after_iff.mpr fun width _ => after_decodePacked n width.1.toNat width.2

theorem le_length_reconstructInts (base firstResidual : BitVec 64) {residuals : List (BitVec 64)}
    (hlen : residuals.length = n - 2) : n ≤ (reconstructInts base firstResidual residuals n dod).length := by
  rw [reconstructInts]
  split
  · simp [*]
  · cases dod <;> simp only [length_cons, Bool.false_eq_true, ite_true, ite_false, length_undods, length_undeltas,
      hlen] <;> omega

theorem after_readInts (n : Nat) (dod : Bool) (body : BodyFormat) (rest : Bytes) :
    After ((readInts n dod body).run rest) fun out => out.1.1.length = n ∧ n ≤ out.1.2.2.length := by
  simp only [readInts, run_bind, after_bind, run_pure, after_pure]
  refine after_iff.mpr fun ts hts => after_iff.mpr fun _ _ => after_iff.mpr fun _ _ => after_iff.mpr fun fr _ =>
    after_iff.mpr fun residuals hresiduals => ⟨after_iff.mp (after_decodeTimestamps n rest) ts hts, ?_⟩
  exact le_length_reconstructInts _ _ (after_iff.mp (after_decodeBody (n - 2) body fr.2) residuals hresiduals)

namespace Runtime

theorem plain_bind (r : IntChunk.Read α) (f : α → IntChunk.Read β) :
    plain (r >>= f) = plain r >>= fun a => plain (f a) := by
  funext rest
  change (r.run rest >>= fun out => (f out.1).run out.2).mapError _ = (r.run rest).mapError _ >>= _
  cases r.run rest <;> rfl

theorem plain_pure (a : α) : plain (pure a) = pure a := rfl

/-- `make` has room for `n` elements of a size. -/
def Allocates (maxAlloc size n : Nat) : Prop := n < 2 ^ 63 ∧ n * size ≤ maxAlloc

theorem makeSlice_eq {size : Nat} (h : Allocates maxAlloc size n) : makeSlice maxAlloc size n = pure () := if_pos h

theorem run_makeSlice {size : Nat} (h : ¬Allocates maxAlloc size n) (f : Unit → Read α) (rest : Bytes) :
    (makeSlice maxAlloc size n >>= f).run rest = .error .panic := by
  rw [makeSlice, if_neg (by exact h)]
  rfl

theorem store_packed (n width : Nat) :
    plain (decodePacked n width) >>= storeResiduals n = plain (decodePacked n width) := by
  funext rest
  have hlen := after_decodePacked n width rest
  change ((decodePacked n width).run rest).mapError _ >>= _ = ((decodePacked n width).run rest).mapError _
  revert hlen
  cases (decodePacked n width).run rest with
  | error err => exact fun _ => rfl
  | ok out =>
    intro hlen
    change (storeResiduals n out.1).run out.2 = _
    rw [storeResiduals, if_pos (le_of_eq hlen)]
    rfl

theorem decodeBody_eq (h : Allocates maxAlloc 8 n) (body : BodyFormat) :
    decodeBody maxAlloc n body = plain (IntChunk.decodeBody n body) := by
  cases body with
  | varint => rfl
  | fixed => simp only [decodeBody, IntChunk.decodeBody, makeSlice_eq h, pure_bind, plain_bind, store_packed]

theorem fillSamples_eq (factor : Float64) {ts ints : List (BitVec 64)} (hts : ts.length = n) (hints : n ≤ ints.length) :
    fillSamples factor n ts ints = .ok (zipWith (fun t i => ⟨t, unscale factor i⟩) ts ints) := by
  induction n generalizing ts ints with
  | zero => rw [eq_nil_of_length_eq_zero hts]; rfl
  | succ n ih =>
    obtain ⟨t, ts, rfl⟩ := exists_cons_of_length_eq_add_one hts
    obtain ⟨i, ints, rfl⟩ := exists_cons_of_length_pos (Nat.lt_of_lt_of_le n.succ_pos hints)
    rw [fillSamples, ih (Nat.succ.inj hts) (Nat.le_of_succ_le_succ hints)]
    rfl

/-- The chunk declares samples that the decoder can allocate: the time stamps, which it does at once, and the samples
themselves once it has read the rest. -/
def CountFits (maxAlloc : Nat) (dod : Bool) (body : BodyFormat) (rest : Bytes) : Prop :=
  After (uvarint.run rest) fun n => Allocates maxAlloc 8 n.1 ∧
    After ((readInts n.1 dod body).run n.2) fun _ => Allocates maxAlloc 16 n.1

theorem run_plain_ok {r : IntChunk.Read α} {rest : Bytes} {out : α × Bytes} (h : r.run rest = .ok out)
    (f : α → Read β) : (plain r >>= f).run rest = (f out.1).run out.2 := by
  change (r.run rest).mapError _ >>= _ = _
  rw [h]
  rfl

theorem run_plain_error {r : IntChunk.Read α} {rest : Bytes} {err : CodecError} (h : r.run rest = .error err)
    (f : α → Read β) : (plain r >>= f).run rest = .error (.codec err) := by
  change (r.run rest).mapError _ >>= _ = _
  rw [h]
  rfl

theorem run_counted {rest : Bytes} {n : Nat × Bytes} (hn : uvarint.run rest = .ok n) (h : Allocates maxAlloc 8 n.1) :
    (decodeIntChunk maxAlloc dod body).run rest = (do
      let out ← plain (readInts n.1 dod body)
      makeSlice maxAlloc 16 n.1
      fillSamples (pow10Abs out.2.1.toBitVec.toInt) n.1 out.1 out.2.2 : Read (List Sample)).run n.2 := by
  have hrest : Allocates maxAlloc 8 (n.1 - 2) :=
    ⟨(Nat.sub_le n.1 2).trans_lt h.1, (Nat.mul_le_mul_right 8 (Nat.sub_le n.1 2)).trans h.2⟩
  rw [decodeIntChunk, run_plain_ok hn]
  simp only [readInts, plain_bind, plain_pure, bind_assoc, pure_bind, makeSlice_eq h, makeSlice_eq hrest,
    decodeBody_eq hrest]

theorem plain_decodeIntChunk : plain (IntChunk.decodeIntChunk dod body) = (do
    let n ← plain uvarint
    let out ← plain (readInts n dod body)
    return zipWith (fun t i => ⟨t, unscale (pow10Abs out.2.1.toBitVec.toInt) i⟩) out.1 out.2.2) := by
  simp only [IntChunk.decodeIntChunk, readInts, plain_bind, plain_pure, bind_assoc, pure_bind]

theorem decodeIntChunk_cases (maxAlloc : Nat) (dod : Bool) (body : BodyFormat) (rest : Bytes) :
    CountFits maxAlloc dod body rest ∧
        (decodeIntChunk maxAlloc dod body).run rest = (plain (IntChunk.decodeIntChunk dod body)).run rest ∨
      ¬CountFits maxAlloc dod body rest ∧ (decodeIntChunk maxAlloc dod body).run rest = .error .panic := by
  rw [plain_decodeIntChunk, CountFits]
  cases hn : uvarint.run rest with
  | error err =>
    rw [decodeIntChunk, run_plain_error hn, run_plain_error hn]
    exact .inl ⟨trivial, rfl⟩
  | ok n =>
    rw [run_plain_ok hn]
    by_cases h8 : Allocates maxAlloc 8 n.1
    · rw [run_counted hn h8]
      cases hout : (readInts n.1 dod body).run n.2 with
      | error err =>
        rw [run_plain_error hout, run_plain_error hout]
        exact .inl ⟨⟨h8, by simp only [hout, After]⟩, rfl⟩
      | ok out =>
        obtain ⟨hts, hints⟩ := after_iff.mp (after_readInts n.1 dod body n.2) out hout
        rw [run_plain_ok hout, run_plain_ok hout]
        by_cases h16 : Allocates maxAlloc 16 n.1
        · rw [makeSlice_eq h16, pure_bind, fillSamples_eq _ hts hints]
          exact .inl ⟨⟨h8, by simpa only [hout, After] using h16⟩, rfl⟩
        · refine .inr ⟨fun h => h16 ?_, run_makeSlice h16 _ _⟩
          simpa only [hout, After] using h.2
    · rw [decodeIntChunk, run_plain_ok hn]
      exact .inr ⟨fun h => h8 h.1, run_makeSlice h8 _ _⟩

theorem plain_ne_panic (r : IntChunk.Read α) (rest : Bytes) : (plain r).run rest ≠ .error .panic := by
  change (r.run rest).mapError _ ≠ _
  cases r.run rest <;> nofun

theorem decodeChunk_tag (xor : XorChunk) (maxAlloc : Nat) (dod : Bool) (body : BodyFormat) (rest : Bytes) :
    decodeChunk xor maxAlloc ((codecTagFor dod body).toByte :: rest) =
      ((decodeIntChunk maxAlloc dod body).run rest).map Prod.fst := by
  have htag : decodeTagged xor maxAlloc (codecTagFor dod body) = decodeIntChunk maxAlloc dod body := by
    cases dod <;> cases body <;> rfl
  simp only [decodeChunk, plain, run, u8, Reader.u8, Except.mapError, bind, Except.bind, ofByte_toByte, htag]
  cases decodeIntChunk maxAlloc dod body rest <;> rfl

/-- Decoding an integer chunk panics exactly if a count in it is more than can be allocated. -/
theorem decodeChunk_ne_panic_iff (xor : XorChunk) (maxAlloc : Nat) (dod : Bool) (body : BodyFormat) (rest : Bytes) :
    decodeChunk xor maxAlloc ((codecTagFor dod body).toByte :: rest) ≠ .error .panic ↔
      CountFits maxAlloc dod body rest := by
  rw [decodeChunk_tag, map_ne_fault]
  obtain ⟨hfits, hrun⟩ | ⟨hfits, hrun⟩ := decodeIntChunk_cases maxAlloc dod body rest
  · exact iff_of_true (hrun ▸ plain_ne_panic _ rest) hfits
  · exact iff_of_false (not_not_intro hrun) hfits

/-- Ten bytes ask for `2^60` time stamps, or for a number of them that is negative. -/
theorem forged_counts_panic :
    decodeChunk plainChunk (2 ^ 48) (1 :: putUvarint (2 ^ 60)) = .error .panic ∧
      decodeChunk plainChunk (2 ^ 48) (4 :: putUvarint (2 ^ 63)) = .error .panic := by
  decide +kernel

end Runtime
end AsapCollector.IntChunk
