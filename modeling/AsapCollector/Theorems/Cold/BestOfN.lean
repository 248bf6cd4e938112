import AsapCollector.Lib.Check
import AsapCollector.Lib.FixedInt
import AsapCollector.Theorems.Cold.IntChunk

/-! The guard of the scaling does not tell the two zeros apart, so a block comes back bit by bit exactly if it has no
negative zero or the XOR codec wins. -/

namespace AsapCollector

open List Option Float64 Sample

def Float64.negZero : Float64 := ofMagnitude true 0

def Float64.unsigned (v : Float64) : Float64 := if v.isZero then ofMagnitude false 0 else v

namespace Float64

variable {v : Float64}

theorem isZero_cases (h : v.isZero = true) : ∃ s, v = ofMagnitude s 0 := by
  have hmod : v.bits.toNat % 2 ^ 63 = 0 := by
    have hand : v.bits &&& 0x7fffffffffffffff = 0 := of_decide_eq_true h
    have hnat := congrArg UInt64.toNat hand
    rw [UInt64.toNat_and, show (0x7fffffffffffffff : UInt64).toNat = 2 ^ 63 - 1 from rfl,
      Nat.and_two_pow_sub_one_eq_mod] at hnat
    exact hnat
  have hlt := v.bits.toNat_lt
  obtain ⟨bits⟩ := v
  rcases Nat.eq_zero_or_pos bits.toNat with hzero | hpos
  · refine ⟨false, ?_⟩
    rw [ofMagnitude, mk.injEq]
    exact UInt64.toNat_inj.mp hzero
  · refine ⟨true, ?_⟩
    have hbits : bits.toNat = 2 ^ 63 := by
      simp only at hmod hlt
      omega
    rw [ofMagnitude, mk.injEq]
    exact UInt64.toNat_inj.mp hbits

theorem unsigned_eq_self : v.unsigned = v ↔ v ≠ negZero := by
  unfold unsigned
  split
  · rename_i hzero
    obtain ⟨s, rfl⟩ := isZero_cases hzero
    cases s <;> decide
  · rename_i hzero
    refine iff_of_true rfl ?_
    rintro rfl
    exact hzero (by decide)

theorem eq_of_eq {x : Float64} (h : x.eq v = true) (hv : v.isZero = false) : x = v := by
  simp only [eq, Bool.and_eq_true, Bool.or_eq_true, hv, Bool.false_eq_true, and_false, or_false, beq_iff_eq] at h
  exact congrArg mk h.2

end Float64

namespace IntChunk

/-! ### Scaling -/

theorem round_mul_zero : ∀ e < maxScaleExp + 1, ∀ s,
    ((ofMagnitude s 0).mul (pow10 e)).round = ofMagnitude s 0 := by
  decide +kernel

theorem unscale_zero : ∀ e < maxScaleExp + 1, unscale (pow10 e) 0 = ofMagnitude false 0 := by
  decide +kernel

theorem toInt64_zero (overflow : Float64 → BitVec 64) (s : Bool) : (ofMagnitude s 0).toInt64 overflow = 0 := by
  have htrunc : (ofMagnitude s 0).trunc = 0 := by
    revert s
    decide +kernel
  unfold toInt64
  rw [htrunc]
  cases s <;> rfl

variable {overflow : Float64 → BitVec 64}

theorem unscale_scaleValue {e : Nat} {v : Float64} {i : BitVec 64} (he : e < maxScaleExp + 1)
    (h : scaleValue overflow e v = some i) : unscale (pow10 e) i = v.unsigned := by
  unfold scaleValue at h
  simp only at h
  split at h
  · cases h
  · split at h
    · rename_i heq
      obtain rfl := some.inj h
      unfold unsigned
      split
      · rename_i hzero
        obtain ⟨s, rfl⟩ := isZero_cases hzero
        rw [round_mul_zero e he, toInt64_zero, unscale_zero e he]
      · rename_i hzero
        exact eq_of_eq heq (Bool.not_eq_true _ ▸ hzero)
    · cases h

theorem tryScaleToInt64_spec {vals : List Float64} {e : Nat} {ints : List (BitVec 64)}
    (h : tryScaleToInt64 overflow vals = some (e, ints)) :
    e < maxScaleExp + 1 ∧ Forall₂ (fun v i => unscale (pow10 e) i = v.unsigned) vals ints := by
  unfold tryScaleToInt64 at h
  split at h
  · cases h
  · obtain ⟨e', he', hsome⟩ := exists_of_findSome?_eq_some h
    obtain ⟨ints', hmap, heq⟩ := map_eq_some_iff.mp hsome
    obtain ⟨rfl, rfl⟩ := Prod.mk.inj heq
    have hlt := mem_range.mp he'
    exact ⟨hlt, (forall₂_of_mapM hmap).imp fun v i hi => unscale_scaleValue hlt hi⟩

/-! ### Candidates -/

def unsignedZeros (samples : List Sample) : List Sample := samples.map fun s => ⟨s.t, s.v.unsigned⟩

variable {samples : List Sample}

theorem unscaled_eq {e : Nat} :
    ∀ {ints : List (BitVec 64)}, Forall₂ (fun v i => unscale (pow10 e) i = v.unsigned) (samples.map v) ints →
      unscaled e samples ints = unsignedZeros samples := by
  induction samples with
  | nil => exact fun _ => rfl
  | cons s samples ih =>
    intro ints h
    cases h with
    | cons hi hrest =>
      change (⟨s.t, _⟩ : Sample) :: unscaled e samples _ = ⟨s.t, _⟩ :: unsignedZeros samples
      rw [ih hrest, hi]

theorem decodeChunks_intCandidate (xor : XorChunk) {c : Candidate} (hn : samples.length < 2 ^ 63)
    (hc : c ∈ intCandidates overflow samples) : decodeChunks xor c.chunks = .ok (unsignedZeros samples) := by
  unfold intCandidates at hc
  split at hc
  · cases hc
  · rename_i e ints hscale
    obtain ⟨⟨dod, body⟩, -, hsome⟩ := mem_filterMap.mp hc
    obtain ⟨chunks, hchunks, rfl⟩ := map_eq_some_iff.mp hsome
    obtain ⟨he, hall⟩ := tryScaleToInt64_spec hscale
    have hlen : samples.length = ints.length := by simpa using hall.length_eq
    unfold encodeIntChunks at hchunks
    split at hchunks
    · cases hchunks
    · rw [← unscaled_eq hall]
      exact decodeChunks_cutChunks xor (Nat.le_of_lt_succ he) _ hlen (by omega) hchunks

variable {xor : XorChunk}

theorem decodeChunks_gorilla (hxor : xor.Lossless) {c : Candidate} (hc : gorillaCandidate xor samples = some c) :
    decodeChunks xor c.chunks = .ok samples := by
  obtain ⟨chunk, hchunk, rfl⟩ := map_eq_some_iff.mp hc
  unfold encodeGorillaChunk at hchunk
  split at hchunk
  · cases hchunk
  · rename_i hsize
    obtain rfl := some.inj hchunk
    have hlen : samples.length < xorChunkMaxSamples := Nat.not_le.mp fun h => hsize (.inr h)
    have hsmall : samples.length < 2 ^ 64 := hlen.trans (by decide)
    have hread : decodeChunk xor ([CodecTag.gorillaXOR.toByte] ++ (putUvarint samples.length ++ xor.encode samples)) =
        .ok samples := by
      rw [decodeChunk_tag, decodeTagged, decodeGorillaChunk, uvarint, (reads_uvarint _ hsmall).run_bind]
      simp only [StateT.run, readXor, hxor samples hlen]
      rfl
    have hnil : decodeChunks xor [] = .ok [] := rfl
    rw [decodeChunks_cons xor hread hnil, append_nil]

/-! ### The winner -/

theorem smallest_mem (cands : List Candidate) : ∀ (best : Candidate), smallest best cands ∈ best :: cands := by
  induction cands with
  | nil => exact mem_singleton_self
  | cons c cands ih =>
    intro best
    have hmem := ih (if c.bytes < best.bytes then c else best)
    rw [smallest, foldl_cons]
    rcases mem_cons.mp hmem with heq | hmem
    · rw [smallest] at heq
      rw [heq]
      split <;> simp
    · exact mem_cons_of_mem _ (mem_cons_of_mem _ hmem)

theorem smallest_le (cands : List Candidate) :
    ∀ {best : Candidate}, ∀ c ∈ best :: cands, (smallest best cands).bytes ≤ c.bytes := by
  induction cands with
  | nil =>
    intro best c hc
    rw [mem_singleton.mp hc]
    exact le_rfl
  | cons x cands ih =>
    intro best c hc
    have hkept : (if x.bytes < best.bytes then x else best).bytes ≤ best.bytes ∧
        (if x.bytes < best.bytes then x else best).bytes ≤ x.bytes := by
      split <;> omega
    have hrest := @ih (if x.bytes < best.bytes then x else best)
    have hfirst := hrest _ mem_cons_self
    rcases mem_cons.mp hc with rfl | hc
    · exact hfirst.trans hkept.1
    · rcases mem_cons.mp hc with rfl | hc
      · exact hfirst.trans hkept.2
      · exact hrest c (mem_cons_of_mem _ hc)

theorem smallest_append (best : Candidate) (cands : List Candidate) (g : Candidate) :
    smallest best (cands ++ [g]) = if g.bytes < (smallest best cands).bytes then g else smallest best cands := by
  rw [smallest, foldl_append]
  rfl

/-- The winner is the XOR candidate if that is smaller than all others, and an integer candidate
otherwise. -/
theorem encode_cases {winner : Candidate} (h : encode xor overflow samples = .ok winner) :
    (gorillaCandidate xor samples = some winner ∧ ∀ c ∈ intCandidates overflow samples, winner.bytes < c.bytes) ∨
      (winner ∈ intCandidates overflow samples ∧
        ¬∃ g, gorillaCandidate xor samples = some g ∧ ∀ c ∈ intCandidates overflow samples, g.bytes < c.bytes) := by
  unfold encode candidates at h
  split at h
  · cases h
  · cases hints : intCandidates overflow samples with
    | nil =>
      cases hg : gorillaCandidate xor samples with
      | none => simp [hints, hg] at h
      | some g =>
        simp only [hints, hg, nil_append, toList_some, Except.ok.injEq] at h
        exact .inl ⟨congrArg some h, by simp⟩
    | cons c cands =>
      have hmem := smallest_mem cands c
      cases hg : gorillaCandidate xor samples with
      | none =>
        simp only [hints, hg, toList_none, append_nil, Except.ok.injEq] at h
        exact .inr ⟨h ▸ hmem, by simp⟩
      | some g =>
        simp only [hints, hg, toList_some, cons_append, smallest_append, Except.ok.injEq] at h
        split at h
        · rename_i hlt
          refine .inl ⟨congrArg some h, fun c' hc' => ?_⟩
          exact h ▸ hlt.trans_le (smallest_le cands c' hc')
        · rename_i hge
          refine .inr ⟨h ▸ hmem, ?_⟩
          rintro ⟨g', hg', hall⟩
          obtain rfl := some.inj hg'
          exact hge (hall _ hmem)

/-! ### Blocks that have a candidate -/

/-- At one exponent each value comes back from its integer. -/
def Decimal (overflow : Float64 → BitVec 64) (vals : List Float64) : Prop :=
  ∃ e ≤ maxScaleExp, ∀ v ∈ vals, v.isNaN = false ∧ v.isInf = false ∧ (scaleValue overflow e v).isSome = true

theorem isSome_tryScaleToInt64 {vals : List Float64} :
    (tryScaleToInt64 overflow vals).isSome = true ↔ Decimal overflow vals := by
  unfold tryScaleToInt64 Decimal
  split
  · rename_i hany
    obtain ⟨v, hv, hbad⟩ := List.any_eq_true.mp hany
    refine iff_of_false (by simp) ?_
    rintro ⟨e, -, hall⟩
    obtain ⟨hnan, hinf, -⟩ := hall v hv
    simp [hnan, hinf] at hbad
  · rename_i hany
    have hfinite : ∀ v ∈ vals, v.isNaN = false ∧ v.isInf = false := by simpa using hany
    simp only [findSome?_isSome_iff, isSome_map, isSome_mapM, mem_range, Nat.lt_succ_iff]
    refine exists_congr fun e => and_congr_right fun _ => forall₂_congr fun v hv => ?_
    rw [← and_assoc, and_iff_right (hfinite v hv)]

theorem intCandidates_ne_nil (hne : samples ≠ []) :
    intCandidates overflow samples ≠ [] ↔ Decimal overflow (samples.map v) := by
  rw [← isSome_tryScaleToInt64, intCandidates]
  cases hscale : tryScaleToInt64 overflow (samples.map v) with
  | none => simp
  | some scaled =>
    obtain ⟨e, ints⟩ := scaled
    have hlen : samples.length = ints.length := by simpa using (tryScaleToInt64_spec hscale).2.length_eq
    obtain ⟨chunks, hchunks⟩ := isSome_iff_exists.mp (encodeIntChunks_isSome hne hlen e false .fixed)
    exact iff_of_true (by simp [hchunks]) rfl

theorem gorillaCandidate_isSome (hne : samples ≠ []) :
    (gorillaCandidate xor samples).isSome = true ↔ samples.length < xorChunkMaxSamples := by
  rw [gorillaCandidate, isSome_map, encodeGorillaChunk]
  split
  · rename_i h
    exact iff_of_false (by simp) (not_lt.mpr (h.resolve_left hne))
  · rename_i h
    exact iff_of_true rfl (not_le.mp fun hle => h (.inr hle))

/-- The XOR chunk can count the samples, or the values are decimals. -/
def Holdable (overflow : Float64 → BitVec 64) (samples : List Sample) : Prop :=
  samples.length < xorChunkMaxSamples ∨ Decimal overflow (samples.map v)

theorem encode_eq_ok_iff :
    (∃ winner, encode xor overflow samples = .ok winner) ↔ samples ≠ [] ∧ Holdable overflow samples := by
  by_cases hne : samples = []
  · simp [encode, hne]
  · rw [Holdable, ← intCandidates_ne_nil hne, ← @gorillaCandidate_isSome _ xor hne, encode, if_neg hne, candidates]
    cases intCandidates overflow samples <;> cases gorillaCandidate xor samples <;> simp [hne]

theorem unsignedZeros_eq_self :
    unsignedZeros samples = samples ↔ ∀ s ∈ samples, s.v ≠ negZero := by
  rw [unsignedZeros]
  nth_rewrite 2 [← List.map_id samples]
  rw [map_inj_left]
  refine forall₂_congr fun s _ => ?_
  rw [← unsigned_eq_self]
  exact ⟨congrArg v, fun h => congrArg (mk s.t) h⟩

/-- The chunks of a block decode to exactly the block, bit by bit, if and only if it has no negative zero
or the XOR candidate is smaller than every integer candidate. -/
theorem decodeChunks_encode_iff (xor : XorChunk) (hxor : xor.Lossless) (overflow : Float64 → BitVec 64)
    (samples : List Sample) (hlen : samples.length < 2 ^ 63) (winner : Candidate)
    (hencode : encode xor overflow samples = .ok winner) :
    decodeChunks xor winner.chunks = .ok samples ↔
      (∀ s ∈ samples, s.v ≠ negZero) ∨
        ∃ g, gorillaCandidate xor samples = some g ∧ ∀ c ∈ intCandidates overflow samples, g.bytes < c.bytes := by
  rcases encode_cases hencode with ⟨hg, hsmaller⟩ | ⟨hint, hnot⟩
  · exact iff_of_true (decodeChunks_gorilla hxor hg) (.inr ⟨winner, hg, hsmaller⟩)
  · rw [decodeChunks_intCandidate xor hlen hint, or_iff_left hnot, ← unsignedZeros_eq_self]
    exact ⟨Except.ok.inj, congrArg Except.ok⟩

/-! ### One sample -/

def plainSample : Reader Unit Sample := do
  let t ← readVarint ()
  let v ← readBytes () 8
  return ⟨t, ⟨UInt64.ofNat (ofLittleEndian v.reverse)⟩⟩

def plainSamples : Reader Unit (List Sample) := do
  let n ← readBytes () 2
  Reader.times plainSample (ofLittleEndian n.reverse)

/-- A chunk that stores timestamps and bit patterns one after the other. For a single sample these are
the bytes of an XOR chunk: the count, the timestamp as a varint, the value in 64 bits. -/
def plainChunk : XorChunk where
  encode samples :=
    (littleEndian 2 samples.length).reverse ++
      samples.flatMap fun s => putVarint s.t ++ (littleEndian 8 s.v.bits.toNat).reverse
  decode bytes := (plainSamples.run bytes).toOption.map Prod.fst

theorem reads_plainSample (s : Sample) :
    Reader.Reads plainSample (putVarint s.t ++ (littleEndian 8 s.v.bits.toNat).reverse) s := by
  refine (reads_varint () s.t).bind ?_
  have hbytes : (littleEndian 8 s.v.bits.toNat).reverse.length = 8 := by simp
  have hread := (reads_bytes () hbytes).bind_pure
    (f := fun v => (⟨s.t, ⟨UInt64.ofNat (ofLittleEndian v.reverse)⟩⟩ : Sample))
  rwa [reverse_reverse, ofLittleEndian_littleEndian 8 s.v.bits.toNat_lt, UInt64.ofNat_toNat] at hread

theorem plainChunk_lossless : plainChunk.Lossless := by
  intro samples hlen
  have hbytes : (littleEndian 2 samples.length).reverse.length = 2 := by simp
  have hread : Reader.Reads plainSamples (plainChunk.encode samples) samples := by
    refine (reads_bytes () hbytes).bind ?_
    rw [reverse_reverse, ofLittleEndian_littleEndian 2 hlen]
    exact Reader.reads_times fun s _ => reads_plainSample s
  have hrun := hread []
  rw [append_nil] at hrun
  change (plainSamples.run (plainChunk.encode samples)).toOption.map Prod.fst = some samples
  rw [hrun]
  rfl

def sampleBlock (v : Float64) : List Sample := [⟨1000, v⟩]

def sampleWinner (scaleExp : UInt8) (base : BitVec 64) : Candidate :=
  ⟨.intForDeltaVarint, [[3] ++ (putUvarint 1 ++ (putVarint 1000 ++ ([scaleExp] ++ (putVarint base ++ putVarint 0))))]⟩

theorem decodeChunks_encode_decimal :
    encode plainChunk (fun _ => 0) (sampleBlock ((ofInt 15).div (pow10 1))) = .ok (sampleWinner 1 15) ∧
      decodeChunks plainChunk (sampleWinner 1 15).chunks = .ok (sampleBlock ((ofInt 15).div (pow10 1))) := by
  have hencode : encode plainChunk (fun _ => 0) (sampleBlock ((ofInt 15).div (pow10 1))) = .ok (sampleWinner 1 15) := by
    decide +kernel
  refine ⟨hencode, (decodeChunks_encode_iff plainChunk plainChunk_lossless _ _ (by decide) _ hencode).mpr (.inl ?_)⟩
  decide +kernel

/-- A negative zero comes back as a positive one. -/
theorem decodeChunks_encode_negZero :
    encode plainChunk (fun _ => 0) (sampleBlock negZero) = .ok (sampleWinner 0 0) ∧
      decodeChunks plainChunk (sampleWinner 0 0).chunks = .ok (sampleBlock (ofMagnitude false 0)) ∧
      sampleBlock (ofMagnitude false 0) ≠ sampleBlock negZero := by
  decide +kernel

end IntChunk

end AsapCollector
