import AsapCollector.Cold.BestOfN
import AsapCollector.Theorems.Cold.BitPack

/-! What `decodeIntChunk` reads from an integer chunk, and that cutting a block into several chunks does not change
it. -/

namespace AsapCollector.IntChunk

open List

open Reader

variable (xs : List (BitVec 64))

theorem undeltas_deltas : ∀ prev, undeltas prev (deltas prev xs) = xs := by
  induction xs with
  | nil => exact fun _ => rfl
  | cons x xs ih =>
    intro prev
    have hx : prev + (x - prev) = x := by ring
    simp only [deltas, undeltas, hx, ih]

theorem undods_dods : ∀ prev prevDelta, undods prev prevDelta (dods prev prevDelta xs) = xs := by
  induction xs with
  | nil => exact fun _ _ => rfl
  | cons x xs ih =>
    intro prev prevDelta
    have hdelta : prevDelta + (x - prev - prevDelta) = x - prev := by ring
    have hx : prev + (x - prev) = x := by ring
    simp only [dods, undods, hdelta, hx, ih]

@[simp] theorem length_deltas : ∀ prev, (deltas prev xs).length = xs.length := by
  induction xs with
  | nil => exact fun _ => rfl
  | cons x xs ih => exact fun prev => congrArg Nat.succ (ih x)

@[simp] theorem length_dods : ∀ prev prevDelta, (dods prev prevDelta xs).length = xs.length := by
  induction xs with
  | nil => exact fun _ _ => rfl
  | cons x xs ih => exact fun prev prevDelta => congrArg Nat.succ (ih x (x - prev))

theorem reads_timestamps (ts : List (BitVec 64)) :
    Reads (decodeTimestamps ts.length) (encodeTimestamps ts) ts := by
  match ts with
  | [] => exact .pure []
  | [t0] => exact (reads_varint _ t0).bind_pure (f := fun t => [t])
  | t0 :: t1 :: ts =>
    refine (reads_varint _ t0).bind ((reads_varint _ (t1 - t0)).bind ?_)
    have hds : Reads (times varint (dods t1 (t1 - t0) ts).length) _ (dods t1 (t1 - t0) ts) :=
      reads_times fun d _ => reads_varint _ d
    rw [length_dods] at hds
    have hvalue : t0 :: (t0 + (t1 - t0)) :: undods (t0 + (t1 - t0)) (t1 - t0) (dods t1 (t1 - t0) ts) =
        t0 :: t1 :: ts := by
      rw [show t0 + (t1 - t0) = t1 by ring, undods_dods]
    have hread := hds.bind_pure (f := fun ds => t0 :: (t0 + (t1 - t0)) :: undods (t0 + (t1 - t0)) (t1 - t0) ds)
    rwa [hvalue] at hread

variable {dod : Bool} {residuals : List (BitVec 64)}

variable {ints : List (BitVec 64)} {samples : List Sample} {chunk : Bytes}

theorem intResiduals_spec {base firstResidual : BitVec 64}
    (h : intResiduals dod ints = some (base, firstResidual, residuals)) :
    reconstructInts base firstResidual residuals ints.length dod = ints ∧ residuals.length = ints.length - 2 ∧
      ∀ d ∈ residuals, residualFits d = true := by
  match ints with
  | [] => cases h
  | [a] =>
    obtain ⟨rfl, rfl, rfl⟩ : a = base ∧ 0 = firstResidual ∧ [] = residuals := by simpa [intResiduals] using h
    exact ⟨rfl, rfl, by simp⟩
  | a :: b :: rest =>
    have hb : a + (b - a) = b := by ring
    simp only [intResiduals] at h
    generalize hres : (if dod then dods b (b - a) rest else deltas b rest) = rs at h
    split at h
    · rename_i hfits
      obtain ⟨rfl, rfl, rfl⟩ : a = base ∧ b - a = firstResidual ∧ rs = residuals := by simpa using h
      refine ⟨?_, ?_, all_eq_true.mp (Bool.and_eq_true_iff.mp hfits).2⟩
      · cases dod <;> simp [reconstructInts, hb, ← hres, undeltas_deltas, undods_dods]
      · cases dod <;> simp [← hres]
    · cases h

theorem reads_packed {zz : List (BitVec 64)} {width : Nat} (hwidth : width ≤ maxResidualWidth)
    (hzz : ∀ u ∈ zz, u.toNat < 2 ^ width) :
    Reads (decodePacked zz.length width) (packBits zz width) (zz.map unzigzag) := by
  intro rest
  have hskip := length_packBits hwidth zz
  have henough : ¬(packBits zz width ++ rest).length < (zz.length * width + 7) / 8 := by
    rw [length_append, hskip]
    omega
  have hdrop : (packBits zz width ++ rest).drop ((zz.length * width + 7) / 8) = rest := by
    rw [← hskip, drop_left]
  simp only [StateT.run, decodePacked, unpackBits_packBits hwidth hzz rest, bind, Except.bind, henough, if_false, hdrop]

theorem reads_body (hfits : ∀ d ∈ residuals, residualFits d = true) (body : BodyFormat) :
    Reads (decodeBody residuals.length body) (encodeBody residuals body) residuals := by
  cases body with
  | varint => exact reads_times fun d _ => reads_varint _ d
  | fixed =>
    have hwidth : bitPackWidth (residuals.map zigzag) ≤ maxResidualWidth := by
      refine bitPackWidth_le fun u hu => ?_
      obtain ⟨d, hd, rfl⟩ := mem_map.mp hu
      exact of_decide_eq_true (hfits d hd)
    have hbyte : (UInt8.ofNat (bitPackWidth (residuals.map zigzag))).toNat = bitPackWidth (residuals.map zigzag) := by
      have : bitPackWidth (residuals.map zigzag) ≤ 56 := hwidth
      rw [UInt8.toNat_ofNat']
      omega
    have hpacked := reads_packed hwidth fun u hu => lt_two_pow_bitPackWidth hu
    rw [map_map, show unzigzag ∘ zigzag = id from funext unzigzag_zigzag, map_id, length_map] at hpacked
    refine (reads_u8 _ _).bind ?_
    rwa [hbyte]

def unscaled (scaleExp : Nat) (samples : List Sample) (ints : List (BitVec 64)) : List Sample :=
  zipWith (fun s i => ⟨s.t, unscale (pow10 scaleExp) i⟩) samples ints

theorem pow10Abs_ofNat {e : Nat} (he : e ≤ maxScaleExp) : pow10Abs (UInt8.ofNat e).toBitVec.toInt = pow10 e := by
  have hbound : e < 16 := Nat.lt_succ_of_le he
  have hint : (UInt8.ofNat e).toBitVec.toInt = e := by interval_cases e <;> rfl
  rw [hint, pow10Abs, if_pos ⟨Int.natCast_nonneg e, by exact_mod_cast he⟩, Int.toNat_natCast]

variable (xor : XorChunk)

theorem decodeTagged_codecTagFor (dod : Bool) (body : BodyFormat) :
    decodeTagged xor (codecTagFor dod body) = decodeIntChunk dod body := by
  cases dod <;> cases body <;> rfl

theorem ofByte_toByte (tag : CodecTag) : CodecTag.ofByte tag.toByte = some tag := by
  cases tag <;> rfl

variable {scaleExp : Nat}

/-- What `decodeIntChunk` reads after the number of samples: the timestamps, the exponent and the integers. -/
def readInts (n : Nat) (dod : Bool) (body : BodyFormat) : Read (List (BitVec 64) × UInt8 × List (BitVec 64)) := do
  let ts ← decodeTimestamps n
  let rawExp ← u8
  let base ← varint
  let firstResidual ← varint
  let residuals ← decodeBody (n - 2) body
  return (ts, rawExp, reconstructInts base firstResidual residuals n dod)

/-- `decodeIntChunk` before the division. -/
def decodeInts (dod : Bool) (body : BodyFormat) : Read (List (BitVec 64) × UInt8 × List (BitVec 64)) := do
  let n ← uvarint
  readInts n dod body

theorem decodeIntChunk_eq (dod : Bool) (body : BodyFormat) :
    decodeIntChunk dod body = (fun out => zipWith (fun t i => ⟨t, unscale (pow10Abs out.2.1.toBitVec.toInt) i⟩) out.1
      out.2.2) <$> decodeInts dod body := by
  simp only [decodeIntChunk, decodeInts, readInts, map_bind, map_pure]

theorem reads_ints {body : BodyFormat} (hlen : samples.length = ints.length) (hn : samples.length < 2 ^ 64)
    (hchunk : encodeIntChunk samples scaleExp ints dod body = some chunk) :
    ∃ bytes, chunk = [(codecTagFor dod body).toByte] ++ bytes ∧
      Reads (decodeInts dod body) bytes (samples.map Sample.t, UInt8.ofNat scaleExp, ints) := by
  obtain ⟨⟨base, firstResidual, residuals⟩, hres, rfl⟩ := Option.map_eq_some_iff.mp hchunk
  obtain ⟨hints, hcount, hfits⟩ := intResiduals_spec hres
  refine ⟨_, rfl, ?_⟩
  have hts := reads_timestamps (samples.map Sample.t)
  rw [length_map] at hts
  have hbody := reads_body hfits body
  rw [hcount, ← hlen] at hbody
  refine (reads_uvarint _ hn).bind (hts.bind ((reads_u8 _ _).bind ((reads_varint _ base).bind
    ((reads_varint _ firstResidual).bind ?_))))
  rw [← hlen] at hints
  rw [← hints]
  exact hbody.bind_pure

theorem decodeChunk_tag (tag : CodecTag) (rest : Bytes) :
    decodeChunk xor ([tag.toByte] ++ rest) = ((decodeTagged xor tag).run rest).map Prod.fst := by
  have htag := reads_u8 CodecError.corruptChunk tag.toByte rest
  simp only [decodeChunk, u8, htag, bind, Except.bind, ofByte_toByte]
  cases (decodeTagged xor tag).run rest <;> rfl

variable {body : BodyFormat}

theorem decodeChunk_encodeIntChunk (hlen : samples.length = ints.length) (hn : samples.length < 2 ^ 64)
    (he : scaleExp ≤ maxScaleExp) (hchunk : encodeIntChunk samples scaleExp ints dod body = some chunk) :
    decodeChunk xor chunk = .ok (unscaled scaleExp samples ints) := by
  obtain ⟨bytes, rfl, hread⟩ := reads_ints hlen hn hchunk
  have hrun := hread []
  rw [append_nil] at hrun
  rw [decodeChunk_tag, decodeTagged_codecTagFor, decodeIntChunk_eq, StateT.run_map, hrun]
  simp only [unscaled, pow10Abs_ofNat he, zipWith_map_left, Except.map, Functor.map]

theorem cutDelta_spec :
    ∀ prev i, ∃ n ≤ xs.length, cutDelta prev i xs = i + n ∧ ∀ d ∈ deltas prev (xs.take n), residualFits d = true := by
  induction xs with
  | nil => exact fun _ _ => ⟨0, le_rfl, rfl, by simp [deltas]⟩
  | cons x xs ih =>
    intro prev i
    unfold cutDelta
    split
    · rename_i hfits
      obtain ⟨n, hn, hcut, hall⟩ := ih x (i + 1)
      refine ⟨n + 1, Nat.succ_le_succ hn, by omega, ?_⟩
      simpa [deltas, hfits] using hall
    · exact ⟨0, Nat.zero_le _, rfl, by simp [deltas]⟩

theorem cutDod_spec :
    ∀ prev prevDelta i, ∃ n ≤ xs.length, cutDod prev prevDelta i xs = i + n ∧
      ∀ d ∈ dods prev prevDelta (xs.take n), residualFits d = true := by
  induction xs with
  | nil => exact fun _ _ _ => ⟨0, le_rfl, rfl, by simp [dods]⟩
  | cons x xs ih =>
    intro prev prevDelta i
    unfold cutDod
    split
    · rename_i hfits
      obtain ⟨n, hn, hcut, hall⟩ := ih x (x - prev) (i + 1)
      refine ⟨n + 1, Nat.succ_le_succ hn, by omega, ?_⟩
      simpa [dods, hfits] using hall
    · exact ⟨0, Nat.zero_le _, rfl, by simp [dods]⟩

theorem findCutEnd_spec (dod : Bool) (hne : ints ≠ []) :
    0 < findCutEnd dod ints ∧ (intResiduals dod (ints.take (findCutEnd dod ints))).isSome = true := by
  match ints with
  | [] => exact absurd rfl hne
  | [a] => exact ⟨Nat.one_pos, rfl⟩
  | a :: b :: rest =>
    cases dod with
    | true =>
      simp only [findCutEnd, if_true]
      split
      · rename_i hfits
        obtain ⟨n, -, hcut, hall⟩ := cutDod_spec rest b (b - a) 2
        rw [hcut, Nat.add_comm 2 n]
        simpa [intResiduals, hfits] using hall
      · exact ⟨Nat.one_pos, rfl⟩
    | false =>
      obtain ⟨n, -, hcut, hall⟩ := cutDelta_spec (b :: rest) a 1
      simp only [findCutEnd, Bool.false_eq_true, if_false, hcut, Nat.add_comm 1 n]
      refine ⟨Nat.succ_pos _, ?_⟩
      cases n with
      | zero => rfl
      | succ n =>
        simp only [take_succ_cons, deltas, forall_mem_cons] at hall
        simpa [intResiduals, hall.1] using hall.2

theorem cutChunks_isSome (fuel : Nat) :
    ∀ {samples : List Sample} {ints : List (BitVec 64)}, samples.length ≤ fuel → samples.length = ints.length →
      (cutChunks scaleExp dod body fuel samples ints).isSome = true := by
  induction fuel with
  | zero =>
    intro samples ints hfuel _
    obtain rfl := length_eq_zero_iff.mp (Nat.le_zero.mp hfuel)
    rfl
  | succ fuel ih =>
    intro samples ints hfuel hlen
    match samples with
    | [] => rfl
    | s :: samples =>
      have hne : ints ≠ [] := by
        rintro rfl
        simp at hlen
      obtain ⟨hpos, hres⟩ := findCutEnd_spec dod hne
      obtain ⟨parts, hparts⟩ := Option.isSome_iff_exists.mp hres
      have hrest := @ih ((s :: samples).drop (findCutEnd dod ints)) (ints.drop (findCutEnd dod ints))
        (by rw [length_drop]; omega) (by rw [length_drop, length_drop, hlen])
      obtain ⟨chunks, hchunks⟩ := Option.isSome_iff_exists.mp hrest
      simp [cutChunks, encodeIntChunk, hparts, hchunks]

theorem encodeIntChunks_isSome (hne : samples ≠ []) (hlen : samples.length = ints.length) (scaleExp : Nat) (dod : Bool)
    (body : BodyFormat) : (encodeIntChunks samples scaleExp ints dod body).isSome = true := by
  rw [encodeIntChunks, if_neg hne]
  exact cutChunks_isSome _ le_rfl hlen

theorem decodeChunks_cons {chunks : List Bytes} {first rest : List Sample}
    (hfirst : decodeChunk xor chunk = .ok first) (hrest : decodeChunks xor chunks = .ok rest) :
    decodeChunks xor (chunk :: chunks) = .ok (first ++ rest) := by
  unfold decodeChunks at hrest ⊢
  cases hmap : chunks.mapM (decodeChunk xor) with
  | error e =>
    rw [hmap] at hrest
    cases hrest
  | ok parts =>
    rw [hmap] at hrest
    obtain rfl := Except.ok.inj hrest
    rw [mapM_cons, hfirst, hmap]
    rfl

theorem cutChunks_parts (fuel : Nat) :
    ∀ {samples : List Sample} {ints : List (BitVec 64)} {chunks : List Bytes}, samples.length = ints.length →
      cutChunks scaleExp dod body fuel samples ints = some chunks → ∃ parts : List (List Sample × List (BitVec 64)),
        Forall₂ (fun chunk part => part.1.length = part.2.length ∧
          encodeIntChunk part.1 scaleExp part.2 dod body = some chunk) chunks parts ∧
        parts.flatMap Prod.fst = samples ∧ parts.flatMap Prod.snd = ints := by
  induction fuel with
  | zero =>
    rintro (_ | ⟨s, samples⟩) ints chunks hlen hchunks
    · obtain rfl := Option.some.inj hchunks
      exact ⟨[], .nil, rfl, (length_eq_zero_iff.mp hlen.symm).symm⟩
    · cases hchunks
  | succ fuel ih =>
    rintro (_ | ⟨s, samples⟩) ints chunks hlen hchunks
    · obtain rfl := Option.some.inj hchunks
      exact ⟨[], .nil, rfl, (length_eq_zero_iff.mp hlen.symm).symm⟩
    · simp only [cutChunks, Option.bind_eq_bind, Option.bind_eq_some_iff, Option.pure_def, Option.some.injEq] at hchunks
      obtain ⟨chunk, hchunk, rest, hrest, rfl⟩ := hchunks
      obtain ⟨parts, hparts, hsamples, hints⟩ := ih (by simp [hlen]) hrest
      refine ⟨(_, _) :: parts, .cons ⟨by simp [hlen], hchunk⟩ hparts, ?_, ?_⟩
      · rw [flatMap_cons, hsamples, take_append_drop]
      · rw [flatMap_cons, hints, take_append_drop]

theorem decodeChunks_cutChunks (he : scaleExp ≤ maxScaleExp) (fuel : Nat) {chunks : List Bytes}
    (hlen : samples.length = ints.length) (hn : samples.length < 2 ^ 64)
    (hchunks : cutChunks scaleExp dod body fuel samples ints = some chunks) :
    decodeChunks xor chunks = .ok (unscaled scaleExp samples ints) := by
  obtain ⟨parts, hparts, rfl, rfl⟩ := cutChunks_parts fuel hlen hchunks
  clear hchunks hlen
  induction hparts with
  | nil => rfl
  | cons hpart _ ih =>
    rw [flatMap_cons, length_append] at hn
    have hfirst := decodeChunk_encodeIntChunk xor hpart.1 (by omega) he hpart.2
    rw [decodeChunks_cons xor hfirst (ih (by omega)), flatMap_cons, flatMap_cons, unscaled, unscaled, unscaled,
      zipWith_append hpart.1]

/-- Each chunk is read to its end, and together they give the timestamps and the integers. -/
def ReadBack (scaleExp : Nat) (dod : Bool) (body : BodyFormat) (chunks : List Bytes) (ts ints : List (BitVec 64)) :
    Prop :=
  ∃ read : List (List (BitVec 64) × List (BitVec 64)),
    Forall₂ (fun chunk out => ∃ bytes, chunk = (codecTagFor dod body).toByte :: bytes ∧
      (decodeInts dod body).run bytes = .ok ((out.1, UInt8.ofNat scaleExp, out.2), [])) chunks read ∧
    read.flatMap Prod.fst = ts ∧ read.flatMap Prod.snd = ints

/-- Integers of any size are cut into chunks that read back as they were written. -/
theorem readBack_encodeIntChunks (samples : List Sample) (ints : List (BitVec 64)) (scaleExp : Nat) (dod : Bool)
    (body : BodyFormat) (hne : samples ≠ []) (hlen : samples.length = ints.length) (hn : samples.length < 2 ^ 63) :
    ∃ chunks, encodeIntChunks samples scaleExp ints dod body = some chunks ∧
      ReadBack scaleExp dod body chunks (samples.map Sample.t) ints := by
  obtain ⟨chunks, hchunks⟩ := Option.isSome_iff_exists.mp (encodeIntChunks_isSome hne hlen scaleExp dod body)
  refine ⟨chunks, hchunks, ?_⟩
  rw [encodeIntChunks, if_neg hne] at hchunks
  obtain ⟨parts, hparts, rfl, rfl⟩ := cutChunks_parts _ hlen hchunks
  refine ⟨parts.map fun part => (part.1.map Sample.t, part.2), ?_, ?_, ?_⟩
  · rw [forall₂_map_right_iff]
    clear hchunks hlen hne
    induction hparts with
    | nil => exact .nil
    | cons hpart _ ih =>
      rw [flatMap_cons, length_append] at hn
      obtain ⟨bytes, rfl, hread⟩ := reads_ints hpart.1 (by omega) hpart.2
      have hrun := hread []
      rw [append_nil] at hrun
      exact .cons ⟨bytes, rfl, hrun⟩ (ih (by omega))
  · rw [flatMap_map, map_flatMap]
  · rw [flatMap_map]

def extremes : List (BitVec 64) := [BitVec.intMin 64, BitVec.intMax 64, BitVec.intMin 64]

theorem readBack_extremes :
    ∃ chunks, encodeIntChunks (extremes.map fun t => ⟨t, .nan⟩) 15 extremes true .fixed = some chunks ∧
      ReadBack 15 true .fixed chunks extremes extremes :=
  readBack_encodeIntChunks (extremes.map fun t => ⟨t, .nan⟩) extremes 15 true .fixed (by decide) rfl (by decide)

end AsapCollector.IntChunk
