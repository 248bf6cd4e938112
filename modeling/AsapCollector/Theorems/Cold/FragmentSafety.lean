import AsapCollector.Cold.FragmentCodec
import AsapCollector.Lib.Fault

/-! What keeps `DecodeFragmentBatch` from a run-time panic: the number of fragments, which is allocated for before any
of them is read, and the lengths that are added to the position before the sum is checked. -/

namespace AsapCollector.FragmentCodec

open StateT

open Reader

/-- The next length, if it is an `int`, ends at a position that is one. -/
def LengthFits (total : Nat) (rest : Bytes) : Prop :=
  After ((readUvarint ()).run rest) fun n => n.1 < 2 ^ 63 → total - n.2.length + n.1 < 2 ^ 63

/-- The labels of fragment `i`, from its label `j` on. -/
def LabelsFit (total i : Nat) : Nat → Nat → Bytes → Prop
  | 0, _, _ => True
  | n + 1, j, rest =>
    LengthFits total rest ∧ After ((readStr total (.fragment i (.labelName j))).run rest) fun k =>
      LengthFits total k.2 ∧ After ((readStr total (.fragment i (.labelValue j))).run k.2) fun v =>
        LabelsFit total i n (j + 1) v.2

/-- What stands between the labels and the source. -/
def readMiddle (i : Nat) : Read (BitVec 64 × BitVec 64 × Nat × Bytes) := do
  let minTime ← readVarint (.fragment i .minTime .invalidVarint)
  let maxTime ← readVarint (.fragment i .maxTime .invalidVarint)
  let cnt ← readUvarint (.fragment i .count .invalidUvarint)
  let encB ← u8 (.fragment i .encoding .endOfBuffer)
  let encoding ← encodingString i encB
  return (minTime, maxTime, cnt, encoding)

def FragmentFits (total i : Nat) (rest : Bytes) : Prop :=
  LengthFits total rest ∧ After ((readStr total (.fragment i .metric)).run rest) fun metric =>
    After ((readUvarint (DecodeError.fragment i .labelCount .invalidUvarint)).run metric.2) fun nl =>
      LabelsFit total i nl.1 0 nl.2 ∧ After ((decodeLabels total i nl.1 0 .empty).run nl.2) fun attributes =>
        After ((readMiddle i).run attributes.2) fun middle =>
          LengthFits total middle.2 ∧ After ((readStr total (.fragment i .source)).run middle.2) fun source =>
            LengthFits total source.2

/-- The lengths in the next `n` fragments stay in range. -/
def FragmentsFit (total : Nat) : Nat → Nat → Bytes → Prop
  | 0, _, _ => True
  | n + 1, i, rest =>
    FragmentFits total i rest ∧ After ((decodeFragment total i).run rest) fun f => FragmentsFit total n (i + 1) f.2

/-- What is read before the first fragment. -/
def readPreamble (total : Nat) : Read Nat := do
  let magic ← take total .magic fragmentBatchMagic.length
  checkMagic magic
  let ver ← u8 (.version .endOfBuffer)
  checkVersion ver
  readUvarint (.count .invalidUvarint)

/-- As far as the batch is read, the count of fragments can be allocated for and the lengths end at positions
that are an `int`. -/
def DeclaresWithin (maxAlloc : Nat) (b : Bytes) : Prop :=
  After ((readPreamble b.length).run b) fun n => n.1 * fragmentSize ≤ maxAlloc ∧ FragmentsFit b.length n.1 0 n.2

variable {total i : Nat} {rest : Bytes} {wrap : ReadError → DecodeError}

theorem take_ne_panic (hwrap : ∀ err, wrap err ≠ .panic) {n : Nat} :
    (take total wrap n).run rest ≠ .error .panic ↔ (n < 2 ^ 63 → total - rest.length + n < 2 ^ 63) := by
  simp only [run, take]
  split
  · simp [hwrap]; omega
  · split
    · simp; omega
    · split <;> simp [hwrap] <;> omega

theorem readLength_ne_panic {err : DecodeError} (herr : err ≠ .panic)
    (hwrap : ∀ err, wrap err ≠ .panic) :
    (do let n ← readUvarint err; take total wrap n : Read Bytes).run rest ≠ .error .panic ↔ LengthFits total rest := by
  rw [(calm_readUvarint herr).run_bind_ne, LengthFits]
  simp only [readUvarint, run]
  cases uvarint rest with
  | none => exact Iff.rfl
  | some out => exact take_ne_panic hwrap

theorem readStr_ne_panic (hwrap : ∀ err, wrap err ≠ .panic) :
    (readStr total wrap).run rest ≠ .error .panic ↔ LengthFits total rest :=
  readLength_ne_panic (hwrap _) hwrap

theorem fragment_ne_panic {field : Field} (err : ReadError) : DecodeError.fragment i field err ≠ .panic := nofun

theorem decodeLabels_ne_panic (n j : Nat) (attributes : StringMap) (rest : Bytes) :
    (decodeLabels total i n j attributes).run rest ≠ .error .panic ↔ LabelsFit total i n j rest := by
  induction n generalizing j attributes rest with
  | zero => exact iff_of_true (Calm.pure _ _) trivial
  | succ n ih =>
    rw [decodeLabels, run_bind, bind_ne_fault, readStr_ne_panic fragment_ne_panic, LabelsFit]
    refine and_congr_right fun _ => after_congr fun k _ => ?_
    rw [run_bind, bind_ne_fault, readStr_ne_panic fragment_ne_panic]
    exact and_congr_right fun _ => after_congr fun v _ => ih _ _ _

theorem calm_readMiddle : Calm .panic (readMiddle i) := by
  refine (calm_readVarint (fragment_ne_panic _)).bind fun _ => (calm_readVarint (fragment_ne_panic _)).bind fun _ =>
    (calm_readUvarint (fragment_ne_panic _)).bind fun _ => (calm_u8 (fragment_ne_panic _)).bind fun encB =>
      Calm.bind ?_ fun _ => .pure _
  rw [encodingString]
  split
  · exact .pure _
  · exact calm_throw nofun

theorem decodeFragment_eq (total i : Nat) :
    decodeFragment total i = do
      let metricName ← readStr total (.fragment i .metric)
      let nl ← readUvarint (.fragment i .labelCount .invalidUvarint)
      let attributes ← decodeLabels total i nl 0 .empty
      let middle ← readMiddle i
      let source ← readStr total (.fragment i .source)
      let data ← (do let n ← readUvarint (.fragment i .dataLen .invalidUvarint); take total (.fragment i .data) n :
        Read Bytes)
      return ⟨metricName, attributes, middle.1, middle.2.1, BitVec.ofNat 64 middle.2.2.1, middle.2.2.2, data, 0, [],
        source, 0⟩ := by
  simp only [decodeFragment, readMiddle, bind_assoc, pure_bind]

theorem decodeFragment_ne_panic : (decodeFragment total i).run rest ≠ .error .panic ↔ FragmentFits total i rest := by
  rw [decodeFragment_eq, run_bind, bind_ne_fault, readStr_ne_panic fragment_ne_panic, FragmentFits]
  refine and_congr_right fun _ => after_congr fun metric _ => ?_
  rw [(calm_readUvarint (fragment_ne_panic _)).run_bind_ne]
  refine after_congr fun nl _ => ?_
  rw [run_bind, bind_ne_fault, decodeLabels_ne_panic]
  refine and_congr_right fun _ => after_congr fun attributes _ => ?_
  rw [calm_readMiddle.run_bind_ne]
  refine after_congr fun middle _ => ?_
  rw [run_bind, bind_ne_fault, readStr_ne_panic fragment_ne_panic]
  refine and_congr_right fun _ => after_congr fun source _ => ?_
  rw [run_bind, bind_ne_fault, readLength_ne_panic (fragment_ne_panic _) fragment_ne_panic]
  exact and_iff_left (after_iff.mpr fun _ _ => Calm.pure _ _)

theorem decodeFragments_ne_panic (n i : Nat) (rest : Bytes) :
    (decodeFragments total n i).run rest ≠ .error .panic ↔ FragmentsFit total n i rest := by
  induction n generalizing i rest with
  | zero => exact iff_of_true (Calm.pure _ _) trivial
  | succ n ih =>
    rw [decodeFragments, run_bind, bind_ne_fault, decodeFragment_ne_panic, FragmentsFit]
    refine and_congr_right fun _ => after_congr fun f _ => ?_
    rw [run_bind, bind_ne_fault, ih]
    exact and_iff_left (after_iff.mpr fun _ _ => Calm.pure _ _)

theorem readPreamble_ne_panic (b : Bytes) : (readPreamble b.length).run b ≠ .error .panic := by
  have hmagic : (take b.length .magic fragmentBatchMagic.length).run b ≠ .error .panic :=
    (take_ne_panic (by simp)).mpr fun h => by rwa [Nat.sub_self, Nat.zero_add]
  have hcheck : ∀ (wrong : Bool) (err : DecodeError), err ≠ .panic → check wrong err ≠ .error .panic := by
    intro wrong err herr
    cases wrong <;> simp [check, herr]
  rw [readPreamble, run_bind, bind_ne_fault, after_iff]
  refine ⟨hmagic, fun magic _ => ?_⟩
  exact (calm_liftM (hcheck _ _ (by simp))).bind (fun _ => (calm_u8 (by simp)).bind fun _ =>
    (calm_liftM (hcheck _ _ (by simp))).bind fun _ => calm_readUvarint (by simp)) _

/-- A batch is decoded without a panic exactly when what it declares is within bounds. -/
theorem decodeFragmentBatch_ne_panic_iff (maxAlloc : Nat) (b : Bytes) :
    decodeFragmentBatch maxAlloc b ≠ .error .panic ↔ DeclaresWithin maxAlloc b := by
  have hread : readBatch maxAlloc b.length =
      (do let n ← readPreamble b.length; makeFragments maxAlloc n; decodeFragments b.length n 0) := by
    simp only [readBatch, readPreamble, bind_assoc]
  rw [decodeFragmentBatch, bind_ne_fault, hread, run_bind, bind_ne_fault, and_iff_right (readPreamble_ne_panic b),
    and_iff_left (after_iff.mpr fun _ _ => pure_ne_fault _), DeclaresWithin]
  refine after_congr fun n _ => ?_
  rw [run_bind, bind_ne_fault, makeFragments]
  by_cases hfits : maxAlloc < n.1 * fragmentSize
  · exact iff_of_false (fun h => h.1 (by rw [decide_eq_true hfits]; rfl)) fun h => absurd h.1 (not_le.mpr hfits)
  · rw [and_iff_right (not_lt.mp hfits), decide_eq_false hfits]
    exact (and_iff_right nofun).trans (decodeFragments_ne_panic _ _ _)

def forge (count : Nat) (fragments : Bytes) : Bytes :=
  fragmentBatchMagic ++ ([fragmentBatchVersion] ++ (putUvarint count ++ fragments))

/-- A count that cannot be allocated for, and a metric name whose end is no `int`. -/
theorem forged_batches_panic :
    decodeFragmentBatch (2 ^ 48) (forge (2 ^ 60) []) = .error .panic ∧
      decodeFragmentBatch (2 ^ 48) (forge 1 (putUvarint (2 ^ 63 - 1))) = .error .panic := by
  decide +kernel

end AsapCollector.FragmentCodec
