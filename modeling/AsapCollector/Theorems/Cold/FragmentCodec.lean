import AsapCollector.Lib.Framing
import AsapCollector.Cold.FragmentCodec

/-! The merger reads the batch the edge sent, without the edge's own bookkeeping, and refuses a frame that was cut
short. -/

namespace AsapCollector.FragmentCodec

open List StringMap FragmentCodec.Fragment

open Reader

def Returned (err : DecodeError) : Prop := err ≠ .panic

variable {total : Nat}

theorem framed_take (htotal : total < 2 ^ 63) {wrap : ReadError → DecodeError} (hwrap : ∀ err, Returned (wrap err))
    (bytes : Bytes) : Framed Returned (2 ^ 63) total (take total wrap bytes.length) bytes bytes where
  reads rest hle := by
    rw [length_append] at hle
    have hpos : total - (bytes ++ rest).length + bytes.length ≤ total := by
      rw [length_append]
      omega
    simp only [StateT.run, take]
    rw [if_neg (by omega), if_neg (by omega), if_neg (by omega), take_left, drop_left]
  cut p hp hne hle hlimit := by
    have hshort : p.length < bytes.length := lt_of_le_of_ne hp.length_le fun h => hne (hp.eq_of_length h)
    simp only [StateT.run, take]
    rw [if_neg (by omega), if_neg (by omega), if_pos (by omega)]
    exact ⟨_, rfl, hwrap _⟩

theorem framed_str (htotal : total < 2 ^ 63) {wrap : ReadError → DecodeError} (hwrap : ∀ err, Returned (wrap err))
    {s : Bytes} (hs : s.length < 2 ^ 64) : Framed Returned (2 ^ 63) total (readStr total wrap) (appendCodecStr s) s :=
  (framed_uvarint (hwrap _) hs).bind (framed_take htotal hwrap s)

theorem returned_fragment (i : Nat) (field : Field) (err : ReadError) : Returned (.fragment i field err) := nofun

theorem framed_labels (htotal : total < 2 ^ 63) (i : Nat) (es : List (Bytes × Bytes))
    (hlen : ∀ e ∈ es, e.1.length < 2 ^ 64 ∧ e.2.length < 2 ^ 64) (j : Nat) (m m' : StringMap)
    (hm : m'.entries = m.entries ++ es) :
    Framed Returned (2 ^ 63) total (decodeLabels total i es.length j m) (encodeLabels es) m' := by
  induction es generalizing j m with
  | nil =>
    obtain rfl : m = m' := ext_entries (by rw [hm, append_nil])
    exact .pure m
  | cons e es ih =>
    obtain ⟨hname, hvalue⟩ := hlen e mem_cons_self
    have hset : (m.set e.1 e.2).entries = m.entries ++ [e] := by
      refine set_eq_of_append rfl fun e' he' => ?_
      have hsorted := m'.sorted
      rw [hm] at hsorted
      exact (pairwise_append.mp hsorted).2.2 e' he' e mem_cons_self
    have htail := ih (fun e' he' => hlen e' (mem_cons_of_mem e he')) (j + 1) (m.set e.1 e.2) (by
      rw [hm, hset, append_assoc, singleton_append])
    rw [encodeLabels, flatMap_cons, append_assoc]
    exact (framed_str htotal (returned_fragment i _) hname).bind
      ((framed_str htotal (returned_fragment i _) hvalue).bind htail)

def Fragment.carried (f : Fragment) : Fragment :=
  { f with encoding := str "xor", oooDropCount := 0, fragmentULID := [], watermarkTime := 0 }

theorem encodingString_xor {f : Fragment} (hf : f.encoding = [] ∨ f.encoding = str "xor") (i : Nat) :
    encodingString i (encodingByte f.encoding) = pure (str "xor") := by
  rw [encodingByte, if_pos hf]
  rfl

theorem appendCodecStr_ne_nil (s : Bytes) : appendCodecStr s ≠ [] :=
  append_ne_nil_of_left_ne_nil (putUvarint_ne_nil _) _

theorem length_appendCodecStr (s : Bytes) : s.length ≤ (appendCodecStr s).length := by
  simp [appendCodecStr]

theorem length_labels (es : List (Bytes × Bytes)) : es.length ≤ (encodeLabels es).length ∧
    ∀ e ∈ es, e.1.length ≤ (encodeLabels es).length ∧ e.2.length ≤ (encodeLabels es).length := by
  refine ⟨length_le_flatMap fun e _ => append_ne_nil_of_left_ne_nil (appendCodecStr_ne_nil _) _, fun e he => ?_⟩
  have hle := length_write_le (fun e : Bytes × Bytes => appendCodecStr e.1 ++ appendCodecStr e.2) he
  have hname := length_appendCodecStr e.1
  have hvalue := length_appendCodecStr e.2
  rw [length_append] at hle
  rw [encodeLabels]
  omega

theorem framed_fragment (htotal : total < 2 ^ 63) (i : Nat) {f : Fragment}
    (hf : f.encoding = [] ∨ f.encoding = str "xor") (hlen : (encodeFragment f).length < 2 ^ 63) :
    Framed Returned (2 ^ 63) total (decodeFragment total i) (encodeFragment f) f.carried := by
  obtain ⟨hcount, hlabels⟩ := length_labels f.attributes.entries
  have hmetric := length_appendCodecStr f.metricName
  have hsource := length_appendCodecStr f.source
  simp only [encodeFragment, length_append] at hlen
  have hwrap := returned_fragment i
  refine (framed_str htotal (hwrap _) (by omega)).bind ((framed_uvarint (hwrap _ _) (by omega)).bind ?_)
  refine (framed_labels htotal i _ (fun e he => ?_) 0 empty f.attributes rfl).bind ?_
  · have := hlabels e he
    omega
  refine (framed_varint (hwrap _ _) f.minTime).bind ((framed_varint (hwrap _ _) f.maxTime).bind ?_)
  refine (framed_uvarint (hwrap _ _) f.count.isLt).bind ((framed_u8 (hwrap _ _) _).bind ?_)
  rw [encodingString_xor hf, pure_bind]
  refine (framed_str htotal (hwrap _) (by omega)).bind ((framed_uvarint (hwrap _ _) (by omega)).bind ?_)
  simp only [BitVec.ofNat_toNat, BitVec.setWidth_eq]
  exact (framed_take htotal (hwrap .data) f.data).bind_pure

theorem framed_fragments (htotal : total < 2 ^ 63) (i : Nat) {frags : List Fragment}
    (hxor : ∀ f ∈ frags, f.encoding = [] ∨ f.encoding = str "xor")
    (hlen : (frags.flatMap encodeFragment).length < 2 ^ 63) :
    Framed Returned (2 ^ 63) total (decodeFragments total frags.length i) (frags.flatMap encodeFragment)
      (frags.map carried) := by
  induction frags generalizing i with
  | nil => exact .pure []
  | cons f frags ih =>
    rw [flatMap_cons, length_append] at hlen
    refine (framed_fragment htotal i (hxor f mem_cons_self) (by omega)).bind ?_
    exact (ih (i + 1) (fun f' hf' => hxor f' (mem_cons_of_mem f hf')) (by omega)).bind_pure

theorem encodeFragment_ne_nil (f : Fragment) : encodeFragment f ≠ [] :=
  append_ne_nil_of_left_ne_nil (appendCodecStr_ne_nil _) _

theorem framed_batch (htotal : total < 2 ^ 63) {maxAlloc : Nat} {frags : List Fragment}
    (hxor : ∀ f ∈ frags, f.encoding = [] ∨ f.encoding = str "xor") (hslice : frags.length * fragmentSize ≤ maxAlloc)
    (hframe : (encodeFragmentBatch frags).length < 2 ^ 63) :
    Framed Returned (2 ^ 63) total (readBatch maxAlloc total) (encodeFragmentBatch frags)
      (frags.map carried) := by
  simp only [encodeFragmentBatch, length_append] at hframe
  have hcount := length_le_flatMap fun f (_ : f ∈ frags) => encodeFragment_ne_nil f
  refine (framed_take htotal (show ∀ err, Returned (.magic err) from fun _ => nofun) fragmentBatchMagic).bind ?_
  refine .check rfl ((framed_u8 (show Returned (.version .endOfBuffer) from nofun) fragmentBatchVersion).bind ?_)
  refine .check rfl ((framed_uvarint (show Returned (.count .invalidUvarint) from nofun) (by omega)).bind ?_)
  refine .check ?_ (framed_fragments htotal 0 hxor (by omega))
  rw [makeFragments, check_eq_ok, decide_eq_false_iff_not, not_lt]
  exact hslice

/-- The batch is a Go slice, and so is its frame. What is received is what was sent, without the three fields
that the frame does not carry; a frame cut short is refused with an error. -/
theorem decode_encodeFragmentBatch (maxAlloc : Nat) (frags : List Fragment)
    (hxor : ∀ f ∈ frags, f.encoding = [] ∨ f.encoding = str "xor") (hslice : frags.length * fragmentSize ≤ maxAlloc)
    (hframe : (encodeFragmentBatch frags).length < 2 ^ 63) :
    decodeFragmentBatch maxAlloc (encodeFragmentBatch frags) = .ok (frags.map carried) ∧
      ∀ p, p <+: encodeFragmentBatch frags → p ≠ encodeFragmentBatch frags →
        ∃ err, decodeFragmentBatch maxAlloc p = .error err ∧ err ≠ .panic := by
  constructor
  · have hread := (framed_batch hframe hxor hslice hframe).reads [] (by simp)
    rw [append_nil] at hread
    rw [decodeFragmentBatch, hread]
    rfl
  · intro p hp hne
    have hle := hp.length_le
    obtain ⟨err, herr, hreturned⟩ := (framed_batch (lt_of_le_of_lt hle hframe) hxor hslice hframe).cut p hp hne
      (le_refl _) (by omega)
    refine ⟨err, ?_, hreturned⟩
    rw [decodeFragmentBatch, herr]
    rfl

/-- Two fragments, one of them with a negative count and without an encoding. -/
def twoFragments : List Fragment :=
  [⟨str "up", ofList [(str "job", str "a"), (str "host", str "h")], 5, 9, 3, str "xor", [1, 2], 4, str "01J",
    str "edge", 7⟩, ⟨str "up", empty, -1, -1, -1, [], [], 0, [], [], 0⟩]

theorem decode_encode_twoFragments :
    decodeFragmentBatch (2 ^ 48) (encodeFragmentBatch twoFragments) = .ok (twoFragments.map carried) ∧
      ∀ p, p <+: encodeFragmentBatch twoFragments → p ≠ encodeFragmentBatch twoFragments →
        ∃ err, decodeFragmentBatch (2 ^ 48) p = .error err ∧ err ≠ .panic :=
  decode_encodeFragmentBatch (2 ^ 48) twoFragments (by decide) (by decide) (by decide +kernel)

end AsapCollector.FragmentCodec
