import AsapCollector.Lib.Fault
import AsapCollector.Theorems.Cold.Part

/-! What keeps `OpenPart` and `Part.Series` from a run-time panic: the checks of the source compare sums that wrap, and
none bounds a count before it is allocated for. -/

namespace AsapCollector.ColdPart

open StateT List IntChunk

open Reader

/-- The run of a series and each of its chunks lie in a buffer of `total` bytes. -/
def IndexSeries.Inside (total : Nat) (s : IndexSeries) : Prop :=
  s.chunkOff + s.chunkLen ≤ total ∧ ∀ k, s.chunkOff + (s.chunkLens.take k).sum ≤ total

/-- No panic, neither opening the bytes nor querying what was opened, and no slice out of them. -/
structure SafelyRead (xor : XorChunk) (crc32c : Bytes → UInt32) (maxAlloc : Nat) (b : Bytes) : Prop where
  opens : openPart crc32c maxAlloc b ≠ .error .panic
  queries : ∀ p, openPart crc32c maxAlloc b = .ok p → ∀ matchers mintMs maxtMs,
    p.query xor matchers mintMs maxtMs ≠ .error .panic
  inside : ∀ p, openPart crc32c maxAlloc b = .ok p → ∀ s ∈ p.series, s.Inside b.length

/-- Length, magic and checksum are those of a part. -/
def Intact (crc32c : Bytes → UInt32) (b : Bytes) : Prop :=
  magic.length + 1 + 8 + 8 + 1 + footerLen ≤ b.length ∧ b.take magic.length = magic ∧
    (crc32c (b.take (b.length - 4))).toNat = ofLittleEndian (b.drop (b.length - 4))

/-- The next symbol, if its length is an `int`, ends at a position that is one. -/
def SymbolFits (total : Nat) (rest : Bytes) : Prop :=
  After (readUvarint.run rest) fun n => n.1 < 2 ^ 63 → total - n.2.length + n.1 < 2 ^ 63

structure EntryHead where
  lbls : Labels
  chunkOff : Nat
  chunkLen : Nat
  chunkCount : Nat

variable (symbols : List Bytes)

def readEntryHead : Read EntryHead := do
  let nLabels ← readUvarint
  let lbls ← readLabels symbols nLabels StringMap.empty
  let chunkOff ← readU64
  let chunkLen ← readU32
  let chunkCount ← readUvarint
  return ⟨lbls, chunkOff, chunkLen, chunkCount⟩

/-- The entry declares chunks that can be allocated for. -/
def EntryFits (maxAlloc : Nat) (symbols : List Bytes) (rest : Bytes) : Prop :=
  After ((readEntryHead symbols).run rest) fun head => head.1.chunkCount * 8 ≤ maxAlloc

/-- The sums of offsets and lengths do not wrap. -/
def IndexSeries.Unwrapped (s : IndexSeries) : Prop := s.chunkOff + s.chunkLen < 2 ^ 64 ∧ s.chunkLens.sum < 2 ^ 64

/-- As far as the part is read its counts can be allocated, its symbols end at positions that are an `int`, and
the sums of its index do not wrap. -/
def DeclaresWithin (crc32c : Bytes → UInt32) (maxAlloc : Nat) (b : Bytes) : Prop :=
  Intact crc32c b → After (readHeader.run (b.drop magic.length)) fun header =>
    After (readFooter.run (b.drop (b.length - footerLen))) fun footer =>
      checkFooter footer.1 (b.length - footerLen) = .ok () → After (readUvarint.run (b.drop footer.1.symtabOff))
        fun symCount =>
        symCount.1 * 16 ≤ maxAlloc ∧ EachTime (readSymbol b.length) (SymbolFits b.length) symCount.1 symCount.2 ∧
          After ((times (readSymbol b.length) symCount.1).run symCount.2) fun symbols =>
            header.1.seriesCount * 80 ≤ maxAlloc ∧
              EachTime (readIndexSeries maxAlloc b.length symbols.1) (EntryFits maxAlloc symbols.1) header.1.seriesCount
                (b.drop footer.1.indexOff) ∧
              After ((times (readIndexSeries maxAlloc b.length symbols.1) header.1.seriesCount).run
                (b.drop footer.1.indexOff)) fun series => ∀ s ∈ series.1, s.Unwrapped

theorem calm_readBytes (n : Nat) : Calm PartError.panic (readBytes .short n) := by
  intro rest
  simp only [run, readBytes]
  split <;> simp

theorem calm_uvarint : Calm .panic readUvarint := calm_readUvarint nofun

theorem calm_readU32 : Calm .panic readU32 := (calm_readBytes 4).bind fun _ => .pure _

theorem calm_readU64 : Calm .panic readU64 := (calm_readBytes 8).bind fun _ => .pure _

theorem calm_readI64 : Calm .panic readI64 := calm_readU64.bind fun _ => .pure _

theorem calm_readLabels (n : Nat) (ls : Labels) : Calm .panic (readLabels symbols n ls) := by
  induction n generalizing ls with
  | zero => exact .pure ls
  | succ n ih =>
    refine calm_uvarint.bind fun nameRef => calm_uvarint.bind fun valRef => ?_
    split
    · exact ih _
    · exact calm_throw nofun

theorem calm_readEntryHead : Calm .panic (readEntryHead symbols) :=
  calm_uvarint.bind fun _ => (calm_readLabels symbols _ _).bind fun _ => calm_readU64.bind fun _ =>
    calm_readU32.bind fun _ => calm_uvarint.bind fun _ => .pure _

theorem calm_readHeader : Calm .panic readHeader := by
  refine Calm.bind (fun rest => ?_) fun ver => ?_
  · cases rest <;> simp [run, Reader.u8]
  · split
    · exact calm_throw nofun
    · exact calm_readI64.bind fun _ => calm_readI64.bind fun _ => calm_uvarint.bind fun _ => .pure _

theorem calm_readFooter : Calm .panic readFooter :=
  calm_readU64.bind fun _ => calm_readU64.bind fun _ => calm_readU64.bind fun _ => .pure _

theorem checkFooter_ne_panic (f : Footer) (footerOff : Nat) : checkFooter f footerOff ≠ .error .panic := by
  unfold checkFooter
  repeat' split
  all_goals simp

theorem checkEntry_ne_panic (total : Nat) (s : IndexSeries) : checkEntry total s ≠ .error .panic := by
  unfold checkEntry
  repeat' split
  all_goals simp

variable {maxAlloc : Nat} {rest : Bytes}

theorem makeCap_ne_panic {size n : Nat} : (makeCap maxAlloc size n).run rest ≠ .error .panic ↔ n * size ≤ maxAlloc := by
  unfold makeCap
  split
  · next h => exact iff_of_false (fun hne => hne rfl) (not_le.mpr h)
  · next h => exact iff_of_true (Calm.pure () rest) (not_lt.mp h)

variable {total : Nat} {s : IndexSeries}

theorem take_ne_panic {n : Nat} :
    (take total n).run rest ≠ .error .panic ↔ (n < 2 ^ 63 → total - rest.length + n < 2 ^ 63) := by
  simp only [run, take]
  split
  · simp; omega
  · split
    · simp; omega
    · split <;> simp <;> omega

theorem readSymbol_ne_panic (total : Nat) (rest : Bytes) :
    (readSymbol total).run rest ≠ .error .panic ↔ SymbolFits total rest := by
  rw [readSymbol, run_bind, bind_ne_fault, and_iff_right (calm_uvarint rest)]
  exact after_congr fun _ _ => take_ne_panic

def readEntryTail (head : EntryHead) : Read IndexSeries := do
  let chunkLens ← times readUvarint head.chunkCount
  let minTS ← readI64
  let maxTS ← readI64
  return ⟨head.lbls, head.chunkOff, head.chunkLen, chunkLens, minTS, maxTS⟩

theorem readIndexSeries_eq (total : Nat) (symbols : List Bytes) :
    readIndexSeries maxAlloc total symbols = do
      let head ← readEntryHead symbols
      makeCap maxAlloc 8 head.chunkCount
      let s ← readEntryTail head
      checkEntry total s
      return s := by
  simp only [readIndexSeries, readEntryHead, readEntryTail, bind_assoc, pure_bind]

theorem calm_readEntryTail (head : EntryHead) : Calm .panic (readEntryTail head) :=
  (calm_times calm_uvarint _).bind fun _ => calm_readI64.bind fun _ => calm_readI64.bind fun _ => .pure _

theorem readIndexSeries_ne_panic (total : Nat) (symbols : List Bytes) (rest : Bytes) :
    (readIndexSeries maxAlloc total symbols).run rest ≠ .error .panic ↔ EntryFits maxAlloc symbols rest := by
  have hcheck : ∀ head : EntryHead, Calm .panic (do let s ← readEntryTail head; checkEntry total s; return s) :=
    fun head =>
    (calm_readEntryTail head).bind fun s => (calm_liftM (checkEntry_ne_panic total s)).bind fun _ => .pure s
  rw [readIndexSeries_eq, run_bind, bind_ne_fault, and_iff_right (calm_readEntryHead symbols rest), EntryFits]
  refine after_congr fun head _ => ?_
  rw [run_bind, bind_ne_fault, makeCap_ne_panic]
  exact and_iff_left (after_iff.mpr fun out _ => hcheck head.1 out.2)

theorem after_readIndexSeries (total : Nat) (symbols : List Bytes) (rest : Bytes) :
    After ((readIndexSeries maxAlloc total symbols).run rest) fun out => checkEntry total out.1 = .ok () := by
  rw [readIndexSeries_eq, run_bind, after_bind, after_iff]
  intro head _
  rw [run_bind, after_bind, after_iff]
  intro _ _
  rw [run_bind, after_bind, after_iff]
  intro s _
  cases h : checkEntry total s.1 with
  | error err => exact trivial
  | ok u => exact h

theorem checkEntry_eq_ok (h : checkEntry total s = .ok ()) :
    (s.chunkOff + s.chunkLen) % 2 ^ 64 ≤ total ∧ s.chunkLens.sum % 2 ^ 64 = s.chunkLen := by
  unfold checkEntry at h
  split at h
  · cases h
  · split at h
    · cases h
    · constructor <;> omega

theorem sum_take_le (lens : List Nat) (k : Nat) : (lens.take k).sum ≤ lens.sum := by
  have h := congrArg sum (take_append_drop k lens)
  rw [sum_append] at h
  omega

theorem inside_iff (htotal : total < 2 ^ 63) (hs : checkEntry total s = .ok ()) : s.Inside total ↔ s.Unwrapped := by
  obtain ⟨hrun, hsum⟩ := checkEntry_eq_ok hs
  constructor
  · rintro ⟨hend, hpieces⟩
    have hall := hpieces s.chunkLens.length
    rw [take_length] at hall
    exact ⟨by omega, by omega⟩
  · rintro ⟨hend, hlens⟩
    rw [Nat.mod_eq_of_lt hend] at hrun
    refine ⟨hrun, fun k => ?_⟩
    have := sum_take_le s.chunkLens k
    omega

theorem splitChunks_ne_panic {run : Bytes} (hrun : run.length < 2 ^ 64) (off : Nat) (lens : List Nat)
    (hlens : off + lens.sum ≤ run.length) : splitChunks run off lens ≠ .error .panic := by
  induction lens generalizing off with
  | nil => exact nofun
  | cons l lens ih =>
    rw [sum_cons] at hlens
    rw [splitChunks, Nat.mod_eq_of_lt (by omega), if_neg (by omega), map_ne_fault]
    exact ih (off + l) (by omega)

theorem decodeSeries_ne_panic {xor : XorChunk} {p : Part} (hbuf : p.buf.length < 2 ^ 63) (hs : s.Inside p.buf.length) :
    decodeSeries xor p s ≠ .error .panic := by
  obtain ⟨hend, hpieces⟩ := hs
  have hall := hpieces s.chunkLens.length
  rw [take_length] at hall
  unfold decodeSeries
  dsimp only
  rw [Nat.mod_eq_of_lt (by omega), if_neg (by omega)]
  split
  · cases decodeChunk xor ((p.buf.drop s.chunkOff).take s.chunkLen) <;> exact nofun
  · rw [bind_ne_fault, after_iff]
    refine ⟨splitChunks_ne_panic ?_ 0 s.chunkLens ?_, fun chunks _ => ?_⟩
    · rw [length_drop]
      omega
    · rw [length_drop]
      omega
    · cases decodeChunks xor chunks <;> exact nofun

theorem query_ne_panic {xor : XorChunk} {p : Part} (hbuf : p.buf.length < 2 ^ 63)
    (hs : ∀ s ∈ p.series, s.Inside p.buf.length) (matchers : List (Option Matcher)) (mintMs maxtMs : BitVec 64) :
    p.query xor matchers mintMs maxtMs ≠ .error .panic := by
  refine mapM_ne_fault fun s hmem => ?_
  rw [map_ne_fault]
  exact decodeSeries_ne_panic hbuf (hs s (mem_filter.mp hmem).1)

variable {crc32c : Bytes → UInt32} {b : Bytes}

theorem openPart_of_intact (h : Intact crc32c b) : openPart crc32c maxAlloc b = openIntact maxAlloc b := by
  obtain ⟨hlen, hmagic, hcrc⟩ := h
  unfold openPart
  rw [if_neg (not_lt.mpr hlen), if_neg (not_not.mpr hmagic), if_neg (not_not.mpr hcrc)]

theorem openPart_of_not_intact (h : ¬Intact crc32c b) :
    ∃ err, openPart crc32c maxAlloc b = .error err ∧ err ≠ .panic := by
  unfold openPart
  by_cases hlen : b.length < magic.length + 1 + 8 + 8 + 1 + footerLen
  · rw [if_pos hlen]
    exact ⟨.short, rfl, nofun⟩
  by_cases hmagic : b.take magic.length ≠ magic
  · rw [if_neg hlen, if_pos hmagic]
    exact ⟨.badMagic, rfl, nofun⟩
  by_cases hcrc : (crc32c (b.take (b.length - 4))).toNat ≠ ofLittleEndian (b.drop (b.length - 4))
  · rw [if_neg hlen, if_neg hmagic, if_pos hcrc]
    exact ⟨.badCRC, rfl, nofun⟩
  · exact absurd ⟨not_lt.mp hlen, not_not.mp hmagic, not_not.mp hcrc⟩ h

theorem safely_readSymbols {P : List Bytes × Bytes → Prop} :
    Safely .panic ((readSymbols maxAlloc total).run rest) P ↔ After (readUvarint.run rest) fun symCount =>
      symCount.1 * 16 ≤ maxAlloc ∧ EachTime (readSymbol total) (SymbolFits total) symCount.1 symCount.2 ∧
        After ((times (readSymbol total) symCount.1).run symCount.2) P := by
  rw [readSymbols, run_bind, safely_bind_of_ne (calm_uvarint rest)]
  refine after_congr fun symCount _ => ?_
  rw [run_bind, safely_bind, Safely, makeCap_ne_panic]
  refine and_congr_right fun hfits => ?_
  rw [makeCap, if_neg (not_lt.mpr hfits), run_pure, after_pure]
  exact and_congr_left' (times_ne_fault (readSymbol_ne_panic total) _ _)

theorem safely_readIndex {seriesCount : Nat} {symbols : List Bytes} {P : List IndexSeries × Bytes → Prop} :
    Safely .panic ((readIndex maxAlloc total symbols seriesCount).run rest) P ↔ seriesCount * 80 ≤ maxAlloc ∧
      EachTime (readIndexSeries maxAlloc total symbols) (EntryFits maxAlloc symbols) seriesCount rest ∧
        After ((times (readIndexSeries maxAlloc total symbols) seriesCount).run rest) P := by
  rw [readIndex, run_bind, safely_bind, Safely, makeCap_ne_panic]
  refine and_congr_right fun hfits => ?_
  rw [makeCap, if_neg (not_lt.mpr hfits), run_pure, after_pure]
  exact and_congr_left' (times_ne_fault (readIndexSeries_ne_panic total symbols) _ _)

theorem buf_openIntact : After (openIntact maxAlloc b) fun p => p.buf = b := by
  simp only [openIntact, after_bind, after_pure]
  simp only [after_iff, implies_true]

theorem safely_openIntact (hb : b.length < 2 ^ 63) (hintact : Intact crc32c b) :
    Safely .panic (openIntact maxAlloc b) (fun p => ∀ s ∈ p.series, s.Inside b.length) ↔
      DeclaresWithin crc32c maxAlloc b := by
  rw [DeclaresWithin, imp_iff_right hintact, openIntact, safely_bind_of_ne (calm_readHeader _)]
  refine after_congr fun header _ => ?_
  rw [safely_bind_of_ne (calm_readFooter _)]
  refine after_congr fun footer _ => ?_
  rw [safely_bind_of_ne (checkFooter_ne_panic _ _), after_iff]
  refine Iff.trans ⟨fun h => h (), fun h _ => h⟩ (imp_congr_right fun _ => ?_)
  rw [safely_bind, safely_readSymbols]
  refine after_congr fun symCount _ => and_congr_right' (and_congr_right' (after_congr fun symbols _ => ?_))
  rw [safely_bind, safely_readIndex]
  refine and_congr_right' (and_congr_right' (after_congr fun series hseries => ?_))
  have hchecked := after_iff.mp (after_times (P := fun s => checkEntry b.length s = .ok ())
    (after_readIndexSeries b.length symbols.1) _ _) series hseries
  refine Iff.trans (and_iff_right (pure_ne_fault _)) ?_
  exact forall_congr' fun s => forall_congr' fun hs => inside_iff hb (hchecked s hs)

/-- The part is opened and queried without a panic and within its bytes exactly when what it declares is within
bounds. -/
theorem safelyRead_iff (xor : XorChunk) (crc32c : Bytes → UInt32) (maxAlloc : Nat) (b : Bytes)
    (hb : b.length < 2 ^ 63) : SafelyRead xor crc32c maxAlloc b ↔ DeclaresWithin crc32c maxAlloc b := by
  by_cases hintact : Intact crc32c b
  · rw [← safely_openIntact hb hintact, Safely, after_iff, ← openPart_of_intact hintact]
    refine ⟨fun h => ⟨h.opens, h.inside⟩, fun h => ⟨h.1, fun p hp => ?_, h.2⟩⟩
    have hbuf : p.buf = b := after_iff.mp buf_openIntact p (openPart_of_intact hintact ▸ hp)
    exact query_ne_panic (hbuf ▸ hb) (hbuf ▸ h.2 p hp)
  · obtain ⟨err, herr, hne⟩ := @openPart_of_not_intact maxAlloc crc32c b hintact
    refine iff_of_true ⟨?_, ?_, ?_⟩ fun h => absurd h hintact
    · rw [herr]
      exact fun h => hne (Except.error.inj h)
    · exact fun p hp => by cases herr.symm.trans hp
    · exact fun p hp => by cases herr.symm.trans hp

def forge (seriesCount : Nat) (index symtab : Bytes) : Bytes :=
  let header := headerBytes 0 0 seriesCount
  withChecksum castagnoli (header ++ (index ++ (symtab ++
    footerBytes ⟨header.length, index.length, header.length + index.length⟩)))

theorem intact_forge (seriesCount : Nat) (index symtab : Bytes) :
    Intact castagnoli (forge seriesCount index symtab) := by
  have hchecksum : ∀ body, (u32Bytes (castagnoli body).toNat).length = 4 := fun body => length_littleEndian 4 _
  have hcount := length_pos_iff.mpr (putUvarint_ne_nil seriesCount)
  refine ⟨?_, ?_, ?_⟩
  · simp [forge, withChecksum, headerBytes, footerBytes, i64Bytes, u64Bytes, u32Bytes, footerLen]
    omega
  · simp only [forge, withChecksum, headerBytes, append_assoc, take_left]
  · rw [forge, withChecksum, length_append, hchecksum, Nat.add_sub_cancel, take_left, drop_left]
    exact (ofLittleEndian_littleEndian 4 (UInt32.toNat_lt _)).symm

/-- One series whose run ends where the sum of its offset and its length wraps. -/
def wrappedRun : Bytes := forge 1 (entryBytes 0 ⟨[], 2 ^ 64 - 1, 1, [1], 0, 0⟩) (symtabBytes [])

/-- One series whose chunk lengths add up to its run where their sum wraps. -/
def wrappedLengths : Bytes := forge 1 (entryBytes 0 ⟨[], 0, 1, [2 ^ 64 - 1, 2], 0, 0⟩) (symtabBytes [])

def hugeCount : Bytes := forge 0 [] (putUvarint (2 ^ 60))

def hugeSymbol : Bytes := forge 0 [] (putUvarint 1 ++ putUvarint (2 ^ 63 - 1))

theorem exists_query_panics (hintact : Intact castagnoli b) (hok : (openIntact (2 ^ 48) b).isOk = true)
    (hquery : (openIntact (2 ^ 48) b >>= fun p => p.query plainChunk [] 0 0) = .error .panic) :
    ∃ p, openPart castagnoli (2 ^ 48) b = .ok p ∧ p.query plainChunk [] 0 0 = .error .panic := by
  rw [openPart_of_intact hintact]
  cases h : openIntact (2 ^ 48) b with
  | error err =>
    rw [h] at hok
    cases hok
  | ok p =>
    rw [h] at hquery
    exact ⟨p, rfl, hquery⟩

theorem forged_parts_panic :
    openPart castagnoli (2 ^ 48) hugeCount = .error .panic ∧ openPart castagnoli (2 ^ 48) hugeSymbol = .error .panic ∧
      (∃ p, openPart castagnoli (2 ^ 48) wrappedRun = .ok p ∧ p.query plainChunk [] 0 0 = .error .panic) ∧
      ∃ p, openPart castagnoli (2 ^ 48) wrappedLengths = .ok p ∧ p.query plainChunk [] 0 0 = .error .panic := by
  refine ⟨?_, ?_, exists_query_panics (intact_forge _ _ _) ?_ ?_, exists_query_panics (intact_forge _ _ _) ?_ ?_⟩
  · exact (openPart_of_intact (intact_forge _ _ _)).trans (by decide +kernel)
  · exact (openPart_of_intact (intact_forge _ _ _)).trans (by decide +kernel)
  all_goals decide +kernel

def plainPart : Bytes := forge 1 (entryBytes 0 ⟨[0, 0], 0, 1, [1], 0, 0⟩) (symtabBytes [str "a"])

instance {total : Nat} : DecidablePred (SymbolFits total) := fun _ => inferInstanceAs (Decidable (After _ _))

instance {maxAlloc : Nat} {symbols : List Bytes} : DecidablePred (EntryFits maxAlloc symbols) :=
  fun _ => inferInstanceAs (Decidable (After _ _))

instance : DecidablePred IndexSeries.Unwrapped := fun _ => inferInstanceAs (Decidable (_ ∧ _))

theorem safelyRead_plainPart : SafelyRead plainChunk castagnoli (2 ^ 48) plainPart :=
  (safelyRead_iff _ _ _ _ (by decide +kernel)).mpr fun _ => by decide +kernel

end AsapCollector.ColdPart
