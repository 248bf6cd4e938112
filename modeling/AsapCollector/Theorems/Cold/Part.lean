import AsapCollector.Cold.Part
import AsapCollector.Theorems.Cold.BestOfN

/-! `OpenPart` reads from the bytes of `WritePart` the series that were written, and a query returns those that
match. -/

namespace AsapCollector

open List IntChunk Except Labels StringMap

/-! ### Label sets from their labels -/

theorem Labels.foldl_setLabel (es : List (Bytes × Bytes)) (ls : Labels) (hvalues : ∀ l ∈ es, l.2 ≠ [])
    (hsorted : (ls.entries ++ es).Pairwise fun a b => a.1 < b.1) :
    (es.foldl (fun ls l => setLabel ls l.1 l.2) ls).entries = ls.entries ++ es := by
  induction es generalizing ls with
  | nil => exact (append_nil _).symm
  | cons l es ih =>
    have hlast : (setLabel ls l.1 l.2).entries = ls.entries ++ [l] := by
      rw [setLabel, if_neg (hvalues l mem_cons_self), StringMap.set]
      exact setEntry_of_lt fun e he => (pairwise_append.mp hsorted).2.2 e he l mem_cons_self
    rw [foldl_cons, ih _ fun l' hl' => hvalues l' (mem_cons_of_mem l hl'), hlast, append_assoc,
      singleton_append]
    rw [hlast, append_assoc, singleton_append]
    exact hsorted

theorem Labels.rebuild {ls : Labels} (hvalues : ∀ l ∈ ls.entries, l.2 ≠ []) :
    ls.entries.foldl (fun ls l => setLabel ls l.1 l.2) empty = ls :=
  ext_entries (foldl_setLabel ls.entries empty hvalues ls.sorted)

namespace ColdPart

open Reader

/-! ### The symbol table -/

theorem mem_foldl_intern {s : Bytes} {ss syms : List Bytes} : s ∈ ss.foldl intern syms ↔ s ∈ syms ∨ s ∈ ss := by
  induction ss generalizing syms with
  | nil => simp
  | cons s' ss ih =>
    have hone : s ∈ intern syms s' ↔ s ∈ syms ∨ s = s' := by
      unfold intern
      split
      · exact (or_iff_left_of_imp fun heq => heq ▸ ‹_›).symm
      · rw [mem_append, mem_singleton]
    rw [foldl_cons, ih, hone, or_assoc, mem_cons]

variable {maxAlloc total seriesCount : Nat} {rest : Bytes} {s : Series}

theorem mem_symbolTable {series : List Series} (hs : s ∈ series) :
    ∀ l ∈ s.labels.entries, l.1 ∈ symbolTable series ∧ l.2 ∈ symbolTable series := by
  have hflat : symbolTable series =
      (series.flatMap fun s => s.labels.entries.flatMap fun l => [l.1, l.2]).foldl intern [] := by
    simp only [symbolTable, internLabels, foldl_flatMap, foldl_cons, foldl_nil]
  intro l hl
  simp only [hflat, mem_foldl_intern, mem_flatMap]
  exact ⟨.inr ⟨s, hs, l, hl, by simp⟩, .inr ⟨s, hs, l, hl, by simp⟩⟩

variable {syms : List Bytes}

theorem ref_lt {s : Bytes} (h : s ∈ syms) : ref syms s < syms.length := by
  rw [ref, if_pos h]
  exact idxOf_lt_length_iff.mpr h

theorem getElem?_ref {s : Bytes} (h : s ∈ syms) : syms[ref syms s]? = some s := by
  rw [ref, if_pos h]
  exact getElem?_idxOf h

/-! ### The fields -/

variable {v n off start : Nat}

theorem reads_u32 (hv : v < 2 ^ 32) : Reads readU32 (u32Bytes v) v := by
  have hread := (reads_bytes PartError.short (length_littleEndian 4 v)).bind_pure (f := ofLittleEndian)
  rwa [ofLittleEndian_littleEndian 4 hv] at hread

theorem reads_u64 (hv : v < 2 ^ 64) : Reads readU64 (u64Bytes v) v := by
  have hread := (reads_bytes PartError.short (length_littleEndian 8 v)).bind_pure (f := ofLittleEndian)
  rwa [ofLittleEndian_littleEndian 8 hv] at hread

theorem reads_i64 (v : BitVec 64) : Reads readI64 (i64Bytes v) v := by
  have hread := (reads_u64 v.isLt).bind_pure (f := BitVec.ofNat 64)
  rwa [BitVec.ofNat_toNat, BitVec.setWidth_eq] at hread

theorem reads_uvarint (hv : v < 2 ^ 64) : Reads readUvarint (putUvarint v) v :=
  AsapCollector.reads_uvarint PartError.corrupt hv

theorem reads_makeCap {size : Nat} (h : n * size ≤ maxAlloc) : Reads (makeCap maxAlloc size n) [] () := by
  rw [makeCap, if_neg (not_lt.mpr h)]
  exact .pure ()

theorem reads_check {α : Type} {c : Except PartError Unit} {r : Read α} {b : Bytes} {v : α} (hc : c = .ok ())
    (hr : Reads r b v) : Reads ((liftM c : Read Unit) >>= fun _ => r) b v := by
  rw [hc]
  exact hr

variable (blockStartMs blockEndMs : BitVec 64)

theorem reads_header (hcount : seriesCount < 2 ^ 64) :
    Reads readHeader ([version] ++ (i64Bytes blockStartMs ++ (i64Bytes blockEndMs ++ putUvarint seriesCount)))
      ⟨version, blockStartMs, blockEndMs, seriesCount⟩ := by
  refine (reads_u8 PartError.short version).bind ?_
  refine (reads_i64 blockStartMs).bind ((reads_i64 blockEndMs).bind ?_)
  exact (reads_uvarint hcount).bind_pure

theorem reads_footer {indexOff indexLen symtabOff : Nat} (hoff : indexOff < 2 ^ 64) (hlen : indexLen < 2 ^ 64)
    (hsym : symtabOff < 2 ^ 64) :
    Reads readFooter (u64Bytes indexOff ++ (u64Bytes indexLen ++ u64Bytes symtabOff)) ⟨indexOff, indexLen, symtabOff⟩ :=
  (reads_u64 hoff).bind ((reads_u64 hlen).bind (reads_u64 hsym).bind_pure)

theorem run_take (htotal : total < 2 ^ 63) (hrest : rest.length ≤ total) (hn : n ≤ rest.length) :
    (take total n).run rest = .ok (rest.take n, rest.drop n) := by
  simp only [StateT.run, take]
  rw [if_neg (by omega), if_neg (by omega), if_neg (by omega)]

theorem run_times_readSymbol (htotal : total < 2 ^ 63) :
    ∀ (syms : List Bytes) (rest : Bytes), ((syms.flatMap fun s => putUvarint s.length ++ s) ++ rest).length ≤ total →
      (times (readSymbol total) syms.length).run ((syms.flatMap fun s => putUvarint s.length ++ s) ++ rest) =
        .ok (syms, rest)
  | [], _, _ => rfl
  | s :: syms, rest, h => by
    rw [flatMap_cons, append_assoc, append_assoc] at h ⊢
    simp only [length_append] at h
    have hlen : s.length < 2 ^ 64 := by omega
    have hrest := run_times_readSymbol htotal syms rest (by rw [length_append]; omega)
    have htake : (take total s.length).run (s ++ ((syms.flatMap fun s => putUvarint s.length ++ s) ++ rest)) =
        .ok (s, (syms.flatMap fun s => putUvarint s.length ++ s) ++ rest) := by
      rw [run_take htotal (by simp only [length_append]; omega) (by simp), take_left, drop_left]
    have hsymbol : (readSymbol total).run (putUvarint s.length ++
        (s ++ ((syms.flatMap fun s => putUvarint s.length ++ s) ++ rest))) =
        .ok (s, (syms.flatMap fun s => putUvarint s.length ++ s) ++ rest) :=
      ((reads_uvarint hlen).run_bind _).trans htake
    rw [length_cons, times, StateT.run_bind, hsymbol]
    change ((times (readSymbol total) syms.length).run _ >>= fun r => _) = _
    rw [hrest]
    rfl

variable {symbols : List Bytes}

theorem reads_labels (hsymbols : symbols.length < 2 ^ 64) :
    ∀ (es : List (Bytes × Bytes)) (ls : Labels), (∀ l ∈ es, l.1 ∈ symbols ∧ l.2 ∈ symbols) →
      Reads (readLabels symbols es.length ls) ((es.flatMap fun l => [ref symbols l.1, ref symbols l.2]).flatMap
        putUvarint) (es.foldl (fun ls l => setLabel ls l.1 l.2) ls)
  | [], ls, _ => .pure ls
  | l :: es, ls, h => by
    obtain ⟨hname, hvalue⟩ := h l mem_cons_self
    have hrest := reads_labels hsymbols es (setLabel ls l.1 l.2) fun l' hl' => h l' (mem_cons_of_mem l hl')
    refine (reads_uvarint ((ref_lt hname).trans hsymbols)).bind ((reads_uvarint ((ref_lt hvalue).trans hsymbols)).bind
      ?_)
    rw [getElem?_ref hname, getElem?_ref hvalue]
    exact hrest

/-! ### The index -/

/-- The index entry a reader has of a series whose chunks begin at an offset of the part. -/
def parsedEntry (off : Nat) (s : Series) (chunks : List Bytes) : IndexSeries :=
  { lbls := s.labels
    chunkOff := off
    chunkLen := chunks.flatten.length
    chunkLens := chunks.map length
    minTS := (s.samples.head?.map Sample.t).getD 0
    maxTS := (s.samples.getLast?.map Sample.t).getD 0 }

variable {chunks : List Bytes}

theorem checkEntry_parsedEntry (htotal : total < 2 ^ 63) (hend : off + chunks.flatten.length ≤ total) :
    checkEntry total (parsedEntry off s chunks) = .ok () := by
  have hsum : (chunks.map length).sum = chunks.flatten.length := length_flatten.symm
  unfold checkEntry parsedEntry
  dsimp only
  rw [hsum, Nat.mod_eq_of_lt (by omega), Nat.mod_eq_of_lt (by omega), if_neg (by omega), if_neg (not_not.mpr rfl)]

theorem reads_indexSeries (hmax : maxAlloc < 2 ^ 63) (htotal : total < 2 ^ 63)
    (hsymbols : symbols.length < 2 ^ 63) (hmem : ∀ l ∈ s.labels.entries, l.1 ∈ symbols ∧ l.2 ∈ symbols)
    (hvalues : ∀ l ∈ s.labels.entries, l.2 ≠ []) (hlabels : s.labels.entries.length < 2 ^ 63)
    (hrun : chunks.flatten.length < 2 ^ 32) (hcount : chunks.length * 8 ≤ maxAlloc)
    (hend : start + off + chunks.flatten.length ≤ total) :
    Reads (readIndexSeries maxAlloc total symbols) (entryBytes start (newEntry symbols off s chunks))
      (parsedEntry (start + off) s chunks) := by
  have hrefs : (newEntry symbols off s chunks).labelRefs.length / 2 = s.labels.entries.length := by
    simp [newEntry, length_flatMap]
  have hlen : (newEntry symbols off s chunks).chunkLen = chunks.flatten.length := Nat.mod_eq_of_lt hrun
  have hlens : ∀ n ∈ chunks.map length, n < 2 ^ 64 := by
    intro n hn
    obtain ⟨c, hc, rfl⟩ := mem_map.mp hn
    have := (sublist_flatten_of_mem hc).length_le
    omega
  unfold entryBytes
  rw [hrefs, hlen]
  refine (reads_uvarint (by omega)).bind ?_
  have hread := reads_labels (by omega) s.labels.entries empty hmem
  rw [rebuild hvalues] at hread
  refine hread.bind ((reads_u64 (by dsimp [newEntry]; omega)).bind ((reads_u32 hrun).bind ?_))
  refine (reads_uvarint (by dsimp [newEntry]; rw [length_map]; omega)).bind ?_
  refine (reads_makeCap (by dsimp [newEntry]; rwa [length_map])).bind (b := []) ?_
  refine (reads_times fun n hn => reads_uvarint (hlens n hn)).bind ?_
  refine (reads_i64 _).bind ?_
  exact (reads_i64 _).bind (reads_check (checkEntry_parsedEntry htotal hend)
    (.pure (parsedEntry (start + off) s chunks)))

section
variable (xor : XorChunk) (overflow : Float64 → BitVec 64)

def chunksOf (s : Series) : List Bytes :=
  match encode xor overflow s.samples with
  | .ok res => res.chunks
  | .error _ => []

/-- The index entries `WritePart` makes, from an offset of the chunks region on. -/
def layout (syms : List Bytes) : Nat → List Series → List IdxEntry
  | _, [] => []
  | off, s :: series =>
    newEntry syms off s (chunksOf xor overflow s) ::
      layout syms (off + (chunksOf xor overflow s).flatten.length) series

/-- The index entries a reader has of them, from an offset of the part on. -/
def parsedLayout : Nat → List Series → List IndexSeries
  | _, [] => []
  | off, s :: series =>
    parsedEntry off s (chunksOf xor overflow s) ::
      parsedLayout (off + (chunksOf xor overflow s).flatten.length) series

def regionOf (series : List Series) : Bytes := series.flatMap fun s => (chunksOf xor overflow s).flatten

variable {xor overflow}

theorem encodeSeries_eq (syms : List Bytes) {series : List Series}
    (h : ∀ s ∈ series, ∃ res, encode xor overflow s.samples = .ok res) (i : Nat) (region : Bytes) :
    encodeSeries xor overflow syms i region series =
      .ok (region ++ regionOf xor overflow series, layout xor overflow syms region.length series) := by
  induction series generalizing i region with
  | nil => simp [encodeSeries, regionOf, layout]
  | cons s series ih =>
    obtain ⟨res, hres⟩ := h s mem_cons_self
    have hchunks : chunksOf xor overflow s = res.chunks := by rw [chunksOf, hres]
    rw [encodeSeries, hres]
    dsimp only
    rw [ih (fun s' hs' => h s' (mem_cons_of_mem s hs')), Except.map, layout, hchunks, length_append,
      append_assoc, regionOf, regionOf, flatMap_cons, hchunks]

theorem encodeSeries_eq_ok_iff (syms : List Bytes) {series : List Series} (i : Nat) (region : Bytes) :
    (∃ r, encodeSeries xor overflow syms i region series = .ok r) ↔
      ∀ s ∈ series, ∃ res, encode xor overflow s.samples = .ok res := by
  refine ⟨?_, fun h => ⟨_, encodeSeries_eq syms h i region⟩⟩
  induction series generalizing i region with
  | nil => simp
  | cons s series ih =>
    rintro ⟨r, hr⟩
    rw [encodeSeries] at hr
    cases hres : encode xor overflow s.samples with
    | error err =>
      rw [hres] at hr
      cases hr
    | ok res =>
      rw [hres] at hr
      refine forall_mem_cons.mpr ⟨⟨res, hres⟩, ih (i + 1) (region ++ res.chunks.flatten) ?_⟩
      cases hrest : encodeSeries xor overflow syms (i + 1) (region ++ res.chunks.flatten) series with
      | error err => simp [hrest, Except.map] at hr
      | ok rest => exact ⟨rest, rfl⟩

variable (xor overflow) in
structure Storable (s : Series) : Prop where
  values : ∀ l ∈ s.labels.entries, l.2 ≠ []
  samples : s.samples ≠ []
  roundTrip : ∃ res, encode xor overflow s.samples = .ok res ∧ decodeChunks xor res.chunks = .ok s.samples
  run : (chunksOf xor overflow s).flatten.length < 2 ^ 32

theorem le_length_entryBytes (start off : Nat) (syms : List Bytes) (s : Series) (chunks : List Bytes) :
    chunks.length ≤ (entryBytes start (newEntry syms off s chunks)).length ∧
      s.labels.entries.length ≤ (entryBytes start (newEntry syms off s chunks)).length := by
  have hlens := length_le_flatMap fun n (_ : n ∈ chunks.map length) => putUvarint_ne_nil n
  have hrefs := length_le_flatMap fun n (_ : n ∈ s.labels.entries.flatMap fun l => [ref syms l.1, ref syms l.2]) =>
    putUvarint_ne_nil n
  have hcount : (s.labels.entries.flatMap fun l => [ref syms l.1, ref syms l.2]).length = 2 *
      s.labels.entries.length := by
    simp [length_flatMap, Nat.mul_comm]
  rw [length_map] at hlens
  simp only [entryBytes, newEntry, length_append]
  omega

theorem reads_index {maxAlloc total : Nat} (hmax : maxAlloc < 2 ^ 63)
    (htotal : total < 2 ^ 63) (hsymbols : symbols.length < 2 ^ 63) {series : List Series} (off : Nat)
    (hmem : ∀ s ∈ series, ∀ l ∈ s.labels.entries, l.1 ∈ symbols ∧ l.2 ∈ symbols)
    (hstorable : ∀ s ∈ series, Storable xor overflow s)
    (hend : start + off + (regionOf xor overflow series).length ≤ total)
    (hfits : 8 * ((layout xor overflow symbols off series).flatMap (entryBytes start)).length ≤ maxAlloc) :
    Reads (times (readIndexSeries maxAlloc total symbols) series.length)
      ((layout xor overflow symbols off series).flatMap (entryBytes start))
        (parsedLayout xor overflow (start + off) series) := by
  induction series generalizing off with
  | nil => exact .pure []
  | cons s series ih =>
    have hs := hstorable s mem_cons_self
    have hle := le_length_entryBytes start off symbols s (chunksOf xor overflow s)
    simp only [layout, flatMap_cons, length_append] at hfits
    simp only [regionOf, flatMap_cons, length_append] at hend
    have hhead : Reads (readIndexSeries maxAlloc total symbols)
        (entryBytes start (newEntry symbols off s (chunksOf xor overflow s)))
        (parsedEntry (start + off) s (chunksOf xor overflow s)) :=
      reads_indexSeries hmax htotal hsymbols (hmem s mem_cons_self) hs.values (by omega) hs.run (by omega) (by omega)
    have hrest := ih (off + (chunksOf xor overflow s).flatten.length) (fun s' hs' => hmem s' (mem_cons_of_mem s hs'))
      (fun s' hs' => hstorable s' (mem_cons_of_mem s hs')) (by rw [regionOf]; omega) (by omega)
    rw [← Nat.add_assoc] at hrest
    exact hhead.bind hrest.bind_pure

end

/-! ### Opening a part -/

variable {crc32c : Bytes → UInt32}

theorem openPart_eq {b r₁ r₂ r₃ r₄ : Bytes} {header : Header} {footer : Footer}
    {series : List IndexSeries} (hlen : magic.length + 1 + 8 + 8 + 1 + footerLen ≤ b.length)
    (hmagic : b.take magic.length = magic)
    (hcrc : (crc32c (b.take (b.length - 4))).toNat = ofLittleEndian (b.drop (b.length - 4)))
    (hheader : readHeader.run (b.drop magic.length) = .ok (header, r₁))
    (hfooter : readFooter.run (b.drop (b.length - footerLen)) = .ok (footer, r₂))
    (hcheck : checkFooter footer (b.length - footerLen) = .ok ())
    (hsymbols : (readSymbols maxAlloc b.length).run (b.drop footer.symtabOff) = .ok (symbols, r₃))
    (hseries : (readIndex maxAlloc b.length symbols header.seriesCount).run (b.drop footer.indexOff) =
      .ok (series, r₄)) :
    openPart crc32c maxAlloc b = .ok ⟨header.version, header.blockStartMs, header.blockEndMs, b, symbols, series⟩ := by
  unfold openPart
  rw [if_neg (not_lt.mpr hlen), if_neg (not_not.mpr hmagic), if_neg (not_not.mpr hcrc)]
  simp only [openIntact, hheader, hfooter, hcheck, hsymbols, hseries, bind, Except.bind, pure, Except.pure]

def footerBytes (f : Footer) : Bytes := u64Bytes f.indexOff ++ (u64Bytes f.indexLen ++ u64Bytes f.symtabOff)

theorem checkFooter_eq_ok {f : Footer} {footerOff : Nat} (hindex : f.indexOff + f.indexLen = f.symtabOff)
    (hsym : f.symtabOff ≤ footerOff) : checkFooter f footerOff = .ok () := by
  unfold checkFooter
  rw [if_neg (by omega), if_neg (by omega), if_neg (not_not.mpr hindex), if_neg (by omega)]

theorem run_readSymbols (htotal : total < 2 ^ 63) (hfits : syms.length * 16 ≤ maxAlloc) (hmax : maxAlloc < 2 ^ 63)
    (hrest : (symtabBytes syms ++ rest).length ≤ total) :
    (readSymbols maxAlloc total).run (symtabBytes syms ++ rest) = .ok (syms, rest) := by
  rw [symtabBytes, append_assoc] at hrest ⊢
  refine ((reads_uvarint (by omega)).run_bind _).trans ?_
  refine ((reads_makeCap hfits).run_bind _).trans (run_times_readSymbol htotal syms rest ?_)
  rw [length_append] at hrest
  omega

theorem run_readIndex {index : Bytes} {parsed : List IndexSeries} (hfits : seriesCount * 80 ≤ maxAlloc)
    (hindex : Reads (times (readIndexSeries maxAlloc total syms) seriesCount) index parsed) :
    (readIndex maxAlloc total syms seriesCount).run (index ++ rest) = .ok (parsed, rest) :=
  ((reads_makeCap hfits).run_bind _).trans (hindex rest)

theorem entryBytes_ne_nil (start : Nat) (e : IdxEntry) : entryBytes start e ≠ [] := by
  simp [entryBytes, putUvarint_ne_nil]

theorem openPart_withChecksum {blockStartMs blockEndMs : BitVec 64} {region : Bytes}
    {entries : List IdxEntry} {parsed : List IndexSeries} {image : Bytes}
    (himage : image = withChecksum crc32c (body blockStartMs blockEndMs seriesCount syms region entries))
    (hmax : maxAlloc < 2 ^ 63) (hsize : 80 * image.length ≤ maxAlloc) (hentries : entries.length = seriesCount)
    (hindex : Reads (times (readIndexSeries maxAlloc image.length syms) seriesCount)
      (entries.flatMap (entryBytes (headerBytes blockStartMs blockEndMs seriesCount).length)) parsed) :
    openPart crc32c maxAlloc image = .ok ⟨version, blockStartMs, blockEndMs, image, syms, parsed⟩ := by
  let header := headerBytes blockStartMs blockEndMs seriesCount
  let index := entries.flatMap (entryBytes header.length)
  let footer : Footer := ⟨header.length + region.length, index.length, header.length + region.length + index.length⟩
  let checksum := u32Bytes (crc32c (body blockStartMs blockEndMs seriesCount syms region entries)).toNat
  have hbody : body blockStartMs blockEndMs seriesCount syms region entries =
    header ++ (region ++ (index ++ (symtabBytes syms ++ footerBytes footer))) := rfl
  have hcat : image = header ++ (region ++ (index ++ (symtabBytes syms ++ (footerBytes footer ++ checksum)))) := by
    rw [himage, withChecksum, hbody]
    simp only [append_assoc]
    rfl
  have hfooterLen : (footerBytes footer ++ checksum).length = footerLen := by
    simp [footerBytes, u64Bytes, checksum, u32Bytes, footerLen]
  have hchecksum : checksum.length = 4 := length_littleEndian 4 _
  have hheaderLen : header.length = magic.length + 17 + (putUvarint seriesCount).length := by
    simp [header, headerBytes, i64Bytes, u64Bytes]
    omega
  have hsyms : syms.length + 1 ≤ (symtabBytes syms).length := by
    have := length_le_flatMap fun s (_ : s ∈ syms) => show putUvarint s.length ++ s ≠ [] by simp [putUvarint_ne_nil]
    have := length_pos_iff.mpr (putUvarint_ne_nil syms.length)
    rw [symtabBytes, length_append]
    omega
  have hseries : seriesCount ≤ index.length :=
    hentries ▸ length_le_flatMap fun e (_ : e ∈ entries) => entryBytes_ne_nil header.length e
  have hlength : image.length = header.length + (region.length +
      (index.length + ((symtabBytes syms).length + footerLen))) := by
    rw [hcat]
    simp only [length_append] at hfooterLen ⊢
    omega
  have htotal : image.length < 2 ^ 63 := by omega
  have hmagic : image = magic ++ (([version] ++ (i64Bytes blockStartMs ++
    (i64Bytes blockEndMs ++ putUvarint seriesCount))) ++
      (region ++ (index ++ (symtabBytes syms ++ (footerBytes footer ++ checksum))))) := by
    rw [hcat, ← append_assoc magic]
    rfl
  have hcrc : (crc32c (image.take (image.length - 4))).toNat = ofLittleEndian (image.drop (image.length - 4)) := by
    have hsplit : image.length - 4 = (body blockStartMs blockEndMs seriesCount syms region entries).length := by
      rw [himage, withChecksum, length_append, show (u32Bytes _).length = 4 from hchecksum, Nat.add_sub_cancel]
    rw [hsplit, himage, withChecksum, take_left, drop_left]
    exact (ofLittleEndian_littleEndian 4 (UInt32.toNat_lt _)).symm
  have hdropMagic : image.drop magic.length =
      ([version] ++ (i64Bytes blockStartMs ++ (i64Bytes blockEndMs ++ putUvarint seriesCount))) ++
        (region ++ (index ++ (symtabBytes syms ++ (footerBytes footer ++ checksum)))) := by
    rw [hmagic, drop_left]
  have hdropIndex : image.drop footer.indexOff = index ++ (symtabBytes syms ++ (footerBytes footer ++ checksum)) := by
    rw [hcat, ← append_assoc]
    exact drop_left' (length_append ..)
  have hdropSymtab : image.drop footer.symtabOff = symtabBytes syms ++ (footerBytes footer ++ checksum) := by
    rw [hcat, ← append_assoc, ← append_assoc]
    exact drop_left' (by rw [length_append, length_append])
  have hdropFooter : image.drop (image.length - footerLen) = footerBytes footer ++ checksum := by
    rw [hlength, hcat, ← append_assoc, ← append_assoc, ← append_assoc]
    refine drop_left' ?_
    simp only [length_append]
    omega
  refine openPart_eq ?_ ?_ hcrc (hdropMagic ▸ reads_header blockStartMs blockEndMs (by omega) _)
    (hdropFooter ▸ reads_footer (by dsimp [footer]; omega) (by dsimp [footer]; omega) (by dsimp [footer]; omega)
      checksum)
    (checkFooter_eq_ok rfl ?_) (hdropSymtab ▸ run_readSymbols htotal ?_ hmax ?_) (hdropIndex ▸ run_readIndex ?_ hindex)
  · rw [hlength]
    omega
  · rw [hmagic, take_left]
  · rw [hlength]
    dsimp [footer]
    omega
  · omega
  · rw [← hdropSymtab, length_drop]
    omega
  · omega

/-! ### Queries -/

theorem splitChunks_eq {run : Bytes} (hrun : run.length < 2 ^ 64) :
    ∀ (chunks : List Bytes) (before rest : Bytes), run = before ++ (chunks.flatten ++ rest) →
      splitChunks run before.length (chunks.map length) = .ok chunks
  | [], _, _, _ => rfl
  | c :: chunks, before, rest, h => by
    have hlen : run.length = before.length + (c.length + (chunks.flatten.length + rest.length)) := by
      rw [h]
      simp only [length_append, flatten_cons, Nat.add_assoc]
    have hnext := splitChunks_eq hrun chunks (before ++ c) rest (by rw [h]; simp only [flatten_cons, append_assoc])
    have hchunk : (run.drop before.length).take c.length = c := by
      rw [h, drop_left, flatten_cons, append_assoc, take_left]
    rw [length_append] at hnext
    rw [map_cons, splitChunks, Nat.mod_eq_of_lt (by omega), if_neg (by omega), hnext, hchunk]
    rfl

theorem decodeChunks_singleton {xor : XorChunk} {c : Bytes} {samples : List Sample}
    (h : decodeChunks xor [c] = .ok samples) : decodeChunk xor c = .ok samples := by
  cases hc : decodeChunk xor c with
  | error err => simp [decodeChunks, hc, bind, Except.bind] at h
  | ok decoded => simpa [decodeChunks, hc, bind, Except.bind, pure, Except.pure] using h

theorem decodeSeries_parsedEntry {xor : XorChunk} {p : Part} (hbuf : p.buf.length < 2 ^ 63)
    (hrun : p.buf.drop off = chunks.flatten ++ rest) (hoff : off ≤ p.buf.length) (hsamples : s.samples ≠ [])
    (hdecode : decodeChunks xor chunks = .ok s.samples) :
    decodeSeries xor p (parsedEntry off s chunks) = .ok s.samples := by
  have hlen : p.buf.length - off = chunks.flatten.length + rest.length := by
    rw [← length_drop, hrun, length_append]
  unfold decodeSeries parsedEntry
  dsimp only
  rw [Nat.mod_eq_of_lt (by omega), if_neg (by omega), hrun, length_map]
  split
  · rename_i hone
    match chunks, hone with
    | [], _ => exact absurd (ok.inj hdecode).symm hsamples
    | [c], _ =>
      rw [take_left, flatten_singleton, decodeChunks_singleton hdecode]
      rfl
  · have hsplit : splitChunks (chunks.flatten ++ rest) 0 (chunks.map length) = .ok chunks :=
      splitChunks_eq (by rw [length_append]; omega) chunks [] rest rfl
    rw [hsplit]
    change (decodeChunks xor chunks).mapError _ = _
    rw [hdecode]
    rfl

/-- The time range of a series, from its first to its last sample, meets the window. -/
def Series.inWindow (mintMs maxtMs : BitVec 64) (s : Series) : Bool :=
  decide (((s.samples.head?.map Sample.t).getD 0).toInt ≤ maxtMs.toInt) &&
    decide (mintMs.toInt ≤ ((s.samples.getLast?.map Sample.t).getD 0).toInt)

section
variable {xor : XorChunk} {overflow : Float64 → BitVec 64} {series : List Series}

theorem mapM_decodeSeries {p : Part} (hbuf : p.buf.length < 2 ^ 63) {keep : IndexSeries → Bool} {keep' : Series → Bool}
    (hkeep : ∀ off s chunks, keep (parsedEntry off s chunks) = keep' s)
    (hstorable : ∀ s ∈ series, Storable xor overflow s) (off : Nat) (hoff : off ≤ p.buf.length)
    (hregion : p.buf.drop off = regionOf xor overflow series ++ rest) :
    (((parsedLayout xor overflow off series).filter keep).mapM fun s =>
      (decodeSeries xor p s).map fun samples => (⟨s.lbls, samples⟩ : Series)) = .ok (series.filter keep') := by
  induction series generalizing off with
  | nil => rfl
  | cons s series ih =>
    have hs := hstorable s mem_cons_self
    obtain ⟨res, hencode, hdecode⟩ := hs.roundTrip
    have hchunks : chunksOf xor overflow s = res.chunks := by rw [chunksOf, hencode]
    rw [← hchunks] at hdecode
    rw [regionOf, flatMap_cons, append_assoc] at hregion
    have hlen := congrArg length hregion
    rw [length_drop, length_append] at hlen
    have hnext := ih (fun s' hs' => hstorable s' (mem_cons_of_mem s hs'))
      (off + (chunksOf xor overflow s).flatten.length) (by omega)
      (by rw [← drop_drop, hregion, drop_left, regionOf])
    have hhead := decodeSeries_parsedEntry hbuf hregion hoff hs.samples hdecode
    rw [parsedLayout, filter_cons, filter_cons, hkeep]
    split
    · rw [mapM_cons, hhead, hnext]
      rfl
    · exact hnext

theorem lbls_parsedLayout (off : Nat) (series : List Series) :
    (parsedLayout xor overflow off series).map IndexSeries.lbls = series.map Series.labels := by
  induction series generalizing off with
  | nil => rfl
  | cons s series ih => rw [parsedLayout, map_cons, ih, map_cons]; rfl

theorem length_layout (syms : List Bytes) (off : Nat) (series : List Series) :
    (layout xor overflow syms off series).length = series.length := by
  induction series generalizing off with
  | nil => rfl
  | cons s series ih => rw [layout, length_cons, ih, length_cons]

variable {sort : SliceSort fun s : Series => s.labels.order}

theorem pairwise_order
    (hdistinct : (series.map Series.labels).Nodup) :
    ((sort.sort series).map Series.labels).Pairwise fun a b => order a < order b := by
  have hnodup : ((sort.sort series).map Series.labels).Nodup := ((sort.perm series).map _).nodup_iff.mpr hdistinct
  rw [pairwise_map]
  refine ((sort.sorted series).and (pairwise_map.mp hnodup)).imp fun {a b} hab => lt_of_le_of_ne hab.1 fun heq =>
    hab.2 ?_
  exact ext_entries (map_injective_iff.mpr toLex.injective heq)

/-! ### The round trip -/

variable (xor overflow) in
def imageOf (crc32c : Bytes → UInt32) (blockStartMs blockEndMs : BitVec 64) (series : List Series) : Bytes :=
  withChecksum crc32c (body blockStartMs blockEndMs series.length (symbolTable series) (regionOf xor overflow series)
    (layout xor overflow (symbolTable series) 0 series))

theorem writePart_eq (crc32c : Bytes → UInt32) (sort : SliceSort fun s : Series => s.labels.order)
    {blockStartMs blockEndMs : BitVec 64} (hrange : blockStartMs.toInt ≤ blockEndMs.toInt)
    (hstorable : ∀ s ∈ sort.sort series, Storable xor overflow s) :
    writePart xor overflow crc32c sort blockStartMs blockEndMs series =
      .ok (imageOf xor overflow crc32c blockStartMs blockEndMs (sort.sort series)) := by
  have hfind : ((sort.sort series).findIdx? fun s => s.samples.isEmpty) = none :=
    findIdx?_eq_none_iff.mpr fun s hs => by simpa using (hstorable s hs).samples
  have hencode := encodeSeries_eq (symbolTable (sort.sort series))
    (fun s hs => (hstorable s hs).roundTrip.imp fun res h => h.1) 0 []
  unfold writePart
  rw [if_neg (not_lt.mpr hrange)]
  dsimp only
  rw [hfind]
  rw [hencode]
  rfl

theorem writePart_eq_ok_iff
    {blockStartMs blockEndMs : BitVec 64} :
    (∃ image, writePart xor overflow crc32c sort blockStartMs blockEndMs series = .ok image) ↔
      blockStartMs.toInt ≤ blockEndMs.toInt ∧ ∀ s ∈ series, s.samples ≠ [] ∧ Holdable overflow s.samples := by
  have hencode := @encodeSeries_eq_ok_iff xor overflow (symbolTable (sort.sort series)) (sort.sort series) 0 []
  simp only [encode_eq_ok_iff, (sort.perm series).mem_iff] at hencode
  rw [writePart, ← hencode]
  by_cases hrange : blockEndMs.toInt < blockStartMs.toInt
  · exact iff_of_false (by simp [hrange]) fun h => absurd h.1 (not_le.mpr hrange)
  rw [if_neg hrange, and_iff_right (not_lt.mp hrange)]
  dsimp only
  split
  · rename_i i hfind
    obtain ⟨hi, hempty, -⟩ := findIdx?_eq_some_iff_getElem.mp hfind
    refine iff_of_false (by simp) fun h => ?_
    have hall := hencode.mp h _ ((sort.perm series).mem_iff.mp (getElem_mem hi))
    exact hall.1 (List.isEmpty_iff.mp hempty)
  · cases encodeSeries xor overflow (symbolTable (sort.sort series)) 0 [] (sort.sort series) <;> simp [Except.map]

/-- A block is encoded and a part is written exactly when each block has samples that the XOR chunk can count or
one decimal exponent can hold, and the range of the part is one. -/
theorem writePart_accepts_iff (xor : XorChunk) (overflow : Float64 → BitVec 64) (crc32c : Bytes → UInt32)
    (sort : SliceSort fun s : Series => s.labels.order) (blockStartMs blockEndMs : BitVec 64) (series : List Series)
    (samples : List Sample) :
    ((∃ winner, encode xor overflow samples = .ok winner) ↔ samples ≠ [] ∧ Holdable overflow samples) ∧
      ((∃ image, writePart xor overflow crc32c sort blockStartMs blockEndMs series = .ok image) ↔
        blockStartMs.toInt ≤ blockEndMs.toInt ∧ ∀ s ∈ series, s.samples ≠ [] ∧ Holdable overflow s.samples) :=
  ⟨encode_eq_ok_iff, writePart_eq_ok_iff⟩

def regionStart (series : List Series) : Nat :=
  (headerBytes blockStartMs blockEndMs series.length).length

variable {crc32c : Bytes → UInt32} {blockStartMs blockEndMs : BitVec 64} {series : List Series}

variable (xor overflow crc32c blockStartMs blockEndMs series) in
theorem drop_regionStart : ∃ rest, (imageOf xor overflow crc32c blockStartMs blockEndMs series).drop
    (regionStart blockStartMs blockEndMs series) = regionOf xor overflow series ++ rest := by
  rw [imageOf, withChecksum, body, append_assoc, regionStart, drop_left, append_assoc]
  exact ⟨_, rfl⟩

variable (xor overflow crc32c blockStartMs blockEndMs series) in
theorem regions_le_length_imageOf :
    regionStart blockStartMs blockEndMs series + (regionOf xor overflow series).length +
      ((layout xor overflow (symbolTable series) 0 series).flatMap
        (entryBytes (regionStart blockStartMs blockEndMs series))).length + (symbolTable series).length ≤
      (imageOf xor overflow crc32c blockStartMs blockEndMs series).length := by
  have hsyms := length_le_flatMap fun s (_ : s ∈ symbolTable series) =>
    show putUvarint s.length ++ s ≠ [] by simp [putUvarint_ne_nil]
  simp only [imageOf, withChecksum, body, symtabBytes, regionStart, length_append] at hsyms ⊢
  omega

theorem openPart_imageOf (hstorable : ∀ s ∈ series, Storable xor overflow s) (hmax : maxAlloc < 2 ^ 63)
    (hsize : 80 * (imageOf xor overflow crc32c blockStartMs blockEndMs series).length ≤ maxAlloc) :
    openPart crc32c maxAlloc (imageOf xor overflow crc32c blockStartMs blockEndMs series) =
      .ok ⟨version, blockStartMs, blockEndMs, imageOf xor overflow crc32c blockStartMs blockEndMs series,
        symbolTable series, parsedLayout xor overflow (regionStart blockStartMs blockEndMs series) series⟩ := by
  have hle := regions_le_length_imageOf xor overflow crc32c blockStartMs blockEndMs series
  refine openPart_withChecksum rfl hmax hsize (length_layout _ _ _) ?_
  exact reads_index hmax (by omega) (by omega) 0 (fun s hs => mem_symbolTable hs) hstorable
    (by rw [regionStart] at hle; omega) (by rw [regionStart] at hle; omega)

theorem query_imageOf {p : Part} (hstorable : ∀ s ∈ series, Storable xor overflow s)
    (hbuf : p.buf = imageOf xor overflow crc32c blockStartMs blockEndMs series) (hsize : p.buf.length < 2 ^ 63)
    (hseries : p.series = parsedLayout xor overflow (regionStart blockStartMs blockEndMs series) series)
    (matchers : List (Option Matcher)) (mintMs maxtMs : BitVec 64) :
    p.query xor matchers mintMs maxtMs =
      .ok (series.filter fun s => s.inWindow mintMs maxtMs && matchesAll s.labels matchers) := by
  obtain ⟨rest, hrest⟩ := drop_regionStart xor overflow crc32c blockStartMs blockEndMs series
  have hle := regions_le_length_imageOf xor overflow crc32c blockStartMs blockEndMs series
  rw [Part.query, hseries]
  refine mapM_decodeSeries hsize (fun off s chunks => ?_) hstorable _ (by rw [hbuf]; omega) (by rw [hbuf]; exact hrest)
  have hnot : ∀ a b : Int, decide (a ≤ b) = !decide (b < a) := fun a b => by
    rw [← decide_not]
    exact decide_eq_decide.mpr not_lt.symm
  rw [Series.inWindow, hnot, hnot, ← Bool.not_or]
  rfl

/-- A part that `WritePart` has written is opened with its block range and its label sets in order, and
a query returns exactly the series that match and meet the window, each with its samples. -/
theorem openPart_writePart {maxAlloc : Nat} (sort : SliceSort fun s : Series => s.labels.order)
    (hrange : blockStartMs.toInt ≤ blockEndMs.toInt) (hdistinct : (series.map Series.labels).Nodup)
    (hstorable : ∀ s ∈ series, Storable xor overflow s) (hmax : maxAlloc < 2 ^ 63)
    (hfits : ∀ image, writePart xor overflow crc32c sort blockStartMs blockEndMs series = .ok image →
      80 * image.length ≤ maxAlloc) :
    ∃ image p, writePart xor overflow crc32c sort blockStartMs blockEndMs series = .ok image ∧
      openPart crc32c maxAlloc image = .ok p ∧ p.blockStartMs = blockStartMs ∧ p.blockEndMs = blockEndMs ∧
      p.seriesLabels.Perm (series.map Series.labels) ∧
      p.seriesLabels.Pairwise (fun a b => order a < order b) ∧
      ∀ matchers mintMs maxtMs, p.query xor matchers mintMs maxtMs =
        .ok ((sort.sort series).filter fun s => s.inWindow mintMs maxtMs && matchesAll s.labels matchers) := by
  have hsorted : ∀ s ∈ sort.sort series, Storable xor overflow s :=
    fun s hs => hstorable s ((sort.perm series).mem_iff.mp hs)
  have hwrite := writePart_eq crc32c sort hrange hsorted
  have hsize := hfits _ hwrite
  refine ⟨_, _, hwrite, openPart_imageOf hsorted hmax hsize, rfl, rfl, ?_, ?_, ?_⟩
  · rw [Part.seriesLabels, lbls_parsedLayout]
    exact (sort.perm series).map Series.labels
  · rw [Part.seriesLabels, lbls_parsedLayout]
    exact pairwise_order hdistinct
  · exact query_imageOf hsorted rfl (by dsimp only; omega) rfl

end

/-! ### A part of two series -/

def castagnoli (bytes : Bytes) : UInt32 :=
  let shift := fun crc : UInt32 => if crc &&& 1 = 1 then (crc >>> 1) ^^^ 0x82f63b78 else crc >>> 1
  ~~~(bytes.foldl (fun crc b => shift^[8] (crc ^^^ b.toUInt32)) 0xffffffff)

example : castagnoli (str "123456789") = 0xe3069283 := by decide +kernel

def sampleSeries (host : String) : Series :=
  ⟨.ofList [(str "__name__", str "cpu"), (str "host", str host)], [⟨1000, .ofInt 15⟩]⟩

def labelSort : SliceSort fun s : Series => s.labels.order := .stable _

def noisyBlock : List Sample := replicate (2 ^ 16) ⟨0, Float64.nan⟩

theorem mem_noisyBlock : ⟨0, Float64.nan⟩ ∈ noisyBlock := mem_replicate.mpr ⟨by norm_num, rfl⟩

theorem not_holdable_noisyBlock (overflow : Float64 → BitVec 64) : ¬Holdable overflow noisyBlock := by
  rintro (hlen | ⟨e, -, hall⟩)
  · rw [noisyBlock, length_replicate] at hlen
    exact lt_irrefl _ hlen
  · have hnan := (hall Float64.nan (mem_map_of_mem mem_noisyBlock)).1
    revert hnan
    decide

/-- One sample more than an XOR chunk can count, and no decimal. -/
theorem encode_refuses_noisyBlock :
    noisyBlock ≠ [] ∧ (¬∃ winner, encode plainChunk (fun _ => 0) noisyBlock = .ok winner) ∧
      ¬∃ image, writePart plainChunk (fun _ => 0) castagnoli labelSort 0 7200000 [⟨.empty, noisyBlock⟩] =
        .ok image := by
  refine ⟨ne_nil_of_mem mem_noisyBlock, ?_, ?_⟩
  · rw [encode_eq_ok_iff]
    exact fun h => not_holdable_noisyBlock _ h.2
  · rw [writePart_eq_ok_iff]
    exact fun h => not_holdable_noisyBlock _ (h.2 _ mem_cons_self).2

theorem storable_sampleSeries :
    ∀ s ∈ [sampleSeries "b", sampleSeries "a"], Storable plainChunk (fun _ => 0) s := by
  have hroundTrip : encode plainChunk (fun _ => 0) [⟨1000, .ofInt 15⟩] = .ok (sampleWinner 0 15) ∧
      decodeChunks plainChunk (sampleWinner 0 15).chunks = .ok [⟨1000, .ofInt 15⟩] := by
    decide +kernel
  intro s hs
  simp only [mem_cons, not_mem_nil, or_false] at hs
  rcases hs with rfl | rfl
  all_goals exact ⟨by decide, by decide, ⟨_, hroundTrip⟩, by decide +kernel⟩

theorem openPart_writePart_hosts :
    ∃ image p, writePart plainChunk (fun _ => 0) castagnoli labelSort 0 7200000
        [sampleSeries "b", sampleSeries "a"] = .ok image ∧
      openPart castagnoli (2 ^ 48) image = .ok p ∧ p.blockStartMs = 0 ∧ p.blockEndMs = 7200000 ∧
      p.seriesLabels.Perm ([sampleSeries "b", sampleSeries "a"].map Series.labels) ∧
      p.seriesLabels.Pairwise (fun a b => order a < order b) ∧
      ∀ matchers mintMs maxtMs, p.query plainChunk matchers mintMs maxtMs =
        .ok ((labelSort.sort [sampleSeries "b", sampleSeries "a"]).filter fun s =>
          s.inWindow mintMs maxtMs && matchesAll s.labels matchers) := by
  refine openPart_writePart labelSort (by decide) (by decide) storable_sampleSeries (by decide) fun image himage => ?_
  have hsorted : ∀ s ∈ labelSort.sort [sampleSeries "b", sampleSeries "a"], Storable plainChunk (fun _ => 0) s :=
    fun s hs => storable_sampleSeries s ((labelSort.perm _).mem_iff.mp hs)
  rw [writePart_eq castagnoli labelSort (by decide) hsorted] at himage
  rw [← ok.inj himage]
  decide +kernel

end ColdPart

end AsapCollector
