import AsapCollector.Cold.Finalizer
import AsapCollector.Lib.Run
import AsapCollector.Theorems.Cold.BestOfN
import AsapCollector.Theorems.Cold.Fragment

/-! A shard that gives its samples to one encoder after another keeps them all in the block of its fragments as long as
no sample is older than one of its label set that an earlier encoder has shipped. -/

namespace AsapCollector

open StreamingFragmentEncoder List GoMap TSDBSample IntChunk FragmentBlockFinalizer

/-! ### The block of fragments that do not overlap -/

namespace FragmentBlockFinalizer

def Apart (a b : ChunkMeta) : Prop := a.maxTime < b.minTime ∨ b.maxTime < a.minTime

theorem keepChunks_eq_self {lastMax : Int} {chunks : List ChunkMeta} (hlast : ∀ c ∈ chunks, lastMax < c.minTime)
    (h : chunks.Pairwise fun a b => a.maxTime < b.minTime) : keepChunks lastMax chunks = chunks := by
  induction chunks generalizing lastMax with
  | nil => rfl
  | cons c chunks ih =>
    obtain ⟨hhead, htail⟩ := pairwise_cons.mp h
    rw [keepChunks, if_neg (not_le.mpr (hlast c mem_cons_self)), ih hhead htail]

variable (sort : SliceSort ChunkMeta.minTime)

theorem written_perm {chunks : List ChunkMeta} (hapart : chunks.Pairwise Apart)
    (hspan : ∀ c ∈ chunks, c.minTime ≤ c.maxTime) (hmin : ∀ c ∈ chunks, minInt64 < c.minTime) :
    (written sort chunks).Perm chunks := by
  have hperm := sort.perm chunks
  have hsorted : (sort.sort chunks).Pairwise fun a b => a.maxTime < b.minTime := by
    have hapart' : (sort.sort chunks).Pairwise Apart := (hperm.pairwise_iff fun hab => hab.symm).mpr hapart
    refine ((sort.sorted chunks).and hapart').imp_of_mem fun {a b} ha hb hab => ?_
    have := hspan b (hperm.mem_iff.mp hb)
    rcases hab.2 with hlt | hlt
    · exact hlt
    · have := hab.1
      omega
  rw [written, keepChunks_eq_self (fun c hc => hmin c (hperm.mem_iff.mp hc)) hsorted]
  exact hperm

theorem addFragments_spec (f : FragmentBlockFinalizer) {fragments : List Fragment}
    (h : ∀ g ∈ fragments, g.count ≠ 0 ∧ g.data ≠ []) :
    (∀ ls, get (f.addFragments fragments).series [] ls =
        get f.series [] ls ++ (fragments.filter fun g => g.labels f.external = ls).map chunkOf) ∧
      (f.addFragments fragments).numSamples = f.numSamples + (fragments.map Fragment.count).sum ∧
      (f.addFragments fragments).numChunks = f.numChunks + fragments.length := by
  induction fragments generalizing f with
  | nil => exact ⟨fun ls => (append_nil _).symm, rfl, rfl⟩
  | cons g fragments ih =>
    obtain ⟨⟨hcount, hdata⟩, hrest⟩ := forall_mem_cons.mp h
    obtain ⟨hget, hsamples, hchunks⟩ := ih (f.addFragment g) hrest
    rw [show f.addFragments (g :: fragments) = (f.addFragment g).addFragments fragments from rfl, hsamples, hchunks,
      map_cons, sum_cons, length_cons]
    rw [addFragment, if_neg (not_or.mpr ⟨hcount, hdata⟩)] at hget ⊢
    refine ⟨fun ls => ?_, by dsimp only; omega, by dsimp only; omega⟩
    rw [hget ls, filter_cons]
    by_cases hls : g.labels f.external = ls
    · subst hls
      simp
    · rw [get_insert_of_ne (Ne.symm hls), if_neg (by simpa using hls)]

theorem get_written (series : GoMap Labels (List ChunkMeta)) (ls : Labels) :
    get ((series.map (written sort)).filter fun _ chunks => !chunks.isEmpty) [] ls =
      written sort (get series [] ls) := by
  have hnil : written sort [] = [] := by rw [written, (sort.perm []).eq_nil]; rfl
  rw [GoMap.get, lookup_filter_eq, lookup_map_eq, GoMap.get]
  cases series.lookup ls with
  | none => exact hnil.symm
  | some chunks =>
    rw [Option.map_some, Option.getD_some]
    cases written sort chunks <;> rfl

end FragmentBlockFinalizer

open FragmentBlockFinalizer in
theorem blockOf_samples {xor : XorChunk} (hheader : xor.HasHeader) {external : StringMap}
    (sort : SliceSort ChunkMeta.minTime)
    {fragments : List Fragment} (hne : fragments ≠ []) (hdesc : ∀ f ∈ fragments, f.Describes xor)
    (hspan : ∀ f ∈ fragments, f.minTime ≤ f.maxTime) (hmin : ∀ f ∈ fragments, minInt64 < f.minTime)
    (hapart : fragments.Pairwise fun f g => f.labels external = g.labels external → Apart (chunkOf f) (chunkOf g)) :
    ∃ block, blockOf external sort fragments = some block ∧
      ∀ f ∈ fragments, ∀ p ∈ f.samples xor, p ∈ block.samples xor (f.labels external) := by
  have husable : ∀ f ∈ fragments, f.count ≠ 0 ∧ f.data ≠ [] := fun f hf =>
    ⟨by rw [(hdesc f hf).count]; exact fun h0 => (hdesc f hf).samples_ne_nil (length_eq_zero_iff.mp h0),
      (hdesc f hf).data_ne_nil hheader⟩
  have hsamples : ((FragmentBlockFinalizer.new external).addFragments fragments).numSamples ≠ 0 := by
    rw [(addFragments_spec _ husable).2.1]
    obtain ⟨f, rest, rfl⟩ := exists_cons_of_ne_nil hne
    have := (husable f mem_cons_self).1
    rw [map_cons, sum_cons]
    omega
  refine ⟨_, by rw [blockOf, finalize, if_neg hsamples], fun f hf p hp => ?_⟩
  have hperm : (written sort (get ((FragmentBlockFinalizer.new external).addFragments fragments).series []
      (f.labels external))).Perm ((fragments.filter fun g => g.labels external = f.labels external).map chunkOf) := by
    rw [(addFragments_spec _ husable).1]
    refine written_perm sort ?_ ?_ ?_
    · refine pairwise_map.mpr ((hapart.filter _).imp_of_mem fun {a b} ha hb hab => hab ?_)
      exact (of_decide_eq_true (mem_filter.mp ha).2).trans (of_decide_eq_true (mem_filter.mp hb).2).symm
    all_goals
      intro c hc
      obtain ⟨g, hg, rfl⟩ := mem_map.mp hc
    · exact hspan g (mem_filter.mp hg).1
    · exact hmin g (mem_filter.mp hg).1
  have hchunk := hperm.mem_iff.mpr (mem_map.mpr ⟨f, mem_filter.mpr ⟨hf, decide_eq_true rfl⟩, rfl⟩)
  rw [TSDBBlock.samples, get_written]
  exact mem_flatMap.mpr ⟨chunkOf f, hchunk, hp⟩

/-! ### One window of a shard -/

def shippedSamples (xor : XorChunk) (fs : List Fragment) : List (SeriesId × Sample) :=
  fs.flatMap fun f => (f.samples xor).map fun p => (f.toSeriesId, p)

theorem ofKey_fragment (xor : XorChunk) (k : Bytes) (f : Fragment) :
    ofKey k ((f.samples xor).map fun p => (f.toSeriesId, p)) = if f.toSeriesId.key = k then f.samples xor else [] := by
  rw [ofKey, filter_map, map_map]
  by_cases hk : f.toSeriesId.key = k <;> simp [hk, Function.comp_def]

theorem flatMap_fragmentsOf_eq (xor : XorChunk) (k : Bytes) (fs : List Fragment) :
    (fragmentsOf k fs).flatMap (Fragment.samples xor) = ofKey k (shippedSamples xor fs) := by
  induction fs with
  | nil => rfl
  | cons f fs ih =>
    have hcons : shippedSamples xor (f :: fs) =
      (f.samples xor).map (fun p => (f.toSeriesId, p)) ++ shippedSamples xor fs := rfl
    rw [hcons, ofKey_append, ofKey_fragment, ← ih, fragmentsOf, filter_cons]
    by_cases hk : f.toSeriesId.key = k <;> simp [hk, fragmentsOf]

/-- Among these series, the encoder's key and the label set in the block tell the same series apart. -/
def Faithful (external : StringMap) (ids : List SeriesId) : Prop :=
  ∀ i ∈ ids, ∀ j ∈ ids, i.key = j.key ↔ i.labels external = j.labels external

theorem count_blockEntry {external : StringMap} {k : Bytes} {ls : Labels} {X : List (SeriesId × Sample)}
    (h : ∀ d ∈ X, d.1.key = k ↔ d.1.labels external = ls) (p : Sample) :
    (X.map fun d => blockEntry external d.1 d.2).count (ls, p) = (ofKey k X).count p := by
  induction X with
  | nil => rfl
  | cons d X ih =>
    obtain ⟨hd, hX⟩ := forall_mem_cons.mp h
    rw [map_cons, count_cons, ih hX, ofKey, ofKey, filter_cons]
    by_cases hk : d.1.key = k
    · simp [hk, blockEntry, hd.mp hk, count_cons]
    · simp [hk, blockEntry, mt hd.mpr hk]

theorem Faithful.perm {external : StringMap} {ids : List SeriesId} (h : Faithful external ids)
    {X Y : List (SeriesId × Sample)} (hX : ∀ d ∈ X, d.1 ∈ ids) (hY : ∀ d ∈ Y, d.1 ∈ ids)
    (hkeys : ∀ k, (ofKey k X).Perm (ofKey k Y)) :
    (X.map fun d => blockEntry external d.1 d.2).Perm (Y.map fun d => blockEntry external d.1 d.2) := by
  rw [perm_iff_count]
  rintro ⟨ls, p⟩
  by_cases hls : ∃ i ∈ ids, i.labels external = ls
  · obtain ⟨i, hi, rfl⟩ := hls
    rw [count_blockEntry (fun d hd => h _ (hX d hd) i hi), count_blockEntry (fun d hd => h _ (hY d hd) i hi),
      (hkeys i.key).count_eq]
  · have hnone {Z : List (SeriesId × Sample)} (hZ : ∀ d ∈ Z, d.1 ∈ ids) :
        (Z.map fun d => blockEntry external d.1 d.2).count (ls, p) = 0 := by
      refine count_eq_zero.mpr fun hmem => ?_
      obtain ⟨d, hd, heq⟩ := mem_map.mp hmem
      exact hls ⟨d.1, hZ d hd, congrArg Prod.fst heq⟩
    rw [hnone hX, hnone hY]

section
variable {xor : XorChunk} {external : StringMap} {added : List TSDBSample} {dropped : List (SeriesId × Sample)}
  {fs : List Fragment}

theorem mem_shippedSamples {d : SeriesId × Sample} :
    d ∈ shippedSamples xor fs ↔ ∃ f ∈ fs, d.1 = f.toSeriesId ∧ d.2 ∈ f.samples xor := by
  simp only [shippedSamples, mem_flatMap, mem_map, Prod.ext_iff]
  constructor
  · rintro ⟨f, hf, p, hp, hid, rfl⟩
    exact ⟨f, hf, hid.symm, hp⟩
  · rintro ⟨f, hf, hid, hp⟩
    exact ⟨f, hf, d.2, hp, hid.symm, rfl⟩

section
variable (h : Window xor added dropped fs)
include h

theorem StreamingFragmentEncoder.Window.perm
    (hfaith : Faithful external (added.map toSeriesId)) :
    (added.map fun s => blockEntry external s.toSeriesId s.point).Perm
      ((dropped ++ shippedSamples xor fs).map fun d => blockEntry external d.1 d.2) := by
  have hentries : (added.map fun s => blockEntry external s.toSeriesId s.point) =
      (added.map entry).map fun d => blockEntry external d.1 d.2 := by rw [map_map]; rfl
  rw [hentries]
  refine hfaith.perm (fun d hd => ?_) (forall_mem_append.mpr ⟨h.known, fun d hd => ?_⟩) fun k => ?_
  · obtain ⟨s, hs, rfl⟩ := mem_map.mp hd
    exact mem_map.mpr ⟨s, hs, rfl⟩
  · obtain ⟨f, hf, hid, -⟩ := mem_shippedSamples.mp hd
    exact hid ▸ (h.described f hf).2
  · rw [ofKey_append, ← flatMap_fragmentsOf_eq]
    exact h.conserved k

theorem StreamingFragmentEncoder.Window.disjoint
    (hfaith : Faithful external (added.map toSeriesId)) :
    fs.Pairwise fun f g => f.labels external = g.labels external → f.maxTime < g.minTime := by
  refine (pairwise_fragments h.ascending).imp_of_mem fun {f g} hf hg hlt hlabels => ?_
  obtain ⟨p, hp, hmax⟩ := (h.described f hf).1.spans.exists_last
  obtain ⟨q, hq, hmin⟩ := (h.described g hg).1.spans.exists_first
  have hkey := (hfaith _ (h.described f hf).2 _ (h.described g hg).2).mpr hlabels
  exact hmax ▸ hmin ▸ hlt hkey p hp q hq

theorem StreamingFragmentEncoder.Window.span {f : Fragment} (hf : f ∈ fs) :
    f.minTime ≤ f.maxTime := by
  have hasc := (pairwise_flatMap.mp (h.ascending f.toSeriesId.key)).1 f
    (mem_filter.mpr ⟨hf, decide_eq_true rfl⟩)
  obtain ⟨p, hp, hfirst⟩ := (h.described f hf).1.spans.exists_first
  exact hfirst ▸ ((h.described f hf).1.spans.bounds hasc hp).2

end

theorem exists_sample_of_perm
    (h : (added.map fun s => blockEntry external s.toSeriesId s.point).Perm
      ((dropped ++ shippedSamples xor fs).map fun d => blockEntry external d.1 d.2))
    {f : Fragment} (hf : f ∈ fs) {p : Sample} (hp : p ∈ f.samples xor) :
    ∃ s ∈ added, s.labels external = f.labels external ∧ s.point = p := by
  have hshipped : (f.toSeriesId, p) ∈ shippedSamples xor fs := mem_shippedSamples.mpr ⟨f, hf, rfl, hp⟩
  have hmem : blockEntry external f.toSeriesId p ∈ added.map fun s => blockEntry external s.toSeriesId s.point := by
    rw [h.mem_iff]
    exact mem_map.mpr ⟨_, mem_append_right _ hshipped, rfl⟩
  obtain ⟨s, hs, heq⟩ := mem_map.mp hmem
  exact ⟨s, hs, (Prod.mk.inj heq).1, (Prod.mk.inj heq).2⟩

end

/-! ### A run of a shard -/

namespace ColdShard

variable (xor : XorChunk) (cfg : ColdConfig) (external : StringMap)

/-- The sample is newer than every sample of its label set that an earlier encoder has shipped, and
the present encoder tells the series of its samples apart like the block does. -/
def Punctual (sh : ColdShard) : ColdOp → Prop
  | .addSample s =>
    (∀ s' ∈ sh.archived, s'.labels external = s.labels external → s'.point.time < s.point.time) ∧
      ∀ s' ∈ sh.current, s'.toSeriesId.key = s.toSeriesId.key ↔ s'.labels external = s.labels external
  | .drainShardCold _ => True

/-- Every sample of the run is punctual. -/
abbrev PunctualRun (sh : ColdShard) : List ColdOp → Prop := Always (step xor cfg) (Punctual external) sh

instance Punctual.decidable (sh : ColdShard) : (op : ColdOp) → Decidable (sh.Punctual external op)
  | .addSample s =>
    inferInstanceAs (Decidable ((∀ s' ∈ sh.archived, s'.labels external = s.labels external →
      s'.point.time < s.point.time) ∧
      ∀ s' ∈ sh.current, s'.toSeriesId.key = s.toSeriesId.key ↔ s'.labels external = s.labels external))
  | .drainShardCold _ => .isTrue trivial

structure Sound (sh : ColdShard) : Prop where
  encoder : StreamingFragmentEncoder.Inv xor True defaultTSDBSamplesPerChunk sh.cold [] sh.current
    (sh.current.map toSeriesId)
  unevicted : sh.cold.evicted = 0
  faithful : Faithful external (sh.current.map toSeriesId)
  newer : ∀ s ∈ sh.current, ∀ s' ∈ sh.archived, s'.labels external = s.labels external → s'.point.time < s.point.time
  described : ∀ f ∈ sh.shipped, f.Describes xor ∧ f.minTime ≤ f.maxTime
  disjoint : sh.shipped.Pairwise fun f g => f.labels external = g.labels external → f.maxTime < g.minTime
  conserved : (sh.archived.map fun s => blockEntry external s.toSeriesId s.point).Perm
    ((sh.lost ++ shippedSamples xor sh.shipped).map fun d => blockEntry external d.1 d.2)

variable {xor cfg external}

theorem inv_newColdEncoder :
    StreamingFragmentEncoder.Inv xor True defaultTSDBSamplesPerChunk (newColdEncoder cfg) [] [] [] := by
  have hlimit : (newColdEncoder cfg).samplesPerChk = defaultTSDBSamplesPerChunk := rfl
  rw [← hlimit]
  exact Inv.new _

theorem Sound.new : (ColdShard.new cfg).Sound xor external where
  encoder := inv_newColdEncoder
  unevicted := rfl
  faithful := fun _ hi => absurd hi not_mem_nil
  newer := fun _ hs => absurd hs not_mem_nil
  described := fun _ hf => absurd hf not_mem_nil
  disjoint := .nil
  conserved := .refl _

theorem Faithful.snoc {added : List TSDBSample} {s : TSDBSample} (h : Faithful external (added.map toSeriesId))
    (hs : ∀ s' ∈ added, s'.toSeriesId.key = s.toSeriesId.key ↔ s'.labels external = s.labels external) :
    Faithful external ((added ++ [s]).map toSeriesId) := by
  have hmem : ∀ i ∈ (added ++ [s]).map toSeriesId, i ∈ added.map toSeriesId ∨ i = s.toSeriesId := by
    intro i hi
    rw [map_append] at hi
    exact (mem_append.mp hi).imp_right mem_singleton.mp
  have hold : ∀ i ∈ added.map toSeriesId, i.key = s.toSeriesId.key ↔ i.labels external = s.labels external := by
    intro i hi
    obtain ⟨s', hs', rfl⟩ := mem_map.mp hi
    exact hs s' hs'
  intro i hi j hj
  rcases hmem i hi with hi | rfl <;> rcases hmem j hj with hj | rfl
  · exact h i hi j hj
  · exact hold i hi
  · rw [eq_comm, hold j hj, eq_comm]
  · exact ⟨fun _ => rfl, fun _ => rfl⟩

section
variable (hxor : xor.Lossless)
include hxor

variable {sh : ColdShard}

section
variable (h : sh.Sound xor external)
include h

theorem Sound.addSample {s : TSDBSample}
    (hs : sh.Punctual external (.addSample s)) : (sh.addSample xor s).Sound xor external where
  encoder := by
    have hinv := (h.encoder.addSample (hxor.upTo (by decide)) (by decide) s fun _ => .inl h.unevicted).1
    have hids : sh.current.map toSeriesId ++ [s.toSeriesId] = (sh.current ++ [s]).map toSeriesId := by simp
    exact hids ▸ hinv
  unevicted :=
    (h.encoder.addSample (hxor.upTo (by decide)) (by decide) s fun _ => .inl h.unevicted).2.trans h.unevicted
  faithful := Faithful.snoc h.faithful hs.2
  newer := forall_mem_append.mpr ⟨h.newer, forall_mem_singleton.mpr hs.1⟩
  described := h.described
  disjoint := h.disjoint
  conserved := h.conserved

theorem Sound.drainShardCold (ω : RangeOrder (Bytes × Nat)) :
    (sh.drainShardCold xor cfg ω).Sound xor external := by
  have hwindow := h.encoder.drain (hxor.upTo (by decide)) (by decide) ω
  have hperm := hwindow.perm h.faithful
  refine ⟨inv_newColdEncoder, rfl, fun i hi => absurd hi not_mem_nil, fun s hs => absurd hs not_mem_nil,
    forall_mem_append.mpr ⟨h.described, fun f hf => ⟨(hwindow.described f hf).1, hwindow.span hf⟩⟩, ?_, ?_⟩
  · refine pairwise_append.mpr ⟨h.disjoint, hwindow.disjoint h.faithful, fun f hf g hg hlabels => ?_⟩
    -- a fragment of an earlier window ends before one of this window begins, since their samples do
    obtain ⟨p, hp, hmax⟩ := (h.described f hf).1.spans.exists_last
    obtain ⟨q, hq, hmin⟩ := (hwindow.described g hg).1.spans.exists_first
    obtain ⟨s, hs, hslabels, rfl⟩ := exists_sample_of_perm h.conserved hf hp
    obtain ⟨s', hs', hslabels', rfl⟩ := exists_sample_of_perm hperm hg hq
    have hlt := h.newer s' hs' s hs (by rw [hslabels, hslabels', hlabels])
    rwa [hmax, hmin] at hlt
  · unfold ColdShard.drainShardCold
    rw [shippedSamples, flatMap_append, ← shippedSamples, ← shippedSamples]
    have hboth := h.conserved.append hperm
    simp only [map_append, append_assoc] at hboth ⊢
    exact hboth.trans (Perm.append_left _ (perm_append_comm_assoc _ _ _))

theorem Sound.run {ops : List ColdOp}
    (hops : sh.PunctualRun xor cfg external ops) : (ops.foldl (step xor cfg) sh).Sound xor external := by
  refine hops.invariant (fun {sh op} _ h hop => ?_) h
  cases op with
  | addSample s => exact h.addSample hxor hop
  | drainShardCold ω => exact h.drainShardCold hxor ω

end

end

theorem minInt64_lt_time (s : TSDBSample) : minInt64 < s.point.time := by
  have hlo := s.timestamp.le_toInt
  have hhi := s.timestamp.toInt_lt
  have hdiv : -2 ^ 62 ≤ s.timestamp.toInt.tdiv 1000000 ∧ s.timestamp.toInt.tdiv 1000000 < 2 ^ 62 := by
    rw [Int.tdiv_eq_ediv, show Int.sign 1000000 = 1 by decide]
    split <;> omega
  unfold point Sample.time minInt64
  rw [BitVec.toInt_ofInt_eq_self (by decide) (by omega) (by omega)]
  omega

/-- In every run in which no sample is older than one of its label set that an earlier encoder has
shipped, and in which the encoders tell series apart like the block does, the block has every sample
that no encoder has counted as dropped. -/
theorem punctual_run_complete (hxor : xor.Lossless) (hheader : xor.HasHeader) {ops : List ColdOp}
    (hops : (new cfg).PunctualRun xor cfg external ops) {fragments : List Fragment}
    (hperm : fragments.Perm (run xor cfg ops).shipped) (sort : SliceSort ChunkMeta.minTime) :
    Complete xor external (run xor cfg ops) (blockOf external sort fragments) := by
  have hsound : (run xor cfg ops).Sound xor external := Sound.new.run hxor hops
  generalize run xor cfg ops = sh at hperm hsound
  intro s hs hcount
  -- a fragment has the sample, since the drops do not account for it
  have hshipped : blockEntry external s.toSeriesId s.point ∈
      (shippedSamples xor sh.shipped).map fun d => blockEntry external d.1 d.2 := by
    rw [hsound.conserved.count_eq, map_append, count_append] at hcount
    exact count_pos_iff.mp (by omega)
  obtain ⟨d, hd, heq⟩ := mem_map.mp hshipped
  obtain ⟨f, hf, hid, hp⟩ := mem_shippedSamples.mp hd
  obtain ⟨hlabels, hpoint⟩ := Prod.mk.inj heq
  rw [hid] at hlabels
  have hmem : ∀ g, g ∈ fragments → g ∈ sh.shipped := fun g hg => hperm.mem_iff.mp hg
  have hmin : ∀ g ∈ fragments, minInt64 < g.minTime := by
    intro g hg
    obtain ⟨p, hp, hmin⟩ := (hsound.described g (hmem g hg)).1.spans.exists_first
    obtain ⟨s', -, -, rfl⟩ := exists_sample_of_perm hsound.conserved (hmem g hg) hp
    exact hmin ▸ minInt64_lt_time s'
  have hapart : fragments.Pairwise fun f g => f.labels external = g.labels external →
      Apart (chunkOf f) (chunkOf g) :=
    (hperm.pairwise_iff fun {f g} hfg hgf => (hfg hgf.symm).symm).mpr
      (hsound.disjoint.imp fun hlt hfg => .inl (hlt hfg))
  obtain ⟨block, hblock, hsamples⟩ := blockOf_samples hheader sort (ne_nil_of_mem (hperm.mem_iff.mpr hf))
    (fun g hg => (hsound.described g (hmem g hg)).1) (fun g hg => (hsound.described g (hmem g hg)).2) hmin hapart
  refine ⟨block, hblock, s, hs, rfl, rfl, ?_⟩
  have hin := hsamples f (hperm.mem_iff.mpr hf) d.2 hp
  rwa [hlabels, hpoint] at hin

/-! ### A late sample -/

def sampleAt (host : String) (ms : Nat) : TSDBSample :=
  { metricName := str "cpu", attrs := .ofList [(str "host", str host)], timestamp := BitVec.ofNat 64 (ms * 1000000)
    value := .ofInt 1 }

def sampleConfig : ColdConfig := ⟨60000000000, str "agent"⟩

def samplesThenDrain (samples : List TSDBSample) : List ColdOp :=
  samples.map .addSample ++ [.drainShardCold (.stored _)]

theorem plainChunk_hasHeader : plainChunk.HasHeader := by
  intro samples h
  have hlen := congrArg length h
  simp [plainChunk] at hlen

/-- Two windows of two series; within a window the samples come in any order. -/
def punctualOps : List ColdOp :=
  samplesThenDrain [sampleAt "a" 20, sampleAt "a" 10, sampleAt "b" 15] ++ samplesThenDrain [sampleAt "b" 16,
    sampleAt "a" 30]

theorem punctual_run_complete_hosts :
    Complete plainChunk .empty (run plainChunk sampleConfig punctualOps)
      (blockOf .empty (.stable _) (run plainChunk sampleConfig punctualOps).shipped) :=
  punctual_run_complete plainChunk_lossless plainChunk_hasHeader (by decide +kernel) (.refl _) (.stable _)

/-- The first sample of the second window is five milliseconds late, well within the reorder grace. -/
def lateOps : List ColdOp :=
  samplesThenDrain [sampleAt "a" 10, sampleAt "a" 20] ++ samplesThenDrain [sampleAt "a" 15, sampleAt "a" 30]

/-- The fragment of the second window overlaps that of the first and is discarded with both its samples. -/
theorem late_sample_discards_fragment :
    ¬Complete plainChunk .empty (run plainChunk sampleConfig lateOps)
      (blockOf .empty (.stable _) (run plainChunk sampleConfig lateOps).shipped) := by
  unfold Complete
  decide +kernel

end ColdShard

end AsapCollector
