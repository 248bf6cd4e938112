import Mathlib.Algebra.Order.BigOperators.Group.List
import AsapCollector.Lib.ByKey
import AsapCollector.Theorems.Cold.Archive

/-! The statistics of a block are counted as the fragments come in, so they are those of what is written exactly when
nothing is discarded. -/

namespace AsapCollector

open List GoMap IntChunk

def TSDBBlock.chunks (block : TSDBBlock) : List ChunkMeta := block.series.pairs.flatMap Prod.snd

def ChunkMeta.numSamples (xor : XorChunk) (c : ChunkMeta) : Nat := ((xor.decode c.data).getD []).length

/-- The count of a fragment is that of its chunk, and its times are bounds of the samples in it. -/
def Fragment.Measures (xor : XorChunk) (f : Fragment) : Prop :=
  f.count = (f.samples xor).length ∧ ∀ p ∈ f.samples xor, f.minTime ≤ p.time ∧ p.time ≤ f.maxTime

instance (xor : XorChunk) (f : Fragment) : Decidable (f.Measures xor) := inferInstanceAs (Decidable (_ ∧ _))

theorem Fragment.Measures.span {xor : XorChunk} {f : Fragment} (h : f.Measures xor) (hcount : f.count ≠ 0) :
    f.minTime ≤ f.maxTime := by
  obtain ⟨p, hp⟩ := exists_mem_of_length_pos (Nat.pos_of_ne_zero (h.1 ▸ hcount))
  exact (h.2 p hp).1.trans (h.2 p hp).2

namespace FragmentBlockFinalizer

open ColdShard

/-- The fragments that are not skipped as empty. -/
def usable (fragments : List Fragment) : List Fragment := fragments.filter fun f => f.count ≠ 0

structure Accurate (xor : XorChunk) (fragments : List Fragment) (block : TSDBBlock) : Prop where
  numSamples : block.numSamples = (block.chunks.map (ChunkMeta.numSamples xor)).sum
  numChunks : block.numChunks = block.chunks.length
  numSeries : block.numSeries = block.series.len
  sorted : ∀ ls, (get block.series [] ls).Pairwise fun a b => a.maxTime < b.minTime
  /-- The discarded chunks are those that were added and not written. -/
  balance : block.numSamples + ((((usable fragments).map chunkOf).diff block.chunks).map
    (ChunkMeta.numSamples xor)).sum = (fragments.map fun f => (f.samples xor).length).sum

/-- Of each label set no two chunks overlap, and none begins at the smallest time there is. -/
def Separate (external : StringMap) (fragments : List Fragment) : Prop :=
  ∀ ls, (((usable fragments).filter fun f => f.labels external = ls).map chunkOf).Pairwise Apart ∧
    ∀ c ∈ ((usable fragments).filter fun f => f.labels external = ls).map chunkOf, minInt64 < c.minTime

theorem keepChunks_sublist (chunks : List ChunkMeta) : ∀ lastMax, (keepChunks lastMax chunks).Sublist chunks := by
  induction chunks with
  | nil => exact fun _ => .refl _
  | cons c chunks ih =>
    intro lastMax
    rw [keepChunks]
    split
    · exact (ih lastMax).cons c
    · exact (ih c.maxTime).cons_cons c

theorem keepChunks_sorted {chunks : List ChunkMeta} (hspan : ∀ c ∈ chunks, c.minTime ≤ c.maxTime) : ∀ lastMax,
    (∀ c ∈ keepChunks lastMax chunks, lastMax < c.minTime) ∧
      (keepChunks lastMax chunks).Pairwise fun a b => a.maxTime < b.minTime := by
  induction chunks with
  | nil => exact fun _ => ⟨fun _ h => (not_mem_nil h).elim, .nil⟩
  | cons c chunks ih =>
    intro lastMax
    have hrest := ih fun c' hc' => hspan c' (mem_cons_of_mem c hc')
    rw [keepChunks]
    split
    · exact hrest lastMax
    · rename_i hlast
      have hc := hspan c mem_cons_self
      refine ⟨fun c' hc' => ?_, pairwise_cons.mpr (hrest c.maxTime)⟩
      rcases mem_cons.mp hc' with rfl | hc'
      · exact not_le.mp hlast
      · exact (not_le.mp hlast).trans (hc.trans_lt ((hrest c.maxTime).1 c' hc'))

variable {sort : SliceSort ChunkMeta.minTime} {chunks : List ChunkMeta}

theorem length_written_le (chunks : List ChunkMeta) : (written sort chunks).length ≤ chunks.length :=
  (keepChunks_sublist _ _).length_le.trans (sort.perm chunks).length_eq.le

theorem apart_of_length_written (hspan : ∀ c ∈ chunks, c.minTime ≤ c.maxTime)
    (hlen : chunks.length ≤ (written sort chunks).length) :
    chunks.Pairwise Apart ∧ ∀ c ∈ chunks, minInt64 < c.minTime := by
  have hperm := sort.perm chunks
  have hkept : written sort chunks = sort.sort chunks :=
    (keepChunks_sublist _ _).eq_of_length_le (hperm.length_eq.trans_le hlen)
  obtain ⟨hmin, hsorted⟩ := keepChunks_sorted (fun c hc => hspan c (hperm.mem_iff.mp hc)) minInt64
  rw [written] at hkept
  rw [hkept] at hmin hsorted
  exact ⟨(hperm.pairwise_iff fun hab => hab.symm).mp (hsorted.imp .inl), fun c hc => hmin c (hperm.mem_iff.mpr hc)⟩

variable {xor : XorChunk} {external : StringMap} {fragments : List Fragment}

theorem addFragments_usable (hdata : ∀ f ∈ fragments, f.count ≠ 0 → f.data ≠ []) (f : FragmentBlockFinalizer) :
    f.addFragments fragments = f.addFragments (usable fragments) := by
  induction fragments generalizing f with
  | nil => rfl
  | cons g fragments ih =>
    have hrest := ih fun f' hf' => hdata f' (mem_cons_of_mem g hf')
    by_cases hcount : g.count = 0
    · have hskip : f.addFragment g = f := if_pos (.inl hcount)
      rw [usable, filter_cons_of_neg (by simpa using hcount)]
      exact (congrArg (addFragments · fragments) hskip).trans (hrest f)
    · rw [usable, filter_cons_of_pos (by simpa using hcount)]
      exact hrest (f.addFragment g)

theorem pairs_written (series : GoMap Labels (List ChunkMeta)) :
    ((series.map (written sort)).filter fun _ chunks => !chunks.isEmpty).pairs.flatMap Prod.snd =
      series.pairs.flatMap fun e => written sort e.2 := by
  simp only [pairs, GoMap.filter, GoMap.map, flatMap_map, filter_map, Function.comp_def]
  induction series.entries with
  | nil => rfl
  | cons e entries ih =>
    rw [flatMap_cons, ← ih]
    cases hw : written sort e.2 <;> simp [hw]

theorem pairs_addFragments (hfragments : ∀ f ∈ fragments, f.count ≠ 0 ∧ f.data ≠ []) :
    (((new external).addFragments fragments).series.pairs.flatMap Prod.snd).Perm (fragments.map chunkOf) := by
  generalize hseries : ((new external).addFragments fragments).series = series
  have hget : ∀ ls, get series [] ls = (fragments.filter fun g => g.labels external = ls).map chunkOf := fun ls =>
    hseries ▸ (addFragments_spec (new external) hfragments).1 ls
  have hvalues : series.pairs.flatMap Prod.snd =
      ((series.pairs.map Prod.fst).flatMap fun ls => fragments.filter fun g => g.labels external = ls).map chunkOf := by
    rw [map_flatMap, flatMap_map]
    refine flatMap_congr fun e he => ?_
    rw [← hget, get_of_lookup (mem_pairs.mp he)]
  have hkeys : ∀ g ∈ fragments, g.labels external ∈ series.pairs.map Prod.fst := by
    intro g hg
    cases hl : series.lookup (g.labels external) with
    | some chunks => exact mem_map.mpr ⟨_, mem_pairs.mpr hl, rfl⟩
    | none =>
      have hnil := (hget (g.labels external)).symm.trans (get_of_lookup_none hl)
      exact (filter_eq_nil_iff.mp (map_eq_nil_iff.mp hnil) g hg (decide_eq_true rfl)).elim
  have hperm := flatMap_filter_key (fun g : Fragment => g.labels external) fragments
    (nodup_keys_range series (.stored _))
  rw [hvalues]
  refine (hperm.trans (.of_eq (filter_eq_self.mpr fun g hg => ?_))).map chunkOf
  exact decide_eq_true (hkeys g hg)

theorem sum_usable (hmeasures : ∀ f ∈ fragments, f.Measures xor) :
    ((usable fragments).map Fragment.count).sum = (fragments.map fun f => (f.samples xor).length).sum := by
  induction fragments with
  | nil => rfl
  | cons g fragments ih =>
    have hrest := ih fun f hf => hmeasures f (mem_cons_of_mem g hf)
    rw [map_cons, sum_cons, ← (hmeasures g mem_cons_self).1, ← hrest, usable, filter_cons]
    by_cases hcount : g.count = 0 <;> simp [hcount, usable]

/-- What a finalizer has collected: `chunksOf` are the chunks of a label set. -/
structure Collected (chunksOf : Labels → List ChunkMeta) (f : FragmentBlockFinalizer) : Prop where
  get : ∀ ls, get f.series [] ls = chunksOf ls
  span : ∀ ls, ∀ c ∈ chunksOf ls, c.minTime ≤ c.maxTime
  numChunks : f.numChunks = (f.series.pairs.flatMap Prod.snd).length

variable {chunksOf : Labels → List ChunkMeta} {f : FragmentBlockFinalizer}

theorem Collected.snd_eq (h : Collected chunksOf f) {e : Labels × List ChunkMeta} (he : e ∈ f.series.pairs) :
    e.2 = chunksOf e.1 := by
  rw [← h.get, get_of_lookup (mem_pairs.mp he)]

theorem Collected.apart (h : Collected chunksOf f)
    (hcount : f.numChunks = (f.series.pairs.flatMap fun e => written sort e.2).length) (ls : Labels) :
    (chunksOf ls).Pairwise Apart ∧ ∀ c ∈ chunksOf ls, minInt64 < c.minTime := by
  refine @apart_of_length_written sort _ (h.span ls) (not_lt.mp fun hlt => ?_)
  have hmem : (ls, chunksOf ls) ∈ f.series.pairs := by
    rw [mem_pairs, ← h.get]
    cases hl : f.series.lookup ls with
    | some chunks => rw [get_of_lookup hl]
    | none =>
      rw [← h.get, get_of_lookup_none hl] at hlt
      exact (Nat.not_lt_zero _ hlt).elim
  have hless := sum_lt_sum (fun e : Labels × List ChunkMeta => (written sort e.2).length) (fun e => e.2.length)
    (fun e _ => length_written_le e.2) ⟨_, hmem, hlt⟩
  rw [h.numChunks, length_flatMap, length_flatMap] at hcount
  exact hless.ne hcount.symm

theorem Collected.perm (h : Collected chunksOf f)
    (hapart : ∀ ls, (chunksOf ls).Pairwise Apart ∧ ∀ c ∈ chunksOf ls, minInt64 < c.minTime) :
    (f.series.pairs.flatMap fun e => written sort e.2).Perm (f.series.pairs.flatMap Prod.snd) := by
  refine Perm.flatMap_left _ fun e he => ?_
  rw [h.snd_eq he]
  exact written_perm sort (hapart e.1).1 (h.span e.1) (hapart e.1).2

/-- The statistics of an artifact are right exactly when no chunk is discarded for its place in time. -/
theorem blockOf_accurate_iff (xor : XorChunk) (hempty : xor.decode [] = none) (external : StringMap)
    (sort : SliceSort ChunkMeta.minTime) (fragments : List Fragment) (hmeasures : ∀ f ∈ fragments, f.Measures xor)
    (block : TSDBBlock) (hblock : blockOf external sort fragments = some block) :
    Accurate xor fragments block ↔ Separate external fragments := by
  have husable : ∀ g ∈ usable fragments, g ∈ fragments ∧ g.count ≠ 0 := fun g hg => by simpa [usable] using hg
  have hdata : ∀ g ∈ fragments, g.count ≠ 0 → g.data ≠ [] := by
    intro g hg hcount hnil
    rw [(hmeasures g hg).1, Fragment.samples, hnil, hempty] at hcount
    exact hcount rfl
  have hfragments : ∀ g ∈ usable fragments, g.count ≠ 0 ∧ g.data ≠ [] := fun g hg =>
    ⟨(husable g hg).2, hdata g (husable g hg).1 (husable g hg).2⟩
  have hall := @pairs_addFragments external _ hfragments
  obtain ⟨hget, hsamples, hcount⟩ := addFragments_spec (new external) hfragments
  have hcollected : Collected (fun ls => ((usable fragments).filter fun g => g.labels external = ls).map chunkOf)
      ((new external).addFragments (usable fragments)) := by
    refine ⟨hget, fun ls c hc => ?_, ?_⟩
    · obtain ⟨g, hg, rfl⟩ := mem_map.mp hc
      obtain ⟨hmem, hne⟩ := husable g (mem_filter.mp hg).1
      exact (hmeasures g hmem).span hne
    · rw [hall.length_eq, length_map, hcount]
      exact Nat.zero_add _
  rw [blockOf, addFragments_usable hdata, finalize] at hblock
  generalize (new external).addFragments (usable fragments) = f at hall hsamples hcount hcollected hblock
  split at hblock
  · cases hblock
  obtain rfl := Option.some.inj hblock
  have hchunks := @pairs_written sort f.series
  refine ⟨fun h => hcollected.apart (h.numChunks.trans (congrArg length hchunks)), fun h => ?_⟩
  have hwritten := (Perm.of_eq hchunks).trans ((hcollected.perm h).trans hall)
  have hsum : ((usable fragments).map chunkOf |>.map (ChunkMeta.numSamples xor)).sum = f.numSamples := by
    rw [hsamples, map_map]
    refine (congrArg sum (map_congr_left fun g hg => ?_)).trans (Nat.zero_add _).symm
    exact (hmeasures g (husable g hg).1).1.symm
  refine ⟨?_, ?_, rfl, fun ls => ?_, ?_⟩
  · exact hsum.symm.trans (hwritten.map _).sum_eq.symm
  · exact hcollected.numChunks.trans (hall.length_eq.trans hwritten.length_eq.symm)
  · rw [get_written, hcollected.get]
    refine (keepChunks_sorted (fun c hc => ?_) _).2
    exact hcollected.span ls c ((sort.perm _).mem_iff.mp hc)
  · rw [TSDBBlock.chunks, hwritten.diff_left, diff_self, ← sum_usable hmeasures]
    exact hsamples.trans (Nat.zero_add _)

def shippedBy (ops : List ColdOp) : List Fragment := (run plainChunk sampleConfig ops).shipped

theorem separate_of_pairwise (hapart : (usable fragments).Pairwise fun f g =>
      f.labels external = g.labels external → Apart (chunkOf f) (chunkOf g))
    (hstart : ∀ f ∈ usable fragments, minInt64 < (chunkOf f).minTime) : Separate external fragments := by
  intro ls
  constructor
  · refine pairwise_map.mpr ((hapart.filter _).imp_of_mem fun {f g} hf hg h => h ?_)
    exact (of_decide_eq_true (mem_filter.mp hf).2).trans (of_decide_eq_true (mem_filter.mp hg).2).symm
  · exact forall_mem_map.mpr fun f hf => hstart f (mem_filter.mp hf).1

/-- Chunks that do not overlap: the block says what it holds. -/
theorem blockOf_accurate_punctual : Separate .empty (shippedBy punctualOps) ∧
    ∃ block, blockOf .empty (.stable _) (shippedBy punctualOps) = some block ∧
      Accurate plainChunk (shippedBy punctualOps) block := by
  have hseparate : Separate .empty (shippedBy punctualOps) :=
    separate_of_pairwise (by unfold Apart; decide +kernel) (by decide +kernel)
  obtain ⟨block, hblock⟩ := Option.isSome_iff_exists.mp
    (by decide +kernel : (blockOf .empty (.stable _) (shippedBy punctualOps)).isSome = true)
  have hiff := blockOf_accurate_iff plainChunk (by decide +kernel) _ _ _ (by decide +kernel) block hblock
  exact ⟨hseparate, block, hblock, hiff.mpr hseparate⟩

/-- Two chunks that overlap: one is written, and both are counted. -/
theorem overlap_counted_twice :
    (∀ f ∈ shippedBy lateOps, f.Measures plainChunk) ∧
      (blockOf .empty (.stable _) (shippedBy lateOps)).map
          (fun b => (b.numChunks, b.chunks.length, b.numSamples,
            (b.chunks.map (ChunkMeta.numSamples plainChunk)).sum)) =
        some (2, 1, 4, 2) := by
  decide +kernel

end FragmentBlockFinalizer

end AsapCollector
