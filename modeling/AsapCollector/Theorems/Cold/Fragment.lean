import AsapCollector.Theorems.Cold.FragmentSeries

/-! A series is filed under its key with a state that accounts for its samples, or has no state and fragments and drops
account for them (`Inv`). -/

namespace AsapCollector.StreamingFragmentEncoder

open List Option TSDBSample FragmentSeriesState StreamingFragmentEncoder AList Fragment

variable {xor : XorChunk} (k : Bytes)

def acceptedFor (added : List TSDBSample) : List Sample := ofKey k (added.map entry)

variable (xor) in
def shippedFor (produced : List Fragment) : List Sample :=
  (fragmentsOf k produced).flatMap (samples xor)

variable (xor) in
/-- A key without a state: its fragments and drops account for its samples, and it has had fragments only if
a series has been evicted. -/
structure Settled (strict : Prop) (evicted : Nat) (k : Bytes) (produced : List Fragment)
    (dropped : List (SeriesId × Sample)) (accepted : List Sample) : Prop where
  conserved : accepted.Perm (ofKey k dropped ++ shippedFor xor k produced)
  ascending : strict → Ascending (shippedFor xor k produced)
  fresh : evicted = 0 → shippedFor xor k produced = []

variable (xor) in
/-- An encoder that has returned the fragments `sent`, has been given the samples `added`, and knows no other
series than `ids`. -/
structure Inv (strict : Prop) (limit : Nat) (e : StreamingFragmentEncoder) (sent : List Fragment)
    (added : List TSDBSample) (ids : List SeriesId) : Prop where
  limit_eq : e.samplesPerChk = limit
  tracked : ∀ k a, e.series.lookup k = some a → ∃ st, e.states[a]? = some st ∧ st.key = k ∧
    Tracks xor strict limit e.evicted (sent ++ e.queued) e.dropped st (acceptedFor k added)
  retired : ∀ a st, e.states[a]? = some st → e.series.lookup st.key ≠ some a → st.pending.toList = []
  settled : ∀ k, e.series.lookup k = none →
    Settled xor strict e.evicted k (sent ++ e.queued) e.dropped (acceptedFor k added)
  origin : ∀ st ∈ e.states, st.toSeriesId ∈ ids
  described : ∀ f ∈ sent ++ e.queued, f.Sound xor ∧ f.toSeriesId ∈ ids
  known : ∀ d ∈ e.dropped, d.1 ∈ ids
  reported : Reported sent e

variable (e : StreamingFragmentEncoder)

/-- The state a series key leads to. -/
def stateOf : Option FragmentSeriesState := (e.series.lookup k).bind fun a => e.states[a]?

def appended : Bool := (e.stateOf k).any hasLast

/-- A sample of a series whose state has appended nothing is later than every fragment of its key. -/
def Follows (sent : List Fragment) (s : TSDBSample) : Prop :=
  e.appended s.toSeriesId.key = false →
    ∀ f ∈ fragmentsOf s.toSeriesId.key (sent ++ e.queued), f.maxTime < s.point.time

theorem pairwise_fragments {fs : List Fragment} (h : ∀ k, Ascending (shippedFor xor k fs)) :
    fs.Pairwise fun f g => f.toSeriesId.key = g.toSeriesId.key →
      ∀ p ∈ f.samples xor, ∀ q ∈ g.samples xor, p.time < q.time := by
  induction fs with
  | nil => exact .nil
  | cons f fs ih =>
    have hsplit : ∀ k, shippedFor xor k (f :: fs) = (if f.toSeriesId.key = k then f.samples xor else []) ++
        shippedFor xor k fs := by
      intro k
      by_cases hk : f.toSeriesId.key = k <;> simp [hk, shippedFor, fragmentsOf]
    refine pairwise_cons.mpr ⟨fun g hg hkey p hp q hq => ?_, ih fun k => ?_⟩
    · have hasc := h f.toSeriesId.key
      rw [hsplit, if_pos rfl, Ascending, pairwise_append] at hasc
      exact hasc.2.2 p hp q (mem_flatMap.mpr ⟨g, mem_filter.mpr ⟨hg, decide_eq_true hkey.symm⟩, hq⟩)
    · have hasc := h k
      rw [hsplit, Ascending, pairwise_append] at hasc
      exact hasc.2.1

theorem set_state {states : List FragmentSeriesState} {a : Nat} {st : FragmentSeriesState}
    (hst : states[a]? = some st) : states.set a st = states := by
  obtain ⟨hlt, hget⟩ := List.getElem?_eq_some_iff.mp hst
  rw [← hget, set_getElem_self]

theorem visit_eq {e : StreamingFragmentEncoder} {a : Nat} {st : FragmentSeriesState} (hst : e.states[a]? = some st)
    (f : StreamingFragmentEncoder → FragmentSeriesState → StreamingFragmentEncoder × FragmentSeriesState) :
    e.visit a f = { (f e st).1 with states := (f e st).1.states.set a (f e st).2 } := by
  rw [visit, hst]

theorem acceptedFor_append (added : List TSDBSample) (s : TSDBSample) :
    acceptedFor k (added ++ [s]) = acceptedFor k added ++ if s.toSeriesId.key = k then [s.point] else [] := by
  rw [acceptedFor, map_append, ofKey_append, ← acceptedFor]
  by_cases hk : s.toSeriesId.key = k <;> simp [ofKey, entry, hk]

theorem shippedFor_append (fs gs : List Fragment) :
    shippedFor xor k (fs ++ gs) = shippedFor xor k fs ++ shippedFor xor k gs := by
  rw [shippedFor, fragmentsOf_append, flatMap_append, shippedFor, shippedFor]

theorem shippedFor_attributeResidual :
    shippedFor xor k e.attributeResidual.queued = shippedFor xor k e.queued := by
  unfold attributeResidual
  split
  · rename_i last hlast
    split
    · obtain ⟨fs, hfs⟩ := getLast?_eq_some_iff.mp hlast
      rw [hfs, dropLast_concat, shippedFor_append, shippedFor_append]
      by_cases hk : last.toSeriesId.key = k <;> simp [shippedFor, fragmentsOf, samples, hk]
    · rfl
  · rfl

theorem attributeResidual_eq : ∃ queued reported,
    e.attributeResidual = { e with queued := queued, lastReportedDropped := reported } := by
  unfold attributeResidual
  split
  · split <;> exact ⟨_, _, rfl⟩
  · exact ⟨_, _, rfl⟩

theorem getSeries_keeps (id : SeriesId) :
    (e.getSeries id).1.queued = e.queued ∧ (e.getSeries id).1.evicted = e.evicted ∧
      ∀ st, (e.getSeries id).1.states[(e.getSeries id).2]? = some st → st.hasLast = false →
        e.appended id.key = false := by
  unfold getSeries appended stateOf
  cases hlookup : e.series.lookup id.key with
  | none => exact ⟨rfl, rfl, fun _ _ _ => rfl⟩
  | some a =>
    refine ⟨rfl, rfl, fun st hst hlast => ?_⟩
    rw [bind_some, hst, any_some, hlast]

theorem sweepEvictions_keeps :
    e.sweepEvictions.queued = e.queued ∧ e.sweepEvictions.dropped = e.dropped ∧
      e.sweepEvictions.lastReportedDropped = e.lastReportedDropped := by
  have hentry : ∀ (e : StreamingFragmentEncoder) entry, (e.evictEntry entry).queued = e.queued ∧
      (e.evictEntry entry).dropped = e.dropped ∧ (e.evictEntry entry).lastReportedDropped = e.lastReportedDropped := by
    intro e entry
    unfold evictEntry visit
    split
    · exact ⟨rfl, rfl, rfl⟩
    · dsimp only
      repeat' split
      all_goals exact ⟨rfl, rfl, rfl⟩
  have hloop : ∀ (cutoff : Int) (rounds : Nat) (e : StreamingFragmentEncoder),
      (sweepEvictionsLoop cutoff rounds e).queued = e.queued ∧
        (sweepEvictionsLoop cutoff rounds e).dropped = e.dropped ∧
        (sweepEvictionsLoop cutoff rounds e).lastReportedDropped = e.lastReportedDropped := by
    intro cutoff rounds
    induction rounds with
    | zero => exact fun e => ⟨rfl, rfl, rfl⟩
    | succ rounds ih =>
      intro e
      rw [sweepEvictionsLoop]
      split
      · exact ⟨rfl, rfl, rfl⟩
      · rename_i entry queue _
        obtain ⟨hqueued, hdropped, hreported⟩ := ih ({ e with evictQueue := queue }.evictEntry entry)
        obtain ⟨hqueued', hdropped', hreported'⟩ := hentry { e with evictQueue := queue } entry
        exact ⟨hqueued.trans hqueued', hdropped.trans hdropped', hreported.trans hreported'⟩
  unfold sweepEvictions
  split
  · exact ⟨rfl, rfl, rfl⟩
  · exact hloop _ _ e

section
variable {strict : Prop} {limit n : Nat} {e e' : StreamingFragmentEncoder} {sent produced : List Fragment}
  {added : List TSDBSample} {dropped : List (SeriesId × Sample)} {accepted : List Sample} {ids : List SeriesId}
  {st : FragmentSeriesState} {a : Nat}

theorem accept_eq (hst : e.states[a]? = some st) (p : Sample) : ∃ drainQueue, e.accept a p = { e with
    states := e.states.set a { st with
      lastActive := max st.lastActive p.time, pending := Heap.push Sample.time st.pending p }
    drainQueue := drainQueue } := by
  unfold accept
  rw [hst]
  dsimp only
  split <;> exact ⟨_, rfl⟩

theorem evictEntry_cases {entry : Int × Nat} (hst : e.states[entry.2]? = some st) :
    ((e.series.lookup st.key = some entry.2 → ¬ entry.1 < st.lastActive ∧
        ((0 < st.pending.size ∨ st.openChunk.isSome = true ∨ 0 < st.openCount) ∨
          e.maxObserved - st.lastActive ≤ e.idleEvictMs)) ∧
      e.evictEntry entry = { e with states := e.states.set entry.2 { st with inEvictQueue := false } }) ∨
    (entry.1 < st.lastActive ∧ e.evictEntry entry =
      { e with
        evictQueue := Heap.push Prod.fst e.evictQueue (st.lastActive, entry.2), states := e.states.set entry.2 st }) ∨
    (e.series.lookup st.key = some entry.2 ∧ ¬ (0 < st.pending.size ∨ st.openChunk.isSome = true ∨ 0 < st.openCount) ∧
      e.evictEntry entry = { e with
        series := e.series.erase st.key
        evicted := e.evicted + 1
        states := e.states.set entry.2 { st with inEvictQueue := false } }) := by
  rw [evictEntry, visit_eq hst]
  by_cases hfiled : e.series.lookup st.key = some entry.2
  · rw [if_neg (not_not.mpr hfiled)]
    by_cases hnewer : entry.1 < st.lastActive
    · rw [if_pos hnewer]
      exact .inr (.inl ⟨hnewer, rfl⟩)
    · rw [if_neg hnewer]
      split
      · rename_i hopen
        exact .inl ⟨fun _ => ⟨hnewer, .inl hopen⟩, rfl⟩
      · rename_i hrest
        split
        · rename_i hactive
          exact .inl ⟨fun _ => ⟨hnewer, .inr hactive⟩, rfl⟩
        · exact .inr (.inr ⟨hfiled, hrest, rfl⟩)
  · rw [if_pos hfiled]
    exact .inl ⟨fun h => absurd h hfiled, rfl⟩

theorem Tracks.push {s : TSDBSample}
    (h : Tracks xor strict limit n produced dropped st (acceptedFor st.key added)) (lastActive : Int)
    (hkey : st.key = s.toSeriesId.key)
    (hlater : strict → st.hasLast = false → ∀ p ∈ line xor produced st, p.time < s.point.time) :
    Tracks xor strict limit n produced dropped
      { st with lastActive := lastActive, pending := Heap.push Sample.time st.pending s.point }
      (acceptedFor st.key (added ++ [s])) := by
  have hpush := Heap.perm_push Sample.time st.pending s.point
  refine ⟨h.key_eq, ⟨h.chunk.count, h.chunk.spans⟩, h.small, h.ascending, h.bounded, ?_,
    fun hs => ⟨(h.ordered hs).ascending, ?_⟩⟩
  · rw [acceptedFor_append, if_pos hkey.symm]
    refine (h.conserved.append_right _).trans ?_
    rw [append_assoc, append_assoc]
    refine Perm.append_left _ (Perm.append_left _ ?_)
    exact (perm_append_singleton _ _).trans hpush.symm
  · intro p hp
    refine ((h.ordered hs).bounded p hp).imp_right fun ⟨hevicted, hlast, hpending⟩ => ⟨hevicted, hlast, fun q hq => ?_⟩
    rcases mem_cons.mp (hpush.mem_iff.mp hq) with rfl | hq
    · exact hlater hs hlast p hp
    · exact hpending q hq

section
variable (h : Tracks xor strict limit n produced dropped st accepted)
include h

theorem Tracks.flag (b : Bool) :
    Tracks xor strict limit n produced dropped { st with inEvictQueue := b } accepted :=
  ⟨h.key_eq, ⟨h.chunk.count, h.chunk.spans⟩, h.small, h.ascending, h.bounded, h.conserved, fun hs =>
    ⟨(h.ordered hs).ascending, (h.ordered hs).bounded⟩⟩

theorem Tracks.evicted :
    Tracks xor strict limit (n + 1) produced dropped st accepted :=
  { h with ordered := fun hs => ⟨(h.ordered hs).ascending, fun p hp =>
      ((h.ordered hs).bounded p hp).imp_right fun hb => ⟨Nat.succ_ne_zero _, hb.2⟩⟩ }

theorem Tracks.settled
    (hpending : st.pending.toList = []) (hclosed : st.openChunk = none) :
    accepted.Perm (ofKey st.key dropped ++ shippedFor xor st.key produced) ∧
      (strict → Ascending (shippedFor xor st.key produced)) := by
  have hline : line xor produced st = shippedFor xor st.key produced := by
    rw [line, openSamples, hclosed, getD_none, append_nil, shippedFor]
  refine ⟨?_, fun hs => hline ▸ (h.ordered hs).ascending⟩
  have hconserved := h.conserved
  rwa [hpending, append_nil, hline] at hconserved

end

theorem Inv.new (opts : StreamingFragmentOptions) :
    Inv xor strict (new opts).samplesPerChk (.new opts) [] [] [] where
  limit_eq := rfl
  tracked := fun _ _ h => by cases h
  retired := fun _ _ h => by cases h
  settled := fun _ _ => ⟨.refl _, fun _ => .nil, fun _ => rfl⟩
  origin := fun _ hst => absurd hst not_mem_nil
  described := fun _ hf => absurd hf not_mem_nil
  known := fun _ hd => absurd hd not_mem_nil
  reported := ⟨rfl, Nat.le_refl _⟩

variable (hxor : xor.LosslessUpTo limit) (hpos : 0 < limit) (h : Inv xor strict limit e sent added ids)
include h

theorem Inv.tracks_of (hst : e.states[a]? = some st)
    (hfiled : e.series.lookup st.key = some a) :
    Tracks xor strict limit e.evicted (sent ++ e.queued) e.dropped st (acceptedFor st.key added) := by
  obtain ⟨st', hst', -, htracks⟩ := h.tracked _ _ hfiled
  obtain rfl : st = st' := some.inj (hst.symm.trans hst')
  exact htracks

/-- Work on the state a series is filed with: the encoder's invariant follows from what the work does for
that state and from its leaving the series of other keys alone. -/
theorem Inv.replace {added' : List TSDBSample} {st st' : FragmentSeriesState}
    (hst : e.states[a]? = some st) (hfiled : e.series.lookup st.key = some a)
    (hlimit : e'.samplesPerChk = e.samplesPerChk) (hevicted : e'.evicted = e.evicted)
    (hstates : e'.states = e.states.set a st') (hseries : e'.series = e.series) (hid : st'.toSeriesId = st.toSeriesId)
    (htracks : Tracks xor strict limit e.evicted (sent ++ e'.queued) e'.dropped st' (acceptedFor st'.key added'))
    (hother : ∀ (k : Bytes), k ≠ st.key → shippedFor xor k (sent ++ e'.queued) = shippedFor xor k (sent ++ e.queued) ∧
      ofKey k e'.dropped = ofKey k e.dropped ∧ acceptedFor k added' = acceptedFor k added)
    (hqueued : ∀ f ∈ e'.queued, f ∈ e.queued ∨ f.Sound xor ∧ f.toSeriesId = st.toSeriesId)
    (hdropped : ∀ d ∈ e'.dropped, d ∈ e.dropped ∨ d.1 = st.toSeriesId) (hreported : Reported sent e') :
    Inv xor strict limit e' sent added' ids := by
  have hkey : st'.key = st.key := by rw [htracks.key_eq, hid, ← (h.tracks_of hst hfiled).key_eq]
  have hset : (e.states.set a st')[a]? = some st' := getElem?_set_self (List.getElem?_eq_some_iff.mp hst).1
  have hmem : st ∈ e.states := mem_of_getElem? hst
  refine ⟨hlimit.trans h.limit_eq, ?_, ?_, ?_, ?_, ?_, ?_, hreported⟩
  · rw [hstates, hseries, hevicted]
    intro k b hk
    by_cases hsame : k = st.key
    · subst hsame
      obtain rfl : a = b := some.inj (hfiled.symm.trans hk)
      exact ⟨st', hset, hkey, hkey ▸ htracks⟩
    · obtain ⟨st₀, hb, rfl, htracks₀⟩ := h.tracked k b hk
      have hab : a ≠ b := by
        rintro rfl
        exact hsame (congrArg _ (some.inj (hb.symm.trans hst)))
      obtain ⟨hfrags, hdrops, hacc⟩ := hother _ hsame
      exact ⟨st₀, by rw [getElem?_set_ne hab, hb], rfl, hacc ▸ htracks₀.congr hfrags hdrops⟩
  · rw [hstates, hseries]
    intro b st₀ hb hnot
    by_cases hab : a = b
    · subst hab
      obtain rfl : st' = st₀ := some.inj (hset.symm.trans hb)
      exact absurd (hkey ▸ hfiled) hnot
    · exact h.retired b st₀ (by rwa [getElem?_set_ne hab] at hb) hnot
  · rw [hseries, hevicted]
    intro k hk
    have hne : k ≠ st.key := by
      rintro rfl
      rw [hk] at hfiled
      cases hfiled
    obtain ⟨hfrags, hdrops, hacc⟩ := hother k hne
    have hsettled := h.settled k hk
    exact ⟨by rw [hfrags, hdrops, hacc]; exact hsettled.conserved, hfrags ▸ hsettled.ascending, hfrags ▸ hsettled.fresh⟩
  · rw [hstates]
    intro st₀ hst₀
    rcases mem_or_eq_of_mem_set hst₀ with hst₀ | rfl
    · exact h.origin st₀ hst₀
    · exact hid ▸ h.origin st hmem
  · refine forall_mem_append.mpr ⟨fun f hf => h.described f (mem_append_left _ hf), fun f hf => ?_⟩
    rcases hqueued f hf with hf | ⟨hsound, hf⟩
    · exact h.described f (mem_append_right _ hf)
    · exact ⟨hsound, hf ▸ h.origin st hmem⟩
  · intro d hd
    rcases hdropped d hd with hd | hd
    · exact h.known d hd
    · exact hd ▸ h.origin st hmem

theorem Inv.advance (hst : e.states[a]? = some st)
    (hfiled : e.series.lookup st.key = some a)
    {f : StreamingFragmentEncoder → FragmentSeriesState → StreamingFragmentEncoder × FragmentSeriesState}
    (hadv : Advances xor strict limit e.evicted sent (acceptedFor st.key added) e st (f e st)) :
    Inv xor strict limit (e.visit a f) sent added ids := by
  have htracks := h.tracks_of hst hfiled
  rw [visit_eq hst]
  generalize f e st = r at hadv
  obtain ⟨fs, hfs, hown⟩ := hadv.extends_.queued
  obtain ⟨ds, hds, hid⟩ := hadv.extends_.dropped
  have hkey : r.2.key = st.key := by rw [hadv.tracks.key_eq, hadv.same, ← htracks.key_eq]
  refine h.replace hst hfiled hadv.extends_.samplesPerChk hadv.extends_.evicted
    (by dsimp only; rw [hadv.extends_.states])
    hadv.extends_.series hadv.same (hkey ▸ hadv.tracks) (fun k hne => ⟨?_, ?_, rfl⟩) (fun g hg => ?_) (fun d hd => ?_)
      ?_
  · have hnil : fragmentsOf k fs = [] := fragmentsOf_eq_nil fun f hf => (hown f hf).1 ▸ htracks.key_eq ▸ hne.symm
    rw [hfs, ← append_assoc, shippedFor, fragmentsOf_append, hnil, append_nil, shippedFor]
  · have hnil : ofKey k ds = [] := ofKey_eq_nil fun d hd => hid d hd ▸ htracks.key_eq ▸ hne.symm
    rw [hds, ofKey_append, hnil, append_nil]
  · exact (mem_append.mp (hfs ▸ hg)).imp_right fun hg => ⟨(hown g hg).2, (hown g hg).1⟩
  · exact (mem_append.mp (hds ▸ hd)).imp_right (hid d)
  · exact ⟨(hadv.extends_.reported sent h.reported).sum, (hadv.extends_.reported sent h.reported).le⟩

theorem Inv.tracks_new (hpos : 0 < limit) {id : SeriesId}
    (hnone : e.series.lookup id.key = none) :
    Tracks xor strict limit e.evicted (sent ++ e.queued) e.dropped (.new id) (acceptedFor id.key added) := by
  have hsettled := h.settled _ hnone
  have hline : line xor (sent ++ e.queued) (.new id) = shippedFor xor id.key (sent ++ e.queued) := append_nil _
  refine ⟨rfl, ⟨rfl, fun _ hc => by cases hc⟩, hpos, .nil, fun _ hp => absurd hp not_mem_nil, ?_, fun hs => ?_⟩
  · rw [hline]
    exact hsettled.conserved.trans (by rw [FragmentSeriesState.new, append_nil])
  · refine ⟨hline ▸ hsettled.ascending hs, fun p hp => .inr ⟨fun hzero => ?_, rfl, fun _ hq => absurd hq not_mem_nil⟩⟩
    rw [hline, hsettled.fresh hzero] at hp
    exact absurd hp not_mem_nil

theorem Inv.getSeries (hpos : 0 < limit) (id : SeriesId) :
    Inv xor strict limit (e.getSeries id).1 sent added (ids ++ [id]) ∧
      ∃ st, (e.getSeries id).1.states[(e.getSeries id).2]? = some st ∧ st.key = id.key ∧
        (e.getSeries id).1.series.lookup id.key = some (e.getSeries id).2 := by
  have horigin : ∀ st ∈ e.states, st.toSeriesId ∈ ids ++ [id] := fun st hst => mem_append_left _ (h.origin st hst)
  have hdescribed : ∀ f ∈ sent ++ e.queued, f.Sound xor ∧ f.toSeriesId ∈ ids ++ [id] := fun f hf =>
    ⟨(h.described f hf).1, mem_append_left _ (h.described f hf).2⟩
  have hknown : ∀ d ∈ e.dropped, d.1 ∈ ids ++ [id] := fun d hd => mem_append_left _ (h.known d hd)
  unfold StreamingFragmentEncoder.getSeries
  cases hlookup : e.series.lookup id.key with
  | some a =>
    obtain ⟨st, hst, hkey, -⟩ := h.tracked _ a hlookup
    exact ⟨{ h with origin := horigin, described := hdescribed, known := hknown }, st, hst, hkey, hlookup⟩
  | none =>
    have hnew : (e.states ++ [FragmentSeriesState.new id])[e.states.length]? = some (.new id) := by simp
    refine ⟨⟨h.limit_eq, ?_, ?_, ?_, ?_, hdescribed, hknown, ⟨h.reported.sum, h.reported.le⟩⟩,
      ⟨.new id, hnew, rfl, lookup_insert _⟩⟩ <;> dsimp only
    · refine GoMap.forall_lookup_insert (fun k a hk => ?_) ⟨_, hnew, rfl, h.tracks_new hpos hlookup⟩
      obtain ⟨st, hst, hst', htracks⟩ := h.tracked k a hk
      exact ⟨st, by rw [getElem?_append_left (List.getElem?_eq_some_iff.mp hst).1, hst], hst', htracks⟩
    · intro b st hb hnot
      rcases lt_or_ge b e.states.length with hlt | hge
      · rw [getElem?_append_left hlt] at hb
        refine h.retired b st hb fun hfiled => hnot ?_
        rw [lookup_insert_ne fun hkey => ?_, hfiled]
        rw [hkey, hlookup] at hfiled
        cases hfiled
      · rw [getElem?_append_right hge, getElem?_singleton] at hb
        split at hb
        · rw [← some.inj hb]
          rfl
        · cases hb
    · intro k hk
      have hkey : k ≠ id.key := by
        rintro rfl
        rw [lookup_insert] at hk
        cases hk
      exact h.settled k (by rwa [lookup_insert_ne hkey] at hk)
    · exact forall_mem_append.mpr ⟨horigin, forall_mem_singleton.mpr (mem_append_right _ (mem_singleton.mpr rfl))⟩

theorem Inv.accept {s : TSDBSample}
    (hst : e.states[a]? = some st) (hkey : st.key = s.toSeriesId.key) (hfiled : e.series.lookup st.key = some a)
    (hlater : strict → st.hasLast = false → ∀ p ∈ line xor (sent ++ e.queued) st, p.time < s.point.time) :
    Inv xor strict limit (e.accept a s.point) sent (added ++ [s]) ids ∧ (e.accept a s.point).evicted = e.evicted := by
  have hpush := (h.tracks_of hst hfiled).push (max st.lastActive s.point.time) hkey hlater
  have hother : ∀ k, k ≠ st.key → acceptedFor k (added ++ [s]) = acceptedFor k added := by
    intro k hne
    rw [acceptedFor_append, if_neg (hkey ▸ hne.symm), append_nil]
  obtain ⟨drainQueue, heq⟩ := accept_eq hst s.point
  rw [heq]
  exact ⟨h.replace hst hfiled rfl rfl rfl rfl rfl hpush (fun k hk => ⟨rfl, rfl, hother k hk⟩) (fun _ hf => .inl hf)
    (fun _ hd => .inl hd) ⟨h.reported.sum, h.reported.le⟩, rfl⟩

theorem Inv.requeue (a : Nat) :
    Inv xor strict limit (e.requeue a) sent added ids := by
  unfold StreamingFragmentEncoder.requeue
  split
  · exact h
  · exact { h with reported := ⟨h.reported.sum, h.reported.le⟩ }

/-! ### Eviction -/

theorem Inv.flag (hst : e.states[a]? = some st) (b : Bool) :
    Inv xor strict limit { e with states := e.states.set a { st with inEvictQueue := b } } sent added ids := by
  by_cases hfiled : e.series.lookup st.key = some a
  · exact h.replace hst hfiled rfl rfl rfl rfl rfl ((h.tracks_of hst hfiled).flag b) (fun _ _ => ⟨rfl, rfl, rfl⟩)
      (fun _ hf => .inl hf) (fun _ hd => .inl hd) ⟨h.reported.sum, h.reported.le⟩
  · refine ⟨h.limit_eq, ?_, ?_, h.settled, ?_, h.described, h.known, ⟨h.reported.sum, h.reported.le⟩⟩ <;> dsimp only
    · intro k c hk
      obtain ⟨st₀, hst₀, hkey, htracks⟩ := h.tracked k c hk
      refine ⟨st₀, ?_, hkey, htracks⟩
      rw [getElem?_set_ne, hst₀]
      rintro rfl
      obtain rfl : st = st₀ := some.inj (hst.symm.trans hst₀)
      exact hfiled (hkey ▸ hk)
    · intro c st₀ hc hnot
      by_cases hac : a = c
      · subst hac
        rw [getElem?_set_self (List.getElem?_eq_some_iff.mp hst).1] at hc
        rw [← some.inj hc]
        exact h.retired a st hst hfiled
      · exact h.retired c st₀ (by rwa [getElem?_set_ne hac] at hc) hnot
    · intro st₀ hst₀
      rcases mem_or_eq_of_mem_set hst₀ with hst₀ | rfl
      · exact h.origin st₀ hst₀
      · exact h.origin st (mem_of_getElem? hst)

theorem Inv.evict (hst : e.states[a]? = some st)
    (hfiled : e.series.lookup st.key = some a) (hpending : st.pending.toList = []) (hclosed : st.openChunk = none) :
    Inv xor strict limit { e with series := e.series.erase st.key, evicted := e.evicted + 1 } sent added ids := by
  obtain ⟨hconserved, hascending⟩ := (h.tracks_of hst hfiled).settled hpending hclosed
  refine ⟨h.limit_eq, ?_, ?_, ?_, h.origin, h.described, h.known, ⟨h.reported.sum, h.reported.le⟩⟩ <;> dsimp only
  · intro k b hk
    have hne : k ≠ st.key := by
      rintro rfl
      rw [lookup_erase] at hk
      cases hk
    rw [lookup_erase_ne hne] at hk
    obtain ⟨st₀, hst₀, hkey, htracks⟩ := h.tracked k b hk
    exact ⟨st₀, hst₀, hkey, htracks.evicted⟩
  · intro b st₀ hb hnot
    by_cases hsame : e.series.lookup st₀.key = some b
    · have hkey : st₀.key = st.key := by
        by_contra hne
        exact hnot (by rw [lookup_erase_ne hne, hsame])
      obtain rfl : a = b := some.inj (hfiled.symm.trans (hkey ▸ hsame))
      exact some.inj (hst.symm.trans hb) ▸ hpending
    · exact h.retired b st₀ hb hsame
  · intro k hk
    by_cases hsame : k = st.key
    · subst hsame
      exact ⟨hconserved, hascending, fun hzero => absurd hzero (Nat.succ_ne_zero _)⟩
    · have hsettled := h.settled k (by rwa [lookup_erase_ne hsame] at hk)
      exact ⟨hsettled.conserved, hsettled.ascending, fun hzero => absurd hzero (Nat.succ_ne_zero _)⟩

theorem Inv.evictEntry (entry : Int × Nat) :
    Inv xor strict limit (e.evictEntry entry) sent added ids := by
  cases hst : e.states[entry.2]? with
  | none => rw [StreamingFragmentEncoder.evictEntry, visit, hst]; exact h
  | some st =>
    have hflag := h.flag hst false
    rcases evictEntry_cases hst with ⟨-, heq⟩ | ⟨-, heq⟩ | ⟨hfiled, hrest, heq⟩ <;> rw [heq]
    · exact hflag
    · rw [set_state hst]
      exact { h with reported := ⟨h.reported.sum, h.reported.le⟩ }
    · -- idle, with nothing pending and no open chunk
      obtain ⟨hpending, hclosed, -⟩ : st.pending.toList = [] ∧ st.openChunk = none ∧ st.openCount = 0 := by
        simpa using hrest
      have hset : (e.states.set entry.2 { st with inEvictQueue := false })[entry.2]? =
        some { st with inEvictQueue := false } :=
        getElem?_set_self (List.getElem?_eq_some_iff.mp hst).1
      have hevict := hflag.evict hset hfiled hpending hclosed
      exact hevict

theorem Inv.sweepEvictions :
    Inv xor strict limit e.sweepEvictions sent added ids := by
  have hloop : ∀ (cutoff : Int) (rounds : Nat) {e : StreamingFragmentEncoder}, Inv xor strict limit e sent added ids →
      Inv xor strict limit (sweepEvictionsLoop cutoff rounds e) sent added ids := by
    intro cutoff rounds
    induction rounds with
    | zero => exact fun h => h
    | succ rounds ih =>
      intro e h
      rw [sweepEvictionsLoop]
      split
      · exact h
      · rename_i entry queue _
        have hpopped : Inv xor strict limit { e with evictQueue := queue } sent added ids :=
          { h with reported := ⟨h.reported.sum, h.reported.le⟩ }
        exact ih (hpopped.evictEntry entry)
  unfold StreamingFragmentEncoder.sweepEvictions
  split
  · exact h
  · exact hloop _ _ h

/-! ### Returning the fragments -/

theorem Inv.transfer {sent' : List Fragment}
    (hlimit : e'.samplesPerChk = e.samplesPerChk) (hstates : e'.states = e.states) (hseries : e'.series = e.series)
    (hevicted : e'.evicted = e.evicted) (hdropped : e'.dropped = e.dropped)
    (hshipped : ∀ k, shippedFor xor k (sent' ++ e'.queued) = shippedFor xor k (sent ++ e.queued))
    (hdescribed : ∀ f ∈ sent' ++ e'.queued, f.Sound xor ∧ f.toSeriesId ∈ ids) (hreported : Reported sent' e') :
    Inv xor strict limit e' sent' added ids := by
  refine ⟨hlimit.trans h.limit_eq, ?_, by rw [hstates, hseries]; exact h.retired, ?_, by rw [hstates]; exact h.origin,
    hdescribed, by rw [hdropped]; exact h.known, hreported⟩
  · rw [hstates, hseries, hevicted, hdropped]
    intro k a hk
    obtain ⟨st, hst, rfl, htracks⟩ := h.tracked k a hk
    exact ⟨st, hst, rfl, htracks.congr (hshipped _) rfl⟩
  · rw [hseries, hevicted, hdropped]
    intro k hk
    have hsettled := h.settled k hk
    exact ⟨hshipped k ▸ hsettled.conserved, hshipped k ▸ hsettled.ascending, hshipped k ▸ hsettled.fresh⟩

theorem Inv.attributeResidual :
    Inv xor strict limit e.attributeResidual sent added ids ∧
      (e.attributeResidual.queued ≠ [] → e.attributeResidual.lastReportedDropped =
        e.attributeResidual.dropped.length) := by
  have hshipped : ∀ k, shippedFor xor k (sent ++ e.attributeResidual.queued) = shippedFor xor k (sent ++ e.queued) := by
    intro k
    rw [shippedFor_append, shippedFor_attributeResidual, shippedFor_append]
  unfold StreamingFragmentEncoder.attributeResidual at hshipped ⊢
  cases hlast : e.queued.getLast? with
  | none => exact ⟨h, fun hne => absurd (getLast?_eq_none_iff.mp hlast) hne⟩
  | some last =>
    rw [hlast] at hshipped
    dsimp only at hshipped ⊢
    split
    · rename_i hlt
      rw [if_pos hlt] at hshipped
      obtain ⟨fs, hfs⟩ := getLast?_eq_some_iff.mp hlast
      refine ⟨h.transfer rfl rfl rfl rfl rfl hshipped (fun f hf => ?_) ⟨?_, Nat.le_refl _⟩, fun _ => rfl⟩
      · obtain ⟨hsound, hid⟩ := h.described last (mem_append_right _ (mem_of_getLast? hlast))
        rw [hfs, dropLast_concat, ← append_assoc] at hf
        rcases mem_append.mp hf with hf | hf
        · exact h.described f (by rw [hfs, ← append_assoc]; exact mem_append_left _ hf)
        · rw [mem_singleton.mp hf]
          exact ⟨⟨⟨hsound.data, hsound.count, hsound.spans⟩, hsound.ascending⟩, hid⟩
      · have hsum := h.reported.sum
        rw [hfs, dropLast_concat]
        rw [hfs] at hsum
        simp only [map_append, sum_append, map_singleton, sum_singleton] at hsum ⊢
        omega
    · exact ⟨h, fun _ => Nat.le_antisymm h.reported.le (by omega)⟩

include hxor hpos

theorem Inv.visitDrain (a : Nat) (watermark : Int) :
    Inv xor strict limit (e.visit a (drainSeries xor a watermark)) sent added ids ∧
      (e.visit a (drainSeries xor a watermark)).evicted = e.evicted := by
  cases hst : e.states[a]? with
  | none => rw [visit, hst]; exact ⟨h, rfl⟩
  | some st =>
    by_cases hfiled : e.series.lookup st.key = some a
    · have hadv := drainSeries_advances hxor hpos a watermark h.limit_eq (h.tracks_of hst hfiled)
      exact ⟨h.advance hst hfiled hadv, by rw [visit_eq hst]; exact hadv.extends_.evicted⟩
    · have hnothing : e.drainSeries xor a watermark st = (e, st) := by
        have hsize : st.pending.size = 0 := by simpa using congrArg length (h.retired a st hst hfiled)
        rw [drainSeries, hsize, drainSeriesLoop]
      rw [visit_eq hst, hnothing, set_state hst]
      exact ⟨h, rfl⟩

theorem Inv.drainReadyLoop (watermark : Int) (rounds : Nat) :
    Inv xor strict limit (drainReadyLoop xor watermark rounds e) sent added ids ∧
      (drainReadyLoop xor watermark rounds e).evicted = e.evicted := by
  induction rounds generalizing e with
  | zero => exact ⟨h, rfl⟩
  | succ rounds ih =>
    rw [drainReadyLoop]
    split
    · exact ⟨h, rfl⟩
    · rename_i entry queue _
      have hpopped : Inv xor strict limit { e with drainQueue := queue } sent added ids :=
        { h with reported := ⟨h.reported.sum, h.reported.le⟩ }
      obtain ⟨hvisit, hevicted⟩ := hpopped.visitDrain hxor hpos entry.2 watermark
      obtain ⟨hloop, hevicted'⟩ := ih (hvisit.requeue entry.2)
      refine ⟨hloop, hevicted'.trans (Eq.trans ?_ hevicted)⟩
      unfold StreamingFragmentEncoder.requeue
      split <;> rfl

theorem Inv.addSample (s : TSDBSample)
    (hlater : strict → e.evicted = 0 ∨ e.Follows sent s) :
    Inv xor strict limit (e.addSample xor s) sent (added ++ [s]) (ids ++ [s.toSeriesId]) ∧
      (e.addSample xor s).evicted = e.evicted := by
  have hobserved : Inv xor strict limit { e with maxObserved := max e.maxObserved s.point.time } sent added ids :=
    { h with reported := ⟨h.reported.sum, h.reported.le⟩ }
  obtain ⟨hinv, st, hst, hkey, hfiled⟩ := hobserved.getSeries hpos s.toSeriesId
  obtain ⟨hqueued, hevicted, hfresh⟩ := getSeries_keeps { e with maxObserved := max e.maxObserved s.point.time }
    s.toSeriesId
  have hfiled' := hkey ▸ hfiled
  have htracks := hinv.tracks_of hst hfiled'
  have haccept := hinv.accept hst hkey hfiled' fun hs hlast p hp => ?_
  · exact (haccept.1.drainReadyLoop hxor hpos _ _).imp_right fun hsame => hsame.trans (haccept.2.trans hevicted)
  · -- a state that has appended nothing only has fragments before it if a series has been evicted
    obtain hbefore | ⟨hne, -, -⟩ := (htracks.ordered hs).bounded p hp
    · exact absurd hbefore.1 (by simp [hlast])
    have hfollows := (hlater hs).resolve_left (hevicted ▸ hne) (hfresh st hst hlast)
    rcases mem_append.mp hp with hp | hp
    · obtain ⟨f, hf, hp⟩ := mem_flatMap.mp hp
      rw [hkey, hqueued] at hf
      have hsound := (h.described f (mem_filter.mp hf).1).1
      exact lt_of_le_of_lt (hsound.spans.bounds hsound.ascending hp).2 (hfollows f hf)
    · exact absurd (htracks.bounded p hp).1 (by simp [hlast])

/-! ### Forced drains -/

/-- The series at an address, if there is one, has nothing left to ship. -/
def FlushedAt (e : StreamingFragmentEncoder) (a : Nat) : Prop :=
  ∀ st, e.states[a]? = some st → st.openChunk = none ∧ st.pending.toList = []

theorem Inv.drainAndFlush {k : Bytes} {a : Nat}
    (hfiled : e.series.lookup k = some a) :
    Inv xor strict limit (e.visit a (drainAndFlush xor a)) sent added ids ∧
      (e.visit a (drainAndFlush xor a)).series = e.series ∧
      ∀ b, b = a ∨ FlushedAt e b → FlushedAt (e.visit a (drainAndFlush xor a)) b := by
  obtain ⟨st, hst, rfl, htracks⟩ := h.tracked k a hfiled
  obtain ⟨hadv, hclosed, hempty⟩ := drainAndFlush_advances hxor hpos a h.limit_eq htracks
  refine ⟨h.advance hst hfiled hadv, ?_⟩
  rw [visit_eq hst]
  refine ⟨hadv.extends_.series, fun b hb st' hst' => ?_⟩
  rw [hadv.extends_.states] at hst'
  by_cases hab : a = b
  · subst hab
    rw [getElem?_set_self (List.getElem?_eq_some_iff.mp hst).1] at hst'
    exact some.inj hst' ▸ ⟨hclosed, hempty⟩
  · rw [getElem?_set_ne hab] at hst'
    exact hb.elim (fun hb => absurd hb.symm hab) fun hb => hb st' hst'

theorem Inv.drainAll (series : List (Bytes × Nat)) (hseries : ∀ entry ∈ series,
    e.series.lookup entry.1 = some entry.2) :
    Inv xor strict limit (e.drainAll xor series) sent added ids ∧ (e.drainAll xor series).series = e.series ∧
      ∀ b, b ∈ series.map Prod.snd ∨ FlushedAt e b → FlushedAt (e.drainAll xor series) b := by
  induction series generalizing e with
  | nil => exact ⟨h, rfl, fun b hb => hb.resolve_left not_mem_nil⟩
  | cons entry series ih =>
    obtain ⟨hinv, hsame, hflushed⟩ := h.drainAndFlush hxor hpos (hseries entry mem_cons_self)
    obtain ⟨hinv', hsame', hflushed'⟩ := ih hinv fun entry' hentry' => hsame ▸ hseries entry'
      (mem_cons_of_mem _ hentry')
    refine ⟨hinv', hsame'.trans hsame, fun b hb => hflushed' b ?_⟩
    rcases hb with hb | hb
    · rcases mem_cons.mp hb with hb | hb
      · exact .inr (hflushed b (.inl hb))
      · exact .inl hb
    · exact .inr (hflushed b (.inr hb))

theorem Inv.drainForced (ω : RangeOrder (Bytes × Nat)) :
    Inv xor strict limit (e.drainForced xor ω) sent added ids ∧
      ((e.drainForced xor ω).queued ≠ [] → (e.drainForced xor ω).lastReportedDropped =
        (e.drainForced xor ω).dropped.length) := by
  obtain ⟨hall, -, -⟩ := h.drainAll hxor hpos (e.series.range ω) fun _ hentry => GoMap.mem_range.mp hentry
  have hreset : Inv xor strict limit { e.drainAll xor (e.series.range ω) with drainQueue := #[] } sent added ids :=
    { hall with reported := ⟨hall.reported.sum, hall.reported.le⟩ }
  obtain ⟨hresidual, hreported⟩ := hreset.attributeResidual
  obtain ⟨hqueued, hdropped, hlast⟩ :=
    sweepEvictions_keeps { e.drainAll xor (e.series.range ω) with drainQueue := #[] }.attributeResidual
  refine ⟨hresidual.sweepEvictions, ?_⟩
  unfold StreamingFragmentEncoder.drainForced
  rw [hqueued, hdropped, hlast]
  exact hreported

theorem Inv.drainForced_accounts (ω : RangeOrder (Bytes × Nat)) (k : Bytes) :
    (acceptedFor k added).Perm
      (ofKey k (e.drainForced xor ω).dropped ++ shippedFor xor k (sent ++ (e.drainForced xor ω).queued)) ∧
    (strict → Ascending (shippedFor xor k (sent ++ (e.drainForced xor ω).queued))) := by
  obtain ⟨hall, hseries, hflushed⟩ := h.drainAll hxor hpos (e.series.range ω) fun _ hentry => GoMap.mem_range.mp hentry
  obtain ⟨hqueued, hdropped, -⟩ :=
    sweepEvictions_keeps { e.drainAll xor (e.series.range ω) with drainQueue := #[] }.attributeResidual
  obtain ⟨_, _, hresidual⟩ := attributeResidual_eq { e.drainAll xor (e.series.range ω) with drainQueue := #[] }
  unfold StreamingFragmentEncoder.drainForced
  rw [hqueued, hdropped, shippedFor_append, shippedFor_attributeResidual, hresidual, ← shippedFor_append]
  cases hlookup : (e.drainAll xor (e.series.range ω)).series.lookup k with
  | none => exact ⟨(hall.settled k hlookup).conserved, (hall.settled k hlookup).ascending⟩
  | some a =>
    obtain ⟨st, hst, rfl, htracks⟩ := hall.tracked k a hlookup
    obtain ⟨hclosed, hempty⟩ := hflushed a (.inl (List.mem_map.mpr ⟨(st.key, a),
      GoMap.mem_range.mpr (hseries ▸ hlookup), rfl⟩)) st hst
    exact htracks.settled hempty hclosed

end

variable (xor) in
/-- What a forced drain returns for the samples `added`: its fragments and the drops account for them,
and the fragments of one key are in ascending order. -/
structure Window (added : List TSDBSample) (dropped : List (SeriesId × Sample)) (fs : List Fragment) : Prop where
  conserved : ∀ k, (acceptedFor k added).Perm
    (ofKey k dropped ++ (fragmentsOf k fs).flatMap (samples xor))
  ascending : ∀ k, ((fragmentsOf k fs).flatMap (samples xor)).Pairwise fun a b => a.time < b.time
  described : ∀ f ∈ fs, f.Describes xor ∧ f.toSeriesId ∈ added.map TSDBSample.toSeriesId
  known : ∀ d ∈ dropped, d.1 ∈ added.map TSDBSample.toSeriesId

theorem Inv.drain {limit : Nat} {e : StreamingFragmentEncoder} {added : List TSDBSample} (hxor : xor.LosslessUpTo limit)
    (hpos : 0 < limit) (h : Inv xor True limit e [] added (added.map TSDBSample.toSeriesId))
    (ω : RangeOrder (Bytes × Nat)) : Window xor added (e.drain xor true ω).2.dropped (e.drain xor true ω).1 := by
  obtain ⟨hinv, -⟩ := h.drainForced hxor hpos ω
  have haccounts := h.drainForced_accounts hxor hpos ω
  exact ⟨fun k => (haccounts k).1, fun k => (haccounts k).2 trivial,
    fun f hf => ⟨(hinv.described f hf).1.toDescribes, (hinv.described f hf).2⟩, hinv.known⟩

end AsapCollector.StreamingFragmentEncoder
