import AsapCollector.Cold.Fragment

/-! A point of a series is pending, in the open chunk, in a fragment, or dropped (`Tracks`), and the points appended
have ascending timestamps (`Ordered`). The steps of one series keep this and leave every other alone (`Advances`). -/

namespace AsapCollector

open List Option Sample FragmentSeriesState Fragment Heap

def Fragment.samples (xor : XorChunk) (f : Fragment) : List Sample := (xor.decode f.data).getD []

/-- An XOR chunk begins with its sample count, so it is never without bytes. -/
def XorChunk.HasHeader (xor : XorChunk) : Prop := ∀ samples, xor.encode samples ≠ []

def XorChunk.LosslessUpTo (xor : XorChunk) (limit : Nat) : Prop :=
  ∀ samples, samples.length ≤ limit → xor.decode (xor.encode samples) = some samples

variable {xor : XorChunk}

theorem XorChunk.Lossless.upTo (h : xor.Lossless) {limit : Nat} (hmax : limit < xorChunkMaxSamples) :
    xor.LosslessUpTo limit := fun samples hlen => h samples (Nat.lt_of_le_of_lt hlen hmax)

theorem Sample.time_le_maxInt64 (p : Sample) : p.time ≤ maxInt64 := by
  have := p.t.toInt_lt
  unfold time maxInt64
  omega

def Ascending (l : List Sample) : Prop := l.Pairwise fun a b => a.time < b.time

structure Spans (l : List Sample) (first last : Int) : Prop where
  head : l.head?.map time = some first
  last : l.getLast?.map time = some last

theorem Spans.single (p : Sample) : Spans [p] p.time p.time := ⟨rfl, rfl⟩

variable {first last : Int} {l : List Sample}

section
variable (h : Spans l first last)
include h

theorem Spans.snoc (p : Sample) :
    Spans (l ++ [p]) first p.time := by
  obtain ⟨q, hq, hfirst⟩ := map_eq_some_iff.mp h.head
  refine ⟨?_, by rw [getLast?_append, getLast?_singleton, some_or, map_some]⟩
  rw [head?_append, hq, some_or, map_some, hfirst]

theorem Spans.exists_first : ∃ p ∈ l, p.time = first := by
  obtain ⟨p, hp, hfirst⟩ := map_eq_some_iff.mp h.head
  exact ⟨p, mem_of_mem_head? hp, hfirst⟩

theorem Spans.exists_last : ∃ p ∈ l, p.time = last := by
  obtain ⟨p, hp, hlast⟩ := map_eq_some_iff.mp h.last
  exact ⟨p, mem_of_getLast? hp, hlast⟩

theorem Spans.bounds (hasc : Ascending l) {p : Sample} (hp : p ∈ l) :
    first ≤ p.time ∧ p.time ≤ last := by
  obtain ⟨q, hq, rfl⟩ := map_eq_some_iff.mp h.head
  obtain ⟨r, hr, rfl⟩ := map_eq_some_iff.mp h.last
  constructor
  · obtain ⟨rest, rfl⟩ := head?_eq_some_iff.mp hq
    rcases mem_cons.mp hp with rfl | hp
    · exact Int.le_refl _
    · exact (rel_of_pairwise_cons hasc hp).le
  · obtain ⟨init, rfl⟩ := getLast?_eq_some_iff.mp hr
    rcases mem_append.mp hp with hp | hp
    · exact ((pairwise_append.mp hasc).2.2 p hp r (mem_singleton.mpr rfl)).le
    · rw [mem_singleton.mp hp]

end

structure Fragment.Describes (xor : XorChunk) (f : Fragment) : Prop where
  data : ∃ samples, f.data = xor.encode samples
  count : f.count = (f.samples xor).length
  spans : Spans (f.samples xor) f.minTime f.maxTime

theorem Fragment.Describes.data_ne_nil {f : Fragment} (h : f.Describes xor) (hheader : xor.HasHeader) :
    f.data ≠ [] := by
  obtain ⟨samples, hdata⟩ := h.data
  exact hdata ▸ hheader samples

theorem Fragment.Describes.samples_ne_nil {f : Fragment} (h : f.Describes xor) : f.samples xor ≠ [] := by
  obtain ⟨p, hp, -⟩ := h.spans.exists_first
  exact ne_nil_of_mem hp

/-- The fields of a fragment describe its chunk, and the samples in it are in order. -/
structure Fragment.Sound (xor : XorChunk) (f : Fragment) : Prop extends f.Describes xor where
  ascending : Ascending (f.samples xor)

structure FragmentSeriesState.OpenSound (st : FragmentSeriesState) : Prop where
  count : st.openCount = st.openSamples.length
  spans : ∀ chunk, st.openChunk = some chunk → Spans chunk st.openMin st.openMax

def TSDBSample.entry (s : TSDBSample) : SeriesId × Sample := (s.toSeriesId, s.point)

namespace FragmentSeriesState

variable (st : FragmentSeriesState) (p : Sample)

@[simp] theorem append_toSeriesId : (st.append p).toSeriesId = st.toSeriesId := by unfold append; split <;> rfl

@[simp] theorem append_key : (st.append p).key = st.key := by unfold append; split <;> rfl

@[simp] theorem append_pending : (st.append p).pending = st.pending := by unfold append; split <;> rfl

@[simp] theorem append_lastTs : (st.append p).lastTs = p.time := by unfold append; split <;> rfl

@[simp] theorem append_hasLast : (st.append p).hasLast = true := by unfold append; split <;> rfl

@[simp] theorem append_openSamples : (st.append p).openSamples = st.openSamples ++ [p] := by
  unfold append openSamples
  split <;> rename_i hchunk <;> rw [hchunk] <;> rfl

variable {st}

theorem OpenSound.append (h : st.OpenSound) : (st.append p).OpenSound ∧ (st.append p).openCount = st.openCount + 1 := by
  have hcount := h.count
  unfold openSamples at hcount
  unfold FragmentSeriesState.append
  split <;> rename_i hchunk <;> rw [hchunk] at hcount
  · exact ⟨⟨rfl, fun _ hc => some.inj hc ▸ .single p⟩, by simpa using hcount⟩
  · refine ⟨⟨?_, fun _ hc => some.inj hc ▸ (h.spans _ hchunk).snoc p⟩, rfl⟩
    simpa [openSamples] using hcount

end FragmentSeriesState

namespace StreamingFragmentEncoder

variable (xor : XorChunk) (k : Bytes)

/-- The fragments of one series key. -/
def fragmentsOf (queued : List Fragment) : List Fragment := queued.filter fun f => f.toSeriesId.key = k

def ofKey (l : List (SeriesId × Sample)) : List Sample := (l.filter fun d => d.1.key = k).map Prod.snd

/-- The points appended to chunks for a series, in the order in which they were. -/
def line (queued : List Fragment) (st : FragmentSeriesState) : List Sample :=
  (fragmentsOf st.key queued).flatMap (samples xor) ++ st.openSamples

theorem fragmentsOf_append (fs gs : List Fragment) :
    fragmentsOf k (fs ++ gs) = fragmentsOf k fs ++ fragmentsOf k gs := filter_append ..

theorem ofKey_append (ds es : List (SeriesId × Sample)) :
    ofKey k (ds ++ es) = ofKey k ds ++ ofKey k es := by
  rw [ofKey, filter_append, map_append, ofKey, ofKey]

theorem fragmentsOf_eq_nil {k : Bytes} {fs : List Fragment} (h : ∀ f ∈ fs, f.toSeriesId.key ≠ k) :
    fragmentsOf k fs = [] := by
  rw [fragmentsOf, filter_eq_nil_iff]
  exact fun f hf => by simpa using h f hf

theorem ofKey_eq_nil {k : Bytes} {ds : List (SeriesId × Sample)} (h : ∀ d ∈ ds, d.1.key ≠ k) : ofKey k ds = [] := by
  rw [ofKey, map_eq_nil_iff, filter_eq_nil_iff]
  exact fun d hd => by simpa using h d hd

/-- The points of a series key are appended in the order of their timestamps, over all its fragments. Only
where a series has been evicted can a state that has appended nothing follow fragments of its key, and then
what is pending in it is later than all of them. -/
structure Ordered (evicted : Nat) (produced : List Fragment) (st : FragmentSeriesState) : Prop where
  ascending : Ascending (line xor produced st)
  bounded : ∀ p ∈ line xor produced st, st.hasLast = true ∧ p.time ≤ st.lastTs ∨
    evicted ≠ 0 ∧ st.hasLast = false ∧ ∀ q ∈ st.pending.toList, p.time < q.time

/-- What an encoder has done for one series, out of the points accepted for its key, with the fragments it
has produced so far. The open chunk has fewer than `limit` samples. -/
structure Tracks (strict : Prop) (limit evicted : Nat) (produced : List Fragment) (dropped : List (SeriesId × Sample))
    (st : FragmentSeriesState) (accepted : List Sample) : Prop where
  key_eq : st.key = st.toSeriesId.key
  chunk : st.OpenSound
  small : st.openCount < limit
  ascending : Ascending st.openSamples
  bounded : ∀ p ∈ st.openSamples, st.hasLast = true ∧ p.time ≤ st.lastTs
  conserved : accepted.Perm (ofKey st.key dropped ++ (line xor produced st ++ st.pending.toList))
  ordered : strict → Ordered xor evicted produced st

/-- The drops that the fragments carry, those returned before and those queued, are the ones reported. -/
structure Reported (sent : List Fragment) (e : StreamingFragmentEncoder) : Prop where
  sum : ((sent ++ e.queued).map oooDropCount).sum = e.lastReportedDropped
  le : e.lastReportedDropped ≤ e.dropped.length

/-- `e'` comes from `e` by queueing fragments of one series and dropping points of it. -/
structure Extends (e e' : StreamingFragmentEncoder) (id : SeriesId) : Prop where
  samplesPerChk : e'.samplesPerChk = e.samplesPerChk
  evicted : e'.evicted = e.evicted
  states : e'.states = e.states
  series : e'.series = e.series
  queued : ∃ fs, e'.queued = e.queued ++ fs ∧ ∀ f ∈ fs, f.toSeriesId = id ∧ f.Sound xor
  dropped : ∃ ds, e'.dropped = e.dropped ++ ds ∧ ∀ d ∈ ds, d.1 = id
  reported : ∀ sent, Reported sent e → Reported sent e'

variable {xor}

theorem Extends.refl (e : StreamingFragmentEncoder) (id : SeriesId) : Extends xor e e id :=
  ⟨rfl, rfl, rfl, rfl, ⟨[], (append_nil _).symm, by simp⟩, ⟨[], (append_nil _).symm, by simp⟩, fun _ h => h⟩

variable {e : StreamingFragmentEncoder}

theorem Extends.trans {e' e'' : StreamingFragmentEncoder} {id : SeriesId} (h : Extends xor e e' id)
    (h' : Extends xor e' e'' id) : Extends xor e e'' id := by
  obtain ⟨fs, hfs, hown⟩ := h.queued
  obtain ⟨fs', hfs', hown'⟩ := h'.queued
  obtain ⟨ds, hds, hid⟩ := h.dropped
  obtain ⟨ds', hds', hid'⟩ := h'.dropped
  refine ⟨h'.samplesPerChk.trans h.samplesPerChk, h'.evicted.trans h.evicted, h'.states.trans h.states,
    h'.series.trans h.series, ⟨fs ++ fs', by rw [hfs', hfs, append_assoc], fun f hf => ?_⟩,
    ⟨ds ++ ds', by rw [hds', hds, append_assoc], fun d hd => ?_⟩, fun sent hsent =>
      h'.reported sent (h.reported sent hsent)⟩
  · exact (mem_append.mp hf).elim (hown f) (hown' f)
  · exact (mem_append.mp hd).elim (hid d) (hid' d)

section
variable {strict : Prop} {limit evicted : Nat} {produced sent : List Fragment} {dropped : List (SeriesId × Sample)}
  {st : FragmentSeriesState} {accepted : List Sample}

theorem Tracks.congr {produced' : List Fragment} {dropped' : List (SeriesId × Sample)}
    (h : Tracks xor strict limit evicted produced dropped st accepted)
    (hfrags : (fragmentsOf st.key produced').flatMap (samples xor) =
      (fragmentsOf st.key produced).flatMap (samples xor))
    (hdrops : ofKey st.key dropped' = ofKey st.key dropped) :
    Tracks xor strict limit evicted produced' dropped' st accepted := by
  have hline : line xor produced' st = line xor produced st := by rw [line, line, hfrags]
  exact ⟨h.key_eq, h.chunk, h.small, h.ascending, h.bounded, by rw [hline, hdrops]; exact h.conserved,
    fun hs => ⟨hline ▸ (h.ordered hs).ascending, hline ▸ (h.ordered hs).bounded⟩⟩

end

/-! ### The steps of one series -/

variable (xor) in
/-- A step from `(e, st)` to `(e', st')` that works on one series only and accounts for its points. -/
structure Advances (strict : Prop) (limit evicted : Nat) (sent : List Fragment) (accepted : List Sample)
    (e : StreamingFragmentEncoder) (st : FragmentSeriesState) (r : StreamingFragmentEncoder × FragmentSeriesState) :
      Prop where
  extends_ : Extends xor e r.1 st.toSeriesId
  same : r.2.toSeriesId = st.toSeriesId
  tracks : Tracks xor strict limit evicted (sent ++ r.1.queued) r.1.dropped r.2 accepted

@[simp] theorem flushOpenChunk_pending (a : Nat) (watermark : Int) (e : StreamingFragmentEncoder)
    (st : FragmentSeriesState) : (e.flushOpenChunk xor a watermark st).2.pending = st.pending := by
  unfold flushOpenChunk
  split
  · rfl
  · split
    · rfl
    · dsimp only
      split <;> rfl

@[simp] theorem take_pending (a : Nat) (e : StreamingFragmentEncoder) (st : FragmentSeriesState) (p : Sample) :
    (e.take xor a st p).2.pending = st.pending := by
  unfold take append
  split
  · rfl
  · split <;> simp

variable (xor) in
theorem flushOpenChunk_eq (a : Nat) (watermark : Int) (e : StreamingFragmentEncoder) {st : FragmentSeriesState}
    {chunk : List Sample} (hchunk : st.openChunk = some chunk) (hcount : st.openCount ≠ 0) :
    ∃ evictQueue inEvictQueue, e.flushOpenChunk xor a watermark st =
      ({ e with
        queued := e.queued ++ [e.newFragment xor st chunk watermark]
        lastReportedDropped := e.dropped.length
        evictQueue := evictQueue },
      { st with openChunk := none, openCount := 0, inEvictQueue := inEvictQueue }) := by
  unfold flushOpenChunk
  simp only [hchunk, if_neg hcount]
  split
  · exact ⟨_, _, rfl⟩
  · exact ⟨_, _, rfl⟩

theorem samples_newFragment {limit : Nat} (hxor : xor.LosslessUpTo limit) (e : StreamingFragmentEncoder)
    (st : FragmentSeriesState) {chunk : List Sample} (watermark : Int) (hsmall : chunk.length ≤ limit) :
    (e.newFragment xor st chunk watermark).samples xor = chunk := by
  rw [samples, newFragment, hxor chunk hsmall, getD_some]

theorem Reported.flush {sent : List Fragment} {e' : StreamingFragmentEncoder} {f : Fragment} (h : Reported sent e)
    (hqueued : e'.queued = e.queued ++ [f]) (hdropped : e'.dropped = e.dropped)
    (hlast : e'.lastReportedDropped = e.dropped.length)
    (hf : f.oooDropCount = e.dropped.length - e.lastReportedDropped) :
    Reported sent e' := by
  refine ⟨?_, by rw [hlast, hdropped]⟩
  rw [hqueued, ← append_assoc, map_append, sum_append, h.sum, hlast, map_singleton,
    sum_singleton, hf]
  exact Nat.add_sub_of_le h.le

section
variable {strict : Prop} {limit evicted : Nat} {produced sent : List Fragment} {dropped : List (SeriesId × Sample)}
  {e : StreamingFragmentEncoder} {st : FragmentSeriesState} {accepted : List Sample}
  {pending : Array Sample} {p : Sample}

theorem Tracks.append (h : Tracks xor strict limit evicted produced dropped st accepted)
    (hpop : st.pending.toList.Perm (p :: pending.toList)) (hnew : ¬(st.hasLast = true ∧ p.time ≤ st.lastTs)) :
    Tracks xor strict (limit + 1) evicted produced dropped ({ st with pending := pending }.append p) accepted := by
  have hopen : ({ st with pending := pending }.append p).openSamples = st.openSamples ++ [p] :=
    append_openSamples _ _
  have hline : line xor produced ({ st with pending := pending }.append p) = line xor produced st ++ [p] := by
    simp only [line, append_key, hopen, append_assoc]
  have hafter : ∀ l : List Sample, (∀ q ∈ l, q.time < p.time) → Ascending l → Ascending (l ++ [p]) ∧
      ∀ q ∈ l ++ [p], ({ st with pending := pending }.append p).hasLast = true ∧
        q.time ≤ ({ st with pending := pending }.append p).lastTs := by
    intro l hlt hasc
    rw [append_hasLast, append_lastTs]
    refine ⟨pairwise_append.mpr ⟨hasc, pairwise_singleton _ _, fun q hq r hr => ?_⟩, fun q hq => ⟨rfl, ?_⟩⟩
    · exact mem_singleton.mp hr ▸ hlt q hq
    · exact forall_mem_append.mpr ⟨fun q hq => (hlt q hq).le, forall_mem_singleton.mpr (Int.le_refl _)⟩ q hq
  have hbefore : ∀ {q : Sample}, st.hasLast = true ∧ q.time ≤ st.lastTs → q.time < p.time := fun ⟨hhas, hle⟩ =>
    lt_of_le_of_lt hle (not_le.mp fun hp => hnew ⟨hhas, hp⟩)
  have hchunk : OpenSound { st with pending := pending } := ⟨h.chunk.count, h.chunk.spans⟩
  obtain ⟨hsound, hcount⟩ := hchunk.append p
  obtain ⟨hasc, hbound⟩ := hafter _ (fun q hq => hbefore (h.bounded q hq)) h.ascending
  refine ⟨by simpa using h.key_eq, hsound, hcount ▸ Nat.succ_lt_succ h.small, hopen ▸ hasc, hopen ▸ hbound, ?_,
    fun hs => ?_⟩
  · rw [hline, append_key, append_pending, append_assoc]
    exact h.conserved.trans ((hpop.append_left _).append_left _)
  · obtain ⟨hasc, hbound⟩ := hafter (line xor produced st)
      (fun q hq => ((h.ordered hs).bounded q hq).elim hbefore fun hq => hq.2.2 p (hpop.mem_iff.mpr mem_cons_self))
      (h.ordered hs).ascending
    exact ⟨hline ▸ hasc, hline ▸ fun q hq => .inl (hbound q hq)⟩

theorem Ordered.shrink (h : Ordered xor evicted produced st) (hpending : ∀ q ∈ pending.toList, q ∈ st.pending.toList) :
    Ordered xor evicted produced { st with pending := pending } :=
  ⟨h.ascending, fun q hq => (h.bounded q hq).imp_right fun hb => ⟨hb.1, hb.2.1, fun r hr => hb.2.2 r (hpending r hr)⟩⟩

theorem Tracks.drop (h : Tracks xor strict limit evicted produced dropped st accepted)
    (hpop : st.pending.toList.Perm (p :: pending.toList)) :
    Tracks xor strict limit evicted produced (dropped ++ [(st.toSeriesId, p)]) { st with pending := pending }
      accepted := by
  refine ⟨h.key_eq, ⟨h.chunk.count, h.chunk.spans⟩, h.small, h.ascending, h.bounded, ?_, fun hs => ?_⟩
  · have hdrop : ofKey st.key (dropped ++ [(st.toSeriesId, p)]) = ofKey st.key dropped ++ [p] := by
      simp [ofKey, ← h.key_eq]
    have hmove : (line xor produced st ++ st.pending.toList).Perm (p :: (line xor produced st ++ pending.toList)) :=
      (hpop.append_left _).trans perm_middle
    rw [hdrop, append_assoc]
    exact h.conserved.trans (hmove.append_left _)
  · exact (h.ordered hs).shrink fun q hq => hpop.mem_iff.mpr (mem_cons_of_mem _ hq)

theorem Advances.trans {r r' : StreamingFragmentEncoder × FragmentSeriesState}
    (h : Advances xor strict limit evicted sent accepted e st r)
    (h' : Advances xor strict limit evicted sent accepted r.1 r.2 r') :
    Advances xor strict limit evicted sent accepted e st r' :=
  ⟨h.extends_.trans (h.same ▸ h'.extends_), h'.same.trans h.same, h'.tracks⟩

theorem popReady_eq_some {watermark : Int} {pending rest : Array Sample}
    (h : popReady watermark pending = some (p, rest)) : pending.toList.Perm (p :: rest.toList) := by
  unfold popReady at h
  split at h
  · cases h
  · split at h
    · exact perm_pop _ h
    · cases h

variable (hxor : xor.LosslessUpTo limit) (hpos : 0 < limit)
include hxor hpos

theorem flushOpenChunk_advances (a : Nat) (watermark : Int)
    (h : Tracks xor strict (limit + 1) evicted (sent ++ e.queued) e.dropped st accepted) :
    Advances xor strict limit evicted sent accepted e st (e.flushOpenChunk xor a watermark st) ∧
      (e.flushOpenChunk xor a watermark st).2.openChunk = none := by
  cases hchunk : st.openChunk with
  | none =>
    have hcount : st.openCount = 0 := by rw [h.chunk.count, openSamples, hchunk]; rfl
    have heq : e.flushOpenChunk xor a watermark st = (e, st) := by rw [flushOpenChunk, hchunk]
    rw [heq]
    exact ⟨⟨.refl e _, rfl, { h with small := hcount ▸ hpos }⟩, hchunk⟩
  | some chunk =>
    have hopen : st.openSamples = chunk := by rw [openSamples, hchunk]; rfl
    have hlen : st.openCount = chunk.length := hopen ▸ h.chunk.count
    have hspans := h.chunk.spans chunk hchunk
    have hcount : st.openCount ≠ 0 := by
      obtain ⟨p, hp, -⟩ := hspans.exists_first
      exact hlen ▸ (length_pos_of_mem hp).ne'
    have hsmall : chunk.length ≤ limit := by have := h.small; omega
    obtain ⟨evictQueue, inEvictQueue, heq⟩ := flushOpenChunk_eq xor a watermark e hchunk hcount
    have hsamples := samples_newFragment hxor e st watermark hsmall
    -- the samples of the new fragment take the place of the open chunk
    have hline : line xor (sent ++ (e.queued ++ [e.newFragment xor st chunk watermark]))
        { st with openChunk := none, openCount := 0, inEvictQueue := inEvictQueue } =
          line xor (sent ++ e.queued) st := by
      have hown : fragmentsOf st.key [e.newFragment xor st chunk watermark] = [e.newFragment xor st chunk watermark] :=
        filter_eq_self.mpr fun f hf => mem_singleton.mp hf ▸ decide_eq_true h.key_eq.symm
      simp only [line, fragmentsOf_append, hown, flatMap_append, flatMap_singleton, hsamples, hopen]
      simp [openSamples]
    have hsound : (e.newFragment xor st chunk watermark).Sound xor :=
      ⟨⟨⟨chunk, rfl⟩, by rw [hsamples]; exact hlen, by rw [hsamples]; exact hspans⟩, by
        rw [hsamples, ← hopen]; exact h.ascending⟩
    rw [heq]
    refine ⟨⟨⟨rfl, rfl, rfl, rfl, ⟨_, rfl, ?_⟩, ⟨[], (append_nil _).symm, by simp⟩,
      fun sent hsent => hsent.flush rfl rfl rfl rfl⟩, rfl, ?_⟩, rfl⟩
    · exact fun f hf => mem_singleton.mp hf ▸ ⟨rfl, hsound⟩
    · refine ⟨h.key_eq, ⟨rfl, fun _ hc => by cases hc⟩, hpos, .nil, fun _ hp => absurd hp not_mem_nil, ?_, fun hs => ?_⟩
      · rw [hline]
        exact h.conserved
      · exact ⟨hline ▸ (h.ordered hs).ascending, hline ▸ (h.ordered hs).bounded⟩

theorem take_advances (a : Nat) (hlimit : e.samplesPerChk = limit)
    (h : Tracks xor strict limit evicted (sent ++ e.queued) e.dropped st accepted)
    (hpop : st.pending.toList.Perm (p :: pending.toList)) :
    Advances xor strict limit evicted sent accepted e st (e.take xor a { st with pending := pending } p) := by
  unfold take
  split
  · refine ⟨⟨rfl, rfl, rfl, rfl, ⟨[], (append_nil _).symm, by simp⟩, ⟨_, rfl, by simp⟩, fun sent hsent => ?_⟩, rfl,
      h.drop hpop⟩
    exact ⟨hsent.sum, hsent.le.trans (by simp)⟩
  · rename_i hnew
    have happ := h.append hpop hnew
    unfold append
    split
    · obtain ⟨hadv, -⟩ := flushOpenChunk_advances hxor hpos a (e.maxObserved - e.reorderGrace) happ
      have hext := hadv.extends_
      rw [append_toSeriesId] at hext
      exact ⟨hext, hadv.same.trans (append_toSeriesId _ _), hadv.tracks⟩
    · rename_i hroom
      exact ⟨.refl e _, by simp, { happ with small := hlimit ▸ not_le.mp hroom }⟩

theorem drainSeriesLoop_advances (a : Nat) (watermark : Int) (rounds : Nat)
    (hlimit : e.samplesPerChk = limit)
    (h : Tracks xor strict limit evicted (sent ++ e.queued) e.dropped st accepted) :
    Advances xor strict limit evicted sent accepted e st (drainSeriesLoop xor a watermark rounds e st) := by
  induction rounds generalizing e st with
  | zero => exact ⟨.refl e _, rfl, h⟩
  | succ rounds ih =>
    rw [drainSeriesLoop]
    cases hready : popReady watermark st.pending with
    | none => exact ⟨.refl e _, rfl, h⟩
    | some popped =>
      have hstep := take_advances hxor hpos a hlimit h (popReady_eq_some hready)
      exact hstep.trans (ih (hstep.extends_.samplesPerChk.trans hlimit) hstep.tracks)

theorem drainSeries_advances (a : Nat) (watermark : Int) (hlimit : e.samplesPerChk = limit)
    (h : Tracks xor strict limit evicted (sent ++ e.queued) e.dropped st accepted) :
    Advances xor strict limit evicted sent accepted e st (e.drainSeries xor a watermark st) :=
  drainSeriesLoop_advances hxor hpos a watermark st.pending.size hlimit h

end

/-! ### A forced drain of one series -/

theorem popReady_maxInt64 (pending : Array Sample) : popReady maxInt64 pending = pop time pending := by
  unfold popReady
  split
  · rename_i hroot
    have hnil : pending.toList = [] := by simpa using hroot
    exact ((pop_eq_none _).mpr hnil).symm
  · rw [if_pos (time_le_maxInt64 _)]

theorem pending_drainSeriesLoop (a : Nat) :
    ∀ (rounds : Nat) {e : StreamingFragmentEncoder} {st : FragmentSeriesState}, st.pending.size ≤ rounds →
      (drainSeriesLoop xor a maxInt64 rounds e st).2.pending.toList = []
  | 0, _, st, h => by simpa [drainSeriesLoop] using h
  | rounds + 1, e, st, h => by
    rw [drainSeriesLoop, popReady_maxInt64]
    cases hpop : pop time st.pending with
    | none => exact (pop_eq_none _).mp hpop
    | some popped =>
      obtain ⟨p, pending⟩ := popped
      refine pending_drainSeriesLoop a rounds ?_
      have hlen := (perm_pop _ hpop).length_eq
      simp only [Array.length_toList, length_cons] at hlen
      rw [take_pending]
      dsimp only
      omega

theorem drainAndFlush_advances {strict : Prop} {limit evicted : Nat} {sent : List Fragment} {st : FragmentSeriesState}
    {accepted : List Sample} (hxor : xor.LosslessUpTo limit) (hpos : 0 < limit) (a : Nat)
    (hlimit : e.samplesPerChk = limit)
    (h : Tracks xor strict limit evicted (sent ++ e.queued) e.dropped st accepted) :
    Advances xor strict limit evicted sent accepted e st (e.drainAndFlush xor a st) ∧
      (e.drainAndFlush xor a st).2.openChunk = none ∧ (e.drainAndFlush xor a st).2.pending.toList = [] := by
  have hdrain := drainSeries_advances hxor hpos a maxInt64 hlimit h
  have hweak : Tracks xor strict (limit + 1) evicted _ _ _ accepted :=
    { hdrain.tracks with small := hdrain.tracks.small.trans (Nat.lt_succ_self _) }
  obtain ⟨hflush, hclosed⟩ := flushOpenChunk_advances hxor hpos a maxInt64 hweak
  refine ⟨hdrain.trans hflush, hclosed, ?_⟩
  rw [drainAndFlush, flushOpenChunk_pending]
  exact pending_drainSeriesLoop a _ (Nat.le_refl _)

end StreamingFragmentEncoder

end AsapCollector
