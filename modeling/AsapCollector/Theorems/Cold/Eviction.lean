import AsapCollector.Theorems.Cold.FragmentRun

/-! An eviction entry that is popped exactly at the idle threshold is dropped although its series stays; as long as no
forced drain meets a series there, none stays idle for longer. -/

namespace AsapCollector

open List Option Heap FragmentSeriesState IntChunk

namespace FragmentSeriesState

variable (st : FragmentSeriesState)

def Counted : Prop := st.openChunk = none ↔ st.openCount = 0

/-- The series is on the eviction queue, or its next flush puts it there. -/
def Held : Prop :=
  st.inEvictQueue = true ∨ 0 < st.openCount ∨ st.hasLast = false ∧ st.pending.toList ≠ []

structure AtRest (st : FragmentSeriesState) : Prop where
  pending : st.pending.toList = []
  chunk : st.openChunk = none
  count : st.openCount = 0
  queued : st.inEvictQueue = true

theorem append_counted (p : Sample) : (st.append p).Counted ∧ 0 < (st.append p).openCount := by
  unfold append Counted
  split <;> simp

@[simp] theorem append_frame (p : Sample) :
    (st.append p).key = st.key ∧ (st.append p).lastActive = st.lastActive ∧
    (st.append p).inEvictQueue = st.inEvictQueue := by
  unfold append
  split <;> exact ⟨rfl, rfl, rfl⟩

end FragmentSeriesState

namespace StreamingFragmentEncoder

variable {xor : XorChunk}

/-! ### One series -/

/-- What draining or flushing the series at an address does to it and to the eviction queue. -/
structure Serves (a : Nat) (e : StreamingFragmentEncoder) (st : FragmentSeriesState)
    (r : StreamingFragmentEncoder × FragmentSeriesState) : Prop where
  states : r.1.states = e.states
  series : r.1.series = e.series
  maxObserved : r.1.maxObserved = e.maxObserved
  idleEvictMs : r.1.idleEvictMs = e.idleEvictMs
  key : r.2.key = st.key
  lastActive : r.2.lastActive = st.lastActive
  heap : Heap.Ordered Prod.fst e.evictQueue → Heap.Ordered Prod.fst r.1.evictQueue
  entries : ∀ entry ∈ e.evictQueue.toList, entry ∈ r.1.evictQueue.toList
  entered : r.2.inEvictQueue = true → st.inEvictQueue = true ∨ (st.lastActive, a) ∈ r.1.evictQueue.toList
  counted : st.Counted → r.2.Counted
  held : 0 < e.idleEvictMs → st.Held → r.2.Held

section
variable {a : Nat} {e e' : StreamingFragmentEncoder} {st st' : FragmentSeriesState}

theorem Serves.trans {r r' : StreamingFragmentEncoder × FragmentSeriesState} (h : Serves a e st r)
    (h' : Serves a r.1 r.2 r') : Serves a e st r' where
  states := h'.states.trans h.states
  series := h'.series.trans h.series
  maxObserved := h'.maxObserved.trans h.maxObserved
  idleEvictMs := h'.idleEvictMs.trans h.idleEvictMs
  key := h'.key.trans h.key
  lastActive := h'.lastActive.trans h.lastActive
  heap := h'.heap ∘ h.heap
  entries := fun entry hentry => h'.entries entry (h.entries entry hentry)
  entered := by
    intro hflag
    rcases h'.entered hflag with hflag | hnew
    · exact (h.entered hflag).imp_right (h'.entries _)
    · exact .inr (h.lastActive ▸ hnew)
  counted := h'.counted ∘ h.counted
  held := fun hidle hheld => h'.held (h.idleEvictMs ▸ hidle) (h.held hidle hheld)

theorem Serves.of_eq (hstates : e'.states = e.states) (hseries : e'.series = e.series)
    (hmax : e'.maxObserved = e.maxObserved) (hidle : e'.idleEvictMs = e.idleEvictMs)
    (hqueue : e'.evictQueue = e.evictQueue) (hkey : st'.key = st.key) (hactive : st'.lastActive = st.lastActive)
    (hflag : st'.inEvictQueue = st.inEvictQueue) (hcounted : st.Counted → st'.Counted) (hheld : st.Held → st'.Held) :
    Serves a e st (e', st') :=
  ⟨hstates, hseries, hmax, hidle, hkey, hactive, fun h => hqueue.symm ▸ h, fun _ h => hqueue.symm ▸ h,
    fun h => .inl (hflag.symm.trans h), hcounted, fun _ => hheld⟩

theorem Serves.refl : Serves a e st (e, st) := .of_eq rfl rfl rfl rfl rfl rfl rfl rfl id id

variable (watermark : Int)

theorem flushOpenChunk_serves : Serves a e st (e.flushOpenChunk xor a watermark st) := by
  unfold flushOpenChunk
  split
  · exact .refl
  · split
    · exact .refl
    · rename_i hcount
      have hcounted : st.Counted → Counted { st with openChunk := none, openCount := 0 } :=
        fun _ => iff_of_true rfl rfl
      split
      · refine ⟨rfl, rfl, rfl, rfl, rfl, rfl, fun h => ordered_push _ h _, fun entry hentry => ?_, fun _ => .inr ?_,
          hcounted, fun _ _ => .inl rfl⟩
        · exact (perm_push Prod.fst _ _).mem_iff.mpr (mem_cons_of_mem _ hentry)
        · exact (perm_push Prod.fst _ _).mem_iff.mpr mem_cons_self
      · rename_i hqueued
        refine ⟨rfl, rfl, rfl, rfl, rfl, rfl, id, fun _ => id, fun hflag => .inl hflag, hcounted,
          fun hidle _ => .inl ?_⟩
        by_contra hflag
        exact hqueued ⟨hidle, Bool.eq_false_of_not_eq_true hflag⟩

theorem take_serves {pending : Array Sample} (p : Sample) : Serves a e st (e.take xor a { st with pending } p) := by
  unfold take append
  split
  · rename_i hlate
    refine .of_eq rfl rfl rfl rfl rfl rfl rfl rfl id ?_
    rintro (hflag | hopen | ⟨hfresh, -⟩)
    · exact .inl hflag
    · exact .inr (.inl hopen)
    · exact absurd (hfresh.symm.trans hlate.1) Bool.false_ne_true
  · have happend : Serves a e st (e, FragmentSeriesState.append { st with pending } p) := by
      obtain ⟨hkey, hactive, hflag⟩ := append_frame { st with pending } p
      obtain ⟨hcounted, hopen⟩ := append_counted { st with pending } p
      exact .of_eq rfl rfl rfl rfl rfl hkey hactive hflag (fun _ => hcounted) fun _ => .inr (.inl hopen)
    split
    · exact happend.trans (flushOpenChunk_serves _)
    · exact happend

theorem drainSeriesLoop_serves (rounds : Nat) : Serves a e st (drainSeriesLoop xor a watermark rounds e st) := by
  induction rounds generalizing e st with
  | zero => exact .refl
  | succ rounds ih =>
    rw [drainSeriesLoop]
    split
    · exact .refl
    · exact (take_serves _).trans ih

theorem flushOpenChunk_empties (hcounted : st.Counted) :
    (e.flushOpenChunk xor a watermark st).2.openChunk = none ∧
      (e.flushOpenChunk xor a watermark st).2.openCount = 0 := by
  unfold flushOpenChunk
  split
  · rename_i hnone
    exact ⟨hnone, hcounted.mp hnone⟩
  · rename_i chunk hchunk
    split
    · rename_i hzero
      exact ⟨hcounted.mpr hzero, hzero⟩
    · dsimp only
      split <;> exact ⟨rfl, rfl⟩

theorem drainAndFlush_serves (hidle : 0 < e.idleEvictMs) (hcounted : st.Counted) (hheld : st.Held) :
    Serves a e st (drainAndFlush xor a e st) ∧ (drainAndFlush xor a e st).2.AtRest := by
  have hdrain : Serves a e st (e.drainSeries xor a maxInt64 st) := drainSeriesLoop_serves _ _
  have hflush : Serves a e st (drainAndFlush xor a e st) := hdrain.trans (flushOpenChunk_serves _)
  obtain ⟨hchunk, hcount⟩ := flushOpenChunk_empties _ (hdrain.counted hcounted)
  have hpending : (drainAndFlush xor a e st).2.pending.toList = [] := by
    rw [drainAndFlush, flushOpenChunk_pending]
    exact pending_drainSeriesLoop a _ (Nat.le_refl _)
  refine ⟨hflush, hpending, hchunk, hcount, ?_⟩
  rcases hflush.held hidle hheld with hflag | hopen | ⟨-, hnonempty⟩
  · exact hflag
  · exact absurd hcount hopen.ne'
  · exact absurd hpending hnonempty

end

/-! ### All series -/

structure EvictInv (e : StreamingFragmentEncoder) : Prop where
  enabled : 0 < e.idleEvictMs
  heap : Heap.Ordered Prod.fst e.evictQueue
  filed : ∀ k a, e.series.lookup k = some a → ∃ st, e.states[a]? = some st ∧ st.key = k ∧ st.Counted ∧ st.Held
  queued : ∀ a st, e.states[a]? = some st → st.inEvictQueue = true → ∃ t ≤ st.lastActive, (t, a) ∈ e.evictQueue.toList

section
variable {a : Nat} {e e' : StreamingFragmentEncoder} {st st' : FragmentSeriesState}

theorem EvictInv.replace (h : EvictInv e) (hst : e.states[a]? = some st) (hstates : e'.states = e.states.set a st')
    (hseries : e'.series = e.series) (hidle : e'.idleEvictMs = e.idleEvictMs)
    (hheap : Heap.Ordered Prod.fst e'.evictQueue) (hentries : ∀ entry ∈ e.evictQueue.toList,
      entry ∈ e'.evictQueue.toList)
    (hentered : st'.inEvictQueue = true → st.inEvictQueue = true ∨ (st.lastActive, a) ∈ e'.evictQueue.toList)
    (hkey : st'.key = st.key) (hactive : st.lastActive ≤ st'.lastActive) (hcounted : st.Counted → st'.Counted)
    (hheld : st.Held → st'.Held) : EvictInv e' := by
  have hbound : a < e.states.length := (List.getElem?_eq_some_iff.mp hst).1
  have hget b : e'.states[b]? = if a = b then some st' else e.states[b]? := by
    rw [hstates, getElem?_set, if_pos hbound]
  refine ⟨hidle ▸ h.enabled, hheap, fun k b hb => ?_, fun b st'' hb hflag => ?_⟩
  · obtain ⟨old, hold, hk, hc, hh⟩ := h.filed k b (hseries ▸ hb)
    rw [hget]
    split
    · rename_i heq
      subst heq
      cases some.inj (hst.symm.trans hold)
      exact ⟨st', rfl, hkey.trans hk, hcounted hc, hheld hh⟩
    · exact ⟨old, hold, hk, hc, hh⟩
  · rw [hget] at hb
    split at hb
    · rename_i heq
      subst heq
      cases hb
      rcases hentered hflag with hflag | hnew
      · obtain ⟨t, ht, hmem⟩ := h.queued a st hst hflag
        exact ⟨t, ht.trans hactive, hentries _ hmem⟩
      · exact ⟨_, hactive, hnew⟩
    · obtain ⟨t, ht, hmem⟩ := h.queued b st'' hb hflag
      exact ⟨t, ht, hentries _ hmem⟩

theorem EvictInv.visit (h : EvictInv e) (hst : e.states[a]? = some st)
    {f : StreamingFragmentEncoder → FragmentSeriesState → StreamingFragmentEncoder × FragmentSeriesState}
    (hf : Serves a e st (f e st)) : EvictInv (e.visit a f) := by
  rw [visit_eq hst]
  exact h.replace hst (by rw [hf.states]) hf.series hf.idleEvictMs (hf.heap h.heap) hf.entries hf.entered hf.key
    hf.lastActive.ge hf.counted (hf.held h.enabled)

theorem EvictInv.requeue (h : EvictInv e) (a : Nat) : EvictInv (e.requeue a) := by
  unfold StreamingFragmentEncoder.requeue
  split
  · exact h
  · exact { h with }

theorem EvictInv.drainReadyLoop (watermark : Int) (rounds : Nat) (h : EvictInv e) :
    EvictInv (e.drainReadyLoop xor watermark rounds) := by
  induction rounds generalizing e with
  | zero => exact h
  | succ rounds ih =>
    rw [StreamingFragmentEncoder.drainReadyLoop]
    split
    · exact h
    · rename_i entry queue _
      have h' : EvictInv { e with drainQueue := queue } := { h with }
      refine ih (EvictInv.requeue ?_ _)
      cases hst : e.states[entry.2]? with
      | none =>
        rw [StreamingFragmentEncoder.visit, hst]
        exact h'
      | some st => exact h'.visit hst (drainSeriesLoop_serves _ _)

theorem EvictInv.accept (h : EvictInv e) (hst : e.states[a]? = some st) (p : Sample) : EvictInv (e.accept a p) := by
  obtain ⟨drainQueue, heq⟩ := accept_eq hst p
  rw [heq]
  refine h.replace hst rfl rfl rfl h.heap (fun _ => id) .inl rfl (le_max_left _ _) id ?_
  rintro (hflag | hopen | ⟨hfresh, -⟩)
  · exact .inl hflag
  · exact .inr (.inl hopen)
  · exact .inr (.inr ⟨hfresh, push_ne_nil _ _ _⟩)

theorem EvictInv.accept_new (h : EvictInv e) (id : SeriesId) (p : Sample) :
    EvictInv (({ e with
      states := e.states ++ [FragmentSeriesState.new id]
      series := e.series.insert id.key e.states.length }).accept e.states.length p) := by
  obtain ⟨drainQueue, heq⟩ := @accept_eq
    { e with states := e.states ++ [FragmentSeriesState.new id], series := e.series.insert id.key e.states.length }
    (FragmentSeriesState.new id) e.states.length (by simp) p
  rw [heq]
  generalize hst : ({ FragmentSeriesState.new id with
    lastActive := max (FragmentSeriesState.new id).lastActive p.time
    pending := push Sample.time (FragmentSeriesState.new id).pending p } : FragmentSeriesState) = st
  have hflag : st.inEvictQueue = false := by rw [← hst]; rfl
  have hheld : st.Held := by
    rw [← hst]
    exact .inr (.inr ⟨rfl, push_ne_nil _ _ _⟩)
  have hstates : (e.states ++ [FragmentSeriesState.new id]).set e.states.length st = e.states ++ [st] := by simp
  refine ⟨h.enabled, h.heap, fun k a ha => ?_, fun a st' ha hqueued => ?_⟩ <;> dsimp only at ha <;> rw [hstates] at *
  · by_cases hk : k = id.key
    · subst hk
      rw [AList.lookup_insert] at ha
      cases ha
      exact ⟨st, by simp, by rw [← hst]; rfl, by rw [← hst]; exact iff_of_true rfl rfl, hheld⟩
    · rw [AList.lookup_insert_ne hk] at ha
      obtain ⟨st', hst', hrest⟩ := h.filed k a ha
      exact ⟨st', by rw [getElem?_append_left (List.getElem?_eq_some_iff.mp hst').1]; exact hst', hrest⟩
  · rw [getElem?_append] at ha
    split at ha
    · exact h.queued a st' ha hqueued
    · obtain rfl := mem_singleton.mp (mem_of_getElem? ha)
      rw [hflag] at hqueued
      cases hqueued

theorem EvictInv.addSample (h : EvictInv e) (s : TSDBSample) : EvictInv (e.addSample xor s) := by
  refine EvictInv.drainReadyLoop _ _ ?_
  have h' : EvictInv { e with maxObserved := max e.maxObserved s.point.time } := { h with }
  unfold getSeries
  split
  · rename_i a ha
    obtain ⟨st, hst, -⟩ := h'.filed _ _ ha
    exact h'.accept hst _
  · exact h'.accept_new _ _

/-! ### A forced drain -/

def RestsAt (e : StreamingFragmentEncoder) (a : Nat) : Prop := ∃ st, e.states[a]? = some st ∧ st.AtRest

structure Keeps (e e' : StreamingFragmentEncoder) : Prop where
  inv : EvictInv e'
  series : e'.series = e.series
  maxObserved : e'.maxObserved = e.maxObserved
  idleEvictMs : e'.idleEvictMs = e.idleEvictMs
  active : ∀ a : Nat, (e'.states[a]?).map lastActive = (e.states[a]?).map lastActive
  rests : ∀ a, e.RestsAt a → e'.RestsAt a

theorem Keeps.refl (h : EvictInv e) : Keeps e e := ⟨h, rfl, rfl, rfl, fun _ => rfl, fun _ => id⟩

theorem Keeps.trans {e'' : StreamingFragmentEncoder} (h : Keeps e e') (h' : Keeps e' e'') : Keeps e e'' :=
  ⟨h'.inv, h'.series.trans h.series, h'.maxObserved.trans h.maxObserved, h'.idleEvictMs.trans h.idleEvictMs,
    fun a => (h'.active a).trans (h.active a), fun a ha => h'.rests a (h.rests a ha)⟩

theorem EvictInv.drainAndFlush (h : EvictInv e) {k : Bytes} (ha : e.series.lookup k = some a) :
    Keeps e (e.visit a (drainAndFlush xor a)) ∧ (e.visit a (drainAndFlush xor a)).RestsAt a := by
  obtain ⟨st, hst, -, hcounted, hheld⟩ := h.filed k a ha
  obtain ⟨hserves, hrests⟩ := @drainAndFlush_serves xor a e st h.enabled hcounted hheld
  have hbound : a < e.states.length := (List.getElem?_eq_some_iff.mp hst).1
  have hget b : (e.visit a (StreamingFragmentEncoder.drainAndFlush xor a)).states[b]? =
      if a = b then some (StreamingFragmentEncoder.drainAndFlush xor a e st).2 else e.states[b]? := by
    rw [visit_eq hst]
    rw [hserves.states, getElem?_set, if_pos hbound]
  have hinv := h.visit hst hserves
  refine ⟨⟨hinv, ?_, ?_, ?_, fun b => ?_, ?_⟩, ?_⟩
  · rw [visit_eq hst]; exact hserves.series
  · rw [visit_eq hst]; exact hserves.maxObserved
  · rw [visit_eq hst]; exact hserves.idleEvictMs
  · rw [hget]
    split
    · rename_i heq
      rw [← heq, hst, map_some, map_some, hserves.lastActive]
    · rfl
  · rintro b ⟨st', hst', hrest⟩
    rw [RestsAt, hget]
    split
    · exact ⟨_, rfl, hrests⟩
    · exact ⟨st', hst', hrest⟩
  · rw [RestsAt, hget, if_pos rfl]
    exact ⟨_, rfl, hrests⟩

theorem EvictInv.drainAll (h : EvictInv e) (series : List (Bytes × Nat))
    (hseries : ∀ entry ∈ series, e.series.lookup entry.1 = some entry.2) :
    Keeps e (e.drainAll xor series) ∧ ∀ entry ∈ series, (e.drainAll xor series).RestsAt entry.2 := by
  induction series generalizing e with
  | nil => exact ⟨.refl h, nofun⟩
  | cons entry series ih =>
    obtain ⟨hkeeps, hrests⟩ := @EvictInv.drainAndFlush xor _ _ h _ (hseries entry mem_cons_self)
    obtain ⟨hkeeps', hrests'⟩ := ih hkeeps.inv fun entry' hentry' => by
      rw [hkeeps.series]
      exact hseries entry' (mem_cons_of_mem _ hentry')
    refine ⟨hkeeps.trans hkeeps', fun entry' hentry' => ?_⟩
    rcases mem_cons.mp hentry' with rfl | hentry'
    · exact hkeeps'.rests _ hrests
    · exact hrests' entry' hentry'

/-! ### The sweep -/

/-- What holds while the sweep runs: all series have shipped everything, and none of them is at the threshold. -/
structure Sweeping (cutoff : Int) (e : StreamingFragmentEncoder) : Prop extends EvictInv e where
  threshold : e.maxObserved - e.idleEvictMs = cutoff
  resting : ∀ k a, e.series.lookup k = some a → ∃ st, e.states[a]? = some st ∧ st.AtRest ∧ st.lastActive ≠ cutoff

/-- The rounds that an entry of the queue can still take: one if the series has been idle since, or else two. -/
def weight (cutoff : Int) (states : List FragmentSeriesState) (entry : Int × Nat) : Nat :=
  if cutoff < entry.1 then 0
  else if ((states[entry.2]?).map lastActive).any (entry.1 < ·) then 2 else 1

def credit (cutoff : Int) (e : StreamingFragmentEncoder) : Nat := (e.evictQueue.toList.map (weight cutoff e.states)).sum

variable {cutoff : Int}

theorem weight_congr {states states' : List FragmentSeriesState}
    (h : ∀ a : Nat, (states'[a]?).map lastActive = (states[a]?).map lastActive) :
    weight cutoff states' = weight cutoff states := by
  funext entry
  rw [weight, weight, h]

variable {entry : Int × Nat}

theorem weight_pos {states : List FragmentSeriesState} (h : entry.1 ≤ cutoff) :
    0 < weight cutoff states entry := by
  unfold weight
  rw [if_neg (not_lt.mpr h)]
  split <;> omega

theorem credit_le (cutoff : Int) (e : StreamingFragmentEncoder) : credit cutoff e ≤ 2 * e.evictQueue.size := by
  unfold credit
  rw [← Array.length_toList]
  induction e.evictQueue.toList with
  | nil => simp
  | cons entry queue ih =>
    have hweight : weight cutoff e.states entry ≤ 2 := by
      unfold weight
      split <;> [omega; split <;> omega]
    simp only [map_cons, sum_cons, length_cons]
    omega

theorem popEntry_eq_some {queue rest : Array (Int × Nat)}
    (h : popEntry cutoff queue = some (entry, rest)) : entry.1 ≤ cutoff ∧ pop Prod.fst queue = some (entry, rest) := by
  unfold popEntry at h
  split at h
  · cases h
  · rename_i root hroot
    split at h
    · rename_i hle
      refine ⟨?_, h⟩
      rw [← some.inj (hroot.symm.trans (pop_root _ h))]
      exact hle
    · cases h

theorem popEntry_eq_none {queue : Array (Int × Nat)} (hheap : Heap.Ordered Prod.fst queue)
    (h : popEntry cutoff queue = none) (hentry : entry ∈ queue.toList) : cutoff < entry.1 := by
  obtain ⟨i, hi, hget⟩ := getElem_of_mem hentry
  have hpos : 0 < queue.size := by
    rw [Array.length_toList] at hi
    omega
  have hroot : queue[0]? = some queue[0] := Array.getElem?_eq_getElem hpos
  unfold popEntry at h
  rw [hroot] at h
  dsimp only at h
  split at h
  · rw [pop_eq_none] at h
    rw [h] at hentry
    cases hentry
  · rename_i hgt
    exact (not_le.mp hgt).trans_le (root_le _ hheap hroot hentry)

section
variable {cutoff : Int} {entry : Int × Nat} {queue : Array (Int × Nat)}

section
variable (h : Sweeping cutoff e)
include h

section
variable (hperm : e.evictQueue.toList.Perm (entry :: queue.toList))
include hperm

theorem Sweeping.popped {b : Nat}
    (hb : b ≠ entry.2) (hst : e.states[b]? = some st) (hflag : st.inEvictQueue = true) :
    ∃ t ≤ st.lastActive, (t, b) ∈ queue.toList := by
  obtain ⟨t, ht, hmem⟩ := h.queued b st hst hflag
  rcases mem_cons.mp (hperm.mem_iff.mp hmem) with heq | hmem
  · exact absurd (congrArg Prod.snd heq) hb
  · exact ⟨t, ht, hmem⟩

theorem Sweeping.forget
    (hheap : Heap.Ordered Prod.fst queue) (hst : e.states[entry.2]? = some st) (hqueue : e'.evictQueue = queue)
    (hstates : e'.states = e.states.set entry.2 { st with inEvictQueue := false })
    (hmax : e'.maxObserved = e.maxObserved) (hidle : e'.idleEvictMs = e.idleEvictMs)
    (hseries : ∀ k b, e'.series.lookup k = some b → e.series.lookup k = some b ∧ b ≠ entry.2) : Sweeping cutoff e' := by
  have hother b (hb : b ≠ entry.2) : e'.states[b]? = e.states[b]? := by rw [hstates, getElem?_set_ne hb.symm]
  refine ⟨⟨hidle ▸ h.enabled, hqueue ▸ hheap, fun k b hb => ?_,
    fun b st' hb hflag => ?_⟩, by rw [hmax, hidle, h.threshold], fun k b hb => ?_⟩
  · obtain ⟨hold, hne⟩ := hseries k b hb
    rw [hother b hne]
    exact h.filed k b hold
  · by_cases hne : b = entry.2
    · rw [hne, hstates, getElem?_set_self (List.getElem?_eq_some_iff.mp hst).1] at hb
      cases hb
      cases hflag
    · rw [hother b hne] at hb
      rw [hqueue]
      exact h.popped hperm hne hb hflag
  · obtain ⟨hold, hne⟩ := hseries k b hb
    rw [hother b hne]
    exact h.resting k b hold

theorem Sweeping.putBack
    (hheap : Heap.Ordered Prod.fst queue) (hst : e.states[entry.2]? = some st) :
    Sweeping cutoff { e with evictQueue := push Prod.fst queue (st.lastActive, entry.2) } := by
  have hmem x : x ∈ (push Prod.fst queue (st.lastActive, entry.2)).toList ↔ x = (st.lastActive, entry.2) ∨
      x ∈ queue.toList := by
    rw [(perm_push Prod.fst _ _).mem_iff, mem_cons]
  refine ⟨⟨h.enabled, ordered_push _ hheap _, h.filed, fun b st' hb hflag => ?_⟩, h.threshold, h.resting⟩
  by_cases hne : b = entry.2
  · subst hne
    cases some.inj (hst.symm.trans hb)
    exact ⟨_, le_refl _, (hmem _).mpr (.inl rfl)⟩
  · obtain ⟨t, ht, hold⟩ := h.popped hperm hne hb hflag
    exact ⟨t, ht, (hmem _).mpr (.inr hold)⟩

end

theorem Sweeping.round (hpop : popEntry cutoff e.evictQueue = some (entry, queue)) :
    Sweeping cutoff ({ e with evictQueue := queue }.evictEntry entry) ∧
      credit cutoff ({ e with evictQueue := queue }.evictEntry entry) < credit cutoff e := by
  obtain ⟨hle, hpop⟩ := popEntry_eq_some hpop
  have hperm := perm_pop _ hpop
  have hheap := ordered_pop _ h.heap hpop
  have hcredit : credit cutoff e = weight cutoff e.states entry + (queue.toList.map (weight cutoff e.states)).sum :=
    (hperm.map _).sum_eq
  have hpos : 0 < weight cutoff e.states entry := weight_pos hle
  cases hst : e.states[entry.2]? with
  | none =>
    have heq : { e with evictQueue := queue }.evictEntry entry = { e with evictQueue := queue } := by
      rw [evictEntry, visit, hst]
    rw [heq]
    refine ⟨⟨⟨h.enabled, hheap, h.filed, fun b st' hb hflag => h.popped hperm ?_ hb hflag⟩, h.threshold, h.resting⟩, ?_⟩
    · rintro rfl
      rw [hst] at hb
      cases hb
    · rw [hcredit]
      exact Nat.lt_add_of_pos_left hpos
  | some st =>
    have hactive (st' : FragmentSeriesState) (hst' : st'.lastActive = st.lastActive) (b : Nat) :
        ((e.states.set entry.2 st')[b]?).map lastActive = (e.states[b]?).map lastActive := by
      rw [getElem?_set, if_pos (List.getElem?_eq_some_iff.mp hst).1]
      split
      · rename_i heq
        rw [← heq, hst, map_some, map_some, hst']
      · rfl
    have hforget {e' : StreamingFragmentEncoder} (hqueue : e'.evictQueue = queue)
        (hstates : e'.states = e.states.set entry.2 { st with inEvictQueue := false }) :
          credit cutoff e' < credit cutoff e := by
      rw [hcredit, credit, hqueue, hstates, weight_congr (hactive { st with inEvictQueue := false } rfl)]
      exact Nat.lt_add_of_pos_left hpos
    have hfiled k (hk : e.series.lookup k = some entry.2) : st.key = k ∧ st.AtRest ∧ st.lastActive ≠ cutoff := by
      obtain ⟨st', hst', hkey, -⟩ := h.filed k _ hk
      obtain ⟨st'', hst'', hrest⟩ := h.resting k _ hk
      cases some.inj (hst.symm.trans hst')
      cases some.inj (hst.symm.trans hst'')
      exact ⟨hkey, hrest⟩
    rcases @evictEntry_cases { e with evictQueue := queue } st entry hst with ⟨hstays, heq⟩ | ⟨hnewer, heq⟩ | ⟨-, -,
      heq⟩ <;> rw [heq]
    · refine ⟨h.forget hperm hheap hst rfl rfl rfl rfl fun k b hb => ⟨hb, ?_⟩, hforget rfl rfl⟩
      rintro rfl
      obtain ⟨rfl, hrest, hoff⟩ := hfiled k hb
      obtain ⟨hidle, hopen | hactive⟩ := hstays hb
      · simp [hrest.chunk, hrest.count, ← Array.length_toList, hrest.pending] at hopen
      · have hthreshold := h.threshold
        exact hoff (by dsimp only at hactive; omega)
    · rw [set_state hst]
      refine ⟨h.putBack hperm hheap hst, ?_⟩
      have hold : weight cutoff e.states entry = 2 := by simp [weight, not_lt.mpr hle, hst, hnewer]
      have hnew : weight cutoff e.states (st.lastActive, entry.2) ≤ 1 := by
        simp only [weight, hst, map_some, any_some, lt_irrefl, decide_false, Bool.false_eq_true, if_false]
        split <;> omega
      have hpush := ((perm_push Prod.fst queue (st.lastActive, entry.2)).map (weight cutoff e.states)).sum_eq
      rw [map_cons, sum_cons] at hpush
      rw [hcredit, credit, hpush]
      omega
    · refine ⟨h.forget hperm hheap hst rfl rfl rfl rfl fun k b hb => ?_, hforget rfl rfl⟩
      have hk : k ≠ st.key := by
        rintro rfl
        rw [AList.lookup_erase] at hb
        cases hb
      rw [AList.lookup_erase_ne hk] at hb
      refine ⟨hb, ?_⟩
      rintro rfl
      exact hk (hfiled k hb).1.symm

theorem Sweeping.sweepEvictionsLoop {rounds : Nat} (hrounds : credit cutoff e ≤ rounds) :
    Sweeping cutoff (e.sweepEvictionsLoop cutoff rounds) ∧
      popEntry cutoff (e.sweepEvictionsLoop cutoff rounds).evictQueue = none := by
  induction rounds generalizing e with
  | zero =>
    refine ⟨h, ?_⟩
    cases hpop : popEntry cutoff e.evictQueue with
    | none => exact hpop
    | some popped => exact absurd (h.round hpop).2 (by omega)
  | succ rounds ih =>
    rw [StreamingFragmentEncoder.sweepEvictionsLoop]
    cases hpop : popEntry cutoff e.evictQueue with
    | none => exact ⟨h, hpop⟩
    | some popped =>
      obtain ⟨hround, hcredit⟩ := h.round hpop
      exact ih hround (by omega)

end

end

/-! ### Idle series -/

def EverySeries (e : StreamingFragmentEncoder) (P : FragmentSeriesState → Prop) : Prop :=
  ∀ k st, e.stateOf k = some st → P st

instance (e : StreamingFragmentEncoder) (P : FragmentSeriesState → Prop) [DecidablePred P] :
    Decidable (e.EverySeries P) :=
  decidable_of_iff (∀ entry ∈ e.series.pairs, ∀ st ∈ e.states[entry.2]?, P st) <| by
    simp only [EverySeries, stateOf, bind_eq_some_iff, forall_exists_index, and_imp, Prod.forall, GoMap.mem_pairs,
      mem_def]
    exact ⟨fun h k st a ha => h k a ha st, fun h k a ha st => h k st a ha⟩

def IdleBounded (e : StreamingFragmentEncoder) : Prop :=
  e.EverySeries fun st => e.maxObserved - st.lastActive ≤ e.idleEvictMs

def OffThreshold (e : StreamingFragmentEncoder) : Prop :=
  e.EverySeries fun st => st.lastActive ≠ e.maxObserved - e.idleEvictMs

theorem stateOf_eq_some {k : Bytes} :
    e.stateOf k = some st ↔ ∃ a, e.series.lookup k = some a ∧ e.states[a]? = some st := by
  rw [stateOf, bind_eq_some_iff]

theorem EvictInv.sweeping (h : EvictInv e) (hoff : e.OffThreshold) (ω : RangeOrder (Bytes × Nat)) :
    Sweeping (e.maxObserved - e.idleEvictMs) ({ e.drainAll xor
      (e.series.range ω) with drainQueue := #[] }).attributeResidual := by
  obtain ⟨hkeeps, hrests⟩ := @EvictInv.drainAll xor e h (e.series.range ω) fun entry hentry => GoMap.mem_range.mp hentry
  obtain ⟨queued, reported, heq⟩ := attributeResidual_eq { e.drainAll xor (e.series.range ω) with drainQueue := #[] }
  rw [heq]
  refine ⟨{ hkeeps.inv with }, by dsimp only; rw [hkeeps.maxObserved, hkeeps.idleEvictMs], fun k a ha => ?_⟩
  rw [hkeeps.series] at ha
  obtain ⟨st, hst, hrest⟩ := hrests (k, a) (GoMap.mem_range.mpr ha)
  refine ⟨st, hst, hrest, ?_⟩
  obtain ⟨st', hst', -⟩ := h.filed k a ha
  have hactive := hkeeps.active a
  rw [hst, hst', map_some, map_some] at hactive
  rw [some.inj hactive]
  exact hoff k st' (stateOf_eq_some.mpr ⟨a, ha, hst'⟩)

theorem EvictInv.drainForced (h : EvictInv e) (hoff : e.OffThreshold) (ω : RangeOrder (Bytes × Nat)) :
    EvictInv (e.drainForced xor ω) ∧ (e.drainForced xor ω).IdleBounded := by
  have hsweep := @EvictInv.sweeping xor e h hoff ω
  unfold StreamingFragmentEncoder.drainForced sweepEvictions
  generalize ({ e.drainAll xor (e.series.range ω) with drainQueue := #[] }).attributeResidual = e' at hsweep
  rw [if_neg (not_le.mpr hsweep.enabled), hsweep.threshold]
  obtain ⟨hswept, hnone⟩ := hsweep.sweepEvictionsLoop (credit_le _ e')
  refine ⟨hswept.toEvictInv, fun k st hst => ?_⟩
  obtain ⟨a, ha, hst⟩ := stateOf_eq_some.mp hst
  obtain ⟨st', hst', hrest, -⟩ := hswept.resting k a ha
  cases some.inj (hst.symm.trans hst')
  obtain ⟨t, ht, hmem⟩ := hswept.queued a st hst hrest.queued
  have hlt := popEntry_eq_none hswept.heap hnone hmem
  have hthreshold := hswept.threshold
  omega

end

end StreamingFragmentEncoder

namespace FragmentRun

open StreamingFragmentEncoder
open ColdShard (sampleAt)

variable (xor : XorChunk)

/-- A forced drain finds no series exactly at the idle threshold. -/
def OffThresholdAt (r : FragmentRun) : FragmentCall → Prop
  | .drain true _ => r.encoder.OffThreshold
  | _ => True

instance (r : FragmentRun) : (call : FragmentCall) → Decidable (r.OffThresholdAt call)
  | .addSample _ | .drain false _ => .isTrue trivial
  | .drain true _ => inferInstanceAs (Decidable (r.encoder.EverySeries _))

/-- No forced drain of the run finds a series exactly at the idle threshold. -/
abbrev OffThreshold (r : FragmentRun) : List FragmentCall → Prop := Always (step xor) OffThresholdAt r

variable {xor} {calls : List FragmentCall}

theorem evictInv_step {r : FragmentRun} (h : EvictInv r.encoder) {call : FragmentCall}
    (hoff : r.OffThresholdAt call) : EvictInv (r.step xor call).encoder := by
  match call with
  | .addSample s => exact h.addSample s
  | .drain false ω => exact { EvictInv.drainReadyLoop _ _ h with }
  | .drain true ω => exact { (h.drainForced hoff ω).1 with }

theorem idleBounded_run {r : FragmentRun} (h : EvictInv r.encoder)
    {ω : RangeOrder (Bytes × Nat)} (hoff : r.OffThreshold xor (calls ++ [.drain true ω])) :
    ((calls ++ [FragmentCall.drain true ω]).foldl (step xor) r).encoder.IdleBounded := by
  obtain ⟨hcalls, hlast, -⟩ := always_append.mp hoff
  have hinv := hcalls.invariant (I := fun r => EvictInv r.encoder) (fun _ h hoff => evictInv_step h hoff) h
  rw [foldl_append]
  exact (hinv.drainForced hlast ω).2

theorem evictInv_new {opts : StreamingFragmentOptions} (hidle : 0 < (StreamingFragmentEncoder.new opts).idleEvictMs) :
    EvictInv (StreamingFragmentEncoder.new opts) := by
  refine ⟨hidle, ?_, ?_, ?_⟩
  · intro i _ hi
    exact absurd hi (Nat.not_lt_zero i)
  · intro k a ha
    cases ha
  · intro a st hst
    cases hst

/-- Where no forced drain finds a series exactly at the idle threshold, none leaves a series that has been idle for
longer. -/
theorem idle_series_evicted (xor : XorChunk) (opts : StreamingFragmentOptions) (calls : List FragmentCall)
    (ω : RangeOrder (Bytes × Nat)) (hidle : 0 < (StreamingFragmentEncoder.new opts).idleEvictMs)
    (hoff : OffThreshold xor ⟨.new opts, [], []⟩ (calls ++ [.drain true ω])) :
    (run xor opts (calls ++ [.drain true ω])).encoder.IdleBounded :=
  idleBounded_run (evictInv_new hidle) hoff

/-- One series is idle from 100 ms on, the other is drained at the given time and has another sample at 1000 ms. -/
def idleSince (ms : Nat) : List FragmentCall :=
  window [sampleAt "a" 100] ++ window [sampleAt "b" ms] ++ [.addSample (sampleAt "b" 1000)]

theorem idle_series_evicted_after :
    (run plainChunk tenMillis (idleSince 131 ++ [.drain true (.stored _)])).encoder.evicted = 1 ∧
      (run plainChunk tenMillis (idleSince 131 ++ [.drain true (.stored _)])).encoder.IdleBounded :=
  ⟨by decide +kernel, idle_series_evicted plainChunk tenMillis (idleSince 131) (.stored _) (by decide)
    (by decide +kernel)⟩

/-- A sweep exactly at the threshold loses the entry of the series, which then stays. -/
theorem series_at_threshold_stays :
    ¬ (run plainChunk tenMillis (idleSince 130 ++ [.drain true (.stored _)])).encoder.IdleBounded := by
  unfold IdleBounded
  decide +kernel

end FragmentRun

end AsapCollector
