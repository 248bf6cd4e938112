import AsapCollector.Theorems.Cold.Archive

/-! Fragments, open chunks, pending points and drops account for the samples in every run. The fragments of a series
follow each other in time as long as a series that comes back after its eviction brings later samples only. -/

namespace AsapCollector

open StreamingFragmentEncoder TSDBSample Option IntChunk

inductive FragmentCall where
  | addSample (s : TSDBSample)
  | drain (force : Bool) (ω : RangeOrder (Bytes × Nat))

/-- An encoder with the fragments its drains have returned and the samples it has accepted. -/
structure FragmentRun where
  encoder : StreamingFragmentEncoder
  returned : List Fragment
  accepted : List TSDBSample

namespace FragmentRun

/-- The fragments returned or queued, in the order in which they were cut. -/
def produced (r : FragmentRun) : List Fragment := r.returned ++ r.encoder.queued

variable (xor : XorChunk)

def step (r : FragmentRun) : FragmentCall → FragmentRun
  | .addSample s => { r with encoder := r.encoder.addSample xor s, accepted := r.accepted ++ [s] }
  | .drain force ω =>
    { r with
      encoder := (r.encoder.drain xor force ω).2, returned := r.returned ++ (r.encoder.drain xor force ω).1 }

def run (opts : StreamingFragmentOptions) (calls : List FragmentCall) : FragmentRun :=
  calls.foldl (step xor) ⟨.new opts, [], []⟩

/-- A sample for a series whose state has appended nothing is later than the fragments of the series. -/
def FollowsAt (r : FragmentRun) : FragmentCall → Prop
  | .addSample s => r.encoder.Follows r.returned s
  | .drain _ _ => True

instance (r : FragmentRun) : (call : FragmentCall) → Decidable (r.FollowsAt call)
  | .addSample s => inferInstanceAs (Decidable (r.encoder.appended s.toSeriesId.key = false →
      ∀ f ∈ fragmentsOf s.toSeriesId.key (r.returned ++ r.encoder.queued), f.maxTime < s.point.time))
  | .drain _ _ => .isTrue trivial

/-- Every sample of the run follows the fragments of its series. -/
abbrev Following (r : FragmentRun) : List FragmentCall → Prop := Always (step xor) FollowsAt r

def Sound (strict : Prop) (limit : Nat) (r : FragmentRun) : Prop :=
  Inv xor strict limit r.encoder r.returned r.accepted (r.accepted.map toSeriesId)

variable {xor} {strict : Prop} {limit : Nat} {r : FragmentRun}

theorem Sound.drain (hxor : xor.LosslessUpTo limit) (hpos : 0 < limit) (h : r.Sound xor strict limit) (force : Bool)
    (ω : RangeOrder (Bytes × Nat)) : (r.step xor (.drain force ω)).Sound xor strict limit := by
  have hdrained : Inv xor strict limit
      (if force then r.encoder.drainForced xor ω else r.encoder.drainReady xor
        (r.encoder.maxObserved - r.encoder.reorderGrace))
      r.returned r.accepted (r.accepted.map toSeriesId) := by
    split
    · exact (Inv.drainForced hxor hpos h ω).1
    · exact (Inv.drainReadyLoop hxor hpos h _ _).1
  -- what was queued has been returned
  have hproduced : ∀ q : List Fragment, r.returned ++ q ++ [] = r.returned ++ q := fun _ => List.append_nil _
  exact hdrained.transfer rfl rfl rfl rfl rfl (fun k => congrArg _ (hproduced _))
    (fun f hf => hdrained.described f (hproduced _ ▸ hf))
    ⟨(congrArg _ (congrArg _ (hproduced _))).trans hdrained.reported.sum, hdrained.reported.le⟩

theorem Sound.run (hxor : xor.LosslessUpTo limit) (hpos : 0 < limit) (h : r.Sound xor strict limit)
    {calls : List FragmentCall} (hcalls : strict → r.Following xor calls) :
    (calls.foldl (step xor) r).Sound xor strict limit := by
  induction calls generalizing r with
  | nil => exact h
  | cons call calls ih =>
    refine ih ?_ fun hs => (hcalls hs).2
    cases call with
    | drain force ω => exact h.drain hxor hpos force ω
    | addSample s =>
      have hadded := (Inv.addSample hxor hpos h s fun hs => .inr (hcalls hs).1).1
      have hids : r.accepted.map toSeriesId ++ [s.toSeriesId] = (r.accepted ++ [s]).map toSeriesId := by simp
      rw [hids] at hadded
      exact hadded

theorem samplesPerChk_pos (opts : StreamingFragmentOptions) : 0 < (new opts).samplesPerChk := by
  unfold new
  dsimp only
  split
  · decide
  · omega

variable {opts : StreamingFragmentOptions}

theorem sound_run
    (hxor : xor.LosslessUpTo (new opts).samplesPerChk) {calls : List FragmentCall}
    (hcalls : strict → (⟨.new opts, [], []⟩ : FragmentRun).Following xor calls) :
    (run xor opts calls).Sound xor strict (new opts).samplesPerChk := by
  have hnew : Sound xor strict (new opts).samplesPerChk ⟨.new opts, [], []⟩ := Inv.new opts
  exact hnew.run hxor (samplesPerChk_pos opts) hcalls

/-- The samples of the series that are in its open chunk. -/
def openFor (r : FragmentRun) (k : Bytes) : List Sample :=
  ((r.encoder.stateOf k).map FragmentSeriesState.openSamples).getD []

/-- The samples of the series that wait for the reorder grace. -/
def pendingFor (r : FragmentRun) (k : Bytes) : List Sample :=
  ((r.encoder.stateOf k).map fun st => st.pending.toList).getD []

/-- The drops that the fragments report. -/
def carried (fs : List Fragment) : Nat := (fs.map Fragment.oooDropCount).sum

variable (xor) in
def times (f : Fragment) : Set Int := { t | ∃ p ∈ f.samples xor, p.time = t }

variable (xor) in
/-- Nothing the encoder was given is lost or counted twice, in no series and not among the drops. -/
structure Accounted (r : FragmentRun) : Prop where
  conserved : ∀ k, (acceptedFor k r.accepted).Perm
    (ofKey k r.encoder.dropped ++ (shippedFor xor k r.produced ++ (r.openFor k ++ r.pendingFor k)))
  described : ∀ f ∈ r.produced, f.count = (f.samples xor).length ∧ IsLeast (times xor f) f.minTime ∧
    IsGreatest (times xor f) f.maxTime ∧ Ascending (f.samples xor)
  carried_le : carried r.produced ≤ r.encoder.droppedSamples
  carried_eq : ∀ ω, (r.encoder.drain xor true ω).1 ≠ [] →
    carried (r.returned ++ (r.encoder.drain xor true ω).1) = (r.encoder.drain xor true ω).2.droppedSamples

theorem Sound.conserved (h : r.Sound xor strict limit) (k : Bytes) : (acceptedFor k r.accepted).Perm
    (ofKey k r.encoder.dropped ++ (shippedFor xor k r.produced ++ (r.openFor k ++ r.pendingFor k))) := by
  unfold openFor pendingFor stateOf
  cases hlookup : r.encoder.series.lookup k with
  | none =>
    have hsettled := (Inv.settled h k hlookup).conserved
    rw [bind_none, map_none, map_none, getD_none, List.append_nil, List.append_nil]
    exact hsettled
  | some a =>
    obtain ⟨st, hst, rfl, htracks⟩ := Inv.tracked h k a hlookup
    rw [bind_some, hst, map_some, map_some, getD_some, getD_some, ← List.append_assoc (shippedFor ..)]
    exact htracks.conserved

theorem bounds_of_sound {f : Fragment} (h : f.Sound xor) :
    IsLeast (times xor f) f.minTime ∧ IsGreatest (times xor f) f.maxTime := by
  refine ⟨⟨h.spans.exists_first, ?_⟩, ⟨h.spans.exists_last, ?_⟩⟩
  · rintro t ⟨p, hp, rfl⟩
    exact (h.spans.bounds h.ascending hp).1
  · rintro t ⟨p, hp, rfl⟩
    exact (h.spans.bounds h.ascending hp).2

/-- At every point of every run, with or without eviction, fragments, open chunks, pending points and drops
account for the samples accepted, the fragments describe their samples, and the drops they carry are those
counted as far as a forced drain has had a fragment to put them on. -/
theorem encoder_conserves_samples
    (hxor : xor.LosslessUpTo (new opts).samplesPerChk) (calls : List FragmentCall) :
    Accounted xor (run xor opts calls) := by
  have hsound : (run xor opts calls).Sound xor False _ := sound_run hxor fun hs => hs.elim
  refine ⟨hsound.conserved, fun f hf => ?_, ?_, fun ω hne => ?_⟩
  · obtain ⟨hf, -⟩ := Inv.described hsound f hf
    exact ⟨hf.count, (bounds_of_sound hf).1, (bounds_of_sound hf).2, hf.ascending⟩
  · exact (Inv.reported hsound).sum.trans_le (Inv.reported hsound).le
  · obtain ⟨hforced, hcomplete⟩ := Inv.drainForced hxor (samplesPerChk_pos opts) hsound ω
    exact hforced.reported.sum.trans (hcomplete hne)

/-- A reorder grace of ten milliseconds, so series are evicted after thirty. -/
def tenMillis : StreamingFragmentOptions := ⟨10000000, 2, str "agent", 0⟩

def window (samples : List TSDBSample) : List FragmentCall := samples.map .addSample ++ [.drain true (.stored _)]

open ColdShard (sampleAt)

def lateSample : List FragmentCall :=
  window [sampleAt "a" 100, sampleAt "a" 120] ++ window [sampleAt "a" 110, sampleAt "a" 130]

/-- The late sample is dropped, and the next fragment carries the drop. -/
theorem encoder_conserves_samples_late :
    (run plainChunk tenMillis lateSample).encoder.droppedSamples = 1 ∧
      Accounted plainChunk (run plainChunk tenMillis lateSample) :=
  ⟨by decide +kernel, encoder_conserves_samples (plainChunk_lossless.upTo (by decide)) _⟩

/-- A forced drain after any run, in any order of the series, leaves nothing inside: what was accepted has been dropped
or is in a fragment that was returned. -/
theorem forced_drain_returns_all
    (hxor : xor.LosslessUpTo (new opts).samplesPerChk) (calls : List FragmentCall)
    (ω : RangeOrder (Bytes × Nat)) (k : Bytes) :
    let r := (run xor opts calls).step xor (.drain true ω)
    (acceptedFor k r.accepted).Perm (ofKey k r.encoder.dropped ++ shippedFor xor k r.returned) := by
  have hsound : (run xor opts calls).Sound xor False _ := sound_run hxor fun hs => hs.elim
  exact (Inv.drainForced_accounts hxor (samplesPerChk_pos opts) hsound ω k).1

/-- A late sample and a point that is still pending when the drain comes. -/
theorem forced_drain_returns_all_late :
    let k := (sampleAt "a" 100).toSeriesId.key
    let calls := lateSample ++ [.addSample (sampleAt "a" 140)]
    let r := (run plainChunk tenMillis calls).step plainChunk (.drain true (.stored _))
    (run plainChunk tenMillis calls).pendingFor k ≠ [] ∧ ofKey k r.encoder.dropped ≠ [] ∧
      (acceptedFor k r.accepted).Perm (ofKey k r.encoder.dropped ++ shippedFor plainChunk k r.returned) :=
  ⟨by decide +kernel, by decide +kernel,
    forced_drain_returns_all (plainChunk_lossless.upTo (by decide)) _ (.stored _) _⟩

/-- The fragments of one metric name and attribute map follow each other in time. -/
def Successive (fs : List Fragment) : Prop :=
  ∀ id : SeriesId, (fs.filter fun f => f.toSeriesId = id).Pairwise fun f g => f.maxTime < g.minTime

theorem Sound.ascending (h : r.Sound xor True limit) (k : Bytes) : Ascending (shippedFor xor k r.produced) := by
  cases hlookup : r.encoder.series.lookup k with
  | none => exact (Inv.settled h k hlookup).ascending trivial
  | some a =>
    obtain ⟨st, -, rfl, htracks⟩ := Inv.tracked h k a hlookup
    exact (List.pairwise_append.mp (htracks.ordered trivial).ascending).1

/-- In every run in which a sample for a series without appended points, new or evicted before, is later than
all fragments of the series, the fragments of each series follow each other in time. -/
theorem fragments_follow_each_other
    (hxor : xor.LosslessUpTo (new opts).samplesPerChk) {calls : List FragmentCall}
    (hcalls : (⟨.new opts, [], []⟩ : FragmentRun).Following xor calls) : Successive (run xor opts calls).produced := by
  have hsound : (run xor opts calls).Sound xor True _ := sound_run hxor fun _ => hcalls
  intro id
  refine ((pairwise_fragments hsound.ascending).filter _).imp_of_mem fun {f g} hf hg hlt => ?_
  obtain ⟨hfmem, hfid⟩ := List.mem_filter.mp hf
  obtain ⟨hgmem, hgid⟩ := List.mem_filter.mp hg
  obtain ⟨p, hp, hmax⟩ := (Inv.described hsound f hfmem).1.spans.exists_last
  obtain ⟨q, hq, hmin⟩ := (Inv.described hsound g hgmem).1.spans.exists_first
  have hkey : f.toSeriesId.key = g.toSeriesId.key := by rw [of_decide_eq_true hfid, of_decide_eq_true hgid]
  exact hmax ▸ hmin ▸ hlt hkey p hp q hq

/-- The first series is evicted when the second has moved time on, and comes back with a sample at `ms`. -/
def comesBack (ms : Nat) : List FragmentCall :=
  window [sampleAt "a" 100, sampleAt "a" 120] ++ window [sampleAt "b" 300] ++ window [sampleAt "a" ms]

theorem fragments_follow_each_other_later :
    (run plainChunk tenMillis (comesBack 310)).encoder.evicted = 1 ∧
      Successive (run plainChunk tenMillis (comesBack 310)).produced :=
  ⟨by decide +kernel, fragments_follow_each_other (plainChunk_lossless.upTo (by decide)) (by decide +kernel)⟩

/-- With an old sample the series starts a fragment inside the one it had shipped: its last timestamp went
with its state. -/
theorem evicted_series_fragments_overlap :
    ((run plainChunk tenMillis (comesBack 110)).returned.map fun f => (f.minTime, f.maxTime)) =
      [(100, 120), (300, 300), (110, 110)] ∧
    ¬Successive (run plainChunk tenMillis (comesBack 110)).returned := by
  refine ⟨by decide +kernel, fun h => ?_⟩
  have hpair := h (sampleAt "a" 100).toSeriesId
  revert hpair
  decide +kernel

end FragmentRun

end AsapCollector
