import AsapCollector.Theorems.Sdk.Aggregator
import AsapCollector.Theorems.Series.Dictionary

/-! A point is `Ready` when following its pointer does what it is meant to. Annotating ready points keeps the
aggregator's invariant and gives each point the identity of its series. -/

namespace AsapCollector

open Aggregator Function List

/-- A point identifies its series: by the attributes, or by an id the series may have. -/
def Identifies (may : Attributes → Nat → Prop) (A : Attributes) (dp : DataPoint) : Prop :=
  (dp.seriesID = 0 ∧ dp.attributes = A) ∨ may A dp.seriesID

section Annotate

variable {may : Attributes → Nat → Prop} {P : Bytes → Nat → Prop} {descriptor : Attributes → Bytes} {agg : Aggregator}
  {s : SourceState} {A B : Attributes} {dp dp' : DataPoint} {gen : Nat}

structure ReadyRegistered (may : Attributes → Nat → Prop) (agg : Aggregator) (A : Attributes) (dp : DataPoint) :
    Prop where
  sink : dp.seriesIDSink = none
  id_ne : dp.seriesID ≠ 0
  id : may A dp.seriesID
  clearer : ∀ {B q}, agg.values.lookup B = some q → dp.attrsClearer = some q → (agg.heap q).seriesID ≠ 0

/-- The point of a series without an id, whose struct is `r`. If the struct has got an id by now, then
from a point of the same series, and this point gets one too. An id that the dictionary has for its
descriptor is one it may have. -/
structure ReadyUnregistered (may : Attributes → Nat → Prop) (P : Bytes → Nat → Prop) (descriptor : Attributes → Bytes)
    (agg : Aggregator) (s : SourceState) (A : Attributes) (dp : DataPoint) (r : Nat) : Prop where
  sink : dp.seriesIDSink = some r
  clearer : dp.attrsClearer = some r
  attributes : dp.attributes = A
  id : dp.seriesID = 0 ∨ may A dp.seriesID
  allows : ∀ {id}, P (descriptor A) id → may A id
  own : ∀ {B}, agg.values.lookup B = some r → B = A
  known : agg.values.lookup A = some r → (agg.heap r).seriesID ≠ 0 → dp.seriesID = 0 → s.Registered (descriptor A)

def Ready (may : Attributes → Nat → Prop) (P : Bytes → Nat → Prop) (descriptor : Attributes → Bytes) (agg : Aggregator)
    (s : SourceState) (A : Attributes) (dp : DataPoint) : Prop :=
  ReadyRegistered may agg A dp ∨ ∃ r, ReadyUnregistered may P descriptor agg s A dp r

variable (heap : SeriesHeap)

/-- The heap after the points' pointers to `r` have been followed with the id `id`. -/
def identified (r id : Nat) : SeriesHeap :=
  update heap r { heap r with seriesID := id, attrs := if id = 0 then (heap r).attrs else [] }

variable {s' : SourceState}

theorem annotatePoint_of_sink {r : Nat} {id : Nat} {attrs : Attributes}
    (hsink : dp.seriesIDSink = some r) (hclear : dp.attrsClearer = some r)
    (hassign : s.assignSeriesID descriptor gen dp = (s', { dp with seriesID := id, attributes := attrs })) :
    annotatePoint descriptor gen s agg.heap dp =
      (s', identified agg.heap r id, ⟨id, attrs, none, if id = 0 then some r else none⟩) := by
  unfold annotatePoint identified
  rw [hassign]
  by_cases hid : id = 0
  · simp [writeSink, clearAttrs, hsink, hclear, hid]
  · simp [writeSink, clearAttrs, hsink, hclear, hid]

theorem annotatePoint_of_registered (hsink : dp.seriesIDSink = none) (hid : dp.seriesID ≠ 0) :
    annotatePoint descriptor gen s agg.heap dp =
      (s, (clearAttrs agg.heap dp).1, (clearAttrs agg.heap dp).2) := by
  unfold annotatePoint
  simp [SourceState.assignSeriesID, writeSink, hid, hsink]

theorem clearAttrs_point (dp : DataPoint) :
    (clearAttrs heap dp).2.seriesID = dp.seriesID ∧ (clearAttrs heap dp).2.seriesIDSink = dp.seriesIDSink := by
  unfold clearAttrs
  split
  · exact ⟨rfl, rfl⟩
  · split <;> exact ⟨rfl, rfl⟩

theorem clearAttrs_seriesID (dp : DataPoint) (q : Nat) : ((clearAttrs heap dp).1 q).seriesID = (heap q).seriesID := by
  unfold clearAttrs
  split
  · rfl
  · rename_i r _
    split
    · by_cases hq : q = r
      · subst hq
        simp
      · simp [hq]
    · rfl

theorem clearAttrs_attrs {heap : SeriesHeap} {q : Nat} (hq : dp.attrsClearer ≠ some q) :
    ((clearAttrs heap dp).1 q).attrs = (heap q).attrs := by
  unfold clearAttrs
  split
  · rfl
  · rename_i r hr
    have hqr : q ≠ r := fun h => hq (h ▸ hr)
    split
    · simp [hqr]
    · rfl

/-- The state of the annotation loop after a point: the invariants still hold, no entry has been
forgotten, and a struct that had an id has one. -/
structure Annotated (may : Attributes → Nat → Prop) (P : Bytes → Nat → Prop) (agg : Aggregator) (s s' : SourceState)
    (heap' : SeriesHeap) : Prop where
  owns : Owns may { agg with heap := heap' }
  sound : s'.Sound P
  keeps : ∀ {key}, s.Registered key → s'.Registered key
  ids : ∀ {B q}, agg.values.lookup B = some q → (agg.heap q).seriesID ≠ 0 → (heap' q).seriesID ≠ 0

theorem ReadyRegistered.annotated (hr : ReadyRegistered may agg A dp) (howns : Owns may agg) (hsound : s.Sound P) :
    Annotated may P agg s s (clearAttrs agg.heap dp).1 where
  owns := by
    -- what is cleared belongs to no live series, or to one that is known by its id
    have hsame : ∀ q, ((clearAttrs agg.heap dp).1 q).seriesID = (agg.heap q).seriesID := clearAttrs_seriesID _ _
    refine { howns with unregistered := ?_, registered := ?_ }
    · intro B q hB hid
      rw [hsame] at hid
      rw [clearAttrs_attrs fun hclear => hr.clearer hB hclear hid]
      exact howns.unregistered hB hid
    · intro B q hB hid
      rw [hsame] at hid ⊢
      exact howns.registered hB hid
  sound := hsound
  keeps h := h
  ids _ hid := by rwa [clearAttrs_seriesID]

theorem ReadyUnregistered.annotated {r id : Nat}
    (hr : ReadyUnregistered may P descriptor agg s A dp r) (howns : Owns may agg) (hsound : s'.Sound P)
    (hkeeps : ∀ {key}, s.Registered key → s'.Registered key) (hid : id = 0 ∨ may A id)
    (hknown : agg.values.lookup A = some r → (agg.heap r).seriesID ≠ 0 → id ≠ 0) :
    Annotated may P agg s s' (identified agg.heap r id) where
  owns := by
    refine { howns with unregistered := ?_, registered := ?_ }
    · intro B q hB hzero
      by_cases hq : q = r
      · subst hq
        obtain rfl := hr.own hB
        simp only [identified, update_self] at hzero ⊢
        rw [if_pos hzero]
        exact howns.unregistered hB (by_contra fun hne => hknown hB hne hzero)
      · simp only [identified, update_of_ne hq] at hzero ⊢
        exact howns.unregistered hB hzero
    · intro B q hB hne
      by_cases hq : q = r
      · subst hq
        obtain rfl := hr.own hB
        simp only [identified, update_self] at hne ⊢
        exact hid.resolve_left hne
      · simp only [identified, update_of_ne hq] at hne ⊢
        exact howns.registered hB hne
  sound := hsound
  keeps := hkeeps
  ids {B q} hB hne := by
    by_cases hq : q = r
    · subst hq
      obtain rfl := hr.own hB
      simpa only [identified, update_self] using hknown hB hne
    · simpa only [identified, update_of_ne hq] using hne

theorem Ready.annotatePoint (hready : Ready may P descriptor agg s A dp) (howns : Owns may agg)
    (hsound : s.Sound P) (gen : Nat) :
    ∃ s' heap' out, annotatePoint descriptor gen s agg.heap dp = (s', heap', out) ∧
      Annotated may P agg s s' heap' ∧ out.seriesIDSink = none ∧
      Identifies may A out ∧
      ∀ {B q}, agg.values.lookup B = some q → (agg.heap q).seriesID = 0 → (heap' q).seriesID ≠ 0 →
        B = A ∧ (dp.seriesID = 0 → s'.Registered (descriptor A)) := by
  rcases hready with hr | ⟨r, hr⟩
  · refine ⟨_, _, _, annotatePoint_of_registered hr.sink hr.id_ne, hr.annotated howns hsound, ?_, .inr ?_, ?_⟩
    · rw [(clearAttrs_point _ _).2, hr.sink]
    · rw [(clearAttrs_point _ _).1]
      exact hr.id
    · intro B q _ hzero hne
      rw [clearAttrs_seriesID] at hne
      exact absurd hzero hne
  · obtain ⟨hsound', hkeeps, hcases⟩ := hsound.assignSeriesID descriptor gen dp
    have hout : ∀ {q id}, (identified agg.heap r id q).seriesID ≠ 0 → (agg.heap q).seriesID = 0 → q = r := by
      intro q id hne hzero
      by_contra hq
      rw [identified, update_of_ne hq] at hne
      exact hne hzero
    rcases hcases with ⟨hsame, hunknown⟩ | ⟨hdp, id, hP, hnew, hstored, hnz⟩
    · refine ⟨_, _, _, annotatePoint_of_sink hr.sink hr.clearer (Prod.ext rfl hsame), ?_, rfl, ?_, ?_⟩
      · refine hr.annotated howns hsound' hkeeps hr.id fun hA hne hzero => ?_
        exact hunknown hzero (hr.attributes ▸ hr.known hA hne hzero)
      · rcases hr.id with hzero | hP
        · exact .inl ⟨hzero, hr.attributes⟩
        · exact .inr hP
      · intro B q hB hzero hne
        obtain rfl := hout hne hzero
        refine ⟨hr.own hB, fun hdp => absurd hdp ?_⟩
        simpa only [identified, update_self] using hne
    · rw [hr.attributes] at hP hstored hnz
      refine ⟨_, _, _, annotatePoint_of_sink hr.sink hr.clearer (Prod.ext rfl hnew), ?_, rfl, .inr (hr.allows hP), ?_⟩
      · exact hr.annotated howns hsound' hkeeps (.inr (hr.allows hP)) fun hA hne => hnz (hr.known hA hne hdp)
      · intro B q hB hzero hne
        obtain rfl := hout hne hzero
        refine ⟨hr.own hB, fun _ => hstored ?_⟩
        simpa only [identified, update_self] using hne

/-- Annotating another point does not make a ready point unready, unless both are of one series and
only the other has an id that no entry explains. -/
theorem Ready.after {heap' : SeriesHeap} (hready : Ready may P descriptor agg s B dp')
    (hann : Annotated may P agg s s' heap') (hexcept : B = A → dp'.seriesID = 0 → dp.seriesID = 0)
    (hnew : ∀ {C q}, agg.values.lookup C = some q → (agg.heap q).seriesID = 0 → (heap' q).seriesID ≠ 0 →
        C = A ∧ (dp.seriesID = 0 → s'.Registered (descriptor A))) :
    Ready may P descriptor { agg with heap := heap' } s' B dp' := by
  rcases hready with hr | ⟨r, hr⟩
  · exact .inl { hr with clearer := fun hC hclear => hann.ids hC (hr.clearer hC hclear) }
  · refine .inr ⟨r, { hr with known := fun hB hne hzero => ?_ }⟩
    by_cases hold : (agg.heap r).seriesID = 0
    · obtain ⟨rfl, hreg⟩ := hnew hB hold hne
      exact hreg (hexcept rfl hzero)
    · exact hann.keeps (hr.known hB hold hzero)

theorem Annotated.trans {s₁ s₂ : SourceState} {heap₁ heap₂ : SeriesHeap} (h₁ : Annotated may P agg s s₁ heap₁)
    (h₂ : Annotated may P { agg with heap := heap₁ } s₁ s₂ heap₂) : Annotated may P agg s s₂ heap₂ where
  owns := h₂.owns
  sound := h₂.sound
  keeps h := h₂.keeps (h₁.keeps h)
  ids hB hne := h₂.ids hB (h₁.ids hB hne)

/-- Annotating a list of ready points, each given with the attributes of its series. Two points of one
series may both be without an id, or the earlier one has none. -/
theorem annotatePoints_ready (points : List (Attributes × DataPoint)) (gen : Nat) :
    ∀ {agg : Aggregator} {s : SourceState}, Owns may agg → s.Sound P →
      (∀ p ∈ points, Ready may P descriptor agg s p.1 p.2) →
      points.Pairwise (fun p q => q.1 = p.1 → q.2.seriesID = 0 → p.2.seriesID = 0) →
      ∃ s' heap' out, annotatePoints descriptor gen s agg.heap (points.map Prod.snd) = (s', heap', out) ∧
        Annotated may P agg s s' heap' ∧
        Forall₂ (fun p o => o.seriesIDSink = none ∧ Identifies may p.1 o) points out := by
  induction points with
  | nil =>
    intro agg s howns hsound _ _
    exact ⟨s, agg.heap, [], rfl, ⟨howns, hsound, id, fun _ h => h⟩, .nil⟩
  | cons p points ih =>
    intro agg s howns hsound hready hpair
    obtain ⟨hhead, htail⟩ := pairwise_cons.mp hpair
    obtain ⟨s₁, heap₁, out, heq, hann, hsink, hident, hnew⟩ :=
      (hready p mem_cons_self).annotatePoint howns hsound gen
    have hready₁ : ∀ q ∈ points, Ready may P descriptor { agg with heap := heap₁ } s₁ q.1 q.2 := fun q hq =>
      (hready q (mem_cons_of_mem p hq)).after hann (hhead q hq) hnew
    obtain ⟨s₂, heap₂, outs, heqs, hanns, hall⟩ := ih hann.owns hann.sound hready₁ htail
    refine ⟨s₂, heap₂, out :: outs, ?_, hann.trans hanns, .cons ⟨hsink, hident⟩ hall⟩
    rw [map_cons, annotatePoints, heq]
    simp only [heqs]

end Annotate

theorem SourceState.Sound.annotatePoints {s : SourceState} {P : Bytes → Nat → Prop} (h : s.Sound P)
    (descriptor : Attributes → Bytes) (gen : Nat) (heap : SeriesHeap) (dps : List DataPoint) :
    (annotatePoints descriptor gen s heap dps).1.Sound P := by
  induction dps generalizing s heap with
  | nil => exact h
  | cons dp dps ih => exact ih (h.assignSeriesID descriptor gen dp).1 _

theorem writeSink_seriesID {heap : SeriesHeap} {dp : DataPoint} {r : Nat} (h : dp.seriesIDSink = some r →
    dp.seriesID = 0) (hr : (heap r).seriesID = 0) : ((writeSink heap dp).1 r).seriesID = 0 := by
  unfold writeSink
  split
  · exact hr
  · next q hq =>
    by_cases hrq : r = q
    · subst hrq
      simpa using h hq
    · simpa [hrq] using hr

theorem writeSink_point (heap : SeriesHeap) (dp : DataPoint) :
    (writeSink heap dp).2.seriesID = dp.seriesID ∧ (writeSink heap dp).2.attributes = dp.attributes := by
  unfold writeSink
  split <;> exact ⟨rfl, rfl⟩

theorem clearAttrs_attributes (heap : SeriesHeap) (dp : DataPoint) :
    (clearAttrs heap dp).2.attributes = dp.attributes := by
  unfold clearAttrs
  split
  · rfl
  · split <;> rfl

variable {descriptor : Attributes → Bytes}

theorem annotatePoints_unknown {gen : Nat} {A : Attributes}
    (points : List (Attributes × DataPoint)) :
    ∀ {s : SourceState} {heap : SeriesHeap}, s.Sound (fun key _ => key ≠ descriptor A) →
      (∀ p ∈ points, p.1 = A → p.2.seriesID = 0 ∧ p.2.attributes = A) →
      Forall₂ (fun p o => p.1 = A → o.seriesID = 0 ∧ o.attributes = A) points
          (annotatePoints descriptor gen s heap (points.map Prod.snd)).2.2 ∧
        ∀ r, (∀ p ∈ points, p.2.seriesIDSink = some r → p.1 = A) → (heap r).seriesID = 0 →
          ((annotatePoints descriptor gen s heap (points.map Prod.snd)).2.1 r).seriesID = 0 := by
  induction points with
  | nil => exact fun _ _ => ⟨.nil, fun _ _ hr => hr⟩
  | cons p points ih =>
    intro s heap hunknown hpoints
    obtain ⟨hnext, -, hcases⟩ := hunknown.assignSeriesID descriptor gen p.2
    obtain ⟨hout, hheap⟩ := @ih _ (annotatePoint descriptor gen s heap p.2).2.1 hnext
      fun p' hp' => hpoints p' (mem_cons_of_mem p hp')
    have hsink : (s.assignSeriesID descriptor gen p.2).2.seriesIDSink = p.2.seriesIDSink := by
      rcases hcases with ⟨hsame, -⟩ | ⟨-, id, -, hnew, -⟩
      · rw [hsame]
      · rw [hnew]
    have hsame : p.1 = A → (s.assignSeriesID descriptor gen p.2).2 = p.2 := by
      intro hA
      rcases hcases with ⟨hsame, -⟩ | ⟨-, id, hne, -⟩
      · exact hsame
      · exact absurd (congrArg descriptor (hpoints p mem_cons_self hA).2) hne
    have hhead : p.1 = A → (annotatePoint descriptor gen s heap p.2).2.2.seriesID = 0 ∧
        (annotatePoint descriptor gen s heap p.2).2.2.attributes = A := by
      intro hA
      simp only [annotatePoint, hsame hA, (clearAttrs_point _ _).1, clearAttrs_attributes, writeSink_point]
      exact hpoints p mem_cons_self hA
    refine ⟨.cons hhead hout, fun r hown hr => ?_⟩
    refine hheap r (fun p' hp' => hown p' (mem_cons_of_mem p hp')) ?_
    simp only [annotatePoint]
    rw [clearAttrs_seriesID]
    refine writeSink_seriesID (fun hr' => ?_) hr
    rw [hsink] at hr'
    have hA := hown p mem_cons_self hr'
    rw [hsame hA]
    exact (hpoints p mem_cons_self hA).1

theorem Dictionary.Sound.annotate {d : Dictionary} {P : Bytes → Bytes → Nat → Prop} (h : d.Sound P)
    (resourceKey : Bytes) (descriptor : Attributes → Bytes) (heap : SeriesHeap) (dps : List DataPoint) :
    (d.annotate resourceKey descriptor heap dps).1.Sound P :=
  (h.insert ((h resourceKey).annotatePoints _ _ _ _) _).sweep _

theorem Dictionary.Unknown.annotate {d : Dictionary} {resourceKey : Bytes}
    {A : Attributes} (h : d.Unknown resourceKey (descriptor A)) (heap : SeriesHeap)
    {points : List (Attributes × DataPoint)} (hpoints : ∀ p ∈ points, p.1 = A → p.2.seriesID = 0 ∧ p.2.attributes = A) :
    (d.annotate resourceKey descriptor heap (points.map Prod.snd)).1.Unknown resourceKey (descriptor A) ∧
      Forall₂ (fun p o => p.1 = A → o.seriesID = 0 ∧ o.attributes = A) points
          (d.annotate resourceKey descriptor heap (points.map Prod.snd)).2.2 ∧
        ∀ r, (∀ p ∈ points, p.2.seriesIDSink = some r → p.1 = A) → (heap r).seriesID = 0 →
          ((d.annotate resourceKey descriptor heap (points.map Prod.snd)).2.1 r).seriesID = 0 := by
  refine ⟨Dictionary.Sound.annotate h _ _ _ _, annotatePoints_unknown points ?_ hpoints⟩
  exact (h resourceKey).mono fun key _ hne hkey => hne ⟨rfl, hkey⟩

end AsapCollector
