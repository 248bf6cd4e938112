import AsapCollector.Sdk.Aggregator

/-! Each live series has a struct of its own, outside the pool, which holds its attributes or an id it may have
(`Owns`). -/

namespace AsapCollector.Aggregator

open List Aggregator AList

/-- `Owns may agg`: the structs of the live series are distinct, not pooled, and identify their
series, `may A id` saying that the series `A` may have the id. -/
structure Owns (may : Attributes → Nat → Prop) (agg : Aggregator) : Prop where
  unregistered : ∀ {A r}, agg.values.lookup A = some r → (agg.heap r).seriesID = 0 → (agg.heap r).attrs = A
  registered : ∀ {A r}, agg.values.lookup A = some r → (agg.heap r).seriesID ≠ 0 → may A (agg.heap r).seriesID
  injective : ∀ {A B r}, agg.values.lookup A = some r → agg.values.lookup B = some r → A = B
  unpooled : ∀ {A r}, agg.values.lookup A = some r → r ∉ agg.pool
  allocated : ∀ {A r}, agg.values.lookup A = some r → r < agg.fresh
  poolAllocated : ∀ r ∈ agg.pool, r < agg.fresh

variable {may : Attributes → Nat → Prop} {agg : Aggregator}

theorem Owns.empty : Owns may {} where
  unregistered h := by simp at h
  registered h := by simp at h
  injective h := by simp at h
  unpooled h := by simp at h
  allocated h := by simp at h
  poolAllocated r h := by simp at h

theorem Owns.mono {may' : Attributes → Nat → Prop} (h : Owns may agg) (hmay : ∀ A id, may A id → may' A id) :
    Owns may' agg :=
  { h with registered := fun hA hid => hmay _ _ (h.registered hA hid) }

theorem Owns.of_heap {heap : SeriesHeap} (h : Owns may agg)
    (hsame : ∀ {A r}, agg.values.lookup A = some r →
      (heap r).seriesID = (agg.heap r).seriesID ∧ (heap r).attrs = (agg.heap r).attrs) :
    Owns may { agg with heap := heap } where
  unregistered hA hid := by
    rw [(hsame hA).2]
    exact h.unregistered hA ((hsame hA).1 ▸ hid)
  registered hA hid := by
    rw [(hsame hA).1] at hid ⊢
    exact h.registered hA hid
  injective := h.injective
  unpooled := h.unpooled
  allocated := h.allocated
  poolAllocated := h.poolAllocated

theorem Owns.record (h : Owns may agg) (r : Nat) : Owns may (agg.record r) := by
  refine h.of_heap fun {A q} _ => ?_
  by_cases hq : q = r
  · subst hq
    simp
  · simp [hq]

theorem get_cases (agg : Aggregator) (pick : Option Nat) :
    (∃ r ∈ agg.pool, agg.get pick = (r, { agg with pool := agg.pool.filter fun q => q ≠ r })) ∨
      agg.get pick = (agg.fresh, { agg with fresh := agg.fresh + 1 }) := by
  unfold get
  cases hfind : agg.pool.find? (fun r => pick = some r) with
  | none => exact .inr rfl
  | some r => exact .inl ⟨r, mem_of_find?_eq_some hfind, rfl⟩

theorem get_same (agg : Aggregator) (pick : Option Nat) :
    (agg.get pick).2.values = agg.values ∧ (agg.get pick).2.heap = agg.heap := by
  rcases get_cases agg pick with ⟨r, -, heq⟩ | heq
  · rw [heq]
    exact ⟨rfl, rfl⟩
  · rw [heq]
    exact ⟨rfl, rfl⟩

theorem Owns.get (h : Owns may agg) (pick : Option Nat) :
    Owns may (agg.get pick).2 ∧ (agg.get pick).1 < (agg.get pick).2.fresh ∧
      (agg.get pick).1 ∉ (agg.get pick).2.pool ∧
      ∀ A, (agg.get pick).2.values.lookup A ≠ some (agg.get pick).1 := by
  rcases get_cases agg pick with ⟨r, hr, heq⟩ | heq
  · rw [heq]
    refine ⟨{ h with
        unpooled := fun hA hmem => h.unpooled hA (mem_filter.mp hmem).1
        poolAllocated := fun q hq => h.poolAllocated q (mem_filter.mp hq).1 },
      h.poolAllocated r hr, fun hmem => ?_, fun A hA => h.unpooled hA hr⟩
    simpa using (mem_filter.mp hmem).2
  · rw [heq]
    refine ⟨{ h with
        allocated := fun hA => Nat.lt_succ_of_lt (h.allocated hA)
        poolAllocated := fun q hq => Nat.lt_succ_of_lt (h.poolAllocated q hq) },
      Nat.lt_succ_self _, fun hmem => Nat.lt_irrefl _ (h.poolAllocated _ hmem), fun A hA => ?_⟩
    exact Nat.lt_irrefl _ (h.allocated hA)

variable {r : Nat}

theorem Owns.newSeries (h : Owns may agg) (hr : r < agg.fresh) (hpool : r ∉ agg.pool)
    (hlive : ∀ A, agg.values.lookup A ≠ some r) (attrs : Attributes) : Owns may (agg.newSeries attrs r) := by
  have hcases : ∀ {A q}, (agg.newSeries attrs r).values.lookup A = some q →
      (A = attrs ∧ q = r) ∨ (A ≠ attrs ∧ q ≠ r ∧ agg.values.lookup A = some q) := by
    intro A q hA
    by_cases hkey : A = attrs
    · subst hkey
      rw [Aggregator.newSeries, lookup_insert] at hA
      exact .inl ⟨rfl, (Option.some.inj hA).symm⟩
    · rw [Aggregator.newSeries, lookup_insert_ne hkey] at hA
      exact .inr ⟨hkey, fun hq => hlive A (hq ▸ hA), hA⟩
  have hself : (agg.newSeries attrs r).heap r = { attrs := attrs, measuredSince := true } := by
    simp [Aggregator.newSeries]
  have hother : ∀ {q}, q ≠ r → (agg.newSeries attrs r).heap q = agg.heap q := fun hq => by
    simp [Aggregator.newSeries, hq]
  constructor
  · intro A q hA hid
    rcases hcases hA with ⟨rfl, rfl⟩ | ⟨-, hq, hA'⟩
    · rw [hself]
    · rw [hother hq] at hid ⊢
      exact h.unregistered hA' hid
  · intro A q hA hid
    rcases hcases hA with ⟨rfl, rfl⟩ | ⟨-, hq, hA'⟩
    · rw [hself] at hid
      exact absurd rfl hid
    · rw [hother hq] at hid ⊢
      exact h.registered hA' hid
  · intro A B q hA hB
    rcases hcases hA with ⟨rfl, rfl⟩ | ⟨-, hq, hA'⟩
    · rcases hcases hB with ⟨rfl, -⟩ | ⟨-, hq, -⟩
      · rfl
      · exact absurd rfl hq
    · rcases hcases hB with ⟨-, rfl⟩ | ⟨-, -, hB'⟩
      · exact absurd rfl hq
      · exact h.injective hA' hB'
  · intro A q hA
    rcases hcases hA with ⟨-, rfl⟩ | ⟨-, -, hA'⟩
    · exact hpool
    · exact h.unpooled hA'
  · intro A q hA
    rcases hcases hA with ⟨-, rfl⟩ | ⟨-, -, hA'⟩
    · exact hr
    · exact h.allocated hA'
  · exact h.poolAllocated

theorem measure_cases (agg : Aggregator) (m : Measurement) :
    (∃ r, agg.measure m = agg.record r) ∨
      agg.values.lookup m.limited = none ∧ (agg.measure m = (agg.get m.pick).2 ∨
        agg.measure m = ((agg.get m.pick).2.newSeries m.limited (agg.get m.pick).1).record (agg.get m.pick).1) := by
  unfold measure
  split
  · exact .inl ⟨_, rfl⟩
  · split
    · exact .inl ⟨_, rfl⟩
    · next hlimited =>
      refine .inr ⟨hlimited, ?_⟩
      by_cases hconstructs : m.constructs = true
      · exact .inr (if_pos hconstructs)
      · exact .inl (if_neg hconstructs)

theorem Owns.measure (h : Owns may agg) (m : Measurement) : Owns may (agg.measure m) := by
  obtain ⟨hget, hfresh, hpool, hlive⟩ := h.get m.pick
  rcases measure_cases agg m with ⟨r, heq⟩ | ⟨-, heq | heq⟩
  · rw [heq]
    exact h.record r
  · rw [heq]
    exact hget
  · rw [heq]
    exact (hget.newSeries hfresh hpool hlive m.limited).record _

theorem record_seriesID (agg : Aggregator) (r q : Nat) : ((agg.record r).heap q).seriesID = (agg.heap q).seriesID := by
  by_cases hq : q = r
  · subst hq
    simp [record]
  · simp [record, hq]

theorem live_newSeries {attrs B : Attributes} {r q : Nat} (hB : (agg.newSeries attrs r).values.lookup B = some q) :
    (agg.values.lookup B = some q ∧ ((agg.newSeries attrs r).heap q).seriesID = (agg.heap q).seriesID) ∨
      ((agg.newSeries attrs r).heap q).seriesID = 0 := by
  by_cases hq : q = r
  · subst hq
    exact .inr (by simp [newSeries])
  · have hne : B ≠ attrs := by
      rintro rfl
      rw [newSeries, lookup_insert] at hB
      exact hq (Option.some.inj hB).symm
    rw [newSeries, lookup_insert_ne hne] at hB
    exact .inl ⟨hB, by simp [newSeries, hq]⟩

theorem live_measure {m : Measurement} {B : Attributes} (hB : (agg.measure m).values.lookup B = some r) :
    (agg.values.lookup B = some r ∧ ((agg.measure m).heap r).seriesID = (agg.heap r).seriesID) ∨
      ((agg.measure m).heap r).seriesID = 0 := by
  obtain ⟨hvalues, hheap⟩ := get_same agg m.pick
  rcases measure_cases agg m with ⟨q, heq⟩ | ⟨-, heq | heq⟩
  · rw [heq] at hB ⊢
    exact .inl ⟨hB, record_seriesID _ _ _⟩
  · rw [heq, hvalues] at hB
    exact .inl ⟨hB, by rw [heq, hheap]⟩
  · rw [heq] at hB ⊢
    rw [record_seriesID, ← hvalues, ← hheap]
    exact live_newSeries hB

variable {A : Attributes}

theorem lookup_measure {m : Measurement} (hA : agg.values.lookup A = some r) :
    (agg.measure m).values.lookup A = some r := by
  obtain ⟨hvalues, -⟩ := get_same agg m.pick
  rcases measure_cases agg m with ⟨q, heq⟩ | ⟨hlimited, heq | heq⟩
  · rw [heq]
    exact hA
  · rw [heq, hvalues]
    exact hA
  · have hne : A ≠ m.limited := by
      rintro rfl
      rw [hlimited] at hA
      cases hA
    rw [heq]
    simpa only [record, newSeries, lookup_insert_ne hne, hvalues] using hA

theorem mem_refs : r ∈ agg.values.pairs.map Prod.snd ↔ ∃ A, agg.values.lookup A = some r := by
  constructor
  · intro h
    obtain ⟨⟨A, q⟩, hmem, rfl⟩ := mem_map.mp h
    exact ⟨A, GoMap.mem_pairs.mp hmem⟩
  · rintro ⟨A, hA⟩
    exact mem_map.mpr ⟨(A, r), GoMap.mem_pairs.mpr hA, rfl⟩

theorem Owns.deltaDone (h : Owns may agg) : Owns may agg.deltaDone where
  unregistered hA := by simp [Aggregator.deltaDone] at hA
  registered hA := by simp [Aggregator.deltaDone] at hA
  injective hA := by simp [Aggregator.deltaDone] at hA
  unpooled hA := by simp [Aggregator.deltaDone] at hA
  allocated hA := by simp [Aggregator.deltaDone] at hA
  poolAllocated r hr := by
    rcases mem_append.mp hr with hr | hr
    · obtain ⟨A, hA⟩ := mem_refs.mp hr
      exact h.allocated hA
    · exact h.poolAllocated r hr

theorem lookup_cumulativeDone (hA : agg.cumulativeDone.values.lookup A = some r) :
    agg.values.lookup A = some r ∧ evicts (agg.heap r) = false := by
  obtain ⟨hlive, hkeep⟩ := GoMap.lookup_filter.mp hA
  refine ⟨hlive, ?_⟩
  by_contra hev
  refine absurd hkeep ?_
  simp only [mem_filter, not_and, Bool.not_eq_true, decide_eq_true_eq, not_forall]
  exact ⟨mem_refs.mpr ⟨A, hlive⟩, by simpa using hev⟩

theorem heap_cumulativeDone (hA : agg.cumulativeDone.values.lookup A = some r) :
    agg.cumulativeDone.heap r = idle (agg.heap r) := by
  obtain ⟨hlive, hkeep⟩ := lookup_cumulativeDone hA
  have hrefs : r ∈ agg.values.pairs.map Prod.snd := mem_refs.mpr ⟨A, hlive⟩
  simp only [cumulativeDone, cleared, mem_filter, hrefs, hkeep, Bool.false_eq_true, and_false,
    if_false, if_true]

@[simp] theorem idle_seriesID (series : SeriesStruct) : (idle series).seriesID = series.seriesID := by
  unfold idle
  split <;> rfl

@[simp] theorem idle_attrs (series : SeriesStruct) : (idle series).attrs = series.attrs := by
  unfold idle
  split <;> rfl

theorem Owns.cumulativeDone (h : Owns may agg) : Owns may agg.cumulativeDone where
  unregistered hA hid := by
    rw [heap_cumulativeDone hA] at hid ⊢
    rw [idle_attrs]
    exact h.unregistered (lookup_cumulativeDone hA).1 (by simpa using hid)
  registered hA hid := by
    rw [heap_cumulativeDone hA, idle_seriesID] at hid ⊢
    exact h.registered (lookup_cumulativeDone hA).1 hid
  injective hA hB := h.injective (lookup_cumulativeDone hA).1 (lookup_cumulativeDone hB).1
  unpooled {A r} hA hmem := by
    rcases mem_append.mp hmem with hmem | hmem
    · have := (mem_filter.mp hmem).2
      rw [(lookup_cumulativeDone hA).2] at this
      cases this
    · exact h.unpooled (lookup_cumulativeDone hA).1 hmem
  allocated hA := h.allocated (lookup_cumulativeDone hA).1
  poolAllocated := by
    refine forall_mem_append.mpr ⟨fun r hr => ?_, h.poolAllocated⟩
    obtain ⟨A, hA⟩ := mem_refs.mp (mem_filter.mp hr).1
    exact h.allocated hA

theorem Owns.collected (h : Owns may agg) (t : Temporality) : Owns may (agg.collected t) := by
  cases t with
  | delta => exact h.deltaDone
  | cumulative => exact h.cumulativeDone

theorem live_collected {t : Temporality} (hA : (agg.collected t).values.lookup A = some r) :
    agg.values.lookup A = some r ∧ ((agg.collected t).heap r).seriesID = (agg.heap r).seriesID := by
  cases t with
  | delta => simp [collected, deltaDone] at hA
  | cumulative =>
    exact ⟨(lookup_cumulativeDone hA).1, by
      rw [show agg.collected .cumulative = agg.cumulativeDone from rfl, heap_cumulativeDone hA, idle_seriesID]⟩

theorem lookup_cumulativeDone_of_measured (hA : agg.values.lookup A = some r)
    (hmeasured : (agg.heap r).measuredSince = true) : agg.cumulativeDone.values.lookup A = some r := by
  refine GoMap.lookup_filter.mpr ⟨hA, ?_⟩
  simp [evicts, hmeasured]

end AsapCollector.Aggregator
