import AsapCollector.Series.Dictionary

/-! A registered entry holds an id that was assigned to its descriptor; `P` says which ids were. -/

namespace AsapCollector

open GoMap AList

namespace SourceState

open SourceState

def Sound (P : Bytes → Nat → Prop) (s : SourceState) : Prop :=
  ∀ key e, s.entries.lookup key = some e → e.registered = true → P key e.id

def Registered (s : SourceState) (key : Bytes) : Prop :=
  ∃ e, s.entries.lookup key = some e ∧ e.registered = true ∧ e.id ≠ 0

variable {P : Bytes → Nat → Prop} {s : SourceState}

theorem Sound.empty : Sound P {} := fun _ _ h => by simp at h

theorem Sound.mono {Q : Bytes → Nat → Prop} (h : s.Sound P) (hPQ : ∀ key id, P key id → Q key id) : s.Sound Q :=
  fun _ _ he hreg => hPQ _ _ (h _ _ he hreg)

theorem Sound.insert (h : s.Sound P) {key : Bytes} {e : SeriesEntry} {nextID : Nat}
    (he : e.registered = true → P key e.id) : Sound P ⟨nextID, s.entries.insert key e⟩ :=
  forall_lookup_insert h he

theorem lookup_cases (s : SourceState) (key : Bytes) (gen : Nat) :
    (∃ e, s.entries.lookup key = some e ∧
      s.lookup key gen = (⟨s.nextID, s.entries.insert key { e with lastGen := gen }⟩, { e with lastGen := gen })) ∨
    (s.entries.lookup key = none ∧
      s.lookup key gen =
        (⟨s.nextID + 1, s.entries.insert key ⟨s.nextID, false, gen⟩⟩, ⟨s.nextID, false, gen⟩)) := by
  unfold lookup
  cases h : s.entries.lookup key with
  | none => exact .inr ⟨rfl, rfl⟩
  | some e => exact .inl ⟨e, rfl, rfl⟩

theorem Sound.lookup (h : s.Sound P) (key : Bytes) (gen : Nat) :
    (s.lookup key gen).1.Sound P ∧ ((s.lookup key gen).2.registered = true → P key (s.lookup key gen).2.id) := by
  rcases lookup_cases s key gen with ⟨e, he, heq⟩ | ⟨-, heq⟩
  · rw [heq]
    exact ⟨h.insert fun hreg => h _ e he hreg, fun hreg => h _ e he hreg⟩
  · rw [heq]
    exact ⟨h.insert fun hreg => (Bool.false_ne_true hreg).elim, fun hreg => (Bool.false_ne_true hreg).elim⟩

theorem lookup_registered (s : SourceState) (key : Bytes) (gen : Nat) :
    (∀ {key'}, s.Registered key' → (s.lookup key gen).1.Registered key') ∧
      (s.lookup key gen).1.entries.lookup key = some (s.lookup key gen).2 ∧
      (s.Registered key → (s.lookup key gen).2.registered = true ∧ (s.lookup key gen).2.id ≠ 0) := by
  rcases lookup_cases s key gen with ⟨e, he, heq⟩ | ⟨hnone, heq⟩
  · rw [heq]
    refine ⟨?_, lookup_insert _, ?_⟩
    · rintro key' ⟨e', he', hreg⟩
      by_cases hkey : key' = key
      · subst hkey
        obtain rfl : e = e' := Option.some.inj (he.symm.trans he')
        exact ⟨_, lookup_insert _, hreg⟩
      · exact ⟨e', by rwa [lookup_insert_ne hkey], hreg⟩
    · rintro ⟨e', he', hreg⟩
      obtain rfl : e = e' := Option.some.inj (he.symm.trans he')
      exact hreg
  · rw [heq]
    refine ⟨?_, lookup_insert _, ?_⟩
    · rintro key' ⟨e', he', hreg⟩
      have hkey : key' ≠ key := by
        rintro rfl
        rw [hnone] at he'
        cases he'
      exact ⟨e', by rwa [lookup_insert_ne hkey], hreg⟩
    · rintro ⟨e', he', -⟩
      rw [hnone] at he'
      cases he'

theorem Sound.applyAssignment (h : s.Sound P) {key : Bytes} {id : Nat} (hid : P key id) :
    (s.applyAssignment key id).Sound P :=
  h.insert fun _ => hid

/-- What `assignSeriesID` does to a point: nothing, or it replaces the attributes by the id of their
descriptor. -/
theorem Sound.assignSeriesID (h : s.Sound P) (descriptor : Attributes → Bytes) (gen : Nat) (dp : DataPoint) :
    (s.assignSeriesID descriptor gen dp).1.Sound P ∧
      (∀ {key}, s.Registered key → (s.assignSeriesID descriptor gen dp).1.Registered key) ∧
      (((s.assignSeriesID descriptor gen dp).2 = dp ∧ (dp.seriesID = 0 → ¬s.Registered (descriptor dp.attributes))) ∨
        (dp.seriesID = 0 ∧ ∃ id, P (descriptor dp.attributes) id ∧
          (s.assignSeriesID descriptor gen dp).2 = { dp with seriesID := id, attributes := [] } ∧
          (id ≠ 0 → (s.assignSeriesID descriptor gen dp).1.Registered (descriptor dp.attributes)) ∧
          (s.Registered (descriptor dp.attributes) → id ≠ 0))) := by
  unfold SourceState.assignSeriesID
  by_cases hdp : dp.seriesID = 0
  · rw [if_neg (not_not.mpr hdp)]
    obtain ⟨hsound, hP⟩ := h.lookup (descriptor dp.attributes) gen
    obtain ⟨hkeep, hstored, hknown⟩ := lookup_registered s (descriptor dp.attributes) gen
    by_cases hreg : (s.lookup (descriptor dp.attributes) gen).2.registered = true
    · simp only [hreg, if_true]
      exact ⟨hsound, hkeep, .inr ⟨hdp, _, hP hreg, rfl, fun hid => ⟨_, hstored, hreg, hid⟩, fun hr => (hknown hr).2⟩⟩
    · simp only [hreg, if_false, Bool.false_eq_true]
      exact ⟨hsound, hkeep, .inl ⟨trivial, fun _ hr => hreg (hknown hr).1⟩⟩
  · rw [if_pos hdp]
    exact ⟨h, id, .inl ⟨rfl, fun h0 => absurd h0 hdp⟩⟩

theorem assignSeriesID_of_registered {descriptor : Attributes → Bytes} {gen : Nat} {dp : DataPoint} {e : SeriesEntry}
    (hdp : dp.seriesID = 0) (he : s.entries.lookup (descriptor dp.attributes) = some e) (hreg : e.registered = true) :
    (s.assignSeriesID descriptor gen dp).2 = { dp with seriesID := e.id, attributes := [] } := by
  have hlookup : (s.lookup (descriptor dp.attributes) gen).2 = { e with lastGen := gen } := by
    simp [lookup, he]
  simp [assignSeriesID, hdp, hlookup, hreg]

theorem Sound.evictByID (h : s.Sound P) (sids : List Nat) : (s.evictByID sids).Sound P := by
  intro key' e' he' hreg
  obtain ⟨e, he, rfl⟩ := lookup_map.mp he'
  split at hreg
  · cases hreg
  · next hid =>
    rw [if_neg hid]
    exact h key' e he hreg

end SourceState

namespace Dictionary

def Sound (P : Bytes → Bytes → Nat → Prop) (d : Dictionary) : Prop :=
  ∀ resourceKey, (d.sources.get {} resourceKey).Sound (P resourceKey)

variable {P : Bytes → Bytes → Nat → Prop} {d : Dictionary}

theorem Sound.empty : Sound P {} := fun resourceKey => by
  rw [get_empty]
  exact SourceState.Sound.empty

theorem Sound.mono {Q : Bytes → Bytes → Nat → Prop} (h : d.Sound P) (hPQ : ∀ res key id, P res key id → Q res key id) :
    d.Sound Q :=
  fun res => (h res).mono (hPQ res)

theorem Sound.insert (h : d.Sound P) {resourceKey : Bytes} {s : SourceState} (hs : s.Sound (P resourceKey))
    (gen : Nat) : Sound P ⟨gen, d.sources.insert resourceKey s⟩ := by
  intro res
  by_cases hres : res = resourceKey
  · subst hres
    rwa [get_insert_self]
  · rw [get_insert_of_ne hres]
    exact h res

theorem Sound.sweepSource {Q : Bytes → Nat → Prop} {s : SourceState} (h : s.Sound Q) (gen : Nat) :
    (Dictionary.sweepSource gen s).Sound Q :=
  fun _ _ he hreg => h _ _ (lookup_filter.mp he).1 hreg

theorem Sound.sweep (h : d.Sound P) (gen : Nat) : (d.sweep gen).Sound P := by
  unfold Dictionary.sweep
  split
  · exact h
  · intro res
    cases hres : (d.sources.map (Dictionary.sweepSource gen)).lookup res with
    | none =>
      rw [get_of_lookup_none hres]
      exact SourceState.Sound.empty
    | some s =>
      rw [get_of_lookup hres]
      obtain ⟨s, hs, rfl⟩ := lookup_map.mp hres
      exact Sound.sweepSource (get_of_lookup hs ▸ h res) gen

theorem Sound.applyOne (h : d.Sound P) {a : Assignment} (ha : P a.resourceKey a.descriptor a.seriesID) :
    (d.applyOne a).Sound P :=
  h.insert ((h a.resourceKey).applyAssignment ha) _

theorem lookup_applyOne (d : Dictionary) (a : Assignment) :
    ∃ e, ((d.applyOne a).sources.get {} a.resourceKey).entries.lookup a.descriptor = some e ∧ e.registered = true ∧
      e.id = a.seriesID := by
  simp [applyOne, SourceState.applyAssignment]

theorem Sound.apply (as : List Assignment) (h : d.Sound P) (has : ∀ a ∈ as, P a.resourceKey a.descriptor a.seriesID) :
    (d.apply as).Sound P := by
  induction as generalizing d with
  | nil => exact h
  | cons a as ih =>
    exact ih (h.applyOne (has a List.mem_cons_self)) fun b hb => has b (List.mem_cons_of_mem a hb)

theorem get_evictByID (d : Dictionary) (sids : List Nat) (resourceKey : Bytes) :
    (sids = [] ∧ (d.evictByID sids).sources.get {} resourceKey = d.sources.get {} resourceKey) ∨
      (d.evictByID sids).sources.get {} resourceKey = (d.sources.get {} resourceKey).evictByID sids := by
  unfold evictByID
  split
  · next hsids => exact .inl ⟨hsids, rfl⟩
  · exact .inr (get_map (show SourceState.evictByID sids {} = {} from rfl) d.sources resourceKey)

theorem Sound.evictByID (h : d.Sound P) (sids : List Nat) : (d.evictByID sids).Sound P := by
  intro resourceKey
  rcases get_evictByID d sids resourceKey with ⟨-, heq⟩ | heq
  · rw [heq]
    exact h resourceKey
  · rw [heq]
    exact (h resourceKey).evictByID sids

def Unknown (d : Dictionary) (resourceKey key : Bytes) : Prop :=
  d.Sound fun resourceKey' key' _ => ¬(resourceKey' = resourceKey ∧ key' = key)

variable {resourceKey key : Bytes}

theorem unknown_iff : d.Unknown resourceKey key ↔
    ∀ e, (d.sources.get {} resourceKey).entries.lookup key = some e → e.registered = false := by
  constructor
  · intro h e he
    exact Bool.eq_false_iff.mpr fun hreg => h resourceKey key e he hreg ⟨rfl, rfl⟩
  · rintro h resourceKey' key' e he hreg ⟨rfl, rfl⟩
    rw [h e he] at hreg
    cases hreg

theorem unknown_evictByID {sids : List Nat}
    (h : ∀ e, (d.sources.get {} resourceKey).entries.lookup key = some e → e.registered = true → e.id ∈ sids) :
    (d.evictByID sids).Unknown resourceKey key := by
  rw [unknown_iff]
  rcases get_evictByID d sids resourceKey with ⟨rfl, heq⟩ | heq
  · rw [heq]
    exact fun e he => Bool.eq_false_iff.mpr fun hreg => by simpa using h e he hreg
  · rw [heq]
    intro e' he'
    obtain ⟨e, he, rfl⟩ := lookup_map.mp he'
    split
    · rfl
    · next hid => exact Bool.eq_false_iff.mpr fun hreg => hid (h e he hreg)

end Dictionary

end AsapCollector
