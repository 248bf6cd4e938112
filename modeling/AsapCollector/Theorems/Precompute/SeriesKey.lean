import AsapCollector.Precompute.Config

/-! `writeAttributesKey` escapes nothing, so that a separator inside a label reads like one between labels. -/

namespace AsapCollector.Precompute

open List

variable {allowed : UInt8 → Prop} {labels labels' : List KeyValue} {aggregateBy : List Bytes}

/-- Labels under names of their own, in the bytes of an alphabet. -/
def Spelled (allowed : UInt8 → Prop) (labels : List KeyValue) : Prop :=
  (labels.map KeyValue.key).Nodup ∧ ∀ kv ∈ labels, ∀ b ∈ kv.key ++ kv.value, allowed b

/-- The labels that `aggregateBy` lists, all of them if it is empty, are equal as maps. -/
def SameLabels (aggregateBy : List Bytes) (labels labels' : List KeyValue) : Prop :=
  ∀ k, aggregateBy = [] ∨ k ∈ aggregateBy → lookupLabel labels k = lookupLabel labels' k

def written (labels : List KeyValue) (aggregateBy : List Bytes) : List KeyValue :=
  (if aggregateBy = [] then (labels.map KeyValue.key).insertionSort (· ≤ ·) else aggregateBy).filterMap fun k =>
    (lookupLabel labels k).map (KeyValue.mk k)

theorem attributesKey_eq (labels : List KeyValue) (aggregateBy : List Bytes) :
    attributesKey labels aggregateBy = spellPairs 61 59
      ((written labels aggregateBy).map fun kv => (kv.key, kv.value)) := by
  unfold attributesKey written
  generalize (if aggregateBy = [] then (labels.map KeyValue.key).insertionSort (· ≤ ·) else aggregateBy) = keys
  induction keys with
  | nil => rfl
  | cons k keys ih =>
    rw [flatMap_cons, ih, filterMap_cons, writeLabel]
    cases lookupLabel labels k with
    | none => rfl
    | some v => simp [spellPairs, show str "=" = [61] from rfl, show str ";" = [59] from rfl]

theorem mem_of_lookupLabel {k v : Bytes} (h : lookupLabel labels k = some v) : ⟨k, v⟩ ∈ labels := by
  obtain ⟨kv, hfind, rfl⟩ := Option.map_eq_some_iff.mp h
  have hkey : kv.key = k := by simpa using find?_some hfind
  exact hkey ▸ mem_of_find?_eq_some hfind

theorem mem_written {kv : KeyValue} :
    kv ∈ written labels aggregateBy ↔ lookupLabel labels kv.key = some kv.value ∧
      (aggregateBy = [] ∨ kv.key ∈ aggregateBy) := by
  obtain ⟨k, v⟩ := kv
  by_cases hall : aggregateBy = []
  · have hkey (h : lookupLabel labels k = some v) : ∃ kv ∈ labels, kv.key = k := ⟨_, mem_of_lookupLabel h, rfl⟩
    simpa [written, hall] using hkey
  · simp [written, hall, and_comm]

theorem sameLabels_of_written (h : written labels aggregateBy = written labels' aggregateBy) :
    SameLabels aggregateBy labels labels' := by
  intro k hk
  refine Option.ext fun v => ?_
  have hmem : ⟨k, v⟩ ∈ written labels aggregateBy ↔ ⟨k, v⟩ ∈ written labels' aggregateBy := by rw [h]
  simpa [mem_written, hk] using hmem

theorem Spelled.written (h : Spelled allowed labels) {kv : KeyValue} (hkv : kv ∈ written labels aggregateBy) {b : UInt8}
    (hb : ¬allowed b) : b ∉ kv.key ∧ b ∉ kv.value := by
  rw [← not_or, ← mem_append]
  exact fun hno => hb (h.2 kv (mem_of_lookupLabel (mem_written.mp hkv).1) b hno)

/-- Keys tell label sets apart exactly over the alphabets that have none of the three separators. -/
theorem seriesKey_injective_iff (allowed : UInt8 → Prop) :
    (∀ aggID aggregateBy resource resource' labels labels',
        (∀ kvs ∈ [resource, resource', labels, labels'], Spelled allowed kvs) →
        seriesKey aggID resource labels aggregateBy = seriesKey aggID resource' labels' aggregateBy →
        SameLabels [] resource resource' ∧ SameLabels aggregateBy labels labels') ↔
      ∀ b ∈ str "=;|", ¬allowed b := by
  constructor
  · intro hinj b hb hallowed
    have hclash (resource resource' labels labels' : List KeyValue)
        (honly : ∀ kvs ∈ [resource, resource', labels, labels'], Spelled (· = b) kvs)
        (hkey : seriesKey 0 resource labels [] = seriesKey 0 resource' labels' []) :=
      hinj 0 [] resource resource' labels labels'
        (fun kvs hkvs => ⟨(honly kvs hkvs).1, fun kv hkv c hc => (honly kvs hkvs).2 kv hkv c hc ▸ hallowed⟩) hkey
    unfold Spelled at hclash
    rw [show str "=;|" = [61, 59, 124] from rfl] at hb
    simp only [mem_cons, not_mem_nil, or_false] at hb
    rcases hb with rfl | rfl | rfl
    · exact absurd ((hclash [] [] [⟨[], [61]⟩] [⟨[61], []⟩] (by simp) (by decide)).2 [] (.inl rfl)) (by decide)
    · exact absurd ((hclash [] [] [⟨[], []⟩, ⟨[59, 59], []⟩] [⟨[], [59]⟩, ⟨[59], []⟩] (by simp) (by decide)).2 []
        (.inl rfl)) (by decide)
    · exact absurd ((hclash [⟨[124], []⟩] [] [⟨[], []⟩] [⟨[], []⟩, ⟨[124], []⟩] (by simp) (by decide)).1 [124]
        (.inl rfl)) (by decide)
  · intro hfree aggID aggregateBy resource resource' labels labels' hspelled hkey
    simp only [forall_mem_cons] at hspelled
    obtain ⟨hresource, hresource', hlabels, hlabels', -⟩ := hspelled
    have hbar {kvs : List KeyValue} (h : Spelled allowed kvs) : 124 ∉ attributesKey kvs [] := by
      rw [attributesKey_eq]
      intro hmem
      obtain ⟨_, hpair, hmem⟩ := mem_flatMap.mp hmem
      obtain ⟨kv, hkv, rfl⟩ := mem_map.mp hpair
      have := h.written hkv (hfree 124 (by decide))
      simp_all
    have hread {kvs kvs' : List KeyValue} {keys : List Bytes} (h : Spelled allowed kvs) (h' : Spelled allowed kvs')
        (heq : attributesKey kvs keys = attributesKey kvs' keys) : SameLabels keys kvs kvs' := by
      rw [attributesKey_eq, attributesKey_eq] at heq
      have hsplit {labels : List KeyValue} (h : Spelled allowed labels) :
          ∀ e ∈ (written labels keys).map fun kv => (kv.key, kv.value), 61 ∉ e.1 ∧ 59 ∉ e.2 :=
        forall_mem_map.mpr fun kv hkv => ⟨(h.written hkv (hfree 61 (by decide))).1,
          (h.written hkv (hfree 59 (by decide))).2⟩
      have hpairs : Function.Injective fun kv : KeyValue => (kv.key, kv.value) := by
        rintro ⟨k, v⟩ ⟨k', v'⟩ hkv
        cases hkv
        rfl
      exact sameLabels_of_written (hpairs.list_map (spellPairs_inj (hsplit h) (hsplit h') heq))
    simp only [seriesKey, show str "|" = [124] from rfl, append_assoc, append_cancel_left_eq, cons_append, nil_append,
      cons.injEq, true_and] at hkey
    obtain ⟨hsame, hsame'⟩ := (append_separator_inj (hbar hresource) (hbar hresource')).mp hkey
    exact ⟨hread hresource hresource' hsame, hread hlabels hlabels' hsame'⟩

/-- Two labels, and one whose value spells out both. -/
theorem spelled_out_series_share_key :
    let two : List KeyValue := [⟨str "host", str "a"⟩, ⟨str "zone", str "b"⟩]
    let one : List KeyValue := [⟨str "host", str "a;zone=b"⟩]
    seriesKey 7 [] two [] = seriesKey 7 [] one [] ∧ lookupLabel two (str "host") ≠ lookupLabel one (str "host") := by
  decide

end AsapCollector.Precompute
