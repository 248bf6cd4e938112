import AsapCollector.Lib.Index
import AsapCollector.Cold.SeriesKey

/-! A series key spells out the labels of the series, each with its length before it, so it stands for the label set. -/

namespace AsapCollector

open List StringMap

namespace Labels

variable {ls : Labels} {k v : Bytes} {e : Bytes × Bytes}

theorem mem_setLabel : e ∈ (setLabel ls k v).entries ↔ e = (k, v) ∧ v ≠ [] ∨ e.1 ≠ k ∧ e ∈ ls.entries := by
  unfold setLabel
  split
  · rename_i hempty
    simp [erase, hempty, and_comm]
  · rename_i hvalue
    rw [StringMap.set, mem_setEntry ls.sorted, and_iff_left hvalue]

theorem mem_foldl_setLabel {es : List (Bytes × Bytes)} (hnodup : (es.map Prod.fst).Nodup) :
    e ∈ (es.foldl (fun ls e => setLabel ls e.1 e.2) ls).entries ↔
      e ∈ es ∧ e.2 ≠ [] ∨ e.1 ∉ es.map Prod.fst ∧ e ∈ ls.entries := by
  induction es generalizing ls with
  | nil => simp
  | cons e' es ih =>
    obtain ⟨hnew, hrest⟩ := nodup_cons.mp hnodup
    rw [foldl_cons, ih hrest, mem_setLabel, map_cons, mem_cons, mem_cons]
    grind

end Labels

namespace StreamingTSDBBlockBuilder

variable {external : StringMap} {id other : SeriesId} {k v : Bytes}

theorem nodup_keys (m : StringMap) : (m.entries.map Prod.fst).Nodup :=
  (pairwise_map.mpr m.sorted).imp ne_of_lt

theorem valueAt_eq_some {m : StringMap} : valueAt m k = some v ↔ (k, v) ∈ m.entries := by
  simp only [valueAt, Option.map_eq_some_iff, find?_eq_some_of_nodup (nodup_keys m)]
  grind

theorem mem_keys {m : StringMap} : k ∈ m.entries.map Prod.fst ↔ ∃ v, valueAt m k = some v := by
  simp [valueAt_eq_some]

theorem mem_labelsFor {e : Bytes × Bytes} :
    e ∈ (labelsFor external id).entries ↔ resolveLabelValue external id e.1 = some e.2 ∧ e.2 ≠ [] := by
  obtain ⟨k, v⟩ := e
  rw [labelsFor, SeriesId.labels]
  simp only [Labels.mem_foldl_setLabel (nodup_keys _), Labels.mem_setLabel]
  simp only [mem_keys, ← valueAt_eq_some, resolveLabelValue]
  cases valueAt external k <;> cases valueAt id.attrs k <;> simp [empty, valueAt]
  grind

def encode (e : Bytes × Bytes) : Bytes := appendLenPrefixed e.1 ++ appendLenPrefixed e.2

theorem appendLabels_eq (external : StringMap) (id : SeriesId) {keys : List Bytes} (hsorted : keys.Pairwise (· ≤ ·))
    {prev : Option Bytes} (hbefore : ∀ p ∈ prev, ∀ k ∈ keys, p ≤ k) :
    ∃ es : List (Bytes × Bytes), appendLabels external id prev keys = es.flatMap encode ∧ es.Pairwise (·.1 < ·.1) ∧
      ∀ e, e ∈ es ↔ e.1 ∈ keys ∧ prev ≠ some e.1 ∧ e ∈ (labelsFor external id).entries := by
  simp only [mem_labelsFor]
  induction keys generalizing prev with
  | nil => exact ⟨[], by simp [appendLabels]⟩
  | cons k keys ih =>
    obtain ⟨hle, hsorted⟩ := pairwise_cons.mp hsorted
    rw [appendLabels]
    split
    · obtain ⟨es, heq, hpair, hmem⟩ := ih hsorted fun p hp k hk => hbefore p hp k (mem_cons_of_mem _ hk)
      exact ⟨es, heq, hpair, by grind⟩
    · rename_i hprev
      obtain ⟨es, heq, hpair, hmem⟩ := @ih hsorted (some k) (by simpa using hle)
      -- a key after `k` is not the one before it
      have hlater : ∀ k' ∈ keys, some k ≠ some k' → prev ≠ some k' := by
        rintro k' hk' hne rfl
        exact hne (congrArg some (le_antisymm (hle k' hk') (hbefore k' rfl k mem_cons_self)))
      split
      · exact ⟨es, heq, hpair, by grind⟩
      · exact ⟨es, heq, hpair, by grind⟩
      · rename_i v hne hv
        refine ⟨(k, v) :: es, by simp [heq, encode], pairwise_cons.mpr ⟨fun e he => ?_, hpair⟩, by grind⟩
        obtain ⟨hin, hneq, -⟩ := (hmem e).mp he
        exact lt_of_le_of_ne (hle _ hin) fun h => hneq (congrArg some h)

theorem seriesKey_eq : seriesKey external id = (labelsFor external id).entries.flatMap encode := by
  have hsorted : (sortedKeys external id).Pairwise (· ≤ ·) := pairwise_insertionSort _ _
  obtain ⟨es, heq, hpair, hmem⟩ := @appendLabels_eq external id _ hsorted none (by simp)
  rw [seriesKey, heq]
  congr 1
  refine hpair.eq_of_mem_iff (labelsFor external id).sorted fun e => (hmem e).trans ?_
  have hkey (h : e ∈ (labelsFor external id).entries) : e.1 ∈ sortedKeys external id := by
    obtain ⟨hvalue, -⟩ := mem_labelsFor.mp h
    simp only [resolveLabelValue, Option.or_eq_some_iff] at hvalue
    simp only [sortedKeys, mem_insertionSort, mem_cons, mem_append, mem_filter, mem_keys]
    grind
  simpa using hkey

/-- Every string has a length that a `uint64` holds, as in Go. -/
def Addressable (external : StringMap) (id : SeriesId) : Prop :=
  id.metricName.length < 2 ^ 64 ∧ ∀ e ∈ external.entries ++ id.attrs.entries, e.1.length < 2 ^ 64 ∧ e.2.length < 2 ^ 64

theorem appendLenPrefixed_inj {s s' rest rest' : Bytes} (hs : s.length < 2 ^ 64) (hs' : s'.length < 2 ^ 64)
    (h : appendLenPrefixed s ++ rest = appendLenPrefixed s' ++ rest') : s = s' ∧ rest = rest' := by
  simp only [appendLenPrefixed, append_assoc] at h
  have hread := congrArg uvarint h
  rw [uvarint_putUvarint hs, uvarint_putUvarint hs'] at hread
  simp only [Option.some.injEq, Prod.mk.injEq] at hread
  exact append_inj hread.2 hread.1

theorem flatMap_encode_inj {es es' : List (Bytes × Bytes)}
    (hes : ∀ e ∈ es, e.1.length < 2 ^ 64 ∧ e.2.length < 2 ^ 64) (hes' : ∀ e ∈ es', e.1.length < 2 ^ 64 ∧
      e.2.length < 2 ^ 64)
    (h : es.flatMap encode = es'.flatMap encode) : es = es' := by
  have hne (e : Bytes × Bytes) (rest : Bytes) : encode e ++ rest ≠ [] := by
    simp [encode, appendLenPrefixed, putUvarint_ne_nil]
  induction es generalizing es' with
  | nil =>
    cases es' with
    | nil => rfl
    | cons e' es' => exact absurd h.symm (hne e' _)
  | cons e es ih =>
    cases es' with
    | nil => exact absurd h (hne e _)
    | cons e' es' =>
      obtain ⟨⟨hk, hv⟩, hes⟩ := forall_mem_cons.mp hes
      obtain ⟨⟨hk', hv'⟩, hes'⟩ := forall_mem_cons.mp hes'
      simp only [flatMap_cons, encode, append_assoc] at h
      obtain ⟨hkey, h⟩ := appendLenPrefixed_inj hk hk' h
      obtain ⟨hvalue, h⟩ := appendLenPrefixed_inj hv hv' h
      rw [Prod.ext hkey hvalue, ih hes hes' h]

theorem Addressable.labels (h : Addressable external id) :
    ∀ e ∈ (labelsFor external id).entries, e.1.length < 2 ^ 64 ∧ e.2.length < 2 ^ 64 := by
  intro e he
  obtain ⟨hvalue, -⟩ := mem_labelsFor.mp he
  simp only [resolveLabelValue, Option.or_eq_some_iff, valueAt_eq_some] at hvalue
  obtain (hin | ⟨-, hin⟩) | ⟨-, hdefault⟩ := hvalue
  · exact h.2 e (mem_append_left _ hin)
  · exact h.2 e (mem_append_right _ hin)
  · split at hdefault
    · rename_i hname
      rw [hname, ← Option.some.inj hdefault, sanitizePromLabelValue]
      split
      · decide
      · exact ⟨by decide, h.1⟩
    · cases hdefault

/-- Two series share a key exactly if they would be written under the same labels. -/
theorem seriesKey_eq_iff_labels (h : Addressable external id) (hother : Addressable external other) :
    seriesKey external id = seriesKey external other ↔ labelsFor external id = labelsFor external other := by
  rw [seriesKey_eq, seriesKey_eq]
  constructor
  · intro hkey
    exact (mk.injEq ..).mpr (flatMap_encode_inj h.labels hother.labels hkey)
  · intro hlabels
    rw [hlabels]

/-- A metric without a name is the metric `unknown`, an external label overrides the attribute of its name, and an empty
attribute is not there. -/
theorem unnamed_metric_shares_key :
    let external := .ofList [(str "host", str "edge")]
    let unnamed : SeriesId := ⟨[], .ofList [(str "host", str "a"), (str "note", []), (str "path", str "/")]⟩
    let named : SeriesId := ⟨str "unknown", .ofList [(str "host", str "b"), (str "path", str "/")]⟩
    let bare : SeriesId := ⟨str "unknown", .ofList [(str "host", str "b")]⟩
    seriesKey external unnamed = seriesKey external named ∧ seriesKey external named ≠ seriesKey external bare := by
  refine ⟨(seriesKey_eq_iff_labels ?_ ?_).mpr (by decide +kernel),
    (not_congr (seriesKey_eq_iff_labels ?_ ?_)).mpr (by decide +kernel)⟩ <;> unfold Addressable <;> decide +kernel

end StreamingTSDBBlockBuilder
end AsapCollector
