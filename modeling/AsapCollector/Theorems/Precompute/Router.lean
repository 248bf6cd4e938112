import AsapCollector.Lib.ByKey
import AsapCollector.Precompute.Router

/-! The router joins the grouping labels in the order of their names, the collector in the order of its list, and
neither escapes anything. In one order the two texts determine each other, in another they do not. -/

namespace AsapCollector.Precompute

open List AttributeSet

theorem flatMap_append_separator (sep : UInt8) : ∀ {ts : List Bytes}, ts ≠ [] →
    ts.flatMap (· ++ [sep]) = [sep].intercalate ts ++ [sep]
  | [t], _ => by simp
  | t :: u :: ts, _ => by
    rw [flatMap_cons, flatMap_append_separator sep (cons_ne_nil u ts), intercalate_cons_cons]
    simp

theorem intercalate_eq_iff {sep : UInt8} {ts us : List Bytes} (hts : [] ∉ ts) (hus : [] ∉ us) :
    [sep].intercalate ts = [sep].intercalate us ↔ ts.flatMap (· ++ [sep]) = us.flatMap (· ++ [sep]) := by
  have hnil : ∀ {vs : List Bytes}, [] ∉ vs → vs ≠ [] → [sep].intercalate vs ≠ [] := by
    rintro (_ | ⟨v, _ | ⟨w, vs⟩⟩) hvs hne
    · exact absurd rfl hne
    · simpa [eq_comm] using hvs
    · simp [intercalate_cons_cons]
  rcases eq_or_ne ts [] with rfl | hts'
  · rcases eq_or_ne us [] with rfl | hus'
    · simp
    · simp [flatMap_append_separator sep hus', (hnil hus hus').symm]
  · rcases eq_or_ne us [] with rfl | hus'
    · simp [flatMap_append_separator sep hts', hnil hts hts']
    · rw [flatMap_append_separator sep hts', flatMap_append_separator sep hus', append_left_inj]

/-- Behind a key comes a byte that its value does not have, and the value is longer than any key: such labels
can be read back. -/
theorem flatMap_label_inj {e x : UInt8} (hne : x ≠ e) {n : Nat} {tail : Bytes} : ∀ {g h : List Bytes},
    (∀ k ∈ g, k.length ≤ n) → (∀ k ∈ h, k.length ≤ n) →
    g.flatMap (fun k => k ++ e :: (replicate n x ++ tail)) =
      h.flatMap (fun k => k ++ e :: (replicate n x ++ tail)) → g = h := by
  -- the shorter of two different first keys has its value where the longer one has `e`
  have hshort : ∀ {k l s t : Bytes}, k.length < l.length → l.length ≤ n →
      k ++ e :: (replicate n x ++ s) ≠ l ++ e :: t := by
    intro k l s t hlt hle heq
    have hat := congrArg (·[l.length]?) heq
    simp only [getElem?_append_right hlt.le, getElem?_append_right le_rfl, Nat.sub_self,
      getElem?_cons_zero] at hat
    obtain ⟨i, hi⟩ : ∃ i, l.length - k.length = i + 1 := ⟨l.length - k.length - 1, by omega⟩
    rw [hi, getElem?_cons_succ, getElem?_append_left (by rw [length_replicate]; omega),
      getElem?_replicate_of_lt (by omega)] at hat
    exact hne (Option.some.inj hat)
  intro g
  induction g with
  | nil =>
    rintro (_ | ⟨l, h⟩) _ _ heq
    · rfl
    · simp at heq
  | cons k g ih =>
    rintro (_ | ⟨l, h⟩) hg hh heq
    · simp at heq
    · simp only [flatMap_cons, append_assoc, cons_append] at heq
      have hk := hg k mem_cons_self
      have hl := hh l mem_cons_self
      rcases Nat.lt_trichotomy k.length l.length with hlt | hlen | hgt
      · exact absurd heq (hshort hlt hl)
      · obtain ⟨rfl, hrest⟩ := append_inj heq hlen
        rw [ih (fun k' hk' => hg k' (mem_cons_of_mem _ hk')) (fun k' hk' => hh k' (mem_cons_of_mem _ hk'))
          (by simpa using hrest)]
      · exact absurd heq.symm (hshort hgt hk)

theorem flatMap_replicate_flatten {α : Type} (labels : List α) (f : α → Bytes) : ∀ n : Nat,
    (replicate n labels).flatten.flatMap f = (replicate n (labels.flatMap f)).flatten
  | 0 => rfl
  | n + 1 => by simp [replicate_succ, flatMap_replicate_flatten labels f n]

theorem replicate_flatten_inj {n : Nat} {s t : Bytes} :
    (replicate (n + 1) s).flatten = (replicate (n + 1) t).flatten ↔ s = t := by
  refine ⟨fun h => ?_, fun h => h ▸ rfl⟩
  have hlen : s.length = t.length := by simpa using congrArg length h
  exact (append_inj h hlen).1

def filterLabels (grouping : List Bytes) : List Bytes := grouping.dedup.insertionSort (· ≤ ·)

theorem pairwise_sorted {l : List Bytes} (h : l.Nodup) : (l.insertionSort (· ≤ ·)).Pairwise (· < ·) :=
  ((pairwise_insertionSort (· ≤ ·) l).and ((perm_insertionSort _ _).nodup_iff.mpr h)).imp
    fun h => lt_of_le_of_ne h.1 h.2

variable {grouping : List Bytes}

theorem mem_filterLabels {k : Bytes} : k ∈ filterLabels grouping ↔ k ∈ grouping := by
  rw [filterLabels, (perm_insertionSort _ _).mem_iff, mem_dedup]

theorem eq_of_sorted {s t : List Bytes} (hs : s.Pairwise (· < ·)) (ht : t.Pairwise (· < ·)) (h : ∀ k, k ∈ s ↔ k ∈ t) :
    s = t :=
  @eq_of_pairwise_key _ _ _ id _ _ hs ht h

theorem lookup_groupingValues (p : AggregationPolicy) (attrs : AttributeSet) (k : Bytes) :
    (p.groupingValues attrs).lookup k = if k ∈ p.groupingLabels then lookupLabel attrs.toSlice k else none := by
  have hfold : ∀ (g : List Bytes) (m : GoMap Bytes Bytes),
      (g.foldl (fun labels k => ((lookupLabel attrs.toSlice k).map (labels.insert k)).getD labels) m).lookup k =
        if k ∈ g then (lookupLabel attrs.toSlice k).or (m.lookup k) else m.lookup k := by
    intro g
    induction g with
    | nil => intro m; simp
    | cons l g ih =>
      intro m
      rw [foldl_cons, ih]
      by_cases hkl : k = l
      · subst hkl
        cases hv : lookupLabel attrs.toSlice k <;> simp
      · cases hv : lookupLabel attrs.toSlice l <;> simp [hkl]
  exact (hfold p.groupingLabels ∅).trans (by simp)

theorem filter_eq_iff (p : AggregationPolicy) (x y : AttributeSet) :
    aggregationFilter (p.groupingValues x) = aggregationFilter (p.groupingValues y) ↔
      (filterLabels p.groupingLabels).flatMap (writeLabel x.toSlice) =
        (filterLabels p.groupingLabels).flatMap (writeLabel y.toSlice) := by
  -- the entries of the filter, and what they have to do with `writeLabel`
  have hentries : ∀ attrs : AttributeSet, ∃ ts : List Bytes, [] ∉ ts ∧
      aggregationFilter (p.groupingValues attrs) = (str ";").intercalate ts ∧
      (filterLabels p.groupingLabels).flatMap (writeLabel attrs.toSlice) = ts.flatMap (· ++ str ";") := by
    intro attrs
    have hkeys : (p.groupingValues attrs).keys.insertionSort (· ≤ ·) =
        (filterLabels p.groupingLabels).filter fun k => (lookupLabel attrs.toSlice k).isSome := by
      refine eq_of_sorted (pairwise_sorted (AList.keys_nodup _))
        ((pairwise_sorted (nodup_dedup _)).filter _) fun k => ?_
      rw [(perm_insertionSort _ _).mem_iff, mem_filter, mem_filterLabels]
      rw [show k ∈ (p.groupingValues attrs).keys ↔ ((p.groupingValues attrs).lookup k).isSome from
        AList.lookup_isSome.symm, lookup_groupingValues]
      by_cases hk : k ∈ p.groupingLabels <;> simp [hk]
    refine ⟨_, ?_, rfl, ?_⟩
    · simp only [mem_map, not_exists, not_and]
      intro k _ h
      simp at h
    · rw [hkeys, flatMap_map]
      have hget : ∀ k ∈ filterLabels p.groupingLabels, (p.groupingValues attrs).get [] k =
          (lookupLabel attrs.toSlice k).getD [] := by
        intro k hk
        rw [GoMap.get, lookup_groupingValues, if_pos (mem_filterLabels.mp hk)]
      generalize filterLabels p.groupingLabels = labels at hget
      induction labels with
      | nil => rfl
      | cons k labels ih =>
        have hk := hget k mem_cons_self
        have ih := ih fun k' hk' => hget k' (mem_cons_of_mem _ hk')
        rw [flatMap_cons, ih, writeLabel]
        cases hv : lookupLabel attrs.toSlice k <;> simp [hv] at hk ⊢
        simp [hk]
  obtain ⟨ts, hts, hfx, hsx⟩ := hentries x
  obtain ⟨us, hus, hfy, hsy⟩ := hentries y
  rw [hfx, hfy, hsx, hsy]
  exact intercalate_eq_iff hts hus

/-- A list of labels that goes through one increasing list once or more. -/
def Repeats (grouping : List Bytes) : Prop :=
  ∃ labels n, labels ≠ [] ∧ labels.Pairwise (· < ·) ∧ grouping = (replicate (n + 1) labels).flatten

theorem seriesKey_eq_iff {aggID : UInt64} {resource x y : List KeyValue} :
    seriesKey aggID resource x grouping = seriesKey aggID resource y grouping ↔
      attributesKey x grouping = attributesKey y grouping := by
  rw [seriesKey, seriesKey, append_right_inj]

theorem attributesKey_of_ne_nil {labels : List KeyValue} (h : grouping ≠ []) :
    attributesKey labels grouping = grouping.flatMap (writeLabel labels) := by
  rw [attributesKey, if_neg h]

theorem Repeats.agrees {p : AggregationPolicy} (h : Repeats p.groupingLabels) (x y : AttributeSet) :
    aggregationFilter (p.groupingValues x) = aggregationFilter (p.groupingValues y) ↔
      attributesKey x.toSlice p.groupingLabels = attributesKey y.toSlice p.groupingLabels := by
  obtain ⟨labels, n, hne, hsorted, hg⟩ := h
  have hmem : ∀ k, k ∈ p.groupingLabels ↔ k ∈ labels := by
    rw [hg]
    simp
  have hlabels : filterLabels p.groupingLabels = labels :=
    eq_of_sorted (pairwise_sorted (nodup_dedup _)) hsorted fun k => mem_filterLabels.trans (hmem k)
  have hnil : p.groupingLabels ≠ [] := by
    obtain ⟨k, hk⟩ := exists_mem_of_ne_nil labels hne
    exact ne_nil_of_mem ((hmem k).mpr hk)
  rw [filter_eq_iff, hlabels, attributesKey_of_ne_nil hnil, attributesKey_of_ne_nil hnil, hg, flatMap_replicate_flatten,
    flatMap_replicate_flatten, replicate_flatten_inj]

def AttributeSet.single (k v : Bytes) : AttributeSet := ⟨[⟨k, v⟩], pairwise_singleton _ _⟩

def AttributeSet.const (keys : List Bytes) (hkeys : keys.Pairwise (· < ·)) (v : Bytes) : AttributeSet :=
  ⟨keys.map fun k => ⟨k, v⟩, pairwise_map.mpr hkeys⟩

theorem writeLabel_single (k v l : Bytes) :
    writeLabel (single k v).toSlice l = if l = k then k ++ str "=" ++ v ++ str ";" else [] := by
  by_cases h : l = k <;> simp [writeLabel, lookupLabel, single, h, eq_comm]

theorem writeLabel_const {keys : List Bytes} {hkeys : keys.Pairwise (· < ·)} {v k : Bytes} (hk : k ∈ keys) :
    writeLabel (const keys hkeys v).toSlice k = k ++ str "=" ++ v ++ str ";" := by
  have hfind : lookupLabel (const keys hkeys v).toSlice k = some v := by
    rw [lookupLabel, const, find?_map]
    obtain ⟨l, hl⟩ := Option.isSome_iff_exists.mp (find?_isSome.mpr ⟨k, hk, by simp⟩ :
      (keys.find? ((fun kv : KeyValue => decide (kv.key = k)) ∘ fun k => ⟨k, v⟩)).isSome = true)
    rw [hl]
    rfl
  rw [writeLabel, hfind]

theorem flatMap_single {k w : Bytes} : ∀ g : List Bytes,
    g.flatMap (fun l => if l = k then w else []) = (replicate (g.count k) w).flatten
  | [] => rfl
  | l :: g => by
    rw [flatMap_cons, flatMap_single g, count_cons]
    by_cases h : l = k <;> simp [h, replicate_succ]

theorem spells_out {v : Bytes} {label : Bytes → Bytes} (hlabel : ∀ l, l ++ str "=" ++ v ++ str ";" = label l)
    (k : Bytes) (labels : List Bytes) : ∃ v', (k :: labels).flatMap label = k ++ str "=" ++ v' ++ str ";" := by
  rw [flatMap_cons, ← hlabel]
  rcases eq_nil_or_concat labels with rfl | ⟨init, last, rfl⟩
  · exact ⟨v, by simp⟩
  · exact ⟨v ++ str ";" ++ init.flatMap label ++ (last ++ str "=" ++ v), by simp [← hlabel last]⟩

/-- One label that spells out all the others shows how the collector's list runs through them. -/
theorem repeats_of_agrees {p : AggregationPolicy} (h : ∀ x y : AttributeSet,
    aggregationFilter (p.groupingValues x) = aggregationFilter (p.groupingValues y) →
      attributesKey x.toSlice p.groupingLabels = attributesKey y.toSlice p.groupingLabels) :
    Repeats p.groupingLabels := by
  have hsorted : (filterLabels p.groupingLabels).Pairwise (· < ·) := pairwise_sorted (nodup_dedup _)
  have hmem : ∀ k, k ∈ filterLabels p.groupingLabels ↔ k ∈ p.groupingLabels := fun k => mem_filterLabels
  have hfilter := filter_eq_iff p
  generalize filterLabels p.groupingLabels = labels at hsorted hmem hfilter
  cases labels with
  | nil =>
    have hnil : p.groupingLabels = [] := eq_nil_iff_forall_not_mem.mpr fun k hk => nomatch (hmem k).mpr hk
    have hdiff := h ⟨[], .nil⟩ (.single [] []) ((hfilter _ _).mpr rfl)
    rw [hnil] at hdiff
    exact absurd hdiff (by decide)
  | cons k labels =>
    have hne : p.groupingLabels ≠ [] := ne_nil_of_mem ((hmem k).mp mem_cons_self)
    -- a value that is longer than any key
    obtain ⟨n, hn⟩ : ∃ n, ∀ l ∈ p.groupingLabels, l.length ≤ n :=
      ⟨p.groupingLabels.flatten.length, fun l hl => (sublist_flatten_of_mem hl).length_le⟩
    let label (l : Bytes) : Bytes := l ++ 61 :: (replicate n 120 ++ [59])
    have hlabel : ∀ l, l ++ str "=" ++ replicate n 120 ++ str ";" = label l := fun l => by
      rw [show str "=" = [61] by decide, show str ";" = [59] by decide]
      simp [label]
    obtain ⟨v, hv⟩ : ∃ v, (k :: labels).flatMap label = k ++ str "=" ++ v ++ str ";" := spells_out hlabel k labels
    have hy : ∀ l ∈ k :: labels, writeLabel (const _ hsorted (.replicate n 120)).toSlice l = label l :=
      fun l hl => (writeLabel_const hl).trans (hlabel l)
    have hx : ∀ g : List Bytes, g.flatMap (writeLabel (single k v).toSlice) =
        ((replicate (g.count k) (k :: labels)).flatten).flatMap label := fun g => by
      rw [flatMap_replicate_flatten, hv, ← flatMap_single]
      exact flatMap_congr fun l _ => writeLabel_single k v l
    have hone : (k :: labels).count k = 1 := count_eq_one_of_mem (hsorted.imp ne_of_lt) mem_cons_self
    have hkeys := h (.single k v) (.const _ hsorted (.replicate n 120)) ((hfilter _ _).mpr (by
      rw [hx, hone, flatMap_congr hy]
      simp))
    rw [attributesKey_of_ne_nil hne, attributesKey_of_ne_nil hne, hx,
      flatMap_congr fun l hl => hy l ((hmem l).mpr hl)] at hkeys
    obtain ⟨m, hm⟩ := Nat.exists_eq_succ_of_ne_zero (count_pos_iff.mpr ((hmem k).mp mem_cons_self)).ne'
    refine ⟨k :: labels, m, cons_ne_nil _ _, hsorted, ?_⟩
    rw [hm] at hkeys
    refine (flatMap_label_inj (by decide : (120 : UInt8) ≠ 61) (fun l hl => hn l ((hmem l).mp ?_)) hn hkeys).symm
    simpa using hl

/-- The router and the series key tell the same series apart exactly when the grouping labels of the policy
are an increasing list, written once or more. -/
theorem router_agrees_iff (p : AggregationPolicy) (aggID : UInt64) (resource : List KeyValue) :
    (∀ x y : AttributeSet, (p.router x).1 = (p.router y).1 ↔
      seriesKey aggID resource x.toSlice p.groupingLabels = seriesKey aggID resource y.toSlice p.groupingLabels) ↔
    Repeats p.groupingLabels := by
  have hrouter : ∀ x y, (p.router x).1 = (p.router y).1 ↔
      aggregationFilter (p.groupingValues x) = aggregationFilter (p.groupingValues y) := by
    simp [AggregationPolicy.router]
  simp only [hrouter, seriesKey_eq_iff]
  exact ⟨fun h => repeats_of_agrees fun x y => (h x y).mp, fun h => h.agrees⟩

/-- Without grouping labels the router knows one series, and the collector as many as there are label sets. With
labels out of order the router takes `a="1;b=2"` for `a="1", b="2"`. -/
theorem router_merges_series :
    (let p : AggregationPolicy := ⟨1, [], 0⟩
     let x := single (str "a") (str "1")
     let y := single (str "a") (str "2")
     (p.router x).1 = (p.router y).1 ∧ seriesKey 1 [] x.toSlice [] ≠ seriesKey 1 [] y.toSlice []) ∧
    (let p : AggregationPolicy := ⟨1, [str "b", str "a"], 0⟩
     let x := single (str "a") (str "1;b=2")
     let y : AttributeSet := ⟨[⟨str "a", str "1"⟩, ⟨str "b", str "2"⟩], by decide⟩
     (p.router x).1 = (p.router y).1 ∧
       seriesKey 1 [] x.toSlice p.groupingLabels ≠ seriesKey 1 [] y.toSlice p.groupingLabels) := by
  decide +kernel

end AsapCollector.Precompute
