import Mathlib.Data.List.Induction
import AsapCollector.Lib.Check
import AsapCollector.Lib.GoMap

/-!
# Indexing a list

A loop that puts the elements of a list into a map by a key and refuses a second element with one key.
-/

namespace AsapCollector

open List

variable {ε α κ : Type} [DecidableEq κ]

def indexBy (key : α → κ) (xs : List α) : GoMap κ α := xs.foldl (fun acc x => acc.insert (key x) x) ∅

theorem indexBy_append_singleton (key : α → κ) (xs : List α) (x : α) :
    indexBy key (xs ++ [x]) = (indexBy key xs).insert (key x) x := by
  simp [indexBy]

variable {key : α → κ} {xs : List α}

omit [DecidableEq κ] in
theorem nodup_map_append_singleton {y : α} : ((xs ++ [y]).map key).Nodup ↔ (xs.map key).Nodup ∧ key y ∉ xs.map key := by
  rw [map_append, map_singleton, nodup_append_comm, singleton_append, nodup_cons, and_comm]

theorem lookup_indexBy (h : (xs.map key).Nodup) {k : κ} {x : α} :
    (indexBy key xs).lookup k = some x ↔ x ∈ xs ∧ key x = k := by
  induction xs using reverseRecOn with
  | nil => simp [indexBy]
  | append_singleton xs y ih =>
    obtain ⟨hxs, hy⟩ := nodup_map_append_singleton.mp h
    rw [indexBy_append_singleton, mem_append, mem_singleton]
    by_cases hk : k = key y
    · subst hk
      rw [AList.lookup_insert]
      constructor
      · rintro ⟨⟩
        exact ⟨.inr rfl, rfl⟩
      · rintro ⟨hx | rfl, hkey⟩
        · exact absurd (mem_map.mpr ⟨x, hx, hkey⟩) hy
        · rfl
    · rw [AList.lookup_insert_ne hk, ih hxs]
      refine and_congr_left fun hkey => ⟨.inl, fun hx => hx.resolve_right ?_⟩
      rintro rfl
      exact hk hkey.symm

theorem lookup_indexBy_eq_none (h : (xs.map key).Nodup) {k : κ} :
    (indexBy key xs).lookup k = none ↔ k ∉ xs.map key := by
  rw [Option.eq_none_iff_forall_ne_some]
  simp only [ne_eq, lookup_indexBy h, mem_map]
  exact ⟨fun hno ⟨x, hx⟩ => hno x hx, fun hno x hx => hno ⟨x, hx⟩⟩

theorem len_indexBy (h : (xs.map key).Nodup) : (indexBy key xs).len = xs.length := by
  have hperm : (indexBy key xs).keys.Perm (xs.map key) := by
    refine (perm_ext_iff_of_nodup (indexBy key xs).nodupKeys h).mpr fun k => ?_
    rw [← not_iff_not, ← lookup_indexBy_eq_none h, AList.lookup_eq_none]
    rfl
  exact hperm.length_eq.trans (length_map _)

section
variable {f : GoMap κ α → α → Except ε (GoMap κ α)} {key : α → κ} {good : α → Prop}
  (hf : ∀ acc x acc', f acc x = .ok acc' ↔ good x ∧ acc.lookup (key x) = none ∧ acc' = acc.insert (key x) x)
include hf

theorem foldlM_eq_ok_indexBy {xs : List α} {m : GoMap κ α} :
    xs.foldlM f ∅ = .ok m ↔ (∀ x ∈ xs, good x) ∧ (xs.map key).Nodup ∧ m = indexBy key xs := by
  induction xs using reverseRecOn generalizing m with
  | nil =>
    simp only [foldlM_nil, pure_eq_ok]
    exact ⟨fun h => ⟨forall_mem_nil _, nodup_nil, h.symm⟩, fun h => h.2.2.symm⟩
  | append_singleton xs y ih =>
    simp only [foldlM_append, foldlM_cons, foldlM_nil, bind_pure, bind_eq_ok, ih, hf]
    constructor
    · rintro ⟨acc, ⟨hgood, hnodup, rfl⟩, hy, hnew, rfl⟩
      refine ⟨?_, ?_, (indexBy_append_singleton key xs y).symm⟩
      · simpa [or_imp, forall_and] using ⟨hgood, hy⟩
      · exact nodup_map_append_singleton.mpr ⟨hnodup, (lookup_indexBy_eq_none hnodup).mp hnew⟩
    · rintro ⟨hgood, hnodup, rfl⟩
      obtain ⟨hxs, hy⟩ := nodup_map_append_singleton.mp hnodup
      exact ⟨_, ⟨fun x hx => hgood x (mem_append_left _ hx), hxs, rfl⟩, hgood y (by simp),
        (lookup_indexBy_eq_none hxs).mpr hy, indexBy_append_singleton key xs y⟩

end

omit [DecidableEq κ] in
theorem foldlM_eq_ok_keys {f : List κ → α → Except ε (List κ)} {good : α → Prop}
    (hf : ∀ acc x acc', f acc x = .ok acc' ↔ good x ∧ key x ∉ acc ∧ acc' = acc ++ [key x]) {ks : List κ} :
    xs.foldlM f [] = .ok ks ↔ (∀ x ∈ xs, good x) ∧ (xs.map key).Nodup ∧ ks = xs.map key := by
  induction xs using reverseRecOn generalizing ks with
  | nil =>
    simp only [foldlM_nil, pure_eq_ok]
    exact ⟨fun h => ⟨forall_mem_nil _, nodup_nil, h.symm⟩, fun h => h.2.2.symm⟩
  | append_singleton xs y ih =>
    simp only [foldlM_append, foldlM_cons, foldlM_nil, bind_pure, bind_eq_ok, ih, hf, nodup_map_append_singleton]
    constructor
    · rintro ⟨acc, ⟨hgood, hnodup, rfl⟩, hy, hnew, rfl⟩
      exact ⟨by simpa [or_imp, forall_and] using ⟨hgood, hy⟩, ⟨hnodup, hnew⟩, by simp⟩
    · rintro ⟨hgood, ⟨hnodup, hnew⟩, rfl⟩
      exact ⟨_, ⟨fun x hx => hgood x (mem_append_left _ hx), hnodup, rfl⟩, hgood y (by simp), hnew, by simp⟩

theorem find?_eq_some_of_nodup {key : α → κ} {xs : List α} (h : (xs.map key).Nodup) {k : κ} {x : α} :
    xs.find? (fun x => key x = k) = some x ↔ x ∈ xs ∧ key x = k := by
  constructor
  · intro hfind
    exact ⟨mem_of_find?_eq_some hfind, by simpa using find?_some hfind⟩
  · rintro ⟨hx, hk⟩
    cases hfind : xs.find? (fun x => key x = k) with
    | none => exact absurd hk (by simpa using find?_eq_none.mp hfind x hx)
    | some y =>
      have hy : key y = k := by simpa using find?_some hfind
      rw [inj_on_of_nodup_map h (mem_of_find?_eq_some hfind) hx (hy.trans hk.symm)]

end AsapCollector
