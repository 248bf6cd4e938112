import Mathlib.Algebra.BigOperators.Group.Finset.Piecewise

/-! A list with keys is the disjoint union of its parts, one for each key, and so are sums over it. -/

namespace AsapCollector

open List

theorem diff_self {α : Type} [DecidableEq α] (l : List α) : l.diff l = [] := by
  induction l with
  | nil => rfl
  | cons a l ih => rw [diff_cons, erase_cons_head, ih]

theorem sum_filter_key {α κ M : Type} [DecidableEq κ] [AddCommMonoid M] (key : α → κ) (f : α → M) (K : Finset κ) :
    ∀ l : List α, (∀ a ∈ l, key a ∈ K) →
      ∑ k ∈ K, ((l.filter fun a => key a = k).map f).sum = (l.map f).sum
  | [], _ => by simp
  | a :: l, h => by
    have ih := sum_filter_key key f K l fun b hb => h b (mem_cons_of_mem _ hb)
    have hsplit : ∀ k, (((a :: l).filter fun b => key b = k).map f).sum =
        (if k = key a then f a else 0) + ((l.filter fun b => key b = k).map f).sum := by
      intro k
      by_cases hk : key a = k
      · rw [filter_cons_of_pos (by simpa using hk), map_cons, sum_cons, if_pos hk.symm]
      · rw [filter_cons_of_neg (by simpa using hk), if_neg (fun h => hk h.symm), zero_add]
    rw [Finset.sum_congr rfl fun k _ => hsplit k, Finset.sum_add_distrib, Finset.sum_ite_eq' K (key a),
      if_pos (h a mem_cons_self), ih, map_cons, sum_cons]

theorem flatMap_filter_key {α κ : Type} [DecidableEq κ] (key : α → κ) (l : List α) :
    ∀ {keys : List κ}, keys.Nodup →
      (keys.flatMap fun k => l.filter fun x => key x = k).Perm (l.filter fun x => key x ∈ keys)
  | [], _ => by simp
  | k :: keys, h => by
    have hrest := flatMap_filter_key key l (nodup_cons.mp h).2
    have hsplit := filter_append_perm (fun x => decide (key x = k)) (l.filter fun x => key x ∈ k :: keys)
    rw [filter_filter, filter_filter] at hsplit
    rw [flatMap_cons]
    refine ((Perm.append_left _ hrest).trans (Perm.of_eq ?_)).trans hsplit
    congr 1
    · refine filter_congr fun x _ => ?_
      simp +contextual
    · refine filter_congr fun x _ => ?_
      have hk : k ∉ keys := (nodup_cons.mp h).1
      by_cases hx : key x = k
      · simp [hx, hk]
      · simp [hx]

theorem eq_of_pairwise_key {α κ : Type} [Preorder κ] {key : α → κ} {a b : List α}
    (ha : a.Pairwise fun x y => key x < key y)
    (hb : b.Pairwise fun x y => key x < key y) (hmem : ∀ x, x ∈ a ↔ x ∈ b) : a = b := by
  have hnodup : ∀ {l : List α}, (l.Pairwise fun x y => key x < key y) → l.Nodup := fun h =>
    h.imp fun hlt => ne_of_apply_ne key (ne_of_lt hlt)
  refine Perm.eq_of_pairwise (fun x y _ _ hxy hyx => absurd hyx (lt_asymm hxy)) ha hb ?_
  exact (perm_ext_iff_of_nodup (hnodup ha) (hnodup hb)).mpr hmem

end AsapCollector
