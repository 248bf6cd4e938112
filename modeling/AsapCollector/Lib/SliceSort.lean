import Mathlib.Data.List.Sort

/-! `sort.Slice` with a comparison of keys; which of two elements with equal keys comes first is left open. -/

namespace AsapCollector

/-- A way in which `sort.Slice` may order a slice by a key. -/
structure SliceSort {α κ : Type} [LinearOrder κ] (key : α → κ) where
  sort : List α → List α
  perm : ∀ l, (sort l).Perm l
  sorted : ∀ l, (sort l).Pairwise fun a b => key a ≤ key b

/-- The order that leaves equal keys as they were. -/
def SliceSort.stable {α κ : Type} [LinearOrder κ] (key : α → κ) : SliceSort key where
  sort := List.insertionSort fun a b => key a ≤ key b
  perm := List.perm_insertionSort _
  sorted l :=
    have : Std.Total fun a b : α => key a ≤ key b := ⟨fun a b => le_total (key a) (key b)⟩
    have : IsTrans α fun a b => key a ≤ key b := ⟨fun _ _ _ => le_trans⟩
    List.pairwise_insertionSort (fun a b => key a ≤ key b) l

end AsapCollector
