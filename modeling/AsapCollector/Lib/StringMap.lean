import AsapCollector.Lib.Bytes

/-! A Go `map[string]string` and a Prometheus label set, both by their entries in ascending order of key. -/

namespace AsapCollector

open List

instance byteOrder : LinearOrder UInt8 where
  le_refl _ := UInt8.le_refl _
  le_trans _ _ _ := UInt8.le_trans
  le_antisymm _ _ := UInt8.le_antisymm
  le_total := UInt8.le_total
  lt_iff_le_not_ge a b := by
    simp only [UInt8.le_iff_toNat_le, UInt8.lt_iff_toNat_lt]
    omega
  toDecidableLE := inferInstance
  toDecidableLT := inferInstance
  toDecidableEq := inferInstance

structure StringMap where
  entries : List (Bytes × Bytes)
  sorted : entries.Pairwise fun a b => a.1 < b.1
deriving DecidableEq

namespace StringMap

def empty : StringMap := ⟨[], Pairwise.nil⟩

def setEntry (k v : Bytes) : List (Bytes × Bytes) → List (Bytes × Bytes)
  | [] => [(k, v)]
  | e :: es => if k < e.1 then (k, v) :: e :: es else if k = e.1 then (k, v) :: es else e :: setEntry k v es

variable {k v : Bytes} {es : List (Bytes × Bytes)}

theorem mem_setEntry {e : Bytes × Bytes} (h : es.Pairwise fun a b => a.1 < b.1) :
    e ∈ setEntry k v es ↔ e = (k, v) ∨ e.1 ≠ k ∧ e ∈ es := by
  induction es with
  | nil => simp [setEntry]
  | cons e' es ih =>
    obtain ⟨hhead, htail⟩ := pairwise_cons.mp h
    have ih := ih htail
    rw [setEntry]
    split <;> grind

theorem pairwise_setEntry (h : es.Pairwise fun a b => a.1 < b.1) : (setEntry k v es).Pairwise fun a b => a.1 < b.1 := by
  induction es with
  | nil => exact pairwise_singleton _ _
  | cons e es ih =>
    obtain ⟨hhead, htail⟩ := pairwise_cons.mp h
    rw [setEntry]
    split
    · rename_i hlt
      refine pairwise_cons.mpr ⟨fun b hb => ?_, h⟩
      rcases mem_cons.mp hb with rfl | hb'
      · exact hlt
      · exact lt_trans hlt (hhead b hb')
    · split
      · rename_i heq
        exact pairwise_cons.mpr ⟨fun b hb => heq ▸ hhead b hb, htail⟩
      · rename_i hnlt hne
        refine pairwise_cons.mpr ⟨fun b hb => ?_, ih htail⟩
        rcases (mem_setEntry htail).mp hb with rfl | ⟨-, hb'⟩
        · exact lt_of_le_of_ne (not_lt.mp hnlt) (Ne.symm hne)
        · exact hhead b hb'

def set (m : StringMap) (k v : Bytes) : StringMap := ⟨setEntry k v m.entries, pairwise_setEntry m.sorted⟩

def erase (m : StringMap) (k : Bytes) : StringMap :=
  ⟨m.entries.filter fun e => e.1 ≠ k, m.sorted.sublist filter_sublist⟩

def ofList (es : List (Bytes × Bytes)) : StringMap := es.foldl (fun m e => m.set e.1 e.2) empty

theorem ext_entries {m m' : StringMap} (h : m.entries = m'.entries) : m = m' := by
  cases m
  cases m'
  cases h
  rfl

theorem setEntry_of_lt (h : ∀ e ∈ es, e.1 < k) : setEntry k v es = es ++ [(k, v)] := by
  induction es with
  | nil => rfl
  | cons e es ih =>
    have hlt := h e mem_cons_self
    rw [setEntry, if_neg (not_lt_of_gt hlt), if_neg (ne_of_gt hlt), ih fun e' he' => h e' (mem_cons_of_mem e he'),
      cons_append]

theorem set_eq_of_append {m : StringMap} {e : Bytes × Bytes} (h : m.entries = es) (hlt : ∀ e' ∈ es, e'.1 < e.1) :
    (m.set e.1 e.2).entries = es ++ [e] := by
  subst h
  exact setEntry_of_lt hlt

end StringMap

end AsapCollector
