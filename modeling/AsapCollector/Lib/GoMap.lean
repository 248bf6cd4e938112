import Mathlib.Data.List.Dedup
import Mathlib.Data.List.AList

/-! A Go map is Mathlib's `AList`. Go leaves the order of a `range` open, so every loop over a map takes it as an
argument. -/

namespace AsapCollector

open List Option AList

abbrev GoMap (κ υ : Type) := AList (fun _ : κ => υ)

/-- An order in which a `range` over a map may visit the entries. -/
structure RangeOrder (α : Type) where
  visit : List α → List α
  perm : ∀ l, (visit l).Perm l

def RangeOrder.stored (α : Type) : RangeOrder α := ⟨id, fun l => Perm.refl l⟩

namespace GoMap

variable {κ υ : Type} [DecidableEq κ] (m : GoMap κ υ)

/-- `m[k]`: the zero value stands for a missing key. -/
def get (zero : υ) (k : κ) : υ := (m.lookup k).getD zero

def len : Nat := m.keys.length

def pairs : List (κ × υ) := m.entries.map fun e => (e.1, e.2)

def range (ω : RangeOrder (κ × υ)) : List (κ × υ) := ω.visit m.pairs

variable {m : GoMap κ υ} {k : κ} {v zero : υ} {υ' : Type}

theorem mem_pairs : (k, v) ∈ m.pairs ↔ m.lookup k = some v := by
  rw [← mem_def, mem_lookup_iff, pairs, List.mem_map]
  constructor
  · rintro ⟨⟨k', v'⟩, he, h⟩
    obtain ⟨rfl, rfl⟩ := Prod.mk.inj h
    exact he
  · exact fun h => ⟨⟨k, v⟩, h, rfl⟩

theorem mem_range {ω : RangeOrder (κ × υ)} : (k, v) ∈ m.range ω ↔ m.lookup k = some v := by
  rw [range, (ω.perm _).mem_iff, mem_pairs]

omit [DecidableEq κ] in
theorem length_range (m : GoMap κ υ) (ω : RangeOrder (κ × υ)) : (m.range ω).length = m.len := by
  rw [range, (ω.perm _).length_eq, pairs, length_map, len, AList.keys, List.keys, length_map]

omit [DecidableEq κ] in
theorem nodup_keys_range (m : GoMap κ υ) (ω : RangeOrder (κ × υ)) : ((m.range ω).map Prod.fst).Nodup := by
  have h : m.entries.keys.Nodup := m.nodupKeys
  have hpairs : (m.pairs.map Prod.fst).Nodup := by simpa [pairs, List.keys, Function.comp_def] using h
  exact ((ω.perm _).map Prod.fst).nodup_iff.mpr hpairs

theorem map_range_perm {α : Type} {m' : GoMap κ υ'} {f : υ → α} {g : υ' → α}
    (h : ∀ k, (m.lookup k).map f = (m'.lookup k).map g) (ω : RangeOrder (κ × υ)) (ω' : RangeOrder (κ × υ')) :
    ((m.range ω).map fun e => f e.2).Perm ((m'.range ω').map fun e => g e.2) := by
  have hvalues : ∀ {ν : Type} (n : GoMap κ ν) (ω : RangeOrder (κ × ν)) (f : ν → α),
      ((n.range ω).map fun e => f e.2) = ((n.range ω).map Prod.fst).filterMap fun k => (n.lookup k).map f := by
    intro ν n ω f
    rw [filterMap_map, ← filterMap_eq_map]
    refine filterMap_congr fun e he => ?_
    rw [Function.comp_apply, Function.comp_apply, mem_range.mp he, map_some]
  have hkeys : ((m.range ω).map Prod.fst).Perm ((m'.range ω').map Prod.fst) := by
    rw [perm_ext_iff_of_nodup (nodup_keys_range m ω) (nodup_keys_range m' ω')]
    intro k
    have hk := Bool.eq_iff_iff.mp (congrArg isSome (h k))
    rw [isSome_map, isSome_map, isSome_iff_exists, isSome_iff_exists] at hk
    simpa [mem_range] using hk
  rw [hvalues m ω f, hvalues m' ω' g, funext h]
  exact hkeys.filterMap _

theorem forall_lookup_insert {key : κ} {P : κ → υ → Prop} (hm : ∀ k x, m.lookup k = some x → P k x) (hv : P key v) :
    ∀ k x, (m.insert key v).lookup k = some x → P k x := by
  intro k x hx
  by_cases hk : k = key
  · subst hk
    rw [lookup_insert] at hx
    exact some.inj hx ▸ hv
  · rw [lookup_insert_ne hk] at hx
    exact hm k x hx

theorem lookup_of_mem_keys (h : k ∈ m.keys) : ∃ v, m.lookup k = some v :=
  isSome_iff_exists.mp (lookup_isSome.mpr h)

theorem mem_keys_of_lookup (h : m.lookup k = some v) : k ∈ m.keys :=
  lookup_isSome.mp (isSome_iff_exists.mpr ⟨v, h⟩)

theorem get_of_lookup (h : m.lookup k = some v) : m.get zero k = v := by
  rw [get, h, getD_some]

theorem get_of_lookup_none (h : m.lookup k = none) : m.get zero k = zero := by
  rw [get, h, getD_none]

@[simp] theorem get_insert_self (m : GoMap κ υ) (zero v : υ) (k : κ) : get (m.insert k v) zero k = v := by
  rw [get, lookup_insert, getD_some]

theorem get_insert_of_ne {k' : κ} (h : k' ≠ k) : get (m.insert k v) zero k' = m.get zero k' := by
  rw [get, lookup_insert_ne h, get]

@[simp] theorem get_empty (zero : υ) (k : κ) : get (∅ : GoMap κ υ) zero k = zero := rfl

/-- The entries that satisfy a test: a `range` that deletes the others. -/
def filter (m : GoMap κ υ) (p : κ → υ → Bool) : GoMap κ υ :=
  ⟨m.entries.filter fun e => p e.1 e.2, m.nodupKeys.sublist filter_sublist⟩

theorem lookup_filter {p : κ → υ → Bool} : (m.filter p).lookup k = some v ↔ m.lookup k = some v ∧ p k v = true := by
  rw [← mem_def, ← mem_def, mem_lookup_iff, mem_lookup_iff]
  exact mem_filter

theorem lookup_filter_eq (m : GoMap κ υ) (p : κ → υ → Bool) (k : κ) :
    (m.filter p).lookup k = (m.lookup k).filter (p k) := by
  refine ext fun v => ?_
  rw [lookup_filter, filter_eq_some_iff]

theorem filter_range (m : GoMap κ υ) (ω : RangeOrder (κ × υ)) (k : κ) :
    ((m.range ω).filter fun e => e.1 = k) = (m.lookup k).toList.map fun v => (k, v) := by
  have hnodup : ((m.range ω).filter fun e => e.1 = k).Nodup := (Nodup.of_map _ (nodup_keys_range m ω)).filter _
  have hperm : ((m.range ω).filter fun e => e.1 = k).Perm ((m.lookup k).toList.map fun v => (k, v)) := by
    refine (perm_ext_iff_of_nodup hnodup (by cases m.lookup k <;> simp)).mpr fun ⟨k', v⟩ => ?_
    simp only [mem_filter, mem_range, decide_eq_true_eq, List.mem_map, mem_toList, Prod.mk.injEq, exists_eq_right_right]
    constructor
    · rintro ⟨h, rfl⟩
      exact ⟨h, rfl⟩
    · rintro ⟨h, rfl⟩
      exact ⟨h, rfl⟩
  revert hperm
  cases m.lookup k with
  | none => exact perm_nil.mp
  | some v => exact perm_singleton.mp

/-- A `range` that replaces each value. -/
def map (m : GoMap κ υ) (f : υ → υ') : GoMap κ υ' :=
  ⟨m.entries.map fun e => ⟨e.1, f e.2⟩, by
    have h : m.entries.keys.Nodup := m.nodupKeys
    simpa [NodupKeys, List.keys, Function.comp_def] using h⟩

theorem lookup_map {f : υ → υ'} {v : υ'} : (m.map f).lookup k = some v ↔ ∃ w, m.lookup k = some w ∧ v = f w := by
  rw [← mem_def, mem_lookup_iff]
  constructor
  · intro h
    obtain ⟨⟨k', w⟩, he, heq⟩ := List.mem_map.mp h
    obtain ⟨rfl, hv⟩ := Sigma.mk.inj heq
    exact ⟨w, mem_lookup_iff.mpr he, (eq_of_heq hv).symm⟩
  · rintro ⟨w, hw, rfl⟩
    exact List.mem_map.mpr ⟨⟨k, w⟩, mem_lookup_iff.mp hw, rfl⟩

theorem lookup_map_eq {f : υ → υ'} : (m.map f).lookup k = (m.lookup k).map f := by
  refine ext fun v => ?_
  rw [lookup_map, map_eq_some_iff]
  simp only [eq_comm]

theorem get_map {f : υ → υ'} {zero' : υ'} (hzero : f zero = zero') (m : GoMap κ υ) (k : κ) :
    (m.map f).get zero' k = f (m.get zero k) := by
  rw [get, lookup_map_eq, get]
  cases m.lookup k with
  | none => exact hzero.symm
  | some w => rfl

theorem len_le_of_keys_subset {l : List κ} (h : ∀ k ∈ m.keys, k ∈ l) : m.len ≤ l.dedup.length :=
  (subperm_of_subset m.keys_nodup fun k hk => mem_dedup.mpr (h k hk)).length_le

theorem get_foldl_append {α : Type} (key : α → κ) (f : α → υ) (l : List α) (k : κ) : ∀ m : GoMap κ (List υ),
    (l.foldl (fun m x => m.insert (key x) (m.get [] (key x) ++ [f x])) m).get [] k =
      m.get [] k ++ (l.filter fun x => key x = k).map f := by
  induction l with
  | nil => simp
  | cons x l ih =>
    intro m
    rw [foldl_cons, ih]
    by_cases hk : key x = k
    · subst hk
      simp
    · rw [get_insert_of_ne (Ne.symm hk), filter_cons_of_neg (by simpa using hk)]

end GoMap

end AsapCollector
