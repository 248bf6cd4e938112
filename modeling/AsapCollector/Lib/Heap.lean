import Mathlib.Data.List.Perm.Basic
import Mathlib.Logic.Equiv.Basic
import Mathlib.Data.Nat.Order.Lemmas

/-! Go's `container/heap` over a slice, with an integer key. The loops `up` and `down` take the rounds they may run as
an argument; the length of the slice is enough. -/

namespace AsapCollector.Heap

open Array Equiv

variable {α : Type} (key : α → Int) (h : Array α)

def less (i j : Nat) : Bool :=
  match h[i]?, h[j]? with
  | some a, some b => decide (key a < key b)
  | _, _ => false

def up : Nat → Array α → Nat → Array α
  | 0, h, _ => h
  | rounds + 1, h, j =>
    let i := (j - 1) / 2
    if i = j ∨ less key h j i = false then h else up rounds (h.swapIfInBounds i j) i

/-- The smaller child of `i` among the first `n`. -/
def child (n i : Nat) : Nat :=
  let j1 := 2 * i + 1
  if j1 + 1 < n ∧ less key h (j1 + 1) j1 = true then j1 + 1 else j1

def down (n : Nat) : Nat → Array α → Nat → Array α
  | 0, h, _ => h
  | rounds + 1, h, i =>
    if n ≤ 2 * i + 1 then h
    else
      let j := child key h n i
      if less key h j i = false then h else down n rounds (h.swapIfInBounds i j) j

def push (x : α) : Array α := up key h.size (h.push x) h.size

/-- `heap.Pop`, which the callers run on a slice that is not empty. -/
def pop : Option (α × Array α) :=
  let n := h.size - 1
  let h' := down key n n (h.swapIfInBounds 0 n) 0
  h'.back?.map fun x => (x, h'.pop)

/-! ### The elements -/

theorem perm_swapIfInBounds (i j : Nat) : (h.swapIfInBounds i j).toList.Perm h.toList := by
  unfold swapIfInBounds
  split
  · split
    · exact (swap_perm _ _).toList
    · exact .refl _
  · exact .refl _

theorem perm_up (rounds : Nat) (h : Array α) (j : Nat) : (up key rounds h j).toList.Perm h.toList := by
  induction rounds generalizing h j with
  | zero => exact .refl _
  | succ rounds ih =>
    rw [up]
    split
    · exact .refl _
    · exact (ih _ _).trans (perm_swapIfInBounds h _ _)

theorem perm_down (n rounds : Nat) (h : Array α) (i : Nat) : (down key n rounds h i).toList.Perm h.toList := by
  induction rounds generalizing h i with
  | zero => exact .refl _
  | succ rounds ih =>
    simp only [down]
    split
    · exact .refl _
    · split
      · exact .refl _
      · exact (ih _ _).trans (perm_swapIfInBounds h _ _)

theorem perm_push (x : α) : (push key h x).toList.Perm (x :: h.toList) := by
  have hup := perm_up key h.size (h.push x) h.size
  rw [toList_push] at hup
  exact hup.trans (List.perm_append_singleton x h.toList)

theorem push_ne_nil (x : α) : (push key h x).toList ≠ [] := by
  intro hnil
  have hperm := perm_push key h x
  rw [hnil] at hperm
  cases hperm.nil_eq

variable {h h' : Array α} {x : α} {i j n : Nat}

theorem perm_pop (hpop : pop key h = some (x, h')) : h.toList.Perm (x :: h'.toList) := by
  simp only [pop, Option.map_eq_some_iff, Prod.mk.injEq] at hpop
  obtain ⟨y, hback, rfl, rfl⟩ := hpop
  have hperm := (perm_down key (h.size - 1) (h.size - 1) _ 0).trans (perm_swapIfInBounds h 0 (h.size - 1))
  obtain ⟨ys, hys⟩ := back?_eq_some_iff.mp hback
  rw [hys, toList_push] at hperm
  rw [hys, pop_push]
  exact hperm.symm.trans (List.perm_append_singleton y _)

theorem pop_eq_none : pop key h = none ↔ h.toList = [] := by
  simp only [pop, Option.map_eq_none_iff, back?_eq_none_iff, ← toList_eq_nil_iff]
  have hperm := (perm_down key (h.size - 1) (h.size - 1) _ 0).trans (perm_swapIfInBounds h 0 (h.size - 1))
  constructor
  · intro hnil
    exact (hnil ▸ hperm).nil_eq.symm
  · intro hnil
    exact (hnil ▸ hperm).eq_nil

/-! ### The root -/

theorem getElem?_swapIfInBounds_of_ne {k : Nat} (hi : k ≠ i) (hj : k ≠ j) : (h.swapIfInBounds i j)[k]? = h[k]? := by
  unfold swapIfInBounds
  split
  · split
    · rw [getElem?_swap, if_neg hj.symm, if_neg hi.symm]
    · rfl
  · rfl

theorem child_lt {n i : Nat} (hi : 2 * i + 1 < n) : child key h n i < n := by
  simp only [child]
  split <;> omega

theorem getElem?_down {k : Nat} (hk : n ≤ k) (rounds : Nat) (h : Array α) (i : Nat) (hi : i < n ∨ n = 0) :
    (down key n rounds h i)[k]? = h[k]? := by
  induction rounds generalizing h i with
  | zero => rfl
  | succ rounds ih =>
    simp only [down]
    split
    · rfl
    · rename_i hj1
      have hjn : child key h n i < n := child_lt key (not_le.mp hj1)
      split
      · rfl
      · rw [ih _ _ (.inl hjn), getElem?_swapIfInBounds_of_ne (by omega) (by omega)]

theorem pop_root (hpop : pop key h = some (x, h')) : h[0]? = some x := by
  simp only [pop, Option.map_eq_some_iff, Prod.mk.injEq] at hpop
  obtain ⟨y, hback, rfl, -⟩ := hpop
  have hsize : (down key (h.size - 1) (h.size - 1) (h.swapIfInBounds 0 (h.size - 1)) 0).size = h.size := by
    have hperm := (perm_down key (h.size - 1) (h.size - 1) _ 0).trans (perm_swapIfInBounds h 0 (h.size - 1))
    simpa using hperm.length_eq
  rw [back?_eq_getElem?, hsize, getElem?_down key (Nat.le_refl _) _ _ _ (by omega)] at hback
  have hpos : 0 < h.size := by
    by_contra h0
    have hz : h.size = 0 := by omega
    rw [getElem?_eq_none (by simp [hz])] at hback
    cases hback
  rw [swapIfInBounds, dif_pos hpos, dif_pos (by omega), getElem?_swap] at hback
  rw [getElem?_eq_getElem hpos]
  simpa using hback

/-! ### The order -/

def keyAt (h : Array α) (i : Nat) : Int := ((h[i]?).map key).getD 0

def parent (i : Nat) : Nat := (i - 1) / 2

/-- No key among the first `n` is less than that of its parent. -/
def OrderedUpTo (n : Nat) (f : Nat → Int) : Prop := ∀ i, 0 < i → i < n → f (parent i) ≤ f i

def Ordered (h : Array α) : Prop := OrderedUpTo h.size (keyAt key h)

/-- The order while `up` carries an element from index `j`: its children are not before its parent. -/
structure Rising (n : Nat) (f : Nat → Int) (j : Nat) : Prop where
  away : ∀ i, 0 < i → i < n → i ≠ j → f (parent i) ≤ f i
  across : 0 < j → ∀ i, 0 < i → i < n → parent i = j → f (parent j) ≤ f i

/-- The order while `down` carries an element from index `j`. -/
structure Sinking (n : Nat) (f : Nat → Int) (j : Nat) : Prop where
  away : ∀ i, 0 < i → i < n → parent i ≠ j → f (parent i) ≤ f i
  across : 0 < j → ∀ i, 0 < i → i < n → parent i = j → f (parent j) ≤ f i

theorem parent_lt (h : 0 < i) : parent i < i := by
  unfold parent
  omega

theorem parent_eq_iff (h : 0 < i) : parent i = j ↔ i = 2 * j + 1 ∨ i = 2 * j + 2 := by
  unfold parent
  omega

theorem Rising.swap {f : Nat → Int} (h : Rising n f j) (hj : 0 < j) (hjn : j < n) (hless : f j < f (parent j)) :
    Rising n (fun i => f (swap (parent j) j i)) (parent j) := by
  have hp := parent_lt hj
  constructor
  · intro i hi hin hip
    by_cases hij : i = j
    · subst hij
      simp only [swap_apply_left, swap_apply_right]
      exact hless.le
    · rw [swap_apply_of_ne_of_ne hip hij]
      by_cases hchild : parent i = j
      · rw [hchild, swap_apply_right]
        exact h.across hj i hi hin hchild
      · by_cases hsibling : parent i = parent j
        · rw [hsibling, swap_apply_left]
          exact hless.le.trans (hsibling ▸ h.away i hi hin hij)
        · rw [swap_apply_of_ne_of_ne hsibling hchild]
          exact h.away i hi hin hij
  · intro hp0 i hi hin hparent
    have hpp := parent_lt hp0
    rw [swap_apply_of_ne_of_ne hpp.ne (hpp.trans hp).ne]
    have htop := h.away (parent j) hp0 (hp.trans hjn) hp.ne
    by_cases hij : i = j
    · rw [hij, swap_apply_right]
      exact htop
    · have hne : i ≠ parent j := fun heq => (hparent ▸ parent_lt hi).ne heq.symm
      rw [swap_apply_of_ne_of_ne hne hij]
      exact htop.trans (hparent ▸ h.away i hi hin hij)

theorem Sinking.swap {c : Nat} {f : Nat → Int} (h : Sinking n f j) (hc : 0 < c) (hcn : c < n) (hparent : parent c = j)
    (hmin : ∀ i, 0 < i → i < n → parent i = j → f c ≤ f i) (hless : f c < f j) :
    Sinking n (fun i => f (swap j c i)) c := by
  have hjc : j < c := hparent ▸ parent_lt hc
  constructor
  · intro i hi hin hip
    by_cases hij : i = j
    · subst hij
      have hpi := parent_lt hi
      rw [swap_apply_left, swap_apply_of_ne_of_ne hpi.ne (hpi.trans hjc).ne]
      exact h.across hi c hc hcn hparent
    · by_cases hic : i = c
      · rw [hic, hparent, swap_apply_left, swap_apply_right]
        exact hless.le
      · rw [swap_apply_of_ne_of_ne hij hic]
        by_cases hchild : parent i = j
        · rw [hchild, swap_apply_left]
          exact hmin i hi hin hchild
        · rw [swap_apply_of_ne_of_ne hchild hip]
          exact h.away i hi hin hchild
  · intro _ i hi hin hchild
    have hci : c < i := hchild ▸ parent_lt hi
    rw [hparent, swap_apply_left, swap_apply_of_ne_of_ne (hjc.trans hci).ne' hci.ne']
    have haway := h.away i hi hin (by rw [hchild]; exact hjc.ne')
    rwa [hchild] at haway

theorem keyAt_swapIfInBounds (hi : i < h.size) (hj : j < h.size) :
    keyAt key (h.swapIfInBounds i j) = fun k => keyAt key h (swap i j k) := by
  funext k
  unfold keyAt
  rw [swapIfInBounds, dif_pos hi, dif_pos hj, getElem?_swap]
  by_cases hkj : j = k
  · rw [if_pos hkj, ← hkj, swap_apply_right, getElem?_eq_getElem hi]
  · rw [if_neg hkj]
    by_cases hki : i = k
    · rw [if_pos hki, ← hki, swap_apply_left, getElem?_eq_getElem hj]
    · rw [if_neg hki, swap_apply_of_ne_of_ne (Ne.symm hki) (Ne.symm hkj)]

theorem less_iff (hi : i < h.size) (hj : j < h.size) : less key h i j = true ↔ keyAt key h i < keyAt key h j := by
  simp [less, keyAt, getElem?_eq_getElem hi, getElem?_eq_getElem hj]

@[simp] theorem size_down (n rounds : Nat) (h : Array α) (i : Nat) : (down key n rounds h i).size = h.size := by
  simpa using (perm_down key n rounds h i).length_eq

theorem ordered_up {rounds : Nat} (hj : j < h.size) (hrounds : j ≤ rounds) (hrising : Rising h.size (keyAt key h) j) :
    Ordered key (up key rounds h j) := by
  induction rounds generalizing h j with
  | zero =>
    intro i hi hin
    exact hrising.away i hi hin (by omega)
  | succ rounds ih =>
    rw [up]
    split
    · rename_i hstop
      intro i hi hin
      by_cases hij : i = j
      · subst hij
        rcases hstop with heq | hless
        · exact absurd heq (parent_lt hi).ne
        · exact not_lt.mp fun hlt =>
            Bool.false_ne_true (hless.symm.trans ((less_iff key hin ((parent_lt hi).trans hin)).mpr hlt))
      · exact hrising.away i hi hin hij
    · rename_i hgo
      obtain ⟨hne, hless⟩ := not_or.mp hgo
      have hpos : 0 < j := by omega
      have hp := parent_lt hpos
      change Ordered key (up key rounds (h.swapIfInBounds (parent j) j) (parent j))
      refine ih (by rw [size_swapIfInBounds]; exact hp.trans hj) (by omega) ?_
      rw [size_swapIfInBounds, keyAt_swapIfInBounds key (hp.trans hj) hj]
      exact hrising.swap hpos hj ((less_iff key hj (hp.trans hj)).mp (Bool.eq_true_of_not_eq_false hless))

theorem ordered_push (hordered : Ordered key h) (x : α) : Ordered key (push key h x) := by
  refine ordered_up key (by simp) (Nat.le_refl _) ⟨fun i hi hin hne => ?_, fun _ i hi hin hchild => ?_⟩
  · have hlt : i < h.size := by simp only [size_push] at hin; omega
    have hkey k (hk : k < h.size) : keyAt key (h.push x) k = keyAt key h k := by
      simp [keyAt, getElem?_push, hk.ne]
    rw [hkey i hlt, hkey _ ((parent_lt hi).trans hlt)]
    exact hordered i hi hlt
  · simp only [size_push] at hin
    exact absurd hchild (by have := parent_lt hi; omega)

theorem child_min (hn : n ≤ h.size) (hi : 2 * i + 1 < n) {c : Nat} (hc : child key h n i = c) :
    0 < c ∧ c < n ∧ parent c = i ∧ ∀ k, 0 < k → k < n → parent k = i → keyAt key h c ≤ keyAt key h k := by
  have hfirst : 2 * i + 1 < h.size := hi.trans_le hn
  simp only [child] at hc
  split at hc
  · rename_i hright
    subst hc
    have hless := (less_iff key (hright.1.trans_le hn) hfirst).mp hright.2
    refine ⟨Nat.succ_pos _, hright.1, (parent_eq_iff (Nat.succ_pos _)).mpr (.inr rfl), fun k hk _ hchild => ?_⟩
    rcases (parent_eq_iff hk).mp hchild with rfl | rfl
    · exact hless.le
    · exact le_refl _
  · rename_i hleft
    subst hc
    refine ⟨Nat.succ_pos _, hi, (parent_eq_iff (Nat.succ_pos _)).mpr (.inl rfl), fun k hk hkn hchild => ?_⟩
    rcases (parent_eq_iff hk).mp hchild with rfl | rfl
    · exact le_refl _
    · have hless : ¬ less key h (2 * i + 1 + 1) (2 * i + 1) = true := fun hless => hleft ⟨hkn, hless⟩
      rw [less_iff key (hkn.trans_le hn) hfirst, not_lt] at hless
      exact hless

theorem ordered_down {n rounds : Nat} {h : Array α} {i : Nat} (hn : n ≤ h.size) (hrounds : n ≤ i + rounds)
    (hsinking : Sinking n (keyAt key h) i) : OrderedUpTo n (keyAt key (down key n rounds h i)) := by
  induction rounds generalizing h i with
  | zero =>
    intro k hk hkn
    exact hsinking.away k hk hkn ((parent_lt hk).trans (hkn.trans_le hrounds)).ne
  | succ rounds ih =>
    simp only [down]
    split
    · rename_i hleaf
      intro k hk hkn
      refine hsinking.away k hk hkn fun hchild => ?_
      rcases (parent_eq_iff hk).mp hchild with rfl | rfl <;> omega
    · rename_i hinner
      generalize hc : child key h n i = c
      obtain ⟨hpos, hcn, hparent, hmin⟩ := child_min key hn (by omega) hc
      have hic : i < c := hparent ▸ parent_lt hpos
      have hless := less_iff key (hcn.trans_le hn) (hic.trans (hcn.trans_le hn))
      split
      · rename_i hstop
        rw [← Bool.not_eq_true, hless, not_lt] at hstop
        intro k hk hkn
        by_cases hchild : parent k = i
        · rw [hchild]
          exact hstop.trans (hmin k hk hkn hchild)
        · exact hsinking.away k hk hkn hchild
      · rename_i hgo
        refine ih (by rwa [size_swapIfInBounds]) (by omega) ?_
        rw [keyAt_swapIfInBounds key (hic.trans (hcn.trans_le hn)) (hcn.trans_le hn)]
        exact hsinking.swap hpos hcn hparent hmin (hless.mp (Bool.eq_true_of_not_eq_false hgo))

theorem ordered_pop (hordered : Ordered key h) (hpop : pop key h = some (x, h')) : Ordered key h' := by
  simp only [pop, Option.map_eq_some_iff, Prod.mk.injEq] at hpop
  obtain ⟨y, hback, -, rfl⟩ := hpop
  have hpos : 0 < h.size := by
    by_contra hzero
    simp [back?_eq_getElem?, Nat.eq_zero_of_not_pos hzero] at hback
  have hsinking : Sinking (h.size - 1) (keyAt key (h.swapIfInBounds 0 (h.size - 1))) 0 := by
    rw [keyAt_swapIfInBounds key hpos (Nat.sub_lt hpos Nat.one_pos)]
    refine ⟨fun i hi hin hchild => ?_, fun hzero => absurd hzero (Nat.lt_irrefl 0)⟩
    rw [swap_apply_of_ne_of_ne hi.ne' hin.ne, swap_apply_of_ne_of_ne hchild ((parent_lt hi).trans hin).ne]
    exact hordered i hi (by omega)
  have hdown := @ordered_down _ key _ (h.size - 1) _ _ (by rw [size_swapIfInBounds]; omega) (by omega) hsinking
  intro i hi hin
  simp only [size_pop, size_down, size_swapIfInBounds] at hin
  have hkey k (hk : k < h.size - 1) : keyAt key (down key (h.size - 1) (h.size - 1) (h.swapIfInBounds 0 (h.size - 1))
      0).pop k = keyAt key (down key (h.size - 1) (h.size - 1) (h.swapIfInBounds 0 (h.size - 1)) 0) k := by
    rw [keyAt, keyAt, getElem?_pop, if_pos (by simpa using hk)]
  rw [hkey i hin, hkey _ ((parent_lt hi).trans hin)]
  exact hdown i hi hin

theorem root_le (hordered : Ordered key h) {root : α} (hroot : h[0]? = some root) (hx : x ∈ h.toList) :
    key root ≤ key x := by
  have hmin : ∀ i, i < h.size → keyAt key h 0 ≤ keyAt key h i := by
    intro i
    induction i using Nat.strongRecOn with
    | ind i ih =>
      intro hi
      rcases Nat.eq_zero_or_pos i with rfl | hpos
      · exact le_refl _
      · have hp := parent_lt hpos
        exact (ih _ hp (hp.trans hi)).trans (hordered i hpos hi)
  obtain ⟨i, hi, hget⟩ := List.getElem_of_mem hx
  have hle := hmin i (by simpa using hi)
  have hgeti : h[i]? = some x := by rw [← hget]; simp
  simpa [keyAt, hroot, hgeti] using hle

end AsapCollector.Heap
