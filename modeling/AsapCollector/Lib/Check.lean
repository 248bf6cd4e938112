import Mathlib.Data.List.Forall2

/-!
# Validators

A validator in `Except` is a sequence of checks. It accepts exactly when each check of it does.
-/

namespace AsapCollector

variable {ε α β : Type}

/-- Fails with the error where something is wrong. -/
def check (wrong : Bool) (err : ε) : Except ε Unit := if wrong then .error err else .ok ()

variable {err : ε} {R : α → β → Prop}

@[simp] theorem check_eq_ok {wrong : Bool} {u : Unit} : check wrong err = .ok u ↔ wrong = false := by
  cases wrong <;> simp [check]

theorem bind_eq_ok {x : Except ε α} {f : α → Except ε β} {b : β} :
    (x >>= f) = .ok b ↔ ∃ a, x = .ok a ∧ f a = .ok b := by
  cases x <;> simp [bind, Except.bind]

@[simp] theorem pure_eq_ok {a b : α} : (pure a : Except ε α) = .ok b ↔ a = b := by
  simp [pure, Except.pure]

theorem exists_error {x : Except ε α} (h : ∀ a, x ≠ .ok a) : ∃ err, x = .error err := by
  cases x with
  | error err => exact ⟨err, rfl⟩
  | ok a => exact absurd rfl (h a)

variable {ys l' : List β} {xs l : List α}

theorem mapM_eq_ok {f : α → Except ε β} :
    xs.mapM f = .ok ys ↔ List.Forall₂ (fun x y => f x = .ok y) xs ys := by
  induction xs generalizing ys with
  | nil => rw [List.mapM_nil, pure_eq_ok, List.forall₂_nil_left_iff, eq_comm]
  | cons x xs ih =>
    simp only [List.mapM_cons, bind_eq_ok, pure_eq_ok, ih, List.forall₂_cons_left_iff]
    constructor
    · rintro ⟨y, hy, ys, hys, rfl⟩
      exact ⟨y, ys, hy, hys, rfl⟩
    · rintro ⟨y, ys, hy, hys, rfl⟩
      exact ⟨y, hy, ys, hys, rfl⟩

theorem mapM_ok_iff {f : α → Except ε β} : (∃ ys, xs.mapM f = .ok ys) ↔ ∀ x ∈ xs, ∃ y, f x = .ok y := by
  simp only [mapM_eq_ok]
  induction xs with
  | nil => simp
  | cons x xs ih => simp [List.forall₂_cons_left_iff, ← ih]

theorem forall₂_of_mapM {f : α → Option β} (h : xs.mapM f = some ys) :
    List.Forall₂ (fun x y => f x = some y) xs ys := by
  induction xs generalizing ys with
  | nil =>
    obtain rfl := Option.some.inj h
    exact .nil
  | cons x xs ih =>
    rw [List.mapM_cons] at h
    obtain ⟨y, hy, h⟩ := Option.bind_eq_some_iff.mp h
    obtain ⟨ys', hys, h⟩ := Option.bind_eq_some_iff.mp h
    obtain rfl := Option.some.inj h
    exact .cons hy (ih hys)

theorem isSome_mapM {f : α → Option β} : (xs.mapM f).isSome = true ↔ ∀ x ∈ xs, (f x).isSome = true := by
  induction xs with
  | nil => simp
  | cons x xs ih =>
    rw [List.mapM_cons, List.forall_mem_cons, ← ih]
    cases f x <;> cases xs.mapM f <;> simp

theorem forall₂_exists_right (h : List.Forall₂ R l l') : ∀ a ∈ l, ∃ b ∈ l', R a b := by
  induction h with
  | nil => simp
  | cons hab _ ih =>
    intro a ha
    rcases List.mem_cons.mp ha with rfl | ha
    · exact ⟨_, List.mem_cons_self, hab⟩
    · obtain ⟨b, hb, hR⟩ := ih a ha
      exact ⟨b, List.mem_cons_of_mem _ hb, hR⟩

theorem forall₂_exists_left (h : List.Forall₂ R l l') : ∀ b ∈ l', ∃ a ∈ l, R a b :=
  forall₂_exists_right h.flip

theorem exists_forall₂ (h : ∀ a ∈ l, ∃ b, R a b) : ∃ l', List.Forall₂ R l l' := by
  induction l with
  | nil => exact ⟨[], .nil⟩
  | cons a l ih =>
    obtain ⟨b, hb⟩ := h a List.mem_cons_self
    obtain ⟨l', hl'⟩ := ih fun a ha => h a (List.mem_cons_of_mem _ ha)
    exact ⟨b :: l', .cons hb hl'⟩

theorem forall₂_iff {γ : Type} {S : α → γ → Prop} {T : β → γ → Prop} {Q : α → Prop} {l'' : List γ}
    (hR : List.Forall₂ R l l') (hS : List.Forall₂ S l l'') (h : ∀ a ∈ l, ∀ b c, R a b → S a c → (T b c ↔ Q a)) :
    List.Forall₂ T l' l'' ↔ ∀ a ∈ l, Q a := by
  induction hR generalizing l'' with
  | nil => cases hS; simp
  | cons hab hR ih =>
    obtain ⟨c, cs, hac, hrest, rfl⟩ := List.forall₂_cons_left_iff.mp hS
    rw [List.forall₂_cons, List.forall_mem_cons, h _ List.mem_cons_self _ _ hab hac,
      ih hrest fun a ha => h a (List.mem_cons_of_mem _ ha)]

theorem flatMap_eq_of_forall₂ {γ : Type} {f : α → List γ} {g : β → List γ}
    (h : List.Forall₂ R xs ys) (heq : ∀ {x y}, x ∈ xs → R x y → g y = f x) : ys.flatMap g = xs.flatMap f := by
  induction h with
  | nil => rfl
  | cons hxy _ ih =>
    rw [List.flatMap_cons, List.flatMap_cons, heq List.mem_cons_self hxy, ih fun hx => heq (List.mem_cons_of_mem _ hx)]

/-- The validator accepts with a result that has the property. -/
def Accepts (x : Except ε α) (P : α → Prop) : Prop := ∃ a, x = .ok a ∧ P a

variable {P : α → Prop}

@[simp] theorem accepts_pure {a : α} : Accepts (pure a : Except ε α) P ↔ P a := by
  simp [Accepts]

@[simp] theorem accepts_error : Accepts (.error err) P ↔ False := by
  simp [Accepts]

@[simp] theorem accepts_check {wrong : Bool} {P : Unit → Prop} :
    Accepts (check wrong err) P ↔ wrong = false ∧ P () := by
  simp only [Accepts, check_eq_ok]
  exact ⟨fun ⟨_, hwrong, hP⟩ => ⟨hwrong, hP⟩, fun ⟨hwrong, hP⟩ => ⟨(), hwrong, hP⟩⟩

@[simp] theorem accepts_bind {x : Except ε β} {f : β → Except ε α} :
    Accepts (x >>= f) P ↔ Accepts x fun b => Accepts (f b) P := by
  simp only [Accepts, bind_eq_ok]
  constructor
  · rintro ⟨a, ⟨b, hx, hf⟩, ha⟩
    exact ⟨b, hx, a, hf, ha⟩
  · rintro ⟨b, hx, a, hf, ha⟩
    exact ⟨a, ⟨b, hx, hf⟩, ha⟩

end AsapCollector
