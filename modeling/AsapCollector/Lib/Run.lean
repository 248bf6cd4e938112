import Mathlib.Data.List.Basic

/-! A machine takes steps. A condition on a step and the state before it holds along a run if it holds at each step, and
what every step keeps under the condition holds after the run. -/

namespace AsapCollector

variable {S O : Type} {step : S → O → S} {P Q : S → O → Prop} {s : S} {os os' : List O}

/-- The condition holds at each step of the run from a state. -/
def Always (step : S → O → S) (P : S → O → Prop) : S → List O → Prop
  | _, [] => True
  | s, o :: os => P s o ∧ Always step P (step s o) os

instance Always.decidable [∀ s o, Decidable (P s o)] : (s : S) → (os : List O) → Decidable (Always step P s os)
  | _, [] => .isTrue trivial
  | s, o :: os => @instDecidableAnd _ _ inferInstance (Always.decidable (step s o) os)

theorem always_of_forall (h : ∀ s o, P s o) : ∀ (s : S) (os : List O), Always step P s os
  | _, [] => trivial
  | s, o :: os => ⟨h s o, always_of_forall h (step s o) os⟩

theorem always_append : Always step P s (os ++ os') ↔ Always step P s os ∧ Always step P (os.foldl step s) os' := by
  induction os generalizing s with
  | nil => simp [Always]
  | cons o os ih => simp only [List.cons_append, Always, List.foldl_cons, ih, and_assoc]

theorem always_and : Always step (fun s o => P s o ∧ Q s o) s os ↔ Always step P s os ∧ Always step Q s os := by
  induction os generalizing s with
  | nil => simp [Always]
  | cons o os ih => simp only [Always, ih, and_and_and_comm]

/-- The invariant rule: a run keeps what each of its steps keeps. -/
theorem Always.invariant {I : S → Prop} (h : Always step P s os)
    (hstep : ∀ {s o}, o ∈ os → I s → P s o → I (step s o)) (hs : I s) : I (os.foldl step s) := by
  induction os generalizing s with
  | nil => exact hs
  | cons o os ih => exact ih h.2 (fun ho => hstep (List.mem_cons_of_mem _ ho)) (hstep List.mem_cons_self hs h.1)

end AsapCollector
