import AsapCollector.Lib.Check
import AsapCollector.Lib.Varint

/-! An error that must never come out, such as a run-time panic. A computation is free of it when each of its steps is,
at every state the steps before it can leave. -/

namespace AsapCollector

open Except StateT

variable {ε α β : Type} {fault : ε}

/-- What the computation returns, if it returns, has the property. -/
def After (x : Except ε α) (P : α → Prop) : Prop :=
  match x with
  | .ok a => P a
  | .error _ => True

instance {x : Except ε α} {P : α → Prop} [DecidablePred P] : Decidable (After x P) :=
  match x with
  | .ok a => inferInstanceAs (Decidable (P a))
  | .error _ => isTrue trivial

variable {x : Except ε α} {f : α → Except ε β} {P : α → Prop}

theorem after_iff : After x P ↔ ∀ a, x = .ok a → P a := by
  cases x <;> simp [After]

@[simp] theorem after_pure {a : α} : After (pure a : Except ε α) P ↔ P a := Iff.rfl

theorem after_bind {P : β → Prop} : After (x >>= f) P ↔ After x fun a => After (f a) P := by
  cases x <;> simp [After, bind, Except.bind]

theorem after_congr {Q : α → Prop} (h : ∀ a, x = .ok a → (P a ↔ Q a)) : After x P ↔ After x Q := by
  simp only [after_iff]
  exact forall_congr' fun a => forall_congr' (h a)

theorem after_and {Q : α → Prop} : After x (fun a => P a ∧ Q a) ↔ After x P ∧ After x Q := by
  cases x <;> simp [After]

theorem pure_ne_fault (a : α) : (pure a : Except ε α) ≠ .error fault := nofun

theorem bind_ne_fault : (x >>= f) ≠ .error fault ↔ x ≠ .error fault ∧ After x fun a => f a ≠ .error fault := by
  cases x <;> simp [After, bind, Except.bind]

/-- The computation does not end in the fault, and what it returns has the property. -/
def Safely (fault : ε) (x : Except ε α) (P : α → Prop) : Prop := x ≠ .error fault ∧ After x P

theorem safely_bind {P : β → Prop} : Safely fault (x >>= f) P ↔ Safely fault x fun a => Safely fault (f a) P := by
  simp only [Safely, bind_ne_fault, after_bind, after_and, and_assoc]

theorem safely_bind_of_ne {P : β → Prop} (hx : x ≠ .error fault) :
    Safely fault (x >>= f) P ↔ After x fun a => Safely fault (f a) P := by
  rw [safely_bind, Safely, and_iff_right hx]

theorem map_ne_fault {f : α → β} : x.map f ≠ .error fault ↔ x ≠ .error fault := by
  cases x <;> simp [Except.map]

theorem mapM_ne_fault {xs : List α} (h : ∀ x ∈ xs, f x ≠ .error fault) : xs.mapM f ≠ .error fault := by
  induction xs with
  | nil => exact nofun
  | cons x xs ih =>
    rw [List.mapM_cons, bind_ne_fault, after_iff]
    refine ⟨h x List.mem_cons_self, fun y _ => ?_⟩
    rw [bind_ne_fault, after_iff]
    exact ⟨ih fun z hz => h z (List.mem_cons_of_mem x hz), fun _ _ => pure_ne_fault _⟩

namespace Reader

/-- At each of `n` rounds of the reader what is left to read has the property. -/
def EachTime (r : Reader ε α) (P : Bytes → Prop) : Nat → Bytes → Prop
  | 0, _ => True
  | n + 1, rest => P rest ∧ After (r.run rest) fun out => EachTime r P n out.2

instance EachTime.decidable {r : Reader ε α} {P : Bytes → Prop} [DecidablePred P] :
    ∀ n rest, Decidable (EachTime r P n rest)
  | 0, _ => isTrue trivial
  | n + 1, rest =>
    have : DecidablePred fun out : α × Bytes => EachTime r P n out.2 := fun out => EachTime.decidable n out.2
    inferInstanceAs (Decidable (P rest ∧ After (r.run rest) fun out => EachTime r P n out.2))

variable {r : Reader ε α} {err : ε}

theorem times_ne_fault {P : Bytes → Prop} (hr : ∀ rest, r.run rest ≠ .error fault ↔ P rest) (n : Nat) (rest : Bytes) :
    (times r n).run rest ≠ .error fault ↔ EachTime r P n rest := by
  induction n generalizing rest with
  | zero => simp [times, EachTime, run_pure, pure_ne_fault]
  | succ n ih =>
    rw [times, run_bind, bind_ne_fault, hr, EachTime]
    refine and_congr_right fun _ => after_congr fun out _ => ?_
    rw [run_bind, bind_ne_fault, ih]
    exact and_iff_left (after_iff.mpr fun _ _ => pure_ne_fault _)

theorem after_times (hr : ∀ rest, After (r.run rest) fun out => P out.1) (n : Nat) (rest : Bytes) :
    After ((times r n).run rest) fun out => ∀ x ∈ out.1, P x := by
  induction n generalizing rest with
  | zero => exact fun x hx => nomatch hx
  | succ n ih =>
    rw [times, run_bind, after_bind, after_iff]
    intro out hout
    rw [run_bind, after_bind, after_iff]
    rintro outs houts x (_ | ⟨_, hx⟩)
    · exact after_iff.mp (hr rest) out hout
    · exact after_iff.mp (ih out.2) outs houts x hx

def Calm (fault : ε) (r : Reader ε α) : Prop := ∀ rest, r.run rest ≠ .error fault

theorem Calm.bind {f : α → Reader ε β} (hr : Calm fault r) (hf : ∀ a, Calm fault (f a)) : Calm fault (r >>= f) := by
  intro rest
  rw [run_bind, bind_ne_fault, after_iff]
  exact ⟨hr rest, fun out _ => hf out.1 out.2⟩

theorem Calm.pure (a : α) : Calm fault (pure a : Reader ε α) := fun _ => nofun

/-- After a reader without the fault only what follows can have it. -/
theorem Calm.run_bind_ne {f : α → Reader ε β} (hr : Calm fault r) (rest : Bytes) :
    (r >>= f).run rest ≠ .error fault ↔ After (r.run rest) fun out => (f out.1).run out.2 ≠ .error fault := by
  rw [run_bind, bind_ne_fault, and_iff_right (hr rest)]

theorem calm_throw (herr : err ≠ fault) : Calm fault (throw err : Reader ε α) := by
  intro rest h
  exact herr (error.inj h)

theorem calm_liftM {c : Except ε α} (hc : c ≠ .error fault) : Calm fault (liftM c : Reader ε α) := by
  intro rest
  cases c with
  | error err => exact fun h => hc (congrArg error (error.inj h))
  | ok a => exact fun h => nomatch (show ok (a, rest) = .error fault from h)

theorem calm_u8 (herr : err ≠ fault) : Calm fault (u8 err) := by
  rintro (_ | ⟨b, rest⟩)
  · exact fun h => herr (error.inj h)
  · exact nofun

theorem calm_readUvarint (herr : err ≠ fault) : Calm fault (readUvarint err) := by
  intro rest
  simp only [readUvarint, run]
  split
  · simp
  · exact fun h => herr (error.inj h)

theorem calm_readVarint (herr : err ≠ fault) : Calm fault (readVarint err) := by
  intro rest
  rw [readVarint, run_map]
  exact map_ne_fault.mpr (calm_readUvarint herr rest)

theorem calm_times (hr : Calm fault r) (n : Nat) : Calm fault (times r n) := by
  induction n with
  | zero => exact .pure []
  | succ n ih => exact hr.bind fun _ => ih.bind fun _ => .pure _

end Reader

end AsapCollector
