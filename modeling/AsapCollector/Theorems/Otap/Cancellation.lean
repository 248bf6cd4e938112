import AsapCollector.Lib.Run
import AsapCollector.Otap.Cancellation

/-! A future that is created after `notify_waiters` waits for ever, since the flag is not read again. -/

namespace AsapCollector.Otap.Cancellation

open Cancelled

variable {s : State} {next : Step}

/-- Nothing will wake the call. -/
def Cancelled.Deaf (c : Cancelled) : Prop := c = .created false ∨ c = .waiting false

theorem Cancelled.Deaf.of_advance {fired : Bool} {action : Action} {c : Cancelled} (h : (advance fired action c).Deaf) :
    c.Deaf ∨ action = .create ∧ c = .checked := by
  cases action <;> cases c <;> grind [Deaf, advance]

/-- No future is created once `cancel` is done. -/
def InTime (s : State) : Step → Prop
  | .call i .create => s.calls[i]? = some .checked → s.cancel ≠ .finished
  | _ => True

/-- Every step of the run is in time. -/
abbrev AllInTime : State → List Step → Prop := Always State.step InTime

structure Heard (s : State) : Prop where
  unfired : s.cancel = .called → s.fired = false
  calls : s.cancel = .finished → ∀ (i : Nat) c, s.calls[i]? = some c → ¬c.Deaf

theorem heard_start (n : Nat) : Heard (start n) := ⟨fun _ => rfl, nofun⟩

theorem Heard.step (h : Heard s) (hin : InTime s next) : Heard (s.step next) := by
  cases next with
  | swap =>
    rw [State.step]
    split
    · rename_i hcalled
      rw [h.unfired hcalled]
      exact ⟨nofun, nofun⟩
    · exact h
  | notifyWaiters =>
    rw [State.step]
    split
    · refine ⟨nofun, fun _ i c hc => ?_⟩
      rw [List.getElem?_map, Option.map_eq_some_iff] at hc
      obtain ⟨c, -, rfl⟩ := hc
      cases c <;> simp [Deaf, notify]
    · exact h
  | call i action =>
    refine ⟨h.unfired, fun hdone j c hc hdeaf => ?_⟩
    rw [State.step, List.getElem?_modify] at hc
    split at hc
    · rename_i hij
      subst hij
      obtain ⟨c, hfound, rfl⟩ := Option.map_eq_some_iff.mp hc
      rcases hdeaf.of_advance with hdeaf | ⟨rfl, rfl⟩
      · exact h.calls hdone i c hfound hdeaf
      · exact hin hfound hdone
    · exact h.calls hdone j c (by simpa using hc) hdeaf

/-- If no future is created after `notify_waiters`, then once `cancel` is done no call waits without a notification. -/
theorem cancelled_is_heard (n : Nat) (steps : List Step) (hin : AllInTime (start n) steps)
    (hdone : ((start n).run steps).cancel = .finished) : waiting false ∉ ((start n).run steps).calls := by
  have hrun : Heard ((start n).run steps) := hin.invariant (fun _ h hin => h.step hin) (heard_start n)
  intro hmem
  obtain ⟨i, hi⟩ := List.mem_iff_getElem?.mp hmem
  exact hrun.calls hdone i _ hi (Or.inr rfl)

def heardCall : List Step := [.call 0 .load, .call 0 .create, .swap, .notifyWaiters, .call 0 .poll]

theorem cancelled_is_heard_before_poll :
    ((start 1).run heardCall).cancel = .finished ∧ waiting false ∉ ((start 1).run heardCall).calls :=
  ⟨rfl, cancelled_is_heard 1 heardCall ⟨trivial, fun _ => nofun, trivial, trivial, trivial, trivial⟩ rfl⟩

/-- The whole of `cancel` comes between the look at the flag and the creation of the future. -/
theorem cancel_between_load_and_create :
    ((start 1).run [.call 0 .load, .swap, .notifyWaiters, .call 0 .create, .call 0 .poll]).cancel = .finished ∧
      waiting false ∈ ((start 1).run [.call 0 .load, .swap, .notifyWaiters, .call 0 .create,
        .call 0 .poll]).calls := by
  decide

end AsapCollector.Otap.Cancellation
