import Mathlib.Data.List.Basic

/-! `Cancellation` of `otap/lifecycle.rs`: one `cancel` among calls of `cancelled`, in atomic steps. -/

namespace AsapCollector.Otap.Cancellation

inductive Cancel where
  | called
  /-- The swap found the flag unset; `notify_waiters` comes next. -/
  | swapped
  | finished
deriving DecidableEq

inductive Cancelled where
  | called
  /-- The flag was read as unset; `notified()` comes next. -/
  | checked
  | created (notified : Bool)
  | waiting (notified : Bool)
  | returned
  /-- Another branch of the `select!` came first. -/
  | dropped
deriving DecidableEq

inductive Action where
  | load
  | create
  | poll
  | drop

/-- An action that is not the next one of the call changes nothing. -/
def Cancelled.advance (fired : Bool) : Action → Cancelled → Cancelled
  | .load, called => if fired then returned else checked
  | .create, checked => created false
  | .poll, created notified => if notified then returned else waiting false
  | .poll, waiting true => returned
  | .drop, returned => returned
  | .drop, _ => dropped
  | _, c => c

/-- `notify_waiters` reaches the futures that exist, and leaves no permit for others. -/
def Cancelled.notify : Cancelled → Cancelled
  | created _ => created true
  | waiting _ => waiting true
  | c => c

structure State where
  fired : Bool := false
  cancel : Cancel := .called
  calls : List Cancelled

inductive Step where
  | swap
  | notifyWaiters
  | call (i : Nat) (action : Action)

def State.step (s : State) : Step → State
  | .swap =>
    if s.cancel = .called then { s with fired := true, cancel := if s.fired then .finished else .swapped } else s
  | .notifyWaiters => if s.cancel = .swapped then { s with cancel := .finished, calls := s.calls.map .notify } else s
  | .call i action => { s with calls := s.calls.modify i (.advance s.fired action) }

def State.run (s : State) (steps : List Step) : State := steps.foldl .step s

def start (n : Nat) : State := { calls := .replicate n .called }

end AsapCollector.Otap.Cancellation
