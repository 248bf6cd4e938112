import Mathlib.Algebra.Order.BigOperators.Group.List
import AsapCollector.Cold.ShipWorker
import AsapCollector.Lib.Run

/-! A batch that `enqueue` has taken is shipped, in a spool file, in the queue, or in the hands of a goroutine (`Inv`).
The spool stays within its cap. -/

namespace AsapCollector

open List Option AList

/-- The batch in the task's hands. -/
def ShipTask.batch : ShipTask → Option Batch
  | .shipping b | .spooling b => some b
  | _ => none

def ShutdownPhase.late : ShutdownPhase → Bool
  | .drainSpool _ | .returned => true
  | _ => false

/-- The phases in which the loop may still run. -/
def ShutdownPhase.waits : ShutdownPhase → Bool
  | .notCalled | .waiting | .returned => true
  | _ => false

def ShutdownPhase.task : ShutdownPhase → ShipTask
  | .shipOrSpool t | .drainSpool t => t
  | _ => .done

namespace ShipWorker

variable (w : ShipWorker)

def Spooled (b : Batch) : Prop := ∃ file, w.spool.lookup file = some b

/-- The batch was shipped or is in the spool. -/
def Safe (b : Batch) : Prop := b ∈ w.shipped ∨ w.Spooled b

def Durable : Prop := w.shutdown = .returned → ∀ b ∈ w.accepted, w.Safe b

/-- The batch a step writes to the spool, and when. -/
def writes : ShipStep → Option (Batch × UInt64)
  | .flusherSpools now => w.flusher.map fun b => (b, now)
  | .run (.spools now) =>
    match w.run with
    | some (.spooling b) => some (b, now)
    | _ => none
  | .shutdownRuns (.spools now) =>
    match w.shutdown with
    | .shipOrSpool (.spooling b) | .drainSpool (.spooling b) => some (b, now)
    | _ => none
  | _ => none

variable (cfg : ShipConfig)

def Roomy (w : ShipWorker) (e : ShipStep) : Prop :=
  ∀ x ∈ w.writes e, cfg.spoolDir ≠ [] ∧
    (cfg.spoolMaxBytes ≤ 0 ∨ spoolBytes (w.spool.insert (spoolName cfg x.2) x.1) ≤ cfg.spoolMaxBytes)

/-- A spool file gets a new name; `shutdown` gives up only with nothing queued and nothing in hand; and nothing
is queued once it has seen the queue empty. -/
def Meets (w : ShipWorker) (e : ShipStep) : Prop :=
  (∀ x ∈ w.writes e, spoolName cfg x.2 ∉ w.spool) ∧
    match e with
    | .enqueue _ => w.queue.length < cfg.queueDepth → w.shutdown.late = false
    | .giveUp => w.ctxDone = true → w.queue = [] ∧ ∀ t ∈ w.run, t.batch = none
    | .shutdownChecks => w.ctxDone = true → w.queue = []
    | _ => True

instance (cfg : ShipConfig) (w : ShipWorker) (e : ShipStep) : Decidable (w.Roomy cfg e) :=
  inferInstanceAs (Decidable (∀ x ∈ w.writes e, _))

instance (cfg : ShipConfig) (w : ShipWorker) (e : ShipStep) : Decidable (w.Meets cfg e) :=
  match e with
  | .enqueue _ | .giveUp | .shutdownChecks => inferInstanceAs (Decidable (_ ∧ (_ → _)))
  | .flusherSpools _ | .take | .tick | .stop | .run _ | .shutdown | .expire | .proceed | .shutdownTakes
  | .shutdownRuns _ =>
    inferInstanceAs (Decidable (_ ∧ True))

/-! ### One goroutine -/

/-- A file that is being re-shipped or removed is still there, and has been shipped before it is removed. -/
def Backed : ShipTask → Prop
  | .reshipping file b _ => w.spool.lookup file = some b
  | .removing file _ => ∃ b ∈ w.shipped, w.spool.lookup file = some b
  | _ => True

variable {cfg : ShipConfig} {w w' : ShipWorker} {t : ShipTask}

theorem dropOldest_eq_self {cap total : Int} (h : total ≤ cap) (files : List Bytes) (spool : GoMap Bytes Batch) :
    dropOldest cap total files spool = spool := by
  cases files with
  | nil => rfl
  | cons file files => exact if_neg (not_lt.mpr h)

variable {b b' : Batch}

theorem write_eq {now : UInt64} (hdir : cfg.spoolDir ≠ [])
    (hcap : cfg.spoolMaxBytes ≤ 0 ∨ spoolBytes (w.spool.insert (spoolName cfg now) b) ≤ cfg.spoolMaxBytes) :
    write cfg w b now = { w with spool := w.spool.insert (spoolName cfg now) b } := by
  rw [write, if_neg hdir, enforceCap]
  split
  · rfl
  · rename_i hpos
    rw [dropOldest_eq_self (hcap.resolve_left hpos)]

theorem lookup_insert_new {spool : GoMap Bytes Batch} {name file : Bytes} (hnew : name ∉ spool)
    (h : spool.lookup file = some b) : (spool.insert name b').lookup file = some b := by
  rw [lookup_insert_ne, h]
  rintro rfl
  rw [lookup_eq_none.mpr hnew] at h
  cases h

def Writable (cfg : ShipConfig) (w : ShipWorker) (b : Batch) (now : UInt64) : Prop :=
  spoolName cfg now ∉ w.spool ∧ cfg.spoolDir ≠ [] ∧
    (cfg.spoolMaxBytes ≤ 0 ∨ spoolBytes (w.spool.insert (spoolName cfg now) b) ≤ cfg.spoolMaxBytes)

structure Keeps (w w' : ShipWorker) (t t' : ShipTask) : Prop where
  frame : w' = { w with spool := w'.spool, shipped := w'.shipped }
  batch : ∀ b, w.Safe b ∨ t.batch = some b → w'.Safe b ∨ t'.batch = some b
  backed : w'.Backed t'
  idle : t.batch = none → t'.batch = none

variable {t t' : ShipTask}

theorem Keeps.same (hbatch : t.batch = t'.batch) (hbacked : w.Backed t') : Keeps w w t t' :=
  ⟨rfl, fun _ h => h.imp_right (hbatch ▸ ·), hbacked, fun h => hbatch ▸ h⟩

theorem Safe.ship (h : w.Safe b) : ({ w with shipped := w.shipped ++ [b'] } : ShipWorker).Safe b :=
  h.imp_left (mem_append_left _)

theorem advance_keeps (ctxDone : Bool) (hbacked : w.Backed t) (s : TaskStep)
    (hwrite : ∀ b now, t = .spooling b → s = .spools now → Writable cfg w b now) :
    Keeps w (advance cfg ctxDone w t s).1 t (advance cfg ctxDone w t s).2 := by
  have hstay : Keeps w w t t := .same rfl hbacked
  cases t with
  | done => cases s <;> exact hstay
  | shipping b =>
    cases s with
    | ships ok =>
      cases ok with
      | true =>
        refine ⟨rfl, fun b' h => .inl ?_, trivial, fun _ => rfl⟩
        rcases h with h | h
        · exact h.ship
        · exact .inl (mem_append_right _ (mem_singleton.mpr (some.inj h).symm))
      | false => exact .same rfl trivial
    | _ => exact hstay
  | spooling b =>
    cases s with
    | spools now =>
      obtain ⟨hnew, hdir, hcap⟩ := hwrite b now rfl rfl
      have hadvance : advance cfg ctxDone w (.spooling b) (.spools now) =
          ({ w with spool := w.spool.insert (spoolName cfg now) b }, .done) := by rw [advance, write_eq hdir hcap]
      rw [hadvance]
      refine ⟨rfl, fun b' h => .inl ?_, trivial, fun _ => rfl⟩
      rcases h with (h | ⟨file, h⟩) | h
      · exact .inl h
      · exact .inr ⟨file, lookup_insert_new hnew h⟩
      · exact .inr ⟨_, (lookup_insert _).trans h⟩
    | _ => exact hstay
  | draining files =>
    cases s with
    | reads readable =>
      cases files with
      | nil => exact .same rfl trivial
      | cons file files =>
        rw [advance]
        split
        · exact .same rfl trivial
        · split
          · exact .same rfl trivial
          · rename_i b hread
            refine .same rfl ?_
            cases readable with
            | true => exact hread
            | false => cases hread
    | _ => cases files <;> exact hstay
  | reshipping file b files =>
    cases s with
    | ships ok =>
      cases ok with
      | true =>
        have hshipped : b ∈ w.shipped ++ [b] := mem_append_right _ (mem_singleton.mpr rfl)
        exact ⟨rfl, fun b' h => .inl (h.resolve_right nofun).ship, ⟨b, hshipped, hbacked⟩, fun _ => rfl⟩
      | false => exact .same rfl trivial
    | _ => exact hstay
  | removing file files =>
    cases s with
    | removes =>
      -- the file that goes has been shipped
      obtain ⟨b, hshipped, hfile⟩ := hbacked
      refine ⟨rfl, fun b' h => .inl ?_, trivial, fun _ => rfl⟩
      rcases h.resolve_right nofun with h | ⟨file', h'⟩
      · exact .inl h
      · by_cases hsame : file' = file
        · subst hsame
          rw [hfile] at h'
          exact .inl (some.inj h' ▸ hshipped)
        · exact .inr ⟨file', (lookup_erase_ne hsame).trans h'⟩
    | _ => exact hstay

/-! ### All goroutines -/

/-- The task in hand: that of the loop while it runs, and then that of `shutdown`. -/
def hand (w : ShipWorker) : ShipTask := w.run.getD w.shutdown.task

structure Inv (w : ShipWorker) : Prop where
  kept : ∀ b ∈ w.accepted, w.Safe b ∨ b ∈ w.queue ∨ w.hand.batch = some b
  backed : w.Backed w.hand
  turns : w.run ≠ none → w.shutdown.waits = true
  settled : w.shutdown.late = true → w.queue = [] ∧ w.hand.batch = none

theorem Inv.durable (h : Inv w) : w.Durable := by
  intro hreturned b hb
  obtain ⟨hqueue, hidle⟩ := h.settled (by rw [hreturned]; rfl)
  rcases h.kept b hb with hsafe | hqueued | hhand
  · exact hsafe
  · rw [hqueue] at hqueued
    cases hqueued
  · rw [hidle] at hhand
    cases hhand

theorem Inv.run_eq_none (h : Inv w) (hphase : w.shutdown.waits = false) : w.run = none := by
  by_contra hrun
  rw [h.turns hrun] at hphase
  cases hphase

variable {r : Option ShipTask} {p : ShutdownPhase}

theorem Inv.work (h : Inv w) (hkeeps : Keeps w w' w.hand t') (hhand : r.getD p.task = t')
    (hturns : r ≠ none → p.waits = true) (hlate : p.late = true → w.queue = [] ∧ w.hand.batch = none) :
    Inv { w' with run := r, shutdown := p } := by
  rw [hkeeps.frame]
  refine ⟨fun b hb => ?_, ?_, hturns, fun hl => ⟨(hlate hl).1, ?_⟩⟩
  · have hmoved (hb : w.Safe b ∨ w.hand.batch = some b) : w'.Safe b ∨ b ∈ w.queue ∨ (r.getD p.task).batch = some b :=
      (hkeeps.batch b hb).imp_right fun hb => .inr (hhand ▸ hb)
    rcases h.kept b hb with hb | hb | hb
    · exact hmoved (.inl hb)
    · exact .inr (.inl hb)
    · exact hmoved (.inr hb)
  · show Backed w' (r.getD p.task)
    exact hhand ▸ hkeeps.backed
  · show (r.getD p.task).batch = none
    exact hhand ▸ hkeeps.idle (hlate hl).2

/-! ### The steps -/

theorem Inv.enqueue (h : Inv w) {body : Bytes} (hlate : w.queue.length < cfg.queueDepth → w.shutdown.late = false) :
    Inv (w.enqueue cfg body) := by
  unfold ShipWorker.enqueue
  split
  · exact h
  · dsimp only
    split
    · rename_i hroom
      refine ⟨forall_mem_append.mpr ⟨fun b hb => ?_, fun b hb => .inr (.inl (mem_append_right _ hb))⟩, h.backed,
        h.turns, fun hl => by rw [hlate hroom] at hl; cases hl⟩
      exact (h.kept b hb).imp_right (·.imp_left (mem_append_left _))
    · exact ⟨h.kept, h.backed, h.turns, h.settled⟩

theorem Inv.flusherSpools (h : Inv w) {now : UInt64} (hwrite : Writable cfg w b now) :
    Inv { write cfg w b now with flusher := none, accepted := w.accepted ++ [b] } := by
  obtain ⟨hnew, hdir, hcap⟩ := hwrite
  rw [write_eq hdir hcap]
  refine ⟨forall_mem_append.mpr ⟨fun b' hb' => ?_, forall_mem_singleton.mpr (.inl (.inr ⟨_, lookup_insert _⟩))⟩,
    ?_, h.turns, h.settled⟩
  · exact (h.kept b' hb').imp_left (·.imp_right fun ⟨file, hfile⟩ => ⟨file, lookup_insert_new hnew hfile⟩)
  · show Backed _ w.hand
    have hbacked := h.backed
    generalize w.hand = t at hbacked
    cases t with
    | reshipping file b' files => exact lookup_insert_new hnew hbacked
    | removing file files =>
      obtain ⟨b', hb', hfile⟩ := hbacked
      exact ⟨b', hb', lookup_insert_new hnew hfile⟩
    | _ => trivial

theorem Inv.takes (h : Inv w) (hidle : w.hand = .done) {queue : List Batch} (hqueue : w.queue = b :: queue)
    (hhand : r.getD p.task = .shipping b) (hturns : r ≠ none → p.waits = true)
    (hlate : p.late = true → w.shutdown.late = true) : Inv { w with queue, run := r, shutdown := p } := by
  refine ⟨fun b' hb' => ?_, ?_, hturns, fun hl => ?_⟩
  · rcases h.kept b' hb' with hb' | hb' | hb'
    · exact .inl hb'
    · rw [hqueue] at hb'
      rcases mem_cons.mp hb' with rfl | hb'
      · exact .inr (.inr (congrArg ShipTask.batch hhand))
      · exact .inr (.inl hb')
    · rw [hidle] at hb'
      cases hb'
  · show Backed _ (r.getD p.task)
    rw [hhand]
    trivial
  · have hempty := (h.settled (hlate hl)).1
    rw [hqueue] at hempty
    cases hempty

theorem hand_eq (hrun : w.run = some t) : w.hand = t := by rw [hand, hrun, getD_some]

theorem Inv.take (h : Inv w) : Inv (w.step cfg .take) := by
  unfold step
  dsimp only
  split
  · rename_i b queue hrun hqueue
    exact h.takes (hand_eq hrun) hqueue rfl (fun _ => h.turns (by rw [hrun]; nofun)) id
  · exact h

theorem Inv.runs (h : Inv w) (hrun : w.run = some t) (hkeeps : Keeps w w' t t')
    (hr : r.getD w.shutdown.task = t') : Inv { w' with run := r } := by
  have hturns := h.turns (by rw [hrun]; nofun)
  have hwork := h.work (hand_eq hrun ▸ hkeeps) hr (fun _ => hturns) h.settled
  rw [hkeeps.frame] at hwork ⊢
  exact hwork

theorem keeps_startDrain : Keeps w w .done (w.startDrain cfg) := by
  unfold startDrain
  split <;> exact .same rfl trivial

section
variable (h : Inv w)
include h

theorem Inv.tick : Inv (w.step cfg .tick) := by
  unfold step
  dsimp only
  split
  · rename_i hrun
    exact h.runs hrun keeps_startDrain rfl
  · exact h

theorem Inv.stop : Inv (w.step cfg .stop) := by
  unfold step
  dsimp only
  split
  · rename_i hrun
    have hphase := h.turns (by rw [hrun.1]; nofun)
    refine h.runs hrun.1 (.same rfl trivial) ?_
    cases hp : w.shutdown <;> rw [hp] at hphase <;> first | rfl | cases hphase
  · exact h

theorem Inv.run (s : TaskStep)
    (hwrite : ∀ b now, w.run = some (.spooling b) → s = .spools now → Writable cfg w b now) :
    Inv (w.step cfg (.run s)) := by
  unfold step
  dsimp only
  split
  · exact h
  · rename_i t hrun
    have hkeeps := advance_keeps false (hand_eq hrun ▸ h.backed) s fun b now ht hs => hwrite b now (ht ▸ hrun) hs
    exact h.runs hrun hkeeps rfl

theorem Inv.phase (htask : p.task = w.shutdown.task) (hturns : w.run ≠ none → p.waits = true)
    (hlate : p.late = true → w.queue = [] ∧ w.hand.batch = none) : Inv { w with shutdown := p } :=
  h.work (.same rfl h.backed) (by rw [hand, htask]) hturns hlate

theorem Inv.shutdown : Inv (w.step cfg .shutdown) := by
  unfold step
  dsimp only
  split
  · rename_i hphase
    exact h.phase (by rw [hphase]; rfl) (fun _ => rfl) nofun
  · exact h

theorem Inv.proceed : Inv (w.step cfg .proceed) := by
  unfold step
  dsimp only
  split
  · rename_i hphase
    exact h.phase (by rw [hphase.1]; rfl) (fun hrun => absurd hphase.2 hrun) nofun
  · exact h

theorem Inv.giveUp (hmeets : w.ctxDone = true → w.queue = [] ∧ ∀ t ∈ w.run, t.batch = none) :
    Inv (w.step cfg .giveUp) := by
  unfold step
  dsimp only
  split
  · rename_i hphase
    obtain ⟨hempty, hidle⟩ := hmeets hphase.2
    refine h.phase (by rw [hphase.1]; rfl) (fun _ => rfl) fun _ => ⟨hempty, ?_⟩
    rw [hand, hphase.1]
    cases hrun : w.run with
    | none => rfl
    | some t => exact hidle t hrun
  · exact h

theorem Inv.shutdownChecks (hmeets : w.ctxDone = true → w.queue = []) : Inv (w.step cfg .shutdownChecks) := by
  unfold step
  dsimp only
  split
  · rename_i hphase
    have hrun : w.run = none := h.run_eq_none (by rw [hphase]; rfl)
    split
    · rename_i hdone
      exact h.phase (by rw [hphase]; rfl) (fun _ => rfl) fun _ => ⟨hmeets hdone, by rw [hand, hrun, hphase]; rfl⟩
    · exact h.phase (by rw [hphase]; rfl) (fun hne => absurd hrun hne) nofun
  · exact h

theorem Inv.shutdownTakes : Inv (w.step cfg .shutdownTakes) := by
  unfold step
  dsimp only
  split
  · rename_i hphase
    have hrun : w.run = none := h.run_eq_none (by rw [hphase]; rfl)
    have hidle : w.hand = .done := by rw [hand, hrun, hphase]; rfl
    split
    · rename_i b queue hqueue
      exact h.takes hidle hqueue (by rw [hrun]; rfl) (fun hne => absurd hrun hne) nofun
    · rename_i hqueue
      exact h.work (hidle ▸ keeps_startDrain) (by rw [hrun]; rfl) (fun hne => absurd hrun hne)
        fun _ => ⟨hqueue, by rw [hidle]; rfl⟩
  · exact h

theorem Inv.shutdownRuns (s : TaskStep)
    (hwrite : ∀ b now, w.shutdown.task = .spooling b → s = .spools now → Writable cfg w b now) :
    Inv (w.step cfg (.shutdownRuns s)) := by
  have hworks {t : ShipTask} {p : ShutdownPhase} (hphase : w.shutdown.waits = false) (ht : w.shutdown.task = t)
      (hp : p.task = (advance cfg w.ctxDone w t s).2) (hlate : p.late = true → w.shutdown.late = true) :
      Inv { (advance cfg w.ctxDone w t s).1 with shutdown := p } := by
    have hrun := h.run_eq_none hphase
    obtain rfl : w.hand = t := by rw [hand, hrun, ← ht]; rfl
    have hkeeps := advance_keeps w.ctxDone h.backed s fun b now hb hs => hwrite b now (ht.trans hb) hs
    have hwork := h.work hkeeps (by rw [hrun]; exact hp) (fun hne => absurd hrun hne) fun hl => h.settled (hlate hl)
    rw [hkeeps.frame] at hwork ⊢
    exact hwork
  unfold step
  dsimp only
  split
  · rename_i t hphase
    refine hworks (by rw [hphase]; rfl) (by rw [hphase]; rfl) ?_ ?_ <;> split
    · exact ‹_ = ShipTask.done›.symm
    all_goals first | rfl | nofun
  · rename_i t hphase
    refine hworks (by rw [hphase]; rfl) (by rw [hphase]; rfl) ?_ fun _ => by rw [hphase]; rfl
    split
    · exact ‹_ = ShipTask.done›.symm
    · rfl
  · exact h

theorem Inv.step {e : ShipStep} (hroomy : w.Roomy cfg e) (hmeets : w.Meets cfg e) : Inv (w.step cfg e) := by
  have hwrite : ∀ b now, w.writes e = some (b, now) → Writable cfg w b now := by
    intro b now he
    exact ⟨hmeets.1 (b, now) (mem_def.mpr he), hroomy (b, now) (mem_def.mpr he)⟩
  cases e with
  | enqueue body =>
    unfold ShipWorker.step
    dsimp only
    split
    · exact h
    · exact h.enqueue hmeets.2
  | flusherSpools now =>
    unfold ShipWorker.step
    dsimp only
    split
    · exact h
    · rename_i b hflusher
      exact h.flusherSpools (hwrite b now (by rw [writes, hflusher]; rfl))
  | take => exact h.take
  | tick => exact h.tick
  | stop => exact h.stop
  | run s =>
    refine h.run s fun b now hrun hs => hwrite b now ?_
    subst hs
    rw [writes, hrun]
  | shutdown => exact h.shutdown
  | expire => exact ⟨h.kept, h.backed, h.turns, h.settled⟩
  | proceed => exact h.proceed
  | giveUp => exact h.giveUp hmeets.2
  | shutdownTakes => exact h.shutdownTakes
  | shutdownRuns s =>
    refine h.shutdownRuns s fun b now htask hs => hwrite b now ?_
    subst hs
    unfold writes
    cases hphase : w.shutdown <;> rw [hphase] at htask <;> cases htask <;> rfl
  | shutdownChecks => exact h.shutdownChecks hmeets.2

theorem Inv.runSteps {steps : List ShipStep} (hroomy : Always (ShipWorker.step cfg) (Roomy cfg) w steps)
    (hmeets : Always (ShipWorker.step cfg) (Meets cfg) w steps) : Inv (w.runSteps cfg steps) :=
  (always_and.mpr ⟨hroomy, hmeets⟩).invariant (fun _ h ⟨hroomy, hmeets⟩ => h.step hroomy hmeets) h

end

theorem inv_started (spool : GoMap Bytes Batch) : Inv { spool } := ⟨nofun, trivial, fun _ => rfl, nofun⟩

/-! ### After shutdown -/

/-- A worker that starts on any spool directory: whatever its goroutines do, when `shutdown` has returned every
batch taken has been shipped or is in a file, provided the steps meet the condition. -/
theorem shutdown_keeps_batches (cfg : ShipConfig) (spool : GoMap Bytes Batch) (steps : List ShipStep)
    (hroomy : Always (step cfg) (Roomy cfg) { spool } steps) (hmeets : Always (step cfg) (Meets cfg) { spool } steps) :
    Durable (runSteps cfg { spool } steps) :=
  ((inv_started spool).runSteps hroomy hmeets).durable

def sampleShipConfig : ShipConfig := { spoolDir := str "d", spoolMaxBytes := 0, queueDepth := 2, pid := 1 }

/-- `shutdown` gets two batches, of which one fails to ship and is spooled. -/
def patientShutdown : List ShipStep :=
  [.enqueue (str "a"), .enqueue (str "b"), .take, .shutdown, .run (.ships true), .stop, .proceed, .shutdownTakes,
    .shutdownRuns (.ships false), .shutdownRuns (.spools 7), .shutdownChecks, .shutdownTakes,
      .shutdownRuns (.reads true),
    .shutdownRuns (.ships false)]

theorem shutdown_keeps_batches_patient :
    (runSteps sampleShipConfig {} patientShutdown).shutdown = .returned ∧
      (runSteps sampleShipConfig {} patientShutdown).accepted.length = 2 ∧
      Durable (runSteps sampleShipConfig {} patientShutdown) :=
  ⟨by decide +kernel, by decide +kernel,
    shutdown_keeps_batches sampleShipConfig ∅ patientShutdown (by decide +kernel) (by decide +kernel)⟩

/-- The context of `shutdown` is done while two batches are queued: both are lost. -/
theorem shutdown_loses_queue :
    ∃ steps, Always (step sampleShipConfig) (Roomy sampleShipConfig) {} steps ∧
      ¬ Durable (runSteps sampleShipConfig {} steps) := by
  refine ⟨[.enqueue (str "a"), .enqueue (str "b"), .shutdown, .expire, .giveUp], by decide +kernel, fun h => ?_⟩
  rcases h (by decide +kernel) ⟨0, str "a"⟩ (by decide +kernel) with hshipped | ⟨file, hfile⟩
  · cases hshipped
  · cases hfile

/-! ### The size of the spool -/

theorem nodup_listSpool (spool : GoMap Bytes Batch) : (listSpool spool).Nodup :=
  (perm_insertionSort _ _).nodup_iff.mpr (spool.keys_nodup.filter _)

theorem perm_listSpool_erase (spool : GoMap Bytes Batch) (file : Bytes) :
    (listSpool (spool.erase file)).Perm ((listSpool spool).filter (· ≠ file)) := by
  refine (perm_ext_iff_of_nodup (nodup_listSpool _) ((nodup_listSpool _).filter _)).mpr fun name => ?_
  simp only [listSpool, mem_insertionSort, mem_filter, ← AList.mem_keys, mem_erase, decide_eq_true_eq]
  tauto

theorem spoolBytes_erase (spool : GoMap Bytes Batch) (file : Bytes) :
    spoolBytes (spool.erase file) = (((listSpool spool).filter (· ≠ file)).map (fileSize spool)).sum := by
  rw [spoolBytes, ((perm_listSpool_erase spool file).map _).sum_eq]
  congr 1
  refine map_congr_left fun name hname => ?_
  rw [fileSize, lookup_erase_ne (of_decide_eq_true (mem_filter.mp hname).2), fileSize]

theorem spoolBytes_erase_le (spool : GoMap Bytes Batch) (file : Bytes) :
    spoolBytes (spool.erase file) ≤ spoolBytes spool := by
  rw [spoolBytes_erase]
  refine (filter_sublist.map _).sum_le_sum (forall_mem_map.mpr fun name _ => ?_)
  unfold fileSize
  cases spool.lookup name <;> simp

/-- The loop of `enforceCap` ends within the cap: its total is that of the files left. -/
theorem dropOldest_within {cap : Int} (hcap : 0 < cap) : ∀ (files : List Bytes) {spool : GoMap Bytes Batch},
    (listSpool spool).Perm files → spoolBytes (dropOldest cap (spoolBytes spool) files spool) ≤ cap
  | [], spool, h => by
    rw [dropOldest, spoolBytes, h.eq_nil]
    exact hcap.le
  | file :: files, spool, h => by
    have hnew := (nodup_cons.mp (h.nodup_iff.mp (nodup_listSpool spool))).1
    have hrest : ((listSpool spool).filter (· ≠ file)).Perm files := by
      have hfiles : (file :: files).filter (· ≠ file) = files := by
        simpa using fun name hname (heq : name = file) => hnew (heq ▸ hname)
      exact hfiles ▸ h.filter _
    rw [dropOldest]
    split
    · have htotal : spoolBytes spool - fileSize spool file = spoolBytes (spool.erase file) := by
        rw [spoolBytes_erase, (hrest.map _).sum_eq, spoolBytes, (h.map _).sum_eq, map_cons, sum_cons,
          add_sub_cancel_left]
      rw [htotal]
      exact dropOldest_within hcap files ((perm_listSpool_erase spool file).trans hrest)
    · omega

section
variable {cfg : ShipConfig} (hcap : 0 < cfg.spoolMaxBytes) {w : ShipWorker} (h : spoolBytes w.spool ≤ cfg.spoolMaxBytes)
include hcap h

theorem spoolBytes_write (b : Batch) (now : UInt64) : spoolBytes (write cfg w b now).spool ≤ cfg.spoolMaxBytes := by
  unfold write
  split
  · exact h
  · rw [enforceCap, if_neg hcap.not_ge]
    exact dropOldest_within hcap _ (.refl _)

theorem spoolBytes_advance (ctxDone : Bool) (t : ShipTask) (s : TaskStep) :
    spoolBytes (advance cfg ctxDone w t s).1.spool ≤ cfg.spoolMaxBytes := by
  unfold advance
  split
  case h_3 => exact spoolBytes_write hcap h _ _
  case h_8 => exact (spoolBytes_erase_le _ _).trans h
  all_goals repeat' split
  all_goals exact h

theorem spoolBytes_step (e : ShipStep) : spoolBytes (w.step cfg e).spool ≤ cfg.spoolMaxBytes := by
  cases e with
  | flusherSpools now =>
    unfold step
    dsimp only
    split
    · exact h
    · exact spoolBytes_write hcap h _ _
  | run s =>
    unfold step
    dsimp only
    split
    · exact h
    · exact spoolBytes_advance hcap h _ _ _
  | shutdownRuns s =>
    unfold step
    dsimp only
    split
    · exact spoolBytes_advance hcap h _ _ _
    · exact spoolBytes_advance hcap h _ _ _
    · exact h
  | _ =>
    unfold step
    try unfold enqueue
    dsimp only
    repeat' split
    all_goals exact h

end

/-- Whatever the goroutines do, a spool that begins within its cap stays within it. -/
theorem spool_within_cap {cfg : ShipConfig} (hcap : 0 < cfg.spoolMaxBytes) (w : ShipWorker)
    (hspool : spoolBytes w.spool ≤ cfg.spoolMaxBytes) (steps : List ShipStep) :
    spoolBytes (runSteps cfg w steps).spool ≤ cfg.spoolMaxBytes := by
  induction steps generalizing w with
  | nil => exact hspool
  | cons e steps ih => exact ih _ (spoolBytes_step hcap hspool e)

/-- Two batches of one byte meet a cap of one byte, and the older file goes. -/
theorem spool_within_cap_one :
    spoolBytes (runSteps { sampleShipConfig with spoolMaxBytes := 1 } {} [.enqueue (str "a"), .enqueue (str "b"), .take,
      .run (.ships false), .run (.spools 7), .take, .run (.ships false), .run (.spools 8)]).spool ≤ 1 :=
  spool_within_cap (by decide) {} (by decide) _

end ShipWorker

end AsapCollector
