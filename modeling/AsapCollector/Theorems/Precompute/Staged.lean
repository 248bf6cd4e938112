import AsapCollector.Theorems.Precompute.Run

/-! A configuration that arrives while a tumbling window holds something waits until the window is rotated. Every series
moves by steps of its lane under the former one, then under the next one, and in between its base is forgotten. -/

namespace AsapCollector.Precompute

open Guard

variable {σ : Type} {F : SketchImpl σ} {cfg next : PrecomputeConfig} {h h' : History σ}

theorem Guard.met_watch_free (p : Precompute σ) {c : Call σ} (hc : c.emits = false) :
    free.watch.Met p (.call c) :=
  ⟨hc, fun _ _ _ _ _ _ _ => trivial⟩

structure Paneless (cfg : PrecomputeConfig) (h : History σ) : Prop where
  config : h.p.cfg = some cfg
  pending : h.p.pendingCfg = none
  panes : h.p.window.panes = []

theorem Paneless.move (hmode : cfg.mode ≠ .sliding) {r : Bool} (hmove : Move F free.watch r h h')
    (hp : Paneless cfg h) : Paneless cfg h' := by
  cases hmove with
  | counted => exact ⟨hp.config, hp.pending, hp.panes⟩
  | opened => exact ⟨hp.config, hp.pending, (WindowState.panes_initWindow _ _).trans hp.panes⟩
  | evicted => exact ⟨hp.config, hp.pending, hp.panes⟩
  | recorded => exact ⟨hp.config, hp.pending, hp.panes⟩
  | rotated _ c nowMs at_ ω hcfg =>
    cases hp.config.symm.trans hcfg
    refine ⟨hp.config, hp.pending, ?_⟩
    exact (finishRotate_writes _ _ _).same.panes.trans
      ((WindowState.rotateLocked_rotated hmode h.p.window nowMs ω).panes.trans hp.panes)
  | activated =>
    rcases activatePendingConfig_cases h.p with ⟨heq, -⟩ | ⟨pending, hpending, -⟩
    · rw [heq]
      exact hp
    · cases hp.pending.symm.trans hpending
  | updated _ _ hwatch => exact hwatch.elim

theorem Paneless.run (hmode : cfg.mode ≠ .sliding) (hoff : cfg.deltaTransmission = false) :
    ∀ {calls : List (Call σ)} {h : History σ}, Paneless cfg h → Paneless cfg (h.run F calls)
  | [], _, hp => hp
  | c :: calls, h, hp => by
    show Paneless cfg ((h.step F c).run F calls)
    refine Paneless.run hmode hoff ?_
    cases hc : c.emits with
    | false =>
      exact (performs_controlledStep (met_watch_free h.p hc)).keeps (fun _ _ _ => Paneless.move hmode) hp
    | true =>
      cases c with
      | emitSubWindow nowMs ω =>
        dsimp only [History.step]
        rw [emitSubWindow_idle hp.config (Or.inl hoff)]
        exact ⟨hp.config, hp.pending, hp.panes⟩
      | observe _ _ _ => cases hc
      | tick _ _ => cases hc
      | drain _ => cases hc

/-- The next configuration waits or has taken effect, and what is known of every lane before it and under it. -/
inductive Handover (cfg next : PrecomputeConfig) (P Q : Bytes → Lane σ → Prop) (h : History σ) : Prop
  | waits (ready : Ready cfg { h.p with pendingCfg := none }) (pending : h.p.pendingCfg = some next)
      (lanes : ∀ key, P key (h.lane key))
  | done (ready : Ready next h.p) (lanes : ∀ key, Q key (h.lane key))

theorem Move.unstaged {G : Guard σ} {r : Bool} (hmove : Move F G.watch r h h') :
    (h' = { h with p := activatePendingConfig h.p } ∧ (h.p.window.initialized = true → h.p.window.series = ∅)) ∨
      h'.p.pendingCfg = h.p.pendingCfg ∧
        Move F G.watch r { h with p.pendingCfg := none } { h' with p.pendingCfg := none } := by
  cases hmove with
  | counted _ stats verdicts returned pendingOutput houtput =>
    exact .inr ⟨rfl, .counted { h with p.pendingCfg := none } stats verdicts returned pendingOutput houtput⟩
  | opened _ c ts hc => exact .inr ⟨rfl, .opened { h with p.pendingCfg := none } c ts hc⟩
  | evicted _ c key hc hpolicy => exact .inr ⟨rfl, .evicted { h with p.pendingCfg := none } c key hc hpolicy⟩
  | recorded _ c obs hc hadmits hi hvalid =>
    exact .inr ⟨rfl, .recorded { h with p.pendingCfg := none } c obs hc hadmits hi hvalid⟩
  | rotated _ c nowMs at_ ω hc hi hdue hwatch =>
    exact .inr ⟨rfl, .rotated { h with p.pendingCfg := none } c nowMs at_ ω hc hi hdue hwatch⟩
  | activated _ hempty => exact .inl ⟨rfl, hempty⟩
  | updated _ _ hwatch => exact hwatch.elim

section
variable (ht : Tumbling cfg) (hnext : Tumbling next) (hsize : next.windowSizeMs = cfg.windowSizeMs)
variable {P Q : Bytes → Lane σ → Prop} (hP : ∀ key l l', Lane.Step F cfg .free key l l' → P key l → P key l')
variable (hQ : ∀ key l l', Lane.Step F next .free key l l' → Q key l → Q key l')
variable (hover : ∀ key (l : Lane σ), l.live = none → P key l → Q key { l with base := none })
include ht hnext hsize hP hQ hover

theorem Handover.move {r : Bool} (hmove : Move F free.watch r h h') (hh : Handover cfg next P Q h) :
    Handover cfg next P Q h' := by
  cases hh with
  | done ready lanes =>
    have hgoes := ready.move hnext hmove
    exact .done hgoes.ready fun key => kept_of_steps (hQ key) (hgoes.lanes key) (lanes key)
  | waits ready pending lanes =>
    rcases hmove.unstaged with ⟨rfl, hempty⟩ | ⟨hpending, hmove⟩
    · have hseries : h.p.window.series = ∅ := by
        cases hi : h.p.window.initialized with
        | true => exact hempty hi
        | false => exact (ready.blank hi).1
      rcases activatePendingConfig_cases h.p with ⟨-, hno⟩ | ⟨_, hsome, heq⟩
      · cases hno.symm.trans pending
      cases hsome.symm.trans pending
      rw [heq]
      refine .done ⟨rfl, rfl, ready.isOpen, hsize ▸ ready.aligned, ready.blank, ?_⟩ fun key => hover key (h.lane key) ?_
        (lanes key)
      · dsimp only
        rw [hseries]
        exact Keyed.empty
      · show h.p.window.series.lookup key = none
        rw [hseries]
        rfl
    · have hgoes := ready.move ht hmove
      exact .waits hgoes.ready (hpending.trans pending) fun key => kept_of_steps (hP key) (hgoes.lanes key) (lanes key)

theorem Handover.step (hoff : cfg.deltaTransmission = false) (hh : Handover cfg next P Q h) (c : Call σ) :
    Handover cfg next P Q (h.step F c) := by
  cases hc : c.emits with
  | false =>
    exact (performs_controlledStep (met_watch_free h.p hc)).keeps
      (fun _ _ _ => Handover.move ht hnext hsize hP hQ hover) hh
  | true =>
    cases hh with
    | done ready lanes =>
      have hadv := ready.step (F := F) hnext (met_free h.p c)
      exact .done hadv.ready fun key => kept_of_steps (hQ key) (hadv.lanes key) (lanes key)
    | waits ready pending lanes =>
      cases c with
      | emitSubWindow nowMs ω =>
        dsimp only [History.step]
        rw [emitSubWindow_idle (show h.p.cfg = some cfg from ready.config) (Or.inl hoff)]
        exact .waits ready pending lanes
      | observe _ _ _ => cases hc
      | tick _ _ => cases hc
      | drain _ => cases hc

/-- What is kept by the steps of the lanes under each configuration, and handed over between them, is known of every
lane after every run. -/
theorem Handover.run (hoff : cfg.deltaTransmission = false) : ∀ (calls : List (Call σ)) {h : History σ},
    Handover cfg next P Q h → Handover cfg next P Q (h.run F calls)
  | [], _, hh => hh
  | c :: calls, h, hh => by
    show Handover cfg next P Q ((h.step F c).run F calls)
    exact Handover.run hoff calls (hh.step ht hnext hsize hP hQ hover hoff c)

end

end AsapCollector.Precompute
