import AsapCollector.Theorems.Precompute.Window

/-! A call of the host or of the control plane is a sequence of moves, and what every move keeps holds after every
run. -/

namespace AsapCollector.Precompute

open List Option WindowState History Relation

variable {σ : Type} {F : SketchImpl σ} {cfg : PrecomputeConfig}

/-! ### Moves -/

/-- What is asked where a window is rotated, and where a configuration set arrives. -/
structure Watch (σ : Type) where
  rotate : PrecomputeConfig → WindowState σ → Nat → Prop
  update : Precompute σ → PrecomputeConfigSet → Prop
  /-- The counters do not matter. -/
  uncounted : ∀ cfg w stats nowMs, rotate cfg w nowMs → rotate cfg { w with stats } nowMs
  /-- Nothing is asked of windows without a length. -/
  degenerate : ∀ cfg w nowMs, cfg.rotationStepMs = 0 → rotate cfg w nowMs

def History.output (h : History σ) : List SketchEnvelope := h.returned ++ h.p.pendingOutput

inductive Move (F : SketchImpl σ) (K : Watch σ) : Bool → History σ → History σ → Prop
  /-- Counters and verdicts change, and some of the output is handed out. -/
  | counted (h : History σ) (stats : PrecomputeStats) (verdicts : List (Observation × Option PrecomputeError))
      (returned pendingOutput : List SketchEnvelope) (houtput : returned ++ pendingOutput = h.output) :
      Move F K false h { h with p := { h.p with window.stats := stats, pendingOutput }, verdicts, returned }
  | opened (h : History σ) (cfg : PrecomputeConfig) (timestampMs : Nat) (hcfg : h.p.cfg = some cfg) :
      Move F K false h { h with p.window := h.p.window.initWindow timestampMs cfg }
  /-- A series makes room for another one. -/
  | evicted (h : History σ) (cfg : PrecomputeConfig) (key : Bytes) (hcfg : h.p.cfg = some cfg)
      (hpolicy : cfg.maxSeries ≠ 0 ∧ cfg.onOverflow = .evictOldest) :
      Move F K false h { h with
        p.window.series := h.p.window.series.erase key
        p.window.snapshotCache := h.p.window.snapshotCache.delete key }
  /-- An observation is recorded, and taken unless the sketch refuses it. -/
  | recorded (h : History σ) (cfg : PrecomputeConfig) (obs : Observation) (hcfg : h.p.cfg = some cfg)
      (hadmits : cfg.admits obs = true) (hi : h.p.window.initialized = true)
      (htime : h.p.window.validateTimestamp obs.timestampMs cfg = none) :
      Move F K false h { h with
        p.window.series := h.p.window.series.insert (cfg.seriesKeyFor obs)
          (recordedEntry F (h.p.window.entryFor F (cfg.seriesKeyFor obs) obs cfg) obs cfg)
        accepted := h.accepted ++
          if (F.observe (h.p.window.entryFor F (cfg.seriesKeyFor obs) obs cfg).sketch obs.value).2.isNone then
            [⟨cfg.seriesKeyFor obs, h.p.window.activeStartMs, obs⟩]
          else [] }
  /-- The active window is rotated, and what it held is serialized. -/
  | rotated (h : History σ) (cfg : PrecomputeConfig) (nowMs at_ : Nat) (ω : SeriesOrder σ)
      (hcfg : h.p.cfg = some cfg) (hi : h.p.window.initialized = true)
      (hdue : 0 < cfg.rotationStepMs → h.p.window.activeEndMs ≤ nowMs) (hwatch : K.rotate cfg h.p.window nowMs) :
      Move F K true h { h with
        p.window := (finishRotate F (h.p.window.rotateLocked F nowMs cfg ω).1 (h.p.window.rotateLocked F nowMs cfg ω).2
          cfg at_).1
        p.pendingOutput := h.p.pendingOutput ++ (finishRotate F (h.p.window.rotateLocked F nowMs cfg ω).1
          (h.p.window.rotateLocked F nowMs cfg ω).2 cfg at_).2 }
  /-- A staged configuration takes effect on an empty window. -/
  | activated (h : History σ) (hempty : h.p.window.initialized = true → h.p.window.series = ∅) :
      Move F K false h { h with p := activatePendingConfig h.p }
  | updated (h : History σ) (cs : PrecomputeConfigSet) (hwatch : K.update h.p cs) :
      Move F K false h { h with p := updateConfig h.p cs }

def Performs (F : SketchImpl σ) (K : Watch σ) (h h' : History σ) : Prop :=
  ∃ h₁ h₂, ReflTransGen (Move F K false) h h₁ ∧ ReflGen (Move F K true) h₁ h₂ ∧
    ReflTransGen (Move F K false) h₂ h'

variable {K : Watch σ} {h h' : History σ}

theorem Performs.quiet (hq : ReflTransGen (Move F K false) h h') :
    Performs F K h h' :=
  ⟨h', h', hq, .refl, .refl⟩

theorem Performs.after {h h' h'' : History σ} (hp : Performs F K h' h'')
    (hq : ReflTransGen (Move F K false) h h') : Performs F K h h'' := by
  obtain ⟨h₁, h₂, hbefore, hrotates, hafter⟩ := hp
  exact ⟨h₁, h₂, hq.trans hbefore, hrotates, hafter⟩

theorem Performs.before {h h' h'' : History σ} (hp : Performs F K h h')
    (hq : ReflTransGen (Move F K false) h' h'') : Performs F K h h'' := by
  obtain ⟨h₁, h₂, hbefore, hrotates, hafter⟩ := hp
  exact ⟨h₁, h₂, hbefore, hrotates, hafter.trans hq⟩

namespace WindowState

theorem series_rotateLocked (F : SketchImpl σ) (cfg : PrecomputeConfig) (w : WindowState σ) (nowMs : Nat)
    (ω : SeriesOrder σ) : (w.rotateLocked F nowMs cfg ω).1.series = ∅ := by
  obtain ⟨panes, heq⟩ := @rotateLocked_fst σ F cfg w nowMs ω
  rw [heq, (advanceWindow_frame _ _).1]

theorem log_rotateLocked (F : SketchImpl σ) (cfg : PrecomputeConfig) (w : WindowState σ) (nowMs : Nat)
    (ω : SeriesOrder σ) : (w.rotateLocked F nowMs cfg ω).1.log = w.log := by
  obtain ⟨panes, heq⟩ := @rotateLocked_fst σ F cfg w nowMs ω
  rw [heq, (advanceWindow_frame _ _).2.2.2.2]

end WindowState

/-! ### Observations -/

variable (p : Precompute σ)

def withStats (stats : PrecomputeStats) : Precompute σ :=
  { p with window := { p.window with stats := stats } }

theorem countDrop_eq (err : Option PrecomputeError) : ∃ stats, countDrop p err = withStats p stats := by
  unfold countDrop
  split
  · exact ⟨_, rfl⟩
  · exact ⟨_, rfl⟩
  · exact ⟨p.window.stats, rfl⟩

/-- A scalar is tried once, or once more after the window it lies beyond has been closed. -/
theorem observeWith_cases (F : SketchImpl σ) (p : Precompute σ) (key : Option Bytes) {obs : Observation}
    (scalar : obs.carried = none) (ω : RangeOrders σ) :
    p.isClosed = true ∧ observeWith F p key obs ω = (p, some .closed) ∨ ∃ counted stats,
      (observeOnce F (withStats p counted) key obs).2 ≠ some .futureData ∧
          observeWith F p key obs ω = (withStats (observeOnce F (withStats p counted) key obs).1 stats,
            (observeOnce F (withStats p counted) key obs).2) ∨
        ∃ p', observeOnce F (withStats p counted) key obs = (p', some .futureData) ∧
          observeWith F p key obs ω =
            (withStats (observeOnce F (rotateForFuture F p' obs.timestampMs ω) none obs).1 stats,
              (observeOnce F (rotateForFuture F p' obs.timestampMs ω) none obs).2) := by
  unfold observeWith
  split
  · rename_i hclosed
    exact .inl ⟨hclosed, rfl⟩
  rw [scalar]
  refine .inr ⟨{ p.window.stats with inputObservations := p.window.stats.inputObservations + 1 }, ?_⟩
  show ∃ stats, _ ∧ observeScalar F (withStats p _) key obs ω = _ ∨
    ∃ p', _ ∧ observeScalar F (withStats p _) key obs ω = _
  unfold observeScalar
  split
  · rename_i p' hfuture
    obtain ⟨stats, hdrop⟩ := countDrop_eq (observeOnce F (rotateForFuture F p' obs.timestampMs ω) none obs).1
      (observeOnce F (rotateForFuture F p' obs.timestampMs ω) none obs).2
    exact ⟨stats, .inr ⟨p', hfuture, Prod.ext hdrop rfl⟩⟩
  · rename_i p' err hnot honce
    obtain ⟨stats, hdrop⟩ := countDrop_eq p' err
    rw [honce]
    exact ⟨stats, .inl ⟨hnot, Prod.ext hdrop rfl⟩⟩

/-! ### Calls -/

def Call.timeMs : Call σ → Nat
  | .observe obs _ _ => obs.timestampMs
  | .tick nowMs _ => nowMs
  | .drain _ => p.window.activeEndMs
  | .emitSubWindow nowMs _ => nowMs

/-- A call finds what is asked. Emissions within a window are not among the calls. -/
def Watch.Met (K : Watch σ) (p : Precompute σ) : ControlledCall σ → Prop
  | .call c => c.emits = false ∧ ∀ cfg, p.cfg = some cfg → closes p c = true → K.rotate cfg p.window (c.timeMs p)
  | .updateConfig cs => K.update p cs

/-- Every call of the run finds what is asked. -/
abbrev Watch.AllMet (K : Watch σ) (F : SketchImpl σ) : History σ → List (ControlledCall σ) → Prop :=
  Always (controlledStep F) fun h c => K.Met h.p c

section
variable {K : Watch σ} {h : History σ}

theorem activatePendingConfig_output (p : Precompute σ) (envs : List SketchEnvelope) :
    activatePendingConfig { p with pendingOutput := p.pendingOutput ++ envs } =
      { activatePendingConfig p with pendingOutput := (activatePendingConfig p).pendingOutput ++ envs } := by
  obtain ⟨cfg, pendingCfg, window, isClosed, frameReceiver, pendingOutput⟩ := p
  cases pendingCfg <;> rfl

theorem series_finishRotate (w : WindowState σ) (nowMs at_ : Nat) (ω : SeriesOrder σ) :
    (finishRotate F (w.rotateLocked F nowMs cfg ω).1 (w.rotateLocked F nowMs cfg ω).2 cfg at_).1.series = ∅ :=
  (finishRotate_writes _ _ _).same.series.trans (series_rotateLocked F cfg w nowMs ω)

theorem performs_rotateAndFinish (hcfg : h.p.cfg = some cfg) (nowMs : Nat) (ω : RangeOrders σ)
    (hwatch : h.p.window.initialized = true → (0 < cfg.rotationStepMs → h.p.window.activeEndMs ≤ nowMs) →
      K.rotate cfg h.p.window nowMs) :
    Performs F K h { h with p := { (rotateAndFinish F h.p cfg nowMs ω).1 with
      pendingOutput := (rotateAndFinish F h.p cfg nowMs ω).1.pendingOutput ++
        (rotateAndFinish F h.p cfg nowMs ω).2 } } := by
  by_cases hwaits : h.p.window.initialized = false ∨ 0 < cfg.rotationStepMs ∧ nowMs < h.p.window.activeEndMs
  · have hrotate : h.p.window.rotate F nowMs cfg ω.series = (h.p.window, {}) := by
      unfold WindowState.rotate
      rcases hwaits with hi | hearly
      · rw [if_pos hi]
      · rw [if_pos hearly]
        split <;> rfl
    unfold rotateAndFinish
    rw [hrotate]
    exact .quiet (.single (.counted _ h.p.window.stats _ _ _ (congrArg (h.returned ++ ·) (append_nil _))))
  · rw [not_or] at hwaits
    have hi : h.p.window.initialized = true := by simpa using hwaits.1
    have hdue : 0 < cfg.rotationStepMs → h.p.window.activeEndMs ≤ nowMs := fun hpos => by omega
    have hrotate : h.p.window.rotate F nowMs cfg ω.series = h.p.window.rotateLocked F nowMs cfg ω.series := by
      unfold WindowState.rotate
      rw [if_neg hwaits.1, if_neg hwaits.2]
    have hmove : Move F K true h _ := .rotated h cfg nowMs nowMs ω.series hcfg hi hdue (hwatch hi hdue)
    unfold rotateAndFinish
    rw [hrotate]
    dsimp only
    split
    · exact ⟨h, _, .refl, .single hmove, .refl⟩
    · rw [← activatePendingConfig_output]
      exact ⟨h, _, .refl, .single hmove, .single (.activated _ fun _ => series_finishRotate _ _ _ _)⟩

variable {obs : Observation}

theorem acceptance_error (p : Precompute σ) (obs : Observation) (err : PrecomputeError) :
    acceptance p obs (some err) = none := by
  unfold acceptance
  split <;> simp_all

variable {p : Precompute σ}

theorem acceptance_none (hcfg : p.cfg = some cfg) (obs : Observation) : acceptance p obs none =
    if cfg.admits obs then some ⟨cfg.seriesKeyFor obs, p.window.activeStartMs, obs⟩ else none := by
  unfold acceptance
  rw [hcfg]

theorem acceptance_recorded (hcfg : p.cfg = some cfg) (hadmits : cfg.admits obs = true) (err : Option String) :
    (acceptance p obs (err.map .sketchObserve)).toList =
      if err.isNone then [⟨cfg.seriesKeyFor obs, p.window.activeStartMs, obs⟩] else [] := by
  cases err with
  | some text =>
    rw [map_some, acceptance_error]
    rfl
  | none =>
    rw [map_none, acceptance_none hcfg, if_pos hadmits]
    rfl

theorem moves_observeOnce (h : History σ) (obs : Observation) :
    ReflTransGen (Move F K false) h { h with
        p := (observeOnce F h.p none obs).1
        accepted := h.accepted ++ (acceptance (observeOnce F h.p none obs).1 obs
          (observeOnce F h.p none obs).2).toList } := by
  unfold observeOnce
  split
  · dsimp only
    rw [acceptance_error, toList_none, append_nil]
  · rename_i cfg hcfg
    split
    · rename_i hskip
      rw [acceptance_none hcfg, hskip, if_neg (by decide), toList_none, append_nil]
    · rename_i hadmits
      have hadmits : cfg.admits obs = true := by simpa using hadmits
      have hopen : Move F K false h _ := .opened h cfg obs.timestampMs hcfg
      dsimp only [getD_none]
      rcases observeWithKey_cases F cfg h.p.window (cfg.seriesKeyFor obs) obs with
        ⟨err, -, heq⟩ | ⟨htime, w₁, stats, hroom, heq⟩
      · rw [heq]
        rw [acceptance_error, toList_none, append_nil]
        exact .single hopen
      · rw [heq]
        rw [acceptance_recorded ?same hadmits]
        case same => exact hcfg
        refine .head hopen ?_
        rcases hroom with rfl | ⟨hpolicy, k, stats', rfl⟩
        · exact .tail (.single (.recorded _ cfg obs hcfg hadmits (initialized_initWindow _ _) htime))
            (.counted _ stats _ _ _ rfl)
        · exact .head (.evicted _ cfg k hcfg hpolicy)
            (.tail (.single (.recorded _ cfg obs hcfg hadmits (initialized_initWindow _ _) htime))
              (.counted _ stats _ _ _ rfl))

theorem move_handedOut (h : History σ) (p : Precompute σ) (envs : List SketchEnvelope) :
    Move F K false { h with p := { p with pendingOutput := p.pendingOutput ++ envs } } { h with
      p := (takePendingOutput p envs).1
      returned := h.returned ++ (takePendingOutput p envs).2 } :=
  .counted _ p.window.stats _ _ _ (append_nil _)

variable {ω : RangeOrders σ}

theorem performs_tick {nowMs : Nat} (hmet : K.Met h.p (.call (.tick nowMs ω))) :
    Performs F K h (h.step F (.tick nowMs ω)) := by
  dsimp only [step]
  unfold tick
  split
  · dsimp only
    rw [append_nil]
    exact .quiet .refl
  · rename_i cfg hcfg
    refine (performs_rotateAndFinish hcfg nowMs ω fun hi hdue => ?_).before (.single (move_handedOut h _ _))
    by_cases hpos : 0 < cfg.rotationStepMs
    · exact hmet.2 cfg hcfg (by simp [closes, hi, hdue hpos])
    · exact K.degenerate _ _ _ (by omega)

theorem performs_drain (hmet : K.Met h.p (.call (.drain ω))) :
    Performs F K h (h.step F (.drain ω)) := by
  dsimp only [step]
  unfold drain
  split
  · dsimp only
    rw [append_nil]
    exact .quiet .refl
  · rename_i cfg hcfg
    by_cases hnothing : h.p.window.initialized = false ∨ h.p.window.series.len = 0 ∧
      (cfg.mode ≠ .sliding ∨ h.p.window.panes = [])
    · have hdrain : h.p.window.drain F cfg ω.series = (h.p.window, {}) := by
        unfold WindowState.drain
        rcases hnothing with hi | hempty
        · rw [if_pos hi]
        · rw [if_pos hempty]
          split <;> rfl
      rw [hdrain]
      refine .quiet (.head (.activated h fun hi => ?_) (.head ?_ (.single (move_handedOut h _ _))))
      case refine_2 =>
        exact .counted _ (activatePendingConfig h.p).window.stats _ _ _ (congrArg (h.returned ++ ·) (append_nil _))
      rcases hnothing with hno | hempty
      · rw [hno] at hi
        cases hi
      · exact eq_empty_of_len hempty.1
    · rw [not_or] at hnothing
      have hi : h.p.window.initialized = true := by simpa using hnothing.1
      have hdrain : h.p.window.drain F cfg ω.series =
          h.p.window.rotateLocked F h.p.window.activeEndMs cfg ω.series := by
        unfold WindowState.drain
        rw [if_neg hnothing.1, if_neg hnothing.2]
      rw [hdrain]
      have hmove (at_ : Nat) : Move F K true h _ := .rotated h cfg h.p.window.activeEndMs at_ ω.series hcfg hi
        (fun _ => Nat.le_refl _) (hmet.2 cfg hcfg hi)
      have hempty := @series_finishRotate σ F cfg h.p.window h.p.window.activeEndMs
      specialize hmove (h.p.window.rotateLocked F h.p.window.activeEndMs cfg ω.series).2.endMs
      specialize hempty (h.p.window.rotateLocked F h.p.window.activeEndMs cfg ω.series).2.endMs ω.series
      dsimp only
      generalize finishRotate F _ _ _ (h.p.window.rotateLocked F h.p.window.activeEndMs cfg ω.series).2.endMs = finished
        at hmove hempty ⊢
      obtain ⟨w, envs⟩ := finished
      have hout := activatePendingConfig_output { h.p with window := w } envs
      refine ⟨h, _, .refl, .single hmove, .head (.activated _ fun _ => hempty) ?_⟩
      rw [hout]
      exact .single (move_handedOut h (activatePendingConfig { h.p with window := w }) envs)

theorem observeOnce_futureData {p' : Precompute σ} {key : Option Bytes}
    (hfuture : observeOnce F p key obs = (p', some .futureData)) :
    ∃ cfg, p.cfg = some cfg ∧ cfg.admits obs = true ∧
      p' = { p with window := p.window.initWindow obs.timestampMs cfg } ∧ p'.window.activeEndMs ≤ obs.timestampMs := by
  unfold observeOnce at hfuture
  split at hfuture
  · cases hfuture
  · rename_i cfg hcfg
    split at hfuture
    · cases hfuture
    · rename_i hadmits
      refine ⟨cfg, hcfg, by simpa using hadmits, ?_⟩
      rcases observeWithKey_cases F cfg p.window (key.getD (cfg.seriesKeyFor obs)) obs with
        ⟨err, hwhy, heq⟩ | ⟨-, w₁, stats, -, heq⟩
      · rw [heq] at hfuture
        obtain ⟨rfl, herr⟩ := Prod.mk.inj hfuture
        cases herr
        rcases hwhy with ⟨-, hcap⟩ | hlate
        · cases hcap
        · refine ⟨rfl, ?_⟩
          rcases validateTimestamp_eq_some hlate with ⟨-, hend⟩ | ⟨hno, -⟩
          · exact hend
          · cases hno
      · rw [heq] at hfuture
        have herr := (Prod.mk.inj hfuture).2
        obtain ⟨text, -, hno⟩ := map_eq_some_iff.mp herr
        cases hno

theorem lt_initWindow (hpos : 0 < cfg.rotationStepMs) {w : WindowState σ} (hi : w.initialized = false)
    (timestampMs : Nat) : timestampMs < (w.initWindow timestampMs cfg).activeEndMs := by
  unfold initWindow
  rw [if_neg (by rw [hi]; decide)]
  dsimp only
  rw [if_neg (by omega)]
  have := @Nat.lt_div_mul_add timestampMs cfg.rotationStepMs hpos
  omega

theorem initWindow_le {w : WindowState σ} (hi : w.initialized = false) (timestampMs : Nat) :
    (w.initWindow timestampMs cfg).activeStartMs ≤ timestampMs := by
  unfold initWindow
  rw [if_neg (by rw [hi]; decide)]
  dsimp only
  split
  · exact Nat.le_refl _
  · exact Nat.div_mul_le_self _ _

theorem rotateForFuture_eq (hcfg : p.cfg = some cfg) (timestampMs : Nat) (ω : RangeOrders σ) :
    rotateForFuture F p timestampMs ω =
      { (rotateAndFinish F p cfg timestampMs ω).1 with
        pendingOutput := (rotateAndFinish F p cfg timestampMs ω).1.pendingOutput ++
          (rotateAndFinish F p cfg timestampMs ω).2 } := by
  unfold rotateForFuture
  rw [hcfg]

theorem performs_rotateForFuture {p' : Precompute σ} (ω : RangeOrders σ)
    (hfuture : observeOnce F h.p none obs = (p', some .futureData))
    (hwatch : ∀ cfg, h.p.cfg = some cfg → cfg.admits obs = true → h.p.window.initialized = true →
      h.p.window.activeEndMs ≤ obs.timestampMs → K.rotate cfg h.p.window obs.timestampMs) :
    Performs F K h { h with p := rotateForFuture F p' obs.timestampMs ω } := by
  obtain ⟨cfg, hcfg, hadmits, rfl, hend⟩ := observeOnce_futureData hfuture
  rw [rotateForFuture_eq (p := { h.p with window := h.p.window.initWindow obs.timestampMs cfg }) hcfg]
  refine (@performs_rotateAndFinish σ F cfg K { h with p.window := h.p.window.initWindow obs.timestampMs cfg } hcfg
    obs.timestampMs ω fun _ _ => ?_).after (.single (.opened h cfg obs.timestampMs hcfg))
  by_cases hpos : 0 < cfg.rotationStepMs
  · cases hi : h.p.window.initialized with
    | false => exact absurd hend (Nat.not_le.mpr (lt_initWindow hpos hi _))
    | true =>
      rw [initWindow_of_initialized hi] at hend ⊢
      exact hwatch cfg hcfg hadmits hi hend
  · exact K.degenerate _ _ _ (by omega)

theorem move_noted (h : History σ) (stats : PrecomputeStats) (verdicts : List (Observation × Option PrecomputeError)) :
    Move F K false h { h with p := { h.p with window.stats := stats }, verdicts } :=
  .counted _ stats _ _ _ rfl

theorem performs_observe {scalar : obs.carried = none} (hmet : K.Met h.p (.call (.observe obs scalar ω))) :
    Performs F K h (h.step F (.observe obs scalar ω)) := by
  dsimp only [step]
  unfold observe
  rcases observeWith_cases F h.p none scalar ω with ⟨-, heq⟩ | ⟨counted, stats, ⟨-, heq⟩ | ⟨p', hfuture, heq⟩⟩ <;>
    rw [heq]
  · dsimp only
    rw [acceptance_error, toList_none, append_nil]
    exact .quiet (.single (move_noted h h.p.window.stats _))
  · have honce := @moves_observeOnce σ F K { h with p := withStats h.p counted } obs
    exact .quiet (.head (move_noted h counted h.verdicts) (honce.tail (move_noted _ stats _)))
  · have hretry := @moves_observeOnce σ F K { h with p := rotateForFuture F p' obs.timestampMs ω } obs
    refine ((@performs_rotateForFuture σ F K { h with p := withStats h.p counted } obs p' ω hfuture
      fun cfg hcfg hadmits hi hend => ?_).after (.single (move_noted h counted h.verdicts))).before
        (hretry.tail (move_noted _ stats _))
    have hcloses : closes h.p (.observe obs scalar ω) = true := by
      unfold closes
      rw [show h.p.cfg = some cfg from hcfg, show h.p.window.initialized = true from hi]
      simp [hadmits, show h.p.window.activeEndMs ≤ obs.timestampMs from hend]
    exact K.uncounted _ _ _ _ (hmet.2 cfg hcfg hcloses)

theorem performs_controlledStep {c : ControlledCall σ} (hmet : K.Met h.p c) :
    Performs F K h (h.controlledStep F c) := by
  cases c with
  | updateConfig cs => exact .quiet (.single (.updated h cs hmet))
  | call c =>
    cases c with
    | observe obs scalar ω => exact performs_observe hmet
    | tick nowMs ω => exact performs_tick hmet
    | drain ω => exact performs_drain hmet
    | emitSubWindow nowMs ω => cases hmet.1

end

/-! ### What every move keeps -/

section
variable {K : Watch σ} {P : History σ → Prop} (hmove : ∀ r h h', Move F K r h h' → P h → P h')
include hmove

theorem keeps_of_moves (hmoves : ReflTransGen (Move F K false) h h') (hp : P h) : P h' := by
  induction hmoves with
  | refl => exact hp
  | tail _ hm ih => exact hmove _ _ _ hm ih

theorem Performs.keeps {h h' : History σ} (hperforms : Performs F K h h') (hp : P h) : P h' := by
  obtain ⟨h₁, h₂, hbefore, hrotates, hafter⟩ := hperforms
  refine keeps_of_moves hmove hafter ?_
  cases hrotates with
  | refl => exact keeps_of_moves hmove hbefore hp
  | single hm => exact hmove _ _ _ hm (keeps_of_moves hmove hbefore hp)

theorem watched_induction {calls : List (ControlledCall σ)} {h : History σ} (hmet : K.AllMet F h calls) (hp : P h) :
    P (h.controlledRun F calls) :=
  hmet.invariant (fun _ hp hmet => (performs_controlledStep hmet).keeps hmove hp) hp

end

/-! ### Configurations and output -/

theorem updateConfig_cases (cs : PrecomputeConfigSet) :
    updateConfig p cs = p ∨ ∃ chosen, chooseConfig p.cfg cs = some chosen ∧ chosen.validMatchers = true ∧
      ((p.cfg.isSome = true ∧ p.window.hasAccumulatedState = true) ∧
        updateConfig p cs = { p with pendingCfg := some chosen } ∨
        (p.cfg.isSome = true → p.window.hasAccumulatedState = false) ∧
          updateConfig p cs = { p with cfg := some chosen, pendingCfg := none }) := by
  unfold updateConfig
  split
  · exact Or.inl rfl
  · rename_i chosen hchosen
    split
    · exact Or.inl rfl
    · rename_i hvalid
      refine Or.inr ⟨chosen, hchosen, by simpa using hvalid, ?_⟩
      split
      · rename_i hstate
        exact Or.inl ⟨hstate, rfl⟩
      · rename_i hstate
        exact Or.inr ⟨fun hsome => by simpa [hsome] using hstate, rfl⟩

theorem activatePendingConfig_cases :
    activatePendingConfig p = p ∧ p.pendingCfg = none ∨ ∃ pending, p.pendingCfg = some pending ∧
      activatePendingConfig p =
        { p with cfg := some pending, pendingCfg := none, window.snapshotCache := p.window.snapshotCache.reset } := by
  unfold activatePendingConfig
  cases p.pendingCfg with
  | none => exact Or.inl ⟨rfl, rfl⟩
  | some pending => exact Or.inr ⟨pending, rfl, rfl⟩

theorem output_of_quiet (hmove : Move F K false h h') : h'.output = h.output := by
  cases hmove with
  | counted _ _ _ _ _ houtput => exact houtput
  | opened => rfl
  | evicted => rfl
  | recorded => rfl
  | activated =>
    rcases activatePendingConfig_cases h.p with ⟨heq, -⟩ | ⟨_, -, heq⟩ <;> simp only [output, heq]
  | updated _ cs _ =>
    rcases updateConfig_cases h.p cs with heq | ⟨_, -, -, ⟨-, heq⟩ | ⟨-, heq⟩⟩ <;> simp only [output, heq]

theorem log_of_quiet (hmove : Move F K false h h') : h'.p.window.log = h.p.window.log := by
  cases hmove with
  | counted => rfl
  | opened => exact log_initWindow _ _
  | evicted => rfl
  | recorded => rfl
  | activated =>
    rcases activatePendingConfig_cases h.p with ⟨heq, -⟩ | ⟨_, -, heq⟩ <;> simp only [heq]
  | updated _ cs _ =>
    rcases updateConfig_cases h.p cs with heq | ⟨_, -, -, ⟨-, heq⟩ | ⟨-, heq⟩⟩ <;> simp only [heq]

theorem Move.output {r : Bool} (hmove : Move F K r h h') :
    ∃ evs, h'.p.window.log = h.p.window.log ++ evs ∧ h'.output = h.output ++ evs.filterMap Event.envelope? := by
  cases r with
  | false =>
    exact ⟨[], by rw [log_of_quiet hmove, append_nil], by rw [output_of_quiet hmove, filterMap_nil, append_nil]⟩
  | true =>
    cases hmove with
    | rotated _ cfg nowMs at_ ω =>
      obtain ⟨-, evs, hlog, henvs, -⟩ := @finishRotate_writes σ F cfg (h.p.window.rotateLocked F nowMs cfg ω).1
        (h.p.window.rotateLocked F nowMs cfg ω).2 at_
      refine ⟨evs, by rw [hlog, log_rotateLocked], ?_⟩
      unfold output
      rw [henvs, nil_append, append_assoc]

theorem Performs.output (hperforms : Performs F K h h') :
    ∃ evs, h'.p.window.log = h.p.window.log ++ evs ∧ h'.output = h.output ++ evs.filterMap Event.envelope? := by
  refine @Performs.keeps σ F K (fun h' => ∃ evs, h'.p.window.log = h.p.window.log ++ evs ∧
    h'.output = h.output ++ evs.filterMap Event.envelope?) (fun _ _ _ hmove hp => ?_) h h' hperforms
    ⟨[], (append_nil _).symm, (append_nil _).symm⟩
  obtain ⟨evs, hlog, houtput⟩ := hp
  obtain ⟨evs', hlog', houtput'⟩ := hmove.output
  exact ⟨evs ++ evs', by rw [hlog', hlog, append_assoc], by rw [houtput', houtput, filterMap_append, append_assoc]⟩

def History.Recorded (h : History σ) : Prop := h.output = h.p.window.log.filterMap Event.envelope?

theorem History.Recorded.move {r : Bool} (hmove : Move F K r h h') (hl : h.Recorded) :
    h'.Recorded := by
  obtain ⟨evs, hlog, houtput⟩ := hmove.output
  unfold Recorded
  rw [houtput, hlog, filterMap_append, ← hl]

end AsapCollector.Precompute
