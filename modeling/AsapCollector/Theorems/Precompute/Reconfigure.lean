import AsapCollector.Theorems.Precompute.Sliding

/-! A configuration set is installed at once where the runtime holds nothing, and staged until the next rotation where
it does. The window that is open stays as the former configuration cut it. -/

namespace AsapCollector.Precompute

open List WindowState History AList

variable {σ : Type} {F : SketchImpl σ} {cfg : PrecomputeConfig}

/-- What each call puts out. -/
def History.batches (F : SketchImpl σ) : History σ → List (ControlledCall σ) → List (List SketchEnvelope)
  | _, [] => []
  | h, c :: calls => (h.controlledStep F c).output.drop h.output.length :: (h.controlledStep F c).batches F calls

/-! ### Ranges in order -/

/-- All envelopes are of one window, which is not empty. -/
def OneWindow (envs : List SketchEnvelope) : Prop :=
  ∃ startMs endMs, startMs < endMs ∧ ∀ env ∈ envs, env.windowStartMs = startMs ∧ env.windowEndMs = endMs

/-- The windows of the former end before those of the latter start. -/
def Earlier (envs envs' : List SketchEnvelope) : Prop :=
  ∀ env ∈ envs, ∀ env' ∈ envs', env.windowEndMs ≤ env'.windowStartMs

def Sized (cfg : PrecomputeConfig) : Prop := cfg.mode = .tumbling ∧ 0 < cfg.windowSizeMs

theorem Sized.step (h : Sized cfg) : 0 < cfg.rotationStepMs := by
  unfold PrecomputeConfig.rotationStepMs
  rw [h.1, if_neg (by decide)]
  exact h.2

theorem Sized.notSliding (h : Sized cfg) : cfg.mode ≠ .sliding := by
  rw [h.1]
  decide

/-- What is installed is sized, and the bucket of the time at which a window with something in it is rotated
does not start within that window. -/
def tiled (σ : Type) : Watch σ where
  rotate cfg w nowMs := 0 < cfg.rotationStepMs → w.series.len ≠ 0 →
    nowMs / cfg.rotationStepMs * cfg.rotationStepMs ≤ w.activeStartMs ∨
      w.activeEndMs ≤ nowMs / cfg.rotationStepMs * cfg.rotationStepMs
  update p cs := ∀ chosen, chooseConfig p.cfg cs = some chosen → chosen.validMatchers = true → Sized chosen
  uncounted _ _ _ _ h := h
  degenerate _ _ _ h hpos := absurd h (Nat.pos_iff_ne_zero.mp hpos)

instance (cfg : PrecomputeConfig) : Decidable (Sized cfg) := inferInstanceAs (Decidable (_ ∧ _))

instance (p : Precompute σ) : (c : ControlledCall σ) → Decidable ((tiled σ).Met p c)
  | .call c => inferInstanceAs (Decidable (c.emits = false ∧ ∀ cfg ∈ p.cfg, closes p c = true →
      0 < cfg.rotationStepMs → p.window.series.len ≠ 0 →
        c.timeMs p / cfg.rotationStepMs * cfg.rotationStepMs ≤ p.window.activeStartMs ∨
          p.window.activeEndMs ≤ c.timeMs p / cfg.rotationStepMs * cfg.rotationStepMs))
  | .updateConfig cs => inferInstanceAs (Decidable (∀ chosen ∈ chooseConfig p.cfg cs, chosen.validMatchers = true →
      Sized chosen))

/-- Every window put out ends where the active window starts, or before. -/
structure Ordered (h : History σ) : Prop where
  sized : ∀ cfg, h.p.cfg = some cfg ∨ h.p.pendingCfg = some cfg → Sized cfg
  bounds : h.p.window.initialized = true → h.p.window.activeStartMs < h.p.window.activeEndMs
  past : ∀ env ∈ h.output, h.p.window.initialized = true ∧ env.windowEndMs ≤ h.p.window.activeStartMs

variable (initial : Option PrecomputeConfig)

theorem ordered_start (hinitial : ∀ cfg ∈ initial, Sized cfg) :
    Ordered ({ p := new initial } : History σ) where
  sized cfg h := by
    rcases h with h | h
    · exact hinitial cfg (Option.mem_filter_iff.mp h).1
    · cases h
  bounds h := nomatch h
  past _ h := nomatch h

theorem initWindow_bounds (hpos : 0 < cfg.rotationStepMs) (w : WindowState σ) (timestampMs : Nat)
    (hbounds : w.initialized = true → w.activeStartMs < w.activeEndMs) :
    (w.initWindow timestampMs cfg).activeStartMs < (w.initWindow timestampMs cfg).activeEndMs := by
  cases hi : w.initialized with
  | true =>
    rw [initWindow_of_initialized hi]
    exact hbounds hi
  | false =>
    unfold initWindow
    rw [if_neg (by rw [hi]; decide)]
    dsimp only
    omega

theorem advanceWindow_after (hpos : 0 < cfg.rotationStepMs) (w : WindowState σ) (nowMs : Nat)
    (hbounds : w.activeStartMs < w.activeEndMs) :
    (w.advanceWindow nowMs cfg).activeStartMs < (w.advanceWindow nowMs cfg).activeEndMs ∧
      w.activeStartMs ≤ (w.advanceWindow nowMs cfg).activeStartMs ∧
      (nowMs / cfg.rotationStepMs * cfg.rotationStepMs ≤ w.activeStartMs ∨
        w.activeEndMs ≤ nowMs / cfg.rotationStepMs * cfg.rotationStepMs →
          w.activeEndMs ≤ (w.advanceWindow nowMs cfg).activeStartMs) := by
  unfold advanceWindow
  rw [if_neg (by omega)]
  dsimp only
  split <;> omega

variable {h h' : History σ}

theorem Ordered.same (ho : Ordered h) (hi : h'.p.window.initialized = h.p.window.initialized)
    (hstart : h'.p.window.activeStartMs = h.p.window.activeStartMs)
    (hend : h'.p.window.activeEndMs = h.p.window.activeEndMs) (hout : h'.output = h.output)
    (hsized : ∀ cfg, h'.p.cfg = some cfg ∨ h'.p.pendingCfg = some cfg → Sized cfg) : Ordered h' := by
  refine ⟨hsized, ?_, ?_⟩
  · rw [hi, hstart, hend]
    exact ho.bounds
  · rw [hout, hi, hstart]
    exact ho.past

theorem Ordered.quiet (ho : Ordered h) (hmove : Move F (tiled σ) false h h') : Ordered h' := by
  have hout := output_of_quiet hmove
  cases hmove with
  | counted => exact ho.same rfl rfl rfl hout ho.sized
  | opened _ cfg timestampMs hcfg =>
    refine ⟨ho.sized, fun _ => ?_, fun env henv => ?_⟩
    · exact initWindow_bounds (ho.sized cfg (Or.inl hcfg)).step _ _ ho.bounds
    · obtain ⟨hi, hend⟩ := ho.past env (hout ▸ henv)
      rw [initWindow_of_initialized hi]
      exact ⟨hi, hend⟩
  | evicted => exact ho.same rfl rfl rfl hout ho.sized
  | recorded => exact ho.same rfl rfl rfl hout ho.sized
  | activated =>
    rcases activatePendingConfig_cases h.p with ⟨heq, -⟩ | ⟨pending, hpending, heq⟩
    all_goals rw [heq] at hout ⊢
    · exact ho
    · refine ho.same rfl rfl rfl hout ?_
      rintro cfg (hcfg | hcfg) <;> cases hcfg
      exact ho.sized pending (Or.inr hpending)
  | updated _ cs hwatch =>
    rcases updateConfig_cases h.p cs with heq | ⟨chosen, hchosen, hvalid, ⟨-, heq⟩ | ⟨-, heq⟩⟩
    all_goals rw [heq] at hout ⊢
    · exact ho
    · refine ho.same rfl rfl rfl hout ?_
      rintro cfg (hcfg | hcfg)
      · exact ho.sized cfg (Or.inl hcfg)
      · cases hcfg
        exact hwatch chosen hchosen hvalid
    · refine ho.same rfl rfl rfl hout ?_
      rintro cfg (hcfg | hcfg) <;> cases hcfg
      exact hwatch chosen hchosen hvalid

theorem Ordered.rotated (ho : Ordered h) (hmove : Move F (tiled σ) true h h') :
    Ordered h' ∧ ∃ envs, h'.output = h.output ++ envs ∧ OneWindow envs ∧ Earlier h.output envs := by
  cases hmove with
  | rotated _ cfg nowMs at_ ω hcfg hi hdue hwatch =>
    have hsized := ho.sized cfg (Or.inl hcfg)
    have hrot := @rotateLocked_rotated σ F cfg hsized.notSliding h.p.window nowMs ω
    have hsame := (@finishRotate_writes σ F cfg (h.p.window.rotateLocked F nowMs cfg ω).1
      (h.p.window.rotateLocked F nowMs cfg ω).2 at_).same
    have hmem := @mem_finishRotate σ F cfg (h.p.window.rotateLocked F nowMs cfg ω).1
      (h.p.window.rotateLocked F nowMs cfg ω).2 at_
    obtain ⟨hproper, hlater, hbeyond⟩ := advanceWindow_after hsized.step h.p.window nowMs (ho.bounds hi)
    generalize h.p.window.rotateLocked F nowMs cfg ω = rotation at hrot hsame hmem ⊢
    obtain ⟨w, r⟩ := rotation
    generalize finishRotate F w r cfg at_ = finished at hsame hmem ⊢
    obtain ⟨w', envs⟩ := finished
    have hrange : ∀ env ∈ envs, r.entries ≠ [] ∧ env.windowStartMs = h.p.window.activeStartMs ∧
        env.windowEndMs = h.p.window.activeEndMs := fun env henv => by
      obtain ⟨entry, hentry, hser⟩ := hmem henv
      have hne := ne_nil_of_mem hentry
      obtain ⟨hs, he⟩ := hrot.range hne
      cases hser
      exact ⟨hne, hs, he⟩
    have hstart := hsame.activeStartMs.trans hrot.advanced.1
    have hend := hsame.activeEndMs.trans hrot.advanced.2
    refine ⟨⟨ho.sized, fun _ => ?_, fun env henv => ⟨?_, ?_⟩⟩, envs, ?_, ?_, ?_⟩
    · exact hstart ▸ hend ▸ hproper
    · exact (hsame.initialized.trans hrot.initialized).trans hi
    · dsimp only [output] at henv
      rw [← append_assoc] at henv
      rw [hstart]
      rcases mem_append.mp henv with hold | hnew
      · exact (ho.past env hold).2.trans hlater
      · obtain ⟨hne, -, he⟩ := hrange env hnew
        rw [he]
        refine hbeyond (hwatch hsized.step fun hlen => hne ?_)
        rw [hrot.entries, length_eq_zero_iff.mp ((GoMap.length_range _ ω).trans hlen)]
        rfl
    · exact (append_assoc _ _ _).symm
    · exact ⟨_, _, ho.bounds hi, fun env henv => (hrange env henv).2⟩
    · intro env henv env' henv'
      rw [(hrange env' henv').2.1]
      exact (ho.past env henv).2

theorem Ordered.performs (ho : Ordered h) (hperforms : Performs F (tiled σ) h h') :
    Ordered h' ∧ ∃ envs, h'.output = h.output ++ envs ∧ OneWindow envs ∧ Earlier h.output envs := by
  have hquiet : ∀ {h₁ h₂ : History σ}, Relation.ReflTransGen (Move F (tiled σ) false) h₁ h₂ → Ordered h₁ →
      Ordered h₂ ∧ h₂.output = h₁.output := fun hmoves ho₁ => by
    induction hmoves with
    | refl => exact ⟨ho₁, rfl⟩
    | tail _ hm ih => exact ⟨ih.1.quiet hm, (output_of_quiet hm).trans ih.2⟩
  obtain ⟨h₁, h₂, hbefore, hrotates, hafter⟩ := hperforms
  obtain ⟨ho₁, hout₁⟩ := hquiet hbefore ho
  cases hrotates with
  | refl =>
    obtain ⟨ho', hout'⟩ := hquiet hafter ho₁
    refine ⟨ho', [], ?_, ⟨0, 1, by decide, fun _ h => nomatch h⟩, fun _ _ _ h => nomatch h⟩
    rw [hout', hout₁, append_nil]
  | single hm =>
    obtain ⟨ho₂, envs, hout₂, hone, hlater⟩ := ho₁.rotated hm
    obtain ⟨ho', hout'⟩ := hquiet hafter ho₂
    exact ⟨ho', envs, by rw [hout', hout₂, hout₁], hone, hout₁ ▸ hlater⟩

theorem Ordered.run : ∀ {calls : List (ControlledCall σ)} {h : History σ}, Ordered h → (tiled σ).AllMet F h calls →
    (h.controlledRun F calls).output = h.output ++ (h.batches F calls).flatten ∧
      (∀ envs ∈ h.batches F calls, OneWindow envs ∧ Earlier h.output envs) ∧ (h.batches F calls).Pairwise Earlier
  | [], h, _, _ => ⟨(append_nil _).symm, (fun _ h => nomatch h), .nil⟩
  | c :: calls, h, ho, hmet => by
    obtain ⟨ho', envs, hout, hone, hlater⟩ := ho.performs (performs_controlledStep hmet.1)
    obtain ⟨hrest, hwindows, hpairs⟩ := Ordered.run ho' hmet.2
    have hbatch : (h.controlledStep F c).output.drop h.output.length = envs := by
      rw [hout, drop_left]
    show ((h.controlledStep F c).controlledRun F calls).output = _ ∧ _
    unfold batches
    rw [hbatch]
    refine ⟨?_, fun batch hbatch => ?_, pairwise_cons.mpr ⟨fun batch hbatch => ?_, hpairs⟩⟩
    · rw [hrest, hout, flatten_cons, append_assoc]
    · rcases mem_cons.mp hbatch with rfl | hbatch
      · exact ⟨hone, hlater⟩
      · obtain ⟨hone', hlater'⟩ := hwindows batch hbatch
        exact ⟨hone', fun env henv => hlater' env (hout ▸ mem_append_left _ henv)⟩
    · exact fun env henv => (hwindows batch hbatch).2 env (hout ▸ mem_append_right _ henv)

def resized (sizeMs : Int) : PrecomputeConfigSet :=
  { version := 1, configs := [{ tenMs with window := { size := sizeMs * millisecond } }] }

/-- Windows of ten milliseconds, then of five: the change is staged while `[10, 20)` is open. -/
def halved : List (ControlledCall Nat) :=
  [.call (sampleAt (str "cpu") 12), .updateConfig (resized 5), .call (.tick 20 (.stored _)),
    .call (sampleAt (str "cpu") 23),
    .call (.tick 30 (.stored _)), .call (sampleAt (str "cpu") 31), .call (.tick 35 (.stored _))]

/-- Windows of ten milliseconds, then of three: the change meets an empty window and is installed at once. -/
def thirded : List (ControlledCall Nat) :=
  [.call (sampleAt (str "cpu") 5), .call (.tick 10 (.stored _)), .updateConfig (resized 3),
    .call (sampleAt (str "cpu") 12),
    .call (.tick 20 (.stored _)), .call (sampleAt (str "cpu") 19), .call (.tick 21 (.stored _))]

/-- What the entry holds was admitted, and its labels were chosen, by the configuration. -/
structure MadeUnder (F : SketchImpl σ) (cfg : PrecomputeConfig) (entry : SeriesEntry σ) : Prop where
  admitted : ∀ a ∈ entry.contents, a.cfg = cfg
  labelled : ∃ key obs, entry.labels = (newEntry F key obs cfg).labels ∧
    entry.resourceLabels = (newEntry F key obs cfg).resourceLabels

theorem madeUnder_new (key : Bytes) (obs : Observation) : MadeUnder F cfg (newEntry F key obs cfg) :=
  ⟨(fun _ h => nomatch h), key, obs, rfl, rfl⟩

theorem MadeUnder.recorded {entry : SeriesEntry σ} (h : MadeUnder F cfg entry) (obs : Observation) :
    MadeUnder F cfg (recordedEntry F entry obs cfg) := by
  unfold recordedEntry
  generalize F.observe entry.sketch obs.value = r
  obtain ⟨sketch, err⟩ := r
  cases err with
  | some _ => exact ⟨h.admitted, h.labelled⟩
  | none =>
    exact ⟨forall_mem_append.mpr ⟨h.admitted, forall_mem_singleton.mpr rfl⟩, h.labelled⟩

theorem MadeUnder.merged (m : GoMap Bytes (SeriesEntry σ)) (key : Bytes) (src : SeriesEntry σ)
    (hsrc : MadeUnder F cfg src) (hm : ∀ dst, m.lookup key = some dst → MadeUnder F cfg dst) (dst : SeriesEntry σ)
    (hdst : (mergeEntry F m (key, src)).lookup key = some dst) : MadeUnder F cfg dst := by
  unfold mergeEntry at hdst
  rw [lookup_insert] at hdst
  cases hdst
  cases hl : m.lookup key with
  | none => exact ⟨hsrc.admitted, hsrc.labelled⟩
  | some dst => exact ⟨forall_mem_append.mpr ⟨(hm dst hl).admitted, hsrc.admitted⟩, (hm dst hl).labelled⟩

/-- A configuration set that arrives while the panes of a sliding window hold something changes nothing. -/
def settled (σ : Type) : Watch σ where
  rotate _ _ _ := True
  update p cs := ∀ cfg, p.cfg = some cfg → cfg.mode = .sliding → p.window.hasAccumulatedState = true →
    ∀ chosen, chooseConfig p.cfg cs = some chosen → chosen.validMatchers = true → chosen = cfg
  uncounted _ _ _ _ h := h
  degenerate _ _ _ _ := trivial

/-- Everything that is held was admitted under the active configuration, and everything that was put out was
serialized under the configuration it was admitted under. -/
structure Isolated (F : SketchImpl σ) (h : History σ) : Prop where
  idle : h.p.window.initialized = false → h.p.window.series = ∅
  series : ∀ key entry, h.p.window.series.lookup key = some entry → ∃ cfg, h.p.cfg = some cfg ∧ MadeUnder F cfg entry
  panes : ∀ pane ∈ h.p.window.panes, ∀ key entry, pane.series.lookup key = some entry →
    ∃ cfg, h.p.cfg = some cfg ∧ cfg.mode = .sliding ∧ MadeUnder F cfg entry
  staged : ∀ pending, h.p.pendingCfg = some pending → ∃ cfg, h.p.cfg = some cfg ∧ (cfg.mode = .sliding → pending = cfg)
  emitted : ∀ cfg entry env, Event.emitted cfg entry env ∈ h.p.window.log →
    (∃ startMs endMs, Serialized F cfg startMs endMs entry (.emitted cfg entry env)) ∧ MadeUnder F cfg entry

theorem isolated_new : Isolated F ({ p := new initial } : History σ) :=
  ⟨fun _ => rfl, (fun _ _ h => nomatch h), (fun _ h => nomatch h), (fun _ h => nomatch h), (fun _ _ _ h => nomatch h)⟩

variable {h : History σ}

section
variable (hs : Isolated F h)
include hs

theorem Isolated.installed {p' : Precompute σ} (hpending : p'.pendingCfg = none)
    (hseries : p'.window.series = ∅) (hnone : ∀ pane ∈ h.p.window.panes, ∀ key, pane.series.lookup key = none)
    (hpanes : p'.window.panes = h.p.window.panes) (hlog : p'.window.log = h.p.window.log) :
    Isolated F { h with p := p' } where
  idle _ := hseries
  series key entry hl := by
    rw [hseries] at hl
    cases hl
  panes pane hpane key entry hl := by
    rw [hpanes] at hpane
    rw [hnone pane hpane key] at hl
    cases hl
  staged pending hp := by
    rw [hpending] at hp
    cases hp
  emitted := by
    rw [hlog]
    exact hs.emitted

theorem Isolated.updated (cs : PrecomputeConfigSet) (hwatch : (settled σ).update h.p cs) :
    Isolated F { h with p := updateConfig h.p cs } := by
  rcases updateConfig_cases h.p cs with heq | ⟨chosen, hchosen, hvalid, ⟨⟨hsome, hstate⟩, heq⟩ | ⟨hnothing, heq⟩⟩
  all_goals rw [heq]
  · exact hs
  · refine ⟨hs.idle, hs.series, hs.panes, fun pending hp => ?_, hs.emitted⟩
    cases hp
    obtain ⟨cfg, hcfg⟩ := Option.isSome_iff_exists.mp hsome
    exact ⟨cfg, hcfg, fun hmode => hwatch cfg hcfg hmode hstate chosen hchosen hvalid⟩
  · have hseries : h.p.window.series = ∅ := by
      cases hcfg : h.p.cfg with
      | none =>
        apply ext
        refine eq_nil_iff_forall_not_mem.mpr fun e he => ?_
        obtain ⟨cfg, hno, -⟩ := hs.series e.1 e.2 (mem_lookup_iff.mpr he)
        rw [hcfg] at hno
        cases hno
      | some cfg =>
        have hno := hnothing (by rw [hcfg]; rfl)
        exact eq_empty_of_len (by simpa using (Bool.or_eq_false_iff.mp hno).1)
    refine hs.installed rfl hseries (fun pane hpane key => ?_) rfl rfl
    cases hl : pane.series.lookup key with
    | none => rfl
    | some entry =>
      obtain ⟨cfg, hcfg, -⟩ := hs.panes pane hpane key entry hl
      have hno := hnothing (by rw [hcfg]; rfl)
      have hempty := any_eq_false.mp (Bool.or_eq_false_iff.mp hno).2 pane hpane
      rw [eq_empty_of_len (m := pane.series) (by simpa using hempty)] at hl
      cases hl

theorem Isolated.activated (hempty : h.p.window.initialized = true → h.p.window.series = ∅) :
    Isolated F { h with p := activatePendingConfig h.p } := by
  rcases activatePendingConfig_cases h.p with ⟨heq, -⟩ | ⟨pending, hpending, heq⟩
  all_goals rw [heq]
  · exact hs
  · have hseries : h.p.window.series = ∅ := by
      cases hi : h.p.window.initialized with
      | true => exact hempty hi
      | false => exact hs.idle hi
    obtain ⟨cfg, hcfg, hsame⟩ := hs.staged pending hpending
    by_cases hmode : cfg.mode = .sliding
    · -- what is staged for a sliding window is the active configuration again
      cases hsame hmode
      refine ⟨hs.idle, fun key entry hl => ?_, fun pane hpane key entry hl => ?_, (fun _ h => nomatch h), hs.emitted⟩
      · obtain ⟨c, hc, hmade⟩ := hs.series key entry hl
        exact ⟨c, hcfg.symm.trans hc, hmade⟩
      · obtain ⟨c, hc, hmade⟩ := hs.panes pane hpane key entry hl
        exact ⟨c, hcfg.symm.trans hc, hmade⟩
    · refine hs.installed rfl hseries (fun pane hpane key => ?_) rfl rfl
      cases hl : pane.series.lookup key with
      | none => rfl
      | some entry =>
        obtain ⟨c, hc, hslides, -⟩ := hs.panes pane hpane key entry hl
        cases hcfg.symm.trans hc
        exact absurd hslides hmode

theorem Isolated.recorded {obs : Observation} {key : Bytes} (hcfg : h.p.cfg = some cfg)
    (hi : h.p.window.initialized = true) (accepted : List Acceptance) :
    Isolated F { h with
      p.window.series := h.p.window.series.insert key
        (recordedEntry F (h.p.window.entryFor F key obs cfg) obs cfg)
      accepted } := by
  refine ⟨fun hno => ?_, fun k entry hl => ?_, hs.panes, hs.staged, hs.emitted⟩
  · cases hi.symm.trans hno
  · by_cases hk : k = key
    · subst hk
      rw [lookup_insert] at hl
      cases hl
      refine ⟨cfg, hcfg, MadeUnder.recorded ?_ obs⟩
      unfold entryFor
      cases hl : h.p.window.series.lookup k with
      | none => exact madeUnder_new k obs
      | some entry =>
        obtain ⟨c, hc, hmade⟩ := hs.series k entry hl
        cases hcfg.symm.trans hc
        exact hmade
    · exact hs.series k entry ((lookup_insert_ne hk).symm.trans hl)

theorem Isolated.rotation (hcfg : h.p.cfg = some cfg) (nowMs : Nat)
    (ω : SeriesOrder σ) :
    (∀ entry ∈ (h.p.window.rotateLocked F nowMs cfg ω).2.entries, MadeUnder F cfg entry) ∧
      (∀ pane ∈ (h.p.window.rotateLocked F nowMs cfg ω).1.panes, ∀ key entry, pane.series.lookup key = some entry →
        cfg.mode = .sliding ∧ MadeUnder F cfg entry) ∧
      (h.p.window.rotateLocked F nowMs cfg ω).1.initialized = h.p.window.initialized ∧
      (h.p.window.rotateLocked F nowMs cfg ω).1.log = h.p.window.log := by
  have hmade : ∀ key entry, h.p.window.series.lookup key = some entry → MadeUnder F cfg entry := fun key entry hl => by
    obtain ⟨c, hc, hmade⟩ := hs.series key entry hl
    cases hcfg.symm.trans hc
    exact hmade
  have hpanes : ∀ pane ∈ h.p.window.panes, ∀ key entry, pane.series.lookup key = some entry →
      cfg.mode = .sliding ∧ MadeUnder F cfg entry := fun pane hpane key entry hl => by
    obtain ⟨c, hc, hmade⟩ := hs.panes pane hpane key entry hl
    cases hcfg.symm.trans hc
    exact hmade
  by_cases hmode : cfg.mode = .sliding
  · have hslid := @rotateLocked_slid σ F cfg hmode h.p.window nowMs ω
    have hring : ∀ pane ∈ ring cfg h.p.window, ∀ key entry, pane.series.lookup key = some entry →
        MadeUnder F cfg entry := by
      intro pane hpane key entry hl
      rcases mem_append.mp (mem_of_mem_drop hpane) with hold | hnew
      · exact (hpanes pane hold key entry hl).2
      · cases mem_singleton.mp hnew
        exact hmade key entry hl
    refine ⟨fun entry hentry => ?_, fun pane hpane key entry hl => ?_, hslid.initialized, hslid.log⟩
    · obtain ⟨key, hl⟩ := hslid.entries entry hentry
      exact mergePanes_induction (P := fun _ => MadeUnder F cfg) hring MadeUnder.merged key entry hl
    · rw [hslid.panes] at hpane
      exact ⟨hmode, hring pane hpane key entry hl⟩
  · have hrot := @rotateLocked_rotated σ F cfg hmode h.p.window nowMs ω
    refine ⟨fun entry hentry => ?_, ?_, hrot.initialized, hrot.log⟩
    · rw [hrot.entries] at hentry
      obtain ⟨src, hsrc, rfl⟩ := mem_map.mp hentry
      exact hmade src.1 src.2 (GoMap.mem_range.mp hsrc)
    · rw [hrot.panes]
      exact hpanes

theorem Isolated.rotated (hcfg : h.p.cfg = some cfg) (nowMs at_ : Nat)
    (ω : SeriesOrder σ) :
    Isolated F { h with
      p.window := (finishRotate F
        (h.p.window.rotateLocked F nowMs cfg ω).1 (h.p.window.rotateLocked F nowMs cfg ω).2 cfg at_).1
      p.pendingOutput := h.p.pendingOutput ++ (finishRotate F (h.p.window.rotateLocked F nowMs cfg ω).1
        (h.p.window.rotateLocked F nowMs cfg ω).2 cfg at_).2 } := by
  obtain ⟨hentries, hpanes, hi, hlog⟩ := hs.rotation hcfg nowMs ω
  have hempty := @series_finishRotate σ F cfg h.p.window nowMs at_ ω
  obtain ⟨hsame, evs, hlog', -, hevs⟩ := @finishRotate_writes σ F cfg (h.p.window.rotateLocked F nowMs cfg ω).1
    (h.p.window.rotateLocked F nowMs cfg ω).2 at_
  refine ⟨fun _ => hempty, fun key entry hl => ?_, fun pane hpane key entry hl => ?_, hs.staged,
    fun c entry env hev => ?_⟩
  · dsimp only at hl
    rw [hempty] at hl
    cases hl
  · obtain ⟨hmode, hmade⟩ := hpanes pane (hsame.panes ▸ hpane) key entry hl
    exact ⟨cfg, hcfg, hmode, hmade⟩
  · dsimp only at hev
    rw [hlog', hlog] at hev
    rcases mem_append.mp hev with hold | hnew
    · exact hs.emitted c entry env hold
    · obtain ⟨entry', hentry', hser⟩ := hevs _ hnew
      cases hser with
      | emitted payload hdelta => exact ⟨⟨_, _, .emitted payload hdelta⟩, hentries entry hentry'⟩

end

theorem Isolated.move {r : Bool} (hmove : Move F (settled σ) r h h') (hs : Isolated F h) : Isolated F h' := by
  cases hmove with
  | counted => exact ⟨hs.idle, hs.series, hs.panes, hs.staged, hs.emitted⟩
  | opened _ cfg timestampMs _ =>
    refine ⟨fun hno => ?_, ?_, ?_, hs.staged, ?_⟩
    · exact absurd hno (by rw [initialized_initWindow]; decide)
    · dsimp only
      rw [series_initWindow]
      exact hs.series
    · dsimp only
      rw [panes_initWindow]
      exact hs.panes
    · dsimp only
      rw [log_initWindow]
      exact hs.emitted
  | evicted _ cfg key _ _ =>
    refine ⟨fun hi => ?_, fun k entry hl => ?_, hs.panes, hs.staged, hs.emitted⟩
    · dsimp only
      rw [hs.idle hi]
      rfl
    · by_cases hk : k = key
      · subst hk
        exact absurd hl (by rw [lookup_erase]; exact fun h => nomatch h)
      · exact hs.series k entry ((lookup_erase_ne hk).symm.trans hl)
  | recorded _ cfg obs hcfg _ hi _ => exact hs.recorded hcfg hi _
  | rotated _ cfg nowMs at_ ω hcfg _ _ _ => exact hs.rotated hcfg nowMs at_ ω
  | activated _ hempty => exact hs.activated hempty
  | updated _ cs hwatch => exact hs.updated cs hwatch

/-- Every envelope that is put out was serialized from an entry, under the configuration under which the entry was
labelled and every observation in it was admitted. -/
theorem envelopes_of_one_configuration (F : SketchImpl σ) (initial : Option PrecomputeConfig)
    (calls : List (ControlledCall σ)) (hmet : (settled σ).AllMet F { p := new initial } calls) :
    (controlledRun F { p := new initial } calls).Recorded ∧
      ∀ cfg entry env, Event.emitted cfg entry env ∈ (controlledRun F { p := new initial } calls).p.window.log →
        (∃ startMs endMs, Serialized F cfg startMs endMs entry (.emitted cfg entry env)) ∧ MadeUnder F cfg entry := by
  have hs := watched_induction (fun _ _ _ => Isolated.move) hmet (isolated_new initial)
  exact ⟨watched_induction (fun _ _ _ => Recorded.move) hmet rfl, hs.emitted⟩

/-- Whether the configuration that serialized an entry, and those that filled it, send deltas. -/
def deltaSettings (log : List (Event σ)) : List (Bool × List Bool) :=
  log.filterMap fun
    | .emitted cfg entry _ => some (cfg.deltaTransmission, entry.contents.map fun a => a.cfg.deltaTransmission)
    | .closed _ _ _ => none

theorem settled_halved : (settled Nat).AllMet counter { p := new (some tenMs) } halved := by
  refine ⟨⟨rfl, fun _ _ _ => trivial⟩, fun cfg hcfg hmode => ?_, ⟨rfl, fun _ _ _ => trivial⟩,
    ⟨rfl, fun _ _ _ => trivial⟩,
    ⟨rfl, fun _ _ _ => trivial⟩, ⟨rfl, fun _ _ _ => trivial⟩, ⟨rfl, fun _ _ _ => trivial⟩, trivial⟩
  have htumbling : (controlledStep counter { p := new (some tenMs) } (.call (sampleAt (str "cpu") 12))).p.cfg.map
      PrecomputeConfig.mode = some .tumbling := by decide +kernel
  rw [hcfg, Option.map_some, hmode] at htumbling
  cases htumbling

theorem envelopes_of_one_configuration_halved :
    (∀ cfg entry env, Event.emitted cfg entry env ∈
        (controlledRun counter { p := new (some tenMs) } halved).p.window.log → MadeUnder counter cfg entry) ∧
      (deltaSettings (controlledRun counter { p := new (some tenMs) } halved).p.window.log).length = 3 :=
  ⟨fun cfg entry env hev => ((envelopes_of_one_configuration counter (some tenMs) halved settled_halved).2 cfg entry env
    hev).2, by decide +kernel⟩

def turnedOn : List (ControlledCall Nat) :=
  [.call (sampleAt (str "cpu") 5),
    .updateConfig { version := 2, configs := [{ twoPanes with deltaTransmission := true }] },
    .call (.tick 10 (.stored _)), .call (.tick 20 (.stored _))]

abbrev turnedOnRun : History Nat := controlledRun counter { p := new (some twoPanes) } turnedOn

/-- The sample was admitted when no deltas were sent. The second window is serialized by a configuration that sends
deltas, and holds it still. -/
theorem pane_outlives_configuration :
    deltaSettings turnedOnRun.p.window.log = [(false, [false]), (true, [false])] ∧
      ∃ cfg entry env, Event.emitted cfg entry env ∈ turnedOnRun.p.window.log ∧ ¬ MadeUnder counter cfg entry := by
  have hsettings : deltaSettings turnedOnRun.p.window.log = [(false, [false]), (true, [false])] := by decide +kernel
  refine ⟨hsettings, ?_⟩
  have hmem : (true, [false]) ∈ deltaSettings turnedOnRun.p.window.log := by
    rw [hsettings]
    decide
  obtain ⟨ev, hev, heq⟩ := mem_filterMap.mp hmem
  cases ev with
  | closed _ _ _ => cases heq
  | emitted cfg entry env =>
    obtain ⟨hdelta, hcontents⟩ := Prod.mk.inj (Option.some.inj heq)
    refine ⟨cfg, entry, env, hev, fun hmade => ?_⟩
    obtain ⟨a, ha, hoff⟩ := mem_map.mp (hcontents ▸ mem_singleton_self false)
    rw [hmade.admitted a ha, hdelta] at hoff
    cases hoff

end AsapCollector.Precompute
