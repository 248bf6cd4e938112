import AsapCollector.Theorems.Precompute.SubWindow

/-! What each step of a lane preserves holds of every lane at the end of every run. -/

namespace AsapCollector.Precompute

open History Precompute Guard

variable {σ : Type} {F : SketchImpl σ} {cfg : PrecomputeConfig} {G : Guard σ}

theorem ready_start (ht : Tumbling cfg) : Ready cfg (start cfg : History σ).p where
  config := by
    show (some cfg).filter PrecomputeConfig.validMatchers = some cfg
    rw [Option.filter_some, if_pos ht.valid]
  pending := rfl
  isOpen := rfl
  aligned hi := nomatch hi
  blank _ := ⟨rfl, rfl⟩
  keyed := Keyed.empty

theorem Ready.step (ht : Tumbling cfg) {h : History σ} (hr : Ready cfg h.p) :
    ∀ {c : Call σ}, G.Met h.p c → Advances F cfg G h (h.step F c)
  | .observe _ _ _, hmet | .tick _ _, hmet | .drain _, hmet => hr.quiet ht rfl hmet
  | .emitSubWindow _ _, hmet => hr.emitSubWindow ht hmet

theorem Ready.run (ht : Tumbling cfg) : ∀ {calls : List (Call σ)} {h : History σ}, Ready cfg h.p → G.AllMet F h calls →
    Advances F cfg G h (h.run F calls)
  | [], _, hr, _ => Advances.refl hr
  | _ :: _, _, hr, hmet =>
    have hstep := hr.step ht hmet.1
    hstep.trans (Ready.run ht hstep.ready hmet.2)

theorem Guard.met_free (p : Precompute σ) (c : Call σ) : free.Met p c :=
  fun _ _ _ => ⟨fun _ => trivial, fun _ => trivial⟩

theorem Guard.allMet_free (h : History σ) (calls : List (Call σ)) : free.AllMet F h calls :=
  always_of_forall (fun h c => met_free h.p c) h calls

section
variable [∀ base entry, Decidable (G.emit base entry)] [∀ base entry, Decidable (G.close base entry)]

instance (p : Precompute σ) (c : Call σ) : Decidable (G.Met p c) :=
  decidable_of_iff (∀ kv ∈ p.window.series.pairs,
      (closes p c = true → G.close (p.window.snapshotCache.outbound.lookup kv.1) kv.2) ∧
        (c.emits = true → G.emit (p.window.snapshotCache.outbound.lookup kv.1) kv.2))
    ⟨fun h _ _ hentry => h _ (GoMap.mem_pairs.mpr hentry), fun h _ hkv => h _ _ (GoMap.mem_pairs.mp hkv)⟩

end

theorem run_advances (ht : Tumbling cfg) (calls : List (Call σ)) :
    Advances F cfg .free (start cfg) ((start cfg).run F calls) :=
  (ready_start ht).run ht (allMet_free _ _)

variable {calls : List (Call σ)} {key : Bytes}

theorem run_extended (ht : Tumbling cfg) {pre : List (Call σ)} (h : pre <+: calls) :
    Advances F cfg .free ((start cfg).run F pre) ((start cfg).run F calls) := by
  obtain ⟨post, rfl⟩ := h
  have happ : (start cfg).run F (pre ++ post) = ((start cfg).run F pre).run F post := List.foldl_append
  rw [happ]
  exact (run_advances ht pre).ready.run ht (allMet_free _ _)

theorem Advances.output_perm {h : History σ} (ha : Advances F cfg G (History.start cfg) h) :
    (h.returned ++ h.p.pendingOutput).Perm (h.p.window.log.filterMap Event.envelope?) := by
  obtain ⟨evs, hlog, hperm⟩ := ha.output
  rw [hlog]
  exact hperm

theorem step_unconfigured {h : History σ} (hcfg : h.p.cfg = none) (c : Call σ) :
    (h.step F c).p.cfg = none ∧ (h.step F c).p.window.log = h.p.window.log ∧
      (h.step F c).p.window.series = h.p.window.series := by
  cases c with
  | observe obs scalar ω =>
    have honce : ∀ stats, observeOnce F (withStats h.p stats) none obs = (withStats h.p stats, some .noConfig) :=
      fun stats => by
      rw [observeOnce, show (withStats h.p stats).cfg = none from hcfg]
    dsimp only [step, observe]
    rcases observeWith_cases F h.p none scalar ω with ⟨-, heq⟩ | ⟨counted, stats, ⟨-, heq⟩ | ⟨p', hfuture, -⟩⟩
    · rw [heq]
      exact ⟨hcfg, rfl, rfl⟩
    · rw [heq, honce]
      exact ⟨hcfg, rfl, rfl⟩
    · rw [honce] at hfuture
      cases hfuture
  | tick nowMs ω =>
    dsimp only [step, tick]
    rw [hcfg]
    exact ⟨hcfg, rfl, rfl⟩
  | drain ω =>
    dsimp only [step, drain]
    rw [hcfg]
    exact ⟨hcfg, rfl, rfl⟩
  | emitSubWindow nowMs ω =>
    dsimp only [step, emitSubWindow]
    rw [hcfg]
    exact ⟨hcfg, rfl, rfl⟩

theorem run_unconfigured : ∀ (calls : List (Call σ)) {h : History σ}, h.p.cfg = none →
    (h.run F calls).p.window.log = h.p.window.log ∧ (h.run F calls).p.window.series = h.p.window.series
  | [], _, _ => ⟨rfl, rfl⟩
  | c :: calls, h, hcfg => by
    obtain ⟨hcfg', hlog, hseries⟩ := step_unconfigured (F := F) hcfg c
    obtain ⟨hlog', hseries'⟩ := run_unconfigured calls hcfg'
    exact ⟨hlog'.trans hlog, hseries'.trans hseries⟩

theorem valid_or_idle (F : SketchImpl σ) (cfg : PrecomputeConfig) (calls : List (Call σ)) :
    cfg.validMatchers = true ∨
      ((start cfg).run F calls).p.window.log = [] ∧ ((start cfg).run F calls).p.window.series = ∅ := by
  by_cases hvalid : cfg.validMatchers = true
  · exact Or.inl hvalid
  · refine Or.inr (run_unconfigured calls ?_)
    show (some cfg).filter PrecomputeConfig.validMatchers = none
    rw [Option.filter_some, if_neg hvalid]

theorem valid_of_closed {startMs : Nat} (h : ((start cfg).run F calls).Closed key startMs) :
    cfg.validMatchers = true := by
  obtain ⟨entry, endMs, hev, -⟩ := h
  refine (valid_or_idle F cfg calls).resolve_right fun hidle => ?_
  rw [hidle.1] at hev
  cases hev

theorem valid_of_live {entry : SeriesEntry σ} (h : ((start cfg).run F calls).p.window.series.lookup key = some entry) :
    cfg.validMatchers = true := by
  refine (valid_or_idle F cfg calls).resolve_right fun hidle => ?_
  rw [hidle.2] at h
  cases h

variable {P : Lane σ → Prop}

theorem kept_of_steps (hstep : ∀ l l', Lane.Step F cfg G key l l' → P l → P l') {l l' : Lane σ}
    (hsteps : Relation.ReflTransGen (Lane.Step F cfg G key) l l') (hp : P l) : P l' := by
  induction hsteps with
  | refl => exact hp
  | tail _ hs ih => exact hstep _ _ hs ih

/-- What holds of a new lane and is kept by every step that the guard allows holds of every series after
every run that meets the guard. -/
theorem guarded_induction (ht : Tumbling cfg) (hnew : P {}) (hstep : ∀ l l', Lane.Step F cfg G key l l' → P l → P l')
    (hmet : G.AllMet F (start cfg) calls) : P (((start cfg).run F calls).lane key) :=
  kept_of_steps hstep (((ready_start ht).run ht hmet).lanes key) hnew

theorem lane_induction (ht : Tumbling cfg) (key : Bytes) (hnew : P {})
    (hstep : ∀ l l', Lane.Step F cfg .free key l l' → P l → P l') (calls : List (Call σ)) :
    P (((start cfg).run F calls).lane key) :=
  guarded_induction ht hnew hstep (allMet_free _ _)

end AsapCollector.Precompute
