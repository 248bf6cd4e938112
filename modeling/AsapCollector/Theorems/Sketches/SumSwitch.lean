import AsapCollector.Theorems.Precompute.Staged
import AsapCollector.Theorems.Sketches.Sum

/-! What each window has sent stays the state of its own entry, if no base of the whole sums is left when the first
delta is computed. -/

namespace AsapCollector.Sketches

open Precompute List Event Lane History

variable {W : RationalWire} {cfg : PrecomputeConfig} {w : SumWrapper ℚ ℤ} {key : Bytes}

theorem Plain.snapshot_map (h : Plain w) : ((w.snapshot (.exact W)).map W.amount).getD 0 = (w.sum, w.count) := by
  rw [← h.snapshot (W := W)]
  cases w.snapshot (.exact W) with
  | none => exact W.amount_nil.symm
  | some payload => rfl

theorem boundaryDelta_whole (hoff : cfg.deltaTransmission = false) (base : Option Bytes) (w : SumWrapper ℚ ℤ) :
    boundaryDelta (exactSum W .new) cfg base w =
      (some ((w.snapshot (.exact W)).getD []), (w.snapshot (.exact W)).map fun payload => (payload, true)) := by
  unfold boundaryDelta
  rw [hoff]
  rfl

def wholeSums (W : RationalWire) (hoff : cfg.deltaTransmission = false) :
    Ledger (exactSum W .new) cfg .free Unit (ℚ × ℤ) where
  start := ()
  meter _ v := ((), W.worth v)
  value payload := W.amount payload.1
  readable _ := True
  owes _ w _ m := Plain w ∧ m = (w.sum, w.count)
  idle _ := True
  left _ _ m := m = 0
  idle_none := trivial
  opened _ _ := by
    rw [newSketch_exactSum]
    exact ⟨plain_new, rfl⟩
  observed base w _ m v howes := by
    rcases @observe_exactSum W .new w v with h | hrefused
    · obtain ⟨hplain, hsum, hcount⟩ := howes.1.update (W := W) (W.worth v).1
      refine Or.inr ⟨_, h, hplain, ?_⟩
      rw [howes.2, hsum, hcount]
      rfl
    · exact Or.inl hrefused
  emitted _ _ _ _ _ hdelta _ := absurd hdelta (by rw [hoff]; decide)
  closed base entry _ m howes _ := by
    rw [boundaryDelta_whole hoff]
    refine ⟨trivial, fun _ _ => trivial, 0, ?_, rfl⟩
    rw [howes.2, add_zero, ← howes.1.snapshot_map (W := W), Option.map_map]
    rfl

def subtracted (W : RationalWire) (cfg : PrecomputeConfig) (base : Option Bytes) : ℚ × ℤ :=
  if cfg.deltaTransmission then W.held base else 0

theorem Plain.boundary (h : Plain w) (hgos : cfg.gosDeltaEpsilon.le ⟨0⟩ = true) (base : Option Bytes) :
    ((boundaryDelta (exactSum W .new) cfg base w).2.map fun p => W.amount p.1).getD 0 + subtracted W cfg base =
      (w.sum, w.count) := by
  cases hdelta : cfg.deltaTransmission with
  | false =>
    rw [boundaryDelta_whole hdelta, subtracted, hdelta, if_neg (by decide), add_zero, ← h.snapshot_map (W := W),
      Option.map_map]
    rfl
  | true =>
    obtain ⟨-, -, hsum⟩ := @Plain.emitted W .new _ cfg h hgos base
    rw [boundaryDelta_exactSum _ _ _ _ hdelta, subtracted, hdelta, if_pos rfl, ← hsum, subWindowDelta_exactSum]
    cases base <;> rfl

def total (W : RationalWire) (envs : List SketchEnvelope) : ℚ × ℤ := (envs.map fun env => W.amount env.payload).sum

theorem total_append_singleton (envs : List SketchEnvelope) (env : SketchEnvelope) :
    total W (envs ++ [env]) = total W envs + W.amount env.payload := by
  simp [total]

/-- With each envelope the payloads of its window add up to the entry it was made of, and the next payload leaves out
what has been sent. -/
structure Trail (W : RationalWire) (cfg : PrecomputeConfig) (l : Lane (SumWrapper ℚ ℤ)) : Prop where
  past : ∀ pre c e env, pre ++ [emitted c e env] <+: l.log →
    total W (emissionsIn (pre ++ [.emitted c e env]) env.windowStartMs) = (e.sketch.sum, e.sketch.count)
  live : ∀ e, l.live = some e → total W (l.emissions l.startMs) = subtracted W cfg l.base

structure Kept (W : RationalWire) (cfg : PrecomputeConfig) (l : Lane (SumWrapper ℚ ℤ)) : Prop where
  plain : ∀ e, l.live = some e → Plain e.sketch
  idle : l.live = none → subtracted W cfg l.base = 0
  fresh : l.live = none → l.emissions l.startMs = []

variable {entry : Precompute.SeriesEntry (SumWrapper ℚ ℤ)} {l : Lane (SumWrapper ℚ ℤ)}

theorem Trail.snoc (h : Trail W cfg l) (log : List (Event (SumWrapper ℚ ℤ)))
    (hlog : ∀ pre c e env, pre ++ [emitted c e env] <+: log → pre ++ [emitted c e env] <+: l.log)
    (hemissions : emissionsIn log l.startMs = l.emissions l.startMs) (hlive : l.live = some entry)
    (env : SketchEnvelope) (hstart : env.windowStartMs = l.startMs)
    (hamount : W.amount env.payload + subtracted W cfg l.base = (entry.sketch.sum, entry.sketch.count)) :
    (∀ pre c e env', pre ++ [emitted c e env'] <+: log ++ [.emitted cfg entry env] →
      total W (emissionsIn (pre ++ [.emitted c e env']) env'.windowStartMs) = (e.sketch.sum, e.sketch.count)) ∧
      total W (emissionsIn (log ++ [.emitted cfg entry env]) l.startMs) = (entry.sketch.sum, entry.sketch.count) := by
  have hnew : total W (emissionsIn (log ++ [.emitted cfg entry env]) l.startMs) = (entry.sketch.sum,
      entry.sketch.count) := by
    rw [emissionsIn_append, emissionsIn_emitted, if_pos hstart, total_append_singleton, hemissions, h.live entry hlive,
      add_comm]
    exact hamount
  refine ⟨fun pre c e env' hpre => ?_, hnew⟩
  rcases prefix_concat_iff.mp hpre with heq | hpre
  · obtain ⟨rfl, hev⟩ := append_inj' heq rfl
    cases hev
    rw [hstart]
    exact hnew
  · exact h.past pre c e env' (hlog pre c e env' hpre)

theorem Trail.record (h : Trail W cfg l) (hk : Kept W cfg l) (e : Precompute.SeriesEntry (SumWrapper ℚ ℤ))
    (accepted : List Acceptance) : Trail W cfg { l with live := some e, accepted } := by
  refine ⟨h.past, fun _ _ => ?_⟩
  show total W (l.emissions l.startMs) = subtracted W cfg l.base
  cases hl : l.live with
  | some e => exact h.live e hl
  | none =>
    rw [hk.fresh hl, hk.idle hl]
    rfl

section
variable (hgos : cfg.gosDeltaEpsilon.le ⟨0⟩ = true)
include hgos

theorem Trail.emit (h : Trail W cfg l) (hk : Kept W cfg l)
    (hlive : l.live = some entry) (hdelta : cfg.deltaTransmission = true) :
    Trail W cfg (l.emit (exactSum W .new) cfg entry) := by
  have hsub : ∀ base, subtracted W cfg base = W.held base := fun base => if_pos hdelta
  obtain ⟨hsame, hheld, hsum⟩ := @Plain.emitted W .new _ cfg (hk.plain entry hlive) hgos l.base
  unfold Lane.emit
  generalize subWindowDelta (exactSum W .new) cfg l.base entry.sketch = d at hsame hheld hsum ⊢
  obtain ⟨base, sketch, _ | payload⟩ := d
  · refine ⟨h.past, fun _ _ => ?_⟩
    show total W (l.emissions l.startMs) = subtracted W cfg base
    rw [h.live entry hlive, hsub, hsub]
    exact (zero_add _).symm.trans (hsum.trans hheld.symm)
  · obtain ⟨hpast, hnew⟩ := h.snoc l.log (fun _ _ _ _ hpre => hpre) rfl hlive
      (subWindowEnvelope cfg entry l.startMs (l.startMs + cfg.windowSizeMs) payload) rfl (by rw [hsub]; exact hsum)
    refine ⟨hpast, fun _ _ => ?_⟩
    show total W (emissionsIn (l.log ++ _) l.startMs) = subtracted W cfg base
    rw [hnew, hsub]
    exact hheld.symm

theorem Trail.close (h : Trail W cfg l)
    (hk : Kept W cfg l) (hlive : l.live = some entry) (next : Nat) :
    Trail W cfg (l.close (exactSum W .new) cfg entry next) := by
  have hsum := @Plain.boundary W cfg _ (hk.plain entry hlive) hgos l.base
  refine ⟨?_, fun _ h => absurd h nofun⟩
  unfold Lane.close Lane.boundaryEvents
  generalize boundaryDelta (exactSum W .new) cfg l.base entry.sketch = d at hsum ⊢
  obtain ⟨base, payload⟩ := d
  -- a closing note by itself adds no envelope
  have hnote : ∀ pre c e env, pre ++ [emitted c e env] <+:
      l.log ++ [.closed entry l.startMs (l.startMs + cfg.windowSizeMs)] → pre ++ [emitted c e env] <+: l.log := by
    intro pre c e env hpre
    rcases prefix_concat_iff.mp hpre with heq | hpre
    · cases (append_inj' heq rfl).2
    · exact hpre
  cases payload with
  | none => exact fun pre c e env hpre => h.past pre c e env (hnote pre c e env hpre)
  | some payload =>
    have hemissions : emissionsIn (l.log ++ [closed entry l.startMs (l.startMs + cfg.windowSizeMs)]) l.startMs =
        l.emissions l.startMs := by
      rw [emissionsIn_append]
      exact append_nil _
    have hsnoc := (h.snoc _ hnote hemissions hlive
      (boundaryEnvelope (exactSum W .new) cfg entry l.startMs (l.startMs + cfg.windowSizeMs) payload) rfl hsum).1
    rw [append_assoc] at hsnoc
    exact hsnoc

theorem Trail.step {l l' : Lane (SumWrapper ℚ ℤ)}
    (hs : Step (exactSum W .new) cfg .free key l l') (hk : Kept W cfg l) (h : Trail W cfg l) : Trail W cfg l' := by
  cases hs with
  | accept obs _ _ _ _ _ => exact h.record hk _ _
  | refuse obs _ _ _ => exact h.record hk _ _
  | emit entry hlive hdelta _ _ => exact h.emit hgos hk hlive hdelta
  | close entry next hlive _ _ => exact h.close hgos hk hlive next
  | pass next hlive _ => exact ⟨h.past, fun e he => nomatch hlive.symm.trans he⟩
  | forget hlive => exact ⟨h.past, fun e he => nomatch hlive.symm.trans he⟩

end

def switched (cfg : PrecomputeConfig) : PrecomputeConfig := { cfg with deltaTransmission := true }

structure Books {cfg : PrecomputeConfig} (L : Ledger (exactSum W .new) cfg .free Unit (ℚ × ℤ)) (key : Bytes)
    (l : Lane (SumWrapper ℚ ℤ)) : Prop where
  tally : Tally cfg key l
  balanced : L.Balanced l
  trail : Trail W cfg l

theorem books_new (L : Ledger (exactSum W .new) cfg .free Unit (ℚ × ℤ)) (key : Bytes) : Books L key {} where
  tally := .new
  balanced := L.balanced_new
  trail := ⟨fun pre c e env h => absurd (prefix_nil.mp h) (by simp), fun _ h => absurd h nofun⟩

variable {L : Ledger (exactSum W .new) cfg .free Unit (ℚ × ℤ)}

theorem Books.step (hgos : cfg.gosDeltaEpsilon.le ⟨0⟩ = true)
    (howes : ∀ base w p m, L.owes base w p m → Plain w) (hidle : ∀ base, L.idle base → subtracted W cfg base = 0)
    {l l' : Lane (SumWrapper ℚ ℤ)} (hs : Step (exactSum W .new) cfg .free key l l') (h : Books L key l) :
    Books L key l' where
  tally := h.tally.step hs
  balanced := h.balanced.step hs h.tally
  trail := by
    refine h.trail.step hgos hs ⟨fun e he => ?_, fun hl => hidle _ (h.balanced.idle hl),
      fun hl => h.balanced.emissions_eq_nil hl (Nat.le_refl _)⟩
    obtain ⟨m, hm, -⟩ := h.balanced.live e he
    exact howes _ _ _ m hm

section
variable (hoff : cfg.deltaTransmission = false) (hgos : cfg.gosDeltaEpsilon.le ⟨0⟩ = true)
  (hseg : cfg.sketchType ≠ .kllSketch)

def switchedSums (W : RationalWire) : Ledger (exactSum W .new) (switched cfg) .free Unit (ℚ × ℤ) :=
  @plainSums (switched cfg) W hgos hseg rfl

theorem Books.handover (hlive : l.live = none) (h : Books (wholeSums W hoff) key l) :
    Books (switchedSums hgos hseg W) key { l with base := none } where
  tally := ⟨h.tally.key, h.tally.range, h.tally.started, h.tally.live, h.tally.closed, h.tally.covered,
    h.tally.distinct⟩
  balanced := ⟨h.balanced.emittedBy, fun c e env hev => ⟨(h.balanced.sent c e env hev).windowEnd, trivial⟩,
    (fun _ he => nomatch hlive.symm.trans he), fun _ => rfl, h.balanced.closed⟩
  trail := ⟨h.trail.past, fun _ he => nomatch hlive.symm.trans he⟩

/-- What was sent tells the sums. -/
structure Reconstructed (W : RationalWire) (h : History (SumWrapper ℚ ℤ)) : Prop where
  /-- What the envelopes of a closed window add up to is the sum and the number of its observations. -/
  windows : ∀ key startMs, h.Closed key startMs →
    total W (h.emissions key startMs) = ((h.admissions key startMs).map fun obs => W.worth obs.value).sum
  /-- With each envelope, what its window has sent is the state of the entry the envelope was made of. -/
  payloads : ∀ pre c e env, pre ++ [emitted c e env] <+: h.p.window.log →
    total W ((pre ++ [emitted c e env]).filterMap (emissionOf? e.seriesKey env.windowStartMs)) =
      (e.sketch.sum, e.sketch.count)

theorem emissionsIn_filter_key (log : List (Event (SumWrapper ℚ ℤ))) (key : Bytes) (s : Nat) :
    emissionsIn (log.filter fun ev => ev.key = key) s = log.filterMap (emissionOf? key s) := by
  unfold emissionsIn
  rw [filterMap_filter]
  congr 1
  funext ev
  cases ev with
  | closed e a b => simp [emissionOf?]
  | emitted c e env => by_cases hk : e.seriesKey = key <;> simp [Event.emissionOf?, Event.key, hk]

theorem reconstructed_of_books
    (hmeter : L.meter = fun _ v => ((), W.worth v)) (hvalue : ∀ payload, L.value payload = W.amount payload.1)
    (hleft : ∀ w p m, L.left w p m → m = 0)
    {h : History (SumWrapper ℚ ℤ)} (hb : ∀ key, Books L key (h.lane key)) : Reconstructed W h where
  windows key startMs hclosed := by
    obtain ⟨e, t, hev, rfl⟩ := hclosed
    obtain ⟨m, hm, hsum⟩ := (hb e.seriesKey).balanced.closed e startMs t (mem_filter.mpr ⟨hev, decide_eq_true rfl⟩)
    rw [hleft _ _ m hm, add_zero, emissions_lane, admissions_lane] at hsum
    have hshipped : L.shipped (h.emissions e.seriesKey startMs) = total W (h.emissions e.seriesKey startMs) :=
      congrArg (fun f => (map f _).sum) (funext fun env => hvalue _)
    rw [← hshipped, hsum]
    unfold Ledger.admitted
    rw [hmeter]
    exact metered_const W.worth _
  payloads pre c e env hpre := by
    have hlane := hpre.filter fun ev => ev.key = e.seriesKey
    rw [filter_append] at hlane
    have hself : filter (fun ev => decide (key ev = e.seriesKey)) [emitted c e env] = [.emitted c e env] :=
      filter_cons_of_pos (by exact decide_eq_true rfl)
    rw [hself] at hlane
    have hpast := (hb e.seriesKey).trail.past _ c e env hlane
    rw [← emissionsIn_filter_key, filter_append, hself]
    exact hpast

end

def wholeSum : PrecomputeConfig := { deltaSum with deltaTransmission := false }

def deltasOn : PrecomputeConfigSet := { version := 2, configs := [deltaSum] }

def switchRun (before after : List (Call (SumWrapper ℚ ℤ))) : History (SumWrapper ℚ ℤ) :=
  (((start wholeSum).run (exactSum unaryWire .new) before).controlledStep (exactSum unaryWire .new)
    (.updateConfig deltasOn)).run (exactSum unaryWire .new) after

/-- The switch finds no open window, and the whole sum of the last one in the cache. -/
def switchedBetween : History (SumWrapper ℚ ℤ) :=
  switchRun [addAt 3 12, .drain (.stored _)] [addAt 5 21, .drain (.stored _)]

end AsapCollector.Sketches
