import AsapCollector.Frame.Protocol
import AsapCollector.Theorems.Frame.Seal

/-! Every call is a sequence of single steps (`Emits`). The frames of a run are chained (`Chained`): in each lineage
they are numbered from one, the first is full, and a delta names the checkpoint in force. -/

namespace AsapCollector.FrameSequencer

open List FrameSequencer

open SummaryFrameIdentity

structure Step (s : FrameSequencer) (f : SummaryFrameIdentity) (t : FrameSequencer) : Prop where
  planID : f.planID ≠ 0
  planVersion : f.planVersion ≠ 0
  materialization : f.materialization ≠ 0
  seriesIdentity : f.seriesIdentity ≠ []
  producerID : f.producerID ≠ []
  producerEpoch : f.producerEpoch ≠ []
  sequence : f.sequence = (s.state f.lineage).sequence + 1
  first : f.sequence = 1 → f.kind = .full
  full : f.kind = .full → f.checkpointID ≠ []
  delta : f.kind = .delta → f.baseCheckpointID = (s.state f.lineage).checkpointID
  sequence_after : (t.state f.lineage).sequence = f.sequence
  checkpoint_after : (t.state f.lineage).checkpointID = f.checkpoint
  others : ∀ key, key ≠ f.lineage → t.state key = s.state key

@[simp] theorem state_insert_self (s : FrameSequencer) (key : FrameLineageKey) (st : FrameLineageState) :
    state ⟨s.lineages.insert key st⟩ key = st := GoMap.get_insert_self _ _ _ _

variable {s t : FrameSequencer} {key : FrameLineageKey} {epoch : Bytes} {fs : List SummaryFrameIdentity}

theorem state_insert_of_ne {key' : FrameLineageKey} (h : key' ≠ key) (st : FrameLineageState) :
    state ⟨s.lineages.insert key st⟩ key' = s.state key' :=
  GoMap.get_insert_of_ne h

variable {rule : TransmissionRule} {plan : CollectorPlan}

theorem emit_step (s : FrameSequencer) {series : Bytes} (windowStart windowEnd : UInt64) {now : UInt64} {full : Bool}
    (hplan : plan.envelope.planID ≠ 0) (hversion : plan.envelope.planVersion ≠ 0) (hmat : rule.materialization ≠ 0)
    (hproducer : rule.producerID ≠ []) (hepoch : epoch ≠ []) (hseries : series ≠ [])
    (hfull : fullRequired rule (s.state (lineageKey plan rule epoch series)) now = true → full = true) :
    Step s (s.emit plan rule epoch series windowStart windowEnd now full).2
      (s.emit plan rule epoch series windowStart windowEnd now full).1 where
  planID := hplan
  planVersion := hversion
  materialization := hmat
  seriesIdentity := hseries
  producerID := hproducer
  producerEpoch := hepoch
  sequence := by cases full <;> rfl
  first h := by
    have hone : (s.state (lineageKey plan rule epoch series)).sequence + 1 = 1 := by cases full <;> exact h
    simp [emit, hfull (by simp [fullRequired, hone])]
  full h := by
    cases full with
    | true => exact checkpointName_ne_nil _ _ _ _
    | false => cases h
  delta h := by
    cases full with
    | true => cases h
    | false => rfl
  sequence_after := by
    simp only [emit, lineage]
    rw [show (⟨_, _, _, _, _, _⟩ : FrameLineageKey) = lineageKey plan rule epoch series from rfl, state_insert_self]
  checkpoint_after := by
    simp only [emit, lineage]
    rw [show (⟨_, _, _, _, _, _⟩ : FrameLineageKey) = lineageKey plan rule epoch series from rfl, state_insert_self]
    cases full <;> rfl
  others key hkey := state_insert_of_ne hkey _

variable {f : SummaryFrameIdentity}

theorem next_step {series : Bytes} {windowStart windowEnd now : UInt64} {emittedFull : Option Bool}
    (hplan : plan.envelope.planID ≠ 0) (hversion : plan.envelope.planVersion ≠ 0) (hmat : rule.materialization ≠ 0)
    (hproducer : rule.producerID ≠ [])
    (h : s.next plan rule epoch series windowStart windowEnd now emittedFull = .ok (t, f)) :
    Step s f t := by
  obtain ⟨hepoch, hseries, -, -, -, hrequired, heq⟩ := next_eq_ok.mp h
  have hfull : fullRequired rule (s.state (lineageKey plan rule epoch series)) now = true →
      emittedFull.getD (fullRequired rule (s.state (lineageKey plan rule epoch series)) now) = true := by
    intro hr
    rcases emittedFull with _ | _ | _
    · exact hr
    · exact absurd rfl (hrequired hr)
    · rfl
  have hstep := emit_step s windowStart windowEnd hplan hversion hmat hproducer hepoch hseries hfull
  rwa [heq] at hstep

/-- The sequencer goes from one state to another by emitting the given frames. -/
inductive Emits : FrameSequencer → List SummaryFrameIdentity → FrameSequencer → Prop
  | nil (s : FrameSequencer) : Emits s [] s
  | snoc {s t u : FrameSequencer} {fs : List SummaryFrameIdentity} {f : SummaryFrameIdentity}
      (run : Emits s fs t) (step : Step t f u) : Emits s (fs ++ [f]) u

theorem Emits.single (h : Step s f t) : Emits s [f] t :=
  .snoc (.nil s) h

theorem Emits.trans {u : FrameSequencer} {gs : List SummaryFrameIdentity} (h₁ : Emits s fs t) (h₂ : Emits t gs u) :
    Emits s (fs ++ gs) u := by
  induction h₂ with
  | nil => rwa [append_nil]
  | snoc _ step ih =>
    rw [← append_assoc]
    exact .snoc ih step

theorem nextBatch_emits (hplan : plan.envelope.planID ≠ 0) (hversion : plan.envelope.planVersion ≠ 0)
    (hmat : rule.materialization ≠ 0) (hproducer : rule.producerID ≠ []) :
    ∀ {es : List FrameEmission} {s t : FrameSequencer} {fs : List SummaryFrameIdentity},
      s.nextBatchForEmission plan rule epoch es = .ok (t, fs) → Emits s fs t := by
  intro es
  induction es with
  | nil =>
    intro s t fs h
    obtain ⟨rfl, rfl⟩ := Prod.mk.inj (Except.ok.inj h)
    exact .nil s
  | cons e es ih =>
    intro s t fs h
    obtain ⟨u, f, gs, hone, hrest, rfl⟩ := nextBatchForEmission_cons.mp h
    exact (Emits.single (next_step hplan hversion hmat hproducer hone)).trans (ih hrest)

theorem call_emits (s : FrameSequencer) {c : SequencerCall} (hc : c.Planned) : Emits s (s.call c).2 (s.call c).1 := by
  obtain ⟨hplan, hversion, hmat, hproducer⟩ := hc
  cases c with
  | next plan rule epoch series windowStart windowEnd now =>
    simp only [call]
    split
    · next h => exact .single (next_step hplan hversion hmat hproducer h)
    · exact .nil s
  | nextForEmission plan rule epoch e =>
    simp only [call]
    split
    · next h => exact .single (next_step hplan hversion hmat hproducer h)
    · exact .nil s
  | nextBatchForEmission plan rule epoch es =>
    simp only [call]
    split
    · next h => exact nextBatch_emits hplan hversion hmat hproducer h
    · exact .nil s

theorem emitted_emits : ∀ (cs : List SequencerCall) (s : FrameSequencer), (∀ c ∈ cs, c.Planned) →
    ∃ t, Emits s (s.emitted cs) t := by
  intro cs
  induction cs with
  | nil => exact fun s _ => ⟨s, .nil s⟩
  | cons c cs ih =>
    intro s hcs
    obtain ⟨t, ht⟩ := ih (s.call c).1 fun c' hc' => hcs c' (mem_cons_of_mem _ hc')
    exact ⟨t, (call_emits s (hcs c mem_cons_self)).trans ht⟩

/-- `g`, at place `j`, is the last frame of the lineage `key` among the frames before place `n`. -/
structure LastBefore (fs : List SummaryFrameIdentity) (key : FrameLineageKey) (n j : Nat)
    (g : SummaryFrameIdentity) : Prop where
  lt : j < n
  get : fs[j]? = some g
  lineage : g.lineage = key
  last : ∀ k h, j < k → k < n → fs[k]? = some h → h.lineage ≠ key

/-- The sequencer's state after the frames `fs`: each lineage's count and checkpoint in force. -/
structure Tracks (fs : List SummaryFrameIdentity) (s : FrameSequencer) : Prop where
  count : ∀ key, (s.state key).sequence = UInt64.ofNat (fs.countP fun f => f.lineage = key)
  last : ∀ {key : FrameLineageKey} {j : Nat} {g : SummaryFrameIdentity}, LastBefore fs key fs.length j g →
    (s.state key).sequence = g.sequence ∧ (s.state key).checkpointID = g.checkpoint

structure Placed (fs : List SummaryFrameIdentity) (i : Nat) (f : SummaryFrameIdentity) : Prop where
  rank : f.sequence = UInt64.ofNat ((fs.take i).countP (fun g => g.lineage = f.lineage) + 1)
  first : f.sequence = 1 → f.kind = .full
  next : ∀ {j : Nat} {g : SummaryFrameIdentity}, LastBefore fs f.lineage i j g →
    f.sequence = g.sequence + 1 ∧ (f.kind = .delta → f.baseCheckpointID = g.checkpoint)
  full : f.kind = .full → f.checkpointID ≠ []
  named : f.sequence ≠ 0 → f.Addressed

/-- Each lineage's frames are numbered from one, its first frame is full, and each later one
continues its predecessor. -/
def Chained (fs : List SummaryFrameIdentity) : Prop := ∀ i f, fs[i]? = some f → Placed fs i f

theorem getElem?_snoc {α : Type} {fs : List α} {f g : α} {i : Nat} (h : (fs ++ [f])[i]? = some g) :
    (i < fs.length ∧ fs[i]? = some g) ∨ (i = fs.length ∧ g = f) := by
  rcases Nat.lt_trichotomy i fs.length with hlt | heq | hgt
  · exact .inl ⟨hlt, by rwa [getElem?_append_left hlt] at h⟩
  · refine .inr ⟨heq, ?_⟩
    rw [heq, getElem?_concat_length] at h
    exact (Option.some.inj h).symm
  · rw [getElem?_eq_none (by simp; omega)] at h
    cases h

theorem LastBefore.of_snoc {f g : SummaryFrameIdentity} {n j : Nat} (hn : n ≤ fs.length)
    (h : LastBefore (fs ++ [f]) key n j g) : LastBefore fs key n j g where
  lt := h.lt
  get := by
    have hget := h.get
    rwa [getElem?_append_left (Nat.lt_of_lt_of_le h.lt hn)] at hget
  lineage := h.lineage
  last k f' hk hkn hf' := h.last k f' hk hkn (by
    rw [getElem?_append_left (Nat.lt_of_lt_of_le hkn hn)]
    exact hf')

theorem Tracks.snoc (h : Tracks fs s) (step : Step s f t) : Tracks (fs ++ [f]) t where
  count key := by
    rw [countP_append]
    by_cases hkey : key = f.lineage
    · subst hkey
      rw [step.sequence_after, step.sequence, h.count, countP_singleton]
      simp
    · rw [step.others key hkey, h.count, countP_singleton]
      simp [Ne.symm hkey]
  last {key j g} hlast := by
    rcases getElem?_snoc hlast.get with ⟨hj, hget⟩ | ⟨-, rfl⟩
    · -- the last frame is an old one, so the new frame is of another lineage
      have hne : f.lineage ≠ key :=
        hlast.last fs.length f hj (by simp) getElem?_concat_length
      rw [step.others key hne.symm]
      exact h.last ⟨hj, hget, hlast.lineage, fun k f' hk hkn hf' =>
        hlast.last k f' hk (by simp; omega) (by rwa [getElem?_append_left hkn])⟩
    · rw [← hlast.lineage]
      exact ⟨step.sequence_after, step.checkpoint_after⟩

theorem Chained.snoc (h : Chained fs) (tracks : Tracks fs s) (step : Step s f t) : Chained (fs ++ [f]) := by
  intro i g hg
  rcases getElem?_snoc hg with ⟨hi, hget⟩ | ⟨rfl, rfl⟩
  · have old := h i g hget
    refine ⟨?_, old.first, fun hlast => old.next (hlast.of_snoc (Nat.le_of_lt hi)), old.full, old.named⟩
    rw [take_append_of_le_length (Nat.le_of_lt hi)]
    exact old.rank
  · refine ⟨?_, step.first, fun hlast => ?_, step.full, fun hseq => ?_⟩
    · rw [take_left, step.sequence, tracks.count, UInt64.ofNat_add]
      rfl
    · obtain ⟨hsequence, hcheckpoint⟩ := tracks.last (hlast.of_snoc (Nat.le_refl _))
      exact ⟨by rw [step.sequence, hsequence], fun hk => by rw [step.delta hk, hcheckpoint]⟩
    · exact ⟨step.planID, step.planVersion, step.materialization, hseq, step.seriesIdentity, step.producerID,
        step.producerEpoch⟩

theorem Emits.chained (h : Emits {} fs t) : Tracks fs t ∧ Chained fs := by
  induction h with
  | nil => exact ⟨⟨fun _ => rfl, fun hlast => absurd hlast.lt (Nat.not_lt_zero _)⟩, fun i f hf => by simp at hf⟩
  | snoc _ step ih => exact ⟨ih.1.snoc step, ih.2.snoc ih.1 step⟩

theorem exists_lastBefore {n : Nat} (h : ∃ j g, j < n ∧ fs[j]? = some g ∧ g.lineage = key) :
    ∃ j g, LastBefore fs key n j g := by
  induction n with
  | zero =>
    obtain ⟨j, -, hj, -⟩ := h
    exact absurd hj (Nat.not_lt_zero j)
  | succ n ih =>
    by_cases hn : ∃ g, fs[n]? = some g ∧ g.lineage = key
    · obtain ⟨g, hg, hkey⟩ := hn
      exact ⟨n, g, Nat.lt_succ_self n, hg, hkey, fun k _ hk hkn => absurd hkn (by omega)⟩
    · have hne : ∀ k f, k = n → fs[k]? = some f → f.lineage ≠ key := fun k f hk hf hkey => hn ⟨f, hk ▸ hf, hkey⟩
      obtain ⟨j, g, hj, hg, hkey⟩ := h
      have hjn : j ≠ n := fun heq => hne j g heq hg hkey
      obtain ⟨j, g, hlast⟩ := ih ⟨j, g, by omega, hg, hkey⟩
      refine ⟨j, g, by have := hlast.lt; omega, hlast.get, hlast.lineage, fun k f hk hkn hf => ?_⟩
      by_cases hkn' : k = n
      · exact hne k f hkn' hf
      · exact hlast.last k f hk (by omega) hf

theorem Chained.of_first (h : Chained fs) {i : Nat} (hf : fs[i]? = some f)
    (hnone : ∀ j g, j < i → fs[j]? = some g → g.lineage ≠ f.lineage) : f.sequence = 1 ∧ f.kind = .full := by
  have hcount : (fs.take i).countP (fun g => g.lineage = f.lineage) = 0 := by
    rw [countP_eq_zero]
    intro g hg
    obtain ⟨j, hj⟩ := mem_iff_getElem?.mp hg
    rw [getElem?_take] at hj
    split at hj
    · next hlt => simpa using hnone j g hlt hj
    · cases hj
  have hone : f.sequence = 1 := by
    rw [(h i f hf).rank, hcount]
    rfl
  exact ⟨hone, (h i f hf).first hone⟩

theorem Chained.checkpoint_eq (h : Chained fs) :
    ∀ (i : Nat) (f : SummaryFrameIdentity), fs[i]? = some f → ∃ j g, j ≤ i ∧ fs[j]? = some g ∧
      g.lineage = f.lineage ∧ g.kind = .full ∧ f.checkpoint = g.checkpointID ∧
      ∀ k e, j < k → k ≤ i → fs[k]? = some e → e.lineage = f.lineage → e.kind = .delta := by
  intro i
  induction i using Nat.strongRecOn with
  | ind i ih =>
    intro f hf
    cases hkind : f.kind with
    | full =>
      exact ⟨i, f, Nat.le_refl i, hf, rfl, hkind, by simp [checkpoint, hkind],
        fun k e hk hki => absurd hki (by omega)⟩
    | delta =>
      -- a delta is not its lineage's first frame, so it takes the checkpoint over from a predecessor
      have hpred : ∃ j g, j < i ∧ fs[j]? = some g ∧ g.lineage = f.lineage := by
        by_contra hno
        push Not at hno
        have := (h.of_first hf hno).2
        rw [hkind] at this
        cases this
      obtain ⟨p, q, hlast⟩ := exists_lastBefore hpred
      obtain ⟨j, g, hj, hg, hlineage, hfull, hcheckpoint, hdelta⟩ := ih p hlast.lt q hlast.get
      have hbase : f.checkpoint = q.checkpoint := by
        simpa [checkpoint, hkind] using ((h i f hf).next hlast).2 hkind
      refine ⟨j, g, by have := hlast.lt; omega, hg, hlineage.trans hlast.lineage, hfull, hbase.trans hcheckpoint, ?_⟩
      intro k e hk hki he hlin
      rcases Nat.lt_trichotomy k p with hlt | rfl | hgt
      · exact hdelta k e hk (Nat.le_of_lt hlt) he (hlin.trans hlast.lineage.symm)
      · exact hdelta k e hk (Nat.le_refl k) he (hlin.trans hlast.lineage.symm)
      · rcases Nat.lt_or_eq_of_le hki with hlt | rfl
        · exact absurd hlin (hlast.last k e hgt hlt he)
        · rw [he] at hf
          rwa [Option.some.inj hf]

theorem emitted_chained {cs : List SequencerCall} (hcs : ∀ c ∈ cs, c.Planned) :
    Chained (emitted {} cs) := by
  obtain ⟨t, ht⟩ := emitted_emits cs {} hcs
  exact ht.chained.2

end AsapCollector.FrameSequencer
