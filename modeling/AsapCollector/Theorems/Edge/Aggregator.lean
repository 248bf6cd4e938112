import AsapCollector.Edge.Processor
import AsapCollector.Theorems.Edge.Sources

/-! Under one plan the sequencer of an aggregator numbers each lineage upwards, and a new plan has a higher version, so
no identity is attached twice; each is that of a sample consumed under the same plan. -/

namespace AsapCollector

open List FrameSequencer

/-- What identifies a frame to its receiver: its lineage and its sequence number. -/
def SummaryFrameIdentity.identity (f : SummaryFrameIdentity) : FrameLineageKey × UInt64 := (f.lineage, f.sequence)

namespace FrameSequencer

structure Numbers (s : FrameSequencer) (plan : CollectorPlan) (series : Bytes) (f : SummaryFrameIdentity)
    (t : FrameSequencer) : Prop where
  version : f.planVersion = plan.envelope.planVersion
  series : f.seriesIdentity = series
  sequence : f.sequence = (s.state f.lineage).sequence + 1
  after : (t.state f.lineage).sequence = f.sequence
  others : ∀ key, key ≠ f.lineage → t.state key = s.state key

theorem emit_numbers (s : FrameSequencer) (plan : CollectorPlan) (rule : TransmissionRule)
    (epoch series : Bytes) (windowStart windowEnd now : UInt64) (full : Bool) :
    Numbers s plan series (s.emit plan rule epoch series windowStart windowEnd now full).2
      (s.emit plan rule epoch series windowStart windowEnd now full).1 where
  version := rfl
  series := rfl
  sequence := by cases full <;> rfl
  after := by
    show (state ⟨s.lineages.insert (lineageKey plan rule epoch series) _⟩
      (lineageKey plan rule epoch series)).sequence = _
    rw [state, GoMap.get_insert_self]
    rfl
  others key hkey := GoMap.get_insert_of_ne hkey

variable {s t : FrameSequencer} {f : SummaryFrameIdentity}

theorem nextForEmission_numbers {plan : CollectorPlan} {rule : TransmissionRule} {epoch : Bytes}
    {e : FrameEmission} (h : s.nextForEmission plan rule epoch e = .ok (t, f)) :
    Numbers s plan e.seriesIdentity f t := by
  obtain ⟨-, -, -, -, -, -, heq⟩ := next_eq_ok.mp h
  have hn := emit_numbers s plan rule epoch e.seriesIdentity e.windowStartUnixNano e.windowEndUnixNano e.nowUnixMS
    e.emittedFull
  rwa [show s.emit plan rule epoch e.seriesIdentity _ _ _ e.emittedFull = _ from heq] at hn

/-- The frames attached so far, and the sequencer of the plan now bound. -/
structure Issued (version : Option UInt64) (s : FrameSequencer) (fs : List SummaryFrameIdentity) : Prop where
  bound : ∀ key, (s.state key).sequence.toNat ≤ fs.length
  upTo : ∀ f ∈ fs, some f.planVersion = version → f.sequence.toNat ≤ (s.state f.lineage).sequence.toNat
  distinct : (fs.map SummaryFrameIdentity.identity).Nodup

theorem Issued.next {plan : CollectorPlan} {series : Bytes} {fs : List SummaryFrameIdentity}
    (h : Issued (some plan.envelope.planVersion) s fs) (hn : Numbers s plan series f t)
    (hlen : fs.length + 1 < 2 ^ 64) : Issued (some plan.envelope.planVersion) t (fs ++ [f]) := by
  have hseq : f.sequence.toNat = (s.state f.lineage).sequence.toNat + 1 := by
    have hb := h.bound f.lineage
    rw [hn.sequence, UInt64.toNat_add]
    exact Nat.mod_eq_of_lt (by simpa using Nat.lt_of_le_of_lt (Nat.add_le_add_right hb 1) hlen)
  refine ⟨fun key => ?_, fun g hg hv => ?_, ?_⟩
  · rw [length_append, length_singleton]
    by_cases hk : key = f.lineage
    · subst hk
      have hb := h.bound f.lineage
      rw [hn.after, hseq]
      omega
    · rw [hn.others key hk]
      exact Nat.le_succ_of_le (h.bound key)
  · rcases mem_append.mp hg with hg | hg
    · have hle := h.upTo g hg hv
      by_cases hk : g.lineage = f.lineage
      · rw [hk, hn.after, hseq]
        rw [hk] at hle
        omega
      · rw [hn.others _ hk]
        exact hle
    · cases mem_singleton.mp hg
      rw [hn.after]
  · rw [map_append]
    refine Nodup.append h.distinct (nodup_singleton _) fun i hi hi' => ?_
    cases mem_singleton.mp hi'
    obtain ⟨g, hg, heq⟩ := mem_map.mp hi
    obtain ⟨hlin, hsame⟩ := Prod.mk.inj heq
    -- a frame of this lineage is of this plan, and was numbered below the new one
    have hv : g.planVersion = f.planVersion := congrArg FrameLineageKey.planVersion hlin
    have hle := h.upTo g hg (by rw [hv, hn.version])
    rw [hlin, hsame, hseq] at hle
    omega

theorem Issued.batch {plan : CollectorPlan} {rule : TransmissionRule} {epoch : Bytes} :
    ∀ {es : List FrameEmission} {s t : FrameSequencer} {fs gs : List SummaryFrameIdentity},
      s.nextBatchForEmission plan rule epoch es = .ok (t, gs) →
      (Issued (some plan.envelope.planVersion) s fs → (fs ++ gs).length < 2 ^ 64 →
        Issued (some plan.envelope.planVersion) t (fs ++ gs)) ∧
      ∀ g ∈ gs, g.planVersion = plan.envelope.planVersion ∧ ∃ e ∈ es, g.seriesIdentity = e.seriesIdentity
  | [], s, t, fs, gs, h => by
    obtain ⟨rfl, rfl⟩ := Prod.mk.inj (Except.ok.inj h)
    rw [append_nil]
    exact ⟨fun hi _ => hi, nofun⟩
  | e :: es, s, t, fs, gs, h => by
    obtain ⟨u, f, gs', hone, hrest, rfl⟩ := nextBatchForEmission_cons.mp h
    have hn := nextForEmission_numbers hone
    obtain ⟨hissued, hsource⟩ := @Issued.batch plan rule epoch es u t (fs ++ [f]) gs' hrest
    rw [append_assoc] at hissued
    refine ⟨fun hi hlen => hissued (hi.next hn ?_) hlen, fun g hg => ?_⟩
    · rw [length_append, length_cons] at hlen
      omega
    · rcases mem_cons.mp hg with rfl | hg
      · exact ⟨hn.version, e, mem_cons_self, hn.series⟩
      · obtain ⟨hv, e', he', heq⟩ := hsource g hg
        exact ⟨hv, e', mem_cons_of_mem _ he', heq⟩

theorem Issued.fresh {version : Option UInt64} {fs : List SummaryFrameIdentity}
    (h : Issued version s fs) {v : UInt64} (hv : ∀ f ∈ fs, f.planVersion ≠ v) : Issued (some v) {} fs where
  bound _ := Nat.zero_le _
  upTo f hf heq := absurd (Option.some.inj heq) (hv f hf)
  distinct := h.distinct

end FrameSequencer

namespace Edge

open Precompute Processor

variable {σ : Type} {F : SketchImpl σ}

namespace SketchAggregator

open SketchAggregator

def version (sa : SketchAggregator σ) : Option UInt64 := sa.framePlan.map (·.envelope.planVersion)

/-- The labels of the entries that samples of the plan now bound have opened. -/
def Observed (sa : SketchAggregator σ) (_ : Bytes) (labels : List KeyValue) : Prop :=
  ∃ x ∈ sa.consumed, x.planVersion = sa.version ∧ sa.pc.cfg = some x.cfg ∧ labels = x.entryLabels

/-- What holds of an aggregator throughout a run; `bound` is above the versions of all plans so far. -/
structure Good (bound : Nat) (sa : SketchAggregator σ) : Prop where
  provenance : Provenance sa.Observed sa.pc
  issued : sa.attached.length < 2 ^ 64 → Issued sa.version sa.frameSequencer sa.attached
  current : ∀ v, sa.version = some v → v.toNat < bound
  versions : ∀ f ∈ sa.attached, f.planVersion.toNat < bound
  known : ∀ f ∈ sa.attached, ∃ x ∈ sa.consumed, x.planVersion = some f.planVersion ∧
    ∃ count, f.seriesIdentity = frameSeries x.cfg x.entryLabels count

variable {sa : SketchAggregator σ}

theorem Good.mono {bound bound' : Nat} (h : Good bound sa) (hle : bound ≤ bound') :
    Good bound' sa :=
  ⟨h.provenance, h.issued, fun v hv => (h.current v hv).trans_le hle, fun f hf => (h.versions f hf).trans_le hle,
    h.known⟩

theorem Good.drop {bound : Nat} (h : Good bound sa) : Good bound sa.drop :=
  ⟨h.provenance, h.issued, h.current, h.versions, h.known⟩

theorem good_new (h : New sa) : Good 0 sa where
  provenance := by
    rw [h.pc]
    exact provenance_new h.mode
  issued _ := by
    rw [h.attached, h.frameSequencer]
    exact ⟨fun _ => Nat.zero_le _, nofun, nodup_nil⟩
  current v hv := by
    rw [version, h.framePlan] at hv
    cases hv
  versions f hf := by rw [h.attached] at hf; cases hf
  known f hf := by rw [h.attached] at hf; cases hf

section
variable {bound : Nat} {sa : SketchAggregator σ}

theorem Good.observeKeyed (h : Good bound sa) {obs : Observation} (hscalar : obs.carried = none)
    (hresource : obs.resourceLabels = []) (orders : RangeOrders σ) : Good bound (sa.observeKeyed F obs orders) := by
  have hpc := fun Q hQ hp => @Provenance.observeKeyed σ F Q sa.pc hp (sa.pcfg.seriesKeyFor obs) obs hscalar hresource hQ
    orders
  unfold SketchAggregator.observeKeyed
  generalize sa.pc.observeKeyed F (sa.pcfg.seriesKeyFor obs) obs orders = r at hpc ⊢
  obtain ⟨pc, err⟩ := r
  dsimp only at hpc ⊢
  have hcfg : pc.cfg = sa.pc.cfg :=
    (hpc (fun _ _ => True) (fun _ _ _ _ => trivial) (h.provenance.mono fun _ _ _ => trivial)).2
  have hgood : Good bound { sa with
      pc := pc
      consumed := sa.consumed ++
        (sa.pc.cfg.map fun cfg => ⟨sa.framePlan.map (·.envelope.planVersion), cfg, obs.labels⟩).toList } := by
    refine ⟨?_, h.issued, h.current, h.versions, fun f hf => ?_⟩
    · refine (hpc _ ?_ (h.provenance.mono ?_)).1
      · intro cfg hc _ _
        refine ⟨⟨sa.version, cfg, obs.labels⟩, mem_append_right _ ?_, rfl, ?_, rfl⟩
        · rw [hc]
          exact mem_singleton_self _
        · exact hcfg.trans hc
      · rintro _ labels ⟨x, hx, hv, hc, rfl⟩
        exact ⟨x, mem_append_left _ hx, hv, hcfg.trans hc, rfl⟩
    · obtain ⟨x, hx, hrest⟩ := h.known f hf
      exact ⟨x, mem_append_left _ hx, hrest⟩
  split
  · exact hgood.drop
  · exact hgood

theorem observationValue_kind (sa : SketchAggregator σ) (am : GoMap Bytes Bytes) (kv : List KeyValue) (val : Float64) :
    (sa.observationValue am kv val).kind ≠ .envelope := by
  unfold observationValue
  split <;> exact nofun

theorem carried_eq_none {obs : Observation} (h : obs.value.kind ≠ .envelope) : obs.carried = none := if_neg h

section
variable (h : Good bound sa)
include h

theorem Good.observe (am : GoMap Bytes Bytes) (val : Float64) (tsMs : Nat)
    (sampled : Option (UInt64 × Float64)) (ω : RangeOrder (Bytes × Bytes)) (orders : RangeOrders σ) :
    Good bound (sa.observe F am val tsMs sampled ω orders) := by
  have hvalue := sa.observationValue_kind am (fillKVScratch am ω sa.dropLabel) val
  unfold SketchAggregator.observe
  split
  · exact h.observeKeyed (carried_eq_none hvalue) rfl orders
  · split
    · exact h.observeKeyed (carried_eq_none hvalue) rfl orders
    · exact h.drop

theorem Good.observeRowSampled (am : GoMap Bytes Bytes) (val : Float64) (tsMs : Nat)
    (m : RowSampledMeta) (ω : RangeOrder (Bytes × Bytes)) (orders : RangeOrders σ) :
    Good bound (sa.observeRowSampled F am val tsMs m ω orders) := by
  unfold SketchAggregator.observeRowSampled
  split
  · exact h.observe _ _ _ _ _ _
  · exact h.drop

theorem Good.forceCheckpointIfDue (nowMS : UInt64) : Good bound (sa.forceCheckpointIfDue nowMS) := by
  unfold SketchAggregator.forceCheckpointIfDue
  split
  · exact ⟨h.provenance.resetDeltaBase, h.issued, h.current, h.versions, h.known⟩
  · exact h

theorem Good.withRuntime {pc : Precompute σ} (hpc : Provenance sa.Observed pc)
    (hcfg : pc.cfg = sa.pc.cfg) : Good bound { sa with pc } := by
  refine ⟨hpc.mono ?_, h.issued, h.current, h.versions, h.known⟩
  rintro _ labels ⟨x, hx, hv, hc, rfl⟩
  exact ⟨x, hx, hv, hcfg.trans hc, rfl⟩

end

theorem attachFrameIdentities_frame (sa : SketchAggregator σ) (envs : List SketchEnvelope) (nowMS : UInt64) :
    (sa.attachFrameIdentities envs nowMS).1.pc = sa.pc ∧
      (sa.attachFrameIdentities envs nowMS).1.dropLabel = sa.dropLabel := by
  unfold attachFrameIdentities
  split
  · split
    · exact ⟨rfl, rfl⟩
    · split <;> exact ⟨rfl, rfl⟩
  · exact ⟨rfl, rfl⟩

theorem publish_frame (sa : SketchAggregator σ) (envs : List SketchEnvelope) (nowMS : UInt64) :
    (sa.publish envs nowMS).1.pc = sa.pc ∧ (sa.publish envs nowMS).1.dropLabel = sa.dropLabel := by
  have h := attachFrameIdentities_frame sa envs nowMS
  unfold publish
  split
  · exact ⟨rfl, rfl⟩
  · split <;> rename_i heq <;> rw [heq] at h <;> exact h

section
variable (h : Good bound sa)
include h

theorem Good.attachFrameIdentities {envs : List SketchEnvelope}
    (henvs : ∀ env ∈ envs, ∃ cfg, sa.pc.cfg = some cfg ∧ Named cfg sa.Observed env) (nowMS : UInt64) :
    Good bound (sa.attachFrameIdentities envs nowMS).1 ∧ (sa.attachFrameIdentities envs nowMS).1.pc = sa.pc := by
  unfold SketchAggregator.attachFrameIdentities
  split
  · rename_i plan rule hplan hrule
    have hversion : sa.version = some plan.envelope.planVersion := by rw [version, hplan]; rfl
    split
    · exact ⟨h, rfl⟩
    · cases hbatch : sa.frameSequencer.nextBatchForEmission plan rule sa.producerEpoch (envs.map (emission nowMS)) with
      | error e => exact ⟨h, rfl⟩
      | ok r =>
        obtain ⟨hissued, hsource⟩ := @Issued.batch plan rule sa.producerEpoch _ _ _ sa.attached _ hbatch
        refine ⟨⟨h.provenance, fun hlen => ?_, h.current, forall_mem_append.mpr ⟨h.versions, fun f hf => ?_⟩,
          forall_mem_append.mpr ⟨h.known, fun f hf => ?_⟩⟩, rfl⟩
        · show Issued sa.version _ _
          rw [hversion]
          refine hissued (hversion ▸ h.issued ?_) hlen
          rw [length_append] at hlen
          omega
        · rw [(hsource f hf).1]
          exact h.current _ hversion
        · obtain ⟨hv, e, he, hseries⟩ := hsource f hf
          obtain ⟨env, henv, rfl⟩ := mem_map.mp he
          obtain ⟨cfg, hcfg, key, labels, count, ⟨x, hx, hxv, hxc, rfl⟩, hnamed⟩ := henvs env henv
          cases hcfg.symm.trans hxc
          exact ⟨x, hx, by rw [hxv, hversion, hv], count, hseries.trans hnamed⟩
  · exact ⟨h, rfl⟩

theorem Good.publish {pc : Precompute σ} {envs : List SketchEnvelope}
    (hpc : Provenance sa.Observed pc) (hcfg : pc.cfg = sa.pc.cfg)
    (henvs : ∀ env ∈ envs, ∃ cfg, sa.pc.cfg = some cfg ∧ Named cfg sa.Observed env) (nowMS : UInt64) :
    Good bound (publish { sa with pc } envs nowMS).1 ∧
      (publish { sa with pc } envs nowMS).1.pc = pc := by
  have hgood := (h.withRuntime hpc hcfg).attachFrameIdentities (fun env henv => by
    obtain ⟨cfg, hc, key, labels, count, ⟨x, hx, hv, hxc, hl⟩, hnamed⟩ := henvs env henv
    exact ⟨cfg, hcfg.trans hc, key, labels, count, ⟨x, hx, hv, hcfg.trans hxc, hl⟩, hnamed⟩) nowMS
  unfold SketchAggregator.publish
  split
  · exact ⟨h.withRuntime hpc hcfg, rfl⟩
  · split <;> rename_i heq <;> rw [heq] at hgood <;> exact hgood

theorem Good.flush (checkpointMS : UInt64) (surr : Surroundings σ) :
    Good bound (sa.flush F checkpointMS surr).1 ∧ (sa.flush F checkpointMS surr).1.pc.window.series = ∅ ∧
      (sa.flush F checkpointMS surr).1.pc.pendingOutput = [] := by
  have hforce := h.forceCheckpointIfDue checkpointMS
  unfold SketchAggregator.flush
  obtain ⟨hpc, hcfg, hseries, hqueue, henvs⟩ := hforce.provenance.drain F surr.orders
  obtain ⟨hgood, heq⟩ := hforce.publish hpc hcfg henvs surr.attachMS
  exact ⟨hgood, by rw [heq]; exact hseries, by rw [heq]; exact hqueue⟩

theorem Good.emitSubWindow (nowMs : UInt64) (surr : Surroundings σ) :
    Good bound (sa.emitSubWindow F nowMs surr).1 := by
  have hforce := h.forceCheckpointIfDue nowMs
  unfold SketchAggregator.emitSubWindow
  split
  · generalize sa.forceCheckpointIfDue nowMs = sa₁ at hforce ⊢
    obtain ⟨hpc, hcfg, henvs⟩ := hforce.provenance.emitSubWindow F nowMs.toNat surr.orders
    exact (hforce.publish hpc hcfg henvs surr.attachMS).1
  · exact h

theorem Good.rebound (hseries : sa.pc.window.series = ∅) (hqueue : sa.pc.pendingOutput = [])
    {plan : CollectorPlan} (rule : TransmissionRule) {cfg : PrecomputeConfig} (hmode : cfg.mode = .tumbling)
    (version : UInt64) (producerEpoch : Bytes) (hversion : bound ≤ plan.envelope.planVersion.toNat) :
    Good (plan.envelope.planVersion.toNat + 1) { sa with
      pc := sa.pc.updateConfig ⟨version, [cfg]⟩
      pcfg := cfg
      framePlan := some plan
      frameRule := some rule
      frameSequencer := {}
      producerEpoch
      checkpointAtMS := 0 } where
  provenance := h.provenance.updateConfig hseries hqueue hmode version _
  issued hlen := (h.issued hlen).fresh fun f hf heq => by
    have hlt : f.planVersion.toNat < bound := h.versions f hf
    have heq : f.planVersion = plan.envelope.planVersion := heq
    rw [heq] at hlt
    omega
  current v hv := by
    cases hv
    exact Nat.lt_succ_self _
  versions f hf := by
    have hlt := h.versions f hf
    omega
  known := h.known

theorem Good.bindPlan {plan : CollectorPlan} (rule : TransmissionRule) {cfg : PrecomputeConfig}
    (hmode : cfg.mode = .tumbling) (version : UInt64) (producerEpoch : Bytes) (checkpointMS : UInt64)
    (surr : Surroundings σ) (hversion : bound ≤ plan.envelope.planVersion.toNat) :
    Good (plan.envelope.planVersion.toNat + 1)
      (sa.bindPlan F plan rule cfg version producerEpoch checkpointMS surr).1 := by
  unfold SketchAggregator.bindPlan
  cases sa.framePlan.isSome with
  | true =>
    obtain ⟨hgood, hseries, hqueue⟩ := h.flush (F := F) checkpointMS surr
    exact hgood.rebound hseries hqueue rule hmode version producerEpoch hversion
  | false =>
    obtain ⟨hpc, hcfg, hseries, hqueue, -⟩ := h.provenance.drain F surr.orders
    exact (h.withRuntime hpc hcfg).rebound hseries hqueue rule hmode version producerEpoch hversion

end

end

end SketchAggregator

end Edge

end AsapCollector
