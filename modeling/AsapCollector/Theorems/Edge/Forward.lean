import AsapCollector.Edge.Forward
import AsapCollector.Theorems.Edge.Checkpoint
import AsapCollector.Theorems.Otel.Adapter

/-! An envelope is neither in the batch nor in the counter when the sequencer refuses the identities, and when the
encoding of a sub-window fails. -/

namespace AsapCollector

open List

theorem FrameSequencer.length_nextBatchForEmission {plan : CollectorPlan} {rule : TransmissionRule} {epoch : Bytes} :
    ∀ {es : List FrameEmission} {s : FrameSequencer} {r : FrameSequencer × List SummaryFrameIdentity},
      s.nextBatchForEmission plan rule epoch es = .ok r → r.2.length = es.length
  | [], _, _, h => by rw [← Except.ok.inj h]; rfl
  | _ :: _, _, (_, _), h => by
    obtain ⟨_, _, _, -, hrest, rfl⟩ := nextBatchForEmission_cons.mp h
    exact congrArg Nat.succ (length_nextBatchForEmission hrest)

namespace Otel

variable {cfg : Option AdapterConfig} {order : RangeOrder (Bytes × Bytes)} {envs : List SketchEnvelope}

def Writable (env : SketchEnvelope) : Prop := effectiveAggKind env = .sum ∨ env.sketchType ≠ .unspecified

instance (env : SketchEnvelope) : Decidable (Writable env) := inferInstanceAs (Decidable (_ ∨ _))

theorem writeMetric_ok_iff {env : SketchEnvelope} : (∃ m, writeMetric cfg order env = .ok m) ↔ Writable env := by
  constructor
  · rintro ⟨m, h⟩
    exact or_iff_not_imp_left.mpr (supported_of_writeMetric h)
  · intro h
    unfold writeMetric writePoints
    by_cases hsum : effectiveAggKind env = .sum
    · simp [hsum, bind, Except.bind, pure, Except.pure]
    · have hsketch := h.resolve_left hsum
      cases henv : env.sketchType <;> simp_all [bind, Except.bind, pure, Except.pure]

theorem reduceOption_map_some : (envs.map some).reduceOption = envs := by
  change (envs.map some).filterMap id = envs
  simp

theorem encode_ok_iff : (∃ md, encode cfg order (envs.map some) = .ok md) ↔ ∀ env ∈ envs, Writable env := by
  unfold encode
  rw [mapM_ok_iff, reduceOption_map_some]
  have hgroup : ∀ key, (∃ rm, writeGroup cfg order ((grouped envs).envelopes.get [] key) = .ok rm) ↔
      ∀ env ∈ groupOf envs key, Writable env := by
    intro key
    rw [(grouped_of envs).get, ← forall₂_congr fun env _ => writeMetric_ok_iff, ← mapM_ok_iff]
    unfold writeGroup
    simp only [bind_eq_ok, pure_eq_ok]
    constructor
    · rintro ⟨_, ms, hms, _⟩
      exact ⟨ms, hms⟩
    · rintro ⟨ms, hms⟩
      exact ⟨_, ms, hms, rfl⟩
  simp only [hgroup, mem_groupOf]
  constructor
  · exact fun h env henv => h _ (((grouped_of envs).mem _).mpr ⟨env, henv, rfl⟩) env ⟨henv, rfl⟩
  · exact fun h _ _ env henv => h env henv.1

theorem length_metricsOf_encode {md : List ResourceMetrics} (h : encode cfg order (envs.map some) = .ok md) :
    (Edge.metricsOf md).length = envs.length := by
  unfold encode at h
  rw [reduceOption_map_some] at h
  have hgroup : ∀ {key rm}, key ∈ (grouped envs).keys →
      writeGroup cfg order ((grouped envs).envelopes.get [] key) = .ok rm →
      (rm.scopeMetrics.flatMap (·.metrics)).map (fun _ => ()) = (groupOf envs key).map fun _ => () := by
    intro key rm _ hwrite
    obtain ⟨ms, hms, hrm⟩ := bind_eq_ok.mp hwrite
    obtain rfl := pure_eq_ok.mp hrm
    rw [(grouped_of envs).get] at hms
    simpa using (mapM_eq_ok.mp hms).length_eq.symm
  have hall : (Edge.metricsOf md).map (fun _ => ()) = (written envs).map fun _ => () := by
    rw [Edge.metricsOf, map_flatMap, flatMap_eq_of_forall₂ (mapM_eq_ok.mp h) hgroup, written, map_flatMap]
  rw [← (written_perm envs).length_eq]
  simpa using congrArg length hall

end Otel

namespace Edge

open Otel

namespace SketchAggregator

variable {σ : Type} {F : SketchImpl σ}

theorem tally_forward (enc : Option AdapterConfig) (order : RangeOrder (Bytes × Bytes)) (call : SendCall) (out : Output)
    (envs : List SketchEnvelope) : (forward enc order call out (.sent envs)).tally =
      out.tally + if call.isSubWindow → ∀ env ∈ envs, Writable env then envs.length else 0 := by
  have hok := @encode_ok_iff enc order envs
  unfold forward
  cases henc : encode enc order (envs.map some) with
  | ok md =>
    have hlen := length_metricsOf_encode henc
    rw [if_pos fun _ => hok.mp ⟨md, henc⟩]
    simp only [henc, Output.tally, metricsOf, flatMap_append, length_append] at hlen ⊢
    omega
  | error err =>
    have hnot : ¬∀ env ∈ envs, Writable env := fun h => by simpa [henc] using hok.mpr h
    cases call with
    | flush ms => simp [henc, SendCall.isSubWindow, Output.tally, Nat.add_assoc]
    | emitSubWindow ms => simp [henc, SendCall.isSubWindow, hnot]

def Identifies (s : SketchAggregator σ) (envs : List SketchEnvelope) (nowMS : UInt64) : Prop :=
  ∀ plan ∈ s.framePlan, ∀ rule ∈ s.frameRule, (∀ env ∈ envs, env.aggID = rule.materialization) ∧
    ∃ r, s.frameSequencer.nextBatchForEmission plan rule s.producerEpoch (envs.map (emission nowMS)) = .ok r

theorem zipWith_sealEnvelope : ∀ {frames : List SummaryFrameIdentity} {envs : List SketchEnvelope},
    frames.length = envs.length → Forall₂ (fun env sent => Writable sent ↔ Writable env) envs
      (frames.zipWith sealEnvelope envs)
  | [], [], _ => .nil
  | _ :: _, _ :: _, h => .cons Iff.rfl (zipWith_sealEnvelope (Nat.succ.inj h))

theorem publish_cases (s : SketchAggregator σ) (envs : List SketchEnvelope) (nowMS : UInt64) :
    envs = [] ∧ (s.publish envs nowMS).2 = .nothing ∨
    envs ≠ [] ∧ ¬s.Identifies envs nowMS ∧ (s.publish envs nowMS).2 = .refused ∨
    envs ≠ [] ∧ s.Identifies envs nowMS ∧ ∃ sent, (s.publish envs nowMS).2 = .sent sent ∧
      Forall₂ (fun env sent => Writable sent ↔ Writable env) envs sent := by
  rcases eq_or_ne envs [] with rfl | hne
  · exact .inl ⟨rfl, rfl⟩
  have hattach : (s.publish envs nowMS).2 =
      match (s.attachFrameIdentities envs nowMS).2 with
      | none => .refused
      | some sent => .sent sent := by
    rw [publish, if_neg (by simpa using hne)]
    rcases s.attachFrameIdentities envs nowMS with ⟨t, _ | sent⟩ <;> rfl
  rw [hattach]
  refine .inr ?_
  unfold attachFrameIdentities Identifies
  have hsame : Forall₂ (fun env sent => Writable sent ↔ Writable env) envs envs := forall₂_same.mpr fun _ _ => Iff.rfl
  cases s.framePlan with
  | none => exact .inr ⟨hne, by simp, envs, rfl, hsame⟩
  | some plan =>
    cases s.frameRule with
    | none => exact .inr ⟨hne, by simp, envs, rfl, hsame⟩
    | some rule =>
      simp only [Option.mem_def, Option.some.injEq, forall_eq']
      by_cases hagg : ∀ env ∈ envs, env.aggID = rule.materialization
      · rw [if_neg (by simpa using hagg)]
        cases hbatch : s.frameSequencer.nextBatchForEmission plan rule s.producerEpoch (envs.map (emission nowMS)) with
        | error err => exact .inl ⟨hne, by simp, rfl⟩
        | ok r =>
          have hlen := FrameSequencer.length_nextBatchForEmission hbatch
          exact .inr ⟨hne, ⟨hagg, r, rfl⟩, _, rfl, zipWith_sealEnvelope (by simpa using hlen)⟩
      · rw [if_pos (by simpa using hagg)]
        exact .inl ⟨hne, fun h => hagg h.1, rfl⟩

theorem send_eq (F : SketchImpl σ) (enc : Option AdapterConfig) (order : RangeOrder (Bytes × Bytes))
    (s : SketchAggregator σ) (call : SendCall) (surr : Surroundings σ) (out : Output) :
    ∃ t : SketchAggregator σ, (∀ envs nowMS, t.Identifies envs nowMS ↔ s.Identifies envs nowMS) ∧
      (s.send enc order F call surr out).2 =
        forward enc order call out (t.publish (s.returned F call surr) surr.attachMS).2 := by
  have hforce : ∀ ms (pc : Precompute σ) envs nowMS, { s.forceCheckpointIfDue ms with pc }.Identifies envs nowMS ↔
      s.Identifies envs nowMS := by
    intro ms pc envs nowMS
    unfold forceCheckpointIfDue
    split <;> rfl
  cases call with
  | flush ms => exact ⟨_, hforce ms _, rfl⟩
  | emitSubWindow ms =>
    by_cases hsub : s.subWindowEnabled = true
    · refine ⟨_, hforce ms ((s.forceCheckpointIfDue ms).pc.emitSubWindow F ms.toNat surr.orders).1, ?_⟩
      simp only [send, emitSubWindow, returned, if_pos hsub]
    · refine ⟨s, fun _ _ => Iff.rfl, ?_⟩
      simp only [send, emitSubWindow, returned, if_neg hsub]
      rfl

/-- What comes out of a call is all accounted for exactly when nothing comes out, or it gets its
identities and, in a sub-window, can be encoded. -/
theorem returned_envelopes_accounted_iff (F : SketchImpl σ) (enc : Option AdapterConfig)
    (order : RangeOrder (Bytes × Bytes)) (s : SketchAggregator σ) (call : SendCall) (surr : Surroundings σ)
    (out : Output) :
    (s.send enc order F call surr out).2.tally = out.tally + (s.returned F call surr).length ↔
      s.returned F call surr = [] ∨ s.Identifies (s.returned F call surr) surr.attachMS ∧
        (call.isSubWindow → ∀ env ∈ s.returned F call surr, Writable env) := by
  obtain ⟨t, hid, hsend⟩ := send_eq F enc order s call surr out
  rw [hsend, ← hid]
  generalize s.returned F call surr = envs
  rcases t.publish_cases envs surr.attachMS with ⟨rfl, hres⟩ | ⟨hne, hnot, hres⟩ | ⟨hne, hall, sent, hres, hsent⟩
  · simp [hres, forward]
  · simp [hres, forward, hnot, hne]
  · rw [hres, tally_forward, ← hsent.length_eq]
    have hwritable : (∀ env ∈ sent, Writable env) ↔ ∀ env ∈ envs, Writable env :=
      ⟨fun h env henv => (forall₂_exists_right hsent env henv).elim fun e he => he.2.mp (h e he.1),
        fun h e he => (forall₂_exists_left hsent e he).elim fun env henv => henv.2.mpr (h env henv.1)⟩
    split <;> simp_all

/-- The delta of the window that was closed early is refused at the flush, where a checkpoint is due. It is
not in the batch, and not counted. -/
theorem refused_envelopes_vanish :
    let s := (earlyClose.take 4).foldl (fun s c => (s.call floatSum c).1) boundSums
    (s.returned floatSum (.flush 2500) (attachedAt 2500)).length = 2 ∧
      (s.send none (.stored _) floatSum (.flush 2500) (attachedAt 2500) {}).2.tally = 0 := by
  decide +kernel

end SketchAggregator

end Edge

end AsapCollector
