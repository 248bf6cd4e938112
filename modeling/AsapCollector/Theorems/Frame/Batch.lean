import AsapCollector.Frame.Identity

/-! A batch is all or nothing, and otherwise the same as its emissions one after another. -/

namespace AsapCollector.FrameSequencer

variable (plan : CollectorPlan) (rule : TransmissionRule) (producerEpoch : Bytes) (s : FrameSequencer)

/-- What a caller of `NextForEmission` has afterwards: the sequencer, and the frame or the error. -/
def callNext (e : FrameEmission) : FrameSequencer × Except SequencerError SummaryFrameIdentity :=
  match s.nextForEmission plan rule producerEpoch e with
  | .ok (t, frame) => (t, .ok frame)
  | .error err => (s, .error err)

/-- The emissions are given to `NextForEmission` one by one, each to the sequencer the last one left. -/
def callEach (s : FrameSequencer) : List FrameEmission →
    FrameSequencer × List (Except SequencerError SummaryFrameIdentity)
  | [] => (s, [])
  | e :: es =>
    let (t, result) := s.callNext plan rule producerEpoch e
    let (t, results) := t.callEach es
    (t, result :: results)

def callBatch (es : List FrameEmission) :
    FrameSequencer × Except SequencerError (List SummaryFrameIdentity) :=
  match s.nextBatchForEmission plan rule producerEpoch es with
  | .ok (t, frames) => (t, .ok frames)
  | .error err => (s, .error err)

theorem callBatch_cons (e : FrameEmission) (es : List FrameEmission) :
    s.callBatch plan rule producerEpoch (e :: es) =
      match s.callNext plan rule producerEpoch e with
      | (_, .error err) => (s, .error err)
      | (t, .ok frame) =>
        match t.callBatch plan rule producerEpoch es with
        | (_, .error err) => (s, .error err)
        | (u, .ok frames) => (u, .ok (frame :: frames)) := by
  rw [callBatch, nextBatchForEmission]
  unfold callBatch callNext
  cases s.nextForEmission plan rule producerEpoch e with
  | error err => rfl
  | ok r =>
    dsimp only [bind, Except.bind]
    cases r.1.nextBatchForEmission plan rule producerEpoch es <;> rfl

/-- Either one of the single calls fails, and the batch fails and leaves the sequencer as it was; or the batch has the
frames of the single calls and leaves the sequencer that they leave. -/
theorem callBatch_atomic (s : FrameSequencer) (es : List FrameEmission) :
    ((∃ err, Except.error err ∈ (s.callEach plan rule producerEpoch es).2) ∧
      ∃ err, s.callBatch plan rule producerEpoch es = (s, .error err)) ∨
    ∃ frames, (s.callEach plan rule producerEpoch es).2 = frames.map .ok ∧
      s.callBatch plan rule producerEpoch es = ((s.callEach plan rule producerEpoch es).1, .ok frames) := by
  induction es generalizing s with
  | nil => exact Or.inr ⟨[], rfl, rfl⟩
  | cons e es ih =>
    rw [callBatch_cons, callEach]
    rcases s.callNext plan rule producerEpoch e with ⟨t, err | frame⟩
    · exact Or.inl ⟨⟨err, List.mem_cons_self⟩, err, rfl⟩
    · dsimp only
      rcases ih t with ⟨⟨err, hmem⟩, err', hbatch⟩ | ⟨frames, hframes, hbatch⟩
      · rw [hbatch]
        exact Or.inl ⟨⟨err, List.mem_cons_of_mem _ hmem⟩, err', rfl⟩
      · rw [hbatch, hframes]
        exact Or.inr ⟨frame :: frames, rfl, rfl⟩

end AsapCollector.FrameSequencer
