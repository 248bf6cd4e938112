import AsapCollector.Precompute.Lane

/-! Serializing a series reads and writes the snapshot cache at its own key only. -/

namespace AsapCollector

namespace SnapshotCache

structure Elsewhere (key : Bytes) (c c' : SnapshotCache) : Prop where
  outbound : ∀ k, k ≠ key → c'.outbound.lookup k = c.outbound.lookup k
  seen : ∀ k, k ≠ key → c'.seen.get 0 k = c.seen.get 0 k
  generation : c'.generation = c.generation

variable {key : Bytes} {c c' c'' : SnapshotCache}

theorem Elsewhere.refl (key : Bytes) (c : SnapshotCache) : Elsewhere key c c :=
  ⟨fun _ _ => rfl, fun _ _ => rfl, rfl⟩

theorem Elsewhere.trans (h : Elsewhere key c c') (h' : Elsewhere key c' c'') : Elsewhere key c c'' where
  outbound k hk := (h'.outbound k hk).trans (h.outbound k hk)
  seen k hk := (h'.seen k hk).trans (h.seen k hk)
  generation := h'.generation.trans h.generation

variable (c : SnapshotCache)

theorem elsewhere_cacheOutbound (key : Bytes) (payload : Option Bytes) :
    Elsewhere key c (c.cacheOutbound key payload) where
  outbound _ hk := AList.lookup_insert_ne hk
  seen _ hk := GoMap.get_insert_of_ne hk
  generation := rfl

@[simp] theorem outbound_cacheOutbound (key : Bytes) (payload : Option Bytes) :
    (c.cacheOutbound key payload).outbound.lookup key = some (payload.getD []) :=
  AList.lookup_insert c.outbound

@[simp] theorem seen_cacheOutbound (key : Bytes) (payload : Option Bytes) :
    (c.cacheOutbound key payload).seen.get 0 key = c.generation :=
  GoMap.get_insert_self _ _ _ _

@[simp] theorem outbound_touch (key : Bytes) (g : UInt64) : (c.touch key g).outbound = c.outbound := by
  unfold touch
  split <;> rfl

theorem elsewhere_touch (key : Bytes) (g : UInt64) : Elsewhere key c (c.touch key g) := by
  refine ⟨fun k _ => by rw [outbound_touch], fun k hk => ?_, ?_⟩
  · unfold touch
    split
    · exact GoMap.get_insert_of_ne hk
    · rfl
  · unfold touch
    split <;> rfl

theorem seen_touch (key : Bytes) : (c.touch key c.generation).seen.get 0 key = c.generation := by
  unfold touch
  rw [if_pos rfl]
  exact GoMap.get_insert_self _ _ _ _

theorem lookup_endGeneration {g : UInt64} (hg : c.generation = g) (key : Bytes) :
    (c.endGeneration g).outbound.lookup key = if c.seen.get 0 key = g then c.outbound.lookup key else none := by
  unfold endGeneration
  rw [if_neg (not_not_intro hg.symm), GoMap.lookup_filter_eq]
  cases c.outbound.lookup key with
  | none => exact (ite_self none).symm
  | some b => exact ite_congr decide_eq_true_eq (fun _ => rfl) fun _ => rfl

theorem outbound_endGeneration_of_seen {g : UInt64} (hg : c.generation = g) (hseen : c.seen.get 0 key = g) :
    (c.endGeneration g).outbound.lookup key = c.outbound.lookup key := by
  rw [lookup_endGeneration c hg, if_pos hseen]

theorem outbound_endGeneration (g : UInt64) (key : Bytes) :
    (c.endGeneration g).outbound.lookup key = c.outbound.lookup key ∨
      (c.endGeneration g).outbound.lookup key = none := by
  by_cases hg : c.generation = g
  · rw [lookup_endGeneration c hg]
    split
    · exact .inl rfl
    · exact .inr rfl
  · rw [endGeneration, if_pos (Ne.symm hg)]
    exact .inl rfl

end SnapshotCache

namespace Precompute

open SnapshotCache

variable {σ : Type} {F : SketchImpl σ} {cfg : PrecomputeConfig} {key : Bytes} (c : SnapshotCache)

theorem refreshBase_eq (current : σ) (payload : Option Bytes) (isFull : Bool) :
    c.refreshBase F key current payload isFull =
      (nextBase F current payload isFull).map fun b => c.cacheOutbound key (some b) := by
  unfold refreshBase nextBase
  cases F.deltaAgainstEmptyBase current with
  | error e => rfl
  | ok base =>
    match base with
    | some (b :: bs) => rfl
    | some [] | none =>
      cases isFull with
      | true => rfl
      | false =>
        cases F.snapshot current with
        | error e => rfl
        | ok full => rfl

/-- The payload and flag of an envelope, if the computation ends with one. -/
def payloadOf : Except String (Option Bytes × Bool) → Option (Bytes × Bool)
  | .ok (some payload, isFull) => some (payload, isFull)
  | _ => none

theorem payloadOf_ok (payload : Option Bytes) (isFull : Bool) :
    payloadOf (.ok (payload, isFull)) = payload.map fun payload => (payload, isFull) := by
  cases payload <;> rfl

/-- A cache after a computation for `key`: the base there and the payload are as the base decided, and
at most the entry of `key` has been stored anew. -/
structure Computed (key : Bytes) (c c' : SnapshotCache) (r : Except String (Option Bytes × Bool))
    (base : Option Bytes) (payload : Option (Bytes × Bool)) : Prop where
  base : c'.outbound.lookup key = base
  payload : payloadOf r = payload
  stored : c' = c ∨ ∃ b, c' = c.cacheOutbound key b

theorem boundaryPayload_computed (entry : SeriesEntry σ) :
    Computed key c (boundaryPayload F c key entry cfg).1 (boundaryPayload F c key entry cfg).2
      (boundaryDelta F cfg (c.outbound.lookup key) entry.sketch).1
      (boundaryDelta F cfg (c.outbound.lookup key) entry.sketch).2 := by
  unfold boundaryPayload boundaryDelta
  split
  · have hd : c.deltaPayload F key (applyGosMode F entry.sketch cfg) cfg.deltaThreshold =
        payloadAgainst F (c.outbound.lookup key) (applyGosMode F entry.sketch cfg) cfg.deltaThreshold := rfl
    unfold computeDelta
    rw [hd]
    rcases payloadAgainst F (c.outbound.lookup key) (applyGosMode F entry.sketch cfg) cfg.deltaThreshold with
      ⟨current, e | ⟨payload, isFull⟩⟩
    · exact ⟨rfl, rfl, Or.inl rfl⟩
    · dsimp only
      rw [refreshBase_eq]
      cases nextBase F current payload isFull with
      | error e => exact ⟨rfl, rfl, Or.inl rfl⟩
      | ok b => exact ⟨outbound_cacheOutbound _ _ _, payloadOf_ok _ _, Or.inr ⟨_, rfl⟩⟩
  · cases F.snapshot entry.sketch with
    | error e => exact ⟨rfl, rfl, Or.inl rfl⟩
    | ok payload => exact ⟨outbound_cacheOutbound _ _ _, payloadOf_ok _ _, Or.inr ⟨_, rfl⟩⟩

theorem computeSubWindowDelta_computed (sketch : σ) :
    Computed key c (c.computeSubWindowDelta F key (applyGosMode F sketch cfg) cfg.deltaThreshold).1
      (c.computeSubWindowDelta F key (applyGosMode F sketch cfg) cfg.deltaThreshold).2.2
      (subWindowDelta F cfg (c.outbound.lookup key) sketch).1
      (subWindowDelta F cfg (c.outbound.lookup key) sketch).2.2 ∧
    (c.computeSubWindowDelta F key (applyGosMode F sketch cfg) cfg.deltaThreshold).2.1 =
      (subWindowDelta F cfg (c.outbound.lookup key) sketch).2.1 := by
  have hd : c.deltaPayload F key (applyGosMode F sketch cfg) cfg.deltaThreshold =
      payloadAgainst F (c.outbound.lookup key) (applyGosMode F sketch cfg) cfg.deltaThreshold := rfl
  unfold computeSubWindowDelta subWindowDelta
  rw [hd]
  rcases payloadAgainst F (c.outbound.lookup key) (applyGosMode F sketch cfg) cfg.deltaThreshold with
    ⟨current, e | ⟨payload, _ | _⟩⟩
  · exact ⟨⟨rfl, rfl, Or.inl rfl⟩, rfl⟩
  · dsimp only
    cases F.snapshot current with
    | error e => exact ⟨⟨rfl, rfl, Or.inl rfl⟩, rfl⟩
    | ok full => exact ⟨⟨outbound_cacheOutbound _ _ _, payloadOf_ok _ _, Or.inr ⟨_, rfl⟩⟩, rfl⟩
  · exact ⟨⟨outbound_cacheOutbound _ _ _, payloadOf_ok _ _, Or.inr ⟨_, rfl⟩⟩, rfl⟩

variable {r : Except String (Option Bytes × Bool)} {payload : Option (Bytes × Bool)}

section
variable {c c' : SnapshotCache} {base : Option Bytes} (h : Computed key c c' r base payload)
include h

theorem Computed.elsewhere : Elsewhere key c c' := by
  rcases h.stored with rfl | ⟨b, rfl⟩
  · exact Elsewhere.refl _ _
  · exact elsewhere_cacheOutbound _ _ _

theorem Computed.seen
    (hseen : c.seen.get 0 key = c.generation) : c'.seen.get 0 key = c'.generation := by
  rcases h.stored with rfl | ⟨b, rfl⟩
  · exact hseen
  · exact seen_cacheOutbound _ _ _

end

theorem serializeSeries_spec (entry : SeriesEntry σ) (hkey : entry.cacheKey cfg = key)
    (startMs endMs : Nat) :
    (serializeSeries F c entry cfg startMs endMs).2 =
        (boundaryDelta F cfg (c.outbound.lookup key) entry.sketch).2.map
          (boundaryEnvelope F cfg entry startMs endMs) ∧
      ∃ r, Computed key c (serializeSeries F c entry cfg startMs endMs).1 r
        (boundaryDelta F cfg (c.outbound.lookup key) entry.sketch).1
        (boundaryDelta F cfg (c.outbound.lookup key) entry.sketch).2 := by
  have h := @boundaryPayload_computed σ F cfg key c entry
  unfold serializeSeries
  rw [hkey]
  rcases hb : boundaryPayload F c key entry cfg with ⟨c', e | ⟨_ | payload, isFull⟩⟩ <;> rw [hb] at h <;>
    refine ⟨?_, _, h⟩ <;> rw [← h.payload] <;> rfl

end Precompute

end AsapCollector
