import AsapCollector.Theorems.Sketches.MatrixDeltas

/-! With GOS a weight is in a cell, on the list of the next delta, or sent. A first frame has the cells and not the
list, and leaves the cells where they are. -/

namespace AsapCollector.Sketches

open Precompute Float64 CMSWrapper WindowState History

variable {S C P : Type}

theorem GosState.le_raiseThreshold (lib : CellLib S C) (g : GosState S C) (t : Float64) :
    1 ≤ (g.raiseThreshold lib t).gosThreshold.toNat ∧
      g.gosThreshold.toNat ≤ (g.raiseThreshold lib t).gosThreshold.toNat := by
  unfold raiseThreshold
  rw [UInt64.toNat_max, UInt64.toNat_max]
  have hone : (1 : UInt64).toNat = 1 := rfl
  omega

def GosState.Below (lib : CellLib S C) (g : GosState S C) : Prop :=
  ∀ c, |lib.cells g.sk c| < max 1 (g.gosThreshold.toNat : ℤ)

namespace MatrixFamily

variable {m : MatrixFamily S C} {w w' : m.Wrapper}

structure Gosing (m : MatrixFamily S C) (w : m.Wrapper) : Prop where
  proto : m.msgpack w = false
  on : (m.core w).gos = true

structure Kept (w w' : m.Wrapper) : Prop where
  gosing : m.Gosing w'
  sk : (m.core w').sk = (m.core w).sk
  threshold : (m.core w').gosThreshold = (m.core w).gosThreshold

theorem Kept.trans {w'' : m.Wrapper} (h : Kept w w') (h' : Kept w' w'') : Kept w w'' :=
  ⟨h'.gosing, h'.sk.trans h.sk, h'.threshold.trans h.threshold⟩

theorem Kept.cells (h : Kept w w') : m.cells w' = m.cells w := congrArg m.lib.cells h.sk

theorem Kept.below (h : Kept w w') (hbelow : (m.core w).Below m.lib) : (m.core w').Below m.lib := fun c => by
  rw [h.sk, h.threshold]
  exact hbelow c

theorem Gosing.gosInserts (h : m.Gosing w) : m.gosInserts w = true := by
  cases m with
  | countMin lib => exact h.on
  | countSketch lib key =>
    show (w.gos && !w.heapMsgpack) = true
    rw [show w.gos = true from h.on, show w.heapMsgpack = false from h.proto]
    rfl
  | ddSketch lib => exact h.on

end MatrixFamily

variable [DecidableEq C]

/-- What is assumed of insertions with GOS: the weight is added, what a cell reports it loses, and a cell
that changes ends up below the threshold. Every list can be written down. -/
structure CellLib.Crosses (lib : CellLib S C) (L : lib.Faithful P) : Prop where
  sampler : ∀ s o t, L.sampler (lib.insertGos s o t).1 = L.next (L.sampler s) o
  cells : ∀ s o t,
    lib.cells (lib.insertGos s o t).1 + amountIn (lib.insertGos s o t).2 = lib.cells s + L.weight (L.sampler s) o
  below : ∀ s o t, 1 ≤ t.toNat → ∀ c,
    |lib.cells (lib.insertGos s o t).1 c| < t.toNat ∨ lib.cells (lib.insertGos s o t).1 c = lib.cells s c
  encodes : ∀ d, ∃ b, lib.encodeDelta d = .ok b

section
variable {lib : CellLib S C} {L : lib.Faithful P} (hcross : lib.Crosses L)
include hcross

theorem GosState.insertGos_spec (t : Float64)
    (o : Insertion) (g : GosState S C) :
    lib.cells (g.insertGos lib t o).sk + amountIn (g.insertGos lib t o).gosDirty =
        lib.cells g.sk + amountIn g.gosDirty + L.weight (L.sampler g.sk) o ∧
      L.sampler (g.insertGos lib t o).sk = L.next (L.sampler g.sk) o ∧
      (g.Below lib → (g.insertGos lib t o).Below lib) := by
  obtain ⟨hone, hraised⟩ := g.le_raiseThreshold lib t
  have hcells := hcross.cells g.sk o (g.raiseThreshold lib t).gosThreshold
  refine ⟨?_, hcross.sampler _ _ _, fun hbelow c => ?_⟩
  · show lib.cells (lib.insertGos g.sk o (g.raiseThreshold lib t).gosThreshold).1 +
      amountIn (g.gosDirty ++ (lib.insertGos g.sk o (g.raiseThreshold lib t).gosThreshold).2) = _
    rw [amountIn_append, add_left_comm, hcells, ← add_assoc, add_comm (amountIn _)]
  · show |lib.cells (lib.insertGos g.sk o (g.raiseThreshold lib t).gosThreshold).1 c| <
      max 1 ((g.raiseThreshold lib t).gosThreshold.toNat : ℤ)
    have hbelow := hbelow c
    rcases hcross.below g.sk o _ hone c with hlt | heq
    · omega
    · rw [heq]
      omega

theorem GosState.drainGosDelta_spec (norms : List Float64)
    (hhKeys : List Bytes) (g : GosState S C) :
    ∃ (g' : GosState S C) (payload : Option Bytes), g.drainGosDelta lib norms hhKeys = (g', .ok (payload, false)) ∧
      (g'.sk = g.sk ∧ g'.gos = g.gos ∧ g'.gosThreshold = g.gosThreshold) ∧ g'.gosDirty = [] ∧
      (payload.map lib.wire.deltaCells).getD 0 = amountIn g.gosDirty := by
  unfold drainGosDelta
  by_cases hnone : g.gosDirty = []
  · rw [hnone]
    exact ⟨g, none, rfl, ⟨rfl, rfl, rfl⟩, hnone, rfl⟩
  · rw [if_neg (by simpa using hnone)]
    dsimp only
    generalize g.gosBaseline = baseline
    obtain ⟨b, hb⟩ := hcross.encodes ⟨g.gosDirty, norms.zipWith sub
      (if baseline.length = norms.length then baseline else norms.map fun _ => ⟨0⟩), hhKeys⟩
    rw [hb]
    exact ⟨_, some b, rfl, ⟨rfl, rfl, rfl⟩, rfl, L.deltaCells_encodeDelta hb⟩

end

namespace MatrixFamily

variable {m : MatrixFamily S C} {factory w w' : m.Wrapper} {cfg : PrecomputeConfig}

/-! ### What the wrappers do -/

/-- What has crossed and waits in the list. -/
def pending (m : MatrixFamily S C) (w : m.Wrapper) : C → ℤ := amountIn (m.core w).gosDirty

variable {L : m.lib.Faithful P}

theorem Gosing.observe (h : m.Gosing w) (hown : m.Own L) (hcross : m.lib.Crosses L)
    (factory : m.Wrapper) (v : ObservationValue) :
    (∃ text, (m.impl factory).observe w v = (w, some text)) ∨
      ∃ w', (m.impl factory).observe w v = (w', none) ∧ m.Gosing w' ∧
        ((m.core w).Below m.lib → (m.core w').Below m.lib) ∧
        m.cells w' + m.pending w' = m.cells w + m.pending w + (m.weigh L (m.sampler L w) v).2 ∧
        m.sampler L w' = (m.weigh L (m.sampler L w) v).1 := by
  rcases observe_cases factory w v with hrefused | ⟨w', g, t, hobs, hsame, hsk, hdirty, hthr, hcore⟩
  · exact Or.inl hrefused
  · refine Or.inr ⟨w', hobs, ⟨hsame.msgpack.trans h.proto, hsame.gos.trans h.on⟩, ?_⟩
    obtain ⟨hcells, hsampler⟩ := readied_spec hown w v
    rw [← hsk] at hcells hsampler
    rw [if_pos h.gosInserts] at hcore
    obtain ⟨hsum, hnext, hbelow⟩ := g.insertGos_spec hcross t (m.insertion v)
    rw [← hcore] at hsum hnext hbelow
    rw [hsampler] at hsum hnext
    refine ⟨fun hw => hbelow fun c => ?_, ?_, hnext⟩
    · rw [hcells, hthr]
      exact hw c
    · rw [hcells, hdirty] at hsum
      exact hsum

theorem Gosing.applyGosMode (h : m.Gosing w) (hon : lt ⟨0⟩ cfg.gosDeltaEpsilon = true)
    (hseg : cfg.sketchType ≠ .kllSketch) (factory : m.Wrapper) :
    Kept w (applyGosMode (m.impl factory) w cfg) ∧
      m.pending (Precompute.applyGosMode (m.impl factory) w cfg) = m.pending w := by
  unfold Precompute.applyGosMode
  split
  · exact ⟨⟨h, rfl, rfl⟩, rfl⟩
  · cases m <;> exact ⟨⟨⟨h.proto, hon⟩, rfl, rfl⟩, rfl⟩

theorem Gosing.computeDelta (h : m.Gosing w) (hcross : m.lib.Crosses L) (factory : m.Wrapper) (prev : Bytes)
    (t : UInt64) :
    ∃ (w' : m.Wrapper) (payload : Option Bytes), (m.impl factory).computeDeltaAgainst w prev
      t = (w', .ok (payload, false)) ∧
      Kept w w' ∧ m.pending w' = 0 ∧ (payload.map m.lib.wire.deltaCells).getD 0 = m.pending w := by
  cases m with
  | countMin lib =>
    obtain ⟨g, payload, hdrain, ⟨hsk, hgos, hthr⟩, hdirty, hsent⟩ :=
      GosState.drainGosDelta_spec hcross (lib.norms w.sk) [] w.toGosState
    refine ⟨{ w with toGosState := g }, payload, ?_, ⟨⟨h.proto, hgos.trans h.on⟩, hsk, hthr⟩, congrArg amountIn hdirty,
      hsent⟩
    show computeDeltaAgainst lib w prev t = _
    unfold computeDeltaAgainst
    rw [if_pos (by rw [show w.gos = true from h.on, show w.useMsgpack = false from h.proto]; rfl), hdrain]
  | countSketch lib key =>
    obtain ⟨g, payload, hdrain, ⟨hsk, hgos, hthr⟩, hdirty, hsent⟩ :=
      GosState.drainGosDelta_spec hcross (lib.norms w.sk) (lib.candidates w.sk) w.toGosState
    refine ⟨{ w with toGosState := g }, payload, ?_, ⟨⟨h.proto, hgos.trans h.on⟩, hsk, hthr⟩, congrArg amountIn hdirty,
      hsent⟩
    show CountSketchWrapper.computeDeltaAgainst lib w prev t = _
    unfold CountSketchWrapper.computeDeltaAgainst
    rw [if_pos (show w.gosActive = true from h.gosInserts), hdrain]
  | ddSketch lib =>
    obtain ⟨g, payload, hdrain, ⟨hsk, hgos, hthr⟩, hdirty, hsent⟩ := GosState.drainGosDelta_spec hcross [] []
      w.toGosState
    refine ⟨{ w with toGosState := g }, payload, ?_, ⟨⟨h.proto, hgos.trans h.on⟩, hsk, hthr⟩, congrArg amountIn hdirty,
      hsent⟩
    show DDSketchWrapper.computeDeltaAgainst lib w prev t = _
    unfold DDSketchWrapper.computeDeltaAgainst
    rw [if_pos (show w.gos = true from h.on), hdrain]

/-! ### What an emission sends -/

/-- What an emission sends and leaves: without a base it sends the cells, with one it sends the list. -/
structure Drains (base : Option Bytes) (w w' : m.Wrapper) (payload : Option (Bytes × Bool)) : Prop where
  kept : Kept w w'
  first : base = none → (payload.map m.lib.wire.payloadCells).getD 0 = m.cells w ∧ m.pending w' = m.pending w
  later : base ≠ none → (payload.map m.lib.wire.payloadCells).getD 0 = m.pending w ∧ m.pending w' = 0

theorem Gosing.snapshot (h : m.Gosing w) (hloss : m.lib.wire.Lossless) :
    ∃ b, m.snapshot w = .ok b ∧ m.lib.wire.wholeCells b = m.cells w := by
  obtain ⟨hwire, hdeltas⟩ := wire_proto h.proto
  rw [← hwire] at hloss
  obtain ⟨b, hsnap, henc⟩ := snapshot_spec hloss hdeltas
  refine ⟨b, hsnap, ?_⟩
  rw [← hwire, hloss.wholeCells_encode henc, cells_wire]
  rfl

section
variable {L : m.lib.Faithful P} (hcross : m.lib.Crosses L) (hloss : m.lib.wire.Lossless)
variable (hon : lt ⟨0⟩ cfg.gosDeltaEpsilon = true) (hseg : cfg.sketchType ≠ .kllSketch)
include hcross hloss hon hseg

theorem Gosing.payloadAgainst (h : m.Gosing w) (factory : m.Wrapper) (base : Option Bytes) (t : UInt64) :
    ∃ (w' : m.Wrapper) (payload : Option Bytes) (isFull : Bool),
      payloadAgainst (m.impl factory) base (Precompute.applyGosMode (m.impl factory) w cfg)
        t = (w', .ok (payload, isFull)) ∧ Drains base w w' (payload.map fun b => (b, isFull)) := by
  obtain ⟨hkept, hpending⟩ := h.applyGosMode hon hseg factory
  generalize Precompute.applyGosMode (m.impl factory) w cfg = w₁ at hkept hpending ⊢
  cases base with
  | none =>
    obtain ⟨b, hsnap, hcells⟩ := hkept.gosing.snapshot hloss
    refine ⟨w₁, some b, true, ?_, hkept, fun _ => ⟨hcells.trans hkept.cells, hpending⟩, fun hno => absurd rfl hno⟩
    unfold Precompute.payloadAgainst
    rw [impl_snapshot, hsnap]
    rfl
  | some prev =>
    obtain ⟨w', payload, hdelta, hkept', hdrained, hsent⟩ := hkept.gosing.computeDelta hcross factory prev t
    refine ⟨w', payload, false, hdelta, hkept.trans hkept', nofun, fun _ => ⟨?_, hdrained⟩⟩
    rw [Option.map_map]
    exact hsent.trans hpending

theorem Gosing.subWindowDelta (h : m.Gosing w) (factory : m.Wrapper) (base : Option Bytes) :
    ∃ base' w' payload, subWindowDelta (m.impl factory) cfg base w = (base', w', payload) ∧
      Drains base w w' payload := by
  obtain ⟨w', payload, isFull, hpay, hdrains⟩ := h.payloadAgainst hcross hloss hon hseg factory base cfg.deltaThreshold
  unfold Precompute.subWindowDelta
  rw [hpay]
  cases isFull with
  | true => exact ⟨_, w', _, rfl, hdrains⟩
  | false =>
    obtain ⟨full, hsnap, -⟩ := hdrains.kept.gosing.snapshot hloss
    dsimp only
    rw [impl_snapshot, hsnap]
    exact ⟨_, w', _, rfl, hdrains⟩

theorem Gosing.boundaryDelta (h : m.Gosing w) (hdelta : cfg.deltaTransmission = true) (factory : m.Wrapper)
    (base : Option Bytes) :
    ∃ base' w' payload, boundaryDelta (m.impl factory) cfg base w = (base', payload) ∧ Drains base w w' payload := by
  obtain ⟨w', payload, isFull, hpay, hdrains⟩ := h.payloadAgainst hcross hloss hon hseg factory base cfg.deltaThreshold
  obtain ⟨hwire, hdeltas⟩ := wire_proto hdrains.kept.gosing.proto
  obtain ⟨b, bs, hempty, -⟩ := emptyBase_spec factory L (hwire ▸ hloss) hdeltas
  refine ⟨some (b :: bs), w', _, ?_, hdrains⟩
  unfold Precompute.boundaryDelta nextBase
  rw [if_pos hdelta, hpay]
  dsimp only
  rw [hempty]
  rfl

end

/-! ### The books -/

/-- A series without a base emits only with nothing in its cells and on its list, and is closed only
with nothing on its list. -/
def based (m : MatrixFamily S C) : Guard m.Wrapper where
  emit base entry := base ≠ none ∨ m.cells entry.sketch = 0 ∧ m.pending entry.sketch = 0
  close base entry := base ≠ none ∨ m.pending entry.sketch = 0

instance [Fintype C] (base : Option Bytes) (entry : Precompute.SeriesEntry m.Wrapper) :
    Decidable (m.based.emit base entry) :=
  inferInstanceAs (Decidable (base ≠ none ∨ m.cells entry.sketch = 0 ∧ m.pending entry.sketch = 0))

instance [Fintype C] (base : Option Bytes) (entry : Precompute.SeriesEntry m.Wrapper) :
    Decidable (m.based.close base entry) :=
  inferInstanceAs (Decidable (base ≠ none ∨ m.pending entry.sketch = 0))

variable {entry : Precompute.SeriesEntry m.Wrapper} {base : Option Bytes}

section
variable {payload : Option (Bytes × Bool)} (h : Drains base entry.sketch w' payload) (hguard : m.based.emit base entry)
include h hguard

theorem Drains.pending : m.pending w' = 0 := by
  cases base with
  | none => exact (h.first rfl).2.trans (hguard.resolve_left fun hno => hno rfl).2
  | some prev => exact (h.later nofun).2

theorem Drains.sent : (payload.map m.lib.wire.payloadCells).getD 0 = m.pending entry.sketch := by
  cases base with
  | none =>
    obtain ⟨hcells, hpending⟩ := hguard.resolve_left fun hno => hno rfl
    rw [(h.first rfl).1, hcells, hpending]
  | some prev => exact (h.later nofun).1

end

/-- The books of a family with GOS: a sketch owes what is in its cells and on its list. -/
def gosCells (hown : m.Own L) (hcross : m.lib.Crosses L) (hloss : m.lib.wire.Lossless)
    (hfactory : m.Gosing factory) (hempty : m.cells factory = 0) (hnone : m.pending factory = 0)
    (hon : lt ⟨0⟩ cfg.gosDeltaEpsilon = true) (hseg : cfg.sketchType ≠ .kllSketch)
    (hdelta : cfg.deltaTransmission = true) : Ledger (m.impl factory) cfg m.based P (C → ℤ) where
  start := m.sampler L (newSketch (m.impl factory) cfg)
  meter := m.weigh L
  value := m.lib.wire.payloadCells
  readable _ := True
  owes _ w p x := m.Gosing w ∧ (m.core w).Below m.lib ∧ m.sampler L w = p ∧ x = m.cells w + m.pending w
  idle _ := True
  left w _ x := (x = 0 ∨ x = m.cells w) ∧ ∀ c, |x c| < max 1 ((m.core w).gosThreshold.toNat : ℤ)
  idle_none := trivial
  opened base _ := by
    obtain ⟨hsame, hcells, hdirty, hthr⟩ := newSketch_spec factory L cfg
    have hcells := hcells.trans hempty
    refine ⟨⟨hsame.msgpack.trans hfactory.proto, hsame.gos.trans hfactory.on⟩, fun c => ?_, rfl, ?_⟩
    · show |m.cells (newSketch (m.impl factory) cfg) c| < _
      rw [hcells, Pi.zero_apply, abs_zero]
      omega
    · unfold pending
      rw [hcells, hdirty, zero_add]
      exact hnone.symm
  observed base w p x v howes := by
    obtain ⟨hgosing, hbelow, rfl, rfl⟩ := howes
    refine (hgosing.observe hown hcross factory v).imp_right ?_
    rintro ⟨w', h, hgosing', hbelow', hsum, hsampler⟩
    exact ⟨w', h, hgosing', hbelow' hbelow, hsampler, hsum.symm⟩
  emitted base entry p x howes _ hguard := by
    obtain ⟨hgosing, hbelow, hp, rfl⟩ := howes
    obtain ⟨base', w', payload, heq, hdrains⟩ := hgosing.subWindowDelta hcross hloss hon hseg factory base
    have hsent := hdrains.sent hguard
    have hpending := hdrains.pending hguard
    have hkept := hdrains.kept
    have hsampler : m.sampler L w' = p := (congrArg L.sampler hkept.sk).trans hp
    rw [heq]
    cases payload with
    | none =>
      refine ⟨hkept.gosing, hkept.below hbelow, hsampler, ?_⟩
      rw [hkept.cells, hpending, ← hsent]
      rfl
    | some payload =>
      obtain ⟨hsame, hcore⟩ := emittedSketch_core factory hseg w'
      refine ⟨trivial, m.cells entry.sketch, ?_, ⟨hsame.msgpack.trans hkept.gosing.proto,
        hsame.gos.trans hkept.gosing.on⟩, ?_,
        (congrArg (fun g : GosState S C => L.sampler g.sk) hcore).trans hsampler, ?_⟩
      · rw [add_comm, ← hsent]
        rfl
      · rw [hcore]
        exact hkept.below hbelow
      · unfold pending cells
        rw [hcore]
        show _ = m.cells w' + m.pending w'
        rw [hpending, hkept.cells, add_zero]
        rfl
  closed base entry p x howes hguard := by
    obtain ⟨hgosing, hbelow, hp, rfl⟩ := howes
    obtain ⟨base', w', payload, heq, hdrains⟩ := hgosing.boundaryDelta hcross hloss hon hseg hdelta factory base
    rw [heq]
    refine ⟨trivial, fun _ _ => trivial, ?_⟩
    cases base with
    | none =>
      refine ⟨0, ?_, Or.inl rfl, fun c => ?_⟩
      · rw [(hdrains.first rfl).1, hguard.resolve_left fun hno => hno rfl]
      · rw [Pi.zero_apply, abs_zero]
        omega
    | some prev =>
      refine ⟨m.cells entry.sketch, ?_, Or.inr rfl, hbelow⟩
      rw [(hdrains.later nofun).1, add_comm]

/-! ### Windows -/

theorem pending_visited (hcross : m.lib.Crosses L) (hloss : m.lib.wire.Lossless)
    (hon : lt ⟨0⟩ cfg.gosDeltaEpsilon = true) (hseg : cfg.sketchType ≠ .kllSketch)
    (htype : cfg.sketchType ≠ .unspecified) (factory : m.Wrapper) (hgosing : m.Gosing entry.sketch)
    (hguard : m.based.emit base entry) : m.pending (visited (m.impl factory) cfg base entry).2.1.sketch = 0 := by
  obtain ⟨base', w', payload, heq, hdrains⟩ := hgosing.subWindowDelta hcross hloss hon hseg factory base
  have hemits : subWindowShouldEmit (m.impl factory) entry cfg = true := by
    simp [subWindowShouldEmit, gosDecides, hon, htype]
  unfold visited
  rw [if_pos hemits, heq]
  cases payload with
  | none => exact hdrains.pending hguard
  | some payload =>
    rw [sketch_afterEmit]
    unfold pending
    rw [(emittedSketch_core factory hseg w').2]
    exact hdrains.pending hguard

end MatrixFamily

end AsapCollector.Sketches

namespace AsapCollector.Sketches.TwoCounters

open Precompute MatrixFamily

theorem amountIn_crossed (x y : ℤ) :
    amountIn ([(false, x), (true, y)].filter fun u => u.2 ≠ 0) = amountIn [(false, x), (true, y)] := by
  funext c
  by_cases hx : x = 0 <;> by_cases hy : y = 0 <;> cases c <;> simp [amountIn, hx, hy]

theorem cross_add (t : UInt64) (x w : ℤ) : (cross t x w).1 + (cross t x w).2 = x + w := by
  unfold cross
  split <;> simp

theorem cross_below {t : UInt64} (ht : 1 ≤ t.toNat) (x w : ℤ) : |(cross t x w).1| < t.toNat ∨ (cross t x w).1 = x := by
  unfold cross
  split
  · exact Or.inl (by simpa using Nat.lt_of_lt_of_le Nat.zero_lt_one ht)
  · rename_i hnot
    by_cases hw : w = 0
    · exact Or.inr (by simp [hw])
    · exact Or.inl (by simpa [hw] using hnot)

theorem crosses : lib.toCellLib.Crosses faithful where
  sampler _ _ _ := rfl
  cells s o t := by
    funext c
    have hlist : amountIn (lib.insertGos s o t).2 = amountIn [(false, (cross t (cells s false) (weight o false)).2),
        (true, (cross t (cells s true) (weight o true)).2)] := amountIn_crossed _ _
    show cells (lib.insertGos s o t).1 c + amountIn (lib.insertGos s o t).2 c = cells s c + weight o c
    rw [hlist, amountIn_pair]
    cases c <;> exact cross_add t _ _
  below s o t ht c := by
    have hcell : cells (lib.insertGos s o t).1 c = (cross t (cells s c) (weight o c)).1 := congrFun (cells_ofCells _) c
    show |cells (lib.insertGos s o t).1 c| < _ ∨ cells (lib.insertGos s o t).1 c = cells s c
    rw [hcell]
    exact cross_below ht _ _
  encodes d := ⟨_, rfl⟩

def primed : family.Wrapper :=
  (family.impl (CMSWrapper.new lib false)).setGosMode (CMSWrapper.new lib false) (Float64.ofInt 1) (some 1)

def gosCounts : PrecomputeConfig := { deltaCounts with gosDeltaEpsilon := Float64.ofInt 1, gosSites := 1 }

/-- An item of the second counter; `rowSampled` says that its source has admitted it, here to no row. -/
def itemAt (timestampMs : Nat) (rowSampled : Bool) : Call family.Wrapper :=
  .observe { timestampMs, value := { kind := .bytes, bytes := [0], rowSampled } } (if_neg (by simp)) (.stored _)

/-- A window with an item that adds nothing, and one with three items, which have crossed when it emits. -/
def threeCrossed : List (Call family.Wrapper) :=
  itemAt 12 true :: List.replicate 3 (itemAt 22 false) ++ [.emitSubWindow 25 (.stored _)]

/-- The mass of a new sketch is zero, so its first item reaches the threshold and goes to the list, which a first frame
does not have. -/
def firstCrossing : List (Call family.Wrapper) := [itemAt 12 false, .drain (.stored _)]

end AsapCollector.Sketches.TwoCounters
