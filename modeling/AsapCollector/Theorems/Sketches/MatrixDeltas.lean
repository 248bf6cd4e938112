import AsapCollector.Theorems.Sketches.Matrix

/-! Without GOS a sketch owes its receiver the difference between its cells and those in the base of its next delta. A
whole frame ships all the cells, which is the same only while the base has no weight. -/

namespace AsapCollector.Sketches.MatrixFamily

open Precompute WindowState List History

variable {S C P : Type} [DecidableEq C] {m : MatrixFamily S C} {factory w : m.Wrapper} {cfg : PrecomputeConfig}

def held (W : Wire S C) (base : Option Bytes) : C → ℤ := (base.map W.wholeCells).getD 0

/-! ### What an emission sends -/

inductive Emits (m : MatrixFamily S C) (w : m.Wrapper) (t : UInt64) : Option Bytes → Bytes × Bool → Prop
  | first {b : Bytes} (henc : (m.wire w).encode (m.core w).sk = .ok b) : Emits m w t none (b, true)
  | next {prev b : Bytes} {isFull : Bool} (hsends : Sends m w prev t (some b, isFull)) :
    Emits m w t (some prev) (b, isFull)

variable {base : Option Bytes}

theorem Emits.whole {t : UInt64} {b : Bytes} (h : Emits m w t base (b, true)) :
    (m.wire w).encode (m.core w).sk = .ok b := by
  cases h with
  | first henc => exact henc
  | next hsends =>
    cases hsends with
    | full henc _ => exact henc

theorem Emits.wrote {t : UInt64} {payload : Bytes × Bool} (h : Emits m w t base payload) :
    (m.wire w).Wrote payload := by
  cases h with
  | first henc => exact ⟨_, henc⟩
  | next hsends =>
    cases hsends with
    | full henc _ => exact ⟨_, henc⟩
    | delta hdelta _ => exact ⟨_, _, _, hdelta⟩

structure Plain (m : MatrixFamily S C) (w : m.Wrapper) : Prop where
  lossless : (m.wire w).Lossless
  deltas : m.deltas w = true
  gosOff : (m.core w).gos = false

theorem Plain.of_same {w w' : m.Wrapper} (h : m.Plain w) (hsame : SameMode w w') : m.Plain w' :=
  ⟨hsame.wire ▸ h.lossless, hsame.deltas.trans h.deltas, hsame.gos.trans h.gosOff⟩

variable {L : m.lib.Faithful P}

theorem Plain.payloadAgainst (h : m.Plain w) (hown : m.Own L) (factory : m.Wrapper)
    (base : Option Bytes) (t : UInt64) :
    ∃ payload : Bytes × Bool, payloadAgainst (m.impl factory) base w t = (w, .ok (some payload.1, payload.2)) ∧
      Emits m w t base payload := by
  cases base with
  | none =>
    obtain ⟨b, hsnap, henc⟩ := snapshot_spec h.lossless h.deltas
    refine ⟨(b, true), ?_, .first henc⟩
    unfold Precompute.payloadAgainst
    rw [impl_snapshot, hsnap]
    rfl
  | some prev =>
    obtain ⟨r, hr, hsends⟩ := computeDelta_plain factory hown h.lossless h.deltas h.gosOff prev t
    cases hsends with
    | full henc hwhy => exact ⟨(_, true), hr, .next (.full henc hwhy)⟩
    | delta hd hbase => exact ⟨(_, false), hr, .next (.delta hd hbase)⟩

theorem Plain.subWindowDelta (h : m.Plain w) (hown : m.Own L) (factory : m.Wrapper)
    (hoff : cfg.gosDeltaEpsilon.le ⟨0⟩ = true) (base : Option Bytes) :
    ∃ base' payload, subWindowDelta (m.impl factory) cfg base w = (some base', w, some payload) ∧
      (m.wire w).encode (m.core w).sk = .ok base' ∧ Emits m w cfg.deltaThreshold base payload := by
  have happly : applyGosMode (m.impl factory) w cfg = w := if_pos hoff
  obtain ⟨⟨b, isFull⟩, hpay, hemits⟩ := h.payloadAgainst hown factory base cfg.deltaThreshold
  unfold Precompute.subWindowDelta
  rw [happly, hpay]
  cases isFull with
  | true => exact ⟨b, _, rfl, hemits.whole, hemits⟩
  | false =>
    obtain ⟨full, hsnap, henc⟩ := snapshot_spec h.lossless h.deltas
    dsimp only
    rw [impl_snapshot, hsnap]
    exact ⟨full, _, rfl, henc, hemits⟩

theorem Plain.boundaryDelta (h : m.Plain w) (hown : m.Own L) (factory : m.Wrapper)
    (hoff : cfg.gosDeltaEpsilon.le ⟨0⟩ = true) (hdelta : cfg.deltaTransmission = true) (base : Option Bytes) :
    ∃ b bs payload, boundaryDelta (m.impl factory) cfg base w = (some (b :: bs), some payload) ∧
      (m.wire w).wholeCells (b :: bs) = 0 ∧ Emits m w cfg.deltaThreshold base payload := by
  have happly : applyGosMode (m.impl factory) w cfg = w := if_pos hoff
  obtain ⟨payload, hpay, hemits⟩ := h.payloadAgainst hown factory base cfg.deltaThreshold
  obtain ⟨b, bs, hempty, hzero⟩ := emptyBase_spec factory L h.lossless h.deltas
  refine ⟨b, bs, payload, ?_, hzero, hemits⟩
  unfold Precompute.boundaryDelta nextBase
  rw [if_pos hdelta, happly, hpay]
  dsimp only
  rw [hempty]
  rfl

/-- A base without counts aside, the delta is shorter than the whole frame. -/
def Fitting (m : MatrixFamily S C) (t : UInt64) (base : Option Bytes) (w : m.Wrapper) : Prop :=
  ∀ prev ∈ base, (m.wire w).wholeCells prev = 0 ∨ m.fits w prev t = true

instance [Fintype C] (t : UInt64) (base : Option Bytes) (w : m.Wrapper) : Decidable (m.Fitting t base w) :=
  inferInstanceAs (Decidable (∀ prev ∈ base, (m.wire w).wholeCells prev = 0 ∨ m.fits w prev t = true))

theorem Emits.shipped {t : UInt64} {part : ℤ → ℤ} (hshows : (m.wire w).Shows t part) (hloss : (m.wire w).Lossless)
    {payload : Bytes × Bool} (h : Emits m w t base payload) (hbased : base ≠ some []) (hfits : m.Fitting t base w) :
    (m.wire w).payloadCells payload + held (m.wire w) base = m.cells w ∨
      (base ≠ none ∧ ∀ c, (m.wire w).payloadCells payload c = part (m.cells w c - held (m.wire w) base c)) := by
  have hcells : m.cells w = (m.wire w).cells (m.core w).sk := by rw [cells_wire]; rfl
  rw [hcells]
  cases h with
  | first henc => exact Or.inl ((add_zero _).trans (hloss.wholeCells_encode henc))
  | @next prev b isFull hsends =>
    cases hsends with
    | full henc hwhy =>
      refine Or.inl ?_
      have hzero : (m.wire w).wholeCells prev = 0 := by
        rcases hwhy with rfl | hzero | hbig
        · exact absurd rfl hbased
        · exact hzero
        · exact (hfits prev rfl).resolve_right (by rw [hbig]; decide)
      show (m.wire w).wholeCells b + (m.wire w).wholeCells prev = _
      rw [hzero, add_zero, hloss.wholeCells_encode henc]
    | delta hd hbase =>
      refine Or.inr ⟨by simp, fun c => ?_⟩
      show (m.wire w).deltaCells b c = part ((m.wire w).cells (m.core w).sk c - (m.wire w).wholeCells prev c)
      rw [hshows _ _ _ hd c, cells_wire, hbase]

/-! ### The books -/

theorem Plain.observe (hown : m.Own L) (h : m.Plain w) (factory : m.Wrapper) (v : ObservationValue) :
    (∃ text, (m.impl factory).observe w v = (w, some text)) ∨
      ∃ w', (m.impl factory).observe w v = (w', none) ∧ SameMode w w' ∧
        m.cells w' = m.cells w + (m.weigh L (m.sampler L w) v).2 ∧
        m.sampler L w' = (m.weigh L (m.sampler L w) v).1 := by
  rcases observe_cases factory w v with hrefused | ⟨w', g, t, hobs, hsame, hsk, -, -, hcore⟩
  · exact Or.inl hrefused
  · refine Or.inr ⟨w', hobs, hsame, ?_⟩
    obtain ⟨hcells, hsampler⟩ := readied_spec hown w v
    rw [gosInserts_off h.gosOff, if_neg (by decide)] at hcore
    unfold cells sampler weigh
    rw [hcore]
    unfold GosState.insert
    rw [L.cells_insert, L.sampler_insert, hsk, hcells, hsampler]
    exact ⟨rfl, rfl⟩

structure Fresh (m : MatrixFamily S C) (factory : m.Wrapper) : Prop extends m.Plain factory where
  empty : m.cells factory = 0

/-- The books of a family without GOS: a sketch owes what its cells have gained on its base. `part` is what
a delta shows of a difference, and `left` bounds the rest. -/
def plainCells (hown : m.Own L) (hfresh : m.Fresh factory)
    (hoff : cfg.gosDeltaEpsilon.le ⟨0⟩ = true) (hseg : cfg.sketchType ≠ .kllSketch)
    (hdelta : cfg.deltaTransmission = true) {part : ℤ → ℤ} (hshows : (m.wire factory).Shows cfg.deltaThreshold part)
    {G : Guard m.Wrapper} (hemit : ∀ base entry, G.emit base entry → m.Fitting cfg.deltaThreshold base entry.sketch ∧
      (base ≠ none → ∀ c, part (m.cells entry.sketch c - held (m.wire entry.sketch) base c) =
        m.cells entry.sketch c - held (m.wire entry.sketch) base c))
    (hclose : ∀ base entry, G.close base entry → m.Fitting cfg.deltaThreshold base entry.sketch)
    (left : (C → ℤ) → Prop) (hzero : left 0) (hleft : ∀ x : C → ℤ, left fun c => x c - part (x c)) :
    Ledger (m.impl factory) cfg G P (C → ℤ) where
  start := m.sampler L (newSketch (m.impl factory) cfg)
  meter := m.weigh L
  value := (m.wire factory).payloadCells
  readable := (m.wire factory).Wrote
  owes base w p x := SameMode factory w ∧ base ≠ some [] ∧ m.sampler L w = p ∧
    x + held (m.wire factory) base = m.cells w
  idle base := base ≠ some [] ∧ held (m.wire factory) base = 0
  left _ _ := left
  idle_none := ⟨nofun, rfl⟩
  opened base hidle := by
    obtain ⟨hsame, hcells, -⟩ := newSketch_spec factory L cfg
    exact ⟨hsame, hidle.1, rfl, by rw [hcells, hfresh.empty, hidle.2, add_zero]⟩
  observed base w p x v howes := by
    obtain ⟨hsame, hbased, rfl, hx⟩ := howes
    refine ((hfresh.toPlain.of_same hsame).observe hown factory v).imp_right ?_
    rintro ⟨w', h, hsame', hcells, hsampler⟩
    refine ⟨w', h, hsame.trans hsame', hbased, hsampler, ?_⟩
    rw [hcells, ← hx, add_right_comm]
  emitted base entry p x howes _ hguard := by
    obtain ⟨hsame, hbased, hp, hx⟩ := howes
    have hplain := hfresh.toPlain.of_same hsame
    obtain ⟨hfits, hpart⟩ := hemit base entry hguard
    obtain ⟨base', payload, heq, hbase', hemits⟩ := hplain.subWindowDelta hown factory hoff base
    obtain ⟨hsame', hcore⟩ := emittedSketch_core factory hseg entry.sketch
    rw [heq]
    rw [← hsame.wire] at hshows hx ⊢
    refine ⟨hemits.wrote, 0, ?_, hsame.trans hsame', ?_, ?_, ?_⟩
    · rw [add_zero]
      rcases hemits.shipped hshows hplain.lossless hbased hfits with hsum | ⟨hsome, hsum⟩
      · exact add_right_cancel (hsum.trans hx.symm)
      · funext c
        rw [hsum c, hpart hsome c, ← hx]
        simp
    · exact fun hno => hplain.lossless.encode_ne_nil hbase' (Option.some.inj hno)
    · unfold sampler
      rw [hcore]
      exact hp
    · unfold cells
      rw [hcore, zero_add, ← cells_wire entry.sketch]
      exact hplain.lossless.wholeCells_encode hbase'
  closed base entry p x howes hguard := by
    obtain ⟨hsame, hbased, hp, hx⟩ := howes
    have hplain := hfresh.toPlain.of_same hsame
    obtain ⟨b, bs, payload, heq, hempty, hemits⟩ := hplain.boundaryDelta hown factory hoff hdelta base
    rw [heq]
    rw [← hsame.wire] at hshows hx ⊢
    refine ⟨⟨by simp, hempty⟩, fun _ h => by cases h; exact hemits.wrote, ?_⟩
    show ∃ x', (m.wire entry.sketch).payloadCells payload + x' = x ∧ left x'
    rcases hemits.shipped hshows hplain.lossless hbased (hclose base entry hguard) with hsum | ⟨-, hsum⟩
    · exact ⟨0, by rw [add_zero]; exact add_right_cancel (hsum.trans hx.symm), hzero⟩
    · refine ⟨_, ?_, hleft x⟩
      funext c
      rw [Pi.add_apply, hsum c, ← hx]
      simp

/-! ### Windows -/

def FramesOf (m : MatrixFamily S C) (startMs endMs : Nat) (envs : List SketchEnvelope) : Prop :=
  ∀ env ∈ envs, m.lib.wire.Wrote (env.payload, !env.encoding.isDelta) ∧ env.windowStartMs = startMs ∧
    env.windowEndMs = endMs

theorem foldl_absorb_cells (L : m.lib.Faithful P) (happart : m.ToldApart) (hloss : m.lib.wire.Lossless)
    (hfactory : m.cells factory = 0) {startMs endMs : Nat} :
    ∀ {envs : List SketchEnvelope} {entry : Precompute.SeriesEntry m.Wrapper}, m.FramesOf startMs endMs envs →
      OneWindow entry startMs endMs → m.cells (envs.foldl (absorb (m.impl factory)) entry).sketch =
        m.cells entry.sketch + (envs.map fun env => m.lib.wire.payloadCells (env.payload, !env.encoding.isDelta)).sum
  | [], entry, _, _ => by simp
  | env :: envs, entry, hall, hwindow => by
    obtain ⟨hwrote, rfl, rfl⟩ := hall env mem_cons_self
    obtain ⟨hcells, hwindow'⟩ := absorb_spec _ L happart hloss hfactory hwrote hwindow
    rw [foldl_cons, foldl_absorb_cells L happart hloss hfactory (fun e he => hall e (mem_cons_of_mem _ he))
      hwindow', hcells, map_cons, sum_cons, add_assoc]

theorem received_cells (L : m.lib.Faithful P) (happart : m.ToldApart) (hloss : m.lib.wire.Lossless)
    (hfactory : m.cells factory = 0) {startMs endMs : Nat} {envs : List SketchEnvelope}
    (hall : m.FramesOf startMs endMs envs) :
    m.cells (received (m.impl factory) envs).sketch =
      (envs.map fun env => m.lib.wire.payloadCells (env.payload, !env.encoding.isDelta)).sum := by
  have hsame : (m.impl factory).factory = factory := by cases m <;> rfl
  refine (foldl_absorb_cells L happart hloss hfactory hall (Or.inl rfl)).trans ?_
  rw [hsame, hfactory, zero_add]

def fitting (m : MatrixFamily S C) (t : UInt64) : Guard m.Wrapper where
  emit base entry := m.Fitting t base entry.sketch
  close base entry := m.Fitting t base entry.sketch

instance [Fintype C] (t : UInt64) (base : Option Bytes) (entry : Precompute.SeriesEntry m.Wrapper) :
    Decidable ((m.fitting t).emit base entry) :=
  inferInstanceAs (Decidable (m.Fitting t base entry.sketch))

instance [Fintype C] (t : UInt64) (base : Option Bytes) (entry : Precompute.SeriesEntry m.Wrapper) :
    Decidable ((m.fitting t).close base entry) :=
  inferInstanceAs (Decidable (m.Fitting t base entry.sketch))

/-- Besides, a sub-window emission finds no cell that has changed by less than the threshold. -/
def carrying (m : MatrixFamily S C) (t : UInt64) : Guard m.Wrapper where
  emit base entry := m.Fitting t base entry.sketch ∧
    ∀ prev ∈ base, ∀ c, m.cells entry.sketch c = (m.wire entry.sketch).wholeCells prev c ∨
      (t.toNat : ℤ) ≤ |m.cells entry.sketch c - (m.wire entry.sketch).wholeCells prev c|
  close base entry := m.Fitting t base entry.sketch

instance [Fintype C] (t : UInt64) (base : Option Bytes) (entry : Precompute.SeriesEntry m.Wrapper) :
    Decidable ((m.carrying t).emit base entry) :=
  inferInstanceAs (Decidable (m.Fitting t base entry.sketch ∧
    ∀ prev ∈ base, ∀ c, m.cells entry.sketch c = (m.wire entry.sketch).wholeCells prev c ∨
      (t.toNat : ℤ) ≤ |m.cells entry.sketch c - (m.wire entry.sketch).wholeCells prev c|))

instance [Fintype C] (t : UInt64) (base : Option Bytes) (entry : Precompute.SeriesEntry m.Wrapper) :
    Decidable ((m.carrying t).close base entry) :=
  inferInstanceAs (Decidable (m.Fitting t base entry.sketch))

theorem abs_sub_shown_lt {t : UInt64} (hpos : 0 < t) (x : ℤ) : |x - shown t x| < t.toNat := by
  have ht : 0 < t.toNat := UInt64.lt_iff_toNat_lt.mp hpos
  unfold shown
  split
  · simpa using ht
  · rename_i hsmall
    rw [sub_zero]
    omega

end AsapCollector.Sketches.MatrixFamily

namespace AsapCollector.Sketches.TwoCounters

open Precompute MatrixFamily

def deltaCounts : PrecomputeConfig where
  aggID := 7
  sketchType := .countMinSketch
  window := { size := 10 * millisecond }
  deltaTransmission := true

def countAt (timestampMs : Nat) : Call family.Wrapper :=
  .observe { timestampMs, value := { kind := .bytes, bytes := [0] } } rfl (.stored _)

def plainFactory : family.Wrapper := CMSWrapper.new lib false

abbrev runFrom (factory : family.Wrapper) (cfg : PrecomputeConfig) (calls : List (Call family.Wrapper)) :
    History family.Wrapper :=
  (History.start cfg).run (family.impl factory) calls

/-- What the items that a run admits to a window amount to. -/
abbrev admittedTo (factory : family.Wrapper) (cfg : PrecomputeConfig) (calls : List (Call family.Wrapper))
    (startMs : Nat) : Bool → ℤ :=
  (metered (family.weigh faithful) (family.sampler faithful (WindowState.newSketch (family.impl factory) cfg))
    ((runFrom factory cfg calls).admissions (str "7||") startMs)).2

/-- Five items, an emission, and one more item before the window closes. -/
def smallChange : List (Call family.Wrapper) :=
  List.replicate 5 (countAt 12) ++ [.emitSubWindow 13 (.stored _), countAt 15, .drain (.stored _)]

/-- One item, an emission, and a second item: the delta is longer than the whole frame. -/
def largeDelta : List (Call family.Wrapper) :=
  [countAt 12, .emitSubWindow 13 (.stored _), countAt 15, .drain (.stored _)]

def coarseCounts : PrecomputeConfig := { deltaCounts with deltaThreshold := 2 }

/-- Five items, an emission, two more items and an emission that lists them, and one more item. -/
def listedChange : List (Call family.Wrapper) :=
  List.replicate 5 (countAt 12) ++ [.emitSubWindow 13 (.stored _), countAt 14, countAt 14,
    .emitSubWindow 15 (.stored _), countAt 16, .drain (.stored _)]

/-- Five items and an emission, and twice one more item and an emission. -/
def creepingChange : List (Call family.Wrapper) :=
  List.replicate 5 (countAt 12) ++ [.emitSubWindow 13 (.stored _), countAt 14, .emitSubWindow 15 (.stored _),
    countAt 16, .emitSubWindow 17 (.stored _), .drain (.stored _)]

end AsapCollector.Sketches.TwoCounters
