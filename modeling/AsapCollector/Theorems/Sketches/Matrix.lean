import AsapCollector.Lib.Unary
import AsapCollector.Sketches.Matrix
import AsapCollector.Theorems.Precompute.Ledger

/-! What is assumed of `sketchlib-go`, and what the operations of the three wrappers do to the cells of their sketch. -/

namespace AsapCollector.Sketches

open Precompute CMSWrapper CountSketchWrapper Float64 WindowState

variable {S C P : Type}

/-! ### Fallible steps -/

theorem ok_of_bind {α β : Type} {x : Except String α} {f : α → Except String β} {b : β} (h : (x >>= f) = .ok b) :
    ∃ a, x = .ok a ∧ f a = .ok b := by
  cases x with
  | error e => cases h
  | ok a => exact ⟨a, rfl, h⟩

theorem ok_of_toOption {α : Type} {x : Except String α} {a : α} (h : x.toOption = some a) : x = .ok a := by
  cases x with
  | error e => cases h
  | ok a' =>
    cases h
    rfl

/-! ### What is assumed of the library -/

section
variable [DecidableEq C]

/-- What the updates add up to in a cell. -/
def amountIn (updates : List (C × ℤ)) (c : C) : ℤ := ((updates.filter fun u => u.1 = c).map Prod.snd).sum

@[simp] theorem amountIn_nil : amountIn ([] : List (C × ℤ)) = 0 := rfl

theorem amountIn_append (us vs : List (C × ℤ)) : amountIn (us ++ vs) = amountIn us + amountIn vs := by
  funext c
  simp [amountIn, List.filter_append, List.sum_append]

end

/-- A way to write a sketch down: whole frames, and deltas against a sketch that was read from one. -/
structure Wire (S C : Type) where
  cells : S → C → ℤ
  encode : S → Except String Bytes
  decode : Bytes → Except String S
  /-- The delta from the first sketch to the second. -/
  delta : S → S → UInt64 → Except String Bytes
  /-- What a delta adds to each cell. -/
  deltaCells : Bytes → C → ℤ

namespace Wire

variable (W : Wire S C)

def diff (prev : Bytes) (cur : S) (threshold : UInt64) : Except String Bytes := do
  let base ← W.decode prev
  W.delta base cur threshold

def wholeCells (b : Bytes) : C → ℤ :=
  match W.decode b with
  | .ok s => W.cells s
  | .error _ => 0

/-- What a payload adds to each cell; the flag marks a whole frame. -/
def payloadCells (payload : Bytes × Bool) : C → ℤ :=
  if payload.2 then W.wholeCells payload.1 else W.deltaCells payload.1

def Wrote (payload : Bytes × Bool) : Prop :=
  if payload.2 then ∃ s, W.encode s = .ok payload.1 else ∃ prev cur t, W.delta prev cur t = .ok payload.1

/-- Every sketch can be written and comes back with its cells. -/
def Lossless : Prop := ∀ s, ∃ b t, W.encode s = .ok b ∧ b ≠ [] ∧ W.decode b = .ok t ∧ W.cells t = W.cells s

/-- A delta holds the given part of the change in each cell. -/
def Shows (threshold : UInt64) (part : ℤ → ℤ) : Prop :=
  ∀ prev cur b, W.delta prev cur threshold = .ok b → ∀ c, W.deltaCells b c = part (W.cells cur c - W.cells prev c)

variable {W}

variable {b : Bytes}

theorem Lossless.wholeCells_encode (h : W.Lossless) {s : S} (henc : W.encode s = .ok b) :
    W.wholeCells b = W.cells s := by
  obtain ⟨b', t, henc', -, hdec, hcells⟩ := h s
  cases henc.symm.trans henc'
  unfold wholeCells
  rw [hdec]
  exact hcells

theorem Lossless.encode_ne_nil (h : W.Lossless) {s : S} (henc : W.encode s = .ok b) : b ≠ [] := by
  obtain ⟨b', -, henc', hne, -⟩ := h s
  cases henc.symm.trans henc'
  exact hne

theorem wholeCells_decode {s : S} (h : W.decode b = .ok s) : W.wholeCells b = W.cells s := by
  unfold wholeCells
  rw [h]

end Wire

namespace CellLib

variable [DecidableEq C]

/-- What is assumed of the library, whatever the family: an insertion adds the weight that the sampler
lets through, merging a sketch and applying a delta add, and deltas are written without loss. -/
structure Faithful (lib : CellLib S C) (P : Type) where
  /-- The state of the sampler, which alone decides what an insertion weighs. -/
  sampler : S → P
  restart : Float64 → P
  next : P → Insertion → P
  weight : P → Insertion → C → ℤ
  cells_new : lib.cells lib.new = 0
  cells_withSampleP : ∀ s p, lib.cells (lib.withSampleP s p) = lib.cells s
  sampler_withSampleP : ∀ s p, sampler (lib.withSampleP s p) = restart p
  cells_insert : ∀ s o, lib.cells (lib.insert s o) = lib.cells s + weight (sampler s) o
  sampler_insert : ∀ s o, sampler (lib.insert s o) = next (sampler s) o
  merged : ∀ s t, ∃ u, lib.merge s t = .ok u ∧ lib.cells u = lib.cells s + lib.cells t
  cells_applyDelta : ∀ s d, lib.cells (lib.applyDelta s d) = lib.cells s + amountIn d.cells
  encodedDelta : ∀ d b, lib.encodeDelta d = .ok b → ∃ d', lib.decodeDelta b = .ok d' ∧
    amountIn d'.cells = amountIn d.cells

/-- What is assumed for a receiver that is not told which it reads: a delta is no whole frame, and only an
empty delta takes no bytes. -/
structure ToldApart (lib : CellLib S C) : Prop where
  decode : ∀ d b, lib.encodeDelta d = .ok b → ∃ e, lib.decode b = .error e
  nil : ∀ d, lib.encodeDelta d = .ok [] → amountIn d.cells = 0

/-- The payloads in the library's own encoding. -/
def wire (lib : CellLib S C) : Wire S C where
  cells := lib.cells
  encode := lib.encode
  decode := lib.decode
  delta prev cur threshold := lib.computeDelta prev cur threshold >>= lib.encodeDelta
  deltaCells b :=
    match lib.decodeDelta b with
    | .ok d => amountIn d.cells
    | .error _ => 0

variable {lib : CellLib S C}

theorem Faithful.deltaCells_encodeDelta (L : lib.Faithful P) {d : CellDelta C} {b : Bytes}
    (h : lib.encodeDelta d = .ok b) : lib.wire.deltaCells b = amountIn d.cells := by
  obtain ⟨d', hdelta, hsame⟩ := L.encodedDelta d b h
  unfold wire
  dsimp only
  rw [hdelta]
  exact hsame

end CellLib

def CountSketchLib.heapWire (lib : CountSketchLib S C) (heapSize : Nat) : Wire S C where
  cells := lib.cells
  encode s := lib.encodeHeap s heapSize
  decode := lib.decodeHeap
  delta prev cur threshold := lib.encodeHeapDelta cur prev heapSize threshold
  deltaCells b :=
    match lib.applyHeapDelta lib.new b with
    | .ok s => lib.cells s
    | .error _ => 0

namespace MatrixFamily

open DDSketchWrapper

variable {m : MatrixFamily S C}

/-- Whether the wrapper sends deltas; a CountMin in MessagePack does not. -/
def deltas : (m : MatrixFamily S C) → m.Wrapper → Bool
  | .countMin _, w => !useMsgpack w
  | _, _ => true

section
variable [DecidableEq C]

/-- The payloads of the family; a heap goes along with a CountSketch in msgpack. -/
def wire : (m : MatrixFamily S C) → m.Wrapper → Wire S C
  | .countMin lib, _ => lib.wire
  | .countSketch lib _, w =>
    if heapMsgpack w then lib.heapWire (heapSize w) else lib.wire
  | .ddSketch lib, _ => lib.wire

theorem wire_countSketch (lib : CountSketchLib S C) (key : Bytes) (w : CountSketchWrapper S C) :
    (countSketch lib key).wire w = if w.heapMsgpack then lib.heapWire w.heapSize else lib.wire :=
  rfl

theorem wire_proto {w : m.Wrapper} (h : m.msgpack w = false) : m.wire w = m.lib.wire ∧ m.deltas w = true := by
  cases m with
  | countMin lib => exact ⟨rfl, by rw [deltas, show w.useMsgpack = false from h]; rfl⟩
  | countSketch lib key => exact ⟨if_neg (by rw [show w.heapMsgpack = false from h]; decide), rfl⟩
  | ddSketch lib => exact ⟨rfl, rfl⟩

theorem cells_wire (w : m.Wrapper) : (m.wire w).cells = m.lib.cells := by
  cases m with
  | countMin lib => rfl
  | countSketch lib key =>
    rw [wire_countSketch]
    split <;> rfl
  | ddSketch lib => rfl

/-! ### What is assumed of one family -/

/-- What is assumed of the library of one family only: the shortcut of CountMin against an empty base is
the delta against a new sketch, and the sampling rate that a DDSketch sends along changes nothing else. -/
def Own : (m : MatrixFamily S C) → m.lib.Faithful P → Prop
  | .countMin lib, _ => ∀ s t, lib.computeDeltaAgainstEmpty s t = lib.computeDelta lib.new s t
  | .countSketch _ _, _ => True
  | .ddSketch lib, L =>
    ∀ s p, lib.cells (lib.setWireSampleP s p) = lib.cells s ∧ L.sampler (lib.setWireSampleP s p) = L.sampler s

/-- The heap frames of a CountSketch and the bare states of a DDSketch are not mistaken for other frames. -/
def ToldApart : MatrixFamily S C → Prop
  | .countMin lib => lib.toCellLib.ToldApart
  | .countSketch lib _ => lib.toCellLib.ToldApart ∧
      ∀ b, ((∃ s, lib.encode s = .ok b) ∨ ∃ d, lib.encodeDelta d = .ok b) →
        lib.isHeapDelta b = false ∧ ∃ e, lib.decodeHeap b = .error e
  | .ddSketch lib => lib.toCellLib.ToldApart ∧ ∀ d b, lib.encodeDelta d = .ok b → ∃ e, lib.decodeState b = .error e

/-- What `Observe` inserts for a value. -/
def insertion : MatrixFamily S C → ObservationValue → Insertion
  | .countMin lib, v =>
    if v.rowSampled then .hashAtRows (lib.hash v.bytes) (ofInt 1) v.admittedRows v.sampleP
    else .hash (lib.hash v.bytes)
  | .countSketch _ defaultKey, v =>
    let key := if v.bytes.isEmpty then defaultKey else v.bytes
    if v.rowSampled then .keyAtRows key v.float v.admittedRows v.sampleP else .key key v.float
  | .ddSketch _, v => .value v.float

/-- Whether an observed value was sampled by its source and turns the sampler of a DDSketch off. -/
def turnsOff : MatrixFamily S C → ObservationValue → Bool
  | .ddSketch _, v => v.rowSampled
  | _, _ => false

/-- The weight that an observed value brings to each cell, by the sampler. -/
def weigh (m : MatrixFamily S C) (L : m.lib.Faithful P) (p : P) (v : ObservationValue) : P × (C → ℤ) :=
  let p := if m.turnsOff v then L.restart (ofInt 1) else p
  (L.next p (m.insertion v), L.weight p (m.insertion v))

/-- The state of the sampler in the wrapper's sketch. -/
def sampler (m : MatrixFamily S C) (L : m.lib.Faithful P) (w : m.Wrapper) : P := L.sampler (m.core w).sk

end

/-! ### What the wrappers do -/

section
variable {factory w : m.Wrapper}

/-- What an operation leaves alone that is not about cells: the form of the frames and the settings of GOS. -/
structure SameMode [DecidableEq C] (w w' : m.Wrapper) : Prop where
  msgpack : m.msgpack w' = m.msgpack w
  deltas : m.deltas w' = m.deltas w
  wire : m.wire w' = m.wire w
  epsilon : (m.core w').gosEpsilon = (m.core w).gosEpsilon
  sites : (m.core w').gosSites = (m.core w).gosSites

theorem SameMode.trans [DecidableEq C] {w w' w'' : m.Wrapper} (h : SameMode w w') (h' : SameMode w' w'') :
    SameMode w w'' :=
  ⟨h'.msgpack.trans h.msgpack, h'.deltas.trans h.deltas, h'.wire.trans h.wire, h'.epsilon.trans h.epsilon,
    h'.sites.trans h.sites⟩

theorem SameMode.gos [DecidableEq C] {w w' : m.Wrapper} (h : SameMode w w') : (m.core w').gos = (m.core w).gos := by
  unfold GosState.gos
  rw [h.epsilon]

def gosInserts : (m : MatrixFamily S C) → m.Wrapper → Bool
  | .countMin lib, w => (core (.countMin lib) w).gos
  | .countSketch _ _, w => gosActive w
  | .ddSketch lib, w => (core (.ddSketch lib) w).gos

theorem gosInserts_off (h : (m.core w).gos = false) : m.gosInserts w = false := by
  cases m with
  | countMin lib => exact h
  | countSketch lib key =>
    show (w.gos && !w.heapMsgpack) = false
    rw [show w.gos = false from h, Bool.false_and]
  | ddSketch lib => exact h

variable [DecidableEq C]

theorem newSketch_spec (factory : m.Wrapper) (L : m.lib.Faithful P) (cfg : PrecomputeConfig) :
    SameMode factory (newSketch (m.impl factory) cfg) ∧
      m.cells (newSketch (m.impl factory) cfg) = m.cells factory ∧
      (m.core (newSketch (m.impl factory) cfg)).gosDirty = (m.core factory).gosDirty ∧
      (m.core (newSketch (m.impl factory) cfg)).gosThreshold = (m.core factory).gosThreshold := by
  unfold WindowState.newSketch
  split
  · cases m <;> exact ⟨⟨rfl, rfl, rfl, rfl, rfl⟩, L.cells_withSampleP _ _, rfl, rfl⟩
  · cases m <;> exact ⟨⟨rfl, rfl, rfl, rfl, rfl⟩, rfl, rfl, rfl⟩

def readied (m : MatrixFamily S C) (w : m.Wrapper) (v : ObservationValue) : S :=
  match m with
  | .ddSketch lib =>
    let w : DDSketchWrapper S C := w
    if v.rowSampled then lib.setWireSampleP (lib.withSampleP w.sk (ofInt 1)) v.sampleP else w.sk
  | .countMin lib => (core (.countMin lib) w).sk
  | .countSketch lib key => (core (.countSketch lib key) w).sk

theorem readied_spec {L : m.lib.Faithful P} (hown : m.Own L) (w : m.Wrapper) (v : ObservationValue) :
    m.lib.cells (m.readied w v) = m.cells w ∧
      L.sampler (m.readied w v) = if m.turnsOff v then L.restart (ofInt 1) else m.sampler L w := by
  cases m with
  | countMin lib => exact ⟨rfl, rfl⟩
  | countSketch lib key => exact ⟨rfl, rfl⟩
  | ddSketch lib =>
    by_cases hrow : v.rowSampled = true
    · simp only [readied, turnsOff, hrow, if_true]
      exact ⟨(hown _ _).1.trans (L.cells_withSampleP _ _), (hown _ _).2.trans (L.sampler_withSampleP _ _)⟩
    · simp only [readied, turnsOff, hrow]
      exact ⟨rfl, rfl⟩

omit [DecidableEq C] in
theorem observe_countMin (lib : CountMinLib S C) (w : CMSWrapper S C) (v : ObservationValue) :
    (∃ text, w.observe lib v = (w, some text)) ∨
      w.observe lib v = (w.insert lib (insertion (.countMin lib) v), none) := by
  unfold CMSWrapper.observe
  split
  · refine Or.inr ?_
    dsimp only [insertion]
    split <;> rfl
  · exact Or.inl ⟨_, rfl⟩

omit [DecidableEq C] in
theorem observe_countSketch (lib : CountSketchLib S C) (key : Bytes) (w : CountSketchWrapper S C)
    (v : ObservationValue) : (∃ text, w.observe lib key v = (w, some text)) ∨
      w.observe lib key v = (w.insert lib (insertion (.countSketch lib key) v), none) := by
  unfold CountSketchWrapper.observe
  split
  · refine Or.inr ?_
    dsimp only [insertion]
    split <;> rfl
  · exact Or.inl ⟨_, rfl⟩

omit [DecidableEq C] in
theorem observe_ddSketch (lib : DDSketchLib S C) (w : DDSketchWrapper S C) (v : ObservationValue) :
    (∃ text, w.observe lib v = (w, some text)) ∨
      ∃ w₁ : DDSketchWrapper S C, w.observe lib v = (w₁.update lib v.float, none) ∧
        w₁.sk = readied (.ddSketch lib) w v ∧
        w₁.gosEpsilon = w.gosEpsilon ∧ w₁.gosSites = w.gosSites ∧ w₁.gosDirty = w.gosDirty ∧
        w₁.gosThreshold = w.gosThreshold := by
  unfold DDSketchWrapper.observe DDSketchWrapper.applyAdmittedOccurrence
  split
  · by_cases hrow : v.rowSampled = true
    · rw [if_pos hrow]
      split
      · exact Or.inl ⟨_, rfl⟩
      · split
        · exact Or.inl ⟨_, rfl⟩
        · split
          · exact Or.inl ⟨_, rfl⟩
          · exact Or.inr ⟨_, rfl, (if_pos hrow).symm, rfl, rfl, rfl, rfl⟩
    · rw [if_neg hrow]
      exact Or.inr ⟨w, rfl, (if_neg hrow).symm, rfl, rfl, rfl, rfl⟩
  · exact Or.inl ⟨_, rfl⟩

theorem observe_cases (factory w : m.Wrapper) (v : ObservationValue) :
    (∃ text, (m.impl factory).observe w v = (w, some text)) ∨
      ∃ (w' : m.Wrapper) (g : GosState S C) (t : Float64), (m.impl factory).observe w v = (w', none) ∧ SameMode w w' ∧
        g.sk = m.readied w v ∧ g.gosDirty = (m.core w).gosDirty ∧ g.gosThreshold = (m.core w).gosThreshold ∧
        m.core w' = if m.gosInserts w then g.insertGos m.lib t (m.insertion v) else g.insert m.lib (m.insertion v) := by
  cases m with
  | countMin lib =>
    rcases observe_countMin lib w v with ⟨text, h⟩ | h
    · exact Or.inl ⟨text, h⟩
    · refine Or.inr ⟨_, w.toGosState, _, h, ?_, rfl, rfl, rfl, rfl⟩
      unfold CMSWrapper.insert
      split <;> exact ⟨rfl, rfl, rfl, rfl, rfl⟩
  | countSketch lib key =>
    rcases observe_countSketch lib key w v with ⟨text, h⟩ | h
    · exact Or.inl ⟨text, h⟩
    · refine Or.inr ⟨_, w.toGosState, _, h, ?_, rfl, rfl, rfl, rfl⟩
      unfold CountSketchWrapper.insert
      split <;> exact ⟨rfl, rfl, rfl, rfl, rfl⟩
  | ddSketch lib =>
    rcases observe_ddSketch lib w v with ⟨text, h⟩ | ⟨w₁, h, hsk, heps, hsites, hdirty, hthr⟩
    · exact Or.inl ⟨text, h⟩
    · have hgos : w₁.gos = w.gos := by
        unfold GosState.gos
        rw [heps]
      refine Or.inr ⟨_, w₁.toGosState, ddSketchIsotropicThreshold w₁.gosEpsilon (ofInt (lib.count w₁.sk).toNat)
        w₁.gosSites (lib.populatedBuckets w₁.sk), h, ?_, hsk, hdirty, hthr, ?_⟩
      · unfold update
        split <;> exact ⟨rfl, rfl, rfl, heps, hsites⟩
      · show (w₁.update lib v.float).toGosState = if w.gos then _ else _
        rw [← hgos]
        rfl

/-! ### Frames -/

def snapshot : (m : MatrixFamily S C) → m.Wrapper → Except String Bytes
  | .countMin lib => CMSWrapper.snapshot lib
  | .countSketch lib _ => CountSketchWrapper.snapshot lib
  | .ddSketch lib => DDSketchWrapper.snapshot lib

omit [DecidableEq C] in
theorem impl_snapshot (w : m.Wrapper) : (m.impl factory).snapshot w = (m.snapshot w).map some := by
  cases m <;> rfl

variable {b : Bytes}

theorem snapshot_of_encode (hdeltas : m.deltas w = true) (henc : (m.wire w).encode (m.core w).sk = .ok b) :
    m.snapshot w = .ok b := by
  cases m with
  | countMin lib =>
    have hproto : w.useMsgpack = false := by simpa [deltas] using hdeltas
    show CMSWrapper.snapshot lib w = _
    unfold CMSWrapper.snapshot
    rw [if_neg (by rw [hproto]; decide), show lib.encode w.sk = .ok b from henc]
    rfl
  | countSketch lib key =>
    rw [wire_countSketch] at henc
    show CountSketchWrapper.snapshot lib w = _
    unfold CountSketchWrapper.snapshot
    cases hheap : w.heapMsgpack with
    | true =>
      rw [hheap] at henc
      exact henc
    | false =>
      rw [hheap] at henc
      exact henc
  | ddSketch lib =>
    show DDSketchWrapper.snapshot lib w = _
    unfold DDSketchWrapper.snapshot
    rw [show lib.encode w.sk = .ok b from henc]
    rfl

theorem snapshot_spec (hloss : (m.wire w).Lossless) (hdeltas : m.deltas w = true) :
    ∃ b, m.snapshot w = .ok b ∧ (m.wire w).encode (m.core w).sk = .ok b := by
  obtain ⟨b, -, henc, -⟩ := hloss (m.core w).sk
  exact ⟨b, snapshot_of_encode hdeltas henc, henc⟩

theorem cells_cmsNewSketch {lib : CountMinLib S C} (L : lib.toCellLib.Faithful P) (w : CMSWrapper S C) :
    lib.cells (w.newSketch lib) = 0 := by
  unfold CMSWrapper.newSketch
  split
  · exact (L.cells_withSampleP _ _).trans L.cells_new
  · exact L.cells_new

variable (factory : m.Wrapper)

theorem emptyBase_spec (L : m.lib.Faithful P) (hloss : (m.wire w).Lossless) (hdeltas : m.deltas w = true) :
    ∃ b bs, (m.impl factory).deltaAgainstEmptyBase w = .ok (some (b :: bs)) ∧ (m.wire w).wholeCells (b :: bs) = 0 := by
  have hempty : ∀ s, m.lib.cells s = 0 →
      ∃ b bs, (m.wire w).encode s = .ok (b :: bs) ∧ (m.wire w).wholeCells (b :: bs) = 0 := by
    intro s hs
    obtain ⟨_ | ⟨b, bs⟩, -, henc, hne, -⟩ := hloss s
    · exact absurd rfl hne
    · exact ⟨b, bs, henc, (hloss.wholeCells_encode henc).trans (by rw [cells_wire, hs])⟩
  cases m with
  | countMin lib =>
    have hproto : w.useMsgpack = false := by simpa [deltas] using hdeltas
    obtain ⟨b, bs, henc, hzero⟩ := hempty _ (cells_cmsNewSketch L w)
    refine ⟨b, bs, ?_, hzero⟩
    show deltaAgainstEmptyBase lib w = _
    unfold CMSWrapper.deltaAgainstEmptyBase emptyBaseBytes
    rw [hproto, show lib.encode (w.newSketch lib) = _ from henc]
    rfl
  | countSketch lib key =>
    obtain ⟨b, bs, henc, hzero⟩ := hempty _ L.cells_new
    refine ⟨b, bs, ?_, hzero⟩
    rw [wire_countSketch] at henc
    show deltaAgainstEmptyBase lib w = _
    unfold CountSketchWrapper.deltaAgainstEmptyBase
    cases hheap : w.heapMsgpack with
    | true =>
      rw [hheap] at henc
      rw [if_pos rfl, show lib.encodeHeap lib.new w.heapSize = _ from henc]
      rfl
    | false =>
      rw [hheap] at henc
      rw [if_neg (by decide), show lib.encode lib.new = _ from henc]
      rfl
  | ddSketch lib =>
    obtain ⟨b, bs, henc, hzero⟩ := hempty _ L.cells_new
    refine ⟨b, bs, ?_, hzero⟩
    show deltaAgainstEmptyBase lib w = _
    unfold DDSketchWrapper.deltaAgainstEmptyBase
    rw [show lib.encode lib.new = _ from henc]
    rfl

def fits (m : MatrixFamily S C) (w : m.Wrapper) (prev : Bytes) (threshold : UInt64) : Bool :=
  match (m.wire w).diff prev (m.core w).sk threshold, (m.wire w).encode (m.core w).sk with
  | .ok delta, .ok full => delta.length < full.length
  | _, _ => false

theorem clampDelta_cases (full : Bytes) (delta : Except String Bytes) :
    (clampDelta (.ok full) delta = .ok (some full, true) ∧ ∀ b, delta = .ok b → full.length ≤ b.length) ∨
      ∃ b, delta = .ok b ∧ clampDelta (.ok full) delta = .ok (some b, false) := by
  cases delta with
  | error e => exact Or.inl ⟨rfl, fun b h => nomatch h⟩
  | ok b =>
    unfold clampDelta
    dsimp only
    split
    · rename_i hlen
      exact Or.inl ⟨rfl, fun b' h => by cases h; exact hlen⟩
    · exact Or.inr ⟨b, rfl, rfl⟩

inductive Sends (m : MatrixFamily S C) (w : m.Wrapper) (prev : Bytes) (t : UInt64) : Option Bytes × Bool → Prop
  /-- The whole frame, unless there was a smaller delta against a base with weight. -/
  | full {b : Bytes} (henc : (m.wire w).encode (m.core w).sk = .ok b)
      (hwhy : prev = [] ∨ (m.wire w).wholeCells prev = 0 ∨ m.fits w prev t = false) : Sends m w prev t (some b, true)
  | delta {b : Bytes} {base : S} (hdelta : (m.wire w).delta base (m.core w).sk t = .ok b)
      (hbase : m.lib.cells base = (m.wire w).wholeCells prev) : Sends m w prev t (some b, false)

theorem sends_clamped (prev : Bytes) (t : UInt64) {full : Bytes} (henc : (m.wire w).encode (m.core w).sk = .ok full) :
    ∃ r, clampDelta (.ok full) ((m.wire w).diff prev (m.core w).sk t) = .ok r ∧ Sends m w prev t r := by
  rcases clampDelta_cases full ((m.wire w).diff prev (m.core w).sk t) with ⟨h, hlen⟩ | ⟨b, hb, h⟩
  · refine ⟨_, h, .full henc (Or.inr (Or.inr ?_))⟩
    unfold fits
    rw [henc]
    cases hd : (m.wire w).diff prev (m.core w).sk t with
    | error e => rfl
    | ok delta => simpa using hlen delta hd
  · obtain ⟨base, hdec, hdelta⟩ := ok_of_bind hb
    exact ⟨_, h, .delta hdelta (by rw [Wire.wholeCells_decode hdec, cells_wire])⟩

theorem diffAgainstEmpty_spec {lib : CountMinLib S C} {L : lib.toCellLib.Faithful P} (hown : (countMin lib).Own L)
    (hloss : lib.wire.Lossless) {w : CMSWrapper S C} {prev : Bytes} {t : UInt64}
    (h : w.diffAgainstEmpty lib prev t = some b) :
    lib.wire.wholeCells prev = 0 ∧ lib.wire.delta lib.new w.sk t = .ok b := by
  unfold diffAgainstEmpty at h
  by_cases hbase : w.emptyBaseBytes lib = some prev
  · rw [if_pos hbase, hown w.sk t] at h
    refine ⟨?_, ok_of_toOption h⟩
    unfold emptyBaseBytes at hbase
    split at hbase
    · cases hbase
    · exact (hloss.wholeCells_encode (ok_of_toOption hbase)).trans (cells_cmsNewSketch L w)
  · rw [if_neg hbase] at h
    cases h

theorem computeDelta_plain {L : m.lib.Faithful P} (hown : m.Own L) (hloss : (m.wire w).Lossless)
    (hdeltas : m.deltas w = true) (hgos : (m.core w).gos = false) (prev : Bytes) (t : UInt64) :
    ∃ r, (m.impl factory).computeDeltaAgainst w prev t = (w, .ok r) ∧ Sends m w prev t r := by
  obtain ⟨full, hfull, henc⟩ := snapshot_spec hloss hdeltas
  have hempty : prev = [] → Sends m w prev t (some full, true) := fun h => .full henc (Or.inl h)
  obtain ⟨r, hclamp, hr⟩ := sends_clamped prev t henc
  cases m with
  | countMin lib =>
    have hproto : w.useMsgpack = false := by simpa [deltas] using hdeltas
    show ∃ r, computeDeltaAgainst lib w prev t = (w, .ok r) ∧ _
    have hfull : CMSWrapper.snapshot lib w = .ok full := hfull
    unfold CMSWrapper.computeDeltaAgainst
    rw [show w.gos = false from hgos, hproto, hfull, if_neg (by decide)]
    cases prev with
    | nil => exact ⟨_, rfl, hempty rfl⟩
    | cons x xs =>
      rw [if_neg (by simp)]
      cases hfast : w.diffAgainstEmpty lib (x :: xs) t with
      | none => exact ⟨r, by rw [← hclamp]; rfl, hr⟩
      | some b =>
        obtain ⟨hzero, hd⟩ := diffAgainstEmpty_spec hown hloss hfast
        rcases clampDelta_cases full (.ok b) with ⟨h, -⟩ | ⟨b', hb', h⟩
        · exact ⟨_, by rw [← h], .full henc (Or.inr (Or.inl hzero))⟩
        · cases hb'
          exact ⟨_, by rw [← h], .delta hd (L.cells_new.trans hzero.symm)⟩
  | countSketch lib key =>
    show ∃ r, computeDeltaAgainst lib w prev t = (w, .ok r) ∧ _
    have hfull : CountSketchWrapper.snapshot lib w = .ok full := hfull
    unfold CountSketchWrapper.computeDeltaAgainst gosActive
    rw [show w.gos = false from hgos, hfull, if_neg (by rw [Bool.false_and]; decide)]
    cases prev with
    | nil => exact ⟨_, rfl, hempty rfl⟩
    | cons x xs =>
      rw [if_neg (by simp)]
      refine ⟨r, ?_, hr⟩
      rw [← hclamp, wire_countSketch]
      split <;> rfl
  | ddSketch lib =>
    show ∃ r, computeDeltaAgainst lib w prev t = (w, .ok r) ∧ _
    have hfull : DDSketchWrapper.snapshot lib w = .ok full := hfull
    unfold DDSketchWrapper.computeDeltaAgainst
    rw [show w.gos = false from hgos, hfull, if_neg (by decide)]
    cases prev with
    | nil => exact ⟨_, rfl, hempty rfl⟩
    | cons x xs =>
      exact ⟨r, by rw [← hclamp]; rfl, hr⟩

theorem emittedSketch_core {cfg : PrecomputeConfig} (hseg : cfg.sketchType ≠ .kllSketch) (w : m.Wrapper) :
    SameMode w (emittedSketch (m.impl factory) cfg w) ∧ m.core (emittedSketch (m.impl factory) cfg w) = m.core w := by
  unfold emittedSketch
  rw [if_neg (by simp [subWindowSegmentMode, hseg])]
  split
  · cases m <;> exact ⟨⟨rfl, rfl, rfl, rfl, rfl⟩, rfl⟩
  · exact ⟨⟨rfl, rfl, rfl, rfl, rfl⟩, rfl⟩

/-! ### Receiving -/

theorem gosMerge_spec {lib : CellLib S C} (L : lib.Faithful P) (g other : GosState S C) :
    ∃ u, g.merge lib other = ({ g with sk := u }, none) ∧ lib.cells u = lib.cells g.sk + lib.cells other.sk := by
  obtain ⟨u, hmerge, hcells⟩ := L.merged g.sk other.sk
  refine ⟨u, ?_, hcells⟩
  unfold GosState.merge
  rw [hmerge]

theorem mergeDecoded_ok {lib : CellLib S C} (L : lib.Faithful P) (g : GosState S C) (t : S) :
    ∃ u, g.mergeDecoded lib (.ok t) = some ({ g with sk := u }, none) ∧ lib.cells u = lib.cells g.sk + lib.cells t := by
  obtain ⟨u, hmerge, hcells⟩ := gosMerge_spec L g { g with sk := t }
  exact ⟨u, congrArg some hmerge, hcells⟩

theorem merge_spec (L : m.lib.Faithful P) (factory w other : m.Wrapper) :
    m.cells ((m.impl factory).merge w other).1 = m.cells w + m.cells other ∧
      ((m.impl factory).merge w other).2 = none := by
  have hcore : m.core ((m.impl factory).merge w other).1 = ((m.core w).merge m.lib (m.core other)).1 ∧
      ((m.impl factory).merge w other).2 = ((m.core w).merge m.lib (m.core other)).2 := by
    cases m <;> exact ⟨rfl, rfl⟩
  obtain ⟨u, hmerge, hcells⟩ := gosMerge_spec L (m.core w) (m.core other)
  rw [hmerge] at hcore
  refine ⟨?_, hcore.2⟩
  unfold cells
  rw [hcore.1]
  exact hcells

theorem applyDelta_whole (L : m.lib.Faithful P) (happart : m.ToldApart) (hloss : m.lib.wire.Lossless) {s : S}
    (henc : m.lib.encode s = .ok b) (factory w : m.Wrapper) :
    m.cells ((m.impl factory).applyDelta w b).1 = m.cells w + m.lib.wire.wholeCells b ∧
      ((m.impl factory).applyDelta w b).2 = none := by
  obtain ⟨b', t, henc', hne, hdec, -⟩ := hloss s
  cases henc.symm.trans henc'
  rw [Wire.wholeCells_decode hdec]
  obtain ⟨u, hmerge, hu⟩ := mergeDecoded_ok L (m.core w) t
  have hne : b.isEmpty = false := by simpa using hne
  cases m with
  | countMin lib =>
    show lib.cells (applyDelta lib w b).1.sk = _ ∧ (applyDelta lib w b).2 = none
    unfold CMSWrapper.applyDelta
    rw [hne, if_neg (by decide), show lib.decode b = .ok t from hdec,
      show w.mergeDecoded lib.toCellLib (.ok t) = some ({ w.toGosState with sk := u }, none) from hmerge]
    exact ⟨hu, rfl⟩
  | countSketch lib key =>
    obtain ⟨hheap, e, hheapDec⟩ := happart.2 b (Or.inl ⟨s, henc⟩)
    show lib.cells (applyDelta lib w b).1.sk = _ ∧ (applyDelta lib w b).2 = none
    unfold CountSketchWrapper.applyDelta
    rw [hne, if_neg (by decide), hheap, if_neg (by decide), hheapDec, show lib.decode b = .ok t from hdec,
      show w.mergeDecoded lib.toCellLib (.ok t) = some ({ w.toGosState with sk := u }, none) from hmerge]
    exact ⟨hu, rfl⟩
  | ddSketch lib =>
    show lib.cells (applyDelta lib w b).1.sk = _ ∧ (applyDelta lib w b).2 = none
    unfold DDSketchWrapper.applyDelta
    rw [hne, if_neg (by decide), show lib.decode b = .ok t from hdec,
      show w.mergeDecoded lib.toCellLib (.ok t) = some ({ w.toGosState with sk := u }, none) from hmerge]
    exact ⟨hu, rfl⟩

theorem applyDelta_delta (L : m.lib.Faithful P) (happart : m.ToldApart) {d : CellDelta C}
    (henc : m.lib.encodeDelta d = .ok b) (factory w : m.Wrapper) :
    m.cells ((m.impl factory).applyDelta w b).1 = m.cells w + m.lib.wire.deltaCells b ∧
      (((m.impl factory).applyDelta w b).2 = none ∨ m.lib.wire.deltaCells b = 0) := by
  have hapart : m.lib.ToldApart := by
    cases m with
    | countMin lib => exact happart
    | countSketch lib key => exact happart.1
    | ddSketch lib => exact happart.1
  obtain ⟨e, hdec⟩ := hapart.decode d b henc
  obtain ⟨d', hdelta, hsame⟩ := L.encodedDelta d b henc
  have hcells : m.lib.wire.deltaCells b = amountIn d'.cells := (L.deltaCells_encodeDelta henc).trans hsame.symm
  cases b with
  | nil =>
    -- an empty payload changes nothing, and a CountSketch reports it
    have hzero : m.lib.wire.deltaCells [] = 0 := (L.deltaCells_encodeDelta henc).trans (hapart.nil d henc)
    refine ⟨?_, Or.inr hzero⟩
    rw [hzero, add_zero]
    cases m <;> rfl
  | cons x xs =>
    rw [hcells]
    cases m with
    | countMin lib =>
      show lib.cells (applyDelta lib w (x :: xs)).1.sk = _ ∧ ((applyDelta lib w (x :: xs)).2 = none ∨ _)
      unfold CMSWrapper.applyDelta
      rw [if_neg (by simp), show lib.decode (x :: xs) = .error e from hdec,
        show lib.decodeDelta (x :: xs) = .ok d' from hdelta]
      exact ⟨L.cells_applyDelta w.sk d', Or.inl rfl⟩
    | countSketch lib key =>
      obtain ⟨hheap, e', hheapDec⟩ := happart.2 (x :: xs) (Or.inr ⟨d, henc⟩)
      show lib.cells (applyDelta lib w (x :: xs)).1.sk = _ ∧
        ((applyDelta lib w (x :: xs)).2 = none ∨ _)
      unfold CountSketchWrapper.applyDelta
      rw [if_neg (by simp), hheap, if_neg (by decide), hheapDec, show lib.decode (x :: xs) = .error e from hdec,
        show lib.decodeDelta (x :: xs) = .ok d' from hdelta]
      exact ⟨L.cells_applyDelta w.sk d', Or.inl rfl⟩
    | ddSketch lib =>
      obtain ⟨e', hstate⟩ := happart.2 d (x :: xs) henc
      show lib.cells (applyDelta lib w (x :: xs)).1.sk = _ ∧
        ((applyDelta lib w (x :: xs)).2 = none ∨ _)
      unfold DDSketchWrapper.applyDelta
      rw [if_neg (by simp), show lib.decode (x :: xs) = .error e from hdec, hstate,
        show lib.decodeDelta (x :: xs) = .ok d' from hdelta]
      exact ⟨L.cells_applyDelta w.sk d', Or.inl rfl⟩

/-- The entry is new to the deltas of any window, or has those of this one. -/
def OneWindow (entry : Precompute.SeriesEntry m.Wrapper) (startMs endMs : Nat) : Prop :=
  entry.deltaWindowEndMs = 0 ∨ entry.deltaWindowStartMs = startMs ∧ entry.deltaWindowEndMs = endMs

theorem absorb_spec (L : m.lib.Faithful P) (happart : m.ToldApart) (hloss : m.lib.wire.Lossless)
    (hfactory : m.cells factory = 0) {entry : Precompute.SeriesEntry m.Wrapper} {env : SketchEnvelope}
    (hwrote : m.lib.wire.Wrote (env.payload, !env.encoding.isDelta))
    (hwindow : OneWindow entry env.windowStartMs env.windowEndMs) :
    m.cells (absorb (m.impl factory) entry env).sketch =
        m.cells entry.sketch + m.lib.wire.payloadCells (env.payload, !env.encoding.isDelta) ∧
      OneWindow (absorb (m.impl factory) entry env) env.windowStartMs env.windowEndMs := by
  cases hflag : env.encoding.isDelta with
  | true =>
    rw [hflag] at hwrote
    obtain ⟨prev, cur, t, hdelta⟩ := hwrote
    obtain ⟨d, -, henc⟩ := ok_of_bind hdelta
    have hspec := (applyDelta_delta L happart henc factory entry.sketch).1
    have habsorb : absorb (m.impl factory) entry env = (applyEnvelopeDelta (m.impl factory) entry env).1 := by
      unfold absorb
      split <;> simp_all [Encoding.isDelta]
    rw [habsorb]
    unfold applyEnvelopeDelta
    rw [if_neg (by rcases hwindow with h | ⟨h, h'⟩ <;> simp [*])]
    dsimp only
    generalize (m.impl factory).applyDelta entry.sketch env.payload = r at hspec ⊢
    obtain ⟨sketch, _ | e⟩ := r
    · exact ⟨hspec, Or.inr ⟨rfl, rfl⟩⟩
    · exact ⟨hspec, hwindow⟩
  | false =>
    rw [hflag] at hwrote
    obtain ⟨s, henc⟩ := hwrote
    obtain ⟨hcells, hok⟩ := applyDelta_whole L happart hloss henc factory factory
    have habsorb : absorb (m.impl factory) entry env = (mergeEnvelope (m.impl factory) entry env).1 := by
      unfold absorb
      split <;> simp_all [Encoding.isDelta]
    have hsame : (m.impl factory).factory = factory := by cases m <;> rfl
    rw [habsorb]
    unfold mergeEnvelope
    rw [hsame]
    generalize (m.impl factory).applyDelta factory env.payload = r at hcells hok ⊢
    obtain ⟨other, err⟩ := r
    cases hok
    obtain ⟨hmerge, hmerged⟩ := merge_spec L factory entry.sketch other
    dsimp only at hcells ⊢
    rw [hcells, hfactory, zero_add] at hmerge
    generalize (m.impl factory).merge entry.sketch other = r at hmerge hmerged ⊢
    obtain ⟨sketch, err⟩ := r
    cases hmerged
    exact ⟨hmerge, hwindow⟩

end

end MatrixFamily

/-! ### A library of two counters -/

/-- The part of a change that reaches the threshold. -/
def shown (threshold : UInt64) (x : ℤ) : ℤ := if (threshold.toNat : ℤ) ≤ |x| then x else 0

theorem shown_of_le_one {t : UInt64} (h : t ≤ 1) (x : ℤ) : shown t x = x := by
  unfold shown
  split
  · rfl
  · rename_i hsmall
    have ht : t.toNat ≤ 1 := UInt64.le_iff_toNat_le.mp h
    by_contra hx
    have := Int.one_le_abs (fun h => hx h.symm)
    omega

namespace TwoCounters

def cells (s : ℤ × ℤ) (second : Bool) : ℤ := if second then s.2 else s.1

def ofCells (f : Bool → ℤ) : ℤ × ℤ := (f false, f true)

/-- An item counts in the second counter if its hash is one, in the first otherwise. -/
def weight : Insertion → Bool → ℤ
  | .hash h, second => if (h == 1) = second then 1 else 0
  | _, _ => 0

def cross (threshold : UInt64) (x w : ℤ) : ℤ × ℤ :=
  if w ≠ 0 ∧ (threshold.toNat : ℤ) ≤ |x + w| then (0, x + w) else (x + w, 0)

def read (rest : Bytes) : ℤ × ℤ :=
  let (x, rest) := readSigned rest
  (x, (readSigned rest).1)

theorem read_signed (x y : ℤ) : read (signed x ++ signed y) = (x, y) := by
  have h := readSigned_signed y []
  rw [List.append_nil] at h
  simp [read, readSigned_signed, h]

/-- The words of a delta are longer than those of a whole frame by three bytes. -/
def lib : CountMinLib (ℤ × ℤ) Bool where
  cells
  new := (0, 0)
  withSampleP s _ := s
  insert s o := s + ofCells (weight o)
  insertGos s o t :=
    let r (c : Bool) := cross t (cells s c) (weight o c)
    ((ofCells fun c => (r c).1), ([false, true].map fun c => (c, (r c).2)).filter fun u => u.2 ≠ 0)
  merge s t := .ok (s + t)
  encode s := .ok (0 :: (signed s.1 ++ signed s.2))
  decode
    | 0 :: rest => .ok (read rest)
    | _ => .error "not a sketch"
  computeDelta prev cur t := .ok { cells := [(false, shown t (cur.1 - prev.1)), (true, shown t (cur.2 - prev.2))] }
  encodeDelta d := .ok (1 :: 1 :: 1 :: 1 :: (signed (amountIn d.cells false) ++ signed (amountIn d.cells true)))
  decodeDelta
    | 1 :: 1 :: 1 :: 1 :: rest => .ok { cells := [(false, (read rest).1), (true, (read rest).2)] }
    | _ => .error "not a delta"
  applyDelta s d := s + ofCells (amountIn d.cells)
  overflow _ := 0
  hash b := UInt64.ofNat b.length
  mass s := ofInt (s.1 + s.2)
  norms _ := []
  encodeMsgpack _ := .error "no MessagePack"
  computeDeltaAgainstEmpty s t := .ok { cells := [(false, shown t (s.1 - 0)), (true, shown t (s.2 - 0))] }

theorem amountIn_pair (x y : ℤ) (c : Bool) : amountIn [(false, x), (true, y)] c = cells (x, y) c := by
  cases c <;> simp [amountIn, cells]

theorem cells_add (s t : ℤ × ℤ) : cells (s + t) = cells s + cells t := by
  funext c
  cases c <;> simp [cells]

theorem cells_ofCells (f : Bool → ℤ) : cells (ofCells f) = f := by
  funext c
  cases c <;> rfl

def faithful : lib.toCellLib.Faithful Unit where
  sampler _ := ()
  restart _ := ()
  next _ _ := ()
  weight _ := weight
  cells_new := by
    funext c
    cases c <;> rfl
  cells_withSampleP _ _ := rfl
  sampler_withSampleP _ _ := rfl
  cells_insert s o := (cells_add _ _).trans (by rw [cells_ofCells]; rfl)
  sampler_insert _ _ := rfl
  merged s t := ⟨s + t, rfl, cells_add s t⟩
  cells_applyDelta s d := (cells_add _ _).trans (by rw [cells_ofCells]; rfl)
  encodedDelta d b h := by
    cases h
    refine ⟨_, rfl, ?_⟩
    funext c
    rw [amountIn_pair, read_signed]
    cases c <;> rfl

theorem lossless : lib.wire.Lossless := fun s => ⟨_, s, rfl, nofun, congrArg Except.ok (read_signed s.1 s.2), rfl⟩

theorem shows (t : UInt64) : lib.wire.Shows t (shown t) := by
  intro prev cur b h c
  obtain ⟨d, hd, hb⟩ := ok_of_bind h
  rw [faithful.deltaCells_encodeDelta hb]
  cases hd
  rw [amountIn_pair]
  cases c <;> rfl

def family : MatrixFamily (ℤ × ℤ) Bool := .countMin lib

theorem own : family.Own faithful := fun _ _ => rfl

theorem toldApart : family.ToldApart where
  decode d b h := by
    cases h
    exact ⟨_, rfl⟩
  nil d h := nomatch h

end TwoCounters

end AsapCollector.Sketches
