import AsapCollector.Sketches.Kll
import AsapCollector.Theorems.Precompute.Ledger

/-! A KLL sketch owes its receiver all that it holds, and holds nothing once it has sent that: its payloads cut what a
window admits into segments. -/

namespace AsapCollector.Sketches

open Precompute History KLLWrapper

section
variable {α β : Type} (f : α → β)

theorem exists_map_eq_add (b : Multiset β) (a : Multiset β) : ∀ s : Multiset α, s.map f = a + b →
    ∃ s₁ s₂, s = s₁ + s₂ ∧ s₁.map f = a ∧ s₂.map f = b := by
  classical
  induction a using Multiset.induction_on with
  | empty => exact fun s hs => ⟨0, s, (zero_add s).symm, rfl, hs.trans (zero_add b)⟩
  | cons x a ih =>
    intro s hs
    rw [Multiset.cons_add] at hs
    obtain ⟨y, hy, rfl, herase⟩ := (Multiset.map_eq_cons f s (a + b) x).mpr hs
    obtain ⟨s₁, s₂, hsplit, rfl, rfl⟩ := ih _ herase
    refine ⟨y ::ₘ s₁, s₂, ?_, Multiset.map_cons f y s₁, rfl⟩
    rw [Multiset.cons_add, ← hsplit, Multiset.cons_erase hy]

theorem exists_parts : ∀ (images : List (Multiset β)) (s : Multiset α), s.map f = images.sum →
    ∃ parts : List (Multiset α), parts.sum = s ∧ parts.map (Multiset.map f) = images
  | [], s, hs => ⟨[], (Multiset.map_eq_zero.mp hs).symm, rfl⟩
  | image :: images, s, hs => by
    obtain ⟨s₁, s₂, rfl, rfl, hrest⟩ := exists_map_eq_add f images.sum image s hs
    obtain ⟨parts, rfl, rfl⟩ := exists_parts images s₂ hrest
    exact ⟨s₁ :: parts, List.sum_cons, rfl⟩

end

section
variable {S : Type} {lib : KllLib S} {view : S → Multiset Float64} {cfg : PrecomputeConfig}

/-- A sketch is the multiset of its inputs, and a payload carries one that is not empty. -/
structure KllLib.Collects (lib : KllLib S) (view : S → Multiset Float64) : Prop where
  new : view lib.new = 0
  update : ∀ s v, view (lib.update s v) = view s + {v}
  size : ∀ s, lib.size s = 0 ↔ view s = 0
  carried : ∀ s, view s ≠ 0 → ∃ payload other, lib.encode s = .ok payload ∧ lib.decode payload = .ok other ∧
    view other = view s

/-- The observations that a payload summarises. -/
def KllLib.summarised (lib : KllLib S) (view : S → Multiset Float64) (payload : Bytes) : Multiset Float64 :=
  match lib.decode payload with
  | .ok s => view s
  | .error _ => 0

variable {factory w : KLLWrapper S}

theorem KLLWrapper.sk_update (w : KLLWrapper S) (v : Float64) : (w.update lib v).sk = lib.update w.sk v := by
  unfold update
  dsimp only
  split <;> rfl

theorem sk_applyGosMode (w : KLLWrapper S) : (applyGosMode (kllFamily lib factory) w cfg).sk = w.sk := by
  unfold applyGosMode
  split <;> rfl

theorem observe_kllFamily (hlib : lib.Collects view) (w : KLLWrapper S) (v : ObservationValue) :
    ((kllFamily lib factory).observe w v).2 = none ∧
        view ((kllFamily lib factory).observe w v).1.sk = view w.sk + {v.float} ∨
      ∃ text, (kllFamily lib factory).observe w v = (w, some text) := by
  show (w.observe lib v).2 = none ∧ view (w.observe lib v).1.sk = _ ∨ ∃ text, w.observe lib v = _
  unfold KLLWrapper.observe
  cases v.kind with
  | float => exact Or.inl ⟨rfl, by rw [w.sk_update, hlib.update]⟩
  | _ => exact Or.inr ⟨_, rfl⟩

theorem snapshot_summarises (hlib : lib.Collects view) (w : KLLWrapper S) :
    ∃ payload, w.snapshot lib = .ok payload ∧ (payload.map (lib.summarised view)).getD 0 = view w.sk := by
  unfold snapshot
  by_cases hsize : lib.size w.sk = 0
  · rw [if_pos hsize]
    exact ⟨none, rfl, ((hlib.size _).mp hsize).symm⟩
  · obtain ⟨payload, other, hencode, hdecode, hview⟩ := hlib.carried w.sk fun hzero => hsize ((hlib.size _).mpr hzero)
    rw [if_neg hsize, hencode]
    refine ⟨some payload, rfl, ?_⟩
    rw [Option.map_some, Option.getD_some, KllLib.summarised, hdecode]
    exact hview

theorem payloadAgainst_kllFamily (base : Option Bytes) (w : KLLWrapper S) (threshold : UInt64) :
    payloadAgainst (kllFamily lib factory) base w threshold = (w, (w.snapshot lib).map fun full => (full, true)) := by
  cases base <;> rfl

def segments (hlib : lib.Collects view) (hfactory : factory.sk = lib.new) (hkll : cfg.sketchType = .kllSketch)
    (hdelta : cfg.deltaTransmission = true) : Ledger (kllFamily lib factory) cfg .free Unit (Multiset Float64) where
  start := ()
  meter _ v := ((), {v.float})
  value payload := lib.summarised view payload.1
  readable _ := True
  owes _ w _ m := view w.sk = m
  idle _ := True
  left _ _ m := m = 0
  idle_none := trivial
  opened _ _ := by
    have hnew : WindowState.newSketch (kllFamily lib factory) cfg = factory := by
      unfold WindowState.newSketch
      split <;> rfl
    rw [hnew, hfactory, hlib.new]
  observed _ w _ m v howes := by
    rcases @observe_kllFamily _ _ _ factory hlib w v with ⟨hok, h⟩ | hrefused
    · exact Or.inr ⟨_, Prod.ext rfl hok, by rw [h, howes]⟩
    · exact Or.inl hrefused
  emitted base entry _ m howes _ _ := by
    obtain ⟨payload, hsnap, hsum⟩ := snapshot_summarises hlib (applyGosMode (kllFamily lib factory) entry.sketch cfg)
    rw [sk_applyGosMode, howes] at hsum
    unfold subWindowDelta
    rw [payloadAgainst_kllFamily, hsnap]
    cases payload with
    | none => exact (congrArg view (sk_applyGosMode entry.sketch)).trans howes
    | some payload =>
      refine ⟨trivial, 0, (add_zero _).trans hsum, ?_⟩
      unfold emittedSketch
      rw [if_pos (show subWindowSegmentMode cfg = true from decide_eq_true hkll)]
      exact hlib.new
  closed base entry _ m howes _ := by
    obtain ⟨payload, hsnap, hsum⟩ := snapshot_summarises hlib (applyGosMode (kllFamily lib factory) entry.sketch cfg)
    rw [sk_applyGosMode, howes] at hsum
    refine ⟨trivial, fun _ _ => trivial, 0, ?_, rfl⟩
    unfold boundaryDelta
    rw [if_pos hdelta, payloadAgainst_kllFamily, hsnap, ← hsum, add_zero]
    cases payload <;> rfl

end

def readDoubles : Bytes → List Float64
  | b₀ :: b₁ :: b₂ :: b₃ :: b₄ :: b₅ :: b₆ :: b₇ :: rest =>
    ⟨UInt64.ofNat (ofLittleEndian [b₀, b₁, b₂, b₃, b₄, b₅, b₆, b₇])⟩ :: readDoubles rest
  | _ => []

def listKll : KllLib (List Float64) where
  new := []
  update s v := v :: s
  count := List.length
  size := List.length
  encode s := .ok (s.flatMap fun v => littleEndian 8 v.bits.toNat)
  decode payload := .ok (readDoubles payload)
  merge s t := .ok (t ++ s)

theorem readDoubles_flatMap : ∀ s : List Float64, readDoubles (s.flatMap fun v => littleEndian 8 v.bits.toNat) = s
  | [] => rfl
  | v :: s => by
    rw [List.flatMap_cons]
    show (⟨UInt64.ofNat (ofLittleEndian (littleEndian 8 v.bits.toNat))⟩ : Float64) :: readDoubles (s.flatMap _) = _
    rw [ofLittleEndian_littleEndian 8 v.bits.toNat_lt, readDoubles_flatMap s, UInt64.ofNat_toNat]

theorem listKll_collects : listKll.Collects Multiset.ofList where
  new := rfl
  update s v := (Multiset.add_comm _ _).trans (Multiset.singleton_add v s) |>.symm
  size s := by simp [listKll]
  carried s _ := ⟨_, s, rfl, congrArg Except.ok (readDoubles_flatMap s), rfl⟩

def kllConfig : PrecomputeConfig where
  aggID := 7
  sketchType := .kllSketch
  window := { size := 10 * millisecond }
  deltaTransmission := true

def kllAt (value : Int) (timestampMs : Nat) : Call (KLLWrapper (List Float64)) :=
  .observe { timestampMs, value := { float := Float64.ofInt value } } rfl (.stored _)

def twoSegments : List (Call (KLLWrapper (List Float64))) :=
  [kllAt 3 12, .emitSubWindow 13 (.stored _), kllAt 4 15, .drain (.stored _)]

abbrev twoSegmentsRun : History (KLLWrapper (List Float64)) :=
  (start kllConfig).run (kllFamily listKll ((new listKll).setGosMode ⟨0⟩)) twoSegments

end AsapCollector.Sketches
