import AsapCollector.Theorems.Sketches.Matrix

/-! A DDSketch stamps one sampling rate on its frames. Values that its source has sampled turn its own sampler off and
set the stamp; plain values are taken by the sampler as it is. -/

namespace AsapCollector.Sketches

open Precompute List Float64 MatrixFamily

variable {S C : Type} {lib : DDSketchLib S C}

/-- What is assumed of the library: the rate of the sampler and the stamp of a frame are set by one operation each, and
insertions leave them alone. -/
structure DDSketchLib.Rates (lib : DDSketchLib S C) where
  rate : S → Float64
  stamp : S → Option Float64
  rate_withSampleP : ∀ s p, rate (lib.withSampleP s p) = p
  rate_setWireSampleP : ∀ s p, rate (lib.setWireSampleP s p) = rate s
  stamp_setWireSampleP : ∀ s p, stamp (lib.setWireSampleP s p) = some p
  insert : ∀ s o, rate (lib.insert s o) = rate s ∧ stamp (lib.insert s o) = stamp s
  insertGos : ∀ s o t, rate (lib.insertGos s o t).1 = rate s ∧ stamp (lib.insertGos s o t).1 = stamp s

namespace DDSketchWrapper

variable (R : lib.Rates)

/-- The rate that a frame of the wrapper tells. -/
def told (w : DDSketchWrapper S C) : Float64 := (R.stamp w.sk).getD (ofInt 1)

/-- The rate at which a value is admitted; none for a value that is sampled by its source and again by the sketch. -/
def admission (w w' : DDSketchWrapper S C) (v : ObservationValue) : Option Float64 :=
  if v.rowSampled then if R.rate w'.sk = ofInt 1 then some v.sampleP else none else some (R.rate w.sk)

/-- A wrapper since its last `Reset`, with the rates of the values it has taken. -/
def take (s : DDSketchWrapper S C × List (Option Float64)) (v : ObservationValue) :
    DDSketchWrapper S C × List (Option Float64) :=
  match s.1.observe lib v with
  | (w', none) => (w', s.2 ++ [admission R s.1 w' v])
  | (w', some _) => (w', s.2)

/-- A plain value finds a sampler of the rate that is told; a sampled one comes first, or has the rate that is told. -/
def Consistent (s : DDSketchWrapper S C × List (Option Float64)) (v : ObservationValue) : Prop :=
  if v.rowSampled then s.2 = [] ∨ v.sampleP = told R s.1 else R.rate s.1.sk = told R s.1

/-- Every value of the run is consistent. -/
abbrev AllConsistent : DDSketchWrapper S C × List (Option Float64) → List ObservationValue → Prop :=
  Always (take R) (Consistent R)

variable {R}

theorem update_rates (w : DDSketchWrapper S C) (v : Float64) :
    R.rate (w.update lib v).sk = R.rate w.sk ∧ R.stamp (w.update lib v).sk = R.stamp w.sk := by
  unfold update
  split
  · exact R.insertGos w.sk _ _
  · exact R.insert w.sk _

theorem take_told {s : DDSketchWrapper S C × List (Option Float64)} {v : ObservationValue} (hv : Consistent R s v)
    (h : ∀ p ∈ s.2, p = some (told R s.1)) : ∀ p ∈ (take R s v).2, p = some (told R (take R s v).1) := by
  unfold take
  rcases observe_ddSketch lib s.1 v with ⟨text, heq⟩ | ⟨w₁, heq, hsk, -⟩
  · rw [heq]
    exact h
  · obtain ⟨hrate, hstamp⟩ := @update_rates S C lib R w₁ v.float
    rw [heq]
    unfold Consistent at hv
    unfold admission told
    dsimp only
    rw [hrate, hstamp, hsk]
    cases hrow : v.rowSampled with
    | true =>
      simp only [readied, hrow, if_true, R.rate_setWireSampleP, R.rate_withSampleP,
        R.stamp_setWireSampleP] at hv ⊢
      refine forall_mem_append.mpr ⟨fun p hp => ?_, forall_mem_singleton.mpr rfl⟩
      rcases hv with hnone | hsame
      · rw [hnone] at hp
        cases hp
      · exact hsame ▸ h p hp
    | false =>
      simp only [readied, hrow] at hv ⊢
      exact forall_mem_append.mpr ⟨h, forall_mem_singleton.mpr (congrArg some hv)⟩

/-- A sketch that is no more than its sampler and its stamp. -/
def ratesOnly : DDSketchLib (Float64 × Option Float64) Unit where
  cells _ _ := 0
  new := (ofInt 1, none)
  withSampleP s p := (p, s.2)
  insert s _ := s
  insertGos s _ _ := (s, [])
  merge s _ := .ok s
  encode _ := .ok []
  decode _ := .ok (ofInt 1, none)
  computeDelta _ _ _ := .ok ⟨[], [], []⟩
  encodeDelta _ := .ok []
  decodeDelta _ := .ok ⟨[], [], []⟩
  applyDelta s _ := s
  overflow _ := 0
  clear s := s
  setWireSampleP s p := (s.1, some p)
  count _ := 0
  populatedBuckets _ := 0
  decodeState _ := .ok (ofInt 1, none)
  text _ := ""

def ratesOnly_rates : ratesOnly.Rates where
  rate := Prod.fst
  stamp := Prod.snd
  rate_withSampleP _ _ := rfl
  rate_setWireSampleP _ _ := rfl
  stamp_setWireSampleP _ _ := rfl
  insert _ _ := ⟨rfl, rfl⟩
  insertGos _ _ _ := ⟨rfl, rfl⟩

def halfSampled : ObservationValue :=
  { rowSampled := true, admittedRows := 1, sampleP := ofInt 1 / ofInt 2 }

end DDSketchWrapper

end AsapCollector.Sketches
