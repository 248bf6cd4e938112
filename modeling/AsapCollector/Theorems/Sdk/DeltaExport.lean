import AsapCollector.Sdk.DeltaExport

/-! A delta leaves out the changes below the threshold, and the snapshot forgets them: what a receiver lacks of a cell
is the sum of what was left out since the last full payload. -/

namespace AsapCollector

open Option GoMap

variable {S ι : Type} {L : DeltaLib S ι}

/-- `ComputeDelta` lists the cells that have changed by the threshold or more, with the exact change. -/
def DeltaLib.Lists (L : DeltaLib S ι) : Prop :=
  ∀ prev curr t changes, L.computeDelta prev curr t = .ok changes → ∀ i,
    changes i = if |((L.cells curr i - L.cells prev i : Int) : ℚ)| < t then 0 else L.cells curr i - L.cells prev i

namespace DeltaAggregator

variable {agg : DeltaAggregator S} {series : SketchSeries S}

theorem lookup_cumulative (agg : DeltaAggregator S) (key : Attributes) : (agg.cumulative L).values.lookup key =
    (agg.values.lookup key).bind fun series =>
      if Aggregator.evicts series.toSeriesStruct then none else some (agg.collected L series) := by
  refine ext fun series' => ?_
  unfold cumulative
  rw [lookup_map_eq, map_eq_some_iff, bind_eq_some_iff]
  simp only [lookup_filter, Bool.not_eq_true', and_assoc]
  refine exists_congr fun series => and_congr_right fun _ => ?_
  cases Aggregator.evicts series.toSeriesStruct <;> simp

theorem measure_cases (agg : DeltaAggregator S) (m : Measurement) (value : Int) :
    agg.measure L m value = agg ∨ ∃ attrs series, agg.measure L m value = agg.record L attrs value series ∧
      (agg.values.lookup attrs = some series ∨ series.snapshot = none) := by
  unfold measure
  cases hown : agg.values.lookup m.attrs with
  | some series => exact .inr ⟨_, _, rfl, .inl hown⟩
  | none =>
    cases hlimited : agg.values.lookup m.limited with
    | some series => exact .inr ⟨_, _, rfl, .inl hlimited⟩
    | none =>
      dsimp only
      split
      · exact .inr ⟨_, _, rfl, .inr rfl⟩
      · exact .inl rfl

theorem point_cases (hdelta : agg.deltaTransmission = true) {payload : SketchPayload S ι}
    (h : agg.point L series = some payload) :
    series.measuredSince = true ∧ (payload = .full series.sketch ∨ ∃ snap changes, series.snapshot = some snap ∧
      L.computeDelta snap series.sketch agg.deltaThreshold = .ok changes ∧ payload = .delta changes) := by
  have hfull : fullPayload L series.sketch = some payload → payload = .full series.sketch := fun h => by
    unfold fullPayload at h
    split at h
    · exact (some.inj h).symm
    · cases h
  unfold point at h
  split at h
  · rename_i hexports
    refine ⟨hexports.1, ?_⟩
    unfold payloadFor at h
    rw [if_pos hdelta] at h
    cases hsnap : series.snapshot with
    | none =>
      rw [hsnap] at h
      exact .inl (hfull h)
    | some snap =>
      rw [hsnap] at h
      dsimp only at h
      cases hcompute : L.computeDelta snap series.sketch agg.deltaThreshold with
      | ok changes =>
        rw [hcompute] at h
        exact .inr ⟨snap, changes, rfl, hcompute, (some.inj h).symm⟩
      | error err =>
        rw [hcompute] at h
        exact .inl (hfull h)
  · cases h

end DeltaAggregator

namespace DeltaSession

open DeltaAggregator

/-- A receiver has each cell of the snapshot but for what was left out. -/
def Lacks (L : DeltaLib S ι) (s : DeltaSession S ι) (key : Attributes) (series : SketchSeries S) : Prop :=
  ∀ snap, series.snapshot = some snap → ∃ r, s.received key = some r ∧ ∀ i, r i = L.cells snap i - s.omitted key i

structure Tracks (L : DeltaLib S ι) (s : DeltaSession S ι) : Prop where
  transmits : s.agg.deltaTransmission = true
  lacks : ∀ key series, s.agg.values.lookup key = some series → Lacks L s key series

variable {s : DeltaSession S ι}

theorem Tracks.measure (h : Tracks L s) (m : Measurement) (value : Int) : Tracks L (s.step L (.measure m value)) := by
  dsimp only [step]
  rcases measure_cases (L := L) s.agg m value with heq | ⟨attrs, series, heq, hseries⟩ <;> rw [heq]
  · exact h
  · refine ⟨h.transmits, forall_lookup_insert (P := Lacks L s) h.lacks fun snap hsnap => ?_⟩
    rcases hseries with hl | hnone
    · exact h.lacks attrs series hl snap hsnap
    · cases hnone.symm.trans hsnap

theorem Tracks.exported (hlists : L.Lists) (h : Tracks L s) {key : Attributes} {series : SketchSeries S}
    {payload : SketchPayload S ι} (hl : s.agg.values.lookup key = some series)
    (hpoint : s.agg.point L series = some payload) :
    ∃ r, (s.step L .cumulative).received key = some r ∧
      ∀ i, r i = L.cells series.sketch i - (s.step L .cumulative).omitted key i := by
  have hreceived : (s.step L .cumulative).received key = payload.receive L (s.received key) := by
    show (((s.agg.points L).lookup key).join.map _).getD _ = _
    rw [points, lookup_map_eq, hl, map_some, hpoint]
    rfl
  have homitted : (s.step L .cumulative).omitted key = leaveOut L s.agg (s.omitted key) series := by
    show ((s.agg.values.lookup key).map _).getD _ = _
    rw [hl]
    rfl
  rw [hreceived, homitted]
  unfold leaveOut
  rw [hpoint]
  rcases (point_cases h.transmits hpoint).2 with rfl | ⟨snap, changes, hsnap, hcompute, rfl⟩
  · exact ⟨_, rfl, fun i => (Int.sub_zero _).symm⟩
  · obtain ⟨r, hr, hcells⟩ := h.lacks key series hl snap hsnap
    refine ⟨r + changes, by rw [SketchPayload.receive, hr]; rfl, fun i => ?_⟩
    have hchange := hlists snap series.sketch _ changes hcompute i
    have hbelow : belowThreshold L s.agg series i =
        if |((L.cells series.sketch i - L.cells snap i : Int) : ℚ)| < s.agg.deltaThreshold then
          L.cells series.sketch i - L.cells snap i else 0 := by
      unfold belowThreshold
      rw [hsnap]
      rfl
    show r i + changes i = L.cells series.sketch i - (s.omitted key i + belowThreshold L s.agg series i)
    rw [hcells, hchange, hbelow]
    split <;> omega

theorem Tracks.cumulative (hlists : L.Lists) (h : Tracks L s) : Tracks L (s.step L .cumulative) := by
  refine ⟨h.transmits, fun key series' hl snap hsnap => ?_⟩
  replace hl : (s.agg.cumulative L).values.lookup key = some series' := hl
  rw [lookup_cumulative, bind_eq_some_iff] at hl
  obtain ⟨series, hl, hkept⟩ := hl
  split at hkept
  · cases hkept
  cases hkept
  replace hsnap : (if s.agg.deltaTransmission = true ∧ (s.agg.point L series).isSome = true then some series.sketch
    else series.snapshot) = some snap := hsnap
  cases hpoint : s.agg.point L series with
  | some payload =>
    rw [hpoint, if_pos ⟨h.transmits, rfl⟩] at hsnap
    cases hsnap
    exact h.exported hlists hl hpoint
  | none =>
    rw [hpoint, if_neg (fun hno => nomatch hno.2)] at hsnap
    obtain ⟨r, hr, hcells⟩ := h.lacks key series hl snap hsnap
    refine ⟨r, ?_, fun i => ?_⟩
    · show (((s.agg.points L).lookup key).join.map _).getD _ = _
      rw [points, lookup_map_eq, hl, map_some, hpoint]
      exact hr
    · show _ = _ - ((s.agg.values.lookup key).map (leaveOut L s.agg (s.omitted key))).getD _ i
      rw [hl, map_some, getD_some, leaveOut, hpoint]
      exact hcells i

theorem Tracks.run (hlists : L.Lists) :
    ∀ {calls : List DeltaCall} {s : DeltaSession S ι}, Tracks L s → Tracks L (s.run L calls)
  | [], _, h => h
  | c :: calls, s, h => by
    show Tracks L ((s.step L c).run L calls)
    cases c with
    | measure m value => exact Tracks.run hlists (h.measure m value)
    | cumulative => exact Tracks.run hlists (h.cumulative hlists)

/-- After every export of a series a receiver is within the bound in every cell exactly if what the deltas have left out
of each cell adds up to less. -/
theorem received_within_iff (hlists : L.Lists) (family : SketchFamily) (threshold : ℚ) (calls : List DeltaCall)
    (key : Attributes) (payload : SketchPayload S ι)
    (hexported : (((start family threshold).run L calls).agg.points L).lookup key = some (some payload)) :
    ∃ series r, (((start family threshold).run L calls).step L .cumulative).agg.values.lookup key = some series ∧
      (((start family threshold).run L calls).step L .cumulative).received key = some r ∧
      ((∀ i, |((r i - L.cells series.sketch i : Int) : ℚ)| < max threshold 1) ↔
        ∀ i, |((((start family threshold).run L calls).step L .cumulative).omitted key i : ℚ)| < max threshold 1) := by
  have htracks : Tracks L ((start family threshold).run L calls) := Tracks.run hlists ⟨rfl, nofun⟩
  generalize (start family threshold).run L calls = s at htracks hexported ⊢
  rw [points, lookup_map_eq, map_eq_some_iff] at hexported
  obtain ⟨series, hl, hpoint⟩ := hexported
  obtain ⟨r, hr, hcells⟩ := htracks.exported hlists hl hpoint
  have hmeasured := (point_cases htracks.transmits hpoint).1
  refine ⟨s.agg.collected L series, r, ?_, hr, forall_congr' fun i => ?_⟩
  · show (s.agg.cumulative L).values.lookup key = _
    rw [lookup_cumulative, hl, bind_some, if_neg]
    simp [Aggregator.evicts, hmeasured]
  · have hlack : r i - L.cells series.sketch i = -(s.step L .cumulative).omitted key i := by
      rw [hcells]
      omega
    rw [show (s.agg.collected L series).sketch = series.sketch from rfl, hlack, Int.cast_neg, abs_neg]

/-- Two buckets: a value above one counts in the second, any other in the first. -/
def buckets : DeltaLib (Bool → Int) Bool where
  new := 0
  update _ value s := fun second => if second = decide (1 < value) then s second + 1 else s second
  cells := id
  computeDelta prev curr t := .ok fun i => if |((curr i - prev i : Int) : ℚ)| < t then 0 else curr i - prev i
  serializes _ := true

def measured (value : Int) : DeltaCall := .measure { attrs := [], limited := [] } value

/-- After the first export one bucket changes by one and the other by two, which is the threshold. -/
def oneLeftOut : List DeltaCall := [measured 1, .cumulative, measured 1, measured 5, measured 5]

theorem received_within_one_left_out :
    ∃ series r, (((start .ddSketch 2).run buckets oneLeftOut).step buckets .cumulative).agg.values.lookup
      [] = some series ∧ (((start .ddSketch 2).run buckets oneLeftOut).step buckets .cumulative).received [] = some r ∧
      (r false, r true) = (1, 2) ∧ (buckets.cells series.sketch false, buckets.cells series.sketch true) = (2, 2) ∧
      ∀ i, |((r i - buckets.cells series.sketch i : Int) : ℚ)| < max 2 1 := by
  have hlists : buckets.Lists := fun _ _ _ _ h i => (congrFun (Except.ok.inj h) i).symm
  obtain ⟨series, r, hseries, hr, hwithin⟩ := received_within_iff hlists .ddSketch 2 oneLeftOut [] _ rfl
  refine ⟨series, r, hseries, hr, ?_, ?_, hwithin.mpr (by decide +kernel)⟩
  · have hheld : ((((start .ddSketch 2).run buckets oneLeftOut).step buckets .cumulative).received []).map
        (fun r => (r false, r true)) = some (1, 2) := by decide +kernel
    rw [hr] at hheld
    exact some.inj hheld
  · cases hseries
    decide +kernel

/-- Each export leaves out one, and the threshold is two. -/
theorem omitted_changes_add_up :
    ∃ series r, ((start .countSketch 2).run buckets
        [measured 1, .cumulative, measured 1, .cumulative, measured 1, .cumulative]).agg.values.lookup
          [] = some series ∧
      ((start .countSketch 2).run buckets
        [measured 1, .cumulative, measured 1, .cumulative, measured 1, .cumulative]).received [] = some r ∧
      ¬|((r false - buckets.cells series.sketch false : Int) : ℚ)| < max 2 1 :=
  ⟨_, _, rfl, rfl, by decide +kernel⟩

end DeltaSession

end AsapCollector
