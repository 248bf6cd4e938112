import Mathlib.Data.List.MinMax
import AsapCollector.Lib.Run
import AsapCollector.Sketches.Hll

/-! Where nothing that is merged would have crossed, what a register is ahead of its receiver stays below the
threshold. -/

namespace AsapCollector.Sketches

open List Function HLLWrapper Float64

variable {S : Type} {lib : HllLib S} {regs : S → UInt32 → UInt8}

/-! ### Registers -/

/-- The maximum, and zero of nothing. -/
def greatest (values : List Nat) : Nat := values.foldr max 0

def valuesAt (updates : List RegisterUpdate) (i : UInt32) : List Nat :=
  (updates.filter fun u => u.index = i).map fun u => u.value.toNat

/-- An insertion reports the register that it raises. -/
def Reports (regs : S → UInt32 → UInt8) (s : S) : S × Option RegisterUpdate → Prop
  | (s', none) => regs s' = regs s
  | (s', some u) => regs s u.index < u.value ∧ regs s' = update (regs s) u.index u.value

/-- The values of a register in a payload, which is whole or a delta. -/
def HllLib.carried (lib : HllLib S) (regs : S → UInt32 → UInt8) (i : UInt32) : Bytes × Bool → List Nat
  | (payload, true) => match lib.decode payload with
    | .ok s => [(regs s i).toNat]
    | .error _ => []
  | (payload, false) => match lib.decodeDelta payload with
    | .ok updates => valuesAt updates i
    | .error _ => []

/-- What is assumed of the library, by the registers of a sketch. -/
structure HllLib.Keeps (lib : HllLib S) (regs : S → UInt32 → UInt8) : Prop where
  new : ∀ sparse i, regs (lib.new sparse) i = 0
  sampled : ∀ s p, regs (lib.withSampleP s p) = regs s
  valued : ∀ s v, Reports regs s (lib.updateValueReportingChange s v)
  hashed : ∀ s h, Reports regs s (lib.insertWithHashReportingChange s h)
  merged : ∀ s t s', lib.merge s t = .ok s' → ∀ i, (regs s' i).toNat = max (regs s i).toNat (regs t i).toNat
  applied : ∀ s updates i,
    (regs (lib.applyDelta s updates) i).toNat = max (regs s i).toNat (greatest (valuesAt updates i))
  whole : ∀ s, ∃ payload, lib.encode s = .ok payload ∧ ∀ i, lib.carried regs i (payload, true) = [(regs s i).toNat]
  delta : ∀ updates, ∃ payload, lib.encodeDelta updates = .ok payload ∧
    ∀ i, lib.carried regs i (payload, false) = valuesAt updates i

theorem greatest_append : ∀ a b : List Nat, greatest (a ++ b) = max (greatest a) (greatest b)
  | [], b => (Nat.zero_max _).symm
  | v :: a, b => by
    show max v (greatest (a ++ b)) = max (max v (greatest a)) (greatest b)
    rw [greatest_append a b, max_assoc]

theorem greatest_mem : ∀ values : List Nat, greatest values = 0 ∨ greatest values ∈ values
  | [] => Or.inl rfl
  | v :: values => by
    show max v (greatest values) = 0 ∨ max v (greatest values) ∈ v :: values
    rcases max_choice v (greatest values) with h | h
    · exact Or.inr (h.symm ▸ mem_cons_self)
    · rw [h]
      exact (greatest_mem values).imp_right (mem_cons_of_mem v)

theorem le_greatest {v : Nat} {values : List Nat} (h : v ∈ values) : v ≤ greatest values :=
  le_max_of_le h (Nat.le_refl v)

theorem greatest_le {c : Nat} {values : List Nat} (h : ∀ v ∈ values, v ≤ c) : greatest values ≤ c :=
  max_le_of_forall_le values c h

theorem mem_latestUpdates {dirty : List RegisterUpdate} {u : RegisterUpdate} :
    u ∈ latestUpdates dirty ↔ (latest dirty).lookup u.index = some u.value := by
  unfold latestUpdates
  rw [((SliceSort.stable _).perm _).mem_iff, mem_map, ← GoMap.mem_pairs]
  exact ⟨fun ⟨_, he, heq⟩ => heq ▸ he, fun h => ⟨_, h, rfl⟩⟩

namespace HLLWrapper

/-- A wrapper right after its creation, or after a `Reset`. -/
def Fresh (lib : HllLib S) (w : HLLWrapper S) : Prop :=
  (∃ sparse tau, w = (new lib sparse).setGosMode tau) ∨ ∃ w₀ : HLLWrapper S, w = w₀.reset lib

def last (w : HLLWrapper S) (i : UInt32) : UInt8 := w.gosLastSent.get 0 i

theorem within_of_not_crossed {tau : Float64} (hpos : lt ⟨0⟩ tau = true) (hinf : tau.isInf = false)
    (htau : tau.trunc < 63) {last cur : UInt8} {r : Nat} (hlast : last.toNat ≤ r) (hr : r ≤ cur.toNat)
    (hcur : cur.toNat < 63) (hquiet : gosRegisterCrossed lib last cur tau = false) :
    r = cur.toNat ∨ 0 < r ∧ 2 ^ cur.toNat - 2 ^ r < 2 ^ tau.trunc.toNat := by
  have hpower : ∀ n < 64, (powerOfTwo n).toNat = 2 ^ n := fun n hn => by
    unfold powerOfTwo
    rw [if_pos hn]
    exact UInt64.toNat_ofNat_of_lt (Nat.pow_lt_pow_right (by decide) hn)
  unfold gosRegisterCrossed crossingThreshold at hquiet
  by_cases hle : cur ≤ last
  · exact Or.inl (Nat.le_antisymm hr ((UInt8.le_iff_toNat_le.mp hle).trans hlast))
  rw [if_neg hle] at hquiet
  by_cases hzero : last = 0
  · rw [if_pos hzero] at hquiet
    cases hquiet
  have hexp : (!tau.isInf && decide (tau.trunc < 2 ^ 64)) = true := by
    rw [hinf, decide_eq_true (htau.trans (by decide))]
    rfl
  rw [if_neg hzero, if_pos hpos, if_pos hexp, decide_eq_false_iff_not, UInt64.le_iff_toNat_le] at hquiet
  have hlow : 2 ^ last.toNat ≤ 2 ^ r := Nat.pow_le_pow_right (by decide) hlast
  have hhigh : 2 ^ r ≤ 2 ^ cur.toNat := Nat.pow_le_pow_right (by decide) hr
  have hsome : 0 < last.toNat := Nat.pos_of_ne_zero fun h => hzero (UInt8.toNat_inj.mp h)
  rw [UInt64.toNat_sub_of_le, hpower _ (by omega), hpower _ (by omega), hpower _ (by omega)] at hquiet
  · exact Or.inr ⟨by omega, by omega⟩
  · rw [UInt64.le_iff_toNat_le, hpower _ (by omega), hpower _ (by omega)]
    exact hlow.trans hhigh

end HLLWrapper

/-! ### Runs -/

namespace HllSession

/-- The register as the payloads sent so far make it. -/
def received (lib : HllLib S) (regs : S → UInt32 → UInt8) (s : HllSession S) (i : UInt32) : Nat :=
  greatest (s.shipped.flatMap (lib.carried regs i))

/-- The values that a call brings to a register from outside. -/
def brought (lib : HllLib S) (regs : S → UInt32 → UInt8) (i : UInt32) : HllCall S → List UInt8
  | .merge other => [regs other i]
  | .applyDelta payload =>
    if payload.isEmpty then []
    else
      match lib.decode payload, lib.decodeDelta payload with
      | .ok other, _ => [regs other i]
      | .error _, .ok updates => (updates.filter fun u => u.index = i).map RegisterUpdate.value
      | .error _, .error _ => []
  | _ => []

/-- No value that a call brings would have crossed. -/
def Quiet (lib : HllLib S) (regs : S → UInt32 → UInt8) (w : HLLWrapper S) (c : HllCall S) : Prop :=
  ∀ i, ∀ v ∈ brought lib regs i c, gosRegisterCrossed lib (w.last i) v w.gosTau = false

/-- No call of the run brings a value that would have crossed. -/
abbrev AllQuiet (lib : HllLib S) (regs : S → UInt32 → UInt8) : HllSession S → List (HllCall S) → Prop :=
  Always (step lib) fun s c => Quiet lib regs s.w c

/-- What is known of a register: it has not crossed since it last reported, and what it then reported has been received
unless it is dirty. -/
structure Tracked (lib : HllLib S) (regs : S → UInt32 → UInt8) (tau : Float64) (i : UInt32) (s : HllSession S) :
    Prop where
  mode : s.w.gosTau = tau
  sent : s.w.last i ≤ regs s.w.sk i
  quiet : gosRegisterCrossed lib (s.w.last i) (regs s.w.sk i) tau = false
  pending : (latest s.w.gosDirty).lookup i = some (s.w.last i) ∨
    (latest s.w.gosDirty).lookup i = none ∧ (s.w.last i).toNat ≤ s.received lib regs i
  received : s.received lib regs i ≤ (regs s.w.sk i).toNat

variable {tau : Float64} {i : UInt32} {s : HllSession S}

theorem crossed_of_le {last cur : UInt8} (h : cur ≤ last) : gosRegisterCrossed lib last cur tau = false := if_pos h

theorem tracked_start (hlib : lib.Keeps regs) {w : HLLWrapper S} (hw : w.Fresh lib) (i : UInt32) :
    Tracked lib regs w.gosTau i { w } := by
  have hfresh : w.last i = 0 ∧ w.gosDirty = [] ∧ regs w.sk i = 0 := by
    rcases hw with ⟨sparse, tau, rfl⟩ | ⟨w₀, rfl⟩
    · exact ⟨rfl, rfl, hlib.new sparse i⟩
    · refine ⟨rfl, rfl, ?_⟩
      show regs (w₀.newSketch lib) i = 0
      unfold newSketch
      split
      · rw [hlib.sampled, hlib.new]
      · exact hlib.new _ i
  obtain ⟨hlast, hdirty, hreg⟩ := hfresh
  have hsame : regs w.sk i = w.last i := hreg.trans hlast.symm
  refine ⟨rfl, hsame.symm ▸ UInt8.le_refl _, crossed_of_le (hsame ▸ UInt8.le_refl _), Or.inr ⟨?_, ?_⟩, Nat.zero_le _⟩
  · rw [show ({ w } : HllSession S).w.gosDirty = [] from hdirty]
    rfl
  · rw [hlast]
    exact Nat.zero_le _

section
variable (h : Tracked lib regs tau i s)
include h

theorem Tracked.gos (hpos : lt ⟨0⟩ tau = true) : s.w.gos = true := by
  unfold HLLWrapper.gos
  rw [h.mode]
  exact hpos

theorem Tracked.raised {sk : S} (hle : regs s.w.sk i ≤ regs sk i)
    (hquiet : gosRegisterCrossed lib (s.w.last i) (regs sk i) tau = false) :
    Tracked lib regs tau i { s with w.sk := sk } :=
  ⟨h.mode, UInt8.le_trans h.sent hle, hquiet, h.pending, h.received.trans (UInt8.le_iff_toNat_le.mp hle)⟩

theorem Tracked.same {sk : S} (heq : regs sk i = regs s.w.sk i) :
    Tracked lib regs tau i { s with w.sk := sk } :=
  h.raised (heq ▸ UInt8.le_refl _) (heq ▸ h.quiet)

theorem Tracked.reported {inserted : S × Option RegisterUpdate}
    (hrep : Reports regs s.w.sk inserted) : Tracked lib regs tau i { s with w := s.w.reportChange lib inserted } := by
  obtain ⟨sk, _ | u⟩ := inserted
  · exact h.same (congrFun hrep i)
  obtain ⟨hlt, hregs⟩ := hrep
  have hself : regs sk u.index = u.value := by rw [hregs, update_self]
  have hother (hi : i ≠ u.index) : regs sk i = regs s.w.sk i := by rw [hregs, update_of_ne hi]
  show Tracked lib regs tau i { s with w := recordGosCrossing lib { s.w with sk } u }
  unfold recordGosCrossing
  split
  · have hlatest : latest (s.w.gosDirty ++ [u]) = (latest s.w.gosDirty).insert u.index u.value :=
      foldl_append
    generalize hw : ({ s.w with sk, gosLastSent := _, gosWake := _, gosDirty := _ } : HLLWrapper S) = w
    obtain ⟨hmode, hsk, hdirty⟩ : w.gosTau = tau ∧ w.sk = sk ∧ w.gosDirty = s.w.gosDirty ++
      [u] := hw ▸ ⟨h.mode, rfl, rfl⟩
    by_cases hi : i = u.index
    · have hlast : w.last i = u.value := by
        rw [← hw, hi]
        exact GoMap.get_insert_self _ _ _ _
      have hsame : regs w.sk i = w.last i := by rw [hsk, hi, hself, ← hi, hlast]
      refine ⟨hmode, hsame.symm ▸ UInt8.le_refl _, crossed_of_le (hsame ▸ UInt8.le_refl _), Or.inl ?_, ?_⟩
      · rw [hdirty, hlatest, hlast, hi]
        exact AList.lookup_insert _
      · rw [hsame, hlast]
        exact h.received.trans (UInt8.le_iff_toNat_le.mp (hi ▸ UInt8.le_of_lt hlt))
    · have hlast : w.last i = s.w.last i := by
        rw [← hw]
        exact GoMap.get_insert_of_ne hi
      refine ⟨hmode, ?_, ?_, ?_, ?_⟩ <;> dsimp only
      · rw [hlast, hsk, hother hi]
        exact h.sent
      · rw [hlast, hsk, hother hi]
        exact h.quiet
      · rw [hdirty, hlatest, hlast, AList.lookup_insert_ne hi]
        exact h.pending
      · rw [hsk, hother hi]
        exact h.received
  · rename_i hquiet
    by_cases hi : i = u.index
    · subst hi
      exact h.raised (hself ▸ UInt8.le_of_lt hlt) (hself ▸ h.mode ▸ Bool.eq_false_iff.mpr hquiet)
    · exact h.same (hother hi)

theorem Tracked.merged {sk : S} {c : HllCall S} (hq : Quiet lib regs s.w c)
    (hmax : (regs sk i).toNat = max (regs s.w.sk i).toNat (greatest ((brought lib regs i c).map UInt8.toNat))) :
    Tracked lib regs tau i { s with w.sk := sk } := by
  have hle : regs s.w.sk i ≤ regs sk i := UInt8.le_iff_toNat_le.mpr (hmax ▸ Nat.le_max_left _ _)
  rcases max_choice (regs s.w.sk i).toNat (greatest ((brought lib regs i c).map UInt8.toNat)) with hold | hnew
  · exact h.same (UInt8.toNat_inj.mp (hmax.trans hold))
  rcases greatest_mem ((brought lib regs i c).map UInt8.toNat) with hzero | hmem
  · exact h.raised hle (crossed_of_le (UInt8.le_iff_toNat_le.mpr (by rw [hmax, hnew, hzero]; exact Nat.zero_le _)))
  · obtain ⟨v, hv, heq⟩ := mem_map.mp hmem
    exact h.raised hle (UInt8.toNat_inj.mp ((hmax.trans hnew).trans heq.symm) ▸ h.mode ▸ hq i v hv)

end

theorem Tracked.shipped (hlib : lib.Keeps regs) (tau : Float64) (s : HllSession S) :
    ∃ p, clampDelta (s.w.snapshot lib) (lib.encodeDelta (latestUpdates s.w.gosDirty)) = .ok (some p.1, p.2) ∧
      ∀ i, Tracked lib regs tau i s → greatest (lib.carried regs i p) ≤ (regs s.w.sk i).toNat ∧
        ((latest s.w.gosDirty).lookup i = some (s.w.last i) →
          (s.w.last i).toNat ≤ greatest (lib.carried regs i p)) := by
  obtain ⟨full, hfull, hwhole⟩ := hlib.whole s.w.sk
  obtain ⟨delta, hdelta, hupdates⟩ := hlib.delta (latestUpdates s.w.gosDirty)
  unfold snapshot clampDelta
  rw [hfull, hdelta]
  dsimp only
  split
  · refine ⟨(full, true), rfl, fun i h => ?_⟩
    rw [hwhole]
    exact ⟨Nat.le_of_eq (Nat.max_zero _), fun _ => (UInt8.le_iff_toNat_le.mp h.sent).trans (Nat.le_max_left _ _)⟩
  · refine ⟨(delta, false), rfl, fun i h => ?_⟩
    rw [hupdates]
    refine ⟨greatest_le fun v hv => ?_, fun hsome => le_greatest (mem_map.mpr ⟨⟨i, s.w.last i⟩, mem_filter.mpr
      ⟨mem_latestUpdates.mpr hsome, decide_eq_true rfl⟩, rfl⟩)⟩
    obtain ⟨u, hu, rfl⟩ := mem_map.mp hv
    obtain ⟨hu, hi⟩ := mem_filter.mp hu
    have hlookup := of_decide_eq_true hi ▸ mem_latestUpdates.mp hu
    rcases h.pending with hsome | ⟨hnone, -⟩
    · rw [Option.some.inj (hlookup.symm.trans hsome)]
      exact UInt8.le_iff_toNat_le.mp h.sent
    · cases hlookup.symm.trans hnone

theorem Tracked.drained (hlib : lib.Keeps regs) (h : Tracked lib regs tau i s) (hpos : lt ⟨0⟩ tau = true)
    (prev : Bytes) : Tracked lib regs tau i (s.step lib (.computeDelta prev)) ∧
      ((s.step lib (.computeDelta prev)).w.last i).toNat ≤ (s.step lib (.computeDelta prev)).received lib regs i := by
  have hstep : s.w.computeDeltaAgainst lib prev = s.w.drainGosDelta lib := if_pos (h.gos hpos)
  unfold step
  dsimp only
  rw [hstep]
  unfold drainGosDelta
  by_cases hdirty : s.w.gosDirty.isEmpty
  · rw [if_pos hdirty]
    refine ⟨h, h.pending.elim (fun hsome => ?_) And.right⟩
    rw [List.isEmpty_iff.mp hdirty] at hsome
    cases hsome
  · obtain ⟨p, hp, hcarried⟩ := Tracked.shipped hlib tau s
    obtain ⟨hle, hall⟩ := hcarried i h
    rw [if_neg hdirty, hp]
    have hsum : HllSession.received lib regs { w := { s.w with gosDirty := [] }, shipped := s.shipped ++ [p] } i =
        max (s.received lib regs i) (greatest (lib.carried regs i p)) := by
      unfold HllSession.received
      rw [flatMap_append, greatest_append, flatMap_singleton]
    have hreceived :=
      h.pending.elim (fun hsome => (hall hsome).trans (Nat.le_max_right _ _)) fun hsent =>
        hsent.2.trans (Nat.le_max_left _ _)
    rw [← hsum] at hreceived
    exact ⟨⟨h.mode, h.sent, h.quiet, Or.inr ⟨rfl, hreceived⟩, hsum.trans_le (Nat.max_le.mpr ⟨h.received, hle⟩)⟩,
      hreceived⟩

theorem Tracked.step (hlib : lib.Keeps regs) (h : Tracked lib regs tau i s) (hpos : lt ⟨0⟩ tau = true) {c : HllCall S}
    (hq : Quiet lib regs s.w c) : Tracked lib regs tau i (s.step lib c) := by
  have hmerge : ∀ other, brought lib regs i c = [regs other i] →
      Tracked lib regs tau i { s with w := (s.w.merge lib other).1 } := fun other hbrought => by
    unfold HLLWrapper.merge
    cases hm : lib.merge s.w.sk other with
    | error e => exact h
    | ok sk =>
      refine h.merged hq ?_
      rw [hlib.merged _ _ _ hm i, hbrought]
      exact congrArg (max _) (Nat.max_zero _).symm
  cases c with
  | updateValue v =>
    have hupdate : s.w.updateValue lib v = s.w.reportChange lib (lib.updateValueReportingChange s.w.sk v) :=
      if_pos (h.gos hpos)
    dsimp only [HllSession.step]
    rw [hupdate]
    exact h.reported (hlib.valued _ v)
  | updateBytes b =>
    dsimp only [HllSession.step]
    unfold updateBytes
    rw [if_pos (h.gos hpos)]
    split
    · exact h
    · exact h.reported (hlib.hashed _ _)
  | merge other => exact hmerge other rfl
  | applyDelta payload =>
    dsimp only [HllSession.step]
    unfold applyDelta
    split
    · exact h
    · rename_i hsome
      have hbrought : brought lib regs i (.applyDelta payload) = _ := if_neg hsome
      cases hd : lib.decode payload with
      | ok other => exact hmerge other (by rw [hbrought, hd])
      | error e =>
        cases hu : lib.decodeDelta payload with
        | error e => exact h
        | ok updates => exact h.merged hq (by rw [hlib.applied, hbrought, hd, hu, map_map]; rfl)
  | computeDelta prev => exact (h.drained hlib hpos prev).1

theorem Tracked.run (hlib : lib.Keeps regs) (hpos : lt ⟨0⟩ tau = true) (calls : List (HllCall S))
    (h : Tracked lib regs tau i s) (hquiet : AllQuiet lib regs s calls) : Tracked lib regs tau i (s.run lib calls) :=
  hquiet.invariant (fun _ h hq => h.step hlib hpos hq) h

/-- Where no call brings a value that would have crossed, every register after a delta has been received as it is, or is
ahead of what was received by less than the threshold. -/
theorem registers_within (hlib : lib.Keeps regs) (w : HLLWrapper S) (hw : w.Fresh lib) (hpos : lt ⟨0⟩ w.gosTau = true)
    (hinf : w.gosTau.isInf = false) (htau : w.gosTau.trunc < 63) (calls : List (HllCall S))
    (hquiet : AllQuiet lib regs { w } calls) (prev : Bytes) (i : UInt32)
    (hbelow : (regs ((({ w } : HllSession S).run lib calls).step lib (.computeDelta prev)).w.sk i).toNat < 63) :
    let s := (({ w } : HllSession S).run lib calls).step lib (.computeDelta prev)
    s.received lib regs i ≤ (regs s.w.sk i).toNat ∧ (s.received lib regs i = (regs s.w.sk i).toNat ∨
      0 < s.received lib regs i ∧ 2 ^ (regs s.w.sk i).toNat - 2 ^ s.received lib regs i < 2 ^
        w.gosTau.trunc.toNat) := by
  obtain ⟨h, hlast⟩ := (Tracked.run hlib hpos calls (tracked_start hlib hw i) hquiet).drained hlib hpos prev
  exact ⟨h.received, within_of_not_crossed hpos hinf htau hlast h.received hbelow h.quiet⟩

/-! ### Sketches as lists of updates -/

def readUpdates : Bytes → List RegisterUpdate
  | b₀ :: b₁ :: b₂ :: b₃ :: value :: rest => ⟨UInt32.ofNat (ofLittleEndian [b₀, b₁, b₂, b₃]), value⟩ :: readUpdates rest
  | _ => []

def writeUpdates (updates : List RegisterUpdate) : Bytes :=
  updates.flatMap fun u => littleEndian 4 u.index.toNat ++ [u.value]

variable (s : List RegisterUpdate)

def listRegs (i : UInt32) : UInt8 := UInt8.ofNat (greatest (valuesAt s i))

def raise (value : UInt8) : List RegisterUpdate × Option RegisterUpdate :=
  if listRegs s 0 < value then (s ++ [⟨0, value⟩], some ⟨0, value⟩) else (s, none)

def listHll : HllLib (List RegisterUpdate) where
  new _ := []
  withSampleP s _ := s
  hash b := UInt64.ofNat b.length
  updateValue s v := (raise s v.bits.toUInt8).1
  insertWithHash s h := (raise s h.toUInt8).1
  updateValueReportingChange s v := raise s v.bits.toUInt8
  insertWithHashReportingChange s h := raise s h.toUInt8
  merge s t := .ok (s ++ t)
  encode s := .ok (writeUpdates s)
  decode payload := .ok (readUpdates payload)
  computeRegisterDelta _ s := s
  encodeDelta updates := .ok (writeUpdates updates)
  decodeDelta payload := .ok (readUpdates payload)
  applyDelta s updates := s ++ updates
  overflow _ := 0

theorem readUpdates_writeUpdates : ∀ updates : List RegisterUpdate, readUpdates (writeUpdates updates) = updates
  | [] => rfl
  | u :: updates => by
    show (⟨UInt32.ofNat (ofLittleEndian (littleEndian 4 u.index.toNat)), u.value⟩ : RegisterUpdate) ::
      readUpdates (writeUpdates updates) = _
    rw [ofLittleEndian_littleEndian 4 u.index.toNat_lt, readUpdates_writeUpdates updates, UInt32.ofNat_toNat]

theorem toNat_listRegs (i : UInt32) : (listRegs s i).toNat = greatest (valuesAt s i) := by
  refine UInt8.toNat_ofNat_of_lt (Nat.lt_succ_of_le (greatest_le fun v hv => ?_))
  obtain ⟨u, -, rfl⟩ := mem_map.mp hv
  exact Nat.le_of_lt_succ u.value.toNat_lt

theorem toNat_listRegs_append (t : List RegisterUpdate) (i : UInt32) :
    (listRegs (s ++ t) i).toNat = max (listRegs s i).toNat (greatest (valuesAt t i)) := by
  rw [toNat_listRegs, toNat_listRegs, ← greatest_append, valuesAt, filter_append, map_append]
  rfl

theorem reports_raise (value : UInt8) : Reports listRegs s (raise s value) := by
  unfold raise
  split
  · rename_i hlt
    refine ⟨hlt, funext fun i => UInt8.toNat_inj.mp ?_⟩
    rw [toNat_listRegs_append]
    by_cases hi : i = 0
    · subst hi
      exact (Nat.max_eq_right ((Nat.le_of_lt (UInt8.lt_iff_toNat_lt.mp hlt)).trans (Nat.le_max_left _ 0))).trans
        (Nat.max_zero _)
    · rw [update_of_ne hi]
      have hnone : valuesAt [⟨0, value⟩] i = [] := by simp [valuesAt, Ne.symm hi]
      rw [hnone]
      exact Nat.max_zero _
  · rfl

theorem listHll_keeps : listHll.Keeps listRegs where
  new _ _ := rfl
  sampled _ _ := rfl
  valued s _ := reports_raise s _
  hashed s _ := reports_raise s _
  merged s t s' h i := by
    cases h
    rw [toNat_listRegs_append, toNat_listRegs t]
  applied s updates i := toNat_listRegs_append s updates i
  whole s := ⟨_, rfl, fun i => congrArg (fun s => [(listRegs s i).toNat]) (readUpdates_writeUpdates s)⟩
  delta updates := ⟨_, rfl, fun i => congrArg (valuesAt · i) (readUpdates_writeUpdates updates)⟩

def gosHll : HLLWrapper (List RegisterUpdate) := (new listHll false).setGosMode (ofInt 2)

/-- The register is shipped at one, and then rises to two. -/
theorem registers_within_raised :
    let s := (({ w := gosHll } : HllSession _).run listHll [.updateValue ⟨1⟩, .computeDelta [], .updateValue ⟨2⟩]).step
      listHll (.computeDelta [])
    s.received listHll listRegs 0 ≤ (listRegs s.w.sk 0).toNat ∧
      (s.received listHll listRegs 0 = (listRegs s.w.sk 0).toNat ∨ 0 < s.received listHll listRegs 0 ∧
        2 ^ (listRegs s.w.sk 0).toNat - 2 ^ s.received listHll listRegs 0 < 2 ^ gosHll.gosTau.trunc.toNat) :=
  registers_within listHll_keeps gosHll (Or.inl ⟨false, _, rfl⟩) (by decide +kernel) (by decide +kernel)
    (by decide +kernel) [.updateValue ⟨1⟩, .computeDelta [], .updateValue ⟨2⟩]
    ⟨nofun, nofun, nofun, trivial⟩ [] 0 (by decide +kernel)

/-- A merge raises a register that no delta ever ships. -/
theorem merged_register_unshipped :
    listHll.Keeps listRegs ∧ gosHll.Fresh listHll ∧
      let s := (({ w := gosHll } : HllSession _).run listHll [.merge [⟨0, 5⟩]]).step listHll (.computeDelta [])
      listRegs s.w.sk 0 = 5 ∧ s.received listHll listRegs 0 = 0 :=
  ⟨listHll_keeps, Or.inl ⟨false, _, rfl⟩, by decide +kernel, by decide +kernel⟩

/-! ### Payloads in any order -/

/-- The values of a register that a payload brings. -/
def broughtBy (lib : HllLib S) (regs : S → UInt32 → UInt8) (i : UInt32) (payload : Bytes) : List Nat :=
  (brought lib regs i (.applyDelta payload)).map UInt8.toNat

section
variable (hlib : lib.Keeps regs) (hmerge : ∀ s t, ∃ s', lib.merge s t = .ok s') (i : UInt32)
include hlib hmerge

theorem applyDelta_register (w : HLLWrapper S) (payload : Bytes) :
    (regs (w.applyDelta lib payload).1.sk i).toNat = max (regs w.sk i).toNat
    (greatest (broughtBy lib regs i payload)) := by
  unfold applyDelta
  split
  · rename_i hempty
    have hbrought : brought lib regs i (.applyDelta payload) = [] := if_pos hempty
    rw [broughtBy, hbrought]
    exact (Nat.max_zero _).symm
  · rename_i hsome
    have hbrought : brought lib regs i (.applyDelta payload) = _ := if_neg hsome
    rw [broughtBy, hbrought]
    cases hd : lib.decode payload with
    | ok other =>
      obtain ⟨sk, hm⟩ := hmerge w.sk other
      dsimp only
      rw [HLLWrapper.merge, hm, hlib.merged _ _ _ hm i]
      exact congrArg (max _) (Nat.max_zero _).symm
    | error e =>
      cases hu : lib.decodeDelta payload with
      | error e => exact (Nat.max_zero _).symm
      | ok updates =>
        rw [hlib.applied, map_map]
        rfl

theorem applyDeltas_register (payloads : List Bytes) : ∀ w : HLLWrapper S,
    (regs (payloads.foldl (fun w p => (w.applyDelta lib p).1) w).sk i).toNat =
      max (regs w.sk i).toNat (greatest (payloads.flatMap (broughtBy lib regs i))) := by
  induction payloads with
  | nil => exact fun w => (Nat.max_zero _).symm
  | cons p payloads ih =>
    intro w
    rw [foldl_cons, ih, applyDelta_register hlib hmerge, flatMap_cons, greatest_append, max_assoc]

end

/-- A wrapper that is given the same payloads, whole or deltas, has the same registers whatever their order is and
however often each of them comes. -/
theorem payloads_in_any_order (hlib : lib.Keeps regs) (hmerge : ∀ s t, ∃ s', lib.merge s t = .ok s') (w : HLLWrapper S)
    {xs ys : List Bytes} (hsame : ∀ p, p ∈ xs ↔ p ∈ ys) :
    regs (xs.foldl (fun w p => (w.applyDelta lib p).1) w).sk =
      regs (ys.foldl (fun w p => (w.applyDelta lib p).1) w).sk := by
  have hle : ∀ {xs ys : List Bytes} (i : UInt32), (∀ p ∈ xs, p ∈ ys) →
      greatest (xs.flatMap (broughtBy lib regs i)) ≤ greatest (ys.flatMap (broughtBy lib regs i)) := by
    intro xs ys i hsub
    refine greatest_le fun v hv => ?_
    obtain ⟨p, hp, hv⟩ := mem_flatMap.mp hv
    exact le_greatest (mem_flatMap.mpr ⟨p, hsub p hp, hv⟩)
  refine funext fun i => UInt8.toNat_inj.mp ?_
  rw [applyDeltas_register hlib hmerge, applyDeltas_register hlib hmerge,
    Nat.le_antisymm (hle i fun p => (hsame p).mp) (hle i fun p => (hsame p).mpr)]

theorem payloads_in_any_order_twice :
    listRegs ([[0, 0, 0, 0, 5], [0, 0, 0, 0, 3]].foldl (fun w p => (w.applyDelta listHll p).1) gosHll).sk =
      listRegs ([[0, 0, 0, 0, 3], [0, 0, 0, 0, 5], [0, 0, 0, 0, 3]].foldl
        (fun w p => (w.applyDelta listHll p).1) gosHll).sk :=
  payloads_in_any_order listHll_keeps (fun s t => ⟨s ++ t, rfl⟩) gosHll fun p => by simp [or_comm]

end HllSession

end AsapCollector.Sketches
