import AsapCollector.Control.PlanDocument
import AsapCollector.Lib.Index

/-!
# Documents that decode

What `DecodeCollectorPlan` accepts, part by part, and the windows of the configurations it returns.
-/

namespace AsapCollector.Control

open List Option

variable {overflow : Float64 → UInt64}

theorem mapError_eq_ok {ε ε' α : Type} {f : ε → ε'} {x : Except ε α} {a : α} : x.mapError f = .ok a ↔ x = .ok a := by
  cases x <;> simp [Except.mapError]

variable {collectorID : Bytes}

theorem rulesByMaterialization_eq_ok {rules : List TransmissionRule} {m : GoMap UInt64 TransmissionRule} :
    rulesByMaterialization collectorID rules = .ok m ↔
      (∀ rule ∈ rules, rule.materialization ≠ 0 ∧ rule.producerID = collectorID) ∧
        (rules.map (·.materialization)).Nodup ∧ m = indexBy (·.materialization) rules := by
  refine foldlM_eq_ok_indexBy fun acc rule acc' => ?_
  simp only [bind_eq_ok, check_eq_ok, exists_const, pure_eq_ok, Bool.or_eq_false_iff, decide_eq_false_iff_not, not_not,
    isSome_eq_false_iff, isNone_iff_eq_none, eq_comm (a := acc')]

def Yields (overflow : Float64 → UInt64) (rules : GoMap UInt64 TransmissionRule) (m : CollectorMaterialization)
    (cfg : PrecomputeConfig) : Prop :=
  ∃ rule, rules.lookup m.materialization = some rule ∧ validateTransmissionRule rule m = .ok () ∧
    precomputeConfig overflow m rule = .ok cfg

variable {rules : GoMap UInt64 TransmissionRule} {m : CollectorMaterialization}

theorem decodeMaterialization_eq_ok {acc acc' : List UInt64 × List PrecomputeConfig} :
    decodeMaterialization overflow rules acc m = .ok acc' ↔
      (m.queryID.isBlank = false ∧ m.materialization ≠ 0) ∧ m.materialization ∉ acc.1 ∧
        ∃ cfg, Yields overflow rules m cfg ∧ acc' = (acc.1 ++ [m.materialization], acc.2 ++ [cfg]) := by
  simp only [decodeMaterialization, bind_eq_ok, check_eq_ok, exists_const, Bool.or_eq_false_iff,
    decide_eq_false_iff_not]
  refine and_congr Iff.rfl (and_congr Iff.rfl ?_)
  unfold Yields
  cases hl : rules.lookup m.materialization with
  | none => simp
  | some rule =>
    simp only [bind_eq_ok, mapError_eq_ok, pure_eq_ok, some.injEq, exists_eq_left']
    constructor
    · rintro ⟨_, hrule, cfg, hcfg, rfl⟩
      exact ⟨cfg, ⟨hrule, hcfg⟩, rfl⟩
    · rintro ⟨cfg, ⟨hrule, hcfg⟩, rfl⟩
      exact ⟨(), hrule, cfg, hcfg, rfl⟩

theorem decodeMaterializations_eq_ok {ms : List CollectorMaterialization} {result : List UInt64 × List PrecomputeConfig}
    : ms.foldlM (decodeMaterialization overflow rules) ([], []) = .ok result ↔
      (∀ m ∈ ms, m.queryID.isBlank = false ∧ m.materialization ≠ 0) ∧ (ms.map (·.materialization)).Nodup ∧
        result.1 = ms.map (·.materialization) ∧ Forall₂ (Yields overflow rules) ms result.2 := by
  induction ms using reverseRecOn generalizing result with
  | nil =>
    simp only [foldlM_nil, pure_eq_ok]
    constructor
    · rintro rfl
      exact ⟨forall_mem_nil _, nodup_nil, rfl, .nil⟩
    · rintro ⟨-, -, hseen, hcfgs⟩
      exact Prod.ext hseen.symm (forall₂_nil_left_iff.mp hcfgs).symm
  | append_singleton ms m ih =>
    simp only [foldlM_append, foldlM_cons, foldlM_nil, bind_pure, bind_eq_ok, ih,
      decodeMaterialization_eq_ok]
    rw [nodup_map_append_singleton]
    constructor
    · rintro ⟨acc, ⟨hgood, hnodup, hseen, hcfgs⟩, hm, hnew, cfg, hcfg, rfl⟩
      exact ⟨forall_mem_append.mpr ⟨hgood, forall_mem_singleton.mpr hm⟩, ⟨hnodup, hseen ▸ hnew⟩, by simp [hseen],
        rel_append hcfgs (.cons hcfg .nil)⟩
    · rintro ⟨hgood, ⟨hnodup, hnew⟩, hseen, hcfgs⟩
      have hinit := forall₂_take ms.length hcfgs
      have hlast := forall₂_drop ms.length hcfgs
      rw [take_left] at hinit
      rw [drop_left] at hlast
      obtain ⟨cfg, hcfg, hdrop⟩ : ∃ cfg, Yields overflow rules m cfg ∧ result.2.drop ms.length = [cfg] := by
        cases hd : result.2.drop ms.length with
        | nil => simp [hd] at hlast
        | cons cfg rest =>
          simp only [hd, forall₂_cons, forall₂_nil_left_iff] at hlast
          exact ⟨cfg, hlast.1, by rw [hlast.2]⟩
      refine ⟨(ms.map (·.materialization), result.2.take ms.length),
        ⟨fun m' hm' => hgood m' (mem_append_left _ hm'), hnodup, rfl, hinit⟩,
        hgood m (by simp), hnew, cfg, hcfg, Prod.ext (by simpa using hseen) ?_⟩
      rw [← hdrop, take_append_drop]

/-- A field that identifies the plan is missing, or its times are out of order. -/
def identityMissing (doc : PlanDocument) : Bool :=
  doc.envelope.planID = 0 || doc.envelope.planVersion = 0 || doc.generatedAtUnixMS = 0 || doc.activationUnixMS = 0 ||
    doc.activationUnixMS < doc.generatedAtUnixMS || doc.expiryUnixMS.any (· ≤ doc.activationUnixMS) ||
    doc.envelope.backendCompat.isBlank || doc.plannerRevision.isBlank || doc.capabilitySnapshotID.isBlank

/-- Rules and materializations are those of the collector, and there is one rule for each materialization. -/
structure Paired (doc : PlanDocument) : Prop where
  identity : identityMissing doc = false
  bound : ∀ rule ∈ doc.transmissionRules, rule.materialization ≠ 0 ∧ rule.producerID = doc.collectorID
  rules : (doc.transmissionRules.map (·.materialization)).Nodup
  named : ∀ m ∈ doc.materializations, m.queryID.isBlank = false ∧ m.materialization ≠ 0
  materializations : (doc.materializations.map (·.materialization)).Nodup
  length : doc.transmissionRules.length = doc.materializations.length

variable {doc : PlanDocument} {set : PrecomputeConfigSet}

theorem decodeDocument_eq_ok :
    decodeDocument overflow doc collectorID = .ok set ↔ doc.collectorID = collectorID ∧ Paired doc ∧
      ∃ configs, Forall₂ (Yields overflow (indexBy (·.materialization) doc.transmissionRules)) doc.materializations
        configs ∧ set = ⟨doc.envelope.planVersion, configs⟩ := by
  simp only [decodeDocument, bind_eq_ok, check_eq_ok, exists_const, pure_eq_ok, decide_eq_false_iff_not, not_not,
    rulesByMaterialization_eq_ok, decodeMaterializations_eq_ok]
  refine and_congr_right fun _ => ?_
  constructor
  · rintro ⟨hid, rules, ⟨hbound, hrules, rfl⟩, ⟨seen, configs⟩, ⟨hnamed, hms, rfl, hyields⟩, hlen, rfl⟩
    rw [len_indexBy hrules, length_map] at hlen
    exact ⟨⟨hid, hbound, hrules, hnamed, hms, hlen⟩, configs, hyields, rfl⟩
  · rintro ⟨⟨hid, hbound, hrules, hnamed, hms, hlen⟩, configs, hyields, rfl⟩
    exact ⟨hid, _, ⟨hbound, hrules, rfl⟩, (_, configs), ⟨hnamed, hms, rfl, hyields⟩,
      by rw [len_indexBy hrules, length_map, hlen], rfl⟩

theorem decodeCollectorPlan_eq_ok {parse : Bytes → Option PlanDocument} {body : Bytes}
    (h : decodeCollectorPlan overflow parse body collectorID = .ok (set, doc)) :
    decodeDocument overflow doc collectorID = .ok set := by
  unfold decodeCollectorPlan at h
  split at h
  · cases h
  · rename_i doc' _
    cases hd : decodeDocument overflow doc' collectorID with
    | error e => rw [hd] at h; cases h
    | ok set' => rw [hd] at h; cases h; exact hd

theorem Yields.window {cfg : PrecomputeConfig}
    (h : Yields overflow rules m cfg) :
    cfg.aggID = m.materialization ∧ cfg.window.size = durationOfSeconds m.windowSecs ∧ m.windowSecs ≠ 0 ∧
      ∃ rule, rules.lookup m.materialization = some rule ∧ rule.emitEveryMS = m.windowSecs * 1000 := by
  obtain ⟨rule, hl, hrule, hcfg⟩ := h
  simp only [validateTransmissionRule, bind_eq_ok, check_eq_ok, exists_const] at hrule
  simp only [precomputeConfig, bind_eq_ok, check_eq_ok, exists_const, pure_eq_ok] at hcfg
  obtain ⟨hrequired, -, -, sketch, -, -, rfl⟩ := hcfg
  simp only [Bool.or_eq_false_iff, decide_eq_false_iff_not] at hrequired hrule
  exact ⟨rfl, rfl, hrequired.1.1.1.2, rule, hl, not_not.mp hrule.2.1⟩

theorem durationOfSeconds_eq_iff {n : UInt64} :
    durationOfSeconds n = n.toNat * second ↔ n.toNat * 1000000000 < 2 ^ 63 := by
  unfold durationOfSeconds second
  rw [BitVec.toInt_eq_toNat_cond, BitVec.toNat_ofNat]
  split <;> omega

theorem window_exact {n emitEveryMS : UInt64} (hfits : n.toNat * 1000000000 < 2 ^ 63) (hpos : n ≠ 0)
    (hemit : emitEveryMS = n * 1000) :
    durationOfSeconds n = n.toNat * second ∧ 0 < durationOfSeconds n ∧ durationOfSeconds n = emitEveryMS.toNat *
      millisecond := by
  have hlt : n.toNat * 1000 < 2 ^ 64 :=
    (Nat.mul_le_mul_left n.toNat (by decide : 1000 ≤ 1000000000)).trans_lt (hfits.trans (by decide))
  have hexact : emitEveryMS.toNat = n.toNat * 1000 := by
    rw [hemit, UInt64.toNat_mul]
    exact Nat.mod_eq_of_lt hlt
  have hnonzero : n.toNat ≠ 0 := fun hzero => hpos (UInt64.toNat_inj.mp (hzero.trans UInt64.toNat_zero.symm))
  rw [durationOfSeconds_eq_iff.mpr hfits, hexact]
  unfold second millisecond
  omega

/-- The window of every configuration is the one that its materialization declares, and as long as its rule's
interval. -/
def WindowsDeclared (set : PrecomputeConfigSet) (doc : PlanDocument) : Prop :=
  ∀ cfg ∈ set.configs, ∀ m ∈ doc.materializations, m.materialization = cfg.aggID →
    ∀ rule ∈ doc.transmissionRules, rule.materialization = cfg.aggID →
      cfg.window.size = m.windowSecs.toNat * second ∧ 0 < cfg.window.size ∧
        cfg.window.size = rule.emitEveryMS.toNat * millisecond

/-- An accepted plan has the windows it declares if and only if they fit into a duration. -/
theorem accepted_windows_declared_iff (overflow : Float64 → UInt64) (parse : Bytes → Option PlanDocument)
    {body collectorID : Bytes}
    {set : PrecomputeConfigSet} {doc : PlanDocument} (h : decodeCollectorPlan overflow parse body collectorID =
      .ok (set, doc)) :
    WindowsDeclared set doc ↔ ∀ m ∈ doc.materializations, m.windowSecs.toNat * 1000000000 < 2 ^ 63 := by
  obtain ⟨-, hpaired, configs, hyields, rfl⟩ := decodeDocument_eq_ok.mp (decodeCollectorPlan_eq_ok h)
  constructor
  · intro hwindows m hm
    obtain ⟨cfg, hcfg, hyield⟩ := forall₂_exists_right hyields m hm
    obtain ⟨haggID, hsize, -, rule, hl, -⟩ := hyield.window
    obtain ⟨hrule, hid⟩ := (lookup_indexBy hpaired.rules).mp hl
    have hdeclared := hwindows cfg hcfg m hm haggID.symm rule hrule (hid.trans haggID.symm)
    exact durationOfSeconds_eq_iff.mp (hsize.symm.trans hdeclared.1)
  · intro hfits cfg hcfg m hm hid rule hrule hruleID
    obtain ⟨m', hm', hyield⟩ := forall₂_exists_left hyields cfg hcfg
    obtain ⟨haggID, hsize, hpos, rule', hl, hemit⟩ := hyield.window
    obtain ⟨hrule', hid'⟩ := (lookup_indexBy hpaired.rules).mp hl
    cases inj_on_of_nodup_map hpaired.materializations hm hm' (hid.trans haggID)
    cases inj_on_of_nodup_map hpaired.rules hrule hrule' (hruleID.trans (haggID.trans hid'.symm))
    rw [hsize]
    exact window_exact (hfits m hm) hpos hemit

def quantileMaterialization (windowSecs : UInt64) : CollectorMaterialization where
  queryID := str "q"
  materialization := 7
  metric := str "m"
  algorithm := .kll
  parameters := AList.singleton (str "k") (Float64.ofInt 200)
  groupBy := []
  windowSecs
  abstractWindowFramework := .tumbling
  windowImplementationID := str "collector-tumbling-v1"
  paneSecs := windowSecs
  stateLayout := str "anchored-pane-v1"
  evidenceSource := none
  lifecycle := supportedCollectorLifecycle

def quantileRule (emitEveryMS : UInt64) : TransmissionRule where
  materialization := 7
  producerID := str "edge"
  schemaID := str "kll"
  mode := .full
  encoding := stateEncodingSketchlibProtobufV1
  emitEveryMS
  fullCheckpointEveryMS := none
  destinationRef := str "backend"
  runtimePolicy := ⟨⟨str "disabled", ⟨0⟩, []⟩, none, ⟨false, 0, 0, 0, none, none, none, none⟩⟩

def quantileDocument (windowSecs emitEveryMS : UInt64) : PlanDocument where
  collectorID := str "edge"
  envelope := ⟨3, 1, str "v1"⟩
  transmissionRules := [quantileRule emitEveryMS]
  generatedAtUnixMS := 1
  activationUnixMS := 1
  expiryUnixMS := none
  plannerRevision := str "r"
  capabilitySnapshotID := str "s"
  materializations := [quantileMaterialization windowSecs]

theorem decode_of_isOk (h : (decodeDocument (fun _ => 0) doc (str "edge")).isOk = true) :
    ∃ set, decodeCollectorPlan (fun _ => 0) (fun _ => some doc) [] (str "edge") = .ok (set, doc) := by
  cases hd : decodeDocument (fun _ => 0) doc (str "edge") with
  | error e => rw [hd] at h; cases h
  | ok set => exact ⟨set, by simp [decodeCollectorPlan, hd, Except.map]⟩

theorem accepted_windows_declared_minute :
    ∃ set, decodeCollectorPlan (fun _ => 0) (fun _ => some (quantileDocument 60 60000)) [] (str "edge") =
      .ok (set, quantileDocument 60 60000) ∧ WindowsDeclared set (quantileDocument 60 60000) := by
  obtain ⟨set, hset⟩ := @decode_of_isOk (quantileDocument 60 60000) (by decide +kernel)
  refine ⟨set, hset, (accepted_windows_declared_iff (fun _ => 0) (fun _ => some (quantileDocument 60 60000)) hset).mpr
    ?_⟩
  decide

/-- A window of `2 ^ 61 + 1` seconds that is sent every second. -/
theorem overflowing_window_accepted :
    ∃ set, decodeCollectorPlan (fun _ => 0) (fun _ => some (quantileDocument 0x2000000000000001 1000)) [] (str "edge") =
      .ok (set, quantileDocument 0x2000000000000001 1000) ∧
        ¬ WindowsDeclared set (quantileDocument 0x2000000000000001 1000) := by
  obtain ⟨set, hset⟩ := @decode_of_isOk (quantileDocument 0x2000000000000001 1000) (by decide +kernel)
  refine ⟨set, hset, fun hdeclared => ?_⟩
  have hsize : (decodeDocument (fun _ => 0) (quantileDocument 0x2000000000000001 1000) (str "edge")).toOption.map
      (fun set => set.configs.map fun cfg => (cfg.aggID, cfg.window.size)) = some [(7, second)] := by decide +kernel
  rw [decodeCollectorPlan_eq_ok hset] at hsize
  have hsizes : (set.configs.map fun cfg => (cfg.aggID, cfg.window.size)) = [(7, second)] := some.inj hsize
  obtain ⟨cfg, hcfg, hpair⟩ : ∃ cfg ∈ set.configs, (cfg.aggID, cfg.window.size) = (7, second) :=
    List.mem_map.mp (by rw [hsizes]; exact mem_singleton.mpr rfl)
  obtain ⟨haggID, hwindow⟩ := Prod.mk.inj hpair
  have hexact := (hdeclared cfg hcfg _ (mem_singleton.mpr rfl) haggID.symm _ (mem_singleton.mpr rfl) haggID.symm).1
  rw [hwindow] at hexact
  exact absurd hexact (by decide)

end AsapCollector.Control
