import Mathlib.Algebra.Order.BigOperators.Group.List
import AsapCollector.Lib.ByKey
import AsapCollector.Lib.Check
import AsapCollector.Otel.Adapter

/-! Three things get lost on the way through OTel metrics: resource labels whose rendered keys collide with another
group's, encodings of two sketches that `Decode` has no case for, and labels under the keys of frame attributes. -/

namespace AsapCollector.Otel

open List AttributeMap

/-! ### Attributes -/

namespace AttributeMap

variable {m : AttributeMap}

theorem get_putStr (m : AttributeMap) (k v k' : Bytes) :
    (m.putStr k v).get k' = if k' = k then some v else m.get k' := by
  induction m with
  | nil => by_cases hk : k = k' <;> simp [putStr, get, hk, eq_comm]
  | cons e m ih =>
    simp only [get] at ih
    by_cases he : e.1 = k
    · by_cases hk : k = k'
      · simp [putStr, get, he, hk]
      · simp [putStr, get, he, hk, eq_comm]
    · by_cases hk : e.1 = k'
      · have hne : k' ≠ k := hk ▸ he
        simp [putStr, get, hk, hne]
      · simp [putStr, get, he, hk, ih]

theorem keys_putStr (m : AttributeMap) (k v : Bytes) :
    (m.putStr k v).map Prod.fst = if k ∈ m.map Prod.fst then m.map Prod.fst else m.map Prod.fst ++ [k] := by
  induction m with
  | nil => simp [putStr]
  | cons e m ih =>
    by_cases he : e.1 = k
    · simp [putStr, he]
    · have hne : k ≠ e.1 := Ne.symm he
      rw [putStr, if_neg he, map_cons, ih]
      by_cases hk : k ∈ m.map Prod.fst
      · simp only [hk, if_true, map_cons, mem_cons, or_true]
      · simp only [hk, if_false, map_cons, mem_cons, hne, or_false, cons_append]

theorem nodup_putStr (h : (m.map Prod.fst).Nodup) (k v : Bytes) : ((m.putStr k v).map Prod.fst).Nodup := by
  rw [keys_putStr]
  split
  · exact h
  · next hk => exact nodup_append.mpr ⟨h, nodup_singleton k, fun a ha b hb hab => hk (by simp_all)⟩

variable {entries : List (Bytes × Bytes)}

theorem nodup_putAll :
    ∀ {m : AttributeMap}, (m.map Prod.fst).Nodup → ((m.putAll entries).map Prod.fst).Nodup := by
  induction entries with
  | nil => exact fun h => h
  | cons e entries ih => exact fun h => ih (nodup_putStr h e.1 e.2)

theorem get_putAll : ∀ {m : AttributeMap}, (entries.map Prod.fst).Nodup → ∀ {k v : Bytes},
    ((m.putAll entries).get k = some v ↔ (k, v) ∈ entries ∨ k ∉ entries.map Prod.fst ∧ m.get k = some v) := by
  induction entries with
  | nil => simp [putAll]
  | cons e entries ih =>
    intro m h k v
    obtain ⟨hnew, hrest⟩ := nodup_cons.mp h
    have hstep : (m.putAll (e :: entries)).get k = ((m.putStr e.1 e.2).putAll entries).get k := rfl
    rw [hstep, ih hrest, get_putStr]
    by_cases hk : k = e.1
    · subst hk
      have hv : (e.1, v) ∉ entries := fun hmem => hnew (mem_map.mpr ⟨_, hmem, rfl⟩)
      simp [hv, hnew, Prod.ext_iff, eq_comm]
    · have hne : (k, v) ≠ e := fun heq => hk (congrArg Prod.fst heq)
      simp [hk, hne]

end AttributeMap

theorem mem_attributesToKeyValues {attrs : AttributeMap} {kv : KeyValue} :
    kv ∈ attributesToKeyValues attrs ↔ attrs.get kv.key = some kv.value := by
  rw [attributesToKeyValues, mem_filterMap]
  constructor
  · rintro ⟨k, -, hk⟩
    obtain ⟨v, hv, rfl⟩ := Option.map_eq_some_iff.mp hk
    exact hv
  · intro h
    refine ⟨kv.key, (perm_insertionSort _ _).mem_iff.mpr ?_, by rw [h]; rfl⟩
    obtain ⟨e, he, -⟩ := Option.map_eq_some_iff.mp h
    have hkey := find?_some he
    exact mem_map.mpr ⟨e, mem_of_find?_eq_some he, by simpa using hkey⟩

theorem pairwise_attributesToKeyValues {attrs : AttributeMap} (h : (attrs.map Prod.fst).Nodup) :
    (attributesToKeyValues attrs).Pairwise fun a b => a.key < b.key := by
  have hsorted := pairwise_insertionSort (· ≤ ·) (attrs.map Prod.fst)
  have hnodup : ((attrs.map Prod.fst).insertionSort (· ≤ ·)).Nodup := (perm_insertionSort _ _).nodup_iff.mpr h
  refine Pairwise.filterMap _ ?_ (hsorted.and hnodup)
  rintro k k' ⟨hle, hne⟩ a ha b hb
  obtain ⟨v, -, rfl⟩ := Option.map_eq_some_iff.mp ha
  obtain ⟨v', -, rfl⟩ := Option.map_eq_some_iff.mp hb
  exact lt_of_le_of_ne hle hne

variable {kvs : List KeyValue}

theorem nodup_keys_of_pairwise (h : kvs.Pairwise fun a b => a.key < b.key) :
    ((kvs.map fun kv => (kv.key, kv.value)).map Prod.fst).Nodup := by
  rw [map_map, Nodup, pairwise_map]
  exact h.imp fun hlt => ne_of_lt hlt

theorem mem_map_pair {kv : KeyValue} :
    (kv.key, kv.value) ∈ kvs.map (fun kv => (kv.key, kv.value)) ↔ kv ∈ kvs := by
  have hinj : Function.Injective fun kv : KeyValue => (kv.key, kv.value) := by
    rintro ⟨k, v⟩ ⟨k', v'⟩ h
    simpa using h
  exact mem_map_of_injective hinj

theorem attributesToKeyValues_keyValuesToAttributes (h : kvs.Pairwise fun a b => a.key < b.key) :
    attributesToKeyValues (keyValuesToAttributes kvs []) = kvs := by
  refine eq_of_pairwise_key (pairwise_attributesToKeyValues (nodup_putAll nodup_nil)) h fun kv => ?_
  rw [mem_attributesToKeyValues, keyValuesToAttributes, get_putAll (nodup_keys_of_pairwise h),
    mem_map_pair]
  simp [AttributeMap.get]

section
variable (order : RangeOrder (Bytes × Bytes)) (env : SketchEnvelope)

def pointLabels : List KeyValue :=
  attributesToKeyValues (frameAttributesToOTLP env.frameAttributes order (keyValuesToAttributes env.labels []))

theorem pairwise_pointLabels : (pointLabels order env).Pairwise fun a b => a.key < b.key :=
  pairwise_attributesToKeyValues (nodup_putAll (nodup_putAll nodup_nil))

variable {env} in
theorem mem_pointLabels (h : env.labels.Pairwise fun a b => a.key < b.key) {kv : KeyValue} :
    kv ∈ pointLabels order env ↔ env.frameAttributes.lookup kv.key = some kv.value ∨
      env.frameAttributes.lookup kv.key = none ∧ kv ∈ env.labels := by
  have hkeys : kv.key ∉ (env.frameAttributes.range order).map Prod.fst ↔ env.frameAttributes.lookup kv.key = none := by
    rw [Option.eq_none_iff_forall_ne_some, mem_map]
    constructor
    · exact fun hnot v hv => hnot ⟨(kv.key, v), GoMap.mem_range.mpr hv, rfl⟩
    · rintro hnone ⟨⟨k, v⟩, hmem, rfl⟩
      exact hnone v (GoMap.mem_range.mp hmem)
  rw [pointLabels, mem_attributesToKeyValues, frameAttributesToOTLP,
    get_putAll (GoMap.nodup_keys_range _ _),
    GoMap.mem_range, hkeys, keyValuesToAttributes, get_putAll (nodup_keys_of_pairwise h), mem_map_pair]
  simp [AttributeMap.get]

theorem withFrame_pointLabels_iff (h : env.labels.Pairwise fun a b => a.key < b.key) :
    WithFrame env (pointLabels order env) ↔ LabelsKept env := by
  constructor
  · rintro ⟨-, hmem⟩ kv hkv value hvalue
    rcases (mem_pointLabels order h).mp ((hmem kv).mpr (.inl hkv)) with hframe | ⟨hnone, -⟩
    · exact Option.some.inj (hvalue.symm.trans hframe)
    · rw [hnone] at hvalue
      cases hvalue
  · intro hkept
    refine ⟨pairwise_pointLabels order env, fun kv => ?_⟩
    rw [mem_pointLabels order h]
    constructor
    · rintro (hframe | ⟨-, hkv⟩)
      · exact .inr hframe
      · exact .inl hkv
    · rintro (hkv | hframe)
      · cases hlookup : env.frameAttributes.lookup kv.key with
        | none => exact .inr ⟨rfl, hkv⟩
        | some value => exact .inl (by rw [hkept kv hkv value hlookup])
      · exact .inl hframe

end

/-! ### One metric -/

def returnedEncoding (env : SketchEnvelope) : Encoding :=
  if effectiveAggKind env = .sum then sumAggEncodingToHostNeutral (hostNeutralToSumAggEncoding env.encoding)
  else
    match env.sketchType with
    | .ddSketch => ddSketchEncodingToHostNeutral (hostNeutralToDDSketchEncoding env.encoding)
    | .kllSketch => kllSketchEncodingToHostNeutral (hostNeutralToKLLSketchEncoding env.encoding)
    | .hllSketch => hllSketchEncodingToHostNeutral (hostNeutralToHLLSketchEncoding env.encoding)
    | .countSketch => countSketchEncodingToHostNeutral (hostNeutralToCountSketchEncoding env.encoding)
    | .countMinSketch => countMinSketchEncodingToHostNeutral (hostNeutralToCountMinSketchEncoding env.encoding)
    | .unspecified => .unspecified

variable {env : SketchEnvelope}

theorem returnedEncoding_cases (h : knownEncoding env = true) :
    env.encoding ≠ .unspecified ∧
      ((DecodableEncoding env ∧ returnedEncoding env = env.encoding) ∨
        (¬DecodableEncoding env ∧ returnedEncoding env = .unspecified)) := by
  unfold knownEncoding at h
  unfold DecodableEncoding returnedEncoding
  by_cases hsum : effectiveAggKind env = .sum
  · simp only [hsum, if_true] at h ⊢
    cases hencoding : env.encoding <;> simp_all [toHostNeutral, hostNeutralTo]
  · simp only [hsum, if_false] at h ⊢
    cases hsketch : env.sketchType <;> cases hencoding : env.encoding <;>
      simp_all [toHostNeutral, hostNeutralTo]

section
variable (cfg : Option AdapterConfig) (order : RangeOrder (Bytes × Bytes))

/-- What comes back of an envelope whose metric is written under the given resource labels. -/
def delivered (resourceLabels : List KeyValue) (env : SketchEnvelope) : Observation :=
  let sum := effectiveAggKind env = .sum
  let e : SketchEnvelope :=
    { schemaVersion := 1, sketchType := if sum then .unspecified else env.sketchType,
      aggKind := if sum then .sum else .unspecified, resourceLabels := resourceLabels, labels := pointLabels order env,
      windowStartMs := timestampMs (timestampOf env.windowStartMs),
        windowEndMs := timestampMs (timestampOf env.windowEndMs),
      encoding := returnedEncoding env, payload := env.payload }
  { timestampMs := timestampMs (timestampOf env.windowEndMs), metric := metricNameFor env cfg,
    resourceLabels := resourceLabels,
    labels := pointLabels order env, value := { kind := .envelope, envelope := some e } }

variable {cfg order} {env : SketchEnvelope}

theorem decodeMetric_writeMetric {m : Metric} (h : writeMetric cfg order env = .ok m)
    (cfg' : Option AdapterConfig) (resourceLabels : List KeyValue) :
    decodeMetric cfg' resourceLabels m = [delivered cfg order resourceLabels env] := by
  obtain ⟨points, hpoints, hm⟩ := bind_eq_ok.mp h
  obtain rfl := pure_eq_ok.mp hm
  unfold writePoints at hpoints
  by_cases hsum : effectiveAggKind env = .sum
  · rw [if_pos hsum] at hpoints
    obtain rfl := Except.ok.inj hpoints
    simp [decodeMetric, delivered, sketchObservation, sketchPoint, pointLabels, returnedEncoding, hsum]
  · rw [if_neg hsum] at hpoints
    cases hsketch : env.sketchType <;> rw [hsketch] at hpoints <;>
      first
      | cases hpoints
        done
      | obtain rfl := Except.ok.inj hpoints
        simp [decodeMetric, delivered, sketchObservation, sketchPoint, pointLabels, returnedEncoding, hsum, hsketch]

theorem supported_of_writeMetric {m : Metric} (h : writeMetric cfg order env = .ok m)
    (hsum : effectiveAggKind env ≠ .sum) : env.sketchType ≠ .unspecified := by
  obtain ⟨points, hpoints, -⟩ := bind_eq_ok.mp h
  intro hsketch
  rw [writePoints, if_neg hsum, hsketch] at hpoints
  cases hpoints

theorem timestampMs_timestampOf {ms : Nat} (h : ms * 1000000 < 2 ^ 64) : timestampMs (timestampOf ms) = ms := by
  rw [timestampOf, Nat.mod_eq_of_lt h, timestampMs, Nat.mul_div_cancel _ (by decide)]

theorem metricNameFor_of_kept (h : NameKept cfg env) : metricNameFor env cfg = env.metricName := by
  unfold NameKept at h
  unfold metricNameFor
  cases cfg with
  | none => simp_all
  | some c =>
    by_cases hname : c.metricName = []
    · simp_all
    · simp_all

theorem length_metricNameFor (env : SketchEnvelope) (hname : ∀ c ∈ cfg, c.metricName = []) :
    env.metricName.length ≤ (metricNameFor env cfg).length ∧
      ((metricNameFor env cfg).length = env.metricName.length → NameKept cfg env) := by
  have hplaceholder : 0 < (str "asap.agg_").length := by decide
  unfold metricNameFor NameKept
  cases cfg with
  | none =>
    by_cases hempty : env.metricName = []
    · simp only [hempty, if_true, length_append, length_nil]
      omega
    · simp [hempty]
  | some c =>
    by_cases hempty : env.metricName = []
    · simp only [hempty, hname c rfl, if_true, ne_eq, not_true_eq_false, if_false, length_append, length_nil]
      omega
    · simp [hempty, hname c rfl]

theorem Carries.of_delivered {env env' : SketchEnvelope} {resourceLabels : List KeyValue}
    (h : Carries env' (delivered cfg order resourceLabels env)) :
    metricNameFor env cfg = env'.metricName ∧ resourceLabels = env'.resourceLabels ∧
      returnedEncoding env = env'.encoding ∧ WithFrame env' (pointLabels order env) := by
  obtain ⟨hmetric, hresource, e, he, -, -, hlabels, -, -, -, -, hencoding, -⟩ := h
  obtain rfl := Option.some.inj he
  exact ⟨hmetric, hresource, hencoding, hlabels⟩

theorem carries_delivered (hregular : Regular env)
    (hsupported : effectiveAggKind env ≠ .sum → env.sketchType ≠ .unspecified) (hname : NameKept cfg env)
    (hencoding : DecodableEncoding env) (hlabels : LabelsKept env) :
    Carries env (delivered cfg order env.resourceLabels env) := by
  have hreturned : returnedEncoding env = env.encoding := by
    rcases (returnedEncoding_cases hregular.encoding).2 with ⟨-, heq⟩ | ⟨hnot, -⟩
    · exact heq
    · exact absurd hencoding hnot
  refine ⟨metricNameFor_of_kept hname, rfl, _, rfl, rfl, rfl,
    (withFrame_pointLabels_iff order env hregular.labels).mpr hlabels,
    timestampMs_timestampOf hregular.windowStart, timestampMs_timestampOf hregular.windowEnd, ?_, ?_, hreturned, rfl⟩
  · by_cases hsum : effectiveAggKind env = .sum
    · simp only [hsum, if_true]
      rfl
    · have hsketch : effectiveAggKind env = .sketch := by
        have := hsupported hsum
        unfold effectiveAggKind at hsum ⊢
        cases hkind : env.aggKind <;> simp_all
      rw [hsketch]
      exact if_pos ⟨rfl, hsupported hsum⟩
  · intro hsum
    simp [hsum]

end

/-! ### The groups -/

def groupKey (env : SketchEnvelope) : Bytes := canonicalLabelsKey env.resourceLabels

def groupOf (envs : List SketchEnvelope) (key : Bytes) : List SketchEnvelope :=
  envs.filter fun env => groupKey env = key

structure Groups.Of (groups : Groups) (envs : List SketchEnvelope) : Prop where
  nodup : groups.keys.Nodup
  mem : ∀ key, key ∈ groups.keys ↔ ∃ env ∈ envs, groupKey env = key
  isNone : ∀ key, (groups.envelopes.lookup key).isNone = true ↔ key ∉ groups.keys
  get : ∀ key, groups.envelopes.get [] key = groupOf envs key

variable {envs : List SketchEnvelope}

theorem Groups.Of.add {groups : Groups} (h : groups.Of envs) (env : SketchEnvelope) :
    (groups.add env).Of (envs ++ [env]) := by
  have hkeys : ∀ key, key ∈ (groups.add env).keys ↔ key ∈ groups.keys ∨ key = groupKey env := by
    intro key
    simp only [Groups.add]
    by_cases hnew : (groups.envelopes.lookup (canonicalLabelsKey env.resourceLabels)).isNone = true
    · simp [hnew, groupKey]
    · have hold : groupKey env ∈ groups.keys := by
        by_contra hnot
        exact hnew ((h.isNone _).mpr hnot)
      simp only [hnew, if_false, Bool.false_eq_true]
      exact ⟨.inl, fun hkey => hkey.elim id fun heq => heq ▸ hold⟩
  refine ⟨?_, fun key => ?_, fun key => ?_, fun key => ?_⟩
  · simp only [Groups.add]
    split
    · next hnew =>
      have hnot := (h.isNone _).mp hnew
      exact nodup_append.mpr ⟨h.nodup, nodup_singleton _, fun a ha b hb hab => hnot (by simp_all)⟩
    · exact h.nodup
  · rw [hkeys, h.mem]
    simp [or_and_right, exists_or, eq_comm]
  · rw [hkeys, not_or, ← h.isNone]
    by_cases hkey : key = groupKey env
    · subst hkey
      simp [Groups.add, groupKey]
    · simp [Groups.add, hkey, AList.lookup_insert_ne (show key ≠ canonicalLabelsKey env.resourceLabels from hkey)]
  · by_cases hkey : key = groupKey env
    · subst hkey
      rw [show (groups.add env).envelopes.get [] (groupKey env) = groups.envelopes.get [] (groupKey env) ++ [env] from
        GoMap.get_insert_self _ _ _ _, h.get]
      simp [groupOf]
    · have hne : groupKey env ≠ key := Ne.symm hkey
      simp only [Groups.add, GoMap.get_insert_of_ne (show key ≠ canonicalLabelsKey env.resourceLabels from hkey), h.get]
      simp [groupOf, hne]

theorem grouped_of (envs : List SketchEnvelope) : (grouped envs).Of envs := by
  have hfold : ∀ (rest : List SketchEnvelope) {groups : Groups} {done : List SketchEnvelope}, groups.Of done →
      (rest.foldl Groups.add groups).Of (done ++ rest) := by
    intro rest
    induction rest with
    | nil => exact fun h => by simpa using h
    | cons env rest ih => exact fun h => by simpa using ih (h.add env)
  have hempty : ({} : Groups).Of [] := ⟨nodup_nil, by simp, by simp, by simp [groupOf]⟩
  exact hfold envs hempty

def written (envs : List SketchEnvelope) : List SketchEnvelope := (grouped envs).keys.flatMap (groupOf envs)

theorem written_perm (envs : List SketchEnvelope) : (written envs).Perm envs := by
  refine (flatMap_filter_key groupKey envs (grouped_of envs).nodup).trans (Perm.of_eq ?_)
  refine filter_eq_self.mpr fun env henv => ?_
  simpa using ((grouped_of envs).mem (groupKey env)).mpr ⟨env, henv, rfl⟩

def groupLabels (envs : List SketchEnvelope) (key : Bytes) : List KeyValue :=
  ((groupOf envs key).headD {}).resourceLabels

theorem mem_groupOf {key : Bytes} :
    env ∈ groupOf envs key ↔ env ∈ envs ∧ groupKey env = key := by
  simp [groupOf]

theorem exists_groupLabels (h : env ∈ envs) :
    ∃ first ∈ envs, groupKey first = groupKey env ∧ groupLabels envs (groupKey env) = first.resourceLabels := by
  cases hgroup : groupOf envs (groupKey env) with
  | nil =>
    have hmem := mem_groupOf.mpr ⟨h, rfl⟩
    rw [hgroup] at hmem
    cases hmem
  | cons first rest =>
    obtain ⟨hfirst, hkey⟩ := mem_groupOf.mp (hgroup ▸ mem_cons_self)
    exact ⟨first, hfirst, hkey, by rw [groupLabels, hgroup, headD_cons]⟩

section
variable {cfg : Option AdapterConfig} {order : RangeOrder (Bytes × Bytes)}

theorem decode_writeGroup {group : List SketchEnvelope} {rm : ResourceMetrics} (h : writeGroup cfg order group = .ok rm)
    (hsorted : (group.headD {}).resourceLabels.Pairwise fun a b => a.key < b.key) (cfg' : Option AdapterConfig) :
    rm.scopeMetrics.flatMap (fun sm => sm.metrics.flatMap (decodeMetric cfg' (attributesToKeyValues rm.attributes))) =
        group.map (delivered cfg order (group.headD {}).resourceLabels) ∧
      ∀ env ∈ group, effectiveAggKind env ≠ .sum → env.sketchType ≠ .unspecified := by
  obtain ⟨metrics, hmetrics, hrm⟩ := bind_eq_ok.mp h
  obtain rfl := pure_eq_ok.mp hrm
  have hall := mapM_eq_ok.mp hmetrics
  constructor
  · simp only [attributesToKeyValues_keyValuesToAttributes hsorted, flatMap_cons, flatMap_nil, append_nil]
    rw [flatMap_eq_of_forall₂ hall fun _ hwrite => decodeMetric_writeMetric hwrite cfg' _, ← map_eq_flatMap]
  · intro env henv
    obtain ⟨m, -, hm⟩ := forall₂_exists_right hall env henv
    exact supported_of_writeMetric hm

theorem decode_encode {input : List (Option SketchEnvelope)} {md : List ResourceMetrics}
    (h : encode cfg order input = .ok md) (hregular : ∀ env ∈ input.reduceOption, Regular env)
    (cfg' : Option AdapterConfig) :
    decode cfg' md = (written input.reduceOption).map
        (fun env => delivered cfg order (groupLabels input.reduceOption (groupKey env)) env) ∧
      ∀ env ∈ input.reduceOption, effectiveAggKind env ≠ .sum → env.sketchType ≠ .unspecified := by
  have hall := mapM_eq_ok.mp h
  have hgroup : ∀ {key rm}, key ∈ (grouped input.reduceOption).keys →
      writeGroup cfg order ((grouped input.reduceOption).envelopes.get [] key) = .ok rm →
      rm.scopeMetrics.flatMap (fun sm => sm.metrics.flatMap (decodeMetric cfg' (attributesToKeyValues rm.attributes))) =
          (groupOf input.reduceOption key).map (delivered cfg order (groupLabels input.reduceOption key)) ∧
        ∀ env ∈ groupOf input.reduceOption key, effectiveAggKind env ≠ .sum → env.sketchType ≠ .unspecified := by
    intro key rm hkey hwrite
    obtain ⟨env, henv, rfl⟩ := ((grouped_of _).mem key).mp hkey
    obtain ⟨first, hfirst, -, hlabels⟩ := exists_groupLabels henv
    rw [(grouped_of _).get] at hwrite
    have hsorted : (groupLabels input.reduceOption (groupKey env)).Pairwise fun a b => a.key < b.key := by
      rw [hlabels]
      exact (hregular first hfirst).resourceLabels
    exact decode_writeGroup hwrite hsorted cfg'
  constructor
  · rw [decode, flatMap_eq_of_forall₂ hall fun hkey hwrite => (hgroup hkey hwrite).1, written, map_flatMap]
    refine flatMap_congr fun key _ => map_congr_left fun env henv => ?_
    rw [(mem_groupOf.mp henv).2]
  · intro env henv
    have hkey := ((grouped_of input.reduceOption).mem (groupKey env)).mpr ⟨env, henv, rfl⟩
    obtain ⟨rm, -, hwrite⟩ := forall₂_exists_right hall _ hkey
    exact (hgroup hkey hwrite).2 env (mem_groupOf.mpr ⟨henv, rfl⟩)

/-! ### Round trips -/

variable {envs : List SketchEnvelope} {out : List Observation}

section
variable (h : RoundTrip envs out)
include h

theorem RoundTrip.observation (henv : env ∈ envs) :
    ∃ obs ∈ out, Carries env obs := by
  obtain ⟨sent, hperm, hall⟩ := h
  exact forall₂_exists_right hall env (hperm.mem_iff.mpr henv)

theorem RoundTrip.envelope {obs : Observation} (hobs : obs ∈ out) :
    ∃ env ∈ envs, Carries env obs := by
  obtain ⟨sent, hperm, hall⟩ := h
  obtain ⟨env, henv, hcarries⟩ := forall₂_exists_left hall obs hobs
  exact ⟨env, hperm.mem_iff.mp henv, hcarries⟩

theorem RoundTrip.names : (out.map (·.metric)).Perm (envs.map (·.metricName)) := by
  obtain ⟨sent, hperm, hall⟩ := h
  have hnames : Forall₂ (· = ·) (sent.map (·.metricName)) (out.map (·.metric)) := by
    rw [forall₂_map_left_iff, forall₂_map_right_iff]
    exact hall.imp fun _ _ hcarries => hcarries.1.symm
  rw [forall₂_eq_eq_eq] at hnames
  rw [← hnames]
  exact hperm.map _

/-- Envelopes that come back kept their names: the configuration can only lengthen names or replace all of them. -/
theorem RoundTrip.nameKept (hout : (out.map (·.metric)).Perm (envs.map (metricNameFor · cfg)))
    (henv : env ∈ envs) : NameKept cfg env := by
  have hperm := hout.symm.trans h.names
  by_cases hname : ∀ c ∈ cfg, c.metricName = []
  · refine (length_metricNameFor env hname).2 (by_contra fun hne => ?_)
    have hlt := sum_lt_sum _ _ (fun env _ => (length_metricNameFor env hname).1)
        ⟨env, henv, lt_of_le_of_ne (length_metricNameFor env hname).1 (Ne.symm hne)⟩
    have hsum := (hperm.map length).sum_eq
    simp only [map_map, Function.comp_def] at hsum
    omega
  · push Not at hname
    obtain ⟨c, rfl, hne⟩ := hname
    have hmem := hperm.mem_iff.mpr (mem_map_of_mem henv)
    obtain ⟨env', -, hconst⟩ := mem_map.mp hmem
    simp only [metricNameFor, hne, ne_eq, not_false_eq_true, if_true] at hconst
    simp only [NameKept, hne, ne_eq, not_false_eq_true, if_true]
    exact hconst.symm

end

/-- The list of envelopes that `Encode` accepts comes back from `Decode`, one observation for each envelope, exactly
when the envelopes of one rendered resource key have the same resource labels, the configuration leaves the metric
names alone, the encodings of the two sketches of counters are the full ones, and no frame attribute replaces a
label. -/
theorem decode_encode_roundTrip_iff (cfg cfg' : Option AdapterConfig) (order : RangeOrder (Bytes × Bytes))
    (input : List (Option SketchEnvelope)) (md : List ResourceMetrics) (h : encode cfg order input = .ok md)
    (hregular : ∀ env ∈ input.reduceOption, Regular env) :
    RoundTrip input.reduceOption (decode cfg' md) ↔ Returnable cfg input.reduceOption := by
  obtain ⟨hout, hsupported⟩ := decode_encode h hregular cfg'
  rw [hout]
  constructor
  · intro htrip
    have hobservation : ∀ {a}, a ∈ input.reduceOption → ∃ c ∈ input.reduceOption,
        Carries a (delivered cfg order (groupLabels input.reduceOption (groupKey c)) c) := by
      intro a ha
      obtain ⟨obs, hobs, hcarries⟩ := htrip.observation ha
      obtain ⟨c, hc, rfl⟩ := mem_map.mp hobs
      exact ⟨c, (written_perm _).mem_iff.mp hc, hcarries⟩
    refine ⟨?_, ?_, ?_, ?_⟩
    · -- every envelope has the labels that its group was written with
      have hlabels : ∀ {a}, a ∈ input.reduceOption → a.resourceLabels = groupLabels input.reduceOption
          (groupKey a) := by
        intro a ha
        obtain ⟨c, hc, hcarries⟩ := hobservation ha
        obtain ⟨-, hresource, -⟩ := hcarries.of_delivered
        obtain ⟨first, -, hkey, hfirst⟩ := exists_groupLabels hc
        have hgroup : groupKey a = groupKey c := by
          rw [← hkey, groupKey, groupKey, ← hresource, hfirst]
        rw [hgroup, hresource]
      intro a ha b hb hkey
      rw [hlabels ha, hlabels hb, groupKey, groupKey, hkey]
    · intro env henv
      refine htrip.nameKept ?_ henv
      rw [map_map]
      exact (written_perm input.reduceOption).map (metricNameFor · cfg)
    · intro env henv
      obtain ⟨env', henv', hcarries⟩ := htrip.envelope (mem_map_of_mem ((written_perm _).mem_iff.mpr henv))
      obtain ⟨-, -, hencoding, -⟩ := hcarries.of_delivered
      rcases (returnedEncoding_cases (hregular env henv).encoding).2 with ⟨hdecodable, -⟩ | ⟨-, hlost⟩
      · exact hdecodable
      · exact absurd (hencoding.symm.trans hlost) (returnedEncoding_cases (hregular env' henv').encoding).1
    · intro env henv kv hkv value hvalue
      obtain ⟨c, -, hcarries⟩ := hobservation henv
      obtain ⟨-, -, -, hsorted, hmem⟩ := hcarries.of_delivered
      have hlabel : kv ∈ pointLabels order c := (hmem kv).mpr (.inl hkv)
      have hframe : ⟨kv.key, value⟩ ∈ pointLabels order c := (hmem ⟨kv.key, value⟩).mpr (.inr hvalue)
      have hkeys : ((pointLabels order c).map KeyValue.key).Nodup := by
        rw [Nodup, pairwise_map]
        exact hsorted.imp fun hlt => ne_of_lt hlt
      exact congrArg KeyValue.value (inj_on_of_nodup_map hkeys hframe hlabel rfl)
  · intro hreturnable
    refine ⟨written input.reduceOption, written_perm _, ?_⟩
    rw [forall₂_map_right_iff, forall₂_same]
    intro env hwritten
    have henv := (written_perm _).mem_iff.mp hwritten
    obtain ⟨first, hfirst, hkey, hlabels⟩ := exists_groupLabels henv
    rw [hlabels, hreturnable.resource first hfirst env henv hkey]
    exact carries_delivered (hregular env henv) (hsupported env henv) (hreturnable.name env henv)
      (hreturnable.encoding env henv) (hreturnable.labels env henv)

end

/-! ### Two hosts -/

def sampleEnvelope : SketchEnvelope :=
  { sketchType := .kllSketch, resourceLabels := [⟨str "host", str "a"⟩], labels := [⟨str "path", str "/"⟩],
    windowStartMs := 1000, windowEndMs := 2000, encoding := .protoFull, payload := [1], metricName := str "latency" }

def otherHost : SketchEnvelope :=
  { sampleEnvelope with resourceLabels := [⟨str "host", str "b"⟩], payload := [2] }

def sampleMetrics (host : String) (payload : Bytes) : ResourceMetrics :=
  ⟨[(str "host", str host)], [⟨str "asap_precompute",
    [⟨str "latency", .kllSketch [⟨[(str "path", str "/")], 1000000000, 2000000000, payload, .proto⟩]⟩]⟩]⟩

theorem sampleEnvelope_returns :
    encode none (.stored _) [some sampleEnvelope, none, some otherHost] = .ok [sampleMetrics "a" [1],
      sampleMetrics "b" [2]] ∧
      RoundTrip [sampleEnvelope, otherHost] (decode none [sampleMetrics "a" [1], sampleMetrics "b" [2]]) := by
  have hencode : encode none (.stored _) [some sampleEnvelope, none, some otherHost] =
      .ok [sampleMetrics "a" [1], sampleMetrics "b" [2]] := by
    rfl
  have hregular : ∀ env ∈ [some sampleEnvelope, none, some otherHost].reduceOption, Regular env := by
    intro env henv
    rcases mem_pair.mp henv with rfl | rfl <;>
      exact ⟨pairwise_singleton _ _, pairwise_singleton _ _, by decide, by decide, by decide⟩
  refine ⟨hencode, (decode_encode_roundTrip_iff none none (.stored _) _ _ hencode hregular).mpr ⟨?_, ?_, ?_, ?_⟩⟩
  · intro a ha b hb
    rcases mem_pair.mp ha with rfl | rfl <;> rcases mem_pair.mp hb with rfl | rfl <;> decide
  · intro env henv
    rcases mem_pair.mp henv with rfl | rfl
    · exact (by decide : sampleEnvelope.metricName ≠ [])
    · exact (by decide : otherHost.metricName ≠ [])
  · intro env henv
    rcases mem_pair.mp henv with rfl | rfl <;> exact fun _ _ => rfl
  · intro env henv
    rcases mem_pair.mp henv with rfl | rfl <;> exact fun kv _ value hvalue => nomatch hvalue

/-- A CountSketch in msgpack comes back without an encoding; and of two hosts whose labels are rendered alike, the
second comes back under the labels of the first. -/
theorem encoding_and_resource_get_lost :
    ((encode none (.stored _) [some { sampleEnvelope with sketchType := .countSketch, encoding := .msgpack }]).map
      fun md =>
        (decode none md).map fun obs => obs.carried.map (·.encoding)) = .ok [some .unspecified] ∧
      ((encode none (.stored _) [some { sampleEnvelope with resourceLabels := [⟨str "a", str "1;b=2"⟩] },
          some { sampleEnvelope with resourceLabels := [⟨str "a", str "1"⟩, ⟨str "b", str "2"⟩] }]).map fun md =>
        (decode none md).map (·.resourceLabels)) = .ok [[⟨str "a", str "1;b=2"⟩], [⟨str "a", str "1;b=2"⟩]] := by
  decide

end AsapCollector.Otel
