import AsapCollector.Lib.ByKey
import AsapCollector.Lib.Index
import AsapCollector.Otap.Codec

/-! `flatten` undoes `lift` as long as the rows can be numbered in 32 bits, and `decode_batch` reads the envelopes
back. -/

namespace AsapCollector.Otap

open List Option GoMap RecordBatch Column FlatRow

/-! ### Columns, batches and keys -/

variable {α : Type} {k v : Bytes}

theorem cell_map {β : Type} (l : List β) (f : β → Option α) (row : Nat) : cell (l.map f) row = l[row]?.bind f := by
  rw [cell, getElem?_map]
  cases l[row]? <;> rfl

theorem range_map_getElem? (l : List α) : ((List.range l.length).map fun i => l[i]?) = l.map some := by
  refine ext_getElem (by simp) fun i hi hi' => ?_
  have hlt : i < l.length := by simpa using hi'
  simp [hlt]

theorem filterMap_key {β κ : Type} [DecidableEq κ] (key : α → κ) (f : α → Option β) (k : κ) (l : List α) :
    ((l.filterMap fun x => (f x).map (Prod.mk (key x))).filter fun e => e.1 = k).map Prod.snd =
      (l.filter fun x => key x = k).filterMap f := by
  induction l with
  | nil => rfl
  | cons x l ih => by_cases hk : key x = k <;> cases hf : f x <;> simp [hk, hf, ih]

theorem RecordBatch.tryNew_of_uniform {fields : List (Bytes × Column)} {n : Nat} (hne : fields ≠ [])
    (h : ∀ g ∈ fields, g.2.length = n) : tryNew fields = .ok ⟨fields, n, h⟩ := by
  cases fields with
  | nil => exact absurd rfl hne
  | cons f fs =>
    obtain rfl := h f mem_cons_self
    exact dif_pos h

theorem RecordBatch.tryNew_of_ne {fields : List (Bytes × Column)} {f g : Bytes × Column} (hf : f ∈ fields)
    (hg : g ∈ fields) (hne : f.2.length ≠ g.2.length) : tryNew fields = .error .arrowError := by
  cases fields with
  | nil => rfl
  | cons e fs => exact dif_neg fun h => hne ((h f hf).trans (h g hg).symm)

variable {keys : List Bytes}

theorem mem_sortedKeys : k ∈ sortedKeys keys ↔ k ∈ keys := by
  rw [sortedKeys, (perm_insertionSort _ _).mem_iff, mem_dedup]

theorem pairwise_sortedKeys (keys : List Bytes) : (sortedKeys keys).Pairwise (· < ·) := by
  have hnodup : (sortedKeys keys).Nodup := (perm_insertionSort _ _).nodup_iff.mpr (nodup_dedup keys)
  exact ((pairwise_insertionSort (· ≤ ·) keys.dedup).and hnodup).imp fun h => lt_of_le_of_ne h.1 h.2

variable {kvs : List KeyValue}

theorem lookupLabel_eq_some (h : kvs.Pairwise fun a b => a.key < b.key) :
    lookupLabel kvs k = some v ↔ ⟨k, v⟩ ∈ kvs := by
  have hnodup : (kvs.map KeyValue.key).Nodup := pairwise_map.mpr (h.imp ne_of_lt)
  simp only [lookupLabel, map_eq_some_iff, find?_eq_some_of_nodup hnodup]
  constructor
  · rintro ⟨kv, ⟨hkv, rfl⟩, rfl⟩
    exact hkv
  · exact fun hkv => ⟨_, ⟨hkv, rfl⟩, rfl⟩

theorem filterMap_lookupLabel (h : kvs.Pairwise fun a b => a.key < b.key)
    (hkeys : keys.Pairwise (· < ·)) (hall : ∀ kv ∈ kvs, kv.key ∈ keys) :
    (keys.filterMap fun k => (lookupLabel kvs k).map (KeyValue.mk k)) = kvs := by
  refine eq_of_pairwise_key (Pairwise.filterMap _ ?_ hkeys) h fun kv => ?_
  · rintro k k' hlt a ha b hb
    obtain ⟨v, -, rfl⟩ := map_eq_some_iff.mp ha
    obtain ⟨v', -, rfl⟩ := map_eq_some_iff.mp hb
    exact hlt
  · rw [mem_filterMap]
    constructor
    · rintro ⟨k, -, hk⟩
      obtain ⟨v, hv, rfl⟩ := map_eq_some_iff.mp hk
      exact (lookupLabel_eq_some h).mp hv
    · intro hkv
      exact ⟨kv.key, hall kv hkv, by rw [(lookupLabel_eq_some h).mpr hkv]; rfl⟩

theorem flatMap_ite_eq {f : Nat → List α} {i n : Nat} (hi : i < n) :
    ((List.range n).flatMap fun row => if row = i then f row else []) = f i := by
  induction n with
  | zero => exact absurd hi (Nat.not_lt_zero i)
  | succ n ih =>
    rw [range_succ, flatMap_append, flatMap_singleton]
    rcases Nat.lt_succ_iff_lt_or_eq.mp hi with hlt | rfl
    · rw [ih hlt, if_neg (Nat.ne_of_gt hlt), append_nil]
    · rw [if_pos rfl, flatMap_eq_nil_iff.mpr, nil_append]
      exact fun row hrow => if_neg (Nat.ne_of_lt (List.mem_range.mp hrow))

/-! ### The tables -/

variable (envs : List Envelope)

def scalarFields : List (Bytes × Column) :=
  [(columnTimeUnixNano, .uint64 (envs.map fun env => some (saturatingMul env.windowEndMs 1000000))),
    (columnMetric, .utf8 (envs.map fun env => some env.metricName)),
      (columnValue, .float64 (envs.map fun _ => some ⟨0⟩))]

def carrierFields : List (Bytes × Column) :=
  [(attrEnvelope, .binary (envs.map fun env => some env.payload)),
    (attrSketchType, .utf8 (envs.map fun env => some (sketchTypeName env.sketchType))),
    (attrAggID, .uint64 (envs.map fun env => some env.aggID)),
    (attrSchemaVersion, .uint32 (envs.map fun env => some env.schemaVersion)),
    (attrWindowStartMs, .uint64 (envs.map fun env => some env.windowStartMs)),
    (attrWindowEndMs, .uint64 (envs.map fun env => some env.windowEndMs)),
    (attrEncoding, .utf8 (envs.map fun env => some env.encoding.name))]

def labelFields : List (Bytes × Column) :=
  (collectLabelKeys envs).map fun key => (key, .utf8 (envs.map fun env => lookupLabel env.labels key))

theorem uniform_encoded :
    ∀ f ∈ scalarFields envs ++ (carrierFields envs ++ labelFields envs), f.2.length = envs.length := by
  simp [scalarFields, carrierFields, labelFields, Column.length]

def encoded : RecordBatch :=
  ⟨scalarFields envs ++ (carrierFields envs ++ labelFields envs), envs.length, uniform_encoded envs⟩

@[simp] theorem fields_encoded :
    (encoded envs).fields = scalarFields envs ++ (carrierFields envs ++ labelFields envs) := rfl

theorem encodeBatch_eq : encodeBatch envs = .ok (encoded envs) :=
  tryNew_of_uniform (cons_ne_nil _ _) (uniform_encoded envs)

def carriers : Carriers where
  envelope := some (envs.map fun env => some env.payload)
  sketchType := some (envs.map fun env => some (sketchTypeName env.sketchType))
  aggID := some (envs.map fun env => some env.aggID)
  schemaVersion := some (envs.map fun env => some env.schemaVersion)
  windowStart := some (envs.map fun env => some env.windowStartMs)
  windowEnd := some (envs.map fun env => some env.windowEndMs)
  encoding := some (envs.map fun env => some env.encoding.name)
  labels := (collectLabelKeys envs).map fun key => (key, envs.map fun env => lookupLabel env.labels key)

def allRows : List AttrRow :=
  (List.range envs.length).flatMap fun row => liftRow (carriers envs) row (UInt32.ofNat row)

def metricFields (n : Nat) : List (Bytes × Column) :=
  scalarFields envs ++ [(attrBatchParentID, .uint32 ((List.range n).map fun row => some (UInt32.ofNat row)))]

theorem uniform_metrics : ∀ f ∈ metricFields envs envs.length, f.2.length = envs.length := by
  simp [metricFields, scalarFields, Column.length]

def metricBatch : RecordBatch := ⟨metricFields envs envs.length, envs.length, uniform_metrics envs⟩

def resolved : ResolvedColumns where
  timestamp := some (.uint64Nanos (envs.map fun env => some (saturatingMul env.windowEndMs 1000000)))
  metric := some (envs.map fun env => some env.metricName)
  value := some (envs.map fun _ => some ⟨0⟩)
  envelope := some (envs.map fun env => some env.payload)
  sketchType := some (envs.map fun env => some (sketchTypeName env.sketchType))
  aggID := some (envs.map fun env => some env.aggID)
  schemaVersion := some (envs.map fun env => some env.schemaVersion)
  windowStartMs := some (envs.map fun env => some env.windowStartMs)
  windowEndMs := some (envs.map fun env => some env.windowEndMs)
  encoding := some (envs.map fun env => some env.encoding.name)
  labelColumns := (collectLabelKeys envs).map fun key => (key, envs.map fun env => lookupLabel env.labels key)

variable (rows : List AttrRow)

def attrFields : List (Bytes × Column) :=
  [(attrBatchParentID, .uint32 (rows.map fun r => some r.parentID)),
    (attrBatchKey, .utf8 (rows.map fun r => some r.key)),
    (attrBatchBytes, .binary (rows.map (·.bytes))), (attrBatchStr, .utf8 (rows.map (·.str))),
    (attrBatchInt, .uint64 (rows.map (·.int)))]

theorem uniform_attrs : ∀ f ∈ attrFields rows, f.2.length = rows.length := by
  simp [attrFields, Column.length]

def attrBatch : RecordBatch := ⟨attrFields rows, rows.length, uniform_attrs rows⟩

theorem tryNew_attrFields : tryNew (attrFields rows) = .ok (attrBatch rows) :=
  tryNew_of_uniform (cons_ne_nil _ _) (uniform_attrs rows)

def entries (env : Envelope) : List (Bytes × AttrValue) :=
  [(attrEnvelope, .bytes env.payload), (attrSketchType, .str (sketchTypeName env.sketchType)),
    (attrAggID, .int env.aggID),
    (attrSchemaVersion, .int env.schemaVersion.toUInt64), (attrWindowStartMs, .int env.windowStartMs),
    (attrWindowEndMs, .int env.windowEndMs), (attrEncoding, .str env.encoding.name)] ++
  env.labels.map fun kv => (kv.key, .str kv.value)

def attrRow (pid : UInt32) : Bytes × AttrValue → AttrRow
  | (key, .bytes b) => { parentID := pid, key, bytes := some b }
  | (key, .str s) => { parentID := pid, key, str := some s }
  | (key, .int v) => { parentID := pid, key, int := some v }

def rowEntry (r : AttrRow) : Option (Bytes × AttrValue) :=
  (r.bytes.map AttrValue.bytes <|> r.str.map AttrValue.str <|> r.int.map AttrValue.int).map (Prod.mk r.key)

def flatRow (env : Envelope) : FlatRow where
  envelope := some env.payload
  sketchType := some (sketchTypeName env.sketchType)
  aggID := some env.aggID
  schemaVersion := some env.schemaVersion
  windowStart := some env.windowStartMs
  windowEnd := some env.windowEndMs
  encoding := some env.encoding.name
  labels := env.labels.foldl (fun m kv => m.insert kv.key kv.value) ∅

variable {envs} {env : Envelope} {row : Nat}

theorem mem_collectLabelKeys : k ∈ collectLabelKeys envs ↔ ∃ env ∈ envs, k ∈ env.labels.map KeyValue.key := by
  rw [collectLabelKeys, mem_sortedKeys, mem_flatMap]

theorem key_mem (henv : env ∈ envs) {kv : KeyValue} (hkv : kv ∈ env.labels) : kv.key ∈ collectLabelKeys envs :=
  mem_collectLabelKeys.mpr ⟨env, henv, List.mem_map_of_mem hkv⟩

theorem attrOf_map {f : Envelope → Option α} (h : envs[row]? = some env) (make : α → AttrRow) :
    attrOf (some (envs.map f)) row make = ((f env).map make).toList := by
  simp [attrOf, cell_map, h]

theorem valueAt_map {f : Envelope → Option α} (h : envs[row]? = some env) :
    valueAt (some (envs.map f)) row = f env := by
  rw [valueAt, bind_some, cell_map, h, bind_some]

theorem filterMap_rowEntry (pid : UInt32) (es : List (Bytes × AttrValue)) :
    (es.map (attrRow pid)).filterMap rowEntry = es := by
  rw [filterMap_map]
  refine (filterMap_congr fun e _ => ?_).trans filterMap_some
  obtain ⟨key, b | s | v⟩ := e <;> rfl

theorem buildAttrIndex_eq : ∃ index, buildAttrIndex (attrBatch rows) = .ok index ∧
    ∀ pid, index.get [] pid = (rows.filter fun r => r.parentID = pid).filterMap rowEntry := by
  have hrows : ((List.range rows.length).filterMap fun row => do
      let pid ← cell (rows.map fun r => some r.parentID) row
      let entry ← attrEntry (rows.map fun r => some r.key) (some (rows.map (·.bytes))) (some (rows.map (·.str)))
        (some (rows.map (·.int))) row
      return (pid, entry)) = rows.filterMap fun r => (rowEntry r).map (Prod.mk r.parentID) := by
    have hmap := congrArg (filterMap fun r => r.bind fun r => (rowEntry r).map (Prod.mk r.parentID))
      (range_map_getElem? rows)
    rw [filterMap_map, filterMap_map] at hmap
    refine (filterMap_congr fun row _ => ?_).trans hmap
    simp only [attrEntry, bind_some, cell_map, Function.comp_apply]
    cases rows[row]? with
    | none => rfl
    | some r =>
      obtain ⟨_, _, bytes, str, int⟩ := r
      cases bytes <;> cases str <;> cases int <;> rfl
  refine ⟨_, rfl, fun pid => ?_⟩
  have hindex := get_foldl_append Prod.fst Prod.snd
    (rows.filterMap fun r => (rowEntry r).map (Prod.mk r.parentID)) pid ∅
  rw [get_empty, nil_append, filterMap_key AttrRow.parentID, ← hrows] at hindex
  exact hindex

theorem parentID_of_mem {pid : UInt32} {es : List (Bytes × AttrValue)} {r : AttrRow} (h : r ∈ es.map (attrRow pid)) :
    r.parentID = pid := by
  obtain ⟨⟨key, b | s | v⟩, -, rfl⟩ := List.mem_map.mp h <;> rfl

theorem mem_entries_str (h : (k, AttrValue.str v) ∈ entries env) (hk : isReservedColumn k = false) :
    k ∈ env.labels.map KeyValue.key := by
  rcases mem_append.mp h with hfixed | hlabel
  · simp only [mem_cons, Prod.mk.injEq, reduceCtorEq, and_false, false_or, not_mem_nil, or_false] at hfixed
    rcases hfixed with ⟨rfl, -⟩ | ⟨rfl, -⟩ <;> exact absurd hk (by decide)
  · obtain ⟨kv, hkv, heq⟩ := List.mem_map.mp hlabel
    exact List.mem_map.mpr ⟨kv, hkv, congrArg Prod.fst heq⟩

theorem add_label {r : FlatRow} (hk : k ∈ keys) (hres : isReservedColumn k = false) :
    r.add keys (k, .str v) = { r with labels := r.labels.insert k v } := by
  have hsketch : k ≠ attrSketchType := fun h => absurd (h ▸ hres) (by decide)
  have hencoding : k ≠ attrEncoding := fun h => absurd (h ▸ hres) (by decide)
  simp [add, hsketch, hencoding, hres, hk]

theorem foldl_add_labels (hkeys : ∀ kv ∈ kvs, kv.key ∈ keys) (hres : ∀ kv ∈ kvs, isReservedColumn kv.key = false) :
    ∀ r : FlatRow,
      (kvs.map fun kv => (kv.key, AttrValue.str kv.value)).foldl (add keys) r =
        { r with labels := kvs.foldl (fun m kv => m.insert kv.key kv.value) r.labels } := by
  induction kvs with
  | nil => exact fun _ => rfl
  | cons kv kvs ih =>
    intro r
    rw [map_cons, foldl_cons, add_label (hkeys kv mem_cons_self) (hres kv mem_cons_self),
      ih (fun e he => hkeys e (mem_cons_of_mem _ he)) (fun e he => hres e (mem_cons_of_mem _ he))]
    rfl

theorem lookup_flatRow (h : Portable env) (k : Bytes) : (flatRow env).labels.lookup k = lookupLabel env.labels k := by
  have hsorted := h.sorted
  unfold flatRow
  generalize env.labels = kvs at hsorted
  induction kvs using reverseRecOn with
  | nil => rfl
  | append_singleton kvs kv ih =>
    obtain ⟨hinit, -, hlast⟩ := pairwise_append.mp hsorted
    rw [foldl_append, foldl_cons, foldl_nil, lookupLabel, find?_append]
    by_cases hk : k = kv.key
    · subst hk
      have hnone : kvs.find? (fun e => e.key = kv.key) = none := find?_eq_none.mpr fun e he heq =>
        absurd (of_decide_eq_true heq) (ne_of_lt (hlast e he kv mem_cons_self))
      rw [AList.lookup_insert, hnone]
      simp
    · rw [AList.lookup_insert_ne hk, ih hinit, lookupLabel]
      simp [Ne.symm hk]

theorem add_labelColumn {r : ResolvedColumns} {cells : List (Option Bytes)} (h : isReservedColumn k = false) :
    r.add (k, .utf8 cells) = .ok { r with labelColumns := r.labelColumns ++ [(k, cells)] } := by
  have hnames := h
  simp only [isReservedColumn, decide_eq_false_iff_not, mem_cons, not_mem_nil, or_false, not_or] at hnames
  simp [ResolvedColumns.add, hnames, h, dataType, downcastNamed, downcast, asUtf8]

theorem foldlM_add_labels {cells : Bytes → List (Option Bytes)} (h : ∀ k ∈ keys, isReservedColumn k = false) :
    ∀ r : ResolvedColumns,
      (keys.map fun k => (k, utf8 (cells k))).foldlM ResolvedColumns.add r =
        .ok { r with labelColumns := r.labelColumns ++ keys.map fun k => (k, cells k) } := by
  induction keys with
  | nil => simp [pure, Except.pure]
  | cons k keys ih =>
    intro r
    rw [map_cons, foldlM_cons, add_labelColumn (h k mem_cons_self)]
    refine (ih (fun k' hk' => h k' (mem_cons_of_mem _ hk')) _).trans ?_
    simp

@[simp] theorem parseSketchType_name (row : Nat) (t : SketchType) : parseSketchType row (sketchTypeName t) = .ok t := by
  cases t <;> rfl

@[simp] theorem parseEncoding_name (row : Nat) (e : Encoding) : parseEncoding row e.name = .ok e := by
  cases e <;> rfl

/-! ### lift -/

section

variable (hp : ∀ env ∈ envs, Portable env)
include hp

theorem unreserved_of_mem (hk : k ∈ collectLabelKeys envs) : isReservedColumn k = false := by
  obtain ⟨env, henv, hmem⟩ := mem_collectLabelKeys.mp hk
  obtain ⟨kv, hkv, rfl⟩ := List.mem_map.mp hmem
  exact (hp env henv).unreserved kv hkv

theorem labels_eq (henv : env ∈ envs) :
    ((collectLabelKeys envs).filterMap fun k => (lookupLabel env.labels k).map (KeyValue.mk k)) = env.labels :=
  filterMap_lookupLabel (hp env henv).sorted (pairwise_sortedKeys _) fun _ => key_mem henv

theorem labelColumns_encoded :
    labelColumns (encoded envs) =
      (collectLabelKeys envs).map fun key => (key, envs.map fun env => lookupLabel env.labels key) := by
  have hfixed : (scalarFields envs ++ carrierFields envs).filterMap (fun f =>
      if isReservedColumn f.1 then none else f.2.asUtf8.map fun cells => (f.1, cells)) = [] := rfl
  rw [labelColumns, fields_encoded, ← append_assoc, filterMap_append, hfixed, nil_append, labelFields,
    filterMap_map, ← filterMap_eq_map]
  refine filterMap_congr fun k hk => ?_
  simp [unreserved_of_mem hp hk, asUtf8]

theorem liftRow_carriers (h : envs[row]? = some env)
    (pid : UInt32) : liftRow (carriers envs) row pid = (entries env).map (attrRow pid) := by
  have hrows : (collectLabelKeys envs).flatMap (fun key =>
      ((lookupLabel env.labels key).map fun s => ({ parentID := pid, key := key, str := some s } : AttrRow)).toList) =
        (env.labels.map fun kv => (kv.key, AttrValue.str kv.value)).map (attrRow pid) := by
    conv_rhs => rw [← labels_eq hp (mem_of_getElem? h), map_filterMap, map_filterMap]
    rw [← filterMap_eq_flatMap_toList]
    simp only [Option.map_map, Function.comp_def, attrRow]
  simp only [liftRow, carriers, attrOf_map h, map_some, toList_some, entries, map_cons, attrRow,
    flatMap_map, cons_append, nil_append, hrows]

theorem kept_encoded :
    ((encoded envs).fields.filter fun f => !isStrategyBAttr f.1 && (isReservedColumn f.1 || f.2.asUtf8.isNone)) =
      scalarFields envs := by
  have hscalar : (scalarFields envs).filter (fun f => !isStrategyBAttr f.1 &&
      (isReservedColumn f.1 || f.2.asUtf8.isNone)) = scalarFields envs := rfl
  have hcarrier : (carrierFields envs).filter
      (fun f => !isStrategyBAttr f.1 && (isReservedColumn f.1 || f.2.asUtf8.isNone)) = [] := rfl
  have hlabel : (labelFields envs).filter
      (fun f => !isStrategyBAttr f.1 && (isReservedColumn f.1 || f.2.asUtf8.isNone)) = [] := by
    rw [filter_eq_nil_iff]
    intro f hf
    obtain ⟨k, hk, rfl⟩ := List.mem_map.mp hf
    simp [unreserved_of_mem hp hk, asUtf8]
  rw [fields_encoded, filter_append, filter_append, hscalar, hcarrier, hlabel, append_nil, append_nil]

theorem lift_eq :
    lift (encoded envs) = (do
      let metrics ← tryNew (metricFields envs (envs.length % 2 ^ 32))
      return ⟨metrics, attrBatch ((List.range (envs.length % 2 ^ 32)).flatMap fun row =>
        liftRow (carriers envs) row (UInt32.ofNat row))⟩) := by
  have hcarriers : lift (encoded envs) = (do
      let attributes ← tryNew (attrFields ((List.range (envs.length % 2 ^ 32)).flatMap fun row =>
        liftRow { carriers envs with labels := labelColumns (encoded envs) } row (UInt32.ofNat row)))
      let metrics ← tryNew (((encoded envs).fields.filter fun f =>
        !isStrategyBAttr f.1 && (isReservedColumn f.1 || f.2.asUtf8.isNone)) ++
        [(attrBatchParentID, .uint32 ((List.range (envs.length % 2 ^ 32)).map fun row => some (UInt32.ofNat row)))])
      return ⟨metrics, attributes⟩) := rfl
  rw [hcarriers, kept_encoded hp, labelColumns_encoded hp, tryNew_attrFields]
  rfl

theorem lift_of_le (hn : 2 ^ 32 ≤ envs.length) :
    lift (encoded envs) = .error .arrowError := by
  have hne : envs.length ≠ envs.length % 2 ^ 32 := fun heq => by
    omega
  have hfail : tryNew (metricFields envs (envs.length % 2 ^ 32)) = .error .arrowError :=
    tryNew_of_ne mem_cons_self (mem_append_right _ (mem_singleton_self _))
      (by simpa [Column.length] using hne)
  rw [lift_eq hp, hfail]
  rfl

theorem lift_of_lt (hn : envs.length < 2 ^ 32) :
    lift (encoded envs) = .ok ⟨metricBatch envs, attrBatch (allRows envs)⟩ := by
  have hmetrics : tryNew (metricFields envs envs.length) = .ok (metricBatch envs) :=
    tryNew_of_uniform (cons_ne_nil _ _) (uniform_metrics envs)
  rw [lift_eq hp, Nat.mod_eq_of_lt hn, hmetrics]
  rfl

/-! ### flatten -/

theorem filter_allRows (hn : envs.length < 2 ^ 32) {i : Nat} (h : envs[i]? = some env) :
    ((allRows envs).filter fun r => r.parentID = UInt32.ofNat i) = (entries env).map (attrRow (UInt32.ofNat i)) := by
  have hi : i < envs.length := (List.getElem?_eq_some_iff.mp h).1
  have hrow : ∀ row ∈ List.range envs.length,
      ((liftRow (carriers envs) row (UInt32.ofNat row)).filter fun r => r.parentID = UInt32.ofNat i) =
        if row = i then liftRow (carriers envs) row (UInt32.ofNat row) else [] := by
    intro row hrow
    have hlt := List.mem_range.mp hrow
    rw [liftRow_carriers hp (getElem?_eq_getElem hlt)]
    split
    · next heq =>
      subst heq
      exact filter_eq_self.mpr fun r hr => decide_eq_true (parentID_of_mem hr)
    · next hne =>
      refine filter_eq_nil_iff.mpr fun r hr heq => hne ?_
      have hids := congrArg UInt32.toNat ((parentID_of_mem hr).symm.trans (of_decide_eq_true heq))
      rwa [UInt32.toNat_ofNat_of_lt' (hlt.trans hn), UInt32.toNat_ofNat_of_lt' (hi.trans hn)] at hids
  rw [allRows, filter_flatMap, ← liftRow_carriers hp h]
  exact (flatMap_congr hrow).trans (flatMap_ite_eq hi)

theorem mem_allRows {r : AttrRow} (h : r ∈ allRows envs) :
    ∃ env ∈ envs, r ∈ (entries env).map (attrRow r.parentID) := by
  obtain ⟨row, hrow, hr⟩ := mem_flatMap.mp h
  have hlt := List.mem_range.mp hrow
  rw [liftRow_carriers hp (getElem?_eq_getElem hlt)] at hr
  exact ⟨_, getElem_mem hlt, (parentID_of_mem hr).symm ▸ hr⟩

theorem flatLabelKeys_eq (hn : envs.length < 2 ^ 32)
    {index : GoMap UInt32 (List (Bytes × AttrValue))}
    (hindex : ∀ pid, index.get [] pid = ((allRows envs).filter fun r => r.parentID = pid).filterMap rowEntry) :
    flatLabelKeys index = collectLabelKeys envs := by
  refine eq_of_pairwise_key (pairwise_sortedKeys _) (pairwise_sortedKeys _) fun k => ?_
  rw [mem_collectLabelKeys, flatLabelKeys, mem_sortedKeys, mem_flatMap]
  constructor
  · rintro ⟨⟨pid, es⟩, hes, hk⟩
    obtain ⟨⟨k', value⟩, he, hkey⟩ := mem_filterMap.mp hk
    rw [← get_of_lookup (mem_pairs.mp hes), hindex] at he
    obtain ⟨r, hr, hentry⟩ := mem_filterMap.mp he
    obtain ⟨env, henv, hmem⟩ := mem_allRows hp (mem_filter.mp hr).1
    have hin : (k', value) ∈ entries env := by
      rw [← filterMap_rowEntry r.parentID (entries env)]
      exact mem_filterMap.mpr ⟨r, hmem, hentry⟩
    cases value with
    | bytes | int => cases hkey
    | str v =>
      cases hres : isReservedColumn k' with
      | true => simp [hres] at hkey
      | false =>
        obtain rfl : k' = k := by simpa [hres] using hkey
        exact ⟨env, henv, mem_entries_str hin hres⟩
  · rintro ⟨env, henv, hk⟩
    obtain ⟨kv, hkv, rfl⟩ := List.mem_map.mp hk
    obtain ⟨i, hi⟩ := mem_iff_getElem?.mp henv
    have hget : index.get [] (UInt32.ofNat i) = entries env := by
      rw [hindex, filter_allRows hp hn hi, filterMap_rowEntry]
    cases hlook : index.lookup (UInt32.ofNat i) with
    | none =>
      rw [get_of_lookup_none hlook] at hget
      cases hget
    | some es =>
      rw [get_of_lookup hlook] at hget
      subst hget
      refine ⟨_, mem_pairs.mpr hlook, mem_filterMap.mpr ⟨(kv.key, .str kv.value), ?_, ?_⟩⟩
      · exact mem_append_right _ (List.mem_map_of_mem hkv)
      · simp [(hp env henv).unreserved kv hkv]

theorem foldl_add_entries (henv : env ∈ envs) :
    (entries env).foldl (add (collectLabelKeys envs)) {} = flatRow env := by
  have hfixed : (((entries env).take 7).foldl (add (collectLabelKeys envs)) {}) =
      { flatRow env with schemaVersion := some env.schemaVersion.toUInt64.toUInt32, labels := ∅ } := rfl
  have hsplit : entries env = (entries env).take 7 ++ env.labels.map fun kv => (kv.key, .str kv.value) := rfl
  rw [hsplit, foldl_append, hfixed, foldl_add_labels (fun _ => key_mem henv) (hp env henv).unreserved,
    UInt32.toUInt32_toUInt64]
  rfl

theorem flatFields_flatRow :
    flatFields (collectLabelKeys envs) (envs.map flatRow) = carrierFields envs ++ labelFields envs := by
  have hlabels : ∀ key, ((envs.map flatRow).map fun r => r.labels.lookup key) = envs.map fun env =>
      lookupLabel env.labels key := by
    intro key
    rw [List.map_map]
    exact map_congr_left fun env henv => lookup_flatRow (hp env henv) key
  simp only [flatFields, hlabels, List.map_map]
  rfl

theorem flatten_lifted (hn : envs.length < 2 ^ 32) :
    flatten ⟨metricBatch envs, attrBatch (allRows envs)⟩ = .ok (encoded envs) := by
  obtain ⟨index, hbuild, hindex⟩ := buildAttrIndex_eq (allRows envs)
  have hrows : ((List.range envs.length).map fun row => flattenRow index (collectLabelKeys envs)
      (cell ((List.range envs.length).map fun row => some (UInt32.ofNat row)) row)) = envs.map flatRow := by
    have hmap := congrArg (List.map fun env : Option Envelope => (env.map flatRow).getD {}) (range_map_getElem? envs)
    rw [List.map_map, List.map_map] at hmap
    refine (map_congr_left fun row hrow => ?_).trans hmap
    have hlt := List.mem_range.mp hrow
    have hget := getElem?_eq_getElem hlt
    simp only [cell_map, getElem?_range hlt, bind_some, flattenRow, hindex, filter_allRows hp hn hget,
      filterMap_rowEntry, foldl_add_entries hp (getElem_mem hlt), Function.comp_apply, hget, map_some,
      getD_some]
  have hflatten : flatten ⟨metricBatch envs, attrBatch (allRows envs)⟩ = (do
      let index ← buildAttrIndex (attrBatch (allRows envs))
      tryNew (scalarFields envs ++ flatFields (flatLabelKeys index) ((List.range envs.length).map fun row =>
        flattenRow index (flatLabelKeys index)
          (cell ((List.range envs.length).map fun row => some (UInt32.ofNat row)) row)))) := rfl
  simp only [hflatten, hbuild, bind, Except.bind]
  rw [flatLabelKeys_eq hp hn hindex, hrows, flatFields_flatRow hp]
  exact encodeBatch_eq envs

/-! ### decode_batch -/

theorem resolve_encoded : resolve (encoded envs) = .ok (resolved envs) := by
  exact foldlM_add_labels (fun k hk => unreserved_of_mem hp hk) _

theorem labelsForRow_resolved (h : envs[row]? = some env) :
    (resolved envs).labelsForRow row = env.labels := by
  simp only [ResolvedColumns.labelsForRow, resolved, filterMap_map, Function.comp_def, cell_map, h, bind_some]
  exact labels_eq hp (mem_of_getElem? h)

theorem decodeRow_resolved (h : envs[row]? = some env) :
    ∃ o, decodeRow (resolved envs) row = .ok o ∧ o.envelope = some env := by
  have hport := hp env (mem_of_getElem? h)
  have hbuild : buildEnvelope (resolved envs) row env.metricName env.labels env.payload = .ok env := by
    simp only [buildEnvelope, resolved, valueAt_map h, parseSketchType_name, parseEncoding_name, getD_some]
    obtain ⟨hres, hcount, htemp, -, -⟩ := hport
    cases env
    subst hres hcount htemp
    rfl
  have hmetric : valueAt (resolved envs).metric row = some env.metricName := valueAt_map h
  have hpayload : valueAt (resolved envs).envelope row = some env.payload := valueAt_map h
  refine ⟨⟨((resolved envs).timestamp.map (TimestampColumn.timestampMsAt row)).getD 0, env.metricName, [], env.labels,
    .envelope env⟩, ?_, rfl⟩
  simp only [decodeRow, hmetric, hpayload, labelsForRow_resolved hp h, getD_some, hbuild]
  rfl

theorem decodeBatch_encoded :
    ∃ obs, decodeBatch (encoded envs) = .ok obs ∧ obs.map Observation.envelope = envs.map some := by
  have hrows : ∀ rows : List Nat, (∀ row ∈ rows, row < envs.length) →
    ∃ obs, rows.mapM (decodeRow (resolved envs)) = .ok obs ∧
      obs.map Observation.envelope = rows.map fun row => envs[row]? := by
    intro rows
    induction rows with
    | nil => exact fun _ => ⟨[], rfl, rfl⟩
    | cons row rows ih =>
      intro hlt
      have hget := getElem?_eq_getElem (hlt row mem_cons_self)
      obtain ⟨o, ho, henv⟩ := decodeRow_resolved hp hget
      obtain ⟨obs, hobs, hmap⟩ := ih fun i hi => hlt i (mem_cons_of_mem _ hi)
      refine ⟨o :: obs, mapM_eq_ok.mpr (.cons ho (mapM_eq_ok.mp hobs)), ?_⟩
      rw [map_cons, map_cons, henv, hmap, hget]
  obtain ⟨obs, hobs, hmap⟩ := hrows (List.range envs.length) fun row hrow => List.mem_range.mp hrow
  by_cases hempty : envs.length = 0
  · obtain rfl := length_eq_zero_iff.mp hempty
    exact ⟨[], rfl, rfl⟩
  · refine ⟨obs, ?_, hmap.trans (range_map_getElem? envs)⟩
    have hdecode : decodeBatch (encoded envs) = (do
        let columns ← resolve (encoded envs)
        (List.range envs.length).mapM (decodeRow columns)) := if_neg hempty
    rw [hdecode, resolve_encoded hp]
    exact hobs

/-! ### The round trip -/

theorem roundTrip_of_le (hn : 2 ^ 32 ≤ envs.length) :
    roundTrip envs = .error .arrowError := by
  rw [roundTrip, encodeBatch_eq]
  simp only [bind, Except.bind, lift_of_le hp hn]

theorem roundTrip_of_lt (hn : envs.length < 2 ^ 32) :
    roundTrip envs = decodeBatch (encoded envs) := by
  rw [roundTrip, encodeBatch_eq]
  simp only [bind, Except.bind, lift_of_lt hp hn, flatten_lifted hp hn]

/-- The envelopes come back, in their order, exactly when their rows can be numbered in 32 bits. -/
theorem roundTrip_returns_iff :
    (∃ obs, roundTrip envs = .ok obs ∧ obs.map Observation.envelope = envs.map some) ↔ envs.length < 2 ^ 32 := by
  constructor
  · rintro ⟨obs, hobs, -⟩
    by_contra hn
    rw [roundTrip_of_le hp (Nat.le_of_not_lt hn)] at hobs
    cases hobs
  · intro hn
    rw [roundTrip_of_lt hp hn]
    exact decodeBatch_encoded hp

end

def latency (labels : List KeyValue) : Envelope where
  schemaVersion := 1
  sketchType := .ddSketch
  aggID := 7
  labels := labels
  windowStartMs := 1000
  windowEndMs := 2000
  encoding := .protoFull
  payload := [1, 2]
  metricName := str "latency"

def mixedLabels : List Envelope :=
  [latency [⟨str "host", str "a"⟩, ⟨str "zone", str "z"⟩], latency [⟨str "parent_id", str "p"⟩]]

theorem portable_mixedLabels : ∀ env ∈ mixedLabels, Portable env := by
  intro env henv
  simp only [mixedLabels, mem_cons, not_mem_nil, or_false] at henv
  rcases henv with rfl | rfl
  · exact ⟨rfl, rfl, rfl, by decide, by decide⟩
  · exact ⟨rfl, rfl, rfl, by decide, by decide⟩

theorem mixedLabels_return :
    ∃ obs, roundTrip mixedLabels = .ok obs ∧ obs.map Observation.envelope = mixedLabels.map some :=
  (roundTrip_returns_iff portable_mixedLabels).mpr (by decide)

/-- With `2^32` copies of one envelope the ids wrap to none at all, and no batch can be built. -/
theorem ids_wrap : (∀ env ∈ replicate (2 ^ 32) (latency []), Portable env) ∧
    roundTrip (replicate (2 ^ 32) (latency [])) = .error .arrowError := by
  have hp : ∀ env ∈ replicate (2 ^ 32) (latency []), Portable env := fun env henv => by
    obtain rfl := eq_of_mem_replicate henv
    exact ⟨rfl, rfl, rfl, Pairwise.nil, nofun⟩
  exact ⟨hp, roundTrip_of_le hp (length_replicate ▸ le_refl _)⟩

end AsapCollector.Otap
