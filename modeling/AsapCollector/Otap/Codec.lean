import AsapCollector.Precompute.Config

/-! `encode.rs`, `records.rs` and `decode.rs` of `asap-precompute-rs/src/otap`: `encode_batch` writes a flat table,
`lift` moves all but the scalar columns into a table of attributes joined by row ids, `flatten` joins the two again. -/

namespace AsapCollector.Otap

/-! ### Arrow -/

inductive DataType where
  | utf8
  | binary
  | uint32
  | uint64
  | float64
  | timestampNanosecond
  | other
deriving DecidableEq

inductive Column where
  | utf8 (cells : List (Option Bytes))
  | binary (cells : List (Option Bytes))
  | uint32 (cells : List (Option UInt32))
  | uint64 (cells : List (Option UInt64))
  | float64 (cells : List (Option Float64))
  | timestampNanosecond (cells : List (Option Int))
  | other (length : Nat)

namespace Column

def dataType : Column → DataType
  | utf8 _ => .utf8
  | binary _ => .binary
  | uint32 _ => .uint32
  | uint64 _ => .uint64
  | float64 _ => .float64
  | timestampNanosecond _ => .timestampNanosecond
  | other _ => .other

def length : Column → Nat
  | utf8 cells => cells.length
  | binary cells => cells.length
  | uint32 cells => cells.length
  | uint64 cells => cells.length
  | float64 cells => cells.length
  | timestampNanosecond cells => cells.length
  | other length => length

def asUtf8 : Column → Option (List (Option Bytes))
  | utf8 cells => some cells
  | _ => none

def asBinary : Column → Option (List (Option Bytes))
  | binary cells => some cells
  | _ => none

def asUInt32 : Column → Option (List (Option UInt32))
  | uint32 cells => some cells
  | _ => none

def asUInt64 : Column → Option (List (Option UInt64))
  | uint64 cells => some cells
  | _ => none

def asFloat64 : Column → Option (List (Option Float64))
  | float64 cells => some cells
  | _ => none

end Column

/-- `OtapEncodeError`, `OtapRecordsError` (with a batch) and `OtapDecodeError`; what Arrow says about a batch that it
cannot build is left out. -/
inductive OtapError where
  | arrowError
  | missingColumn (batch column : Bytes)
  | wrongBatchColumnType (batch column expected : Bytes) (actual : DataType)
  | wrongColumnType (column expected : Bytes) (actual : DataType)
  | unknownSketchType (row : Nat) (value : Bytes)
  | unknownEncoding (row : Nat) (value : Bytes)
deriving DecidableEq

structure RecordBatch where
  fields : List (Bytes × Column)
  numRows : Nat
  uniform : ∀ f ∈ fields, f.2.length = numRows

namespace RecordBatch

def tryNew : List (Bytes × Column) → Except OtapError RecordBatch
  | [] => .error .arrowError
  | f :: fs => if h : ∀ g ∈ f :: fs, g.2.length = f.2.length then .ok ⟨f :: fs, f.2.length, h⟩ else .error .arrowError

def columnByName (b : RecordBatch) (name : Bytes) : Option Column := (b.fields.find? fun f => f.1 = name).map Prod.snd

end RecordBatch

def cell {α : Type} (cells : List (Option α)) (row : Nat) : Option α := cells[row]?.join

def downcast {α : Type} (as : Column → Option α) (wrong : DataType → OtapError) (c : Column) : Except OtapError α :=
  match as c with
  | some a => .ok a
  | none => .error (wrong c.dataType)

def optionalColumn {α : Type} (as : Column → Option α) (expected : Bytes) (b : RecordBatch) (batch name : Bytes) :
    Except OtapError (Option α) :=
  match b.columnByName name with
  | some c => some <$> downcast as (.wrongBatchColumnType batch name expected) c
  | none => .ok none

def requireColumn {α : Type} (as : Column → Option α) (expected : Bytes) (b : RecordBatch) (batch name : Bytes) :
    Except OtapError α :=
  match b.columnByName name with
  | some c => downcast as (.wrongBatchColumnType batch name expected) c
  | none => .error (.missingColumn batch name)

variable (b : RecordBatch)

def optionalString (name : Bytes) := optionalColumn Column.asUtf8 (str "Utf8") b (str "attributes") name

def optionalU64 (name : Bytes) := optionalColumn Column.asUInt64 (str "UInt64") b (str "attributes") name

def optionalU32 (name : Bytes) := optionalColumn Column.asUInt32 (str "UInt32") b (str "attributes") name

/-- `optional_binary`, for which `lift` names another batch. -/
def optionalBinary (batch name : Bytes) := optionalColumn Column.asBinary (str "Binary") b batch name

/-! ### Names -/

def columnTimeUnixNano : Bytes := str "time_unix_nano"
def columnMetric : Bytes := str "metric"
def columnValue : Bytes := str "value"
def attrEnvelope : Bytes := str "_asap_envelope"
def attrSketchType : Bytes := str "_asap_sketch_type"
def attrAggID : Bytes := str "_asap_agg_id"
def attrSchemaVersion : Bytes := str "_asap_schema_version"
def attrWindowStartMs : Bytes := str "_asap_window_start_ms"
def attrWindowEndMs : Bytes := str "_asap_window_end_ms"
def attrEncoding : Bytes := str "_asap_encoding"
def attrBatchParentID : Bytes := str "parent_id"
def attrBatchKey : Bytes := str "key"
def attrBatchBytes : Bytes := str "bytes"
def attrBatchStr : Bytes := str "str"
def attrBatchInt : Bytes := str "int"

def isStrategyBAttr (name : Bytes) : Bool :=
  name ∈ [attrEnvelope, attrSketchType, attrAggID, attrSchemaVersion, attrWindowStartMs, attrWindowEndMs, attrEncoding]

def isReservedColumn (name : Bytes) : Bool :=
  name ∈ [columnTimeUnixNano, columnMetric, columnValue, attrEnvelope, attrSketchType, attrAggID, attrSchemaVersion,
    attrWindowStartMs, attrWindowEndMs, attrEncoding]

def sortedKeys (keys : List Bytes) : List Bytes := keys.dedup.insertionSort (· ≤ ·)

/-! ### Envelopes and observations -/

inductive Encoding where
  | unspecified
  | protoFull
  | protoDelta
  | msgpack
deriving DecidableEq

def Encoding.name : Encoding → Bytes
  | protoFull => str "PROTO_FULL"
  | protoDelta => str "PROTO_DELTA"
  | msgpack => str "MSGPACK"
  | unspecified => str "UNSPECIFIED"

def sketchTypeName : SketchType → Bytes
  | .ddSketch => str "DDSketch"
  | .kllSketch => str "KLLSketch"
  | .hllSketch => str "HLLSketch"
  | .countSketch => str "CountSketch"
  | .countMinSketch => str "CountMinSketch"
  | .unspecified => str "Unspecified"

/-- `SketchEnvelope` of the Rust runtime, without the hash specification. -/
structure Envelope where
  schemaVersion : UInt32
  sketchType : SketchType
  aggID : UInt64
  resourceLabels : List KeyValue := []
  labels : List KeyValue
  windowStartMs : UInt64
  windowEndMs : UInt64
  encoding : Encoding
  payload : Bytes
  metricName : Bytes
  count : UInt64 := 0
  aggregationTemporality : Int := 0
deriving DecidableEq

inductive Value where
  | float (x : Float64)
  | envelope (env : Envelope)

structure Observation where
  timestampMs : UInt64
  metric : Bytes
  resourceLabels : List KeyValue
  labels : List KeyValue
  value : Value

/-! ### encode_batch -/

variable (envelopes : List Envelope) (b : RecordBatch) (c : ResolvedColumns)

def collectLabelKeys : List Bytes :=
  sortedKeys (envelopes.flatMap fun env => env.labels.map KeyValue.key)

def saturatingMul (a b : UInt64) : UInt64 := if a.toNat * b.toNat < 2 ^ 64 then a * b else UInt64.ofNat (2 ^ 64 - 1)

def encodeBatch : Except OtapError RecordBatch :=
  RecordBatch.tryNew (
    [(columnTimeUnixNano, .uint64 (envelopes.map fun env => some (saturatingMul env.windowEndMs 1000000))),
      (columnMetric, .utf8 (envelopes.map fun env => some env.metricName)),
      (columnValue, .float64 (envelopes.map fun _ => some ⟨0⟩)),
      (attrEnvelope, .binary (envelopes.map fun env => some env.payload)),
      (attrSketchType, .utf8 (envelopes.map fun env => some (sketchTypeName env.sketchType))),
      (attrAggID, .uint64 (envelopes.map fun env => some env.aggID)),
      (attrSchemaVersion, .uint32 (envelopes.map fun env => some env.schemaVersion)),
      (attrWindowStartMs, .uint64 (envelopes.map fun env => some env.windowStartMs)),
      (attrWindowEndMs, .uint64 (envelopes.map fun env => some env.windowEndMs)),
      (attrEncoding, .utf8 (envelopes.map fun env => some env.encoding.name))] ++
    (collectLabelKeys envelopes).map fun key => (key, .utf8 (envelopes.map fun env => lookupLabel env.labels key)))

/-! ### lift -/

structure AttrRow where
  parentID : UInt32
  key : Bytes
  bytes : Option Bytes := none
  str : Option Bytes := none
  int : Option UInt64 := none

structure OtapMetricRecords where
  metrics : RecordBatch
  attributes : RecordBatch

structure Carriers where
  envelope : Option (List (Option Bytes))
  sketchType : Option (List (Option Bytes))
  aggID : Option (List (Option UInt64))
  schemaVersion : Option (List (Option UInt32))
  windowStart : Option (List (Option UInt64))
  windowEnd : Option (List (Option UInt64))
  encoding : Option (List (Option Bytes))
  labels : List (Bytes × List (Option Bytes))

/-- The attribute that a cell becomes, unless the column is missing or the cell null. -/
def attrOf {α : Type} (cells : Option (List (Option α))) (row : Nat) (make : α → AttrRow) : List AttrRow :=
  ((cells.bind fun cells => cell cells row).map make).toList

def liftRow (c : Carriers) (row : Nat) (pid : UInt32) : List AttrRow :=
  attrOf c.envelope row (fun b => { parentID := pid, key := attrEnvelope, bytes := some b }) ++
    attrOf c.sketchType row (fun s => { parentID := pid, key := attrSketchType, str := some s }) ++
    attrOf c.aggID row (fun v => { parentID := pid, key := attrAggID, int := some v }) ++
    attrOf c.schemaVersion row (fun v => { parentID := pid, key := attrSchemaVersion, int := some v.toUInt64 }) ++
    attrOf c.windowStart row (fun v => { parentID := pid, key := attrWindowStartMs, int := some v }) ++
    attrOf c.windowEnd row (fun v => { parentID := pid, key := attrWindowEndMs, int := some v }) ++
    attrOf c.encoding row (fun s => { parentID := pid, key := attrEncoding, str := some s }) ++
    c.labels.flatMap fun label => attrOf (some label.2) row fun s => { parentID := pid, key := label.1, str := some s }

def labelColumns : List (Bytes × List (Option Bytes)) :=
  b.fields.filterMap fun f => if isReservedColumn f.1 then none else f.2.asUtf8.map fun cells => (f.1, cells)

/-- `lift`. The ids are `0..n_rows as u32`, one row each. -/
def lift (flat : RecordBatch) : Except OtapError OtapMetricRecords := do
  let c : Carriers :=
    { envelope := ← optionalBinary flat (str "metrics") attrEnvelope
      sketchType := ← optionalString flat attrSketchType
      aggID := ← optionalU64 flat attrAggID
      schemaVersion := ← optionalU32 flat attrSchemaVersion
      windowStart := ← optionalU64 flat attrWindowStartMs
      windowEnd := ← optionalU64 flat attrWindowEndMs
      encoding := ← optionalString flat attrEncoding
      labels := labelColumns flat }
  let ids := List.range (flat.numRows % 2 ^ 32)
  let rows := ids.flatMap fun row => liftRow c row (UInt32.ofNat row)
  let attributes ← RecordBatch.tryNew
    [(attrBatchParentID, .uint32 (rows.map fun r => some r.parentID)),
      (attrBatchKey, .utf8 (rows.map fun r => some r.key)),
      (attrBatchBytes, .binary (rows.map (·.bytes))), (attrBatchStr, .utf8 (rows.map (·.str))),
      (attrBatchInt, .uint64 (rows.map (·.int)))]
  let kept := flat.fields.filter fun f => !isStrategyBAttr f.1 && (isReservedColumn f.1 || f.2.asUtf8.isNone)
  let metrics ← RecordBatch.tryNew (kept ++ [(attrBatchParentID, .uint32 (ids.map fun row => some (UInt32.ofNat row)))])
  return ⟨metrics, attributes⟩

/-! ### flatten -/

inductive AttrValue where
  | bytes (b : Bytes)
  | str (s : Bytes)
  | int (v : UInt64)
deriving DecidableEq

/-- The entry that a row of the attribute batch stands for: the first value that is not null. -/
def attrEntry (keys : List (Option Bytes)) (bytes strs : Option (List (Option Bytes)))
    (ints : Option (List (Option UInt64))) (row : Nat) : Option (Bytes × AttrValue) := do
  let key ← cell keys row
  let value ← (bytes.bind fun cells => (cell cells row).map .bytes) <|>
    (strs.bind fun cells => (cell cells row).map .str) <|> (ints.bind fun cells => (cell cells row).map .int)
  return (key, value)

def buildAttrIndex (attributes : RecordBatch) : Except OtapError (GoMap UInt32 (List (Bytes × AttrValue))) := do
  let parentIDs ← requireColumn Column.asUInt32 (str "UInt32") attributes (str "attributes") attrBatchParentID
  let keys ← requireColumn Column.asUtf8 (str "Utf8") attributes (str "attributes") attrBatchKey
  let bytes ← optionalBinary attributes (str "attributes") attrBatchBytes
  let strs ← optionalString attributes attrBatchStr
  let ints ← optionalU64 attributes attrBatchInt
  let entries := (List.range attributes.numRows).filterMap fun row => do
    let pid ← cell parentIDs row
    let entry ← attrEntry keys bytes strs ints row
    return (pid, entry)
  return entries.foldl (fun index e => index.insert e.1 (index.get [] e.1 ++ [e.2])) ∅

structure FlatRow where
  envelope : Option Bytes := none
  sketchType : Option Bytes := none
  aggID : Option UInt64 := none
  schemaVersion : Option UInt32 := none
  windowStart : Option UInt64 := none
  windowEnd : Option UInt64 := none
  encoding : Option Bytes := none
  labels : GoMap Bytes Bytes := ∅

def FlatRow.add (labelKeys : List Bytes) (r : FlatRow) : Bytes × AttrValue → FlatRow
  | (key, .bytes b) => if key = attrEnvelope then { r with envelope := some b } else r
  | (key, .int v) =>
    if key = attrAggID then { r with aggID := some v }
    else if key = attrSchemaVersion then { r with schemaVersion := some v.toUInt32 }
    else if key = attrWindowStartMs then { r with windowStart := some v }
    else if key = attrWindowEndMs then { r with windowEnd := some v }
    else r
  | (key, .str s) =>
    if key = attrSketchType then { r with sketchType := some s }
    else if key = attrEncoding then { r with encoding := some s }
    else if !isReservedColumn key && key ∈ labelKeys then { r with labels := r.labels.insert key s }
    else r

variable (index : GoMap UInt32 (List (Bytes × AttrValue)))

def flatLabelKeys : List Bytes :=
  sortedKeys (index.pairs.flatMap fun e => e.2.filterMap fun
    | (key, .str _) => if isReservedColumn key then none else some key
    | _ => none)

def flattenRow (labelKeys : List Bytes) : Option UInt32 → FlatRow
  | none => {}
  | some pid => (index.get [] pid).foldl (FlatRow.add labelKeys) {}

def flatFields (labelKeys : List Bytes) (rows : List FlatRow) : List (Bytes × Column) :=
  [(attrEnvelope, .binary (rows.map (·.envelope))), (attrSketchType, .utf8 (rows.map (·.sketchType))),
    (attrAggID, .uint64 (rows.map (·.aggID))), (attrSchemaVersion, .uint32 (rows.map (·.schemaVersion))),
    (attrWindowStartMs, .uint64 (rows.map (·.windowStart))), (attrWindowEndMs, .uint64 (rows.map (·.windowEnd))),
    (attrEncoding, .utf8 (rows.map (·.encoding)))] ++
  labelKeys.map fun key => (key, .utf8 (rows.map fun r => r.labels.lookup key))

def flatten (records : OtapMetricRecords) : Except OtapError RecordBatch := do
  let parentIDs ← requireColumn Column.asUInt32 (str "UInt32") records.metrics (str "metrics") attrBatchParentID
  let index ← buildAttrIndex records.attributes
  let labelKeys := flatLabelKeys index
  let rows := (List.range records.metrics.numRows).map fun row => flattenRow index labelKeys (cell parentIDs row)
  RecordBatch.tryNew ((records.metrics.fields.filter fun f => f.1 ≠ attrBatchParentID && !isStrategyBAttr f.1) ++
    flatFields labelKeys rows)

/-! ### decode_batch -/

inductive TimestampColumn where
  | uint64Nanos (cells : List (Option UInt64))
  | timestamp (cells : List (Option Int))

variable (row : Nat)

def TimestampColumn.timestampMsAt : TimestampColumn → UInt64
  | uint64Nanos cells => (cell cells row).getD 0 / 1000000
  | timestamp cells =>
    match cell cells row with
    | none => 0
    | some v => if v ≤ 0 then 0 else UInt64.ofNat v.toNat / 1000000

structure ResolvedColumns where
  timestamp : Option TimestampColumn := none
  metric : Option (List (Option Bytes)) := none
  value : Option (List (Option Float64)) := none
  envelope : Option (List (Option Bytes)) := none
  sketchType : Option (List (Option Bytes)) := none
  aggID : Option (List (Option UInt64)) := none
  schemaVersion : Option (List (Option UInt32)) := none
  windowStartMs : Option (List (Option UInt64)) := none
  windowEndMs : Option (List (Option UInt64)) := none
  encoding : Option (List (Option Bytes)) := none
  labelColumns : List (Bytes × List (Option Bytes)) := []

def resolveTimestamp (name : Bytes) : Column → Except OtapError TimestampColumn
  | .uint64 cells => .ok (.uint64Nanos cells)
  | .timestampNanosecond cells => .ok (.timestamp cells)
  | c => .error (.wrongColumnType name (str "UInt64 or Timestamp(Nanosecond)") c.dataType)

def downcastNamed {α : Type} (as : Column → Option α) (expected name : Bytes) (c : Column) : Except OtapError α :=
  downcast as (.wrongColumnType name expected) c

def ResolvedColumns.add (r : ResolvedColumns) (f : Bytes × Column) : Except OtapError ResolvedColumns :=
  let (name, col) := f
  let string := downcastNamed Column.asUtf8 (str "Utf8") name col
  let u64 := downcastNamed Column.asUInt64 (str "UInt64") name col
  if name = columnTimeUnixNano then (fun c => { r with timestamp := some c }) <$> resolveTimestamp name col
  else if name = columnMetric then (fun c => { r with metric := some c }) <$> string
  else if name = columnValue then
    (fun c => { r with value := some c }) <$> downcastNamed Column.asFloat64 (str "Float64") name col
  else if name = attrEnvelope then
    (fun c => { r with envelope := some c }) <$> downcastNamed Column.asBinary (str "Binary") name col
  else if name = attrSketchType then (fun c => { r with sketchType := some c }) <$> string
  else if name = attrAggID then (fun c => { r with aggID := some c }) <$> u64
  else if name = attrSchemaVersion then
    (fun c => { r with schemaVersion := some c }) <$> downcastNamed Column.asUInt32 (str "UInt32") name col
  else if name = attrWindowStartMs then (fun c => { r with windowStartMs := some c }) <$> u64
  else if name = attrWindowEndMs then (fun c => { r with windowEndMs := some c }) <$> u64
  else if name = attrEncoding then (fun c => { r with encoding := some c }) <$> string
  else if !isReservedColumn name && col.dataType = .utf8 then
    (fun c => { r with labelColumns := r.labelColumns ++ [(name, c)] }) <$> string
  else .ok r

def resolve : Except OtapError ResolvedColumns := b.fields.foldlM ResolvedColumns.add {}

def ResolvedColumns.labelsForRow : List KeyValue :=
  c.labelColumns.filterMap fun label => (cell label.2 row).map (KeyValue.mk label.1)

def parseSketchType (raw : Bytes) : Except OtapError SketchType :=
  if raw = str "DDSketch" then .ok .ddSketch
  else if raw = str "KLLSketch" then .ok .kllSketch
  else if raw = str "HLLSketch" then .ok .hllSketch
  else if raw = str "CountSketch" then .ok .countSketch
  else if raw = str "CountMinSketch" then .ok .countMinSketch
  else if raw = str "Unspecified" ∨ raw = [] then .ok .unspecified
  else .error (.unknownSketchType row raw)

def parseEncoding (raw : Bytes) : Except OtapError Encoding :=
  if raw = str "PROTO_FULL" then .ok .protoFull
  else if raw = str "PROTO_DELTA" then .ok .protoDelta
  else if raw = str "MSGPACK" then .ok .msgpack
  else if raw = str "UNSPECIFIED" ∨ raw = [] then .ok .unspecified
  else .error (.unknownEncoding row raw)

def valueAt {α : Type} (cells : Option (List (Option α))) (row : Nat) : Option α :=
  cells.bind fun cells => cell cells row

def buildEnvelope (metric : Bytes) (labels : List KeyValue) (payload : Bytes) : Except OtapError Envelope := do
  let sketchType ← match valueAt c.sketchType row with
    | some raw => parseSketchType row raw
    | none => .ok .unspecified
  let encoding ← match valueAt c.encoding row with
    | some raw => parseEncoding row raw
    | none => .ok .unspecified
  return { schemaVersion := (valueAt c.schemaVersion row).getD 0, sketchType := sketchType,
           aggID := (valueAt c.aggID row).getD 0, labels := labels,
           windowStartMs := (valueAt c.windowStartMs row).getD 0,
           windowEndMs := (valueAt c.windowEndMs row).getD 0, encoding := encoding, payload := payload,
           metricName := metric }

/-- One round of the loop of `decode_batch`; the value of a null cell in a column of strings is empty. -/
def decodeRow : Except OtapError Observation := do
  let metric := (valueAt c.metric row).getD []
  let timestampMs := (c.timestamp.map (TimestampColumn.timestampMsAt row)).getD 0
  let labels := c.labelsForRow row
  let value ← match valueAt c.envelope row with
    | some payload => Value.envelope <$> buildEnvelope c row metric labels payload
    | none => .ok (.float ((valueAt c.value row).getD ⟨0⟩))
  return ⟨timestampMs, metric, [], labels, value⟩

def decodeBatch : Except OtapError (List Observation) :=
  if b.numRows = 0 then .ok []
  else do
    let columns ← resolve b
    (List.range b.numRows).mapM (decodeRow columns)

/-! ### There and back -/

def roundTrip : Except OtapError (List Observation) := do
  decodeBatch (← flatten (← lift (← encodeBatch envelopes)))

def Observation.envelope : Observation → Option Envelope
  | ⟨_, _, _, _, .envelope env⟩ => some env
  | ⟨_, _, _, _, .float _⟩ => none

/-- What the codec can carry: no resource labels, count or temporality, and labels in the order of their keys, none of
which is reserved. -/
structure Portable (env : Envelope) : Prop where
  resourceLabels : env.resourceLabels = []
  count : env.count = 0
  aggregationTemporality : env.aggregationTemporality = 0
  sorted : env.labels.Pairwise fun a b => a.key < b.key
  unreserved : ∀ kv ∈ env.labels, isReservedColumn kv.key = false

end AsapCollector.Otap
