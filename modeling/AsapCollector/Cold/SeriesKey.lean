import AsapCollector.Cold.Finalizer

/-! The series keys of `asap-gorilla-go/tsdb.go`. -/

namespace AsapCollector.StreamingTSDBBlockBuilder

variable (external : StringMap) (id : SeriesId)

/-- `labelsFor`, which sets what `FragmentLabels` sets. -/
def labelsFor : Labels := id.labels external

def valueAt (m : StringMap) (k : Bytes) : Option Bytes := (m.entries.find? fun e => e.1 = k).map Prod.snd

def resolveLabelValue (k : Bytes) : Option Bytes :=
  ((valueAt external k).or (valueAt id.attrs k)).or
    (if k = str "__name__" then some (sanitizePromLabelValue id.metricName) else none)

def appendLenPrefixed (s : Bytes) : Bytes := putUvarint s.length ++ s

def sortedKeys : List Bytes :=
  let others (m : StringMap) := (m.entries.map Prod.fst).filter (· ≠ str "__name__")
  (str "__name__" :: (others id.attrs ++ others external)).insertionSort (· ≤ ·)

def appendLabels : Option Bytes → List Bytes → Bytes
  | _, [] => []
  | prev, k :: keys =>
    if prev = some k then appendLabels prev keys
    else
      match resolveLabelValue external id k with
      | none | some [] => appendLabels (some k) keys
      | some v => appendLenPrefixed k ++ (appendLenPrefixed v ++ appendLabels (some k) keys)

def seriesKey : Bytes := appendLabels external id none (sortedKeys external id)

end AsapCollector.StreamingTSDBBlockBuilder
