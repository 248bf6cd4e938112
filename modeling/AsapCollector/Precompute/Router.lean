import AsapCollector.Precompute.Config

/-! `aggregationrouter.go` and `aggregationidentity.go` of the SDK. -/

namespace AsapCollector.Precompute

/-- An `attribute.Set` whose values are strings: in the order of the keys, each once. -/
structure AttributeSet where
  toSlice : List KeyValue
  sorted : toSlice.Pairwise fun a b => a.key < b.key

structure AggregationIdentity where
  aggID : UInt64
  filter : Bytes
deriving DecidableEq

/-- `AggregationPolicy`: the fingerprint that `AggID` makes of it, and the fields that `Router` reads. -/
structure AggregationPolicy where
  aggID : UInt64
  groupingLabels : List Bytes
  rows : Int := 0

def aggregationFilter (labels : GoMap Bytes Bytes) : Bytes :=
  (str ";").intercalate ((labels.keys.insertionSort (· ≤ ·)).map fun k => k ++ str "=" ++ labels.get [] k)

namespace AggregationPolicy

def groupingValues (p : AggregationPolicy) (attrs : AttributeSet) : GoMap Bytes Bytes :=
  p.groupingLabels.foldl (fun labels k => ((lookupLabel attrs.toSlice k).map (labels.insert k)).getD labels) ∅

def router (p : AggregationPolicy) (attrs : AttributeSet) : AggregationIdentity × Int × Bool :=
  (⟨p.aggID, aggregationFilter (p.groupingValues attrs)⟩, p.rows, true)

end AggregationPolicy

end AsapCollector.Precompute
