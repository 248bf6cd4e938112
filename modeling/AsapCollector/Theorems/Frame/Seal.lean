import AsapCollector.Frame.Receiver

/-! The receiver gets back exactly the fields the sender put in (`parseHeader_sealed`, `nextCheckpoint_sealed`), so a
delivery of a sealed frame can be read at the level of frames (`prepare_sealed`). -/

namespace AsapCollector

open List GoMap Bytes SummaryFrameIdentity AList

theorem checksumKeys_insert (attrs : GoMap Bytes Bytes) (c : Bytes) :
    checksumKeys (attrs.insert frameChecksumAttribute c) = checksumKeys attrs := by
  unfold checksumKeys
  rw [keys_insert, filter_cons_of_neg (by simp), @Nodup.erase_eq_filter _ instBEqOfDecidableEq _ _
    attrs.keys_nodup, filter_filter]
  refine congrArg _ (filter_congr fun key _ => ?_)
  by_cases h : key = frameChecksumAttribute <;> simp [h]

theorem mem_checksumKeys {attrs : GoMap Bytes Bytes} {key : Bytes} :
    key ∈ checksumKeys attrs ↔ key ∈ attrs.keys ∧ key ≠ frameChecksumAttribute := by
  simp [checksumKeys, (perm_insertionSort _ _).mem_iff]

variable (attrs : GoMap Bytes Bytes)

theorem checksumHeader_insert (c : Bytes) :
    checksumHeader (attrs.insert frameChecksumAttribute c) = checksumHeader attrs := by
  unfold checksumHeader
  rw [checksumKeys_insert]
  refine flatMap_congr fun key hkey => ?_
  rw [get_insert_of_ne (mem_checksumKeys.mp hkey).2]

theorem frameChecksum_insert (c payload : Bytes) :
    frameChecksum (attrs.insert frameChecksumAttribute c) payload = frameChecksum attrs payload := by
  simp only [frameChecksum, checksumInput, checksumHeader_insert]

theorem frameChecksum_ne_nil (payload : Bytes) : frameChecksum attrs payload ≠ [] := by
  refine hexEncode_ne_nil fun h => ?_
  have hlen := congrArg length h
  simp at hlen

@[simp] theorem toLower_frameChecksum (payload : Bytes) :
    toLower (frameChecksum attrs payload) = frameChecksum attrs payload :=
  toLower_hexEncode _

theorem bigEndian32_inj {m n : Nat} (h : bigEndian32 m = bigEndian32 n) : m % 2 ^ 32 = n % 2 ^ 32 := by
  simp only [bigEndian32, cons.injEq, ← UInt8.toNat_inj, UInt8.toNat_ofNat'] at h
  omega

theorem framed_inj {x y r s : Bytes} (hx : x.length < 2 ^ 32) (hy : y.length < 2 ^ 32)
    (h : bigEndian32 x.length ++ (x ++ r) = bigEndian32 y.length ++ (y ++ s)) : x = y ∧ r = s := by
  obtain ⟨hlen, h⟩ := append_inj h rfl
  have hlen := bigEndian32_inj hlen
  exact append_inj h (by omega)

/-- Four bytes can tell the lengths of the keys, the values and the payload. -/
structure Framable (attrs : GoMap Bytes Bytes) (payload : Bytes) : Prop where
  attributes : ∀ k v, attrs.lookup k = some v → k.length < 2 ^ 32 ∧ v.length < 2 ^ 32
  payload : payload.length < 2 ^ 32

variable {a b : GoMap Bytes Bytes} {p q key : Bytes}

theorem flatMap_framed_inj (ha : Framable a p) (hb : Framable b q) {ks ls : List Bytes} (hks : ∀ k ∈ ks, k ∈ a.keys)
    (hls : ∀ k ∈ ls, k ∈ b.keys)
    (h : (ks.flatMap fun k => bigEndian32 k.length ++ k ++ bigEndian32 (a.get [] k).length ++ a.get [] k) =
      ls.flatMap fun k => bigEndian32 k.length ++ k ++ bigEndian32 (b.get [] k).length ++ b.get [] k) :
    ks = ls ∧ ∀ k ∈ ks, a.lookup k = b.lookup k := by
  induction ks generalizing ls with
  | nil =>
    cases ls with
    | nil => exact ⟨rfl, nofun⟩
    | cons l ls => exact absurd (congrArg length h) (by simp [bigEndian32])
  | cons k ks ih =>
    cases ls with
    | nil => exact absurd (congrArg length h) (by simp [bigEndian32])
    | cons l ls =>
      obtain ⟨v, hv⟩ := lookup_of_mem_keys (hks k mem_cons_self)
      obtain ⟨w, hw⟩ := lookup_of_mem_keys (hls l mem_cons_self)
      simp only [flatMap_cons, get_of_lookup hv, get_of_lookup hw, append_assoc] at h
      obtain ⟨rfl, hvalue⟩ := framed_inj (ha.attributes k v hv).1 (hb.attributes l w hw).1 h
      obtain ⟨rfl, hrest⟩ := framed_inj (ha.attributes k v hv).2 (hb.attributes k w hw).2 hvalue
      simp only [← append_assoc] at hrest
      obtain ⟨rfl, hlookup⟩ := ih (fun k hk => hks k (mem_cons_of_mem _ hk)) (fun k hk => hls k (mem_cons_of_mem _ hk))
        hrest
      exact ⟨rfl, forall_mem_cons.mpr ⟨hv.trans hw.symm, hlookup⟩⟩

theorem checksumInput_inj (ha : Framable a p) (hb : Framable b q) (h : checksumInput a p = checksumInput b q) :
    p = q ∧ ∀ key, key ≠ frameChecksumAttribute → a.lookup key = b.lookup key := by
  simp only [checksumInput, append_assoc] at h
  obtain ⟨hlen, h⟩ := append_inj (append_inj h rfl).2 rfl
  have hlen := bigEndian32_inj hlen
  have htotal := congrArg length h
  rw [length_append, length_append] at htotal
  have hp := ha.payload
  have hq := hb.payload
  -- the header's length is told up to 2 ^ 32, and the payloads are too short to make up for that much
  obtain ⟨hheader, rfl⟩ := append_inj h (by omega)
  obtain ⟨hkeys, hlookup⟩ := flatMap_framed_inj ha hb (fun k hk => (mem_checksumKeys.mp hk).1)
    (fun k hk => (mem_checksumKeys.mp hk).1) hheader
  refine ⟨rfl, fun key hne => ?_⟩
  by_cases hkey : key ∈ checksumKeys a
  · exact hlookup key hkey
  · have hkey' := hkeys ▸ hkey
    rw [mem_checksumKeys, and_iff_left hne] at hkey hkey'
    rw [lookup_eq_none.mpr hkey, lookup_eq_none.mpr hkey']

theorem parseRequiredUint_ne_checksum (name : Bytes) : parseRequiredUint a name ≠ .error .checksum := by
  unfold parseRequiredUint
  split
  · nofun
  · split <;> nofun

theorem parseHeader_seal (attrs : GoMap Bytes Bytes) (payload : Bytes) :
    parseHeader ⟨sealFrameAttributes attrs payload, payload⟩ ≠ .error .checksum := by
  have hparse := @parseRequiredUint_ne_checksum (sealFrameAttributes attrs payload)
  have hread : (sealFrameAttributes attrs payload).get [] frameChecksumAttribute = frameChecksum attrs payload :=
    get_insert_self _ _ _ _
  have hsame : frameChecksum (sealFrameAttributes attrs payload) payload = frameChecksum attrs payload :=
    frameChecksum_insert _ _ _
  have hbind {α β : Type} {x : Except FrameError α} {f : α → Except FrameError β} (hx : x ≠ .error .checksum)
      (hf : ∀ v, f v ≠ .error .checksum) : (x >>= f) ≠ .error .checksum := by
    cases x with
    | error err => exact fun h => hx (congrArg _ (Except.error.inj h))
    | ok v => exact hf v
  unfold parseHeader
  simp only [hread, hsame, toLower_frameChecksum]
  refine hbind (hparse _) fun _ => hbind (hparse _) fun _ => hbind (hparse _) fun _ => hbind (hparse _) fun _ => ?_
  split
  · simp
  · rw [if_neg (by simp [frameChecksum_ne_nil])]
    simp

theorem get_setIfNonEmpty_self {name : Bytes} (h : attrs.get [] name = []) (value : Bytes) :
    (setIfNonEmpty attrs name value).get [] name = value := by
  unfold setIfNonEmpty
  split
  · next hv => rw [h, hv]
  · exact get_insert_self _ _ _ _

theorem get_setIfNonEmpty_of_ne {name k : Bytes} (h : k ≠ name) (value : Bytes) :
    (setIfNonEmpty attrs name value).get [] k = attrs.get [] k := by
  unfold setIfNonEmpty
  split
  · rfl
  · exact get_insert_of_ne h

namespace SummaryFrameIdentity

variable (f : SummaryFrameIdentity) (payload : Bytes)

theorem get_sealed {name : Bytes} (h : name ≠ frameChecksumAttribute) :
    (f.sealed payload).frameAttributes.get [] name = f.otlpAttributes.get [] name :=
  get_insert_of_ne h

theorem get_sealed_checksum :
    (f.sealed payload).frameAttributes.get [] frameChecksumAttribute = frameChecksum f.otlpAttributes payload :=
  get_insert_self _ _ _ _

theorem frameChecksum_sealed :
    frameChecksum (f.sealed payload).frameAttributes payload = frameChecksum f.otlpAttributes payload :=
  frameChecksum_insert _ _ _

/-- The fields of a frame that the receiver reads, under the names it reads them by. -/
def received : List (String × Bytes) :=
  [("asap.frame.plan_id", formatUint f.planID), ("asap.frame.plan_version", formatUint f.planVersion),
    ("asap.frame.materialization", formatUint f.materialization),
    ("asap.frame.sequence", formatUint f.sequence), ("asap.frame.series_identity", f.seriesIdentity),
    ("asap.frame.producer_id", f.producerID), ("asap.frame.producer_epoch", f.producerEpoch),
    ("asap.frame.kind", f.kind.text), ("asap.frame.checkpoint_id", f.checkpointID),
    ("asap.frame.base_checkpoint_id", f.baseCheckpointID)]

variable {name : String}

theorem get_otlpAttributes {value : Bytes} (h : (name, value) ∈ f.received) :
    f.otlpAttributes.get [] (str name) = value := by
  simp only [received, mem_cons, Prod.mk.injEq, not_mem_nil, or_false] at h
  unfold otlpAttributes
  rcases h with ⟨rfl, rfl⟩ | ⟨rfl, rfl⟩ | ⟨rfl, rfl⟩ | ⟨rfl, rfl⟩ | ⟨rfl, rfl⟩ | ⟨rfl, rfl⟩ | ⟨rfl, rfl⟩ | ⟨rfl, rfl⟩ |
    ⟨rfl, rfl⟩ | ⟨rfl, rfl⟩ <;>
    simp [get_setIfNonEmpty_self, get_setIfNonEmpty_of_ne, get_insert_of_ne, -insert_empty]

theorem get_sealed_received {value : Bytes} (h : (name, value) ∈ f.received) :
    (f.sealed payload).frameAttributes.get [] (str name) = value := by
  have hne : str name ≠ frameChecksumAttribute := by
    unfold frameChecksumAttribute
    rintro heq
    rw [str_inj] at heq
    subst heq
    simp [received] at h
  rw [get_sealed f payload hne, get_otlpAttributes f h]

/-- The fields that name a frame's lineage and place are all set, as `prepare` demands. -/
structure Addressed : Prop where
  planID : f.planID ≠ 0
  planVersion : f.planVersion ≠ 0
  materialization : f.materialization ≠ 0
  sequence : f.sequence ≠ 0
  seriesIdentity : f.seriesIdentity ≠ []
  producerID : f.producerID ≠ []
  producerEpoch : f.producerEpoch ≠ []

def fingerprint : Digest := Sha256.sum256 (frameChecksum f.otlpAttributes payload ++ [0] ++ payload)

def receivedState (clock : UInt64) : ReceivedFrameState := ⟨f.sequence, f.checkpoint, f.fingerprint payload, clock⟩

theorem parseRequiredUint_sealed {n : UInt64} (h : (name, formatUint n) ∈ f.received) (hn : n ≠ 0) :
    parseRequiredUint (f.sealed payload).frameAttributes (str name) = .ok n := by
  simp only [parseRequiredUint, get_sealed_received f payload h, parseUint_formatUint, if_neg hn]

theorem parseHeader_sealed (h : f.Addressed) :
    parseHeader (f.sealed payload) = .ok ⟨f.lineage, f.sequence, f.fingerprint payload⟩ := by
  let a := (f.sealed payload).frameAttributes
  have hplan : parseRequiredUint a (str "asap.frame.plan_id") = .ok f.planID :=
    parseRequiredUint_sealed f payload (by simp [received]) h.planID
  have hversion : parseRequiredUint a (str "asap.frame.plan_version") = .ok f.planVersion :=
    parseRequiredUint_sealed f payload (by simp [received]) h.planVersion
  have hmat : parseRequiredUint a (str "asap.frame.materialization") = .ok f.materialization :=
    parseRequiredUint_sealed f payload (by simp [received]) h.materialization
  have hseq : parseRequiredUint a (str "asap.frame.sequence") = .ok f.sequence :=
    parseRequiredUint_sealed f payload (by simp [received]) h.sequence
  have hseries : a.get [] (str "asap.frame.series_identity") = f.seriesIdentity :=
    get_sealed_received f payload (by simp [received])
  have hproducer : a.get [] (str "asap.frame.producer_id") = f.producerID :=
    get_sealed_received f payload (by simp [received])
  have hepoch : a.get [] (str "asap.frame.producer_epoch") = f.producerEpoch :=
    get_sealed_received f payload (by simp [received])
  have hpayload : (f.sealed payload).payload = payload := rfl
  simp only [a] at hplan hversion hmat hseq hseries hproducer hepoch
  simp [parseHeader, hplan, hversion, hmat, hseq, hseries, hproducer, hepoch, bind, Except.bind, h.seriesIdentity,
    h.producerID, h.producerEpoch, get_sealed_checksum, frameChecksum_sealed, frameChecksum_ne_nil, hpayload,
    lineage, fingerprint]

theorem nextCheckpoint_sealed (previous : Bytes) :
    FrameReceiver.nextCheckpoint (f.sealed payload).frameAttributes previous =
      match f.kind with
      | .full => if f.checkpointID = [] then .error .base else .ok f.checkpointID
      | .delta => if previous = [] ∨ f.baseCheckpointID ≠ previous then .error .base else .ok previous := by
  have hkind : (f.sealed payload).frameAttributes.get [] (str "asap.frame.kind") = f.kind.text :=
    get_sealed_received f payload (by simp [received])
  have hcheckpoint : (f.sealed payload).frameAttributes.get [] (str "asap.frame.checkpoint_id") = f.checkpointID :=
    get_sealed_received f payload (by simp [received])
  have hbase : (f.sealed payload).frameAttributes.get [] (str "asap.frame.base_checkpoint_id") =
      f.baseCheckpointID := get_sealed_received f payload (by simp [received])
  cases h : f.kind <;> simp [FrameReceiver.nextCheckpoint, hkind, hcheckpoint, hbase, h, FrameKind.text]

theorem len_sealed_ne_zero : (f.sealed payload).frameAttributes.len ≠ 0 := by
  simp [sealed, sealFrameAttributes, len, keys_insert]

end SummaryFrameIdentity

namespace FrameReceiver

variable (r : FrameReceiver)

def ticked : FrameReceiver := { r with clock := r.clock + 1 }

@[simp] theorem ticked_lineages : r.ticked.lineages = r.lineages := rfl

@[simp] theorem ticked_state (key : FrameLineageKey) : r.ticked.state key = r.state key := rfl

variable {f : SummaryFrameIdentity} (hf : f.Addressed) (payload : Bytes) (r : FrameReceiver) (limit : UInt64)

include hf in
theorem prepare_sealed : r.prepare (f.sealed payload) limit =
    r.prepareLocked (f.sealed payload).frameAttributes ⟨f.lineage, f.sequence, f.fingerprint payload⟩ limit := by
  rw [prepare, if_neg (f.len_sealed_ne_zero payload), f.parseHeader_sealed payload hf]

include hf in
theorem prepare_duplicate (hseq : (r.state f.lineage).sequence = f.sequence)
    (hfp : (r.state f.lineage).fingerprint = f.fingerprint payload) :
    r.prepare (f.sealed payload) limit =
      ({ r.ticked with lineages := r.lineages.insert f.lineage { r.state f.lineage with lastUsed := r.clock + 1 } },
        .ok .duplicate) := by
  rw [prepare_sealed hf, prepareLocked]
  simp only [← ticked.eq_def, ticked_state, hseq, hfp, ne_eq, not_true_eq_false, hf.sequence, not_false_eq_true,
    and_self, if_true, if_false]
  rfl

include hf in
theorem prepare_gap (hne : f.sequence ≠ (r.state f.lineage).sequence)
    (hnext : f.sequence ≠ (r.state f.lineage).sequence + 1) :
    r.prepare (f.sealed payload) limit = (r.ticked, .error .gap) := by
  rw [prepare_sealed hf, prepareLocked]
  simp only [← ticked.eq_def, ticked_state]
  rw [if_neg fun h => hne h.1, if_pos hnext]

/-- The frame may follow a lineage whose checkpoint in force is `previous`. -/
def Continues (f : SummaryFrameIdentity) (previous : Bytes) : Prop :=
  match f.kind with
  | .full => f.checkpointID ≠ []
  | .delta => previous ≠ [] ∧ f.baseCheckpointID = previous

theorem Continues.of_full {previous : Bytes} (hkind : f.kind = .full) (h : f.checkpointID ≠ []) :
    Continues f previous := by
  unfold Continues
  rw [hkind]
  exact h

include hf in
theorem prepare_next (hnext : f.sequence = (r.state f.lineage).sequence + 1)
    (hc : Continues f (r.state f.lineage).checkpoint) :
    r.prepare (f.sealed payload) limit =
      (r.ticked, .ok (.fresh f.lineage (f.receivedState payload (r.clock + 1)) (effectiveLimit limit))) := by
  have hne : f.sequence ≠ (r.state f.lineage).sequence := by
    rw [hnext]
    exact fun h => absurd (UInt64.add_eq_left.mp h) (by decide)
  have hcp : nextCheckpoint (f.sealed payload).frameAttributes (r.state f.lineage).checkpoint = .ok f.checkpoint := by
    rw [f.nextCheckpoint_sealed]
    unfold Continues at hc
    unfold checkpoint
    cases hk : f.kind <;> simp_all
  rw [prepare_sealed hf, prepareLocked]
  simp only [← ticked.eq_def, ticked_state]
  rw [if_neg fun h => hne h.1, if_neg fun h => h hnext, hcp]
  rfl

theorem commit_fresh {r : FrameReceiver} {ω : RangeOrder (FrameLineageKey × ReceivedFrameState)} {key : FrameLineageKey}
    {st : ReceivedFrameState} {limit : UInt64} (h : r.lineages.lookup key = none → r.lineages.len < limit.toNat) :
    r.commit ω (.fresh key st limit) = { r with lineages := r.lineages.insert key st } := by
  simp only [commit]
  rw [if_neg fun hfull => absurd (h hfull.1) (Nat.not_lt.mpr hfull.2)]

theorem commit_evicts {r : FrameReceiver} {key : FrameLineageKey} {limit : UInt64}
    (hnone : r.lineages.lookup key = none) (hlen : limit.toNat ≤ r.lineages.len)
    (ω : RangeOrder (FrameLineageKey × ReceivedFrameState)) (st : ReceivedFrameState) :
    r.commit ω (.fresh key st limit) =
      { r with lineages := (r.lineages.erase (r.oldestKey ω)).insert key st } := by
  simp only [commit]
  rw [if_pos ⟨hnone, hlen⟩]

variable {d : Delivery}

include hf in
theorem deliver_duplicate (hd : d.envelope = f.sealed payload) (hseq : (r.state f.lineage).sequence = f.sequence)
    (hfp : (r.state f.lineage).fingerprint = f.fingerprint payload) :
    r.deliver d =
      ({ r.ticked with lineages := r.lineages.insert f.lineage { r.state f.lineage with lastUsed := r.clock + 1 } },
        .duplicate) := by
  rw [deliver, hd, prepare_duplicate hf payload r d.limit hseq hfp]

include hf in
theorem deliver_gap (hd : d.envelope = f.sealed payload) (hne : f.sequence ≠ (r.state f.lineage).sequence)
    (hnext : f.sequence ≠ (r.state f.lineage).sequence + 1) : r.deliver d = (r.ticked, .rejected .gap) := by
  rw [deliver, hd, prepare_gap hf payload r d.limit hne hnext]

include hf in
theorem deliver_fresh (hd : d.envelope = f.sealed payload) (happlies : d.applies = true)
    (hnext : f.sequence = (r.state f.lineage).sequence + 1) (hc : Continues f (r.state f.lineage).checkpoint) :
    r.deliver d =
      (r.ticked.commit d.order (.fresh f.lineage (f.receivedState payload (r.clock + 1)) (effectiveLimit d.limit)),
        .accepted f.lineage f.sequence) := by
  rw [deliver, hd, prepare_next hf payload r d.limit hnext hc]
  simp only [happlies, if_true]
  rfl

end FrameReceiver

end AsapCollector
