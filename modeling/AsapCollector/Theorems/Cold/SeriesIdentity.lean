import AsapCollector.Theorems.Cold.FragmentRun

/-! `getSeries` escapes nothing. Two or more attributes can always be read as one whose value spells out the others; one
attribute has a single reading unless a separator is in it. -/

namespace AsapCollector

open List IntChunk
namespace SeriesId

theorem key_eq (id : SeriesId) : id.key = id.metricName ++ 0xff :: spellPairs 61 59 id.attrs.entries := by
  change id.metricName ++ 0xff :: (id.attrs.entries.flatMap fun e => e.1 ++ (str "=" ++ (e.2 ++ str ";"))) = _
  rfl

/-- No attribute, or one that is free of the separators which could end its name elsewhere. -/
def Singular (id : SeriesId) : Prop :=
  id.attrs.entries = [] ∨ ∃ k v, id.attrs.entries = [(k, v)] ∧ 0xff ∉ id.metricName ∧ 0xff ∉ k ∧ 61 ∉ k ∧ 61 ∉ v

theorem exists_spellPairs {es : List (Bytes × Bytes)} (hne : es ≠ []) : ∃ text, spellPairs 61 59 es = text ++ [59] := by
  induction es with
  | nil => exact absurd rfl hne
  | cons e es ih =>
    rcases eq_or_ne es [] with rfl | hes
    · exact ⟨e.1 ++ 61 :: e.2, by simp⟩
    · obtain ⟨text, htext⟩ := ih hes
      exact ⟨e.1 ++ 61 :: (e.2 ++ 59 :: text), by simp [htext]⟩

theorem ends_apart {name name' : Bytes} {es : List (Bytes × Bytes)} (hne : es ≠ []) :
    name ++ 0xff :: spellPairs 61 59 es ≠ name' ++ [0xff] := by
  obtain ⟨text, htext⟩ := exists_spellPairs hne
  rw [htext, ← cons_append, ← append_assoc]
  exact fun h => absurd (append_inj' h rfl).2 (by decide)

def single (metricName k v : Bytes) : SeriesId := ⟨metricName, ⟨[(k, v)], pairwise_singleton _ _⟩⟩

@[simp] theorem key_single (metricName k v : Bytes) :
    (single metricName k v).key = metricName ++ 0xff :: (k ++ 61 :: (v ++ [59])) := by
  rw [key_eq, single, spellPairs_cons]
  rfl

theorem append_cons_eq {a : UInt8} {x y z w : Bytes} (hx : a ∉ x) (h : x ++ a :: y = z ++ a :: w) :
    (z = x ∧ w = y) ∨ ∃ b, z = x ++ a :: b ∧ y = b ++ a :: w := by
  rcases append_eq_append_iff.mp h with ⟨c, rfl, hc⟩ | ⟨c, rfl, hc⟩
  · rcases c with _ | ⟨_, c⟩
    · simpa [eq_comm] using hc
    · obtain ⟨rfl, hy⟩ := cons.inj hc
      exact .inr ⟨c, rfl, hy⟩
  · rcases c with _ | ⟨_, c⟩
    · simpa using hc
    · obtain ⟨rfl, -⟩ := cons.inj hc
      exact absurd (by simp) hx

theorem Singular.eq_of_key {id other : SeriesId} (h : id.Singular) (hkey : other.key = id.key) : other = id := by
  obtain ⟨name, ⟨es, hes⟩⟩ := id
  obtain ⟨name', ⟨es', hes'⟩⟩ := other
  simp only [key_eq] at hkey
  rcases h with rfl | ⟨k, v, rfl, hname, hk, hkeq, hveq⟩
  · -- the key ends in the separator of the metric name
    rcases eq_or_ne es' [] with rfl | hne
    · obtain rfl := append_cancel_right hkey
      rfl
    · exact absurd hkey (ends_apart hne)
  · rcases es' with _ | ⟨⟨k', v'⟩, es'⟩
    · exact absurd hkey.symm (ends_apart (cons_ne_nil _ _))
    · rw [spellPairs_cons, spellPairs_cons] at hkey
      have hvalue : (61 : UInt8) ∉ v ++ 59 :: spellPairs 61 59 [] := by simp [hveq]
      rcases append_cons_eq hname hkey.symm with ⟨rfl, htext⟩ | ⟨b, rfl, htext⟩
      · rcases append_cons_eq hkeq htext.symm with ⟨rfl, hv⟩ | ⟨c, -, hc⟩
        · rcases es' with _ | ⟨e, es'⟩
          · obtain rfl := append_cancel_right hv
            rfl
          · refine absurd (hv ▸ ?_) hvalue
            simp
        · exact absurd (hc ▸ by simp) hvalue
      · have hcut : k ++ 61 :: (v ++ 59 :: spellPairs 61 59 []) = (b ++ 0xff :: k') ++ 61 ::
            (v' ++ 59 :: spellPairs 61 59 es') := by
          rw [htext, append_assoc]
          rfl
        rcases append_cons_eq hkeq hcut with ⟨rfl, -⟩ | ⟨c, -, hc⟩
        · exact absurd (by simp) hk
        · exact absurd (hc ▸ by simp) hvalue

/-- The name and the attributes can be cut at the first separators. -/
def Separable (id : SeriesId) : Prop := 0xff ∉ id.metricName ∧ ∀ e ∈ id.attrs.entries, 61 ∉ e.1 ∧ 59 ∉ e.2

theorem Separable.eq_of_key {id other : SeriesId} (h : id.Separable) (h' : other.Separable)
    (hkey : other.key = id.key) : other = id := by
  obtain ⟨name, ⟨es, hes⟩⟩ := id
  obtain ⟨name', ⟨es', hes'⟩⟩ := other
  rw [key_eq, key_eq] at hkey
  obtain ⟨hname, htext⟩ := (append_separator_inj h'.1 h.1).mp hkey
  have hentries := spellPairs_inj h'.2 h.2 htext
  cases hname
  cases hentries
  rfl

theorem exists_same_key {id : SeriesId} (h : ¬id.Singular) : ∃ other, other ≠ id ∧ other.key = id.key := by
  obtain ⟨name, ⟨es, hes⟩⟩ := id
  rcases es with _ | ⟨⟨k, v⟩, _ | ⟨e, es⟩⟩
  · exact absurd (.inl rfl) h
  · simp only [Singular, not_or, not_exists, not_and] at h
    change ∃ other, other ≠ single name k v ∧ other.key = (single name k v).key
    by_cases hname : 0xff ∈ name
    · obtain ⟨a, b, rfl⟩ := append_of_mem hname
      exact ⟨single a (b ++ 0xff :: k) v, by simp [single], by simp⟩
    by_cases hk : 0xff ∈ k
    · obtain ⟨a, b, rfl⟩ := append_of_mem hk
      exact ⟨single (name ++ 0xff :: a) b v, by simp [single], by simp⟩
    by_cases hkeq : 61 ∈ k
    · obtain ⟨a, b, rfl⟩ := append_of_mem hkeq
      exact ⟨single name a (b ++ 61 :: v), by simp [single], by simp⟩
    · obtain ⟨a, b, rfl⟩ := append_of_mem (not_not.mp (h.2 k v rfl hname hk hkeq))
      exact ⟨single name (k ++ 61 :: a) b, by simp [single], by simp⟩
  · obtain ⟨text, htext⟩ := exists_spellPairs (cons_ne_nil e es)
    refine ⟨single name k (v ++ 59 :: text), by simp [single], ?_⟩
    rw [key_single, key_eq, spellPairs_cons, htext]
    simp

end SeriesId

namespace FragmentRun

open StreamingFragmentEncoder
open ColdShard (sampleAt)

variable {xor : XorChunk} {opts : StreamingFragmentOptions} {calls : List FragmentCall} {f : Fragment} {p : Sample}

theorem exists_accepted (hxor : xor.LosslessUpTo (new opts).samplesPerChk)
    (hf : f ∈ (run xor opts calls).produced) (hp : p ∈ f.samples xor) :
    f.toSeriesId ∈ (run xor opts calls).accepted.map TSDBSample.toSeriesId ∧
      ∃ s ∈ (run xor opts calls).accepted, s.toSeriesId.key = f.toSeriesId.key ∧ s.point = p := by
  have hsound : (run xor opts calls).Sound xor False _ := sound_run hxor fun hs => hs.elim
  have hshipped : p ∈ shippedFor xor f.toSeriesId.key (run xor opts calls).produced :=
    mem_flatMap.mpr ⟨f, mem_filter.mpr ⟨hf, by simp⟩, hp⟩
  have haccepted := (hsound.conserved f.toSeriesId.key).mem_iff.mpr (mem_append_right _ (mem_append_left _ hshipped))
  obtain ⟨d, hd, rfl⟩ := mem_map.mp haccepted
  obtain ⟨hmem, hkey⟩ := mem_filter.mp hd
  obtain ⟨s, hs, rfl⟩ := mem_map.mp hmem
  exact ⟨(Inv.described hsound f hf).2, s, hs, of_decide_eq_true hkey, rfl⟩

/-- A series has a key of its own exactly when it has no attribute or one without separators, and what a fragment
of such a series holds was added to the series. In a run whose series all can be cut at the separators, whatever their
number of attributes, this is so for the fragments of every series. -/
theorem series_told_apart (xor : XorChunk) (opts : StreamingFragmentOptions)
    (hxor : xor.LosslessUpTo (new opts).samplesPerChk) (id : SeriesId) (calls : List FragmentCall) :
    ((∀ other : SeriesId, other ≠ id → other.key ≠ id.key) ↔ id.Singular) ∧
      (id.Singular → ∀ f ∈ (run xor opts calls).produced, f.toSeriesId = id → ∀ p ∈ f.samples xor,
        ∃ s ∈ (run xor opts calls).accepted, s.toSeriesId = id ∧ s.point = p) ∧
      ((∀ s ∈ (run xor opts calls).accepted, s.toSeriesId.Separable) → ∀ f ∈ (run xor opts calls).produced,
        ∀ p ∈ f.samples xor, ∃ s ∈ (run xor opts calls).accepted, s.toSeriesId = f.toSeriesId ∧ s.point = p) := by
  refine ⟨⟨fun h => ?_, fun h other hne hkey => hne (h.eq_of_key hkey)⟩, ?_, ?_⟩
  · by_contra hnot
    obtain ⟨other, hne, hkey⟩ := SeriesId.exists_same_key hnot
    exact h other hne hkey
  · intro hid f hf hfid p hp
    obtain ⟨-, s, hs, hkey, hpoint⟩ := exists_accepted hxor hf hp
    exact ⟨s, hs, hid.eq_of_key (hfid ▸ hkey), hpoint⟩
  · intro hall f hf p hp
    obtain ⟨hknown, s, hs, hkey, hpoint⟩ := exists_accepted hxor hf hp
    obtain ⟨s', hs', hid⟩ := mem_map.mp hknown
    exact ⟨s, hs, (hid ▸ hall s' hs' : f.toSeriesId.Separable).eq_of_key (hall s hs) hkey, hpoint⟩

def twoLabels : TSDBSample := { sampleAt "a" 100 with attrs := .ofList [(str "a", str "1"), (str "b", str "2")] }

def spelledOut : TSDBSample := { sampleAt "a" 120 with attrs := .ofList [(str "a", str "1;b=2")] }

/-- A series with one attribute, and one with two beside it. -/
theorem series_told_apart_host :
    (sampleAt "a" 0).toSeriesId.Singular ∧
      (∀ other : SeriesId, other ≠ (sampleAt "a" 0).toSeriesId → other.key ≠ (sampleAt "a" 0).toSeriesId.key) ∧
      let r := run plainChunk tenMillis (window [sampleAt "a" 100, twoLabels])
      ∀ f ∈ r.produced, ∀ p ∈ f.samples plainChunk, ∃ s ∈ r.accepted, s.toSeriesId = f.toSeriesId ∧ s.point = p := by
  have hsingular : (sampleAt "a" 0).toSeriesId.Singular := .inr ⟨str "host", str "a", by decide +kernel⟩
  obtain ⟨hown, -, hall⟩ := series_told_apart plainChunk tenMillis (plainChunk_lossless.upTo (by decide))
    (sampleAt "a" 0).toSeriesId (window [sampleAt "a" 100, twoLabels])
  refine ⟨hsingular, hown.mpr hsingular, hall ?_⟩
  unfold SeriesId.Separable
  decide +kernel

/-- Two attributes, and one whose value spells out both: the samples of both series are in one fragment. -/
theorem series_share_a_fragment :
    twoLabels.toSeriesId ≠ spelledOut.toSeriesId ∧ twoLabels.toSeriesId.key = spelledOut.toSeriesId.key ∧
      ((run plainChunk tenMillis (window [twoLabels, spelledOut])).returned.map fun f => (f.attrs, f.count)) =
        [(twoLabels.attrs, 2)] := by
  decide +kernel

end FragmentRun

end AsapCollector
