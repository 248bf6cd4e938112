import AsapCollector.Frame.Protocol
import AsapCollector.Theorems.Frame.Seal

/-! The sequence of a lineage only grows, so a frame is applied twice only if its lineage was dropped in between. -/

namespace AsapCollector.FrameReceiver

open GoMap AList

theorem parseRequiredUint_ne_zero {attrs : GoMap Bytes Bytes} {name : Bytes} {n : UInt64}
    (h : parseRequiredUint attrs name = .ok n) : n ≠ 0 := by
  unfold parseRequiredUint at h
  split at h
  · cases h
  · split at h
    · cases h
    · next hn => exact Except.ok.inj h ▸ hn

theorem parseHeader_sequence_ne_zero {env : FramedEnvelope} {h : FrameHeader} (hh : parseHeader env = .ok h) :
    h.sequence ≠ 0 := by
  simp only [parseHeader, bind_eq_ok] at hh
  obtain ⟨_, -, _, -, _, -, sequence, hseq, hh⟩ := hh
  split at hh
  · cases hh
  split at hh
  · cases hh
  rw [← Except.ok.inj hh]
  exact parseRequiredUint_ne_zero hseq

variable (r : FrameReceiver)

/-- There is no room for a new lineage. -/
def Full (key : FrameLineageKey) (limit : UInt64) : Prop :=
  r.lineages.lookup key = none ∧ (effectiveLimit limit).toNat ≤ r.lineages.len

inductive Effect (r : FrameReceiver) (d : Delivery) : FrameReceiver → Outcome → Prop
  /-- The envelope is not framed, is rejected or is not applied: no entry changes. -/
  | idle {r' : FrameReceiver} {o : Outcome} (entries : r'.lineages = r.lineages)
      (out : ∀ key sequence, o ≠ .accepted key sequence) : Effect r d r' o
  /-- A duplicate renews its lineage's use. -/
  | duplicate {r' : FrameReceiver} {key : FrameLineageKey} (use : UInt64) (held : (r.state key).sequence ≠ 0)
      (entries : r'.lineages = r.lineages.insert key { r.state key with lastUsed := use }) :
      Effect r d r' .duplicate
  /-- A frame is accepted in its lineage, for which another one is dropped when the receiver is at its limit. -/
  | accepted {r' : FrameReceiver} {key : FrameLineageKey} {st : ReceivedFrameState}
      {base : GoMap FrameLineageKey ReceivedFrameState}
      (header : parseHeader d.envelope = .ok ⟨key, st.sequence, st.fingerprint⟩)
      (next : st.sequence = (r.state key).sequence + 1) (valid : st.sequence ≠ 0)
      (kept : base = r.lineages ∨ r.Full key d.limit ∧ ∃ old, base = r.lineages.erase old)
      (entries : r'.lineages = base.insert key st) : Effect r d r' (.accepted key st.sequence)

theorem prepareLocked_effect (d : Delivery) {h : FrameHeader}
    (hparse : parseHeader d.envelope = .ok h)
    (hprep : r.prepare d.envelope d.limit = r.prepareLocked d.envelope.frameAttributes h d.limit) :
    Effect r d (r.deliver d).1 (r.deliver d).2 := by
  have hseq := parseHeader_sequence_ne_zero hparse
  unfold deliver
  rw [hprep, prepareLocked]
  simp only [← ticked.eq_def, ticked_state]
  by_cases hheld : h.sequence = (r.state h.key).sequence ∧ h.sequence ≠ 0
  · rw [if_pos hheld]
    by_cases hfp : (r.state h.key).fingerprint ≠ h.fingerprint
    · rw [if_pos hfp]
      exact .idle rfl fun _ _ => by simp
    · rw [if_neg hfp]
      exact @Effect.duplicate r d _ h.key r.ticked.clock (hheld.1 ▸ hheld.2) rfl
  · rw [if_neg hheld]
    by_cases hgap : h.sequence ≠ (r.state h.key).sequence + 1
    · rw [if_pos hgap]
      exact .idle rfl fun _ _ => by simp
    · rw [if_neg hgap]
      cases nextCheckpoint d.envelope.frameAttributes (r.state h.key).checkpoint with
      | error e => exact .idle rfl fun _ _ => by simp
      | ok checkpoint =>
        simp only
        by_cases happlies : d.applies = true
        · rw [if_pos happlies]
          by_cases hfull : r.Full h.key d.limit
          · exact @Effect.accepted r d _ h.key ⟨h.sequence, checkpoint, h.fingerprint, r.ticked.clock⟩ _ hparse
              (not_not.mp hgap) hseq (.inr ⟨hfull, r.ticked.oldestKey d.order, rfl⟩)
              (congrArg lineages (commit_evicts (r := r.ticked) hfull.1 hfull.2 _ _))
          · exact @Effect.accepted r d _ h.key ⟨h.sequence, checkpoint, h.fingerprint, r.ticked.clock⟩ _ hparse
              (not_not.mp hgap) hseq (.inl rfl) (congrArg lineages
                (commit_fresh (r := r.ticked) fun hnone => Nat.not_le.mp fun hlen => hfull ⟨hnone, hlen⟩))
        · rw [if_neg happlies]
          exact .idle rfl fun _ _ => by simp

theorem deliver_effect (d : Delivery) : Effect r d (r.deliver d).1 (r.deliver d).2 := by
  by_cases hlen : d.envelope.frameAttributes.len = 0
  · have hprep : r.prepare d.envelope d.limit = (r, .ok .unframed) := by rw [prepare, if_pos hlen]
    unfold deliver
    rw [hprep]
    exact .idle rfl fun _ _ => by simp
  · cases hparse : parseHeader d.envelope with
    | error e =>
      have hprep : r.prepare d.envelope d.limit = (r, .error e) := by rw [prepare, if_neg hlen, hparse]
      unfold deliver
      rw [hprep]
      exact .idle rfl fun _ _ => by simp
    | ok h =>
      exact prepareLocked_effect r d hparse (by rw [prepare, if_neg hlen, hparse])

/-- A delivery leaves the sequence of a lineage as it is, forgets it, or moves it on to the frame
the envelope holds. -/
theorem deliver_sequence (d : Delivery) (key : FrameLineageKey) :
    ((r.deliver d).1.state key).sequence = (r.state key).sequence ∨
      ((r.deliver d).1.state key).sequence = 0 ∨
      ∃ fingerprint, parseHeader d.envelope = .ok ⟨key, ((r.deliver d).1.state key).sequence, fingerprint⟩ ∧
        ((r.deliver d).1.state key).sequence = (r.state key).sequence + 1 := by
  have heffect := deliver_effect r d
  generalize (r.deliver d).2 = out at heffect
  cases heffect with
  | idle entries => exact .inl (by rw [state, entries, ← state])
  | @duplicate key' use _ entries =>
    left
    by_cases hkey : key = key'
    · subst hkey
      rw [state, entries, get_insert_self]
    · rw [state, entries, get_insert_of_ne hkey, ← state]
  | @accepted key' st _ header next _ kept entries =>
    by_cases hkey : key = key'
    · subst hkey
      rw [state, entries, get_insert_self]
      exact .inr (.inr ⟨st.fingerprint, header, next⟩)
    · rw [state, entries, get_insert_of_ne hkey]
      rcases kept with rfl | ⟨-, old, rfl⟩
      · exact .inl rfl
      by_cases hold : key = old
      · subst hold
        exact .inr (.inl (by rw [get_of_lookup_none (lookup_erase _ _)]))
      · exact .inl (by rw [GoMap.get, AList.lookup_erase_ne hold, ← GoMap.get, ← state])

theorem lt_of_next {a b : UInt64} (h : b = a + 1) (hb : b ≠ 0) : a.toNat < b.toNat := by
  have hne : b.toNat ≠ 0 := fun h0 => hb (UInt64.toNat_inj.mp h0)
  have hadd : b.toNat = (a.toNat + 1) % 2 ^ 64 := by rw [h, UInt64.toNat_add]; rfl
  have := a.toNat_lt
  omega

variable {key : FrameLineageKey}

theorem accepted_entry {r : FrameReceiver} {d : Delivery} {sequence : UInt64}
    (h : (r.deliver d).2 = .accepted key sequence) :
    (r.state key).sequence.toNat < sequence.toNat ∧
      ∃ st, (r.deliver d).1.lineages.lookup key = some st ∧ st.sequence = sequence := by
  have heffect := deliver_effect r d
  rw [h] at heffect
  cases heffect with
  | idle _ out => exact absurd rfl (out key sequence)
  | accepted _ next valid _ entries =>
    exact ⟨lt_of_next next valid, _, by rw [entries, lookup_insert], rfl⟩

/-- The delivery drops the entry of the lineage: it has one before and none after, the delivered
frame being accepted in a new lineage while the receiver is at its limit. -/
structure Evicts (r : FrameReceiver) (d : Delivery) (key : FrameLineageKey) : Prop where
  before : r.lineages.lookup key ≠ none
  after : (r.deliver d).1.lineages.lookup key = none
  cause : ∃ other sequence, (r.deliver d).2 = .accepted other sequence ∧ other ≠ key ∧ r.Full other d.limit

theorem deliver_keeps {r : FrameReceiver} {st : ReceivedFrameState} (h : r.lineages.lookup key = some st)
    (d : Delivery) : (∃ st', (r.deliver d).1.lineages.lookup key = some st' ∧ st.sequence.toNat ≤ st'.sequence.toNat) ∨
      Evicts r d key := by
  have hstate : r.state key = st := get_of_lookup h
  have heffect := deliver_effect r d
  generalize hr' : (r.deliver d).1 = r' at heffect
  generalize hout : (r.deliver d).2 = out at heffect
  cases heffect with
  | idle entries => exact .inl ⟨st, by rw [entries, h], Nat.le_refl _⟩
  | @duplicate key' use _ entries =>
    by_cases hkey : key = key'
    · subst hkey
      exact .inl ⟨_, by rw [entries, lookup_insert], by rw [hstate]⟩
    · exact .inl ⟨st, by rw [entries, lookup_insert_ne hkey, h], Nat.le_refl _⟩
  | @accepted key' st' _ _ next valid kept entries =>
    by_cases hkey : key = key'
    · subst hkey
      rw [hstate] at next
      exact .inl ⟨st', by rw [entries, lookup_insert], Nat.le_of_lt (lt_of_next next valid)⟩
    · have hlookup := entries ▸ lookup_insert_ne hkey
      rcases kept with rfl | ⟨full, old, rfl⟩
      · exact .inl ⟨st, hlookup.trans h, Nat.le_refl _⟩
      by_cases hold : key = old
      · subst hold
        refine .inr ⟨by simp [h], ?_, key', st'.sequence, hout, Ne.symm hkey, full⟩
        rw [hr', hlookup, lookup_erase]
      · exact .inl ⟨st, by rw [hlookup, lookup_erase_ne hold, h], Nat.le_refl _⟩

theorem receive_keeps : ∀ (ds : List Delivery) {r : FrameReceiver} {st : ReceivedFrameState},
    r.lineages.lookup key = some st →
    (∃ st', (r.receive ds).lineages.lookup key = some st' ∧ st.sequence.toNat ≤ st'.sequence.toNat) ∨
      ∃ before d after, ds = before ++ d :: after ∧ Evicts (r.receive before) d key := by
  intro ds
  induction ds with
  | nil => exact fun h => .inl ⟨_, h, Nat.le_refl _⟩
  | cons d ds ih =>
    intro r st h
    rcases deliver_keeps h d with ⟨st', h', hle⟩ | hevicts
    · rcases ih h' with ⟨st'', h'', hle'⟩ | ⟨before, e, after, rfl, hevicts⟩
      · exact .inl ⟨st'', h'', Nat.le_trans hle hle'⟩
      · exact .inr ⟨d :: before, e, after, rfl, hevicts⟩
    · exact .inr ⟨[], d, ds, rfl, hevicts⟩

/-- Two acceptances of one frame, in any run of deliveries from any state, have an eviction of its
lineage between them. -/
theorem accepted_twice_evicted {r : FrameReceiver} {first second : Delivery} {between : List Delivery}
    {key : FrameLineageKey} {sequence : UInt64} (hfirst : (r.deliver first).2 = .accepted key sequence)
    (hsecond : (((r.deliver first).1.receive between).deliver second).2 = .accepted key sequence) :
    ∃ before d after, between = before ++ d :: after ∧ Evicts ((r.deliver first).1.receive before) d key := by
  obtain ⟨-, st, hst, rfl⟩ := accepted_entry hfirst
  rcases receive_keeps between hst with ⟨st', hst', hle⟩ | hevicted
  · have hlt := (accepted_entry hsecond).1
    rw [show (state _ key) = st' from get_of_lookup hst'] at hlt
    omega
  · exact hevicted

/-- The first frame of a series, offered to a receiver with room for one lineage. -/
def sampleDelivery (series : Bytes) : Delivery := ⟨(sampleFrame series).sealed series, 1, true, RangeOrder.stored _⟩

theorem sampleDelivery_replayed :
    (({} : FrameReceiver).deliver (sampleDelivery (str "a"))).2 = .accepted (sampleLineage (str "a")) 1 ∧
      (((({} : FrameReceiver).deliver (sampleDelivery (str "a"))).1.receive [sampleDelivery (str "b")]).deliver
        (sampleDelivery (str "a"))).2 = .accepted (sampleLineage (str "a")) 1 := by
  have ha : (sampleFrame (str "a")).Addressed := by constructor <;> decide
  have hb : (sampleFrame (str "b")).Addressed := by constructor <;> decide
  have h₁ := deliver_fresh (d := sampleDelivery (str "a")) ha _ {} rfl rfl (by decide)
    (.of_full (by decide) (by decide))
  have h₂ := deliver_fresh (d := sampleDelivery (str "b")) hb _
    (({} : FrameReceiver).deliver (sampleDelivery (str "a"))).1 rfl rfl (by rw [h₁]; decide)
    (.of_full (by decide) (by decide))
  have h₃ := deliver_fresh (d := sampleDelivery (str "a")) ha _
    ((({} : FrameReceiver).deliver (sampleDelivery (str "a"))).1.receive [sampleDelivery (str "b")]) rfl rfl
    (by rw [receive, receive, h₂, h₁]; decide) (.of_full (by decide) (by decide))
  exact ⟨congrArg Prod.snd h₁, congrArg Prod.snd h₃⟩

/-- Two lineages at a receiver with room for one: the replay of the first frame is accepted again,
because the second lineage took its place. -/
theorem replay_accepted_after_eviction :
    ¬ ∀ (ds : List Delivery) (d e : Delivery) (key : FrameLineageKey) (sequence : UInt64),
      (({} : FrameReceiver).deliver d).2 = .accepted key sequence →
      (((({} : FrameReceiver).deliver d).1.receive ds).deliver e).2 ≠ .accepted key sequence :=
  fun h => h [sampleDelivery (str "b")] _ _ _ _ sampleDelivery_replayed.1 sampleDelivery_replayed.2

theorem accepted_twice_evicted_sample :
    ∃ before d after, [sampleDelivery (str "b")] = before ++ d :: after ∧
      Evicts ((({} : FrameReceiver).deliver (sampleDelivery (str "a"))).1.receive before) d (sampleLineage (str "a")) :=
  @accepted_twice_evicted {} (sampleDelivery (str "a")) (sampleDelivery (str "a")) [sampleDelivery (str "b")] _ _
    sampleDelivery_replayed.1 sampleDelivery_replayed.2

/-- The number of the frame, if it is accepted for the lineage. -/
def Outcome.numberIn (key : FrameLineageKey) : Outcome → Option Nat
  | .accepted k sequence => if k = key then some sequence.toNat else none
  | _ => none

/-- The numbers of the frames accepted for a lineage, in the order of acceptance. -/
def numbersIn (key : FrameLineageKey) : FrameReceiver → List Delivery → List Nat
  | _, [] => []
  | r, d :: ds => ((r.deliver d).2.numberIn key).toList ++ numbersIn key (r.deliver d).1 ds

/-- A delivery leaves the sequence of a lineage alone, forgets it, or moves it on by one to the number it accepts. -/
theorem deliver_number (r : FrameReceiver) (d : Delivery) :
    (r.deliver d).2.numberIn key = none ∧
      (((r.deliver d).1.state key).sequence = (r.state key).sequence ∨ ((r.deliver d).1.state key).sequence = 0) ∨
    (r.deliver d).2.numberIn key = some ((r.state key).sequence.toNat + 1) ∧
      ((r.deliver d).1.state key).sequence.toNat = (r.state key).sequence.toNat + 1 := by
  have heffect := deliver_effect r d
  generalize (r.deliver d).1 = r', (r.deliver d).2 = o at heffect
  cases heffect with
  | idle entries out =>
    refine .inl ⟨?_, .inl (by rw [state, entries, ← state])⟩
    cases o with
    | accepted k sequence => exact absurd rfl (out k sequence)
    | _ => rfl
  | @duplicate key' use _ entries =>
    refine .inl ⟨rfl, .inl ?_⟩
    rw [state, entries]
    by_cases hkey : key = key'
    · rw [hkey, get_insert_self]
    · rw [get_insert_of_ne hkey, ← state]
  | @accepted key' st base _ next valid kept entries =>
    rw [state, entries]
    by_cases hkey : key = key'
    · subst hkey
      have hlt := lt_of_next next valid
      have hle : st.sequence.toNat ≤ (r.state key).sequence.toNat + 1 := by
        rw [next, UInt64.toNat_add]
        exact Nat.mod_le _ _
      rw [get_insert_self, ← Nat.le_antisymm hle hlt]
      exact .inr ⟨if_pos rfl, rfl⟩
    · refine .inl ⟨if_neg (Ne.symm hkey), ?_⟩
      rw [get_insert_of_ne hkey]
      rcases kept with rfl | ⟨-, old, rfl⟩
      · exact .inl rfl
      by_cases hold : key = old
      · exact .inr (by rw [hold, get_of_lookup_none (lookup_erase _ _)])
      · exact .inl (by rw [GoMap.get, lookup_erase_ne hold, ← GoMap.get, ← state])

/-- Of whatever envelopes arrive at a receiver in any state, forged ones included, each that is accepted for a lineage
is numbered one more than the one accepted before it, or one. -/
theorem accepted_numbers_consecutive (r : FrameReceiver) (key : FrameLineageKey) (ds : List Delivery) :
    ((r.state key).sequence.toNat :: numbersIn key r ds).IsChain fun m n => n = m + 1 ∨ n = 1 := by
  -- the sequence held is that of the frame accepted last, unless the lineage has been dropped
  have hrun : ∀ (last : Nat) (r : FrameReceiver), (r.state key).sequence.toNat = last ∨
      (r.state key).sequence.toNat = 0 → (last :: numbersIn key r ds).IsChain fun m n => n = m + 1 ∨ n = 1 := by
    induction ds with
    | nil => exact fun last _ _ => .singleton last
    | cons d ds ih =>
      intro last r hlast
      rw [numbersIn]
      rcases deliver_number r d with ⟨hnone, hseq⟩ | ⟨hsome, hseq⟩
      · rw [hnone]
        refine ih last _ ?_
        rcases hseq with hseq | hseq
        · rwa [hseq]
        · exact .inr (by rw [hseq]; rfl)
      · rw [hsome]
        refine .cons_cons ?_ (ih _ _ (.inl hseq))
        exact hlast.imp (fun h => by rw [h]) fun h => by rw [h]
  exact hrun _ r (.inl rfl)

end AsapCollector.FrameReceiver
