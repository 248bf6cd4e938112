import AsapCollector.Theorems.Frame.Sender

/-! As long as each lineage's frames are offered in the order of emission and the lineages stay within the receiver's
limit, the receiver holds for every lineage the frame offered last (`Holds`). -/

namespace AsapCollector.Channel

open List Offer

open FrameReceiver FrameSequencer

variable {frames : List SummaryFrameIdentity} {payload : Fin frames.length → Bytes}

/-- The place of the frame of a lineage that was offered last, `seen` having the latest offer
first. -/
def lastOffered (frames : List SummaryFrameIdentity) (seen : List (Fin frames.length)) (key : FrameLineageKey) :
    Option (Fin frames.length) := seen.find? fun i => lineageAt frames i = key

/-- The entry a lineage has while its frame at place `i` is the one received last. -/
structure Entry (frames : List SummaryFrameIdentity) (payload : Fin frames.length → Bytes) (i : Fin frames.length)
    (st : ReceivedFrameState) : Prop where
  sequence : st.sequence = (frames.get i).sequence
  checkpoint : st.checkpoint = (frames.get i).checkpoint
  checkpoint_ne : st.checkpoint ≠ []
  fingerprint : st.fingerprint = (frames.get i).fingerprint (payload i)

/-- What the receiver knows after the offers `seen`, none of which made it drop a lineage. -/
structure Holds (frames : List SummaryFrameIdentity) (payload : Fin frames.length → Bytes)
    (seen : List (Fin frames.length)) (r : FrameReceiver) : Prop where
  absent : ∀ {key}, lastOffered frames seen key = none → r.lineages.lookup key = none
  present : ∀ {key i}, lastOffered frames seen key = some i →
    ∃ st, r.lineages.lookup key = some st ∧ Entry frames payload i st
  latest : ∀ {key i}, lastOffered frames seen key = some i → ∀ j ∈ seen, lineageAt frames j = key → j ≤ i

theorem lastOffered_cons_self (seen : List (Fin frames.length)) (i : Fin frames.length) :
    lastOffered frames (i :: seen) (lineageAt frames i) = some i := by
  simp [lastOffered]

variable {seen : List (Fin frames.length)} {key : FrameLineageKey} {i : Fin frames.length}

theorem lastOffered_cons_of_ne (h : lineageAt frames i ≠ key) :
    lastOffered frames (i :: seen) key = lastOffered frames seen key := by
  simp [lastOffered, h]

theorem lastOffered_some (h : lastOffered frames seen key = some i) : i ∈ seen ∧ lineageAt frames i = key :=
  ⟨mem_of_find?_eq_some h, by simpa using find?_some h⟩

theorem lastOffered_none (h : lastOffered frames seen key = none) : ∀ j ∈ seen, lineageAt frames j ≠ key :=
  fun j hj => by simpa using find?_eq_none.mp h j hj

theorem Holds.cons {r r' : FrameReceiver} {st : ReceivedFrameState} (h : Holds frames payload seen r)
    (hlater : ∀ j ∈ seen, lineageAt frames j = lineageAt frames i → j ≤ i)
    (hself : r'.lineages.lookup (lineageAt frames i) = some st) (hentry : Entry frames payload i st)
    (hothers : ∀ key, key ≠ lineageAt frames i → r'.lineages.lookup key = r.lineages.lookup key) :
    Holds frames payload (i :: seen) r' where
  absent {key} hkey := by
    have hne : lineageAt frames i ≠ key := lastOffered_none hkey i mem_cons_self
    rw [hothers key hne.symm]
    exact h.absent (lastOffered_cons_of_ne hne ▸ hkey)
  present {key j} hkey := by
    by_cases hne : lineageAt frames i = key
    · subst hne
      rw [lastOffered_cons_self] at hkey
      exact ⟨st, hself, Option.some.inj hkey ▸ hentry⟩
    · rw [hothers key (Ne.symm hne)]
      exact h.present (lastOffered_cons_of_ne hne ▸ hkey)
  latest {key j} hkey k hk hlin := by
    by_cases hne : lineageAt frames i = key
    · subst hne
      rw [lastOffered_cons_self] at hkey
      obtain rfl := Option.some.inj hkey
      rcases mem_cons.mp hk with rfl | hk
      · exact le_refl _
      · exact hlater k hk hlin
    · rw [lastOffered_cons_of_ne hne] at hkey
      rcases mem_cons.mp hk with rfl | hk
      · exact absurd hlin hne
      · exact h.latest hkey k hk hlin

theorem holds_empty : Holds frames payload [] {} where
  absent _ := rfl
  present hkey := by simp [lastOffered] at hkey
  latest hkey := by simp [lastOffered] at hkey

variable {r : FrameReceiver}

/-- A lineage that was offered last at the place before `i` in emission order: its frame there is
the predecessor of the frame at `i`. -/
theorem lastBefore_of_lastOffered (h : Holds frames payload seen r) {i m : Fin frames.length} (hnew : i ∉ seen)
    (hprev : ∀ j < i, lineageAt frames j = lineageAt frames i → j ∈ seen)
    (hlater : ∀ j ∈ seen, lineageAt frames j = lineageAt frames i → j ≤ i)
    (hm : lastOffered frames seen (lineageAt frames i) = some m) :
    LastBefore frames (lineageAt frames i) i m (frames.get m) := by
  obtain ⟨hmem, hlineage⟩ := lastOffered_some hm
  have hle : m ≤ i := hlater m hmem hlineage
  have hne : m ≠ i := fun heq => hnew (heq ▸ hmem)
  refine ⟨by omega, by simp, hlineage, fun k f hk hki hf hkey => ?_⟩
  obtain ⟨hlen, hget⟩ := List.getElem?_eq_some_iff.mp hf
  have hkey' : lineageAt frames ⟨k, hlen⟩ = lineageAt frames i := by
    rw [lineageAt, get_eq_getElem, hget, hkey]
  have hseen : (⟨k, hlen⟩ : Fin frames.length) ∈ seen := hprev ⟨k, hlen⟩ hki hkey'
  have : (⟨k, hlen⟩ : Fin frames.length) ≤ m := h.latest hm _ hseen hkey'
  exact Nat.not_lt.mpr this hk

theorem state_of_lookup {st : ReceivedFrameState} (h : r.lineages.lookup key = some st) :
    r.state key = st := GoMap.get_of_lookup h

theorem state_of_lookup_none (h : r.lineages.lookup key = none) :
    r.state key = {} := GoMap.get_of_lookup_none h

theorem deliver_again (h : Holds frames payload seen r)
    {o : Offer frames.length} (hf : (frames.get o.index).Addressed) (hseen : o.index ∈ seen)
    (hlater : ∀ j ∈ seen, lineageAt frames j = lineageAt frames o.index → j ≤ o.index) :
    (r.deliver (delivery frames payload o)).2 = .duplicate ∧
      Holds frames payload (o.index :: seen) (r.deliver (delivery frames payload o)).1 := by
  obtain ⟨m, hm⟩ : ∃ m, lastOffered frames seen (lineageAt frames o.index) = some m := by
    cases hm : lastOffered frames seen (lineageAt frames o.index) with
    | none => exact absurd rfl (lastOffered_none hm o.index hseen)
    | some m => exact ⟨m, rfl⟩
  obtain rfl : m = o.index :=
    le_antisymm (hlater m (lastOffered_some hm).1 (lastOffered_some hm).2) (h.latest hm _ hseen rfl)
  obtain ⟨st, hst, hentry⟩ := h.present hm
  have hstate : r.state (frames.get o.index).lineage = st := state_of_lookup hst
  rw [deliver_duplicate hf (payload o.index) r rfl (by rw [hstate, hentry.sequence])
    (by rw [hstate, hentry.fingerprint]), hstate]
  exact ⟨rfl, h.cons hlater (AList.lookup_insert _) ⟨hentry.sequence, hentry.checkpoint, hentry.checkpoint_ne,
    hentry.fingerprint⟩ fun key hkey => AList.lookup_insert_ne hkey⟩

/-- A frame offered for the first time has the number its lineage is waiting for, and continues
the checkpoint in force. -/
theorem next_of_new (hchain : Chained frames) (h : Holds frames payload seen r) (hnew : i ∉ seen)
    (hprev : ∀ j < i, lineageAt frames j = lineageAt frames i → j ∈ seen)
    (hlater : ∀ j ∈ seen, lineageAt frames j = lineageAt frames i → j ≤ i) :
    (frames.get i).sequence = (r.state (lineageAt frames i)).sequence + 1 ∧
      Continues (frames.get i) (r.state (lineageAt frames i)).checkpoint := by
  have hget : frames[(i : Nat)]? = some (frames.get i) := by simp
  have placed := hchain i _ hget
  unfold Continues
  cases hm : lastOffered frames seen (lineageAt frames i) with
  | none =>
    have hfirst := hchain.of_first hget fun j g hj hg hlin => by
      obtain ⟨hlen, rfl⟩ := List.getElem?_eq_some_iff.mp hg
      exact lastOffered_none hm ⟨j, hlen⟩ (hprev ⟨j, hlen⟩ hj hlin) hlin
    rw [state_of_lookup_none (h.absent hm), hfirst.2]
    exact ⟨hfirst.1, placed.full hfirst.2⟩
  | some m =>
    obtain ⟨st, hst, hentry⟩ := h.present hm
    have hnext := placed.next (lastBefore_of_lastOffered h hnew hprev hlater hm)
    rw [state_of_lookup hst]
    refine ⟨by rw [hnext.1, hentry.sequence], ?_⟩
    cases hkind : (frames.get i).kind with
    | full => exact placed.full hkind
    | delta => exact ⟨hentry.checkpoint_ne, by rw [hnext.2 hkind, hentry.checkpoint]⟩

theorem Holds.len_le (h : Holds frames payload seen r) :
    r.lineages.len ≤ (seen.map (lineageAt frames)).dedup.length := by
  refine GoMap.len_le_of_keys_subset fun key hkey => ?_
  obtain ⟨st, hst⟩ := GoMap.lookup_of_mem_keys hkey
  cases hm : lastOffered frames seen key with
  | none => rw [h.absent hm] at hst; cases hst
  | some m => exact mem_map.mpr ⟨m, lastOffered_some hm⟩

theorem deliver_new (hchain : Chained frames) (h : Holds frames payload seen r) {o : Offer frames.length}
    (hf : (frames.get o.index).Addressed) (hnew : o.index ∉ seen)
    (hprev : ∀ j < o.index, lineageAt frames j = lineageAt frames o.index → j ∈ seen)
    (hlater : ∀ j ∈ seen, lineageAt frames j = lineageAt frames o.index → j ≤ o.index)
    (hlimit : ((o.index :: seen).map (lineageAt frames)).dedup.length ≤ (effectiveLimit o.limit).toNat) :
    (r.deliver (delivery frames payload o)).2 =
        .accepted (lineageAt frames o.index) (frames.get o.index).sequence ∧
      Holds frames payload (o.index :: seen) (r.deliver (delivery frames payload o)).1 := by
  obtain ⟨hseq, hcont⟩ := next_of_new hchain h hnew hprev hlater
  have hroom : r.lineages.lookup (lineageAt frames o.index) = none →
      r.lineages.len < (effectiveLimit o.limit).toNat := by
    intro hnone
    have hnotin : lineageAt frames o.index ∉ seen.map (lineageAt frames) := by
      intro hmem
      cases hm : lastOffered frames seen (lineageAt frames o.index) with
      | none =>
        obtain ⟨j, hj, hlin⟩ := mem_map.mp hmem
        exact lastOffered_none hm j hj hlin
      | some m =>
        obtain ⟨st, hst, -⟩ := h.present hm
        rw [hst] at hnone
        cases hnone
    have hlen := h.len_le
    rw [map_cons, dedup_cons_of_notMem hnotin, length_cons] at hlimit
    exact Nat.lt_of_le_of_lt hlen hlimit
  have hcheckpoint : (frames.get o.index).checkpoint ≠ [] := by
    unfold Continues at hcont
    unfold SummaryFrameIdentity.checkpoint
    cases hkind : (frames.get o.index).kind <;> simp_all
  have hcommit : (r.deliver (delivery frames payload o)).1 = _ :=
    (congrArg Prod.fst (deliver_fresh hf (payload o.index) r rfl rfl hseq hcont)).trans
      (commit_fresh (r := r.ticked) hroom)
  rw [hcommit, deliver_fresh hf (payload o.index) r rfl rfl hseq hcont]
  exact ⟨rfl, h.cons hlater (AList.lookup_insert _) ⟨rfl, rfl, hcheckpoint, rfl⟩ fun key hkey =>
    AList.lookup_insert_ne hkey⟩

/-- The outcome an offer should have after the places `seen` have been offered. -/
def expected (frames : List SummaryFrameIdentity) (seen : List (Fin frames.length)) (i : Fin frames.length) :
    Outcome :=
  if i ∈ seen then .duplicate else .accepted (lineageAt frames i) (frames.get i).sequence

theorem outcomes_eq_expected (hchain : Chained frames) (hf : ∀ i, (frames.get i).Addressed) :
    ∀ (offers : List (Offer frames.length)) (seen : List (Fin frames.length)) (r : FrameReceiver),
      Holds frames payload seen r → InOrder frames seen offers → WithinLimit frames seen offers →
      ∀ k o, offers[k]? = some o → (outcomes frames payload r offers)[k]? =
        some (expected frames (((offers.take k).map index).reverse ++ seen) o.index) := by
  intro offers
  induction offers with
  | nil => intro seen r _ _ _ k o ho; simp at ho
  | cons o os ih =>
    intro seen r h ⟨⟨hprev, hlater⟩, hord⟩ ⟨hlimit, hlim⟩ k o' ho'
    have hstep : (r.deliver (delivery frames payload o)).2 = expected frames seen o.index ∧
        Holds frames payload (o.index :: seen) (r.deliver (delivery frames payload o)).1 := by
      unfold expected
      by_cases hseen : o.index ∈ seen
      · rw [if_pos hseen]
        exact deliver_again h (hf _) hseen hlater
      · rw [if_neg hseen]
        exact deliver_new hchain h (hf _) hseen hprev hlater hlimit
    cases k with
    | zero =>
      obtain rfl : o = o' := by simpa using ho'
      simp [outcomes, hstep.1]
    | succ k =>
      have := ih _ _ hstep.2 hord hlim k o' (by simpa using ho')
      simpa [outcomes] using this

/-- While no lineage has more frames than a sequence number can count, the number of a frame is its
rank in its lineage. -/
theorem sequence_toNat (hchain : Chained frames)
    (hcount : ∀ key, frames.countP (fun f => f.lineage = key) < 2 ^ 64) {i : Nat} {f : SummaryFrameIdentity}
    (hf : frames[i]? = some f) :
    f.sequence.toNat = (frames.take i).countP (fun g => g.lineage = f.lineage) + 1 := by
  have hle : (frames.take i).countP (fun g => g.lineage = f.lineage) + 1 ≤
      frames.countP (fun g => g.lineage = f.lineage) := by
    have hsplit : frames.take (i + 1) = frames.take i ++ [f] := by rw [take_add_one, hf]; rfl
    have := (take_sublist (i + 1) frames).countP_le (p := fun g => g.lineage = f.lineage)
    rw [hsplit, countP_append] at this
    simpa using this
  rw [(hchain i f hf).rank, UInt64.toNat_ofNat']
  exact Nat.mod_eq_of_lt (Nat.lt_of_le_of_lt hle (hcount _))

theorem addressed_get (hchain : Chained frames)
    (hcount : ∀ key, frames.countP (fun f => f.lineage = key) < 2 ^ 64) (i : Fin frames.length) :
    (frames.get i).Addressed := by
  have hget : frames[(i : Nat)]? = some (frames.get i) := by simp
  refine (hchain i _ hget).named fun h0 => ?_
  have := sequence_toNat hchain hcount hget
  rw [h0] at this
  exact absurd this (by simp)

theorem index_mem_take {n : Nat} {offers : List (Offer n)} {k m : Nat} {o : Offer n} (ho : offers[k]? = some o)
    (hk : k < m) : o.index ∈ (offers.take m).map index :=
  mem_map_of_mem (mem_iff_getElem?.mpr ⟨k, by rw [getElem?_take_of_lt hk, ho]⟩)

theorem exists_first_offer {n : Nat} {offers : List (Offer n)} {i : Fin n} (hi : i ∈ offers.map index) :
    ∃ (k : Nat) (o : Offer n), offers[k]? = some o ∧ o.index = i ∧ i ∉ (offers.take k).map index := by
  have hex : ∃ k : Nat, ∃ o : Offer n, offers[k]? = some o ∧ o.index = i := by
    obtain ⟨o, ho, hindex⟩ := mem_map.mp hi
    obtain ⟨k, hk⟩ := mem_iff_getElem?.mp ho
    exact ⟨k, o, hk, hindex⟩
  obtain ⟨o, ho, hindex⟩ := Nat.find_spec hex
  refine ⟨Nat.find hex, o, ho, hindex, fun hmem => ?_⟩
  obtain ⟨o', ho', hindex'⟩ := mem_map.mp hmem
  obtain ⟨j, hj⟩ := mem_iff_getElem?.mp ho'
  rw [getElem?_take] at hj
  split at hj
  · next hlt => exact Nat.find_min hex hlt ⟨o', hj, hindex'⟩
  · cases hj

/-- Any run of calls to one sequencer, its frames offered to one receiver in the order of each
lineage with any number of repetitions: each frame is accepted when it is first offered and is a
duplicate from then on. In each lineage the frames are numbered 1, 2, 3, …, the first is full, and
a delta names the checkpoint of the latest full frame before it. -/
theorem frame_protocol_agreement {cs : List SequencerCall} (hcs : ∀ c ∈ cs, c.Planned)
    (hframes : frames = emitted {} cs)
    (hcount : ∀ key, frames.countP (fun f => f.lineage = key) < 2 ^ 64)
    (payload : Fin frames.length → Bytes) (offers : List (Offer frames.length))
    (hord : InOrder frames [] offers) (hlim : WithinLimit frames [] offers) :
    (∀ k o, offers[k]? = some o → (outcomes frames payload {} offers)[k]? =
      some (if o.index ∈ (offers.take k).map index then .duplicate
        else .accepted (lineageAt frames o.index) (frames.get o.index).sequence)) ∧
    (∀ i ∈ offers.map index, ∃! k : Nat, ∃ o : Offer frames.length, offers[k]? = some o ∧ o.index = i ∧
      (outcomes frames payload {} offers)[k]? = some (.accepted (lineageAt frames i) (frames.get i).sequence)) ∧
    (∀ i f, frames[i]? = some f →
      f.sequence.toNat = (frames.take i).countP (fun g => g.lineage = f.lineage) + 1 ∧
      ((∀ j g, j < i → frames[j]? = some g → g.lineage ≠ f.lineage) → f.kind = .full) ∧
      (f.kind = .delta → ∃ j g, j < i ∧ frames[j]? = some g ∧ g.lineage = f.lineage ∧ g.kind = .full ∧
        f.baseCheckpointID = g.checkpointID ∧
        ∀ k e, j < k → k < i → frames[k]? = some e → e.lineage = f.lineage → e.kind = .delta)) := by
  have hchain : Chained frames := hframes ▸ emitted_chained hcs
  have hf := addressed_get hchain hcount
  have hout : ∀ k o, offers[k]? = some o → (outcomes frames payload {} offers)[k]? =
      some (if o.index ∈ (offers.take k).map index then .duplicate
        else .accepted (lineageAt frames o.index) (frames.get o.index).sequence) := by
    intro k o ho
    simpa [expected] using outcomes_eq_expected hchain hf offers [] {} holds_empty hord hlim k o ho
  refine ⟨hout, fun i hi => ?_, fun i f hget => ⟨sequence_toNat hchain hcount hget, fun hnone =>
    (hchain.of_first hget hnone).2, fun hdelta => ?_⟩⟩
  · obtain ⟨k, o, ho, rfl, hfresh⟩ := exists_first_offer hi
    refine ⟨k, ⟨o, ho, rfl, by rw [hout k o ho, if_neg hfresh]⟩, ?_⟩
    rintro k' ⟨o', ho', hindex, haccepted⟩
    have hfresh' : o'.index ∉ (offers.take k').map index := fun hmem => by
      rw [hout k' o' ho', if_pos hmem] at haccepted
      cases haccepted
    rcases Nat.lt_trichotomy k k' with hlt | heq | hgt
    · exact absurd (index_mem_take ho hlt) (hindex ▸ hfresh')
    · exact heq.symm
    · exact absurd (index_mem_take ho' hgt) (hindex ▸ hfresh)
  · obtain ⟨j, g, hj, hg, hlin, hfull, hcp, hbetween⟩ := hchain.checkpoint_eq i f hget
    have hne : j ≠ i := by
      rintro rfl
      rw [hget] at hg
      rw [Option.some.inj hg, hfull] at hdelta
      cases hdelta
    refine ⟨j, g, by omega, hg, hlin, hfull, ?_, fun k e hk hki => hbetween k e hk (Nat.le_of_lt hki)⟩
    simpa [SummaryFrameIdentity.checkpoint, hdelta] using hcp

/-- Two frames of one lineage, a full one and a delta, the first offered twice. -/
theorem frame_protocol_agreement_replayed :
    let frames := sampleFrames [true, false]
    let offers : List (Offer frames.length) :=
      [⟨⟨0, by decide⟩, 1, RangeOrder.stored _⟩, ⟨⟨0, by decide⟩, 1, RangeOrder.stored _⟩,
        ⟨⟨1, by decide⟩, 1, RangeOrder.stored _⟩]
    (outcomes frames (fun _ => str "payload") {} offers)[0]? = some (.accepted (sampleLineage (str "a")) 1) ∧
    (outcomes frames (fun _ => str "payload") {} offers)[1]? = some .duplicate ∧
    (outcomes frames (fun _ => str "payload") {} offers)[2]? = some (.accepted (sampleLineage (str "a")) 2) := by
  intro frames offers
  have hord : InOrder frames [] offers := by decide
  have hlim : WithinLimit frames [] offers := by decide
  have h := frame_protocol_agreement
    (by decide : ∀ c ∈ [true, false].map (sampleCall (str "a")), c.Planned)
    (rfl : frames = _) (fun _ => Nat.lt_of_le_of_lt countP_le_length (by decide))
    (fun _ => str "payload") offers hord hlim
  exact ⟨(h.1 0 _ rfl).trans (by decide), (h.1 1 _ rfl).trans (by decide), (h.1 2 _ rfl).trans (by decide)⟩

end AsapCollector.Channel
