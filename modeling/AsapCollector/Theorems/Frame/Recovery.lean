import AsapCollector.Theorems.Frame.Agreement
import AsapCollector.Theorems.Frame.AtMostOnce

/-! `prepare` compares sequences before it looks at the kind of a frame, so once a frame is lost every later frame of
its lineage is a gap, recovery checkpoints included. -/

namespace AsapCollector.Channel

open FrameReceiver FrameSequencer RangeOrder

variable {frames : List SummaryFrameIdentity}

theorem sequence_lt_of_lt (hchain : Chained frames)
    (hcount : ∀ key, frames.countP (fun f => f.lineage = key) < 2 ^ 64) {i j : Fin frames.length} (hij : i < j)
    (hlineage : lineageAt frames i = lineageAt frames j) :
    (frames.get i).sequence.toNat < (frames.get j).sequence.toNat := by
  have hi : frames[(i : Nat)]? = some (frames.get i) := by simp
  have hj : frames[(j : Nat)]? = some (frames.get j) := by simp
  rw [sequence_toNat hchain hcount hi, sequence_toNat hchain hcount hj]
  have hsplit : frames.take (i + 1) = frames.take i ++ [frames.get i] := by rw [List.take_add_one, hi]; rfl
  have hle := (List.take_sublist_take_left (l := frames) (Nat.succ_le_of_lt hij)).countP_le
    (p := fun g => g.lineage = (frames.get j).lineage)
  rw [Nat.succ_eq_add_one, hsplit, List.countP_append] at hle
  have hself : (frames.get i).lineage = (frames.get j).lineage := hlineage
  rw [hself]
  simp only [List.countP_singleton, hself, decide_true, if_true] at hle
  omega

theorem sequence_lt_lost (hchain : Chained frames)
    (hcount : ∀ key, frames.countP (fun f => f.lineage = key) < 2 ^ 64) (payload : Fin frames.length → Bytes)
    {lost : Fin frames.length} :
    ∀ (offers : List (Offer frames.length)) (r : FrameReceiver), (∀ o ∈ offers, o.index ≠ lost) →
      (r.state (lineageAt frames lost)).sequence.toNat < (frames.get lost).sequence.toNat →
      ((r.receive (offers.map (delivery frames payload))).state (lineageAt frames lost)).sequence.toNat <
        (frames.get lost).sequence.toNat := by
  intro offers
  induction offers with
  | nil => exact fun r _ h => h
  | cons o os ih =>
    intro r hlost h
    refine ih _ (fun o' ho' => hlost o' (List.mem_cons_of_mem _ ho')) ?_
    rcases deliver_sequence r (delivery frames payload o) (lineageAt frames lost) with hsame | hzero |
      ⟨fp, hparse, hnext⟩
    · rwa [hsame]
    · rw [hzero]
      exact Nat.lt_of_le_of_lt (Nat.zero_le _) h
    · -- the frame let through is the next one, and it is not the lost one, which has this number
      have hheader := (frames.get o.index).parseHeader_sealed (payload o.index) (addressed_get hchain hcount o.index)
      have heq := Except.ok.inj (hheader.symm.trans hparse)
      have hlineage : lineageAt frames o.index = lineageAt frames lost := congrArg FrameHeader.key heq
      have hseq := congrArg FrameHeader.sequence heq
      simp only at hseq
      have hne : o.index ≠ lost := hlost o List.mem_cons_self
      rw [← hseq]
      rcases lt_or_gt_of_ne hne with hlt | hgt
      · exact sequence_lt_of_lt hchain hcount hlt hlineage
      · have hgt' := sequence_lt_of_lt hchain hcount hgt hlineage.symm
        have hstep : (frames.get o.index).sequence.toNat ≤ (r.state (lineageAt frames lost)).sequence.toNat + 1 := by
          rw [hseq, hnext, UInt64.toNat_add]
          exact Nat.mod_le _ _
        omega

/-- A frame whose predecessor in the lineage was never offered is refused as a gap, be it full or a
delta, whatever else the receiver was offered. -/
theorem full_frame_after_loss_rejected {cs : List SequencerCall} (hcs : ∀ c ∈ cs, c.Planned)
    (hframes : frames = emitted {} cs)
    (hcount : ∀ key, frames.countP (fun f => f.lineage = key) < 2 ^ 64)
    (payload : Fin frames.length → Bytes) (offers : List (Offer frames.length)) (lost : Fin frames.length)
    (hlost : ∀ o ∈ offers, o.index ≠ lost) (o : Offer frames.length) (hlater : lost < o.index)
    (hlineage : lineageAt frames o.index = lineageAt frames lost) :
    ((({} : FrameReceiver).receive (offers.map (delivery frames payload))).deliver (delivery frames payload o)).2 =
      .rejected .gap := by
  have hchain : Chained frames := hframes ▸ emitted_chained hcs
  have hgrow := sequence_lt_of_lt hchain hcount hlater hlineage.symm
  have hpos : (({} : FrameReceiver).state (lineageAt frames lost)).sequence.toNat <
      (frames.get lost).sequence.toNat := by
    have hget : frames[(lost : Nat)]? = some (frames.get lost) := by simp
    rw [sequence_toNat hchain hcount hget]
    exact Nat.succ_pos _
  have hlt := sequence_lt_lost hchain hcount payload offers {} hlost hpos
  rw [← hlineage] at hlt
  generalize ({} : FrameReceiver).receive (offers.map (delivery frames payload)) = r at hlt ⊢
  have hne : (frames.get o.index).sequence ≠ (r.state (lineageAt frames o.index)).sequence := fun h => by
    rw [h] at hgrow
    omega
  have hnext : (frames.get o.index).sequence ≠ (r.state (lineageAt frames o.index)).sequence + 1 := fun h => by
    rw [h, UInt64.toNat_add] at hgrow
    have := Nat.mod_le ((r.state (lineageAt frames o.index)).sequence.toNat + (1 : UInt64).toNat) (2 ^ 64)
    simp only [UInt64.toNat_one] at this hgrow
    omega
  rw [deliver_gap (addressed_get hchain hcount o.index) (payload o.index) r rfl hne hnext]

/-- A full frame, a lost delta and a full frame with its own checkpoint: the second full frame is
refused. -/
theorem full_frame_after_lost_delta_rejected :
    let frames := sampleFrames [true, false, true]
    let deliver (r : FrameReceiver) (i : Fin frames.length) :=
      r.deliver (delivery frames (fun _ => str "payload") ⟨i, 0, stored _⟩)
    (deliver {} ⟨0, by decide⟩).2 = .accepted (sampleLineage (str "a")) 1 ∧
      (frames.get ⟨2, by decide⟩).kind = .full ∧ (frames.get ⟨2, by decide⟩).checkpointID ≠ [] ∧
      (deliver (deliver {} ⟨0, by decide⟩).1 ⟨2, by decide⟩).2 = .rejected .gap := by
  intro frames deliver
  have h₀ : (frames.get ⟨0, by decide⟩).Addressed := by constructor <;> decide
  have h₂ : (frames.get ⟨2, by decide⟩).Addressed := by constructor <;> decide
  have hfirst : deliver {} ⟨0, by decide⟩ = _ :=
    deliver_fresh h₀ (str "payload") {} rfl rfl (by decide) (.of_full (by decide) (by decide))
  have hgap : deliver (deliver {} ⟨0, by decide⟩).1 ⟨2, by decide⟩ = _ :=
    deliver_gap h₂ (str "payload") _ rfl (by rw [hfirst]; decide) (by rw [hfirst]; decide)
  exact ⟨congrArg Prod.snd hfirst, by decide, by decide, congrArg Prod.snd hgap⟩

theorem full_frame_after_loss_rejected_sample :
    let frames := sampleFrames [true, false, true]
    ((({} : FrameReceiver).receive ([⟨⟨0, by decide⟩, 0, stored _⟩].map
      (delivery frames (fun _ => str "payload")))).deliver
        (delivery frames (fun _ => str "payload") ⟨⟨2, by decide⟩, 0, stored _⟩)).2 = .rejected .gap := by
  intro frames
  exact full_frame_after_loss_rejected
    (by decide : ∀ c ∈ [true, false, true].map (sampleCall (str "a")), c.Planned) (rfl : frames = _)
    (fun _ => Nat.lt_of_le_of_lt List.countP_le_length (by decide)) (fun _ => str "payload")
    [⟨⟨0, by decide⟩, 0, stored _⟩] ⟨1, by decide⟩ (by decide)
    ⟨⟨2, by decide⟩, 0, stored _⟩ (by decide) (by decide)

end AsapCollector.Channel
