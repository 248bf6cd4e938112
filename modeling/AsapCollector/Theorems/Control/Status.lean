import AsapCollector.Lib.Run
import AsapCollector.Theorems.Control.OpAmp

/-! The receiving goroutine reports a plan as staged after it has released the mutex, so the polling goroutine may have
reported its end by then. Where polling waits for that report, a plan is reported as staged and then at most once
more. -/

namespace AsapCollector.Control

open List Option

variable (k : PlanKey)

def statuses (reports : List PlanReport) : List PlanStatus :=
  (reports.filter fun r => r.key = k).map PlanReport.status

theorem statuses_append (rs rs' : List PlanReport) :
    statuses k (rs ++ rs') = statuses k rs ++ statuses k rs' := by
  rw [statuses, filter_append, map_append, statuses, statuses]

theorem statuses_eq_nil {k : PlanKey} {rs : List PlanReport} (h : ∀ r ∈ rs, r.key ≠ k) : statuses k rs = [] := by
  rw [statuses, map_eq_nil_iff, filter_eq_nil_iff]
  exact fun r hr => by simpa using h r hr

theorem statuses_toList (due : Option PlanReport) :
    statuses k due.toList = [] ∨ ∃ r, due = some r ∧ r.key = k ∧ statuses k due.toList = [r.status] := by
  cases due with
  | none => exact .inl rfl
  | some r =>
    by_cases hk : r.key = k
    · exact .inr ⟨r, rfl, hk, by simp [statuses, hk]⟩
    · exact .inl (statuses_eq_nil fun r' hr' => mem_singleton.mp hr' ▸ hk)

namespace OpAmpChannel

variable (o : OpAmpChannel)

def pendingKey : Option PlanKey := o.pending.map fun g => (o.pendingPlanID, g.set.version)

def deliveredKey : Option PlanKey := if o.delivered = 0 then none else some (o.deliveredPlanID, o.delivered)

def slot : Option PlanKey := o.pendingKey.or o.deliveredKey

end OpAmpChannel

namespace Bridge

open OpAmpChannel

variable (b : Bridge)

/-- Staged, and then at most one other status; or the report of the first is due. -/
def InOrder : Prop :=
  (statuses k b.reports = [] ∧ b.receiver = some ⟨k, .staged, none⟩) ∨ statuses k b.reports = [.staged] ∨
    statuses k b.reports = [.staged, .applied] ∨ statuses k b.reports = [.staged, .failed]

/-- What the channel promises of its reports, and of a plan that follows an answer. -/
structure Orderly (b : Bridge) : Prop where
  inOrder : ∀ k ∈ b.accepted, b.InOrder k
  acknowledged : ∀ k ∈ b.acknowledged, .failed ∉ statuses k b.reports
  reopened : ∀ v, b.answered = some v → ∀ (body : PlanBody) g now, body.decoded = some g →
    expiredAt body.identity.expiryUnixMS now = false → v < g.set.version →
      (b.channel.receiveCollectorPlan body now).2.status = .staged

/-- A plan comes once, is not polled before it is reported as staged, and its state is written. -/
def Meets : BridgeStep → Prop
  | .receive body _ => body.key ∉ b.received
  | .poll _ => ∀ r ∈ b.receiver, r.status ≠ .staged
  | .ack _ written => b.channel.stateFile = [] ∨ written = true
  | _ => True

instance Meets.decidable (b : Bridge) : (e : BridgeStep) → Decidable (b.Meets e)
  | .receive body _ => inferInstanceAs (Decidable (body.key ∉ b.received))
  | .poll _ => inferInstanceAs (Decidable (∀ r ∈ b.receiver, r.status ≠ .staged))
  | .ack _ written => inferInstanceAs (Decidable (b.channel.stateFile = [] ∨ written = true))
  | .receiverReports | .reject _ _ | .pollerReports => .isTrue trivial

/-- Every step of the run meets the condition. -/
abbrev AllMeet (b : Bridge) : List BridgeStep → Prop := Always step Meets b

def due : List PlanReport := b.reports ++ b.receiver.toList ++ b.poller.toList

/-- The statuses of an accepted plan, with those that are due: staged while it is in a slot, and one more after. -/
def Follows : Prop :=
  if b.channel.slot = some k then statuses k b.due = [.staged]
  else statuses k b.due = [.staged, .applied] ∨ statuses k b.due = [.staged, .failed]

structure Inv (b : Bridge) : Prop where
  isOpen : b.channel.closed = false
  follows : ∀ k ∈ b.accepted, b.Follows k
  staged : ∀ r ∈ b.receiver, r.status = .staged → r.err = none ∧ b.channel.pendingKey = some r.key
  final : ∀ r ∈ b.poller, r.status ≠ .staged
  versioned : ∀ g ∈ b.channel.pending, g.set.version ≠ 0
  refused : ∀ r ∈ b.receiver, r.status ≠ .staged → r.key ∉ b.accepted
  known : ∀ r ∈ b.due, r.key ∈ b.received
  accepted : ∀ k ∈ b.accepted, k ∈ b.received
  slot : ∀ k, b.channel.slot = some k → k ∈ b.accepted ∧ k.2 = b.channel.maxVersion
  alone : b.channel.pending.isSome → b.channel.delivered = 0
  acknowledged : ∀ k ∈ b.acknowledged, k ∈ b.accepted ∧ statuses k b.due = [.staged, .applied]
  answered : ∀ v, b.answered = some v → b.channel.pending = none ∧ b.channel.delivered = 0 ∧ b.channel.maxVersion = v

variable {b : Bridge}

variable {r : PlanReport} {k : PlanKey} {o : OpAmpChannel}

section
variable (h : Inv b)
include h

theorem Inv.receiver_key (hr : b.receiver = some r) (hk : r.key ∈ b.accepted) :
    r = ⟨r.key, .staged, none⟩ ∧ b.channel.slot = some r.key := by
  have hstatus : r.status = .staged := by
    by_contra hne
    exact h.refused r hr hne hk
  obtain ⟨herr, hpending⟩ := h.staged r hr hstatus
  refine ⟨?_, by rw [OpAmpChannel.slot, hpending, some_or]⟩
  rw [← hstatus, ← herr]

theorem Inv.inOrder (hk : k ∈ b.accepted) : b.InOrder k := by
  have hfollows := h.follows k hk
  unfold Follows due at hfollows
  rw [statuses_append, statuses_append] at hfollows
  rcases statuses_toList k b.receiver with hnone | ⟨r, hr, rfl, hdue⟩
  · rw [hnone, append_nil] at hfollows
    rcases statuses_toList k b.poller with hidle | ⟨p, hp, -, hlast⟩
    · rw [hidle, append_nil] at hfollows
      split at hfollows
      · exact .inr (.inl hfollows)
      · exact .inr (.inr hfollows)
    · -- the last status is still due from the polling goroutine
      have hfinal := h.final p hp
      rw [hlast] at hfollows
      split at hfollows
      · obtain ⟨-, hlast⟩ := append_inj' (show statuses k b.reports ++ [p.status] = [] ++ [.staged] from hfollows) rfl
        exact absurd (singleton_inj.mp hlast) hfinal
      · refine .inr (.inl ?_)
        rcases hfollows with hfollows | hfollows
        · exact (append_inj' (show statuses k b.reports ++ [p.status] = [.staged] ++ [.applied] from hfollows) rfl).1
        · exact (append_inj' (show statuses k b.reports ++ [p.status] = [.staged] ++ [.failed] from hfollows) rfl).1
  · obtain ⟨hstaged, hslot⟩ := h.receiver_key hr hk
    rw [if_pos hslot, hdue, hstaged, append_assoc] at hfollows
    refine .inl ⟨?_, hr.trans (congrArg some hstaged)⟩
    cases hreports : statuses r.key b.reports with
    | nil => rfl
    | cons x l => simp [hreports] at hfollows

theorem Inv.orderly : b.Orderly where
  inOrder k hk := h.inOrder hk
  acknowledged k hk hfailed := by
    have hfailed : .failed ∈ statuses k b.due := by
      rw [due, statuses_append, statuses_append]
      exact mem_append_left _ (mem_append_left _ hfailed)
    rw [(h.acknowledged k hk).2] at hfailed
    revert hfailed
    decide
  reopened v hv body g now hdecoded hexpiry hlt := by
    obtain ⟨hpending, hdelivered, hmax⟩ := h.answered v hv
    rw [b.channel.receiveCollectorPlan_free hdecoded hexpiry ⟨h.isOpen, hmax.symm ▸ hlt, hpending, hdelivered⟩]

/-! ### The steps -/

theorem Inv.receiverReports : Inv (b.step .receiverReports) := by
  have hdue : (b.step .receiverReports).due = b.due := by
    simp only [due, step, toList_none, append_nil]
  exact { h with
    follows := fun k hk => by rw [Follows, hdue]; exact h.follows k hk
    staged := nofun
    refused := nofun
    known := hdue ▸ h.known
    acknowledged := hdue ▸ h.acknowledged }

theorem Inv.statuses_pollerReports (hk : k ∈ b.accepted) :
    statuses k (b.step .pollerReports).due = statuses k b.due := by
  simp only [due, step, toList_none, append_nil, statuses_append]
  rcases statuses_toList k b.receiver with hnone | ⟨r, hr, rfl, hdue⟩
  · rw [hnone, append_nil, append_nil]
  · have hfollows := h.follows r.key hk
    rw [Follows, if_pos (h.receiver_key hr hk).2, due, statuses_append, statuses_append, hdue] at hfollows
    have hlength := congrArg length hfollows
    simp only [length_append, length_singleton] at hlength
    rw [length_eq_zero_iff.mp (show (statuses r.key b.poller.toList).length = 0 by omega), append_nil, append_nil]

theorem Inv.pollerReports : Inv (b.step .pollerReports) := by
  refine { h with
    follows := fun k hk => ?_, final := nofun, known := fun r hr => h.known r ?_, acknowledged := fun k hk => ?_ }
  · rw [Follows, h.statuses_pollerReports hk]
    exact h.follows k hk
  · simp only [due, step, toList_none, append_nil, mem_append] at hr ⊢
    exact hr.elim (·.elim (fun hr => .inl (.inl hr)) .inr) fun hr => .inl (.inr hr)
  · have haccepted := (h.acknowledged k hk).1
    exact ⟨haccepted, h.statuses_pollerReports haccepted ▸ (h.acknowledged k hk).2⟩

end

theorem statuses_received (hfree : b.receiver = none) (hne : r.key ≠ k) :
    statuses k (b.reports ++ (some r).toList ++ b.poller.toList) = statuses k b.due := by
  have hnone : statuses k (some r).toList = [] := statuses_eq_nil fun r' hr' => mem_singleton.mp hr' ▸ hne
  rw [due, hfree, statuses_append, statuses_append, hnone, statuses_append, statuses_append]
  rfl

theorem slot_eq_none (hpending : o.pending = none) (hdelivered : o.delivered = 0) : o.slot = none := by
  rw [slot, pendingKey, hpending, deliveredKey, if_pos hdelivered]
  rfl

section
variable (h : Inv b)
include h

theorem Inv.receive (hfree : b.receiver = none) {body : PlanBody} (hbody : body.key ∉ b.received)
    (now : UInt64) : Inv (b.receive body now) := by
  have hne : ∀ {k}, k ∈ b.accepted → body.key ≠ k := fun hk heq => hbody (heq ▸ h.accepted _ hk)
  have hold : ∀ {r : PlanReport}, r.key = body.key → ∀ x ∈ b.reports ++ (some r).toList ++ b.poller.toList,
      x.key ∈ b.received ++ [body.key] := by
    intro r hr x hx
    by_cases hxr : x = r
    · exact mem_append_right _ (mem_singleton.mpr (hxr ▸ hr))
    · refine mem_append_left _ (h.known x ?_)
      simp only [due, hfree, mem_append, toList_none, toList_some, mem_singleton, not_mem_nil, hxr] at hx ⊢
      exact hx
  rcases b.channel.receiveCollectorPlan_cases body now with ⟨err, heq⟩ | ⟨g, hdecoded, hslots, heq⟩
  · simp only [Bridge.receive, heq, reduceCtorEq, if_false]
    refine { h with
      follows := fun k hk => ?_
      staged := fun r hr hstaged => by cases hr; cases hstaged
      refused := fun r hr _ hk => ?_
      known := hold rfl
      accepted := fun k hk => mem_append_left _ (h.accepted k hk)
      acknowledged := fun k hk => ?_ }
    · rw [Follows, due, statuses_received hfree (hne hk)]
      exact h.follows k hk
    · cases hr
      exact hne hk rfl
    · rw [due, statuses_received hfree (hne (h.acknowledged k hk).1)]
      exact h.acknowledged k hk
  · have hslot : b.channel.slot = none := slot_eq_none hslots.pending hslots.delivered
    have hkey : (body.identity.planID, g.set.version) = body.key := by rw [PlanBody.key, body.version_eq g hdecoded]
    have hslot' : (b.channel.holding body g).slot = some body.key := by
      rw [OpAmpChannel.slot, pendingKey, ← hkey]
      rfl
    simp only [Bridge.receive, heq, if_true]
    refine { h with
      follows := fun k hk => ?_
      staged := fun r hr _ => by cases hr; exact ⟨rfl, by rw [← hkey]; rfl⟩
      versioned := fun g' hg' => by cases hg'; exact body.version_ne g hdecoded
      refused := fun r hr hne' => by cases hr; exact absurd rfl hne'
      known := hold rfl
      accepted := fun k hk => ?_
      slot := fun k hk => ?_
      alone := fun _ => hslots.delivered
      acknowledged := fun k hk => ?_
      answered := by simp }
    · rw [Follows, hslot', due]
      rcases mem_append.mp hk with hk | hk
      · have hfollows := h.follows k hk
        rw [Follows, hslot, if_neg (by simp)] at hfollows
        rw [if_neg (fun heq => hne hk (some.inj heq)), statuses_received hfree (hne hk)]
        exact hfollows
      · obtain rfl := mem_singleton.mp hk
        have hnone : statuses body.key b.due = [] := statuses_eq_nil fun r hr hr' => hbody (hr' ▸ h.known r hr)
        rw [due, hfree, toList_none, append_nil, statuses_append, append_eq_nil_iff] at hnone
        rw [if_pos rfl, statuses_append, statuses_append, hnone.1, hnone.2]
        simp [statuses]
    · exact (mem_append.mp hk).elim (fun hk => mem_append_left _ (h.accepted k hk)) (mem_append_right _)
    · rw [hslot'] at hk
      obtain rfl := some.inj hk
      exact ⟨mem_append_right _ (mem_singleton.mpr rfl), (body.version_eq g hdecoded).symm⟩
    · obtain ⟨haccepted, hstatuses⟩ := h.acknowledged k hk
      rw [due, statuses_received hfree (hne haccepted)]
      exact ⟨mem_append_left _ haccepted, hstatuses⟩

theorem Inv.ends (hidle : b.poller = none) (hreceiver : ∀ r ∈ b.receiver, r.status ≠ .staged)
    (hslot : b.channel.slot = some k) {disk : Option AppliedPlanState} {acks : List PlanKey} {answered : Option UInt64}
    (hopen : o.closed = b.channel.closed) (hpending : o.pending = none) (hdelivered : o.delivered = 0)
    (hkey : r.key = k)
    (hstatus : r.status = .applied ∧ acks = b.acknowledged ++ [k] ∨ r.status = .failed ∧ acks = b.acknowledged)
    (hanswered : ∀ v, answered = some v → o.maxVersion = v) :
    Inv { b with channel := o, disk := disk, poller := some r, acknowledged := acks, answered := answered } := by
  obtain ⟨haccepted, -⟩ := h.slot k hslot
  have hempty : o.slot = none := slot_eq_none hpending hdelivered
  have hdue : ∀ k', statuses k' (b.reports ++ b.receiver.toList ++ (some r).toList) =
      statuses k' b.due ++ if r.key = k' then [r.status] else [] := by
    intro k'
    rw [due, hidle, toList_none, append_nil, statuses_append]
    by_cases hk' : r.key = k' <;> simp [statuses, hk']
  have hstaged := h.follows k haccepted
  rw [Follows, if_pos hslot] at hstaged
  refine { h with
    isOpen := hopen.trans h.isOpen
    follows := fun k' hk' => ?_
    staged := fun x hx hs => absurd hs (hreceiver x hx)
    final := fun x hx => ?_
    versioned := fun g hg => by rw [hpending] at hg; cases hg
    known := fun x hx => ?_
    slot := fun k' hk' => by rw [hempty] at hk'; cases hk'
    alone := fun _ => hdelivered
    acknowledged := fun k' hk' => ?_
    answered := fun v hv => ⟨hpending, hdelivered, hanswered v hv⟩ }
  · rw [Follows, hempty, if_neg (by simp), due, hdue]
    by_cases hk : r.key = k'
    · rw [if_pos hk, ← hk, hkey, hstaged]
      exact hstatus.elim (fun hs => .inl (by rw [hs.1]; rfl)) fun hs => .inr (by rw [hs.1]; rfl)
    · have hfollows := h.follows k' hk'
      rw [Follows, if_neg (fun heq => hk (hkey.trans (some.inj (hslot.symm.trans heq))))] at hfollows
      rw [if_neg hk, append_nil]
      exact hfollows
  · obtain rfl := some.inj hx
    exact hstatus.elim (fun hs => by rw [hs.1]; nofun) fun hs => by rw [hs.1]; nofun
  · rcases mem_append.mp hx with hx | hx
    · exact h.known x (mem_append_left _ hx)
    · rw [mem_singleton.mp hx, hkey]
      exact h.accepted k haccepted
  · rw [due, hdue]
    have hbefore : k' ∈ b.acknowledged →
        k' ∈ b.accepted ∧ statuses k' b.due ++ (if r.key = k' then [r.status] else []) = [.staged, .applied] := by
      intro hk'
      obtain ⟨haccepted', hstatuses⟩ := h.acknowledged k' hk'
      have hne : r.key ≠ k' := fun heq => by simp [← heq, hkey, hstaged] at hstatuses
      exact ⟨haccepted', by rw [if_neg hne, append_nil, hstatuses]⟩
    rcases hstatus with ⟨hs, hacks⟩ | ⟨-, hacks⟩
    · rw [hacks] at hk'
      rcases mem_append.mp hk' with hk' | hk'
      · exact hbefore hk'
      · rw [mem_singleton.mp hk', if_pos hkey, hstaged, hs]
        exact ⟨haccepted, rfl⟩
    · exact hbefore (hacks ▸ hk')

theorem Inv.poll (now : UInt64) (hreceiver : ∀ r ∈ b.receiver, r.status ≠ .staged) :
    Inv (b.step (.poll now)) := by
  unfold step
  dsimp only
  split
  · exact h
  rename_i hidle
  have hidle : b.poller = none := by simpa using hidle
  rcases b.channel.poll_cases now with heq | ⟨g, hpending, heq | ⟨-, -, heq⟩⟩
  · rw [heq, ← hidle]
    exact h
  all_goals
    have hdelivered : b.channel.delivered = 0 := h.alone (hpending ▸ rfl)
    have hkey : b.channel.pendingKey = some (b.channel.pendingPlanID, g.set.version) := by
      rw [pendingKey, hpending]
      rfl
    have hslot : b.channel.slot = some (b.channel.pendingPlanID, g.set.version) := by
      rw [OpAmpChannel.slot, hkey, some_or]
    -- a plan that waits has been accepted after the last answer
    have hanswered : b.answered = none := by
      by_contra hne
      obtain ⟨v, hv⟩ := ne_none_iff_exists'.mp hne
      rw [(h.answered v hv).1] at hpending
      cases hpending
    rw [heq]
  · exact h.ends hidle hreceiver hslot rfl rfl hdelivered rfl (.inr ⟨rfl, rfl⟩) fun v hv => by
      rw [hanswered] at hv; cases hv
  · have hslot' : (b.channel.delivering g).slot = b.channel.slot := by
      rw [hslot, OpAmpChannel.slot, pendingKey, deliveredKey,
        if_neg (show (b.channel.delivering g).delivered ≠ 0 from h.versioned g hpending)]
      rfl
    have hdue : ({ b with channel := b.channel.delivering g, poller := none } : Bridge).due = b.due := by
      rw [due, due, hidle]
    refine { h with
      follows := fun k hk => ?_
      staged := fun x hx hs => absurd hs (hreceiver x hx)
      final := nofun
      versioned := nofun
      known := hdue ▸ h.known
      slot := hslot' ▸ h.slot
      alone := nofun
      acknowledged := hdue ▸ h.acknowledged
      answered := fun v hv => ?_ }
    · rw [Follows, hdue, hslot']
      exact h.follows k hk
    · rw [hanswered] at hv
      cases hv

theorem Inv.answered_slot {v : UInt64} (hcalled : ¬(b.poller.isSome = true ∨ b.channel.answers v = false)) :
    b.poller = none ∧ b.channel.answers v = true ∧ b.channel.slot = some (b.channel.deliveredPlanID, v) ∧
      b.channel.pending = none ∧ b.channel.maxVersion = v ∧ ∀ r ∈ b.receiver, r.status ≠ .staged := by
  obtain ⟨hidle, hanswers⟩ : b.poller = none ∧ b.channel.answers v = true := by simpa using hcalled
  obtain ⟨-, hne, hv⟩ := b.channel.answers_iff.mp hanswers
  have hpending : b.channel.pending = none := by
    by_contra hsome
    exact hne (hv.trans (h.alone (isSome_iff_ne_none.mpr hsome)))
  have hkey : b.channel.pendingKey = none := by rw [pendingKey, hpending, map_none]
  have hslot : b.channel.slot = some (b.channel.deliveredPlanID, v) := by
    rw [OpAmpChannel.slot, hkey, none_or, deliveredKey, if_neg (hv ▸ hne), hv]
  refine ⟨hidle, hanswers, hslot, hpending, (h.slot _ hslot).2.symm, fun r hr hs => ?_⟩
  have hstaged := (h.staged r hr hs).2
  rw [hkey] at hstaged
  cases hstaged

theorem Inv.ack {v : UInt64} {written : Bool} (hwritten : b.channel.stateFile = [] ∨ written = true) :
    Inv (b.step (.ack v written)) := by
  unfold step
  dsimp only
  split
  · exact h
  rename_i hcalled
  obtain ⟨hidle, hanswers, hslot, hpending, hmax, hreceiver⟩ := h.answered_slot hcalled
  rcases b.channel.ack_cases b.disk written hanswers with ⟨hfile, hfails, -⟩ | ⟨-, heq⟩
  · exact (hwritten.elim hfile fun hw => by rw [hfails] at hw; cases hw).elim
  · rw [heq]
    exact h.ends hidle hreceiver hslot rfl hpending rfl rfl (.inl ⟨rfl, rfl⟩)
      fun w hw => hmax.trans (some.inj hw)

theorem Inv.reject (v : UInt64) (applyErr : Option Bytes) : Inv (b.step (.reject v applyErr)) := by
  unfold step
  dsimp only
  split
  · exact h
  rename_i hcalled
  obtain ⟨hidle, hanswers, hslot, hpending, hmax, hreceiver⟩ := h.answered_slot hcalled
  rw [b.channel.reject_eq hanswers]
  exact h.ends hidle hreceiver hslot rfl hpending rfl rfl (.inr ⟨rfl, rfl⟩)
    fun w hw => hmax.trans (some.inj hw)

theorem Inv.step {e : BridgeStep} (he : b.Meets e) : Inv (b.step e) := by
  cases e with
  | receive body now =>
    unfold Bridge.step
    dsimp only
    split
    · exact h
    · rename_i hfree
      exact h.receive (by simpa using hfree) he now
  | receiverReports => exact h.receiverReports
  | poll now => exact h.poll now he
  | ack v written => exact h.ack he
  | reject v applyErr => exact h.reject v applyErr
  | pollerReports => exact h.pollerReports

end

theorem inv_new {stateFile : Bytes} {disk : Option AppliedPlanState} (ho : new stateFile disk = some o) :
    Inv { channel := o, disk } := by
  obtain ⟨hopen, hpending, hdelivered⟩ := new_slots ho
  have hslot : o.slot = none := slot_eq_none hpending hdelivered
  exact ⟨hopen, nofun, nofun, nofun, (fun g hg => by rw [hpending] at hg; cases hg), nofun, nofun, nofun,
    (fun k hk => by rw [hslot] at hk; cases hk), fun _ => hdelivered, nofun, nofun⟩

/-- In every interleaving in which a plan comes once, is not polled before it has been reported as staged, and
in which the state of an acknowledged plan is written, an accepted plan is reported as staged and then at most
once more, never as failed if it was acknowledged, and an answer makes room for a plan with a higher version. -/
theorem plan_statuses_in_order {stateFile : Bytes} {disk : Option AppliedPlanState} {o : OpAmpChannel}
    (ho : new stateFile disk = some o) {steps : List BridgeStep}
    (hsteps : ({ channel := o, disk } : Bridge).AllMeet steps) : (run { channel := o, disk } steps).Orderly := by
  have hrun := hsteps.invariant (fun _ h hmeets => Inv.step h hmeets) (inv_new ho)
  exact hrun.orderly

def fresh : Bridge := { channel := { stateFile := str "state" }, disk := none }

/-- Two plans, the second received while the first is out; it is refused, and taken after the answer. -/
def polite : List BridgeStep :=
  [.receive plan5 8, .receiverReports, .poll 12, .receive (samplePlan 6 (by decide)) 12, .receiverReports,
    .ack 5 true, .receive plan7 13, .pollerReports, .receiverReports]

theorem plan_statuses_in_order_polite :
    statuses (1, 7) (run fresh polite).reports = [.staged] ∧ (run fresh polite).Orderly :=
  ⟨by decide +kernel,
    plan_statuses_in_order (show new (str "state") none = some fresh.channel from rfl)
      (show fresh.AllMeet polite by decide +kernel)⟩

/-- The plan is delivered and applied before the receiving goroutine reports it as staged. -/
def appliedFirst : List BridgeStep :=
  [.receive plan5 8, .poll 12, .ack 5 true, .pollerReports, .receiverReports]

def unwritten : List BridgeStep :=
  [.receive plan5 8, .receiverReports, .poll 12, .ack 5 false, .pollerReports]

def sentTwice : List BridgeStep :=
  [.receive plan5 8, .receiverReports, .receive plan5 9, .receiverReports,
    .poll 12, .ack 5 true, .pollerReports]

/-- A plan may be applied before it is staged; a failed write makes an acknowledged plan fail and leaves the
channel closed to every later plan; and a plan sent again fails although it is applied. -/
theorem plan_statuses_out_of_order :
    (statuses (1, 5) (run fresh appliedFirst).reports = [.applied, .staged] ∧ ¬(run fresh appliedFirst).Orderly) ∧
    (statuses (1, 5) (run fresh unwritten).reports = [.staged, .failed] ∧ (1, 5) ∈ (run fresh unwritten).acknowledged ∧
      ((run fresh unwritten).channel.receiveCollectorPlan (samplePlan 7 (by decide)) 13).2.status = .failed ∧
      ¬(run fresh unwritten).Orderly) ∧
    statuses (1, 5) (run fresh sentTwice).reports = [.staged, .failed, .applied] ∧ ¬(run fresh sentTwice).Orderly := by
  refine ⟨⟨by decide +kernel, fun h => ?_⟩, ⟨by decide +kernel, by decide +kernel, by decide +kernel, fun h => ?_⟩,
    by decide +kernel, fun h => ?_⟩
  · have horder := h.inOrder (1, 5) (by decide +kernel)
    unfold InOrder at horder
    revert horder
    decide +kernel
  · exact h.acknowledged (1, 5) (by decide +kernel) (by decide +kernel)
  · have horder := h.inOrder (1, 5) (by decide +kernel)
    unfold InOrder at horder
    revert horder
    decide +kernel

end Bridge

end AsapCollector.Control
