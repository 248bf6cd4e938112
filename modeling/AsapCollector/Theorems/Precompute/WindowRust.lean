import AsapCollector.Precompute.WindowRust
import AsapCollector.Theorems.Precompute.InOrder

/-! The Rust window has no test for a timestamp beyond its end and tests for a late one only under a positive lateness.
As long as no observation meets that, it holds and emits what the Go window does, up to the order of the maps. -/

namespace AsapCollector.Precompute.Rust

open List Option GoMap Rust.WindowState

/-! ### Calls to both -/

/-- A call made to both runtimes, with the orders in which each visits its maps. -/
inductive HostCall (σ τ : Type) where
  | observe (obs : Observation) (scalar : obs.carried = none) (ω : RangeOrders σ) (ρ : SeriesOrder τ)
  | tick (nowMs : Nat) (ω : RangeOrders σ) (ρ : SeriesOrder τ)
  | drain (ω : RangeOrders σ) (ρ : SeriesOrder τ)

/-- The call as the Go runtime gets it. -/
def HostCall.go {σ τ : Type} : HostCall σ τ → Call σ
  | .observe obs scalar ω _ => .observe obs scalar ω
  | .tick nowMs ω _ => .tick nowMs ω
  | .drain ω _ => .drain ω

structure History (τ : Type) where
  p : PrecomputeImpl τ
  verdicts : List (Option PrecomputeError) := []
  returned : List SketchEnvelope := []

variable (cfg : PrecomputeConfig)

def History.start {τ : Type} : History τ := { p := { cfg := some cfg } }

def History.step {σ τ : Type} (R : SketchImpl τ) (h : History τ) : HostCall σ τ → History τ
  | .observe obs _ _ ρ =>
    let (p, err) := observe R h.p obs ρ
    { h with p, verdicts := h.verdicts ++ [err] }
  | .tick nowMs _ ρ =>
    let (p, envelopes) := tick R h.p nowMs ρ
    { h with p, returned := h.returned ++ envelopes }
  | .drain _ ρ =>
    let (p, envelopes) := drain R h.p ρ
    { h with p, returned := h.returned ++ envelopes }

def History.run {σ τ : Type} (R : SketchImpl τ) (h : History τ) (calls : List (HostCall σ τ)) : History τ :=
  calls.foldl (History.step R) h

/-- Window, series and count of an envelope. -/
def triple (env : SketchEnvelope) : (Nat × Nat) × Bytes × Nat :=
  ((env.windowStartMs, env.windowEndMs), cfg.seriesKeyForEntry env.resourceLabels env.labels, env.count)

/-- A configuration that both runtimes have. -/
structure Shared (cfg : PrecomputeConfig) : Prop extends Tumbling cfg where
  scope : cfg.scope = .perSeries
  lateness : 0 ≤ cfg.window.allowedLateness
  unsampled : cfg.sampleP = ⟨0⟩
  gos : cfg.gosDeltaEpsilon = ⟨0⟩

/-- A family whose states can always be serialized: `Sound` are the states it reaches, `Base` the payloads
it can take a delta against. -/
structure Serializes {σ : Type} (F : SketchImpl σ) (Sound : σ → Prop) (Base : Bytes → Prop) : Prop where
  factory : Sound F.factory
  observe : ∀ s v, Sound s → Sound (F.observe s v).1
  snapshot : ∀ s, Sound s → ∃ payload, F.snapshot s = .ok (some payload) ∧ payload ≠ [] ∧ Base payload
  delta : ∀ s b θ, Sound s → Base b → ∃ s' payload isFull,
    F.computeDeltaAgainst s b θ = (s', .ok (some payload, isFull)) ∧ Sound s' ∧ payload ≠ [] ∧
      (isFull = true → Base payload)
  emptyBase : ∀ s, Sound s → ∃ b, F.deltaAgainstEmptyBase s = .ok b ∧ ∀ payload, b = some payload → Base payload

/-- A family of sketches in both languages: each can serialize what it reaches, and both turn away the same
values. -/
structure Family (σ τ : Type) where
  go : SketchImpl σ
  rust : SketchImpl τ
  Sound : σ → Prop
  Sound' : τ → Prop
  Base : Bytes → Prop
  Base' : Bytes → Prop
  serializes : Serializes go Sound Base
  serializes' : Serializes rust Sound' Base'
  rejecting : ∀ s t v, Sound s → Sound' t → (go.observe s v).2.isSome = (rust.observe t v).2.isSome

/-- An observation on which the two windows do not differ: one that finds the window not yet open, or
that lies before its end and, where no lateness is allowed, not before its start. -/
def Inside {τ : Type} (w : WindowState τ) (obs : Observation) : Prop :=
  cfg.admits obs = true → w.initialized = true →
    obs.timestampMs < w.activeEndMs ∧ (cfg.window.allowedLateness = 0 → w.activeStartMs ≤ obs.timestampMs)

variable {σ τ : Type} {F : SketchImpl σ} {R : SketchImpl τ} {cfg : PrecomputeConfig} {Sound : σ → Prop}
  {Sound' : τ → Prop} {Base Base' : Bytes → Prop}

theorem seriesKeyForEntry_eq (hs : Shared cfg) : seriesKeyForEntry cfg = cfg.seriesKeyForEntry := by
  funext resourceLabels labels
  simp [seriesKeyForEntry, PrecomputeConfig.seriesKeyForEntry, PrecomputeConfig.isWholeStream, hs.scope]

/-! ### Serialization -/

def Based (Base : Bytes → Prop) (m : GoMap Bytes Bytes) : Prop := ∀ key b, m.lookup key = some b → Base b

theorem Based.insert {m : GoMap Bytes Bytes} (h : Based Base m) {b : Bytes} (hb : Base b) (key : Bytes) :
    Based Base (m.insert key b) :=
  forall_lookup_insert h hb

abbrev View := List KeyValue × List KeyValue × Nat

def goView (e : Precompute.SeriesEntry σ) : View := (e.resourceLabels, e.labels, e.count)

def SeriesEntry.view (e : SeriesEntry τ) : View := (e.resourceLabels, e.labels, e.count)

def tripleOf (cfg : PrecomputeConfig) (startMs endMs : Nat) (v : View) : (Nat × Nat) × Bytes × Nat :=
  ((startMs, endMs), cfg.seriesKeyForEntry v.1
    (envelopeLabels (⟨(), v.1, v.2.1, 0, v.2.2, []⟩ : SeriesEntry Unit) cfg), v.2.2)

theorem nextBase_serializes (hf : Serializes F Sound Base) {s : σ} (hsound : Sound s) {payload : Bytes} {isFull : Bool}
    (hp : isFull = true → Base payload) : ∃ b, Precompute.nextBase F s (some payload) isFull = .ok b ∧ Base b := by
  obtain ⟨base, hbase, hok⟩ := hf.emptyBase s hsound
  obtain ⟨full, hfull, -, hfb⟩ := hf.snapshot s hsound
  unfold Precompute.nextBase
  rw [hbase]
  match base with
  | some (b :: bs) => exact ⟨_, rfl, hok _ rfl⟩
  | some [] | none =>
    cases isFull with
    | true => exact ⟨_, rfl, hp rfl⟩
    | false => exact ⟨full, by rw [hfull]; rfl, hfb⟩

theorem boundaryDelta_serializes (hf : Serializes F Sound Base) (hgos : cfg.gosDeltaEpsilon = ⟨0⟩) {base : Option Bytes}
    (hb : ∀ b, base = some b → Base b) {s : σ} (hsound : Sound s) :
    ∃ next payload, boundaryDelta F cfg base s = (some next, some payload) ∧ Base next := by
  have hmode : applyGosMode F s cfg = s := by rw [applyGosMode, hgos]; rfl
  obtain ⟨full, hfull, -, hfb⟩ := hf.snapshot s hsound
  unfold boundaryDelta
  split
  · rw [hmode]
    cases base with
    | none =>
      obtain ⟨b, hn, hbb⟩ := @nextBase_serializes _ _ _ _ hf _ hsound full true fun _ => hfb
      refine ⟨b, (full, true), ?_, hbb⟩
      simp [payloadAgainst, hfull, Except.map, hn]
    | some prev =>
      obtain ⟨s', payload, isFull, hd, hs', -, hp⟩ := hf.delta s prev cfg.deltaThreshold hsound (hb prev rfl)
      obtain ⟨b, hn, hbb⟩ := @nextBase_serializes _ _ _ _ hf _ hs' payload isFull hp
      refine ⟨b, (payload, isFull), ?_, hbb⟩
      simp [payloadAgainst, hd, hn]
  · exact ⟨full, (full, true), by rw [hfull]; rfl, hfb⟩

variable {r : WindowState.Rotation σ} {w : Precompute.WindowState σ}

theorem finishRotate_triples (hf : Serializes F Sound Base) (hgos : cfg.gosDeltaEpsilon = ⟨0⟩)
    (nowMs : Nat)
    (hown : ∀ e ∈ r.entries, OwnKey cfg e) (hnodup : (r.entries.map SeriesEntry.seriesKey).Nodup)
    (hsound : ∀ e ∈ r.entries, Sound e.sketch) (hb : Based Base w.snapshotCache.outbound) :
    (Precompute.finishRotate F w r cfg nowMs).2.map (triple cfg) =
        r.entries.map (tripleOf cfg r.startMs r.endMs ∘ goView) ∧
      Based Base (Precompute.finishRotate F w r cfg nowMs).1.snapshotCache.outbound := by
  have hfin := @finishRotate_finished σ F cfg w r nowMs hown hnodup
  have hdelta := fun e he => @boundaryDelta_serializes σ F cfg Sound Base hf hgos
    (w.snapshotCache.outbound.lookup e.seriesKey) (fun b h => hb e.seriesKey b h) e.sketch (hsound e he)
  constructor
  · rw [hfin.envs, map_filterMap, ← filterMap_eq_map]
    refine filterMap_congr fun e he => ?_
    obtain ⟨next, payload, hd, -⟩ := hdelta e he
    rw [closingEnvelope, hd]
    rfl
  · intro key b hl
    by_cases hk : key ∈ r.entries.map SeriesEntry.seriesKey
    · obtain ⟨e, he, rfl⟩ := List.mem_map.mp hk
      obtain ⟨next, payload, hd, hnext⟩ := hdelta e he
      rw [hfin.base e he, hd] at hl
      exact some.inj hl ▸ hnext
    · rcases hfin.kept key hk with hkept | hkept <;> rw [hkept] at hl
      · exact hb key b hl
      · cases hl

theorem seriesPayload_serializes (hr : Serializes R Sound' Base') {outbound : GoMap Bytes Bytes}
    (hb : Based Base' outbound) {entry : SeriesEntry τ} (hsound : Sound' entry.sketch) :
    ∃ outbound' payload isFull, seriesPayload R outbound entry cfg = .ok (outbound', payload, isFull) ∧
      payload ≠ [] ∧ Based Base' outbound' := by
  obtain ⟨full, hfull, hne, hfb⟩ := hr.snapshot _ hsound
  obtain ⟨base, hbase, hok⟩ := hr.emptyBase _ hsound
  unfold seriesPayload computeDelta
  dsimp only
  split
  · obtain ⟨payload, isFull, hpayload, hpne, hp⟩ : ∃ payload isFull, deltaPayload R outbound
        (seriesKeyForEntry cfg entry.resourceLabels entry.labels) entry.sketch cfg.deltaThreshold =
          .ok (some payload, isFull) ∧ payload ≠ [] ∧ (isFull = true → Base' payload) := by
      unfold deltaPayload
      cases hl : outbound.lookup (seriesKeyForEntry cfg entry.resourceLabels entry.labels) with
      | none => exact ⟨full, true, by rw [hfull]; rfl, hne, fun _ => hfb⟩
      | some prev =>
        obtain ⟨s', payload, isFull, hd, -, hpne, hp⟩ := hr.delta _ prev cfg.deltaThreshold hsound (hb _ _ hl)
        exact ⟨payload, isFull, congrArg Prod.snd hd, hpne, hp⟩
    obtain ⟨b, hnext, hbb⟩ : ∃ b, nextBase R entry.sketch (some payload) isFull = .ok b ∧ Base' b := by
      unfold nextBase
      rw [hbase]
      match base with
      | some b => exact ⟨b, rfl, hok _ rfl⟩
      | none =>
        cases isFull with
        | true => exact ⟨payload, rfl, hp rfl⟩
        | false => exact ⟨full, by rw [hfull]; rfl, hfb⟩
    rw [hpayload]
    refine ⟨_, payload, isFull, ?_, hpne, hb.insert hbb (seriesKeyForEntry cfg entry.resourceLabels entry.labels)⟩
    simp [bind, Except.bind, hnext, pure, Except.pure]
  · exact ⟨_, _, _, by rw [hfull]; rfl, hne, hb.insert hfb _⟩

structure Emits (cfg : PrecomputeConfig) (Base' : Bytes → Prop) (startMs endMs : Nat) (entries : List (SeriesEntry τ))
    (acc acc' : PrecomputeImpl τ × List SketchEnvelope) : Prop where
  envelopes : acc'.2.map (triple cfg) = acc.2.map (triple cfg) ++
    entries.map (tripleOf cfg startMs endMs ∘ SeriesEntry.view)
  based : Based Base' acc'.1.outbound
  emitted : ∀ x ∈ acc'.1.emitted, x ∈ acc.1.emitted ∨ x.1 ∈ entries ∧ x.2.windowEndMs = endMs
  same : acc'.1.cfg = acc.1.cfg ∧ acc'.1.closed = acc.1.closed ∧ acc'.1.window = acc.1.window

theorem finishEntries_emits (hr : Serializes R Sound' Base') (startMs endMs : Nat) (entries : List (SeriesEntry τ)) :
    ∀ acc : PrecomputeImpl τ × List SketchEnvelope, (∀ e ∈ entries, Sound' e.sketch) → Based Base' acc.1.outbound →
      Emits cfg Base' startMs endMs entries acc (entries.foldl (finishEntry R cfg startMs endMs) acc) := by
  induction entries with
  | nil => exact fun acc _ hb => ⟨(append_nil _).symm, hb, fun x h => Or.inl h, rfl, rfl, rfl⟩
  | cons e rest ih =>
    intro acc he hb
    obtain ⟨outbound, payload, isFull, hpay, hne, hb'⟩ :=
      @seriesPayload_serializes τ R cfg Sound' Base' hr _ hb e (he e mem_cons_self)
    let env := envelopeOf e cfg startMs endMs payload isFull
    have hstep : finishEntry R cfg startMs endMs acc e =
        ({ acc.1 with outbound, emitted := acc.1.emitted ++ [(e, env)] }, acc.2 ++ [env]) := by
      rw [finishEntry, hpay]
      exact if_neg hne
    rw [foldl_cons, hstep]
    have h := ih ({ acc.1 with outbound, emitted := acc.1.emitted ++ [(e, env)] }, acc.2 ++ [env])
      (fun e' h => he e' (mem_cons_of_mem _ h)) hb'
    refine ⟨?_, h.based, fun x hx => ?_, h.same⟩
    · rw [h.envelopes, map_append, append_assoc]
      rfl
    · rcases h.emitted x hx with hx | ⟨hx, hend⟩
      · rcases mem_append.mp hx with hx | hx
        · exact Or.inl hx
        · obtain rfl := mem_singleton.mp hx
          exact Or.inr ⟨mem_cons_self, rfl⟩
      · exact Or.inr ⟨mem_cons_of_mem _ hx, hend⟩

/-! ### The simulation -/

/-- Entries of one series with the same labels and count, of a window that ends at `endMs`. -/
structure Alike (A : Family σ τ) (endMs : Nat) (e : Precompute.SeriesEntry σ) (e' : SeriesEntry τ) : Prop where
  view : goView e = e'.view
  sound : A.Sound e.sketch
  sound' : A.Sound' e'.sketch
  inside : ∀ obs ∈ e'.contents, obs.timestampMs < endMs

structure Mirrors (A : Family σ τ) (cfg : PrecomputeConfig) (p : Precompute σ) (q : PrecomputeImpl τ) : Prop where
  queue : p.pendingOutput = []
  config' : q.cfg = some cfg ∧ q.closed = false
  initialized : p.window.initialized = q.window.initialized
  bounds : p.window.activeStartMs = q.window.activeStartMs ∧ p.window.activeEndMs = q.window.activeEndMs
  series : ∀ key, Rel (Alike A q.window.activeEndMs) (p.window.series.lookup key) (q.window.series.lookup key)
  based : Based A.Base p.window.snapshotCache.outbound
  based' : Based A.Base' q.outbound
  blank : q.window.initialized = false → q.window.series = ∅
  emitted : ∀ x ∈ q.emitted, ∀ obs ∈ x.1.contents, obs.timestampMs < x.2.windowEndMs

theorem WindowState.rotateLocked_eq (w : WindowState τ) (nowMs : Nat) (ρ : SeriesOrder τ) :
    (w.rotateLocked nowMs cfg ρ).1 = { w with series := ∅ }.advanceWindow nowMs cfg ∧
      (w.rotateLocked nowMs cfg ρ).2.1 = (w.series.range ρ).map Prod.snd ∧
      ((w.rotateLocked nowMs cfg ρ).2.1 ≠ [] →
        (w.rotateLocked nowMs cfg ρ).2.2 = (w.activeStartMs, w.activeEndMs)) := by
  unfold rotateLocked
  split
  · rename_i hlen
    have hempty := WindowState.eq_empty_of_len hlen
    have hrange : w.series.range ρ = [] := length_eq_zero_iff.mp ((length_range _ _).trans hlen)
    refine ⟨?_, by rw [hrange]; rfl, fun h => absurd rfl h⟩
    rw [← hempty]
  · exact ⟨rfl, rfl, fun _ => rfl⟩

variable {A : Family σ τ} {p : Precompute σ} {q : PrecomputeImpl τ}

theorem Mirrors.view (h : Mirrors A cfg p q) (key : Bytes) :
    (p.window.series.lookup key).map goView = (q.window.series.lookup key).map SeriesEntry.view := by
  have hrel := h.series key
  generalize p.window.series.lookup key = found at hrel ⊢
  generalize q.window.series.lookup key = found' at hrel ⊢
  cases hrel with
  | some halike => exact congrArg some halike.view
  | none => rfl

/-- What a call leaves and returns in Go and in Rust: mirroring runtimes and the same triples. -/
def Follows (A : Family σ τ) (cfg : PrecomputeConfig) (x : Precompute σ × List SketchEnvelope)
    (y : PrecomputeImpl τ × List SketchEnvelope) : Prop :=
  Mirrors A cfg x.1 y.1 ∧ (x.2.map (triple cfg)).Perm (y.2.map (triple cfg))

def closing (F : SketchImpl σ) (cfg : PrecomputeConfig) (p : Precompute σ)
    (x : Precompute.WindowState σ × WindowState.Rotation σ) (nowMs : Nat) : Precompute σ × List SketchEnvelope :=
  ({ p with window := (Precompute.finishRotate F x.1 x.2 cfg nowMs).1 },
    (Precompute.finishRotate F x.1 x.2 cfg nowMs).2)

theorem Mirrors.close (hs : Shared cfg) (hp : Ready cfg p) (h : Mirrors A cfg p q) {ω : Precompute.SeriesOrder σ}
    {nowMs : Nat}
    (hrot : WindowState.Rotated cfg ω nowMs p.window w r) (hi : q.window.initialized = true) (at_ : Nat)
    (ρ : SeriesOrder τ) :
    Follows A cfg (closing A.go cfg p (w, r) at_) (finishRotate A.rust
      { q with window := (q.window.rotateLocked nowMs cfg ρ).1 } (q.window.rotateLocked nowMs cfg ρ).2) := by
  obtain ⟨hw', hentries', hrange'⟩ := @rotateLocked_eq τ cfg q.window nowMs ρ
  generalize q.window.rotateLocked nowMs cfg ρ = rotated at hw' hentries' hrange'
  obtain ⟨w', entries', startMs', endMs'⟩ := rotated
  dsimp only at hw' hentries' hrange'
  have hviews : (r.entries.map goView).Perm (entries'.map SeriesEntry.view) := by
    rw [hrot.entries, hentries', List.map_map, List.map_map]
    exact map_range_perm h.view ω ρ
  have hlive : ∀ e ∈ r.entries, p.window.series.lookup e.seriesKey = some e := fun e he =>
    hp.keyed.entry_of_mem (hrot.entries ▸ he)
  have hsound : ∀ e ∈ r.entries, A.Sound e.sketch := fun e he => by
    have hrel := h.series e.seriesKey
    rw [hlive e he] at hrel
    generalize q.window.series.lookup e.seriesKey = found at hrel
    cases hrel with
    | some halike => exact halike.sound
  have hlook : ∀ e ∈ entries', ∃ e₀, Alike A q.window.activeEndMs e₀ e := by
    rw [hentries']
    rintro _ he
    obtain ⟨⟨key, e⟩, hmem, rfl⟩ := List.mem_map.mp he
    have hrel := h.series key
    rw [mem_range.mp hmem] at hrel
    generalize p.window.series.lookup key = found at hrel
    cases hrel with
    | some halike => exact ⟨_, halike⟩
  have hgo := finishRotate_triples A.serializes hs.gos at_ (fun e he => hp.keyed.ownKey (hlive e he))
    (by rw [hrot.entries, hp.keyed.range_keys]; exact nodup_keys_range _ _) hsound
    (by rw [hrot.snapshotCache]; exact h.based)
  have hsame := (@finishRotate_writes σ A.go cfg w r at_).same
  have hrust := @finishEntries_emits τ A.rust cfg _ _ A.serializes' startMs' endMs' entries' ({ q with window := w' },
    []) (fun e he => (hlook e he).elim fun _ halike => halike.sound') h.based'
  have hfin : finishRotate A.rust { q with window := w' } (entries', startMs', endMs') =
      entries'.foldl (finishEntry A.rust cfg startMs' endMs') ({ q with window := w' }, []) := by
    unfold finishRotate
    rw [h.config'.1]
  -- the bounds advance alike, since both windows start from the same ones
  have hadv : w'.series = ∅ ∧ w'.initialized = true ∧ w.activeStartMs = w'.activeStartMs ∧
      w.activeEndMs = w'.activeEndMs := by
    rw [hrot.advanced.1, hrot.advanced.2, hw']
    unfold advanceWindow Precompute.WindowState.advanceWindow
    rw [hs.step, h.bounds.1, h.bounds.2]
    dsimp only
    split <;> exact ⟨rfl, hi, rfl, rfl⟩
  rw [hfin]
  obtain ⟨hcfg', hclosed', hwin'⟩ := hrust.same
  refine ⟨⟨h.queue, ⟨hcfg'.trans h.config'.1, hclosed'.trans h.config'.2⟩, ?_, ?_, fun key => ?_, hgo.2, hrust.based,
    fun hno => ?_, fun x hx obs hobs => ?_⟩, ?_⟩
  · rw [hwin']
    exact (hsame.initialized.trans (hrot.initialized.trans (h.initialized.trans hi))).trans hadv.2.1.symm
  · rw [hwin']
    exact ⟨hsame.activeStartMs.trans hadv.2.2.1, hsame.activeEndMs.trans hadv.2.2.2⟩
  · rw [hwin', hadv.1, closing, hsame.series, hrot.series]
    exact .none
  · rw [hwin', hadv.2.1] at hno
    cases hno
  · rcases hrust.emitted x hx with hx | ⟨hx, hend⟩
    · exact h.emitted x hx obs hobs
    · obtain ⟨_, halike⟩ := hlook x.1 hx
      rw [hend, (Prod.mk.inj (hrange' (ne_nil_of_mem hx))).2]
      exact halike.inside obs hobs
  · rw [closing, hgo.1, hrust.envelopes, map_nil, nil_append, ← List.map_map, ← List.map_map]
    by_cases hnil : r.entries = []
    · rw [hnil, map_nil] at hviews
      rw [hnil, ← hviews.nil_eq]
      exact Perm.refl _
    · have hne' : entries' ≠ [] := by
        rintro rfl
        exact hnil (map_eq_nil_iff.mp hviews.eq_nil)
      obtain ⟨hstart', hend'⟩ := Prod.mk.inj (hrange' hne')
      rw [(hrot.range hnil).1, (hrot.range hnil).2, hstart', hend', h.bounds.1, h.bounds.2]
      exact hviews.map _

theorem Mirrors.stay (h : Mirrors A cfg p q) (at_ : Nat) :
    Follows A cfg (closing A.go cfg p (p.window, {}) at_) (finishRotate A.rust q ([], 0, 0)) := by
  have hrust : finishRotate A.rust q ([], 0, 0) = (q, []) := by
    unfold finishRotate
    rw [h.config'.1]
    rfl
  rw [hrust]
  exact ⟨h, Perm.refl _⟩

theorem Mirrors.tick (hs : Shared cfg) (hp : Ready cfg p) (h : Mirrors A cfg p q) (nowMs : Nat) (ω : RangeOrders σ)
    (ρ : SeriesOrder τ) : Follows A cfg (Precompute.tick A.go p nowMs ω) (tick A.rust q nowMs ρ) := by
  have hgo : Precompute.tick A.go p nowMs ω = closing A.go cfg p (p.window.rotate A.go nowMs cfg ω.series) nowMs := by
    unfold Precompute.tick
    rw [hp.config]
    dsimp only
    rw [rotateAndFinish_eq hp.pending, takePendingOutput, closing]
    dsimp only
    rw [h.queue, hp.config, nil_append]
  have hrust : Rust.tick A.rust q nowMs ρ = finishRotate A.rust { q with window := (q.window.rotate nowMs cfg ρ).1 }
      (q.window.rotate nowMs cfg ρ).2 := by
    unfold Rust.tick
    rw [h.config'.1]
  rw [hgo, hrust]
  have hsize : 0 < cfg.windowSizeMs := hs.size
  rcases @Precompute.WindowState.rotate_cases σ A.go cfg hs.notSliding p.window nowMs ω.series with
    ⟨heq, hdue⟩ | ⟨hi, hdue, hrot⟩
  · have hq : q.window.rotate nowMs cfg ρ = (q.window, [], 0, 0) := by
      unfold WindowState.rotate
      split
      · rfl
      · rename_i hi
        rw [← h.initialized, Bool.not_eq_false] at hi
        exact if_pos ⟨hsize, h.bounds.2 ▸ hdue hi⟩
    rw [heq, hq]
    exact h.stay nowMs
  · have hi' : q.window.initialized = true := h.initialized ▸ hi
    have hq : q.window.rotate nowMs cfg ρ = q.window.rotateLocked nowMs cfg ρ := by
      have hnow := hdue (hs.step ▸ hsize)
      rw [h.bounds.2] at hnow
      rw [WindowState.rotate, if_neg (by rw [hi']; decide), if_neg (by omega)]
    rw [hq]
    exact h.close hs hp hrot hi' nowMs ρ

theorem Mirrors.drain (hs : Shared cfg) (hp : Ready cfg p) (h : Mirrors A cfg p q) (ω : RangeOrders σ)
    (ρ : SeriesOrder τ) : Follows A cfg (Precompute.drain A.go p ω) (drain A.rust q ρ) := by
  have hgo : Precompute.drain A.go p ω =
      closing A.go cfg p (p.window.drain A.go cfg ω.series) (p.window.drain A.go cfg ω.series).2.endMs := by
    rw [drain_eq hp.config hp.pending, takePendingOutput, closing]
    dsimp only
    rw [h.queue, nil_append]
  have hrust : Rust.drain A.rust q ρ = finishRotate A.rust { q with window := (q.window.drain cfg ρ).1 }
    (q.window.drain cfg ρ).2 := by
    unfold Rust.drain
    rw [h.config'.1]
  rw [hgo, hrust]
  have hlen : p.window.series.len = q.window.series.len := by
    have hperm := map_range_perm h.view ω.series ρ
    simpa [GoMap.length_range] using hperm.length_eq
  by_cases hzero : p.window.series.len = 0
  · have hq : q.window.drain cfg ρ = (q.window, [], 0, 0) := by
      rw [WindowState.drain, if_pos (hlen.symm.trans hzero : q.window.series.len = 0), ite_self]
    rw [drain_empty hs.notSliding (WindowState.eq_empty_of_len hzero), hq]
    exact h.stay _
  · have hi : q.window.initialized = true := by
      by_contra hno
      rw [hlen, h.blank (Bool.eq_false_iff.mpr hno)] at hzero
      exact hzero rfl
    have hq : q.window.drain cfg ρ = q.window.rotateLocked p.window.activeEndMs cfg ρ := by
      rw [WindowState.drain, if_neg (by rw [hi]; decide), if_neg (hlen ▸ hzero), h.bounds.2]
    rcases @Precompute.WindowState.drain_cases σ A.go cfg hs.notSliding p.window ω.series with ⟨-, hempty⟩ | ⟨-, hrot⟩
    · rw [hempty (h.initialized.trans hi)] at hzero
      exact absurd rfl hzero
    · rw [hq]
      exact h.close hs hp hrot hi _ ρ

/-! ### Observations -/

variable {obs : Observation}

theorem WindowState.observe_uncapped (hcap : cfg.maxSeries = 0) {key : Bytes} (hkey : seriesKeyFor cfg obs = key)
    (w : WindowState τ) (ρ : SeriesOrder τ) :
    w.observe R obs cfg ρ =
      let w₀ := w.initWindow obs.timestampMs cfg
      let entry := ((w₀.series.lookup key).map fun e => { e with lastSeenMs := max e.lastSeenMs obs.timestampMs }).getD
        (newEntry R obs cfg)
      if 0 < cfg.window.allowedLateness ∧ obs.timestampMs + cfg.latenessMs < w₀.activeStartMs then (w₀, some .lateData)
      else ({ w₀ with series := w₀.series.insert key (observed R entry obs) },
        (R.observe entry.sketch obs.value).2.map .sketchObserve) := by
  subst hkey
  unfold observe
  dsimp only
  generalize w.initWindow obs.timestampMs cfg = w₀
  have hroom : w₀.makeRoom cfg ρ = .ok w₀ := by
    rw [makeRoom, hcap]
    exact if_neg fun h => absurd h.1 (by decide)
  unfold entryFor
  rw [hroom]
  cases w₀.series.lookup (seriesKeyFor cfg obs) <;> rfl

theorem Mirrors.stats (h : Mirrors A cfg p q) (stats : PrecomputeStats) : Mirrors A cfg (withStats p stats) q :=
  { h with }

theorem Mirrors.init (hs : Shared cfg) (h : Mirrors A cfg p q) (refMs : Nat) :
    Mirrors A cfg { p with window := p.window.initWindow refMs cfg }
      { q with window := q.window.initWindow refMs cfg } := by
  unfold Precompute.WindowState.initWindow initWindow
  rw [hs.step, h.initialized]
  cases hi : q.window.initialized with
  | true =>
    rw [if_pos rfl, if_pos rfl]
    exact h
  | false =>
    rw [if_neg (by decide), if_neg (by decide)]
    refine { h with initialized := rfl, bounds := ⟨rfl, rfl⟩, blank := nofun, series := fun key => ?_ }
    have hrel := h.series key
    dsimp only
    rw [h.blank hi] at hrel ⊢
    generalize p.window.series.lookup key = found at hrel
    cases hrel
    exact .none

theorem Mirrors.insert (h : Mirrors A cfg p q) (hi : q.window.initialized = true) (key : Bytes)
    {e : Precompute.SeriesEntry σ} {e' : SeriesEntry τ} (halike : Alike A q.window.activeEndMs e e') :
    Mirrors A cfg { p with window.series := p.window.series.insert key e }
      { q with window.series := q.window.series.insert key e' } := by
  refine { h with blank := fun hno => (nomatch hi.symm.trans hno), series := fun k => ?_ }
  dsimp only
  by_cases hk : k = key
  · rw [hk, AList.lookup_insert, AList.lookup_insert]
    exact .some halike
  · rw [AList.lookup_insert_ne hk, AList.lookup_insert_ne hk]
    exact h.series k

theorem Inside.opened (hsize : 0 < cfg.windowSizeMs) {w : WindowState τ} (h : Inside cfg w obs)
    (hadmits : cfg.admits obs = true) :
    (w.initWindow obs.timestampMs cfg).initialized = true ∧
      obs.timestampMs < (w.initWindow obs.timestampMs cfg).activeEndMs := by
  unfold initWindow
  split
  · rename_i hi
    exact ⟨hi, (h hadmits hi).1⟩
  · dsimp only
    rw [if_neg (by omega)]
    exact ⟨rfl, Nat.lt_div_mul_add hsize⟩

theorem Mirrors.found (hs : Shared cfg) (h : Mirrors A cfg p q) (obs : Observation) :
    Alike A q.window.activeEndMs (p.window.entryFor A.go (cfg.seriesKeyFor obs) obs cfg)
      (((q.window.series.lookup (cfg.seriesKeyFor obs)).map fun e =>
        { e with lastSeenMs := max e.lastSeenMs obs.timestampMs }).getD (newEntry A.rust obs cfg)) := by
  unfold Precompute.WindowState.entryFor
  have hrel := h.series (cfg.seriesKeyFor obs)
  generalize p.window.series.lookup (cfg.seriesKeyFor obs) = found at hrel ⊢
  generalize q.window.series.lookup (cfg.seriesKeyFor obs) = found' at hrel ⊢
  cases hrel with
  | some halike => exact { halike with }
  | none =>
    have hwhole : cfg.isWholeStream = cfg.globalAggregation := by simp [PrecomputeConfig.isWholeStream, hs.scope]
    have hsketch : WindowState.newSketch A.go cfg = A.go.factory := by
      rw [WindowState.newSketch, hs.unsampled]
      rfl
    simp only [getD_none, map_none, Precompute.WindowState.newEntry, hwhole, hsketch]
    exact ⟨rfl, A.serializes.factory, A.serializes'.factory, forall_mem_nil _⟩

theorem Alike.recorded {endMs : Nat} {e : Precompute.SeriesEntry σ} {e' : SeriesEntry τ} (h : Alike A endMs e e')
    (cfg : PrecomputeConfig) (hend : obs.timestampMs < endMs) :
    Alike A endMs (WindowState.recordedEntry A.go e obs cfg) (observed A.rust e' obs) ∧
      (A.go.observe e.sketch obs.value).2.isSome = (A.rust.observe e'.sketch obs.value).2.isSome := by
  have hsame := A.rejecting e.sketch e'.sketch obs.value h.sound h.sound'
  have hobs := A.serializes.observe e.sketch obs.value h.sound
  have hobs' := A.serializes'.observe e'.sketch obs.value h.sound'
  have hv := h.view
  simp only [goView, SeriesEntry.view, Prod.mk.injEq] at hv
  unfold WindowState.recordedEntry observed
  generalize A.go.observe e.sketch obs.value = x at hsame hobs ⊢
  generalize A.rust.observe e'.sketch obs.value = y at hsame hobs' ⊢
  rcases x with ⟨s, _ | err⟩ <;> rcases y with ⟨t, _ | err'⟩
  · refine ⟨⟨by simp [goView, SeriesEntry.view, hv], hobs, hobs', fun o ho => ?_⟩, rfl⟩
    exact forall_mem_append.mpr ⟨h.inside, forall_mem_singleton.mpr hend⟩ o ho
  · cases hsame
  · cases hsame
  · exact ⟨⟨by simp [goView, SeriesEntry.view, hv], hobs, hobs', h.inside⟩, rfl⟩

theorem Mirrors.observe (hs : Shared cfg) (hp : Ready cfg p) (h : Mirrors A cfg p q)
    (scalar : obs.carried = none) (hin : Inside cfg q.window obs) (ω : RangeOrders σ) (ρ : SeriesOrder τ) :
    Mirrors A cfg (Precompute.observe A.go p obs ω).1 (observe A.rust q obs ρ).1 ∧
      (Precompute.observe A.go p obs ω).2.isSome = (observe A.rust q obs ρ).2.isSome := by
  have hrust : Rust.observe A.rust q obs ρ =
      if cfg.admits obs = false then (q, none)
      else ({ q with window := (q.window.observe A.rust obs cfg ρ).1 }, (q.window.observe A.rust obs cfg ρ).2) := by
    unfold Rust.observe
    rw [if_neg (by rw [h.config'.2]; decide), h.config'.1]
  unfold Precompute.observe
  rcases observeWith_cases A.go p none scalar ω with ⟨hclosed, -⟩ | ⟨counted, counted', ⟨hnot, heq⟩ | ⟨p', hfuture, -⟩⟩
  · cases hp.isOpen.symm.trans hclosed
  case inr.inr =>
    obtain ⟨c, hc, hadmits, rfl, hend⟩ := observeOnce_futureData hfuture
    cases hp.config.symm.trans hc
    have hlt := (hin.opened hs.size hadmits).2
    rw [← ((h.stats counted).init hs obs.timestampMs).bounds.2] at hlt
    exact absurd hend (Nat.not_le.mpr hlt)
  rw [heq, hrust]
  have h₁ := h.stats counted
  have hcfg₁ : (withStats p counted).cfg = some cfg := hp.config
  generalize withStats p counted = p₁ at h₁ hcfg₁ hnot ⊢
  unfold observeOnce at hnot ⊢
  simp only [hcfg₁, getD_none] at hnot ⊢
  cases hadmits : cfg.admits obs with
  | false => exact ⟨h₁.stats counted', rfl⟩
  | true =>
  obtain ⟨hi, hend⟩ := hin.opened hs.size hadmits
  have h₂ := h₁.init hs obs.timestampMs
  have hkey : seriesKeyFor cfg obs = cfg.seriesKeyFor obs := by
    rw [seriesKeyFor, seriesKeyForEntry_eq hs]
    rfl
  have hlow : cfg.window.allowedLateness = 0 → (q.window.initWindow obs.timestampMs cfg).activeStartMs ≤
      obs.timestampMs := by
    unfold initWindow
    split
    · rename_i hi
      exact (hin hadmits hi).2
    · dsimp only
      split
      · exact fun _ => Nat.le_refl _
      · exact fun _ => Nat.div_mul_le_self _ _
  have hnonneg := hs.lateness
  simp only [hadmits, Bool.true_eq_false, if_false, observe_uncapped hs.uncapped hkey] at hnot ⊢
  generalize q.window.initWindow obs.timestampMs cfg = w' at hi hend h₂ hlow ⊢
  have hstart : (p₁.window.initWindow obs.timestampMs cfg).activeStartMs = w'.activeStartMs := h₂.bounds.1
  rcases @Precompute.WindowState.observeWithKey_uncapped σ A.go cfg hs.uncapped p₁.window
    (cfg.seriesKeyFor obs) obs with ⟨err, hv, honce⟩ | ⟨hv, stats, honce⟩ <;> rw [honce] at hnot ⊢
  · rcases WindowState.validateTimestamp_eq_some hv with ⟨rfl, -⟩ | ⟨rfl, -, hlate⟩
    · exact absurd rfl hnot
    · rw [if_pos (by omega)]
      exact ⟨{ h₂.stats counted' with }, rfl⟩
  · obtain ⟨-, hlate⟩ := WindowState.validateTimestamp_eq_none hv
    rw [if_neg (by omega)]
    have hseries := @Precompute.WindowState.series_initWindow σ cfg p₁.window obs.timestampMs
    obtain ⟨halike, hsame⟩ := (h₂.found hs obs).recorded cfg hend
    have hnext := (h₂.insert hi (cfg.seriesKeyFor obs) halike).stats counted'
    unfold Precompute.WindowState.entryFor at hnext hsame ⊢
    dsimp only at hnext hsame
    rw [hseries] at hnext hsame
    exact ⟨{ hnext with }, by simpa using hsame⟩

/-! ### Runs -/

theorem mirrors_start :
    Mirrors A cfg (Precompute.History.start cfg : Precompute.History σ).p (History.start cfg : History τ).p := by
  exact ⟨rfl, ⟨rfl, rfl⟩, rfl, ⟨rfl, rfl⟩, fun _ => .none, nofun, nofun, fun _ => rfl, forall_mem_nil _⟩

/-- Two histories whose runtimes mirror each other and whose hosts have seen the same. -/
structure Agree (A : Family σ τ) (cfg : PrecomputeConfig) (h : Precompute.History σ) (k : History τ) : Prop where
  ready : Ready cfg h.p
  mirrors : Mirrors A cfg h.p k.p
  verdicts : h.verdicts.map (fun v => v.2.isSome) = k.verdicts.map isSome
  returned : (h.returned.map (triple cfg)).Perm (k.returned.map (triple cfg))

theorem Agree.step (hs : Shared cfg) {h : Precompute.History σ} {k : History τ} (ha : Agree A cfg h k)
    (c : HostCall σ τ) (hin : ∀ obs scalar ω ρ, c = .observe obs scalar ω ρ → Inside cfg k.p.window obs) :
    Agree A cfg (h.step A.go c.go) (k.step A.rust c) := by
  have hready := (ha.ready.step (F := A.go) hs.toTumbling (Guard.met_free h.p c.go)).ready
  cases c with
  | observe obs scalar ω ρ =>
    obtain ⟨hm, hv⟩ := ha.mirrors.observe hs ha.ready scalar (hin obs scalar ω ρ rfl) ω ρ
    refine ⟨hready, hm, ?_, ha.returned⟩
    simp only [HostCall.go, Precompute.History.step, History.step, map_append, ha.verdicts, map_cons, map_nil, hv]
  | tick nowMs ω ρ =>
    obtain ⟨hm, hp⟩ := ha.mirrors.tick hs ha.ready nowMs ω ρ
    refine ⟨hready, hm, ha.verdicts, ?_⟩
    simp only [HostCall.go, Precompute.History.step, History.step, map_append]
    exact ha.returned.append hp
  | drain ω ρ =>
    obtain ⟨hm, hp⟩ := ha.mirrors.drain hs ha.ready ω ρ
    refine ⟨hready, hm, ha.verdicts, ?_⟩
    simp only [HostCall.go, Precompute.History.step, History.step, map_append]
    exact ha.returned.append hp

/-- In every run whose observations lie inside the window they find, both runtimes reject the same
observations and emit the same triples, and the Rust runtime emits no observation in a window that ends
before it. -/
theorem rust_mirrors_go (A : Family σ τ) (cfg : PrecomputeConfig) (hs : Shared cfg) (calls : List (HostCall σ τ))
    (hin : ∀ pre obs scalar ω ρ, pre ++ [.observe obs scalar ω ρ] <+: calls →
      Inside cfg ((History.start cfg).run A.rust pre).p.window obs) :
    ((Precompute.History.start cfg).run A.go (calls.map HostCall.go)).verdicts.map (fun v => v.2.isSome) =
        ((History.start cfg).run A.rust calls).verdicts.map isSome ∧
      (((Precompute.History.start cfg).run A.go (calls.map HostCall.go)).returned.map (triple cfg)).Perm
        (((History.start cfg).run A.rust calls).returned.map (triple cfg)) ∧
      ∀ x ∈ ((History.start cfg).run A.rust calls).p.emitted, ∀ obs ∈ x.1.contents,
        obs.timestampMs < x.2.windowEndMs := by
  have hrun : Agree A cfg ((Precompute.History.start cfg).run A.go (calls.map HostCall.go))
      ((History.start cfg).run A.rust calls) := by
    induction calls using reverseRecOn with
    | nil => exact ⟨ready_start hs.toTumbling, mirrors_start, rfl, Perm.refl _⟩
    | append_singleton calls c ih =>
      have ih := ih fun pre obs scalar ω ρ hpre => hin pre obs scalar ω ρ (hpre.trans (prefix_append _ _))
      simp only [Precompute.History.run, History.run, map_append, map_cons, map_nil, foldl_append,
        foldl_cons, foldl_nil]
      exact ih.step hs c fun obs scalar ω ρ hc => hin calls obs scalar ω ρ (hc ▸ prefix_refl _)
  exact ⟨hrun.verdicts, hrun.returned, hrun.mirrors.emitted⟩

def counters : Family Nat Nat where
  go := counter
  rust := counter
  Sound _ := True
  Sound' _ := True
  Base _ := True
  Base' _ := True
  serializes := ⟨trivial, fun _ _ _ => trivial, fun _ _ => ⟨_, rfl, nofun, trivial⟩,
    fun _ _ _ _ _ => ⟨_, _, _, rfl, trivial, nofun, fun _ => trivial⟩, fun _ _ => ⟨_, rfl, fun _ _ => trivial⟩⟩
  serializes' := ⟨trivial, fun _ _ _ => trivial, fun _ _ => ⟨_, rfl, nofun, trivial⟩,
    fun _ _ _ _ _ => ⟨_, _, _, rfl, trivial, nofun, fun _ => trivial⟩, fun _ _ => ⟨_, rfl, fun _ _ => trivial⟩⟩
  rejecting _ _ _ _ _ := rfl

def bothAt (timestampMs : Nat) : HostCall Nat Nat :=
  .observe { timestampMs, metric := str "cpu" } (if_neg (by simp)) (.stored _) (.stored _)

theorem rust_mirrors_go_within :
    ((Precompute.History.start tenMs).run counter
        ([bothAt 12, bothAt 15, .drain (.stored _) (.stored _)].map HostCall.go)).verdicts.map (fun v => v.2.isSome) =
      ((History.start tenMs).run counter [bothAt 12, bothAt 15, .drain (.stored _) (.stored _)]).verdicts.map
        isSome := by
  refine (rust_mirrors_go counters tenMs ⟨⟨rfl, by decide, rfl, rfl⟩, rfl, by decide, rfl, rfl⟩ _ ?_).1
  intro pre obs scalar ω ρ hpre
  rcases pre with _ | ⟨a, _ | ⟨b, _ | ⟨c, pre⟩⟩⟩
  · exact nofun
  · simp only [cons_append, nil_append, cons_prefix_cons, bothAt] at hpre
    obtain ⟨rfl, ⟨rfl, -⟩, -⟩ := hpre
    intro _ _
    decide +kernel
  · simp [cons_prefix_cons] at hpre
  · simp [cons_prefix_cons] at hpre

/-- A sample beyond the window: the Go runtime closes the window for it, the Rust runtime counts it in the
window it does not belong to. After a rotation a sample of the closed window is late only in Go. -/
theorem rust_window_takes_future_and_late :
    (((Precompute.History.start tenMs).run counter
          ([bothAt 12, bothAt 31, bothAt 12, .drain (.stored _) (.stored _)].map HostCall.go)).returned.map fun env =>
        (env.windowStartMs, env.windowEndMs, env.count)) = [(10, 20, 1), (30, 40, 1)] ∧
      (((History.start tenMs).run counter [bothAt 12, bothAt 31, bothAt 12,
        .drain (.stored _) (.stored _)]).returned.map
        fun env => (env.windowStartMs, env.windowEndMs, env.count)) = [(10, 20, 3)] ∧
      ((Precompute.History.start tenMs).run counter
          ([bothAt 12, .tick 20 (.stored _) (.stored _), bothAt 12].map HostCall.go)).verdicts.map
            (fun v => v.2.isSome) =
        [false, true] ∧
      ((History.start tenMs).run counter
          [bothAt 12, .tick 20 (.stored _) (.stored _), bothAt 12]).verdicts.map isSome = [false, false] := by
  decide +kernel

end AsapCollector.Precompute.Rust
