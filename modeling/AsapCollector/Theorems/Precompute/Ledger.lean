import AsapCollector.Theorems.Precompute.Tumbling

/-! A ledger gives an amount to every value that is observed and to every payload that is sent, and says what a series
still owes its receiver. What a value amounts to may depend on those before it: a meter carries that. -/

namespace AsapCollector.Precompute

open List Option Event Lane

variable {σ : Type} {F : SketchImpl σ} {cfg : PrecomputeConfig} {G : Guard σ} {key : Bytes}

def emittedSketch (F : SketchImpl σ) (cfg : PrecomputeConfig) (sketch : σ) : σ :=
  let sketch :=
    if cfg.aggKind ≠ .sum ∧ cfg.sketchType = .countSketch ∧ Float64.lt ⟨0⟩ cfg.gosDeltaEpsilon = false then
      F.markSubWindowEmitted sketch
    else sketch
  if subWindowSegmentMode cfg then F.reset sketch else sketch

variable (entry : SeriesEntry σ)

theorem sketch_afterEmit : (afterEmit F cfg entry).sketch = emittedSketch F cfg entry.sketch := by
  have hmark : (subWindowMarkEmitted F entry cfg).sketch =
      if cfg.aggKind ≠ .sum ∧ cfg.sketchType = .countSketch ∧ Float64.lt ⟨0⟩ cfg.gosDeltaEpsilon = false then
        F.markSubWindowEmitted entry.sketch
      else entry.sketch := by
    unfold subWindowMarkEmitted
    cases hgos : Float64.lt ⟨0⟩ cfg.gosDeltaEpsilon <;> cases cfg.sketchType <;> by_cases hsum : cfg.aggKind = .sum <;>
      simp [hsum]
  unfold afterEmit emittedSketch
  rw [← hmark]
  split <;> rfl

/-- The amount of some observations by a meter, and what the meter shows after them. -/
def metered {P M : Type} [AddCommMonoid M] (meter : P → ObservationValue → P × M) : P → List Observation → P × M
  | p, [] => (p, 0)
  | p, obs :: rest =>
    let (p, m) := meter p obs.value
    let (p, m') := metered meter p rest
    (p, m + m')

variable {M : Type}

theorem metered_append {P : Type} [AddCommMonoid M] (meter : P → ObservationValue → P × M) (obs : List Observation) :
    ∀ (p : P) (rest : List Observation), metered meter p (rest ++ obs) =
      ((metered meter (metered meter p rest).1 obs).1,
        (metered meter p rest).2 + (metered meter (metered meter p rest).1 obs).2)
  | p, [] => by simp [metered]
  | p, o :: rest => by simp [metered, metered_append meter obs _ rest, add_assoc]

theorem metered_const [AddCommMonoid M] (worth : ObservationValue → M) : ∀ observations : List Observation,
    (metered (fun (_ : Unit) v => ((), worth v)) () observations).2 = (observations.map fun obs => worth obs.value).sum
  | [] => rfl
  | obs :: rest => by simp [metered, metered_const worth rest]

theorem metered_total [AddCommMonoid M] (worth : ObservationValue → M) : ∀ (p : M) (observations : List Observation),
    metered (fun p v => (p + worth v, worth v)) p observations =
      (p + (observations.map fun obs => worth obs.value).sum, (observations.map fun obs => worth obs.value).sum)
  | p, [] => by simp [metered]
  | p, obs :: rest => by simp [metered, metered_total worth, add_assoc]

/-- Amounts, and what a series owes. `G` is what the books ask of a series that emits or closes. -/
structure Ledger (F : SketchImpl σ) (cfg : PrecomputeConfig) (G : Guard σ) (P M : Type) [AddCommMonoid M] where
  /-- What the meter of a new window shows. -/
  start : P
  /-- The amount of an observed value. -/
  meter : P → ObservationValue → P × M
  /-- The amount of a payload, and whether it is whole. -/
  value : Bytes × Bool → M
  /-- The payloads that a receiver is asked to read. -/
  readable : Bytes × Bool → Prop
  owes : Option Bytes → σ → P → M → Prop
  /-- The bases that a series without an entry may have. -/
  idle : Option Bytes → Prop
  /-- What a window may still owe that was closed over a sketch, by what its meter shows. -/
  left : σ → P → M → Prop
  idle_none : idle none
  opened : ∀ base, idle base → owes base (WindowState.newSketch F cfg) start 0
  observed : ∀ base sketch p m v, owes base sketch p m → (∃ text, F.observe sketch v = (sketch, some text)) ∨
    ∃ sketch', F.observe sketch v = (sketch', none) ∧ owes base sketch' (meter p v).1 (m + (meter p v).2)
  emitted : ∀ base (entry : SeriesEntry σ) p m, owes base entry.sketch p m → cfg.deltaTransmission = true →
    G.emit base entry →
    match subWindowDelta F cfg base entry.sketch with
    | (base', sketch, none) => owes base' sketch p m
    | (base', sketch, some payload) => readable payload ∧
        ∃ m', value payload + m' = m ∧ owes base' (emittedSketch F cfg sketch) p m'
  closed : ∀ base (entry : SeriesEntry σ) p m, owes base entry.sketch p m → G.close base entry →
    idle (boundaryDelta F cfg base entry.sketch).1 ∧
      (∀ payload, (boundaryDelta F cfg base entry.sketch).2 = some payload → readable payload) ∧
      ∃ m', ((boundaryDelta F cfg base entry.sketch).2.map value).getD 0 + m' = m ∧ left entry.sketch p m'

/-! ### The books of a lane -/

def emissionsIn (log : List (Event σ)) (startMs : Nat) : List SketchEnvelope :=
  log.filterMap fun
    | .closed _ _ _ => none
    | .emitted _ _ env => if env.windowStartMs = startMs then some env else none

theorem emissionsIn_append (log evs : List (Event σ)) (s : Nat) :
    emissionsIn (log ++ evs) s = emissionsIn log s ++ emissionsIn evs s :=
  filterMap_append

theorem emissionsIn_emitted (c : PrecomputeConfig) (e : SeriesEntry σ) (env : SketchEnvelope) (s : Nat) :
    emissionsIn [emitted c e env] s = if env.windowStartMs = s then [env] else [] := by
  by_cases h : env.windowStartMs = s <;> simp [emissionsIn, h]

namespace Lane

def emissions (l : Lane σ) (startMs : Nat) : List SketchEnvelope := emissionsIn l.log startMs

def admissions (l : Lane σ) (startMs : Nat) : List Observation :=
  (l.accepted.filter fun a => a.startMs = startMs).map Acceptance.obs

end Lane

section
variable {P M : Type} [AddCommMonoid M] (L : Ledger F cfg G P M)

def Ledger.amount (env : SketchEnvelope) : M := L.value (env.payload, !env.encoding.isDelta)

def Ledger.shipped (envs : List SketchEnvelope) : M := (envs.map L.amount).sum

/-- The amount of the observations of a window, and what its meter shows after them. -/
def Ledger.admitted (observations : List Observation) : P × M :=
  metered L.meter L.start observations

structure Ledger.Sent (L : Ledger F cfg G P M) (env : SketchEnvelope) : Prop where
  windowEnd : env.windowEndMs = env.windowStartMs + cfg.windowSizeMs
  readable : L.readable (env.payload, !env.encoding.isDelta)

structure Ledger.Balanced (L : Ledger F cfg G P M) (l : Lane σ) : Prop where
  emittedBy : ∀ c e env, Event.emitted c e env ∈ l.log →
    env.windowStartMs < l.startMs ∨ env.windowStartMs = l.startMs ∧ l.live.isSome = true
  sent : ∀ c e env, Event.emitted c e env ∈ l.log → L.Sent env
  live : ∀ e, l.live = some e → ∃ m, L.owes l.base e.sketch (L.admitted (l.admissions l.startMs)).1 m ∧
    L.shipped (l.emissions l.startMs) + m = (L.admitted (l.admissions l.startMs)).2
  idle : l.live = none → L.idle l.base
  closed : ∀ e s t, Event.closed e s t ∈ l.log → ∃ m, L.left e.sketch (L.admitted (l.admissions s)).1 m ∧
    L.shipped (l.emissions s) + m = (L.admitted (l.admissions s)).2

variable (L : Ledger F cfg G P M)

theorem Ledger.balanced_new : L.Balanced {} where
  emittedBy _ _ _ h := nomatch h
  sent _ _ _ h := nomatch h
  live _ h := nomatch h
  idle _ := L.idle_none
  closed _ _ _ h := nomatch h

variable {L}

@[simp] theorem Ledger.shipped_nil : L.shipped [] = 0 := rfl

@[simp] theorem Ledger.admitted_nil : L.admitted [] = (L.start, 0) := rfl

theorem Ledger.shipped_append (envs envs' : List SketchEnvelope) :
    L.shipped (envs ++ envs') = L.shipped envs + L.shipped envs' := by
  simp [shipped, sum_append]

theorem Ledger.admitted_append_singleton (observations : List Observation) (obs : Observation) :
    L.admitted (observations ++ [obs]) = ((L.meter (L.admitted observations).1 obs.value).1,
      (L.admitted observations).2 + (L.meter (L.admitted observations).1 obs.value).2) := by
  unfold admitted
  rw [metered_append]
  simp [metered]

variable {l : Lane σ} {s next startMs : Nat}

theorem Ledger.Balanced.emissions_eq_nil (h : L.Balanced l) (hlive : l.live = none)
    (hs : l.startMs ≤ s) : l.emissions s = [] := by
  refine filterMap_eq_nil_iff.mpr fun ev hev => ?_
  cases ev with
  | closed _ _ _ => rfl
  | emitted c e env =>
    refine if_neg fun heq => ?_
    rcases h.emittedBy c e env hev with hlt | ⟨-, hsome⟩
    · omega
    · rw [hlive] at hsome
      cases hsome

/-! ### Steps -/

theorem admissions_eq_nil (ht : Tally cfg key l) (hlive : l.live = none)
    (hs : l.startMs ≤ s) : l.admissions s = [] := by
  unfold admissions
  rw [map_eq_nil_iff, filter_eq_nil_iff]
  intro a ha hat
  have hat := of_decide_eq_true hat
  rcases ht.started a ha with hlt | ⟨-, hsome⟩
  · omega
  · rw [hlive] at hsome
    cases hsome

theorem Ledger.Balanced.entryFor (h : L.Balanced l) (ht : Tally cfg key l) (obs : Observation) :
    ∃ m, L.owes l.base (l.entryFor F cfg key obs).sketch (L.admitted (l.admissions l.startMs)).1 m ∧
      L.shipped (l.emissions l.startMs) + m = (L.admitted (l.admissions l.startMs)).2 := by
  unfold Lane.entryFor
  cases hl : l.live with
  | some e => exact h.live e hl
  | none =>
    rw [h.emissions_eq_nil hl (Nat.le_refl _), admissions_eq_nil ht hl (Nat.le_refl _)]
    exact ⟨0, L.opened l.base (h.idle hl), add_zero _⟩

theorem Ledger.Balanced.refused (h : L.Balanced l) (ht : Tally cfg key l) {obs : Observation}
    {text : String} (herr : (F.observe (l.entryFor F cfg key obs).sketch obs.value).2 = some text) :
    L.Balanced (l.record F cfg key obs) where
  emittedBy c e env hev := (h.emittedBy c e env hev).imp_right fun hs => ⟨hs.1, rfl⟩
  sent := h.sent
  live e he := by
    cases he
    obtain ⟨m, howes, hsum⟩ := h.entryFor ht obs
    refine ⟨m, ?_, hsum⟩
    rw [sketch_recordedEntry]
    rcases L.observed _ _ _ m obs.value howes with ⟨text', hobs⟩ | ⟨sketch', hobs, -⟩
    · rw [hobs]
      exact howes
    · rw [hobs] at herr
      cases herr
  idle hno := nomatch hno
  closed := h.closed

theorem admissions_append (l : Lane σ) (live : Option (SeriesEntry σ)) (a : Acceptance) (s : Nat) :
    ({ l with live := live, accepted := l.accepted ++ [a] } : Lane σ).admissions s =
      l.admissions s ++ if a.startMs = s then [a.obs] else [] := by
  unfold admissions
  by_cases hs : a.startMs = s <;> simp [hs]

theorem Ledger.Balanced.accepted (h : L.Balanced l) (ht : Tally cfg key l) {obs : Observation}
    (hok : (F.observe (l.entryFor F cfg key obs).sketch obs.value).2 = none) :
    L.Balanced { l.record F cfg key obs with accepted := l.accepted ++ [⟨key, l.startMs, obs⟩] } where
  emittedBy c e env hev := (h.emittedBy c e env hev).imp_right fun hs => ⟨hs.1, rfl⟩
  sent := h.sent
  live e he := by
    cases he
    obtain ⟨m, howes, hsum⟩ := h.entryFor ht obs
    have happ := admissions_append l (some (WindowState.recordedEntry F (l.entryFor F cfg key obs) obs cfg))
      ⟨key, l.startMs, obs⟩ l.startMs
    rw [if_pos rfl] at happ
    have hadm := (congrArg L.admitted happ).trans (admitted_append_singleton _ _)
    refine ⟨m + (L.meter (L.admitted (l.admissions l.startMs)).1 obs.value).2, ?_, ?_⟩
    · rw [sketch_recordedEntry]
      rcases L.observed _ _ _ m obs.value howes with ⟨text, hobs⟩ | ⟨sketch', hobs, howes'⟩
      · rw [hobs] at hok
        cases hok
      · rw [hobs]
        exact (congrArg Prod.fst hadm).symm ▸ howes'
    · show L.shipped (l.emissions l.startMs) + _ = _
      rw [← add_assoc, hsum]
      exact (congrArg Prod.snd hadm).symm
  idle hno := nomatch hno
  closed e s t hev := by
    have hlt := (ht.closed e s t hev).1
    have happ := admissions_append l (some (WindowState.recordedEntry F (l.entryFor F cfg key obs) obs cfg))
      ⟨key, l.startMs, obs⟩ s
    rw [if_neg (by dsimp only; omega), append_nil] at happ
    exact (congrArg (fun obs => ∃ m, L.left e.sketch (L.admitted obs).1 m ∧
      L.shipped (l.emissions s) + m = (L.admitted obs).2) happ).mpr (h.closed e s t hev)

theorem isDelta_boundaryEncoding (cfg : PrecomputeConfig) (isFull : Bool) :
    (boundaryEncoding cfg isFull).isDelta = !isFull := by
  unfold boundaryEncoding
  cases isFull <;> split <;> rfl

theorem Ledger.sent_boundaryEnvelope (startMs : Nat) {payload : Bytes × Bool}
    (h : L.readable payload) : L.Sent (boundaryEnvelope F cfg entry startMs (startMs + cfg.windowSizeMs) payload) where
  windowEnd := rfl
  readable := by
    show L.readable (payload.1, !(boundaryEncoding cfg payload.2).isDelta)
    rw [isDelta_boundaryEncoding, Bool.not_not]
    exact h

theorem Ledger.sent_subWindowEnvelope (startMs : Nat) {payload : Bytes × Bool}
    (h : L.readable payload) : L.Sent (subWindowEnvelope cfg entry startMs (startMs + cfg.windowSizeMs) payload) where
  windowEnd := rfl
  readable := by obtain ⟨bytes, _ | _⟩ := payload <;> exact h

theorem Ledger.amount_boundaryEnvelope (startMs endMs : Nat) (payload : Bytes × Bool) :
    L.amount (boundaryEnvelope F cfg entry startMs endMs payload) = L.value payload := by
  show L.value (payload.1, !(boundaryEncoding cfg payload.2).isDelta) = _
  rw [isDelta_boundaryEncoding, Bool.not_not]

theorem Ledger.amount_subWindowEnvelope (startMs endMs : Nat) (payload : Bytes × Bool) :
    L.amount (subWindowEnvelope cfg entry startMs endMs payload) = L.value payload := by
  obtain ⟨bytes, _ | _⟩ := payload <;> rfl

variable {entry : SeriesEntry σ}

theorem Ledger.Balanced.emit (h : L.Balanced l) (ht : Tally cfg key l)
    (hlive : l.live = some entry) (hdelta : cfg.deltaTransmission = true) (hguard : G.emit l.base entry) :
    L.Balanced (l.emit F cfg entry) := by
  obtain ⟨m, howes, hsum⟩ := h.live entry hlive
  have hlaw := L.emitted l.base entry _ m howes hdelta hguard
  unfold Lane.emit
  generalize subWindowDelta F cfg l.base entry.sketch = d at hlaw ⊢
  obtain ⟨base, sketch, _ | payload⟩ := d
  · refine ⟨fun c e env hev => (h.emittedBy c e env hev).imp_right fun hs => ⟨hs.1, rfl⟩, h.sent, fun e he => ?_,
      nofun, h.closed⟩
    cases he
    exact ⟨m, hlaw, hsum⟩
  · obtain ⟨hread, m', hm, howes'⟩ := hlaw
    let env := subWindowEnvelope cfg entry l.startMs (l.startMs + cfg.windowSizeMs) payload
    have hemissions : ∀ s, emissionsIn (l.log ++ [.emitted cfg entry env]) s =
        l.emissions s ++ if l.startMs = s then [env] else [] := fun s => by
      rw [emissionsIn_append, emissionsIn_emitted]
      rfl
    refine ⟨fun c e env' hev => ?_, fun c e env' hev => ?_, fun e he => ?_, nofun, fun e s t hev => ?_⟩
    · rcases mem_append.mp hev with hev | hev
      · exact (h.emittedBy c e env' hev).imp_right fun hs => ⟨hs.1, rfl⟩
      · cases mem_singleton.mp hev
        exact Or.inr ⟨rfl, rfl⟩
    · rcases mem_append.mp hev with hev | hev
      · exact h.sent c e env' hev
      · cases mem_singleton.mp hev
        exact sent_subWindowEnvelope entry l.startMs hread
    · cases he
      refine ⟨m', by rw [sketch_afterEmit]; exact howes', ?_⟩
      show L.shipped (emissionsIn (l.log ++ [.emitted cfg entry env]) l.startMs) +
        m' = (L.admitted (l.admissions l.startMs)).2
      rw [hemissions, if_pos rfl, shipped_append, ← hsum, ← hm, add_assoc]
      simp [shipped, env, amount_subWindowEnvelope]
    · have hev : Event.closed e s t ∈ l.log := (mem_append.mp hev).resolve_right fun hno => nomatch mem_singleton.mp hno
      obtain ⟨mc, hleft, hclosed⟩ := h.closed e s t hev
      have hlt := (ht.closed e s t hev).1
      refine ⟨mc, hleft, ?_⟩
      show L.shipped (emissionsIn (l.log ++ [.emitted cfg entry env]) s) + mc = (L.admitted (l.admissions s)).2
      rw [hemissions, if_neg (by omega), append_nil]
      exact hclosed

theorem emissionsIn_boundaryEvents (entry : SeriesEntry σ) (startMs endMs : Nat) (payload : Option (Bytes × Bool))
    (s : Nat) :
    emissionsIn (boundaryEvents F cfg entry startMs endMs payload) s =
      if startMs = s then (payload.map (boundaryEnvelope F cfg entry startMs endMs)).toList else [] := by
  cases payload with
  | none =>
    split <;> rfl
  | some payload =>
    exact emissionsIn_emitted cfg entry (boundaryEnvelope F cfg entry startMs endMs payload) s

theorem Ledger.Balanced.close (h : L.Balanced l) (ht : Tally cfg key l)
    (hlive : l.live = some entry) (hnext : l.startMs < next) (hguard : G.close l.base entry) :
    L.Balanced (l.close F cfg entry next) := by
  obtain ⟨m, howes, hsum⟩ := h.live entry hlive
  obtain ⟨hidle, hread, m', hm, hleft⟩ := L.closed l.base entry _ m howes hguard
  unfold Lane.close
  generalize boundaryDelta F cfg l.base entry.sketch = d at hidle hread hm ⊢
  obtain ⟨base, payload⟩ := d
  have hemissions : ∀ s, emissionsIn (l.log ++ boundaryEvents F cfg entry l.startMs (l.startMs + cfg.windowSizeMs)
      payload) s = l.emissions s ++ if l.startMs = s then (payload.map (boundaryEnvelope F cfg entry l.startMs
        (l.startMs + cfg.windowSizeMs))).toList else [] := fun s => by
    rw [emissionsIn_append, emissionsIn_boundaryEvents]
    rfl
  refine ⟨fun c e env hev => Or.inl ?_, fun c e env hev => ?_, nofun, fun _ => hidle, fun e s t hev => ?_⟩
  · rcases mem_append.mp hev with hev | hev
    · rcases h.emittedBy c e env hev with hlt | ⟨heq, -⟩
      · exact hlt.trans hnext
      · exact heq ▸ hnext
    · rcases mem_cons.mp hev with hno | hev
      · cases hno
      · obtain ⟨p, -, heq⟩ := map_eq_some_iff.mp (mem_toList.mp hev)
        cases heq
        exact hnext
  · rcases mem_append.mp hev with hev | hev
    · exact h.sent c e env hev
    · rcases mem_cons.mp hev with hno | hev
      · cases hno
      · obtain ⟨p, hp, heq⟩ := map_eq_some_iff.mp (mem_toList.mp hev)
        cases heq
        exact sent_boundaryEnvelope entry l.startMs (hread p hp)
  · show ∃ m, L.left e.sketch (L.admitted (l.admissions s)).1 m ∧
      L.shipped (emissionsIn (l.log ++ _) s) + m = (L.admitted (l.admissions s)).2
    rw [hemissions]
    rcases mem_append.mp hev with hev | hev
    · obtain ⟨mc, hleftc, hclosed⟩ := h.closed e s t hev
      have hlt := (ht.closed e s t hev).1
      exact ⟨mc, hleftc, by rw [if_neg (by omega), append_nil]; exact hclosed⟩
    · obtain ⟨rfl, rfl, rfl⟩ := closed_mem_boundaryEvents hev
      refine ⟨m', hleft, ?_⟩
      rw [if_pos rfl, shipped_append, ← hsum, ← hm, add_assoc]
      cases payload with
      | none => rfl
      | some p => simp [shipped, amount_boundaryEnvelope]

theorem Ledger.Balanced.pass (h : L.Balanced l) (hlive : l.live = none)
    (hnext : l.startMs ≤ next) : L.Balanced { l with startMs := next } where
  emittedBy c e env hev := by
    rcases h.emittedBy c e env hev with hlt | ⟨-, hsome⟩
    · exact Or.inl (hlt.trans_le hnext)
    · rw [hlive] at hsome
      cases hsome
  sent := h.sent
  live e he := by
    rw [show l.live = some e from he] at hlive
    cases hlive
  idle := h.idle
  closed := h.closed

theorem Ledger.Balanced.step {l l' : Lane σ} (hs : Step F cfg G key l l') (ht : Tally cfg key l)
    (h : L.Balanced l) : L.Balanced l' := by
  cases hs with
  | accept obs hkey _ hlate hend hok => exact h.accepted ht hok
  | refuse obs _ text herr => exact h.refused ht herr
  | emit entry hlive hdelta _ hguard => exact h.emit ht hlive hdelta hguard
  | close entry next hlive hnext hguard => exact h.close ht hlive hnext hguard
  | pass next hlive hnext => exact h.pass hlive hnext
  | forget hlive =>
    exact ⟨h.emittedBy, h.sent, (fun e he => by rw [show l.live = some e from he] at hlive; cases hlive),
      fun _ => L.idle_none, h.closed⟩

/-! ### Runs -/

theorem emissions_lane (h : History σ) (key : Bytes) (s : Nat) : (h.lane key).emissions s = h.emissions key s := by
  show emissionsIn (h.p.window.log.filter fun ev => ev.key = key) s = h.p.window.log.filterMap _
  unfold emissionsIn
  rw [filterMap_filter]
  congr 1
  funext ev
  cases ev with
  | closed e a b => simp [emissionOf?]
  | emitted c e env => by_cases hk : e.seriesKey = key <;> simp [Event.emissionOf?, Event.key, hk]

theorem admissions_lane (h : History σ) (key : Bytes) (s : Nat) : (h.lane key).admissions s = h.admissions key s := by
  show ((h.accepted.filter fun a => a.key = key).filter _).map _ = _
  rw [List.filter_filter]
  congr 2
  simp [and_comm]

def Event.isClose (key : Bytes) (startMs : Nat) : Event σ → Bool
  | .closed entry s _ => entry.seriesKey = key && s = startMs
  | .emitted _ _ _ => false

theorem History.closed_iff (h : History σ) (key : Bytes) (startMs : Nat) :
    h.p.window.log.any (isClose key startMs) = true ↔ h.Closed key startMs := by
  rw [List.any_eq_true]
  constructor
  · rintro ⟨ev, hev, hclose⟩
    cases ev with
    | closed entry s t =>
      simp only [isClose, Bool.and_eq_true, decide_eq_true_eq] at hclose
      obtain ⟨hkey, rfl⟩ := hclose
      exact ⟨entry, t, hev, hkey⟩
    | emitted _ _ _ => cases hclose
  · rintro ⟨entry, t, hev, hkey⟩
    exact ⟨_, hev, by simp [isClose, hkey]⟩

instance (h : History σ) (key : Bytes) (startMs : Nat) : Decidable (h.Closed key startMs) :=
  decidable_of_iff _ (h.closed_iff key startMs)

variable {calls : List (Call σ)}

theorem Ledger.run_balanced (ht : Tumbling cfg) (L : Ledger F cfg G P M) (hmet : G.AllMet F (History.start cfg) calls)
    (key : Bytes) :
    Tally cfg key (((History.start cfg).run F calls).lane key) ∧
      L.Balanced (((History.start cfg).run F calls).lane key) :=
  guarded_induction (P := fun l => Tally cfg key l ∧ L.Balanced l) ht ⟨Tally.new, L.balanced_new⟩
    (fun _ _ hs h => ⟨h.1.step hs, h.2.step hs h.1⟩) hmet

variable {key : Bytes}

theorem Ledger.Balanced.sent_emissions {h : History σ} (hb : L.Balanced (h.lane key)) {env : SketchEnvelope}
    (henv : env ∈ h.emissions key startMs) : L.Sent env ∧ env.windowStartMs = startMs := by
  obtain ⟨ev, hev, hsome⟩ := mem_filterMap.mp henv
  cases ev with
  | closed _ _ _ => cases hsome
  | emitted c e env' =>
    dsimp only [emissionOf?] at hsome
    split at hsome
    · rename_i hkey
      cases hsome
      exact ⟨hb.sent c e env (mem_filter.mpr ⟨hev, decide_eq_true hkey.1⟩), hkey.2⟩
    · cases hsome

theorem Ledger.run_closed (ht : Tumbling cfg) (L : Ledger F cfg G P M) (hmet : G.AllMet F (History.start cfg) calls)
    {endMs : Nat} (hev : Event.closed entry startMs endMs ∈ ((History.start cfg).run F calls).p.window.log) :
    ∃ m, L.left entry.sketch (L.admitted (((History.start cfg).run F calls).admissions entry.seriesKey startMs)).1 m ∧
      L.shipped (((History.start cfg).run F calls).emissions entry.seriesKey startMs) + m =
        (L.admitted (((History.start cfg).run F calls).admissions entry.seriesKey startMs)).2 := by
  rw [← emissions_lane, ← admissions_lane]
  exact (L.run_balanced ht hmet entry.seriesKey).2.closed entry startMs endMs
    (mem_filter.mpr ⟨hev, decide_eq_true rfl⟩)

theorem Ledger.run_live (ht : Tumbling cfg) (L : Ledger F cfg G P M) (hmet : G.AllMet F (History.start cfg) calls)
    (hlive : ((History.start cfg).run F calls).p.window.series.lookup key = some entry) :
    ∃ base m, L.owes base entry.sketch (L.admitted (((History.start cfg).run F calls).admissions key
        ((History.start cfg).run F calls).p.window.activeStartMs)).1 m ∧
      L.shipped (((History.start cfg).run F calls).emissions key
        ((History.start cfg).run F calls).p.window.activeStartMs) + m =
      (L.admitted (((History.start cfg).run F calls).admissions key
        ((History.start cfg).run F calls).p.window.activeStartMs)).2 := by
  rw [← emissions_lane, ← admissions_lane]
  obtain ⟨m, howes, hsum⟩ := (L.run_balanced ht hmet key).2.live entry hlive
  exact ⟨_, m, howes, hsum⟩

theorem Ledger.run_emitted (ht : Tumbling cfg) (L : Ledger F cfg G P M) (hdelta : cfg.deltaTransmission = true)
    {before : List (Call σ)} {nowMs : Nat} {ω : RangeOrders σ}
    (hmet : G.AllMet F (History.start cfg) (before ++ [.emitSubWindow nowMs ω]))
    (hlive : ((History.start cfg).run F (before ++ [.emitSubWindow nowMs ω])).p.window.series.lookup key = some entry) :
    ∃ base found p m, L.owes base (found : SeriesEntry σ).sketch p m ∧ G.emit base found ∧
      entry = (visited F cfg base found).2.1 := by
  obtain ⟨hbefore, hlast, -⟩ := always_append.mp hmet
  have hrun : (History.start cfg).run F (before ++ [.emitSubWindow nowMs ω]) =
      ((History.start cfg).run F before).step F (.emitSubWindow nowMs ω) := foldl_append
  rw [hrun] at hlive
  obtain ⟨found, hfound, rfl⟩ := ((ready_start ht).run ht hbefore).ready.emitSubWindow_live ht hdelta hlive
  obtain ⟨m, howes, -⟩ := (L.run_balanced ht hbefore key).2.live found hfound
  exact ⟨_, found, _, m, howes, (hlast key found hfound).2 rfl, rfl⟩

end

end AsapCollector.Precompute
