import AsapCollector.Theorems.Sdk.Exporter

/-! In every run in which an eviction deletes only sources whose ids nobody holds any more, and no two series of an
exporter look alike to the collector, a point that is sent with an id only gets the attributes of its own series or
none. -/

namespace AsapCollector

open List Option

/-- The exporter before it has measured or sent anything. -/
def Exporter.fresh (x : Exporter) : Exporter := { x with metrics := x.metrics.map RawMetric.config, dict := {} }

namespace World

/-- Exporters and a receiver that know no series yet. -/
def start (exporters : List Exporter) (ttl : Int) : World := ⟨exporters.map Exporter.fresh, { ttl := ttl }, [], [], []⟩

section Invariant

variable (xs : List Exporter) (series : Nat → List (Nat × Attributes)) (sc : SeriesCache)

def RequestOk (r : Nat × Request) : Prop :=
  ∃ x, xs[r.1]? = some x ∧ r.2.resourceKey = x.wireResourceKey ∧ ∀ t ∈ r.2.tasks, TaskOk sc x (series r.1) t

def ResponseOk (r : Nat × List Assignment) : Prop :=
  ∃ x, xs[r.1]? = some x ∧ ∀ a ∈ r.2, AssignmentOk sc x (series r.1) a

/-- A handler still has the source that the cache has, and what it has left and what it has given out are
right. -/
def HandlerOk (h : Handler) : Prop :=
  ∃ x, xs[h.exporter]? = some x ∧ h.resourceKey = x.wireResourceKey ∧ sc.sources.lookup h.resourceKey = some h.source ∧
    (∀ t ∈ h.todo, TaskOk sc x (series h.exporter) t) ∧ ∀ a ∈ h.assignments, AssignmentOk sc x (series h.exporter) a

/-- Every id that is held or carried somewhere is right; `xs` are the exporters at the start and `series`
the series they may have. -/
structure Inv (w : World) : Prop where
  allocated : w.cache.Allocated
  exporters : ∀ {i} {e : Exporter}, w.exporters[i]? = some e → ∃ x, xs[i]? = some x ∧ e.Ok w.cache x (series i)
  requests : ∀ r ∈ w.requests, RequestOk xs series w.cache r
  handlers : ∀ h ∈ w.handlers, HandlerOk xs series w.cache h
  responses : ∀ r ∈ w.responses, ResponseOk xs series w.cache r

end Invariant

variable {xs : List Exporter} {series : Nat → List (Nat × Attributes)} {sc sc' : SeriesCache} {w : World}

theorem RequestOk.keeps {r : Nat × Request} (h : RequestOk xs series sc r) (hk : sc.Keeps sc' r.2.resourceKey) :
    RequestOk xs series sc' r := by
  obtain ⟨x, hx, hres, htasks⟩ := h
  exact ⟨x, hx, hres, fun t ht => (htasks t ht).keeps (hres ▸ hk)⟩

theorem ResponseOk.keeps {r : Nat × List Assignment} (h : ResponseOk xs series sc r)
    (hk : ∀ a ∈ r.2, sc.Keeps sc' a.resourceKey) : ResponseOk xs series sc' r := by
  obtain ⟨x, hx, has⟩ := h
  exact ⟨x, hx, fun a ha => (has a ha).keeps ((has a ha).1 ▸ hk a ha)⟩

theorem HandlerOk.keeps {h : Handler} (hh : HandlerOk xs series sc h) (hk : sc.Keeps sc' h.resourceKey) :
    HandlerOk xs series sc' h := by
  obtain ⟨x, hx, hres, hsrc, htodo, has⟩ := hh
  exact ⟨x, hx, hres, (hk hsrc).1, fun t ht => (htodo t ht).keeps (hres ▸ hk), fun a ha => (has a ha).keeps (hres ▸ hk)⟩

theorem Inv.of_keeps (h : Inv xs series w) (halloc : sc'.Allocated) (hk : ∀ key, w.cache.Keeps sc' key) :
    Inv xs series { w with cache := sc' } where
  allocated := halloc
  exporters he := by
    obtain ⟨x, hx, hok⟩ := h.exporters he
    exact ⟨x, hx, hok.keeps (hk _)⟩
  requests r hr := (h.requests r hr).keeps (hk _)
  handlers hd hmem := (h.handlers hd hmem).keeps (hk _)
  responses r hr := (h.responses r hr).keeps fun a _ => hk _

theorem Inv.start (ttl : Int) : Inv xs series (start xs ttl) where
  allocated key src h := by simp [World.start] at h
  exporters {i e} he := by
    simp only [World.start, getElem?_map, map_eq_some_iff] at he
    obtain ⟨x, hx, rfl⟩ := he
    refine ⟨x, hx, rfl, rfl, fun {k m} hm => ?_, Dictionary.Sound.empty⟩
    simp only [Exporter.fresh, getElem?_map, map_eq_some_iff] at hm
    obtain ⟨c, hc, rfl⟩ := hm
    exact ⟨⟨c, hc, rfl⟩, Aggregator.Owns.empty, fun h => by simp [RawMetric.config] at h⟩
  requests r hr := by simp [World.start] at hr
  handlers hd hmem := by simp [World.start] at hmem
  responses r hr := by simp [World.start] at hr

variable {i k : Nat}

section
variable (h : Inv xs series w)
include h

theorem Inv.modify {f : Exporter → Exporter}
    (hf : ∀ {e x : Exporter}, xs[i]? = some x → e.Ok w.cache x (series i) → (f e).Ok w.cache x (series i)) :
    Inv xs series { w with exporters := w.exporters.modify i f } :=
  { h with
    exporters := fun {j e} he => by
      rw [getElem?_modify] at he
      obtain ⟨old, hold, heq⟩ := map_eq_some_iff.mp he
      obtain ⟨x, hx, hok⟩ := h.exporters hold
      refine ⟨x, hx, ?_⟩
      by_cases hij : i = j
      · subst hij
        simp only [if_true] at heq
        exact heq ▸ hf hx hok
      · simp only [hij, if_false] at heq
        exact heq ▸ hok }

theorem Inv.export (hdistinct : ∀ {i} {x : Exporter}, xs[i]? = some x → x.Distinguishes (series i))
    {e : Exporter} (he : w.exporters[i]? = some e) (orders : Nat → RangeOrder (Attributes × Nat)) :
    Inv xs series
      { w with exporters := w.exporters.set i (e.export orders).1, requests := w.requests ++
        [(i, (e.export orders).2)] } := by
  obtain ⟨x, hx, hok⟩ := h.exporters he
  obtain ⟨hok', hres, htasks⟩ := hok.export (hdistinct hx) orders
  refine { h with exporters := fun {j e'} hj => ?_, requests := fun r hr => ?_ }
  · by_cases hij : i = j
    · subst hij
      rw [getElem?_set_self (List.getElem?_eq_some_iff.mp he).1, some.injEq] at hj
      exact ⟨x, hx, hj ▸ hok'⟩
    · rw [getElem?_set_ne hij] at hj
      exact h.exporters hj
  · exact forall_mem_append.mpr ⟨h.requests, forall_mem_singleton.mpr ⟨x, hx, hres, htasks⟩⟩ r hr

theorem Inv.receive {as : List Assignment} (hk : w.responses[k]? = some (i, as)) :
    Inv xs series
      { w with exporters := w.exporters.modify i fun x => x.apply as, responses := w.responses.eraseIdx k } := by
  obtain ⟨x, hx, has⟩ := h.responses _ (mem_of_getElem? hk)
  have hmodified := h.modify (i := i) (f := fun x => x.apply as) fun {e x'} hx' hok => by
    obtain rfl : x = x' := some.inj (hx.symm.trans hx')
    exact hok.apply has
  exact { hmodified with responses := fun r hr => h.responses r (mem_of_mem_eraseIdx hr) }

theorem Inv.accept {r : Nat × Request} (hr : RequestOk xs series w.cache r) (now : Int) :
    Inv xs series (w.accept r.1 r.2 now) := by
  obtain ⟨halloc, hsource, hkeeps⟩ := SeriesCache.getOrCreateSource_spec h.allocated r.2.resourceKey
  refine { h.of_keeps halloc hkeeps with handlers := fun hd hmem => ?_ }
  rcases mem_append.mp hmem with hmem | hmem
  · exact (h.handlers hd hmem).keeps (hkeeps _)
  · obtain rfl := mem_singleton.mp hmem
    obtain ⟨x, hx, hres, htasks⟩ := hr
    exact ⟨x, hx, hres, hsource, fun t ht => (htasks t ht).keeps (hkeeps _), by simp⟩

end

theorem assignmentOk_of_rehydrate {x : Exporter} {s : List (Nat × Attributes)} {t : PointTask} {src : Nat} {now : Int}
    {a : Assignment} (ht : TaskOk sc x s t) (hsrc : sc.sources.lookup x.wireResourceKey = some src)
    (ha : ((sc.heap src).rehydrateDataPoint x.wireResourceKey t now).2.2 = some a) :
    AssignmentOk
      { sc with heap := Function.update sc.heap src ((sc.heap src).rehydrateDataPoint x.wireResourceKey t now).1 } x s
        a := by
  obtain ⟨heq, hne, hlt, hrec, hattrs, -⟩ := SeriesSource.rehydrateDataPoint_assignment ha
  obtain ⟨b, hb, m, hm, hscope, hname, htype, -, ⟨-, hpoint⟩ | ⟨hnil, -⟩⟩ := ht
  · refine ⟨congrArg Assignment.resourceKey heq, b, hb, m, hm, ?_, src, hsrc, hne, ?_, fun hlookup => ?_⟩
    · rw [congrArg Assignment.descriptor heq]
      simp only [Assignment.descriptor, RawMetric.wireDescriptor, hscope, hname, htype, hpoint]
    · simpa only [Function.update_self] using hlt
    · simp only [Function.update_self] at hlookup
      rw [hrec, some.injEq] at hlookup
      subst hlookup
      exact ⟨hname, hpoint⟩
  · exact absurd hnil hattrs

theorem Inv.process (h : Inv xs series w) {hd : Handler} (hk : w.handlers[k]? = some hd) {t : PointTask}
    {todo : List PointTask} (htodo : hd.todo = t :: todo) : Inv xs series (w.process k hd t todo) := by
  obtain ⟨x, hx, hres, hsrc, htasks, has⟩ := h.handlers hd (mem_of_getElem? hk)
  have ht := htasks t (htodo ▸ mem_cons_self)
  have hext := SeriesSource.extends_rehydrateDataPoint (w.cache.heap hd.source) hd.resourceKey hd.now
    ht.seriesID_eq_zero
  have hkeeps : ∀ key, w.cache.Keeps _ key := SeriesCache.keeps_update hext
  refine { h.of_keeps h.allocated.update hkeeps with handlers := fun hd' hmem => ?_ }
  rcases mem_or_eq_of_mem_set hmem with hmem | rfl
  · exact (h.handlers hd' hmem).keeps (hkeeps _)
  · refine ⟨x, hx, hres, hsrc, fun t' ht' => ?_, fun a ha => ?_⟩
    · exact (htasks t' (htodo ▸ mem_cons_of_mem t ht')).keeps (hkeeps _)
    · rcases mem_append.mp ha with ha | ha
      · exact (has a ha).keeps (hkeeps _)
      · have hnew := assignmentOk_of_rehydrate ht (hres ▸ hsrc) (hres ▸ mem_toList.mp ha)
        rwa [← hres] at hnew

theorem Inv.respond (h : Inv xs series w) {hd : Handler} (hk : w.handlers[k]? = some hd) (hdone : hd.todo = [])
    (hquiet : w.QuietStep (.respond k)) :
    Inv xs series
      { w with cache := w.cache.evict hd.now, handlers := w.handlers.eraseIdx k,
               responses := w.responses ++ [(hd.exporter, hd.assignments)] } := by
  have hcases : ∀ key, w.cache.Keeps (w.cache.evict hd.now) key ∨ w.Unheld k key := fun key =>
    (w.cache.evict_cases hd.now key).imp id fun ⟨src, hsrc, hdel⟩ =>
      hquiet hd hk hdone (key, src) (GoMap.mem_pairs.mpr hsrc) hdel
  have hassignments : ∀ {x} {s : List (Nat × Attributes)} {as : List Assignment},
      (∀ a ∈ as, AssignmentOk w.cache x s a) → (w.Unheld k x.wireResourceKey → as = []) →
      ∀ a ∈ as, AssignmentOk (w.cache.evict hd.now) x s a := by
    intro x s as has hnone a ha
    rcases hcases x.wireResourceKey with hkeeps | hunheld
    · exact (has a ha).keeps hkeeps
    · rw [hnone hunheld] at ha
      cases ha
  refine ⟨h.allocated.evict _, fun {i e} he => ?_, fun r hr => ?_, fun hd' hmem => ?_, fun r hr => ?_⟩
  · obtain ⟨x, hx, hok⟩ := h.exporters he
    refine ⟨x, hx, ?_⟩
    rcases hcases x.wireResourceKey with hkeeps | hunheld
    · exact hok.keeps hkeeps
    · exact hok.of_holdsNoID (hunheld.exporters e (mem_of_getElem? he) hok.wireResourceKey)
  · rcases hcases r.2.resourceKey with hkeeps | hunheld
    · exact (h.requests r hr).keeps hkeeps
    · obtain ⟨x, hx, hres, htasks⟩ := h.requests r hr
      refine ⟨x, hx, hres, fun t ht => ?_⟩
      obtain ⟨b, hb, m, hm, hscope, hname, htype, horigin, hpoint⟩ := htasks t ht
      refine ⟨b, hb, m, hm, hscope, hname, htype, horigin, hpoint.imp id fun ⟨_, _, _, hne, _⟩ => ?_⟩
      exact absurd (hunheld.requests r hr rfl t ht) hne
  · rcases hcases hd'.resourceKey with hkeeps | hunheld
    · exact (h.handlers hd' (mem_of_mem_eraseIdx hmem)).keeps hkeeps
    · exact absurd rfl (hunheld.handlers hd' hmem)
  · rcases mem_append.mp hr with hr | hr
    · obtain ⟨x, hx, has⟩ := h.responses r hr
      refine ⟨x, hx, hassignments has fun hunheld => eq_nil_iff_forall_not_mem.mpr fun a ha => ?_⟩
      exact hunheld.responses r hr a ha (has a ha).1
    · obtain rfl := mem_singleton.mp hr
      obtain ⟨x, hx, hres, -, -, has⟩ := h.handlers hd (mem_of_getElem? hk)
      exact ⟨x, hx, hassignments has fun hunheld => hunheld.own hd hk hres⟩

theorem Inv.step (h : Inv xs series w) (hdistinct : ∀ {i} {x : Exporter}, xs[i]? = some x → x.Distinguishes (series i))
    {op : WorldOp} (hmeasured : ∀ {i k m}, op = .measure i k m → (k, m.limited) ∈ series i) (hquiet : w.QuietStep op) :
    Inv xs series (w.step op) := by
  cases op with
  | measure i k m => exact h.modify fun _ hok => hok.measure (hmeasured rfl)
  | «export» i orders =>
    simp only [World.step]
    split
    · exact h
    · rename_i e he
      exact h.export hdistinct he orders
  | loseRequest k => exact { h with requests := fun r hr => h.requests r (mem_of_mem_eraseIdx hr) }
  | accept k now retried =>
    simp only [World.step]
    split
    · exact h
    · rename_i i req hk
      have hreq := h.requests _ (mem_of_getElem? hk)
      have hrest : Inv xs series { w with requests := if retried then w.requests else w.requests.eraseIdx k } := by
        refine { h with requests := fun r hr => ?_ }
        split at hr
        · exact h.requests r hr
        · exact h.requests r (mem_of_mem_eraseIdx hr)
      exact hrest.accept hreq now
  | process k =>
    simp only [World.step]
    split
    · exact h
    · rename_i hd hk
      split
      · exact h
      · rename_i t todo htodo
        exact h.process hk htodo
  | respond k =>
    simp only [World.step]
    split
    · exact h
    · rename_i hd hk
      split
      · rename_i hdone
        exact h.respond hk hdone hquiet
      · exact h
  | loseResponse k => exact { h with responses := fun r hr => h.responses r (mem_of_mem_eraseIdx hr) }
  | receive k =>
    simp only [World.step]
    split
    · exact h
    · rename_i i as hk
      exact h.receive hk

theorem Inv.run (h : Inv xs series w) (hdistinct : ∀ {i} {x : Exporter}, xs[i]? = some x → x.Distinguishes (series i))
    {ops : List WorldOp} (hmeasured : ∀ {i k m}, .measure i k m ∈ ops → (k, m.limited) ∈ series i)
    (hquiet : w.Quiet ops) :
    Inv xs series (w.run ops) :=
  hquiet.invariant (fun hop h hquiet => h.step hdistinct (fun heq => hmeasured (heq ▸ hop)) hquiet) h

theorem Inv.output (h : Inv xs series w) {op : WorldOp} {p : Rehydrated} (hp : w.output op = some p)
    (hattrs : p.sent.attributes = []) (hid : p.sent.seriesID ≠ 0) :
    p.result.attributes = [] ∨ p.result.attributes = p.sent.origin := by
  cases op with
  | process k =>
    simp only [World.output] at hp
    split at hp
    · cases hp
    · rename_i hd hk
      split at hp
      · cases hp
      · rename_i t todo htodo
        obtain rfl := some.inj hp
        obtain ⟨x, -, hres, hsrc, htasks, -⟩ := h.handlers hd (mem_of_getElem? hk)
        obtain ⟨b, -, m, -, -, hname, -, horigin, ⟨hzero, -⟩ | ⟨-, src, hsrc', -, -, hrec⟩⟩ :=
          htasks t (htodo ▸ mem_cons_self)
        · exact absurd hzero hid
        · refine (SeriesSource.rehydrateDataPoint_attributes hattrs).imp id ?_
          rintro ⟨rec, hlookup, hmetric, hresult⟩
          obtain rfl : src = hd.source := by
            rw [← hres, hsrc] at hsrc'
            exact (some.inj hsrc').symm
          rw [hresult, horigin]
          exact hrec hlookup (hmetric.trans hname)
  | _ => cases hp

theorem mem_measuredSeries {ops : List WorldOp} {m : Measurement} (h : .measure i k m ∈ ops) :
    (k, m.limited) ∈ measuredSeries i ops :=
  mem_filterMap.mpr ⟨_, h, by simp⟩

/-- In a run whose evictions delete only sources nobody holds an id of, and whose exporters' series can
be told apart, a point sent with an id only leaves `rehydrate` without attributes or with those of the
series it came from. -/
theorem rehydrated_attributes_own (exporters : List Exporter) (ttl : Int) (ops : List WorldOp) (op : WorldOp)
    (hquiet : (start exporters ttl).Quiet ops)
    (hdistinct : ∀ i (x : Exporter), exporters[i]? = some x → x.Distinguishes (measuredSeries i ops))
    (p : Rehydrated) (hp : ((start exporters ttl).run ops).output op = some p) (hattrs : p.sent.attributes = [])
    (hid : p.sent.seriesID ≠ 0) : p.result.attributes = [] ∨ p.result.attributes = p.sent.origin := by
  have hinv := (Inv.start ttl).run (fun {i x} hx => hdistinct i x hx) mem_measuredSeries hquiet
  exact hinv.output hp hattrs hid

def sampleExporter (service : String) : Exporter :=
  ⟨str service, str service, [⟨str "meter", str "meter", str "latency", false, 100, {}⟩], {}⟩

def sampleExporters : List Exporter := [sampleExporter "api", sampleExporter "web"]

def rawHost (host : String) : Attributes := [(str "host", .ofString (str host))]

def measureHost (host : String) : WorldOp := .measure 0 0 { attrs := rawHost host, limited := rawHost host }

def exportStored (exporter : Nat) : WorldOp := .export exporter fun _ => .stored _

def registerHost : List WorldOp :=
  [measureHost "a", exportStored 0, .accept 0 0 false, .process 0, .respond 0, .receive 0]

def sendAgain : List WorldOp := registerHost ++ [measureHost "a", exportStored 0, .accept 0 60 false]

/-- The second point of a host goes out under its id and comes back with the attributes of the host. -/
theorem rehydrated_attributes_own_registered :
    (start sampleExporters 3600).Quiet sendAgain ∧
      ∃ p, ((start sampleExporters 3600).run sendAgain).output (.process 0) = some p ∧ p.sent.attributes = [] ∧
        p.sent.seriesID = 1 ∧ p.result.attributes ≠ [] ∧ p.result.attributes = p.sent.origin := by
  have hquiet : (start sampleExporters 3600).Quiet sendAgain := by decide
  have hout : ((start sampleExporters 3600).run sendAgain).output (.process 0) =
      some ⟨⟨rawHost "a", 1, [], .double⟩, ⟨rawHost "a", 1, rawHost "a", .double⟩⟩ := by decide
  have hdistinct : ∀ i (x : Exporter), sampleExporters[i]? = some x → x.Distinguishes (measuredSeries i sendAgain) := by
    intro i x hx
    match i with
    | 0 =>
      obtain rfl := some.inj hx
      decide
    | 1 =>
      obtain rfl := some.inj hx
      decide
    | i + 2 => cases hx
  have hown := rehydrated_attributes_own sampleExporters 3600 sendAgain (.process 0) hquiet hdistinct _ hout rfl
    (by decide)
  have hsome : rawHost "a" ≠ [] := by decide
  exact ⟨hquiet, _, hout, rfl, rfl, hsome, hown.resolve_left hsome⟩

/-- A later request of the other service evicts the first one's only series and so its source; the first
service then sends the old host by its id and a new one by its attributes. -/
def evictBetween : List WorldOp :=
  registerHost ++ [exportStored 1, .accept 0 7200 false, .respond 0, .receive 0, measureHost "a", measureHost "b",
    exportStored 0, .accept 0 7201 false, .process 0]

/-- Host `a`, sent under id 1, comes out as host `b`, which has got id 1 from the new source. -/
theorem evicted_source_mixes_series :
    ((start sampleExporters 3600).run evictBetween).output (.process 0) =
      some ⟨⟨rawHost "a", 1, [], .double⟩, ⟨rawHost "a", 1, rawHost "b", .double⟩⟩ ∧ rawHost "b" ≠ rawHost "a" := by
  decide

end World

end AsapCollector
