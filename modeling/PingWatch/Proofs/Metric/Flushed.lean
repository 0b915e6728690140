import PingWatch.Proofs.Metric.Collected

/-!
# What a flush leaves in either sink

`Flushed a ss` says that the settings `ss` leave in a sink what the aggregate `a` comes to: a
collector reads so wherever it came from, and a fresh collector and a fresh registry hold that and
nothing else.  A flush of `a` is of this sort (`flushed_gather`).
-/

namespace PingWatch

variable {a : Aggregate} {g : Gauge}

/-- The labels under which a registry shows the number of a setter. -/
def Gauge.labels (g : Gauge) (scope : Scope) : List (String × String) :=
  if g.name ∈ nodeNames then [("octoping_node", scope.node)]
  else [("octoping_node", scope.node), ("octoping_probe", scope.probe)]

theorem Gauge.zip_setter (g : Gauge) (scope : Scope) :
    (Registry.setter g).1.labels.zip ((Registry.setter g).2 scope) = g.labels scope := by
  cases g <;> rfl

/-- Of each gauge a flush sets the number of the aggregate, under its own scope alone. -/
theorem lastShown?_gather_iff (mine : Scope → Prop) [DecidablePred mine] {v : Float} :
    lastShown? (fun s => s.gauge = g ∧ mine s.scope) (gather takesAll a) = some v ↔
      g ∈ a.kind.gauges ∧ mine a.scope ∧ v = a.shown g := by
  have value {v : Float}
      (last : lastShown? (fun s => s.gauge = g ∧ mine s.scope) (gather takesAll a) = some v) :
      g ∈ a.kind.gauges ∧ mine a.scope ∧ v = a.shown g := by
    obtain ⟨s, hs, sort, rfl⟩ := lastShown?_eq_some last
    obtain ⟨rfl, own⟩ := of_decide_eq_true sort
    rw [scope_gather hs] at own
    exact ⟨gauges_gather a ▸ List.mem_map_of_mem hs, own, shown_of_mem_gather hs⟩
  refine ⟨value, ?_⟩
  rintro ⟨own, scope, rfl⟩
  obtain ⟨s, hs, rfl⟩ := exists_mem_gather own
  have set : ∃ s' ∈ gather takesAll a, decide (s'.gauge = s.gauge ∧ mine s'.scope) = true :=
    ⟨s, hs, decide_eq_true ⟨rfl, scope_gather hs ▸ scope⟩⟩
  obtain ⟨v, last⟩ := exists_lastShown.mpr set
  rw [last, (value last).2.2]

/-- What settings leave of the aggregate `a` in a sink. -/
structure Flushed (a : Aggregate) (ss : List Setting) : Prop where
  /-- A collector reads as the numbers of the aggregate, whatever it held before. -/
  values : ∀ c : Collector, ∀ g ∈ a.kind.gauges,
    Series.valueOf? a.scope g.name (c.setAll ss).series = some (a.shown g)
  /-- All other series read as before. -/
  kept : ∀ c : Collector, ∀ scope name, a.owns scope name = false →
    Series.valueOf? scope name (c.setAll ss).series = Series.valueOf? scope name c.series
  /-- A fresh collector holds these numbers and no others. -/
  collected : ∀ x, x ∈ (({} : Collector).setAll ss).series ↔
    ∃ g ∈ a.kind.gauges, x = { scope := a.scope, name := g.name, value := a.shown g }
  /-- A fresh registry shows these numbers and no others. -/
  exposed : ∀ family labels v, (({} : Registry).setAll ss).Shows family labels v ↔
    ∃ g ∈ a.kind.gauges,
      family = "octoping_probe_" ++ g.name ∧ labels = g.labels a.scope ∧ v = a.shown g

theorem collected_gather {x : Series} :
    x ∈ (({} : Collector).setAll (gather takesAll a)).series ↔
      ∃ g ∈ a.kind.gauges, x = { scope := a.scope, name := g.name, value := a.shown g } := by
  constructor
  · intro there
    obtain ⟨scope, name, value⟩ := x
    obtain ⟨g, rfl⟩ := Collector.exists_gauge_of_mem there
    obtain ⟨own, rfl, rfl⟩ :=
      (lastShown?_gather_iff (· = scope)).mp (Collector.mem_series_name_iff.mp there)
    exact ⟨g, own, rfl⟩
  · rintro ⟨g, own, rfl⟩
    exact Collector.mem_series_name_iff.mpr
      ((lastShown?_gather_iff (· = a.scope)).mpr ⟨own, rfl, rfl⟩)

theorem exposed_gather {family : String} {labels : List (String × String)} {v : Float} :
    (({} : Registry).setAll (gather takesAll a)).Shows family labels v ↔
      ∃ g ∈ a.kind.gauges,
        family = "octoping_probe_" ++ g.name ∧ labels = g.labels a.scope ∧ v = a.shown g := by
  have last_iff (g : Gauge) (scope : Scope) (v : Float) := lastShown?_gather_iff (a := a) (g := g)
    (fun own => (Registry.setter g).2 own = (Registry.setter g).2 scope) (v := v)
  constructor
  · intro there
    obtain ⟨g, rfl⟩ := Registry.exists_setter_of_shows there
    obtain ⟨scope, rfl, last⟩ := Registry.shows_iff.mp there
    obtain ⟨own, same, rfl⟩ := (last_iff g scope v).mp last
    rw [← same]
    exact ⟨g, own, rfl, g.zip_setter a.scope, rfl⟩
  · rintro ⟨g, own, rfl, rfl, rfl⟩
    exact Registry.shows_iff.mpr
      ⟨a.scope, g.zip_setter a.scope, (last_iff g a.scope _).mpr ⟨own, rfl, rfl⟩⟩

theorem flushed_gather (a : Aggregate) : Flushed a (gather takesAll a) where
  values := fun c _ own => c.valueOf?_flush own
  kept := fun c _ _ other => c.valueOf?_flush_of_not_owns other
  collected := fun _ => collected_gather
  exposed := fun _ _ _ => exposed_gather

end PingWatch
