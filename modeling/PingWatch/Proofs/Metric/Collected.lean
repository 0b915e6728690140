import PingWatch.Proofs.Metric.Moments
import PingWatch.Proofs.Metric.Sinks

/-!
# What a flush leaves in a collector

A series reads as what was last set for it, or as before when nothing was (`valueOf?_setAll`).  A
flush sets the series of one scope and kind and no others, each to the number that belongs to it.

* `Aggregate.shown`: the number that belongs to a gauge.
* `shown_gather`: the numbers that a flush sets.
* `Series.filter_put`: a write leaves all other series in their places.
* `flush_projects`: what a collector holds after a flush, whatever it held before.
-/

namespace PingWatch

/-! ## Reading back -/

theorem Series.valueOf?_put (scope scope' : Scope) (name name' : String) (value : Float)
    (ss : List Series) :
    valueOf? scope name (put scope' name' value ss) =
      if scope' = scope ∧ name' = name then some value else valueOf? scope name ss := by
  by_cases same : scope' = scope ∧ name' = name
  · obtain ⟨rfl, rfl⟩ := same
    rw [if_pos ⟨rfl, rfl⟩]
    exact valueOf?_put_self ..
  · rw [if_neg same]
    exact valueOf?_put_of_ne same ..

/-- A write leaves the series of other keys as they are and where they are. -/
theorem Series.filter_put {others : Scope → String → Bool} {scope : Scope} {name : String}
    (own : others scope name = false) (value : Float) (ss : List Series) :
    (put scope name value ss).filter (fun x => others x.scope x.name) =
      ss.filter fun x => others x.scope x.name := by
  induction ss with
  | nil => simp [put, own]
  | cons s rest ih =>
    unfold put
    by_cases here : s.isFor scope name = true
    · obtain ⟨rfl, rfl⟩ := isFor_eq_true.mp here
      rw [if_pos here, List.filter_cons, List.filter_cons, own]
      rfl
    · rw [if_neg here, List.filter_cons, List.filter_cons, ih]

theorem lastShown?_concat (sort : Setting → Bool) (ss : List Setting) (s : Setting) :
    lastShown? sort (ss ++ [s]) = if sort s then some s.value.shown else lastShown? sort ss := by
  unfold lastShown?
  simp only [List.findRev?_eq_find?_reverse, List.reverse_append, List.reverse_singleton,
    List.singleton_append, List.find?_cons]
  cases sort s <;> rfl

theorem lastShown?_eq_some {sort : Setting → Bool} {ss : List Setting} {v : Float}
    (h : lastShown? sort ss = some v) : ∃ s ∈ ss, sort s = true ∧ s.value.shown = v := by
  obtain ⟨s, last, shown⟩ := Option.map_eq_some_iff.mp h
  rw [List.findRev?_eq_find?_reverse] at last
  exact ⟨s, List.mem_reverse.mp (List.mem_of_find?_eq_some last), List.find?_some last, shown⟩

theorem lastShown?_eq_none {sort : Setting → Bool} {ss : List Setting}
    (h : ∀ s ∈ ss, sort s = false) : lastShown? sort ss = none := by
  cases last : lastShown? sort ss with
  | none => rfl
  | some v =>
    obtain ⟨s, hs, here, -⟩ := lastShown?_eq_some last
    exact absurd ((h s hs).symm.trans here) Bool.false_ne_true

namespace Collector

variable (c : Collector)

theorem setAll_concat (ss : List Setting) (s : Setting) :
    c.setAll (ss ++ [s]) = (c.setAll ss).set s := by
  unfold setAll
  rw [List.foldl_append]
  rfl

/-- A series reads as what was last set for it, or else as before. -/
theorem valueOf?_setAll (ss : List Setting) (scope : Scope) (name : String) :
    Series.valueOf? scope name (c.setAll ss).series =
      (lastShown? (fun s => s.scope = scope ∧ s.gauge.name = name) ss).or
        (Series.valueOf? scope name c.series) := by
  induction ss using List.reverseRecOn with
  | nil => rfl
  | append_singleton ss s ih =>
    rw [setAll_concat, set_eq_put, Series.valueOf?_put, lastShown?_concat, ih]
    by_cases here : s.scope = scope ∧ s.gauge.name = name
    · rw [if_pos here, if_pos (decide_eq_true here)]
      rfl
    · rw [if_neg here, if_neg (by simpa using here)]

/-- Settings leave the series of other keys as they are and where they are. -/
theorem filter_setAll (others : Scope → String → Bool) {ss : List Setting}
    (own : ∀ s ∈ ss, others s.scope s.gauge.name = false) :
    (c.setAll ss).series.filter (fun x => others x.scope x.name) =
      c.series.filter fun x => others x.scope x.name := by
  induction ss using List.reverseRecOn with
  | nil => rfl
  | append_singleton ss s ih =>
    rw [setAll_concat, set_eq_put, Series.filter_put (own s (by simp))]
    exact ih fun s' hs' => own s' (List.mem_append_left _ hs')

/-- The collector after a flush of `a`. -/
def flush (a : Aggregate) : Collector := c.setAll (gather takesAll a)

end Collector

/-! ## The numbers of an aggregate -/

namespace Aggregate

/-- The number that an aggregate has for a gauge of its kind. -/
def shown (a : Aggregate) : Gauge → Float
  | .rttMax => Moments.greatest a.samples.maxRtt
  | .rttMin => Moments.least a.samples.minRtt
  | .rttMean => Moments.mean a.samples.meanRtt
  | .rttStddev => Moments.deviation a.samples.meanRtt
  | .packetLossMean => Moments.mean a.samples.packetLoss
  | .packetLossMin => Moments.least a.samples.packetLoss
  | .packetLossMax => Moments.greatest a.samples.packetLoss
  | .packetLossTotal => Moments.sum a.samples.packetLoss
  | .nodesTotal | .dnsTotal => a.samples.total.toUInt64.toFloat
  | .nodesReports => a.samples.reports.toUInt64.toFloat
  | .dnsSuccess => a.samples.success.toUInt64.toFloat
  | .dnsError => a.samples.errors.toUInt64.toFloat
  | .health => if a.samples.healthy a.kind then 1.0 else 0.0

/-- Whether a series is one of those that a flush of the aggregate sets. -/
def owns (a : Aggregate) (scope : Scope) (name : String) : Bool :=
  scope = a.scope && name ∈ a.kind.gauges.map Gauge.name

theorem owns_eq_true {a : Aggregate} {scope : Scope} {name : String} :
    a.owns scope name = true ↔ scope = a.scope ∧ ∃ g ∈ a.kind.gauges, g.name = name := by
  simp [owns]

end Aggregate

variable {a b : Aggregate}

/-- A flush sets each gauge of the kind to the number that the aggregate has for it. -/
theorem shown_gather (a : Aggregate) :
    (gather takesAll a).map (fun s => (s.gauge, s.value.shown)) =
      a.kind.gauges.map fun g => (g, a.shown g) := by
  have health : (Reading.flag a.healthy).shown = a.shown .health := by
    unfold Aggregate.healthy Aggregate.shown
    cases a.samples.healthy a.kind <;> rfl
  rw [gather_takesAll, a.metrics_eq, List.flatMap_append, List.map_append, List.flatMap_singleton]
  unfold Aggregate.projections Kind.gauges
  cases a.kind with
  | echo threshold =>
    simp only [Metric.settings, Projection.readings, List.map_cons, List.map_nil, health]
    rfl
  | lookup =>
    simp only [Metric.settings, Projection.readings, List.map_cons, List.map_nil, health]
    rfl

theorem shown_of_mem_gather {s : Setting} (h : s ∈ gather takesAll a) :
    s.value.shown = a.shown s.gauge := by
  have listed : (s.gauge, s.value.shown) ∈ a.kind.gauges.map fun g => (g, a.shown g) := by
    rw [← shown_gather]
    exact List.mem_map.mpr ⟨s, h, rfl⟩
  obtain ⟨g, -, same⟩ := List.mem_map.mp listed
  obtain ⟨rfl, shown⟩ := Prod.mk.inj same
  exact shown.symm

theorem owns_of_mem_gather {s : Setting} (h : s ∈ gather takesAll a) :
    a.owns s.scope s.gauge.name = true := by
  refine Aggregate.owns_eq_true.mpr ⟨scope_gather h, s.gauge, ?_, rfl⟩
  rw [← gauges_gather]
  exact List.mem_map_of_mem h

theorem exists_mem_gather {g : Gauge} (h : g ∈ a.kind.gauges) :
    ∃ s ∈ gather takesAll a, s.gauge = g := by
  rw [← gauges_gather] at h
  exact List.mem_map.mp h

namespace Collector

variable (c : Collector)

theorem valueOf?_flush {g : Gauge} (h : g ∈ a.kind.gauges) :
    Series.valueOf? a.scope g.name (c.flush a).series = some (a.shown g) := by
  obtain ⟨s, hs, rfl⟩ := exists_mem_gather h
  have set : ∃ v, lastShown? (fun s' => s'.scope = a.scope ∧ s'.gauge.name = s.gauge.name)
      (gather takesAll a) = some v :=
    exists_lastShown.mpr ⟨s, hs, decide_eq_true ⟨scope_gather hs, rfl⟩⟩
  obtain ⟨v, last⟩ := set
  obtain ⟨s', hs', same, rfl⟩ := lastShown?_eq_some last
  have gauge : s'.gauge = s.gauge := Gauge.name_injective (of_decide_eq_true same).2
  unfold flush
  rw [valueOf?_setAll, last, shown_of_mem_gather hs', gauge]
  rfl

theorem lastShown?_gather_of_not_owns {scope : Scope} {name : String}
    (h : a.owns scope name = false) :
    lastShown? (fun s => s.scope = scope ∧ s.gauge.name = name) (gather takesAll a) = none := by
  refine lastShown?_eq_none fun s hs => decide_eq_false ?_
  rintro ⟨rfl, rfl⟩
  exact absurd (h.symm.trans (owns_of_mem_gather hs)) Bool.false_ne_true

theorem valueOf?_flush_of_not_owns {scope : Scope} {name : String}
    (h : a.owns scope name = false) :
    Series.valueOf? scope name (c.flush a).series = Series.valueOf? scope name c.series := by
  unfold flush
  rw [valueOf?_setAll, lastShown?_gather_of_not_owns h]
  rfl

/-- A second flush finds nothing to change. -/
theorem flush_flush (a : Aggregate) : (c.flush a).flush a = c.flush a :=
  (Collector.overwrites a.scope).flush a.kind a.samples a.samples c

/-- Flushes of two scopes may come in either order. -/
theorem valueOf?_flush_comm (apart : b.scope ≠ a.scope) (scope : Scope) (name : String) :
    Series.valueOf? scope name ((c.flush a).flush b).series =
      Series.valueOf? scope name ((c.flush b).flush a).series := by
  unfold flush
  rw [valueOf?_setAll, valueOf?_setAll, valueOf?_setAll, valueOf?_setAll]
  cases ha : a.owns scope name with
  | false =>
    rw [lastShown?_gather_of_not_owns ha]
    rfl
  | true =>
    have hb : b.owns scope name = false := by
      rw [← Bool.not_eq_true, Aggregate.owns_eq_true]
      rintro ⟨rfl, -⟩
      exact apart (Aggregate.owns_eq_true.mp ha).1
    rw [lastShown?_gather_of_not_owns hb]
    rfl

end Collector

/-! ## The numbers of vectors -/

namespace Aggregate

/-- The extremes of an aggregate are elements of their vectors that bound the others. -/
theorem shown_extreme (a : Aggregate) :
    Moments.Extreme (· ≤ ·) a.samples.maxRtt (a.shown .rttMax) ∧
      Moments.Extreme (· ≥ ·) a.samples.minRtt (a.shown .rttMin) ∧
      Moments.Extreme (· ≤ ·) a.samples.packetLoss (a.shown .packetLossMax) ∧
      Moments.Extreme (· ≥ ·) a.samples.packetLoss (a.shown .packetLossMin) :=
  ⟨Moments.greatest_extreme _, Moments.least_extreme _, Moments.greatest_extreme _,
    Moments.least_extreme _⟩

/-- A round adds its loss to the total loss. -/
theorem shown_packetLossTotal_record (a : Aggregate) (e : EchoSummary) :
    (a.record (.echo e)).shown .packetLossTotal = a.shown .packetLossTotal + e.loss := by
  have recorded : (a.record (.echo e)).samples.packetLoss = a.samples.packetLoss ++ [e.loss] := by
    unfold record Samples.record Samples.recordEcho
    dsimp only
    split <;> rfl
  show Moments.sum (a.record (.echo e)).samples.packetLoss = _
  rw [recorded, Moments.sum_concat]
  rfl

end Aggregate

/-- What a flush of `a` does to the collector `c`. -/
structure Projects (a : Aggregate) (c : Collector) : Prop where
  /-- The series set are those of the scope and the kind. -/
  own : (gather takesAll a).map (fun s => (s.scope, s.gauge.name)) =
    a.kind.gauges.map fun g => (a.scope, g.name)
  /-- They are eleven or four. -/
  apart : (a.kind.gauges.map Gauge.name).Nodup
  count : a.kind.gauges.length = match a.kind with | .echo _ => 11 | .lookup => 4
  /-- Each reads as the number that the aggregate has for it. -/
  values : ∀ g ∈ a.kind.gauges,
    Series.valueOf? a.scope g.name (c.flush a).series = some (a.shown g)
  /-- The greatest and the least numbers are elements of their vectors that bound the others. -/
  extremes : Moments.Extreme (· ≤ ·) a.samples.maxRtt (a.shown .rttMax) ∧
    Moments.Extreme (· ≥ ·) a.samples.minRtt (a.shown .rttMin) ∧
    Moments.Extreme (· ≤ ·) a.samples.packetLoss (a.shown .packetLossMax) ∧
    Moments.Extreme (· ≥ ·) a.samples.packetLoss (a.shown .packetLossMin)
  averages : Moments.Mean a.samples.meanRtt (a.shown .rttMean) ∧
    Moments.Mean a.samples.packetLoss (a.shown .packetLossMean)
  /-- Too few times do not deviate, and without a loss none is added up. -/
  scarce : (a.samples.meanRtt.length < 2 → a.shown .rttStddev = 0.0) ∧
    (a.samples.packetLoss = [] → (a.shown .packetLossTotal == 0.0) = true)
  /-- All other series read as before, and stay as they are and where they are. -/
  kept : ∀ scope name, a.owns scope name = false →
    Series.valueOf? scope name (c.flush a).series = Series.valueOf? scope name c.series
  others : (c.flush a).series.filter (fun x => !a.owns x.scope x.name) =
    c.series.filter fun x => !a.owns x.scope x.name
  /-- A second flush changes nothing. -/
  again : (c.flush a).flush a = c.flush a
  /-- Of two flushes of different scopes either may come first. -/
  comm : ∀ b : Aggregate, b.scope ≠ a.scope → ∀ scope name,
    Series.valueOf? scope name ((c.flush a).flush b).series =
      Series.valueOf? scope name ((c.flush b).flush a).series

/-- **What a flush writes.**  Whatever an aggregate and a collector hold, a flush sets the series of
the scope and the kind of the aggregate, each to the number that the aggregate has for it, and
nothing else.  A second one changes nothing, and flushes of different scopes may come in either
order. -/
theorem flush_projects (a : Aggregate) (c : Collector) : Projects a c where
  own := by
    rw [← gauges_gather, List.map_map]
    refine List.map_congr_left fun s hs => ?_
    rw [scope_gather hs]
    rfl
  apart := a.kind.gauges_nodup.map fun _ _ => Gauge.name_injective
  count := by cases a.kind <;> rfl
  values := fun _ hg => c.valueOf?_flush hg
  extremes := a.shown_extreme
  averages := ⟨Moments.mean_mean _, Moments.mean_mean _⟩
  scarce := by
    refine ⟨Moments.deviation_of_few, fun none_there => ?_⟩
    show (Moments.sum a.samples.packetLoss == 0.0) = true
    rw [none_there]
    exact Moments.sum_nil.2
  kept := fun _ _ other => c.valueOf?_flush_of_not_owns other
  others := by
    refine c.filter_setAll (fun scope name => !a.owns scope name) fun s hs => ?_
    rw [owns_of_mem_gather hs]
    rfl
  again := c.flush_flush a
  comm := fun _ other => c.valueOf?_flush_comm other

/-- Three targets, of which one answered every request, one all but a quarter, and one none. -/
def threeTargets : Aggregate where
  scope := ⟨"icmp", "here"⟩
  kind := .echo 0.05
  samples :=
    { maxRtt := [300.0, 500.0], minRtt := [100.0, 200.0], meanRtt := [200.0, 400.0]
      packetLoss := [0.0, 0.25, 1.0], total := 3, reports := 1 }

/-- A flush of them sets these series, whatever was collected before, and no series of another
node. -/
theorem threeTargets_projected : ∀ c : Collector,
    let read (name : String) := Series.valueOf? ⟨"icmp", "here"⟩ name (c.flush threeTargets).series
    read "rtt_max" = some 500.0 ∧ read "rtt_min" = some 100.0 ∧ read "rtt_mean" = some 300.0 ∧
      read "rtt_stddev" = some 141.4213562373095 ∧
      read "packet_loss_mean" = some 0.4166666666666667 ∧
      read "packet_loss_min" = some 0.0 ∧ read "packet_loss_max" = some 1.0 ∧
      read "packet_loss_total" = some 1.25 ∧ read "nodes_total" = some 3.0 ∧
      read "nodes_reports" = some 1.0 ∧ read "health" = some 0.0 ∧
      Series.valueOf? ⟨"icmp", "there"⟩ "rtt_max" (c.flush threeTargets).series =
        Series.valueOf? ⟨"icmp", "there"⟩ "rtt_max" c.series := by
  intro c
  have projects := flush_projects threeTargets c
  have reads (g : Gauge) {v : Float} (own : g ∈ threeTargets.kind.gauges)
      (shown : threeTargets.shown g = v) :
      Series.valueOf? ⟨"icmp", "here"⟩ g.name (c.flush threeTargets).series = some v :=
    shown ▸ projects.values g own
  refine ⟨reads .rttMax (by decide) ?_, reads .rttMin (by decide) ?_,
    reads .rttMean (by decide) ?_, reads .rttStddev (by decide) ?_,
    reads .packetLossMean (by decide) ?_, reads .packetLossMin (by decide) ?_,
    reads .packetLossMax (by decide) ?_, reads .packetLossTotal (by decide) ?_,
    reads .nodesTotal (by decide) ?_, reads .nodesReports (by decide) ?_,
    reads .health (by decide) ?_, projects.kept _ _ (by decide)⟩
  all_goals decide +kernel

end PingWatch
