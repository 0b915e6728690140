import PingWatch.Metric

/-!
# What a flush asks of a monitor

* `gather_health`: whatever a monitor refuses, a flush sets its health gauge exactly once.
* `gather_takesAll`: a monitor that takes every setting is asked for all of them.
* `gauges_gather`: the gauges that a flush sets are those of the kind, each once and in one order.
-/

namespace PingWatch

namespace Metric

/-- The settings made come first among those wanted. -/
theorem attempt_isPrefix (refuses : Gauge → Bool) (ss : List Setting) :
    (attempt refuses ss).1 <+: ss := by
  induction ss with
  | nil => exact List.prefix_refl _
  | cons s rest ih =>
    unfold attempt
    split
    · exact ⟨rest, rfl⟩
    · exact List.cons_prefix_cons.mpr ⟨rfl, ih⟩

theorem attempt_takesAll (ss : List Setting) : attempt takesAll ss = (ss, none) := by
  induction ss with
  | nil => rfl
  | cons s rest ih =>
    unfold attempt
    rw [ih]
    rfl

/-- A metric writes only gauges of its projection. -/
theorem mem_write {refuses : Gauge → Bool} {m : Metric} {s : Setting}
    (h : s ∈ (m.write refuses).1) : s.gauge ∈ m.projection.readings.map (·.1) := by
  have wanted : s ∈ m.settings := (attempt_isPrefix refuses m.settings).subset h
  obtain ⟨reading, hr, rfl⟩ := List.mem_map.mp wanted
  exact List.mem_map.mpr ⟨reading, hr, rfl⟩

end Metric

namespace Aggregate

/-- The projections written before the health. -/
def projections (a : Aggregate) : List Projection :=
  match a.kind with
  | .echo _ =>
    [.rttMax a.samples.maxRtt, .rttMin a.samples.minRtt, .rttStddev a.samples.meanRtt,
      .rttMean a.samples.meanRtt, .packetLoss a.samples.packetLoss,
      .nodesTotal a.samples.total, .nodesReports a.samples.reports]
  | .lookup =>
    [.dnsTotal a.samples.total, .dnsSuccess a.samples.success, .dnsError a.samples.errors]

theorem metrics_eq (a : Aggregate) :
    a.metrics = a.projections.map (fun projection => { scope := a.scope, projection }) ++
      [{ scope := a.scope, projection := .health a.healthy }] := by
  unfold metrics projections
  dsimp only
  rw [List.map_append]
  cases a.kind <;> rfl

theorem health_not_mem_projections (a : Aggregate) {p : Projection} (hp : p ∈ a.projections) :
    Gauge.health ∉ p.readings.map (·.1) := by
  unfold projections at hp
  split at hp <;> simp only [List.mem_cons, List.not_mem_nil, or_false] at hp
  · rcases hp with rfl | rfl | rfl | rfl | rfl | rfl | rfl <;> simp [Projection.readings]
  · rcases hp with rfl | rfl | rfl <;> simp [Projection.readings]

end Aggregate

/-- Whatever a monitor refuses, a flush sets its health gauge exactly once, to the health of the
aggregate. -/
theorem gather_health (refuses : Gauge → Bool) (a : Aggregate) :
    (gather refuses a).filter (fun s => s.gauge = .health) =
      [{ gauge := .health, scope := a.scope, value := .flag a.healthy }] := by
  have others : ((a.projections.map fun projection => ({ scope := a.scope, projection } : Metric)
      ).flatMap fun m => (m.write refuses).1).filter (fun s => s.gauge = .health) = [] := by
    rw [List.filter_eq_nil_iff]
    intro s hs health
    obtain ⟨m, hm, hw⟩ := List.mem_flatMap.mp hs
    obtain ⟨p, hp, rfl⟩ := List.mem_map.mp hm
    refine a.health_not_mem_projections hp ?_
    rw [← of_decide_eq_true health]
    exact Metric.mem_write hw
  have own : (({ scope := a.scope, projection := .health a.healthy } : Metric).write refuses).1 =
      [{ gauge := .health, scope := a.scope, value := .flag a.healthy }] := by
    unfold Metric.write Metric.settings Projection.readings
    simp only [List.map_cons, List.map_nil, Metric.attempt]
    split <;> rfl
  unfold gather
  rw [a.metrics_eq, List.flatMap_append, List.filter_append, others, List.nil_append,
    List.flatMap_singleton, own]
  rfl

/-! ## A monitor that takes every setting -/

theorem gather_takesAll (a : Aggregate) :
    gather takesAll a = a.metrics.flatMap Metric.settings := by
  unfold gather Metric.write
  simp only [Metric.attempt_takesAll]

/-- The gauges that a flush of a kind sets, in order. -/
def Kind.gauges : Kind → List Gauge
  | .echo _ => [.rttMax, .rttMin, .rttStddev, .rttMean, .packetLossMean, .packetLossMin,
      .packetLossMax, .packetLossTotal, .nodesTotal, .nodesReports, .health]
  | .lookup => [.dnsTotal, .dnsSuccess, .dnsError, .health]

theorem Kind.gauges_nodup (kind : Kind) : kind.gauges.Nodup := by
  cases kind <;> simp [gauges]

theorem gauges_gather (a : Aggregate) :
    (gather takesAll a).map (·.gauge) = a.kind.gauges := by
  rw [gather_takesAll, a.metrics_eq]
  unfold Aggregate.projections Kind.gauges
  cases a.kind <;> rfl

/-- Every setting of a flush is about the scope of the aggregate. -/
theorem scope_gather {a : Aggregate} {s : Setting} (h : s ∈ gather takesAll a) :
    s.scope = a.scope := by
  rw [gather_takesAll] at h
  obtain ⟨m, hm, hs⟩ := List.mem_flatMap.mp h
  obtain ⟨reading, -, rfl⟩ := List.mem_map.mp hs
  rw [Aggregate.metrics] at hm
  obtain ⟨p, -, rfl⟩ := List.mem_map.mp hm
  rfl

end PingWatch
