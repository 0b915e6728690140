import PingWatch.Proofs.Metric.Gather

/-!
# Flushes that are refused in part

A monitor may refuse some of its gauges.  A refused setting has been asked for all the same; what it
ends is the metric that it belongs to, and only the loss vector has more than one setting.

* `gather_eq_filter`: a flush asks for the same settings as one that is not refused anything, without
  those that come behind a refused one in their own metric.
* `refusal_ends_its_metric`: how often each gauge is asked for.
* `refused_mean_hides_the_loss`: so a refusal does not leave the other gauges alone, since the mean
  loss takes the least, the greatest and the total loss with it.
-/

namespace PingWatch

/-- The gauges that the metric of a gauge sets before it. -/
def Gauge.before : Gauge → List Gauge
  | packetLossMin => [packetLossMean]
  | packetLossMax => [packetLossMean, packetLossMin]
  | packetLossTotal => [packetLossMean, packetLossMin, packetLossMax]
  | _ => []

/-- Whether the writes of its metric come as far as a gauge. -/
def Gauge.reached (refuses : Gauge → Bool) (g : Gauge) : Bool := g.before.all fun h => !refuses h

theorem Gauge.reached_packetLossMin (refuses : Gauge → Bool) :
    packetLossMin.reached refuses = !refuses packetLossMean := by
  simp [reached, before]

theorem Gauge.reached_packetLossMax (refuses : Gauge → Bool) :
    packetLossMax.reached refuses = (!refuses packetLossMean && !refuses packetLossMin) := by
  simp [reached, before]

theorem Gauge.reached_packetLossTotal (refuses : Gauge → Bool) :
    packetLossTotal.reached refuses =
      (!refuses packetLossMean && (!refuses packetLossMin && !refuses packetLossMax)) := by
  simp [reached, before]

namespace Metric

/-- A setting is asked for whether it is refused or not; those behind it only if it is not. -/
theorem attempt_cons (refuses : Gauge → Bool) (s : Setting) (rest : List Setting) :
    (attempt refuses (s :: rest)).1 =
      s :: if refuses s.gauge then [] else (attempt refuses rest).1 := by
  rw [attempt]
  split <;> rfl

theorem attempt_singleton (refuses : Gauge → Bool) (s : Setting) :
    (attempt refuses [s]).1 = [s] := by
  rw [attempt_cons]
  split <;> rfl

/-- The loss vector is the metric that a refusal can cut short. -/
theorem attempt_loss (refuses : Gauge → Bool) (scope : Scope) (vs : List Float) :
    (attempt refuses (settings ⟨scope, .packetLoss vs⟩)).1 =
      (settings ⟨scope, .packetLoss vs⟩).filter fun s => s.gauge.reached refuses := by
  have mean : Gauge.packetLossMean.reached refuses = true := rfl
  simp only [settings, Projection.readings, List.map_cons, List.map_nil, attempt_cons,
    List.filter_cons, List.filter_nil, mean, Gauge.reached_packetLossMin,
    Gauge.reached_packetLossMax, Gauge.reached_packetLossTotal, if_true]
  cases refuses .packetLossMean with
  | true => simp
  | false =>
    cases refuses .packetLossMin with
    | true => simp
    | false => cases refuses .packetLossMax <;> simp [attempt]

/-- A metric asks for the settings that its writes come to. -/
theorem write_eq_filter (refuses : Gauge → Bool) (m : Metric) :
    (m.write refuses).1 = m.settings.filter fun s => s.gauge.reached refuses := by
  obtain ⟨scope, projection⟩ := m
  cases projection with
  | packetLoss vs => exact attempt_loss refuses scope vs
  | _ => exact attempt_singleton refuses _

end Metric

theorem gather_eq_filter (refuses : Gauge → Bool) (a : Aggregate) :
    gather refuses a = (gather takesAll a).filter fun s => s.gauge.reached refuses := by
  rw [gather_takesAll, List.filter_flatMap]
  unfold gather
  simp only [Metric.write_eq_filter]

/-- A flush that is not refused anything asks for each gauge of its kind once. -/
theorem count_gather_takesAll (a : Aggregate) (g : Gauge) :
    (gather takesAll a).countP (·.gauge = g) = if g ∈ a.kind.gauges then 1 else 0 := by
  have counted : (gather takesAll a).countP (·.gauge = g) = a.kind.gauges.count g := by
    rw [← gauges_gather, List.count, List.countP_map]
    rfl
  rw [counted, a.kind.gauges_nodup.count]

/-- **A refusal ends its metric and no other.**  Whatever gauges a monitor refuses, a flush asks for
the settings of a flush without refusals, with the same scopes and values and in the same order, less
those whose own metric was refused before.  So each gauge of the kind is asked for exactly once if
the writes of its metric come to it, which is so for every gauge but three of the loss, and no other
gauge ever is. -/
theorem refusal_ends_its_metric (refuses : Gauge → Bool) (a : Aggregate) :
    gather refuses a = (gather takesAll a).filter (fun s => s.gauge.reached refuses) ∧
      ∀ g : Gauge, (gather refuses a).countP (·.gauge = g) =
        if g ∈ a.kind.gauges ∧ g.reached refuses = true then 1 else 0 := by
  refine ⟨gather_eq_filter refuses a, fun g => ?_⟩
  rw [gather_eq_filter, List.countP_filter]
  cases hg : g.reached refuses with
  | true =>
    have same : (gather takesAll a).countP (fun s => decide (s.gauge = g) && s.gauge.reached refuses) =
        (gather takesAll a).countP (·.gauge = g) := by
      refine List.countP_congr fun s _ => ?_
      simp only [Bool.and_eq_true, decide_eq_true_eq, and_iff_left_iff_imp]
      rintro rfl
      exact hg
    rw [same, count_gather_takesAll]
    simp
  | false =>
    have none_ : (gather takesAll a).countP (fun s => decide (s.gauge = g) && s.gauge.reached refuses) =
        0 := by
      refine List.countP_eq_zero.mpr fun s _ => ?_
      simp only [Bool.and_eq_true, decide_eq_true_eq, not_and, Bool.not_eq_true]
      rintro rfl
      exact hg
    rw [none_]
    simp

/-- Two targets, of which one does not answer. -/
def halfLost : Aggregate where
  scope := { probe := "icmp", node := "node-a" }
  kind := .echo 0.05
  samples :=
    { maxRtt := [3000], minRtt := [1000], meanRtt := [2000], packetLoss := [0, 1], total := 2,
      reports := 1 }

/-- A monitor that refuses the mean loss is not asked for the other numbers of the loss, though they
belong to the kind. -/
theorem refused_mean_hides_the_loss :
    ¬∀ g ∈ halfLost.kind.gauges,
      (gather (· = .packetLossMean) halfLost).filter (·.gauge = g) =
        (gather takesAll halfLost).filter (·.gauge = g) := by
  intro whole
  have least := congrArg List.length (whole .packetLossMin (by decide))
  exact absurd least (by decide)

end PingWatch
