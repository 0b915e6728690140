import PingWatch.Proofs.Config.KeyByKey

/-!
# What an accepted configuration holds

Each part of an accepted configuration is what its own key gives: its default, or what a valid value
stands for.  What all of these have in common holds of the part.

* `Duration.Configured`: the lengths of time that can be configured, whole milliseconds above zero.
* `EchoConfig.accepted`, `LookupConfig.accepted`: what the settings of an accepted configuration
  satisfy.
* `EchoConfig.exists_proberSettings`: from an accepted configuration a prober can be set up, for the
  grace on top of the longest timeout is still a length of time.
-/

namespace PingWatch

/-! ## Parts -/

/-- The lengths of time that can be configured. -/
def Duration.Configured (d : Duration) : Prop :=
  ∃ n, 0 < n ∧ n ≤ mostMillis ∧ d = .ofMillis n

namespace Properties

variable {key : String} {p : Properties}

theorem Gives.configured {default d : Duration} (h : p.Gives IsPause key default d)
    (usual : default.Configured) : d.Configured := by
  refine h.satisfies Duration.Configured usual fun value d stands => ?_
  obtain ⟨n, u, -, positive, fits, rfl⟩ := stands
  exact ⟨_, Nat.le_trans positive (Duration.le_mul_millis n u), fits, rfl⟩

theorem Gives.within {default x : Float} (h : p.Gives IsFraction key default x)
    (usual : 0.0 ≤ default ∧ default ≤ 1.0) : 0.0 ≤ x ∧ x ≤ 1.0 :=
  h.satisfies (fun x => 0.0 ≤ x ∧ x ≤ 1.0) usual fun _ _ stands => stands.2.2

end Properties

/-! ## Configurations -/

namespace EchoConfig

/-- What the settings of an accepted echo configuration satisfy. -/
structure Accepted (c : EchoConfig) : Prop where
  count : 0 < c.count.toNat ∧ c.count.toNat ≤ mostRequests
  reportThreshold : 0.0 ≤ c.reportThreshold ∧ c.reportThreshold ≤ 1.0
  interval : c.interval.Configured
  timeout : c.timeout.Configured
  pingInterval : c.pingInterval.Configured
  concurrency : 0 < c.concurrency ∧ c.concurrency ≤ mostConfigured

theorem accepted {p : Properties} {c : EchoConfig} (h : ofProperties p = .ok c) : c.Accepted := by
  have given := holds h
  simp only [parts, List.forall_mem_cons] at given
  obtain ⟨count, threshold, interval, timeout, pingInterval, concurrency, -⟩ := given
  exact
    { count := Properties.Gives.bounded count (by decide)
      reportThreshold := Properties.Gives.within threshold (by decide)
      interval := Properties.Gives.configured interval ⟨1000, by decide, by decide, rfl⟩
      timeout := Properties.Gives.configured timeout ⟨5000, by decide, by decide, rfl⟩
      pingInterval := Properties.Gives.configured pingInterval ⟨100, by decide, by decide, rfl⟩
      concurrency := Properties.Gives.bounded concurrency (by decide) }

/-- The grace on top of the longest timeout is still a length of time. -/
theorem exists_proberSettings {c : EchoConfig} (h : c.Accepted) :
    ∃ timeout, c.proberSettings? =
        some { interval := c.interval, timeout, concurrency := c.concurrency } ∧
      timeout.nanos = c.timeout.nanos + EchoOptions.grace.nanos := by
  obtain ⟨n, -, bound, htimeout⟩ := h.timeout
  have fits : c.timeout.nanos + EchoOptions.grace.nanos ≤ Duration.largest.nanos := by
    rw [htimeout, Duration.nanos_ofMillis]
    unfold Duration.mostMillis at bound
    simp only [EchoOptions.grace, Duration.nanos_ofMillis, Duration.largest, Duration.perMilli,
      Duration.perSecond]
    omega
  refine ⟨⟨c.timeout.nanos + EchoOptions.grace.nanos⟩, ?_, rfl⟩
  unfold proberSettings? EchoOptions.unitTimeout?
  have sum : c.echoOptions.timeout.add? EchoOptions.grace =
      some ⟨c.timeout.nanos + EchoOptions.grace.nanos⟩ :=
    Duration.add?_eq_some_iff.mpr ⟨rfl, fits⟩
  rw [sum]
  rfl

end EchoConfig

namespace LookupConfig

/-- What the settings of an accepted lookup configuration satisfy. -/
structure Accepted (c : LookupConfig) : Prop where
  interval : c.interval.Configured
  timeout : c.timeout.Configured
  concurrency : 0 < c.concurrency ∧ c.concurrency ≤ mostConfigured

theorem accepted {p : Properties} {c : LookupConfig} (h : ofProperties p = .ok c) :
    c.Accepted := by
  have given := holds h
  simp only [parts, List.forall_mem_cons] at given
  obtain ⟨-, interval, timeout, concurrency, -⟩ := given
  exact
    { interval := Properties.Gives.configured interval ⟨1000, by decide, by decide, rfl⟩
      timeout := Properties.Gives.configured timeout ⟨5000, by decide, by decide, rfl⟩
      concurrency := Properties.Gives.bounded concurrency (by decide) }

end LookupConfig

end PingWatch
