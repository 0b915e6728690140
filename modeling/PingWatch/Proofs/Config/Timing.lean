import PingWatch.Echo.Check
import PingWatch.Proofs.Prober.Capacity

/-!
# The timing of accepted echo configurations

The times of an echo check fit into each other: the requests of a round share its timeout, and a
prober grants the check a grace beyond it.  `EchoConfig.consistent_timing` says so of every accepted
configuration, from the shortest timeout shared by the most requests to the longest that can be
written down.  Nor is any of them too long for the clock of a round
(`EchoConfig.Accepted.round?_eq`).
-/

namespace PingWatch

theorem Probing.validate_eq_ok {p : Probing} (h : p.settings.refused? = none) :
    p.validate = .ok p := by
  unfold validate
  rw [h]

namespace EchoOptions

/-- Nothing is refused but a zero. -/
theorem refused?_eq_none {o : EchoOptions} :
    o.refused? = none ↔ 0 < o.count.toNat ∧ 0 < o.pingInterval.nanos ∧ 0 < o.timeout.nanos := by
  unfold refused?
  split
  · next h => simp [h]
  · split
    · next h => simp [Duration.isZero_eq_true.mp h]
    · split
      · next h => simp [Duration.isZero_eq_true.mp h]
      · next hc hp ht =>
        rw [Duration.isZero_eq_true, Classical.not_not] at hp ht
        have some_requests : 0 < o.count.toNat :=
          Nat.pos_of_ne_zero fun zero => hc (UInt16.toNat_inj.mp zero)
        exact ⟨fun _ => ⟨some_requests, hp, ht⟩, fun _ => rfl⟩

/-- The waits of all requests together do not take longer than the round may. -/
theorem count_mul_echoWait_le (o : EchoOptions) :
    o.count.toNat * o.echoWait.nanos ≤ o.timeout.nanos := by
  have most : o.count.toNat * o.echoWait.nanos ≤
      max o.count.toNat 1 * (o.timeout.nanos / max o.count.toNat 1) :=
    Nat.mul_le_mul_right _ (Nat.le_max_left ..)
  exact Nat.le_trans most (Nat.mul_div_le ..)

theorem echoWait_pos {o : EchoOptions} (h : max o.count.toNat 1 ≤ o.timeout.nanos) :
    0 < o.echoWait.nanos :=
  Nat.div_pos h (Nat.le_max_right ..)

/-- The round of a check that begins at `start`, if the clock can name the end of its waits. -/
def round (o : EchoOptions) (start : Nat) (answer : Nat → Answer) : Round where
  count := o.count
  spacing := o.pingInterval.millisUp
  wait := o.echoWait.millisUp
  start := start
  deadline := start + o.timeout.millisUp
  answer := answer

end EchoOptions

namespace EchoConfig

/-- A millisecond is enough for every request of the longest round to get a share of it. -/
theorem Accepted.echoWait_pos {c : EchoConfig} (h : c.Accepted) :
    0 < c.echoOptions.echoWait.nanos := by
  refine EchoOptions.echoWait_pos ?_
  obtain ⟨n, positive, -, timeout⟩ := h.timeout
  show max c.count.toNat 1 ≤ c.timeout.nanos
  have most : c.count.toNat ≤ mostRequests := h.count.2
  rw [timeout, Duration.nanos_ofMillis]
  simp only [mostRequests, Duration.perMilli] at most ⊢
  omega

/-- The longest timeout that can be written down ends long before the clock does. -/
theorem Accepted.wait_seconds_lt {c : EchoConfig} (h : c.Accepted) :
    c.echoOptions.echoWait.seconds < Round.clockSeconds := by
  obtain ⟨n, -, bound, timeout⟩ := h.timeout
  have share : c.echoOptions.echoWait.nanos ≤ c.timeout.nanos := Nat.div_le_self ..
  have below : c.timeout.nanos < Round.clockSeconds * Duration.perSecond := by
    rw [timeout, Duration.nanos_ofMillis]
    unfold Duration.mostMillis at bound
    simp only [Round.clockSeconds, Duration.perMilli, Duration.perSecond]
    omega
  exact Nat.div_lt_of_lt_mul (Nat.mul_comm .. ▸ Nat.lt_of_le_of_lt share below)

theorem Accepted.round?_eq {c : EchoConfig} (h : c.Accepted) (start : Nat)
    (answer : Nat → Answer) :
    c.echoOptions.round? start answer = .ok (c.echoOptions.round start answer) := by
  unfold EchoOptions.round? Round.ofWait?
  rw [if_neg (fun past => Nat.not_le.mpr h.wait_seconds_lt past.2)]
  rfl

/-- **Consistent timing.**  The numbers of an accepted configuration lie within their ranges, and
its lengths of time are whole milliseconds above zero.  Nothing of it is refused later on.  The
share of the timeout that a request waits for is not zero; all shares together are within the
timeout; and the time that a prober grants a check is 500 milliseconds longer, which is still a
length of time. -/
theorem consistent_timing {props : Properties} {c : EchoConfig}
    (accepted : ofProperties props = .ok c) :
    (1 ≤ c.count.toNat ∧ c.count.toNat ≤ 65535) ∧ 1 ≤ c.concurrency ∧
      c.interval.Configured ∧ c.timeout.Configured ∧ c.pingInterval.Configured ∧
      c.echoOptions.refused? = none ∧
      ∃ limit, c.echoOptions.unitTimeout? = some limit ∧
        limit.nanos = c.timeout.nanos + (Duration.ofMillis 500).nanos ∧
        (∃ s, c.proberSettings? = some s ∧ s.timeout = limit ∧
          ∀ p : Probing, p.settings = s → p.validate = .ok p) ∧
        0 < c.echoOptions.echoWait.nanos ∧
        c.count.toNat * c.echoOptions.echoWait.nanos ≤ c.timeout.nanos ∧
        c.timeout.nanos < limit.nanos := by
  have sound := EchoConfig.accepted accepted
  obtain ⟨limit, set, longer⟩ := exists_proberSettings sound
  have unit : c.echoOptions.unitTimeout? = some limit := by
    obtain ⟨limit', unit, same⟩ := Option.map_eq_some_iff.mp set
    rw [unit, (ProberSettings.mk.inj same).2.1]
  have settled : ∀ p : Probing, p.settings = ⟨c.interval, limit, c.concurrency⟩ →
      p.validate = .ok p := by
    intro p same
    refine Probing.validate_eq_ok ?_
    rw [same]
    exact (ProberSettings.Configured.echo accepted set).sound.1
  refine ⟨sound.count, sound.concurrency.1, sound.interval, sound.timeout, sound.pingInterval,
    EchoOptions.refused?_eq_none.mpr
      ⟨sound.count.1, sound.pingInterval.nanos_pos, sound.timeout.nanos_pos⟩,
    limit, unit, longer, ⟨_, set, rfl, settled⟩, sound.echoWait_pos,
    c.echoOptions.count_mul_echoWait_le, ?_⟩
  have grace : 0 < EchoOptions.grace.nanos := by decide
  omega

/-- One millisecond shared by the most requests: each may wait for fifteen nanoseconds. -/
theorem consistent_timing_shortest :
    ∃ c limit, ofProperties (.parse "count: 65535\ntimeout: 1ms") = .ok c ∧
      c.echoOptions.echoWait = ⟨15⟩ ∧ c.echoOptions.unitTimeout? = some limit ∧
      limit = .ofMillis 501 ∧ c.count.toNat * c.echoOptions.echoWait.nanos ≤ c.timeout.nanos := by
  have accepted : ofProperties (.parse "count: 65535\ntimeout: 1ms") =
      .ok { count := 65535, timeout := .ofMillis 1 } := by rfl
  obtain ⟨-, -, -, -, -, -, limit, unit, -, -, -, shares, -⟩ := consistent_timing accepted
  refine ⟨_, limit, accepted, by rfl, unit, ?_, shares⟩
  exact (Option.some.inj unit).symm

end EchoConfig

end PingWatch
