import PingWatch.Proofs.Config.Accepted
import PingWatch.Proofs.Prober.Flush

/-!
# Configured probers

What a configuration is accepted for is checked before it gets here, so that a cycle has nothing to
refuse but the targets that it cannot load.  One limit is not among the checks.  A pool holds up to
`mostPermits` permits, and a configured concurrency may be greater than that.

* `ProberSettings.Configured`: the settings that an accepted configuration leads to.
* `Configured.sound`: a prober takes them, and their concurrency is some number up to
  `mostConfigured`.
* `configured_cycle`: a configured cycle ends with a report or a load error, or asks for too many
  permits.
-/

namespace PingWatch

/-- Settings that an accepted configuration leads to. -/
inductive ProberSettings.Configured (props : Properties) : ProberSettings → Prop
  | echo {c : EchoConfig} {s : ProberSettings} (accepted : EchoConfig.ofProperties props = .ok c)
    (set : c.proberSettings? = some s) : Configured props s
  | lookup {c : LookupConfig} (accepted : LookupConfig.ofProperties props = .ok c) :
    Configured props c.proberSettings

theorem Duration.Configured.nanos_pos {d : Duration} (h : d.Configured) : 0 < d.nanos := by
  obtain ⟨n, positive, -, rfl⟩ := h
  rw [Duration.nanos_ofMillis]
  exact Nat.mul_pos positive (by decide)

namespace ProberSettings

/-- A prober takes every configured setting. -/
theorem Configured.sound {props : Properties} {s : ProberSettings} (h : Configured props s) :
    s.refused? = none ∧ 0 < s.concurrency ∧ s.concurrency ≤ mostConfigured := by
  cases h with
  | echo accepted set =>
    have sound := EchoConfig.accepted accepted
    obtain ⟨timeout, set', longer⟩ := EchoConfig.exists_proberSettings sound
    obtain rfl := Option.some.inj (set.symm.trans set')
    have waits : 0 < timeout.nanos := by
      rw [longer]
      exact Nat.add_pos_left sound.timeout.nanos_pos _
    exact ⟨refused?_eq_none.mpr ⟨sound.interval.nanos_pos, waits, sound.concurrency.1⟩,
      sound.concurrency⟩
  | lookup accepted =>
    have sound := LookupConfig.accepted accepted
    exact ⟨refused?_eq_none.mpr
      ⟨sound.interval.nanos_pos, sound.timeout.nanos_pos, sound.concurrency.1⟩, sound.concurrency⟩

end ProberSettings

namespace Prober

/-- **What a configured cycle can come to.**  Every accepted configuration leads to settings, and a
prober takes them.  A cycle with them ends with a load error when its targets cannot be loaded, and
otherwise with a report, whatever its checks do and whenever it is cancelled: unless its concurrency
is greater than the permits of a pool.  Then it faults. -/
theorem configured_cycle (props : Properties) :
    (∀ c, EchoConfig.ofProperties props = .ok c → ∃ s, c.proberSettings? = some s) ∧
    ∀ p : Prober, ProberSettings.Configured props p.probing.settings →
      p.probing.validate = .ok p.probing ∧
      ∀ (now : Nat) (cancelAt : Option Nat) (refuses : Gauge → Bool),
        (∃ cause r, p.probing.load p.loads = .error cause ∧
          p.cycle now cancelAt refuses = .ok (p.after r, r) ∧
          r.report = .error (cause.under s!"Failed to load {p.probing.scope.probe} targets")) ∨
        ∃ targets, p.probing.load p.loads = .ok targets ∧
          (mostPermits < p.probing.settings.concurrency ∧
              p.cycle now cancelAt refuses = .error .permits ∨
            p.probing.settings.concurrency ≤ mostPermits ∧
              ∃ r failures cancelled, p.cycle now cancelAt refuses = .ok (p.after r, r) ∧
                r.report = .ok { targets := targets.length, failures, cancelled }) := by
  refine ⟨fun c accepted => ?_, fun p configured => ⟨?_, fun now cancelAt refuses => ?_⟩⟩
  · obtain ⟨timeout, set, -⟩ := EchoConfig.exists_proberSettings (EchoConfig.accepted accepted)
    exact ⟨_, set⟩
  · unfold Probing.validate
    rw [configured.sound.1]
  · cases loaded : p.probing.load p.loads with
    | error cause =>
      exact .inl ⟨cause, _, rfl, cycle_of_unloaded now refuses loaded cancelAt, rfl⟩
    | ok targets =>
      refine .inr ⟨targets, rfl, ?_⟩
      rcases Nat.lt_or_ge mostPermits p.probing.settings.concurrency with many | permits
      · exact .inl ⟨many, cycle_of_fault now refuses loaded many cancelAt⟩
      · obtain ⟨-, whole⟩ | ⟨t, rfl, -, cut⟩ := cycle_cases now refuses loaded permits cancelAt
        · exact .inr ⟨permits, _, _, _, whole, rfl⟩
        · exact .inr ⟨permits, _, _, _, cut, rfl⟩

/-- Lookups with up to `n` of them under way at once. -/
def throng (n : Nat) : Probing where
  scope := ⟨"dns", "here"⟩
  kind := .lookup
  settings := { concurrency := n }
  load _ := .ok ["a"]
  check _ _ _ := { delay? := some 1, ending := .sample (.lookup 1) }

/-- The greatest concurrency that a pool has the permits for. -/
theorem throng_fits :
    ∃ r failures cancelled,
      (start (throng mostPermits) 0).cycle 0 none takesAll =
        .ok ((start (throng mostPermits) 0).after r, r) ∧
      r.report = .ok { targets := 1, failures, cancelled } := by
  have accepted : LookupConfig.ofProperties (.parse "concurrency: 2305843009213693951") =
      .ok { concurrency := mostPermits } := by rfl
  obtain ⟨-, outcome⟩ := (configured_cycle (.parse "concurrency: 2305843009213693951")).2
    (start (throng mostPermits) 0) (.lookup accepted)
  obtain ⟨cause, r, failed, -⟩ | ⟨targets, loaded, ⟨many, -⟩ | ⟨-, reported⟩⟩ :=
    outcome 0 none takesAll
  · exact absurd failed (by simp [start, throng])
  · exact absurd many (Nat.lt_irrefl _)
  · obtain rfl : ["a"] = targets := Except.ok.inj loaded
    exact reported

/-- One more is accepted as well, and the cycle faults over a single target. -/
theorem throng_past_permits :
    ∃ c, LookupConfig.ofProperties (.parse "concurrency: 2305843009213693952") = .ok c ∧
      (throng 2305843009213693952).settings = c.proberSettings ∧
      (throng 2305843009213693952).validate = .ok (throng 2305843009213693952) ∧
      (start (throng 2305843009213693952) 0).cycle 0 none takesAll = .error .permits :=
  ⟨{ concurrency := 2305843009213693952 }, by rfl, rfl, by rfl,
    cycle_of_fault 0 takesAll (show (throng 2305843009213693952).load 0 = .ok ["a"] from rfl)
      (by decide) none⟩

end Prober

end PingWatch
