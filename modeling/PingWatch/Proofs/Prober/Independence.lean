import PingWatch.Proofs.Aggregate.Reordering
import PingWatch.Proofs.Metric.Gather
import PingWatch.Proofs.Prober.OneCycle

/-!
# What a cycle comes to does not depend on its concurrency

A check may take its timeout from the moment it begins, however long it had to wait for a slot, and
what it comes to is its own affair.  So the concurrency of a prober decides when its checks run but
not what they come to: two cycles over the same targets lead to the same report and to samples that
are alike.

`concurrency_makes_no_difference` says so of two cycles on the clock, and of any two orders in which
their checks might have ended.
-/

namespace PingWatch

namespace Cycle

/-- Two finished cycles whose checks came to the same, each in its own order. -/
theorem Tallied.alike {os₁ os₂ : List Outcome} {c₁ c₂ : Cycle} (h₁ : Tallied os₁ c₁)
    (h₂ : Tallied os₂ c₂) (same : os₁.Perm os₂) (kind : c₁.kind = c₂.kind) :
    c₁.failures = c₂.failures ∧ c₁.samples.Alike c₂.samples := by
  obtain ⟨counted₁, all₁, samples₁, failures₁⟩ := h₁
  obtain ⟨counted₂, all₂, samples₂, failures₂⟩ := h₂
  refine ⟨?_, ?_⟩
  · rw [failures₁, failures₂]
    exact same.countP_eq _
  · rw [samples₁, samples₂, kind, same.length_eq]
    exact Samples.foldl_tally_alike c₂.kind (all₁.trans (same.trans all₂.symm)) _

end Cycle

/-- The probing with up to `n` checks under way at once. -/
def Probing.withConcurrency (n : Nat) (p : Probing) : Probing :=
  { p with settings := { p.settings with concurrency := n } }

namespace Prober

/-- The prober with up to `n` checks under way at once. -/
def withConcurrency (n : Nat) (p : Prober) : Prober :=
  { p with probing := p.probing.withConcurrency n }

/-- Finished cycles over the same targets are alike, whatever their concurrencies and whatever the
orders of their checks. -/
theorem finished_alike {p : Probing} {k : Nat} {targets : List String} {n₁ n₂ now₁ now₂ : Nat}
    {c₁ c₂ : Cycle}
    (reached₁ : Cycle.Reaches ((p.withConcurrency n₁).opening k now₁ targets) c₁)
    (reached₂ : Cycle.Reaches ((p.withConcurrency n₂).opening k now₂ targets) c₂)
    (some₁ : 0 < n₁) (some₂ : 0 < n₂) (finished₁ : c₁.finished = true)
    (finished₂ : c₂.finished = true) :
    c₁.failures = c₂.failures ∧ c₁.samples.Alike c₂.samples := by
  have kind : c₁.kind = c₂.kind := reached₁.setup.1.trans reached₂.setup.1.symm
  -- neither targets nor checks nor the timeout know of the concurrency
  have same : (p.withConcurrency n₁).outcomes k targets = (p.withConcurrency n₂).outcomes k targets :=
    rfl
  have tallied₁ : c₁.Tallied ((p.withConcurrency n₁).outcomes k targets) :=
    reached₁.tallied finished₁ some₁
  have tallied₂ : c₂.Tallied ((p.withConcurrency n₂).outcomes k targets) :=
    reached₂.tallied finished₂ some₂
  exact tallied₁.alike tallied₂ (.of_eq same) kind

/-- **The concurrency makes no difference.**  However many checks two cycles over the same targets
may have under way at once, and whenever they begin, they report the same numbers of targets and of
failures, their samples are alike, and they flush the same health.  Any two orders in which their
checks might have ended lead to the same. -/
theorem concurrency_makes_no_difference {p : Prober} {targets : List String}
    (loaded : p.probing.load p.loads = .ok targets) {n₁ n₂ : Nat} (some₁ : 0 < n₁)
    (permits₁ : n₁ ≤ mostPermits) (some₂ : 0 < n₂) (permits₂ : n₂ ≤ mostPermits)
    (now₁ now₂ : Nat) (refuses₁ refuses₂ : Gauge → Bool) :
    (∃ p₁ r₁ p₂ r₂ failures,
      (p.withConcurrency n₁).cycle now₁ none refuses₁ = .ok (p₁, r₁) ∧
      (p.withConcurrency n₂).cycle now₂ none refuses₂ = .ok (p₂, r₂) ∧
      r₁.report = .ok { targets := targets.length, failures, cancelled := false } ∧
      r₂.report = .ok { targets := targets.length, failures, cancelled := false } ∧
      r₁.samples.Alike r₂.samples ∧
      r₁.samples.healthy p.probing.kind = r₂.samples.healthy p.probing.kind ∧
      r₁.settings.filter (fun s => s.gauge = .health) =
        r₂.settings.filter (fun s => s.gauge = .health)) ∧
    ∀ c₁ c₂,
      Cycle.Reaches ((p.probing.withConcurrency n₁).opening p.loads now₁ targets) c₁ →
      Cycle.Reaches ((p.probing.withConcurrency n₂).opening p.loads now₂ targets) c₂ →
      c₁.finished = true → c₂.finished = true →
      c₁.failures = c₂.failures ∧ c₁.samples.Alike c₂.samples := by
  refine ⟨?_, fun c₁ c₂ reached₁ reached₂ => finished_alike reached₁ reached₂ some₁ some₂⟩
  obtain ⟨failures, alike⟩ := finished_alike
    ((p.probing.withConcurrency n₁).closing_reached p.loads now₁ targets)
    ((p.probing.withConcurrency n₂).closing_reached p.loads now₂ targets) some₁ some₂
    (Probing.closing_finished ..) (Probing.closing_finished ..)
  have healthy := alike.healthy p.probing.kind
  have ran₁ := cycle_of_whole (p := p.withConcurrency n₁) now₁ refuses₁ loaded permits₁
    (fun t (ht : none = some t) => absurd ht (by simp))
  have ran₂ := cycle_of_whole (p := p.withConcurrency n₂) now₂ refuses₂ loaded permits₂
    (fun t (ht : none = some t) => absurd ht (by simp))
  refine ⟨_, _, _, _, _, ran₁, ran₂, rfl, ?_, alike, healthy, ?_⟩
  · exact congrArg (fun n => Except.ok (⟨targets.length, n, false⟩ : CycleReport)) failures.symm
  · refine (gather_health refuses₁ _).trans (Eq.trans ?_ (gather_health refuses₂ _).symm)
    exact congrArg (fun b => [(⟨.health, p.probing.scope, .flag b⟩ : Setting)]) healthy

/-- Echo checks of three targets: one that answers, one that never does, and one that panics. -/
def uneven : Probing where
  scope := ⟨"icmp", "here"⟩
  kind := .echo 0.05
  settings := {}
  load _ := .ok ["a", "b", "c"]
  check _ i _ := match i with
    | 0 => { delay? := some 7, ending := .sample (.echo
        { sent := 1, received := 1, worst := .ofMillis 7, best := .ofMillis 7, mean := .ofMillis 7
          received_le := by decide, sent_le := by decide }) }
    | 1 => { delay? := none, ending := .error (.ofText "never") }
    | _ => { delay? := some 2, ending := .panic "boom" }

/-- One after the other or all three at once, the checks come to the same. -/
theorem uneven_in_line_or_abreast :
    ∃ p₁ r₁ p₂ r₂ failures,
      ((start uneven 0).withConcurrency 1).cycle 0 none takesAll = .ok (p₁, r₁) ∧
      ((start uneven 0).withConcurrency 3).cycle 0 none takesAll = .ok (p₂, r₂) ∧
      r₁.report = .ok { targets := 3, failures, cancelled := false } ∧
      r₂.report = .ok { targets := 3, failures, cancelled := false } ∧
      r₁.samples.Alike r₂.samples := by
  have loaded : (start uneven 0).probing.load (start uneven 0).loads = .ok ["a", "b", "c"] := rfl
  have one : (0 : Nat) < 1 := by decide
  have three : (0 : Nat) < 3 := by decide
  obtain ⟨⟨p₁, r₁, p₂, r₂, failures, ran₁, ran₂, report₁, report₂, alike, -, -⟩, -⟩ :=
    concurrency_makes_no_difference loaded one (by decide) three (by decide) 0 0 takesAll takesAll
  exact ⟨p₁, r₁, p₂, r₂, failures, ran₁, ran₂, report₁, report₂, alike⟩

end Prober

end PingWatch
