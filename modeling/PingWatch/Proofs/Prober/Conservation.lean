import PingWatch.Proofs.Metric.Gather
import PingWatch.Proofs.Prober.OneCycle

/-!
# Every target counts in a flush

A cycle that is not cancelled flushes samples in which every occurrence of a target counts exactly
once, by the outcome of its own check.  `cycle_counts_every_target` says so of the cycle on the
clock and of every other order in which its checks might have ended.
-/

namespace PingWatch

namespace Prober

/-- Whatever the order of its checks, a finished cycle accounts for all of them. -/
theorem finished_accounts {p : Probing} {k now : Nat} {targets : List String}
    (slots : 0 < p.settings.concurrency) (fits : ∀ o ∈ p.outcomes k targets, o.Fits p.kind)
    {c : Cycle} (reached : Cycle.Reaches (p.opening k now targets) c)
    (finished : c.finished = true) :
    c.failures = (p.outcomes k targets).countP Outcome.isFailure ∧
      c.samples.Accounts p.kind (p.outcomes k targets) ∧
      (c.samples.healthy p.kind = true ↔ ∀ o ∈ p.outcomes k targets, o.Good p.kind) := by
  obtain ⟨counted, same, samples, failures⟩ := reached.tallied finished slots
  have kind : c.kind = p.kind := reached.setup.1
  have accounts : c.samples.Accounts p.kind (p.outcomes k targets) := by
    rw [samples, kind]
    exact Samples.accounts_foldl same fits
  exact ⟨failures, accounts, accounts.healthy_iff fits⟩

/-- **Every target counts exactly once.**  A cycle that is not cancelled reports as many targets as
were loaded and as many failures as checks failed, timed out or panicked; its samples account for
the outcome of every check; and the health that it flushes says whether all of them were good.  The
counts are the same in whatever order the checks end. -/
theorem cycle_counts_every_target {p : Prober} {targets : List String}
    (loaded : p.probing.load p.loads = .ok targets)
    (slots : 0 < p.probing.settings.concurrency)
    (permits : p.probing.settings.concurrency ≤ mostPermits)
    (fits : ∀ o ∈ p.probing.outcomes p.loads targets, o.Fits p.probing.kind)
    (now : Nat) (refuses : Gauge → Bool) :
    (∃ p' r healthy, p.cycle now none refuses = .ok (p', r) ∧
      r.report = .ok
        { targets := targets.length
          failures := (p.probing.outcomes p.loads targets).countP Outcome.isFailure
          cancelled := false } ∧
      r.samples.total = targets.length ∧
      r.samples.Accounts p.probing.kind (p.probing.outcomes p.loads targets) ∧
      r.settings.filter (fun s => s.gauge = .health) =
        [{ gauge := .health, scope := p.probing.scope, value := .flag healthy }] ∧
      (healthy = true ↔ ∀ o ∈ p.probing.outcomes p.loads targets, o.Good p.probing.kind)) ∧
    ∀ c, Cycle.Reaches (p.probing.opening p.loads now targets) c → c.finished = true →
      c.failures = (p.probing.outcomes p.loads targets).countP Outcome.isFailure ∧
      c.samples.Accounts p.probing.kind (p.probing.outcomes p.loads targets) ∧
      (c.samples.healthy p.probing.kind = true ↔
        ∀ o ∈ p.probing.outcomes p.loads targets, o.Good p.probing.kind) := by
  refine ⟨?_, fun c reached finished => finished_accounts slots fits reached finished⟩
  obtain ⟨failures, accounts, healthy⟩ := finished_accounts slots fits
    (p.probing.closing_reached p.loads now targets) (p.probing.closing_finished p.loads now targets)
  have total : (p.wholeRun now targets refuses).samples.total = targets.length := by
    rw [← p.probing.length_outcomes p.loads targets]
    unfold Samples.Accounts at accounts
    split at accounts <;> exact accounts.total
  refine ⟨_, _, _, cycle_of_whole now refuses loaded permits (by simp), ?_, total, accounts,
    gather_health refuses _, healthy⟩
  rw [← failures]
  rfl

/-- Three lookups, two at a time: one answered, one never, and one that panics at once. -/
def lookups : Probing where
  scope := ⟨"dns", "here"⟩
  kind := .lookup
  settings := { concurrency := 2 }
  load _ := .ok ["a", "b", "a"]
  check _ i _ := match i with
    | 0 => { delay? := some 3, ending := .sample (.lookup 2) }
    | 1 => { delay? := none, ending := .sample (.lookup 1) }
    | _ => { delay? := some 0, ending := .panic "boom" }

/-- A round with one reply missing. -/
def mostlyAnswered : EchoSummary where
  sent := 5
  received := 4
  worst := .ofMillis 30
  best := .ofMillis 10
  mean := .ofMillis 20
  received_le := by decide
  sent_le := by decide

/-- A round without any reply. -/
def unanswered : EchoSummary where
  sent := 5
  received := 0
  worst := .zero
  best := .zero
  mean := .zero
  received_le := by decide
  sent_le := by decide

/-- Four echo checks, two at a time: two are recorded, one does not end in time, and one panics. -/
def pings : Probing where
  scope := ⟨"icmp", "here"⟩
  kind := .echo 0.5
  settings := { concurrency := 2 }
  load _ := .ok ["a", "b", "c", "d"]
  check _ i _ := match i with
    | 0 => { delay? := some 30, ending := .sample (.echo mostlyAnswered) }
    | 1 => { delay? := some 9, ending := .sample (.echo unanswered) }
    | 2 => { delay? := none, ending := .error (.ofText "never") }
    | _ => { delay? := some 2, ending := .panic "boom" }

/-- Of the three lookups one succeeds and two count as errors.  Of the four echo checks two fail,
and each of them counts as lost in full.  Only the one with replies has times, and only its loss is
below the threshold. -/
theorem lookups_and_pings_count :
    (∃ p' r, (start lookups 0).cycle 0 none takesAll = .ok (p', r) ∧
      r.report = .ok { targets := 3, failures := 2, cancelled := false } ∧
      r.samples.success = 1 ∧ r.samples.errors = 2) ∧
    ∃ p' r, (start pings 0).cycle 0 none takesAll = .ok (p', r) ∧
      r.report = .ok { targets := 4, failures := 2, cancelled := false } ∧
      r.samples.packetLoss.Perm [0.2, 1.0, 1.0, 1.0] ∧ r.samples.maxRtt = [30000.0] ∧
      r.samples.minRtt = [10000.0] ∧ r.samples.meanRtt = [20000.0] ∧ r.samples.reports = 1 ∧
      r.settings.filter (fun s => s.gauge = .health) =
        [{ gauge := .health, scope := pings.scope, value := .flag false }] := by
  constructor
  · have outcomes : lookups.outcomes 0 ["a", "b", "a"] =
        [.recorded (.lookup 2), .failed, .panicked] := rfl
    have fits : ∀ o ∈ lookups.outcomes 0 ["a", "b", "a"], o.Fits .lookup := by
      rw [outcomes]
      simp [Outcome.Fits, Sample.Fits]
    have loaded : (start lookups 0).probing.load (start lookups 0).loads = .ok ["a", "b", "a"] :=
      rfl
    obtain ⟨⟨p', r, healthy, ran, report, -, accounts, -, -⟩, -⟩ :=
      cycle_counts_every_target loaded (by decide) (by decide) fits 0 takesAll
    exact ⟨p', r, ran, report, accounts.success, accounts.errors⟩
  · have loaded : (start pings 0).probing.load (start pings 0).loads = .ok ["a", "b", "c", "d"] :=
      rfl
    have outcomes : pings.outcomes 0 ["a", "b", "c", "d"] =
        [.recorded (.echo mostlyAnswered), .recorded (.echo unanswered), .failed, .panicked] := rfl
    have fits : ∀ o ∈ pings.outcomes 0 ["a", "b", "c", "d"], o.Fits (.echo 0.5) := by
      rw [outcomes]
      simp [Outcome.Fits, Sample.Fits]
    obtain ⟨⟨p', r, healthy, ran, report, -, accounts, flushed, good⟩, -⟩ :=
      cycle_counts_every_target loaded (by decide) (by decide) fits 0 takesAll
    -- the check that failed is enough for the probe not to be healthy
    have unhealthy : healthy = false := by
      refine Bool.eq_false_iff.mpr fun all => ?_
      exact (good.mp all .failed (by simp [start, outcomes]) : Outcome.Good (.echo 0.5) .failed)
    refine ⟨p', r, ran, report, ?_, ?_, ?_, ?_, ?_, unhealthy ▸ flushed⟩
    · exact accounts.losses.trans (.of_eq (by decide +kernel))
    · exact List.perm_singleton.mp (accounts.greatest.trans (.of_eq (by decide +kernel)))
    · exact List.perm_singleton.mp (accounts.least.trans (.of_eq (by decide +kernel)))
    · exact List.perm_singleton.mp (accounts.mean.trans (.of_eq (by decide +kernel)))
    · exact accounts.reports.trans (by decide +kernel)

end Prober

end PingWatch
