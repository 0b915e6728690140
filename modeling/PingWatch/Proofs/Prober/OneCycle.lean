import PingWatch.Proofs.Cycle.Ledger
import PingWatch.Prober

/-!
# One cycle of a prober

`Probing.opening` is the cycle that a load leads to and `Probing.closing` the same cycle at its end
when nothing cancels it; `joinedAt_last` says when that is.  A call of `Prober.cycle` comes out in
one of four ways:

* `cycle_of_unloaded`: the load fails;
* `cycle_of_fault`: the pool of permits is refused;
* `cycle_of_whole`: the cancellation, if any, comes after the end: the cycle is flushed;
* `cycle_of_cut`: the cancellation comes first: the cycle is cut off.
-/

namespace PingWatch

/-- Nothing is refused but a zero. -/
theorem ProberSettings.refused?_eq_none {s : ProberSettings} :
    s.refused? = none ↔ 0 < s.interval.nanos ∧ 0 < s.timeout.nanos ∧ 0 < s.concurrency := by
  unfold refused?
  split
  · next h => simp [Duration.isZero_eq_true.mp h]
  · split
    · next h => simp [Duration.isZero_eq_true.mp h]
    · split
      · next h => simp [h]
      · next hi ht hc =>
        rw [Duration.isZero_eq_true, Classical.not_not] at hi ht
        exact ⟨fun _ => ⟨hi, ht, Nat.pos_of_ne_zero hc⟩, fun _ => rfl⟩

namespace Probing

/-- How many milliseconds one check may take. -/
def patience (p : Probing) : Nat := p.settings.timeout.millisUp

/-- The outcomes of the checks of cycle `k` over `targets`. -/
def outcomes (p : Probing) (k : Nat) (targets : List String) : List Outcome :=
  (p.jobs k targets).map (·.outcome p.patience)

/-- Cycle `k` over `targets`, about to begin at `now`. -/
def opening (p : Probing) (k now : Nat) (targets : List String) : Cycle :=
  .start p.kind p.settings.concurrency p.patience now (p.jobs k targets)

/-- Cycle `k` over `targets` at its end, when nothing cancels it. -/
def closing (p : Probing) (k now : Nat) (targets : List String) : Cycle :=
  (p.opening k now targets).advanceBefore none

/-- When the last check of cycle `k` has ended and been counted, if nothing cancels the cycle. -/
def joinedAt (p : Probing) (k now : Nat) (targets : List String) : Nat :=
  (p.closing k now targets).now

@[simp] theorem length_jobs (p : Probing) (k : Nat) (targets : List String) :
    (p.jobs k targets).length = targets.length := by
  simp [jobs]

/-- Every occurrence of a target gets a check of its own. -/
theorem jobs_targets (p : Probing) (k : Nat) (targets : List String) :
    (p.jobs k targets).map (·.target) = targets := by
  unfold jobs
  rw [List.map_map]
  exact List.zipIdx_map_fst 0 targets

@[simp] theorem length_outcomes (p : Probing) (k : Nat) (targets : List String) :
    (p.outcomes k targets).length = targets.length := by
  simp [outcomes]

/-! ## The end of a cycle -/

theorem closing_reached (p : Probing) (k now : Nat) (targets : List String) :
    Cycle.Reaches (p.opening k now targets) (p.closing k now targets) :=
  Cycle.advance_reaches none _

theorem closing_finished (p : Probing) (k now : Nat) (targets : List String) :
    (p.closing k now targets).finished = true :=
  Cycle.advance_none_finished _

section Finished

variable {p : Probing} {k now : Nat} {targets : List String} {c : Cycle}

theorem finished_spec (reached : Cycle.Reaches (p.opening k now targets) c)
    (finished : c.finished = true) (slots : 0 < p.settings.concurrency) :
    c.waiting = [] ∧ c.admitted = [] ∧ c.flying = [] ∧ c.unjoined = 0 := by
  have some_slots : 0 < c.slots := by
    rw [reached.setup.2.1]
    exact slots
  exact reached.orderly.seats.finished finished some_slots

/-- A finished cycle has begun a check of every occurrence of a target, in order. -/
theorem begun_of_finished (reached : Cycle.Reaches (p.opening k now targets) c)
    (finished : c.finished = true) (slots : 0 < p.settings.concurrency) :
    c.begun.reverse.map (·.2) = targets := by
  obtain ⟨waiting, admitted, -, -⟩ := finished_spec reached finished slots
  rw [reached.orderly.line.begun_all waiting admitted, p.jobs_targets]

end Finished

/-- No check ends after the end of the cycle, and a cycle that takes any time ends with one of its
checks. -/
theorem joinedAt_last {p : Probing} (slots : 0 < p.settings.concurrency) (k now : Nat)
    (targets : List String) :
    (∀ e ∈ (p.closing k now targets).entries (p.jobs k targets),
      e.1 + e.2.span p.patience ≤ p.joinedAt k now targets) ∧
    (p.joinedAt k now targets = now ∨
      ∃ e ∈ (p.closing k now targets).entries (p.jobs k targets),
        p.joinedAt k now targets = e.1 + e.2.span p.patience) := by
  have reached := p.closing_reached k now targets
  have orderly := reached.orderly
  have timeout : (p.closing k now targets).timeout = p.patience := reached.setup.2.2
  obtain ⟨-, -, flying, -⟩ := finished_spec reached (p.closing_finished k now targets) slots
  rw [← timeout]
  exact ⟨fun e he => orderly.ended flying he, orderly.booked.clock⟩

end Probing

namespace Prober

/-- The prober after a cycle, ready for the next. -/
def after (p : Prober) (r : CycleRun) : Prober :=
  { p with loads := p.loads + 1, samples := r.samples }

/-- The run of a cycle whose load fails. -/
def unloadedRun (p : Prober) (now : Nat) (cause : Cause) : CycleRun :=
  { report := .error (p.probing.loadFailure cause), beganAt := now, endedAt := now, begun := []
    peak := 0, samples := p.samples, settings := [] }

/-- The run of a cycle that comes to its end. -/
def wholeRun (p : Prober) (now : Nat) (targets : List String) (refuses : Gauge → Bool) : CycleRun :=
  let c := p.probing.closing p.loads now targets
  { report := .ok { targets := targets.length, failures := c.failures, cancelled := false }
    beganAt := now, endedAt := c.now, begun := c.begun.reverse, peak := c.peak
    samples := c.samples
    settings := gather refuses
      { scope := p.probing.scope, kind := p.probing.kind, samples := c.samples } }

/-- The run of a cycle that is cut off at `t`. -/
def cutRun (p : Prober) (now : Nat) (targets : List String) (t : Nat) : CycleRun :=
  let c := (p.probing.opening p.loads now targets).advanceBefore (some t)
  let cut := c.cutOff (max now t)
  { report := .ok { targets := targets.length, failures := cut.failures, cancelled := true }
    beganAt := now, endedAt := max now t, begun := c.begun.reverse, peak := c.peak
    samples := cut.samples, settings := [] }

section Outcomes

variable {p : Prober} {targets : List String} (now : Nat) (refuses : Gauge → Bool)

theorem cycle_of_unloaded {cause : Cause} (h : p.probing.load p.loads = .error cause)
    (cancelAt : Option Nat) :
    p.cycle now cancelAt refuses =
      .ok (p.after (p.unloadedRun now cause), p.unloadedRun now cause) := by
  unfold cycle load
  rw [h]
  rfl

theorem cycle_of_fault (h : p.probing.load p.loads = .ok targets)
    (many : mostPermits < p.probing.settings.concurrency) (cancelAt : Option Nat) :
    p.cycle now cancelAt refuses = .error .permits := by
  unfold cycle load
  rw [h]
  dsimp only
  rw [if_pos many]

theorem load_eq (h : p.probing.load p.loads = .ok targets)
    (permits : p.probing.settings.concurrency ≤ mostPermits) :
    p.load now = .ok (p.probing.opening p.loads now targets) := by
  unfold load
  rw [h]
  exact if_neg (Nat.not_lt.mpr permits)

theorem waiting_opening (p : Probing) (k : Nat) (targets : List String) :
    (p.opening k now targets).waiting.length = targets.length :=
  p.length_jobs k targets

theorem cycle_of_whole (h : p.probing.load p.loads = .ok targets)
    (permits : p.probing.settings.concurrency ≤ mostPermits) {cancelAt : Option Nat}
    (late : ∀ t, cancelAt = some t → p.probing.joinedAt p.loads now targets < t) :
    p.cycle now cancelAt refuses =
      .ok (p.after (p.wholeRun now targets refuses), p.wholeRun now targets refuses) := by
  unfold cycle
  rw [load_eq now h permits]
  dsimp only
  cases cancelAt with
  | none =>
    rw [waiting_opening]
    rfl
  | some t =>
    have early := late t rfl
    have whole : (p.probing.opening p.loads now targets).advanceBefore (some t) =
        p.probing.closing p.loads now targets := Cycle.advance_some_eq early
    have finished := p.probing.closing_finished p.loads now targets
    have past : (p.probing.closing p.loads now targets).now < t := early
    rw [whole, waiting_opening]
    simp only [finished, past, decide_true, Bool.and_self, if_true]
    rfl

theorem cycle_of_cut (h : p.probing.load p.loads = .ok targets)
    (permits : p.probing.settings.concurrency ≤ mostPermits) {t : Nat}
    (early : t ≤ p.probing.joinedAt p.loads now targets) :
    p.cycle now (some t) refuses =
      .ok (p.after (p.cutRun now targets t), p.cutRun now targets t) := by
  have unfinished : ¬(((p.probing.opening p.loads now targets).advanceBefore (some t)).finished &&
      ((p.probing.opening p.loads now targets).advanceBefore (some t)).now < t) = true := by
    rw [Bool.and_eq_true, decide_eq_true_eq, Cycle.advance_finished_iff]
    exact Nat.not_lt.mpr early
  unfold cycle
  rw [load_eq now h permits]
  dsimp only
  rw [if_neg unfinished, waiting_opening]
  rfl

/-- A cycle with permits comes out whole or cut. -/
theorem cycle_cases (h : p.probing.load p.loads = .ok targets)
    (permits : p.probing.settings.concurrency ≤ mostPermits) (cancelAt : Option Nat) :
    (∀ t, cancelAt = some t → p.probing.joinedAt p.loads now targets < t) ∧
        p.cycle now cancelAt refuses =
          .ok (p.after (p.wholeRun now targets refuses), p.wholeRun now targets refuses) ∨
      ∃ t, cancelAt = some t ∧ t ≤ p.probing.joinedAt p.loads now targets ∧
        p.cycle now cancelAt refuses =
          .ok (p.after (p.cutRun now targets t), p.cutRun now targets t) := by
  by_cases late : ∀ t, cancelAt = some t → p.probing.joinedAt p.loads now targets < t
  · exact .inl ⟨late, cycle_of_whole now refuses h permits late⟩
  · obtain ⟨t, cut⟩ := Classical.not_forall.mp late
    obtain ⟨rfl, early⟩ := Classical.not_imp.mp cut
    have early := Nat.not_lt.mp early
    exact .inr ⟨t, rfl, early, cycle_of_cut now refuses h permits early⟩

end Outcomes

end Prober

end PingWatch
