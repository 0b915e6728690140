import PingWatch.Proofs.Cycle.Clock
import PingWatch.Proofs.Prober.OneCycle

/-!
# The fan-out of one cycle

A cycle begins the checks of its targets in order, each at most once, never more at a time than its
concurrency, and none after its cancellation.  `checks_fan_out` says so of the cycle on the clock,
and what does not depend on the clock of every other order in which its checks might have ended.
-/

namespace PingWatch

namespace Cycle

/-- What a cycle over `targets` shows of its fan-out, whatever the order of its checks. -/
structure FansOut (jobs : List Job) (slots : Nat) (c : Cycle) : Prop where
  /-- A slot is free, or one admitted target or one check in the air holds it. -/
  permits : c.free + c.admitted.length + c.flying.length = slots
  /-- No more checks are in the air than there are slots, nor have there ever been. -/
  inFlight : c.flying.length ≤ slots ∧ c.peak ≤ slots
  /-- Whatever the time, no more of the checks begun are under way. -/
  atOnce : ∀ τ, (c.entries jobs).countP (underWay c.timeout τ) ≤ slots
  inOrder : c.begun.reverse.map (·.2) <+: jobs.map (·.target)
  sorted : c.begun.reverse.Pairwise (·.1 ≤ ·.1)
  past : ∀ e ∈ c.begun, e.1 ≤ c.now

theorem Reaches.fansOut {kind : Kind} {slots timeout t₀ : Nat} {jobs : List Job} {c : Cycle}
    (h : Reaches (start kind slots timeout t₀ jobs) c) : FansOut jobs slots c := by
  obtain ⟨line, seats, booked⟩ := h.orderly
  have same : c.slots = slots := h.setup.2.1
  rw [← same]
  have held := seats.held
  exact ⟨held, ⟨by omega, seats.peak⟩, booked.bound,
    line.begun_isPrefix, List.pairwise_reverse.mpr line.sorted, fun e he => (line.past e he).2⟩

end Cycle

namespace Prober

/-- **Bounded, ordered, exactly once.**  In every order in which its checks may end, a cycle keeps at
most `concurrency` of them in flight, begins them in the order of the targets and each at most once,
and has begun them all when it is finished.  On the clock the same holds of its run, at every moment;
without a cancellation every check is begun, and none begins after a cancellation. -/
theorem checks_fan_out {p : Prober} {targets : List String}
    (loaded : p.probing.load p.loads = .ok targets)
    (slots : 0 < p.probing.settings.concurrency)
    (permits : p.probing.settings.concurrency ≤ mostPermits)
    (now : Nat) (cancelAt : Option Nat) (refuses : Gauge → Bool) :
    (∀ c, Cycle.Reaches (p.probing.opening p.loads now targets) c →
      c.FansOut (p.probing.jobs p.loads targets) p.probing.settings.concurrency ∧
      (c.finished = true → c.begun.reverse.map (·.2) = targets)) ∧
    ∃ p' r, p.cycle now cancelAt refuses = .ok (p', r) ∧
      r.peak ≤ p.probing.settings.concurrency ∧
      (∀ τ, (timetable (p.probing.jobs p.loads targets) r.begun).countP
        (underWay p.probing.patience τ) ≤ p.probing.settings.concurrency) ∧
      r.begun.map (·.2) <+: targets ∧
      r.begun.Pairwise (·.1 ≤ ·.1) ∧
      (cancelAt = none → r.begun.map (·.2) = targets) ∧
      ∀ t, cancelAt = some t → ∀ e ∈ r.begun, e.1 ≤ t := by
  refine ⟨fun c reached => ⟨reached.fansOut, fun finished =>
    Probing.begun_of_finished reached finished slots⟩, ?_⟩
  have seen : ∀ limit, let c := (p.probing.opening p.loads now targets).advanceBefore limit
      c.peak ≤ p.probing.settings.concurrency ∧
      (∀ τ, (timetable (p.probing.jobs p.loads targets) c.begun.reverse).countP
        (underWay p.probing.patience τ) ≤ p.probing.settings.concurrency) ∧
      c.begun.reverse.map (·.2) <+: targets ∧ c.begun.reverse.Pairwise (·.1 ≤ ·.1) := by
    intro limit
    have reached := Cycle.advance_reaches limit (p.probing.opening p.loads now targets)
    obtain ⟨-, inFlight, atOnce, inOrder, sorted, -⟩ := reached.fansOut
    rw [p.probing.jobs_targets] at inOrder
    rw [reached.setup.2.2] at atOnce
    exact ⟨inFlight.2, atOnce, inOrder, sorted⟩
  obtain ⟨late, ran⟩ | ⟨t, rfl, -, ran⟩ := cycle_cases now refuses loaded permits cancelAt
  · obtain ⟨peak, atOnce, inOrder, sorted⟩ := seen none
    have reached := p.probing.closing_reached p.loads now targets
    refine ⟨_, _, ran, peak, atOnce, inOrder, sorted, fun _ => ?_, ?_⟩
    · exact Probing.begun_of_finished reached (p.probing.closing_finished p.loads now targets) slots
    · intro t ht e he
      have past := reached.fansOut.past e (List.mem_reverse.mp he)
      exact Nat.le_of_lt (Nat.lt_of_le_of_lt past (late t ht))
  · obtain ⟨peak, atOnce, inOrder, sorted⟩ := seen (some t)
    refine ⟨_, _, ran, peak, atOnce, inOrder, sorted, by simp, ?_⟩
    rintro _ ⟨⟩ e he
    exact Nat.le_of_lt (Cycle.begun_before (List.mem_reverse.mp he))

/-- Four checks of three milliseconds, two at a time, of which the last has the name of the first. -/
def pairs : Probing where
  scope := ⟨"dns", "here"⟩
  kind := .lookup
  settings := { concurrency := 2 }
  load _ := .ok ["a", "b", "c", "a"]
  check _ _ _ := { delay? := some 3, ending := .sample (.lookup 1) }

/-- Cut off after two milliseconds, the cycle has begun no check later than that, nor out of turn. -/
theorem pairs_cut :
    ∃ p' r, (start pairs 0).cycle 0 (some 2) takesAll = .ok (p', r) ∧ r.peak ≤ 2 ∧
      r.begun.map (·.2) <+: ["a", "b", "c", "a"] ∧ ∀ e ∈ r.begun, e.1 ≤ 2 := by
  have loaded : (start pairs 0).probing.load (start pairs 0).loads =
      .ok ["a", "b", "c", "a"] := rfl
  obtain ⟨-, p', r, ran, peak, -, inOrder, -, -, before⟩ :=
    checks_fan_out loaded (by decide) (by decide) 0 (some 2) takesAll
  exact ⟨p', r, ran, peak, inOrder, before 2 rfl⟩

end Prober

end PingWatch
