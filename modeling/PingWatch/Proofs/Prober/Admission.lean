import PingWatch.Proofs.Cycle.Punctual
import PingWatch.Proofs.Prober.OneCycle

/-!
# Admission without delay

No check of a cycle begins later than the timeouts of those before it make necessary.
`admission_is_work_conserving` says so of the cycle on the clock, and of every other one in which no
move is late.
-/

namespace PingWatch

namespace Prober

/-- **Admission is work-conserving.**  As long as no move is late, a cycle over `n` targets with `K`
slots begins the check behind `i` others within `i / K` timeouts, rounded down, and is never further
on than `n / K` timeouts, rounded up.  On the clock, and when nothing cancels it, it begins the
check of every target by then and returns by then, however long the checks would take and however
they come out. -/
theorem admission_is_work_conserving {p : Prober} {targets : List String}
    (loaded : p.probing.load p.loads = .ok targets)
    (slots : 0 < p.probing.settings.concurrency)
    (permits : p.probing.settings.concurrency ≤ mostPermits)
    (now : Nat) (refuses : Gauge → Bool) :
    (∀ c, Cycle.Follows (p.probing.opening p.loads now targets) c →
      (∀ i e, c.begun.reverse[i]? = some e →
        e.1 ≤ now + i / p.probing.settings.concurrency * p.probing.patience) ∧
      c.now ≤ now + (targets.length + p.probing.settings.concurrency - 1) /
        p.probing.settings.concurrency * p.probing.patience) ∧
    ∃ p' r, p.cycle now none refuses = .ok (p', r) ∧
      (∀ i target, targets[i]? = some target →
        ∃ t, r.begun[i]? = some (t, target) ∧
          t ≤ now + i / p.probing.settings.concurrency * p.probing.patience) ∧
      r.endedAt ≤ now + (targets.length + p.probing.settings.concurrency - 1) /
        p.probing.settings.concurrency * p.probing.patience := by
  have punctual : ∀ c, Cycle.Follows (p.probing.opening p.loads now targets) c →
      (∀ i e, c.begun.reverse[i]? = some e →
        e.1 ≤ now + i / p.probing.settings.concurrency * p.probing.patience) ∧
      c.now ≤ now + (targets.length + p.probing.settings.concurrency - 1) /
        p.probing.settings.concurrency * p.probing.patience := by
    intro c follows
    obtain ⟨-, same, timeout⟩ := follows.reaches.setup
    have h := follows.punctual slots
    rw [p.probing.length_jobs] at h
    have begun := h.begun
    have last := h.now
    unfold Cycle.turnBy at begun last
    rw [same, timeout] at begun last
    exact ⟨begun, last⟩
  have closing := p.probing.closing_reached p.loads now targets
  have all := Probing.begun_of_finished closing
    (p.probing.closing_finished p.loads now targets) slots
  obtain ⟨begun, last⟩ := punctual _ (Cycle.advance_follows none _)
  refine ⟨punctual, _, _, cycle_of_whole now refuses loaded permits (by simp), ?_, last⟩
  intro i target here
  rw [← all, List.getElem?_map] at here
  obtain ⟨⟨t, _⟩, there, rfl⟩ := Option.map_eq_some_iff.mp here
  exact ⟨t, there, begun i _ there⟩

/-- Five checks with two slots and ten milliseconds each, of which the second and the fourth never
end and the third panics. -/
def uneasy : Probing where
  scope := ⟨"dns", "here"⟩
  kind := .lookup
  settings := { concurrency := 2, timeout := .ofMillis 10 }
  load _ := .ok ["a", "b", "c", "d", "e"]
  check _ i _ := match i with
    | 0 | 4 => { delay? := some 4, ending := .sample (.lookup 1) }
    | 2 => { delay? := some 7, ending := .panic "boom" }
    | _ => { delay? := none, ending := .sample (.lookup 1) }

/-- The last of the five begins within two timeouts, and the cycle is over within three. -/
theorem uneasy_in_time :
    ∃ p' r t, (start uneasy 0).cycle 0 none takesAll = .ok (p', r) ∧
      r.begun[4]? = some (t, "e") ∧ t ≤ 20 ∧ r.endedAt ≤ 30 := by
  have loaded : (start uneasy 0).probing.load (start uneasy 0).loads =
      .ok ["a", "b", "c", "d", "e"] := rfl
  obtain ⟨-, p', r, ran, begun, ended⟩ :=
    admission_is_work_conserving loaded (by decide) (by decide) 0 takesAll
  obtain ⟨t, there, early⟩ := begun 4 "e" rfl
  exact ⟨p', r, t, ran, there, early, ended⟩

end Prober

end PingWatch
