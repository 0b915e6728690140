import PingWatch.Proofs.Cycle.FanOut

/-!
# Cycles and limits

A loop does not run its cycles in one go but brings them up to one wake-up after the other.  What a
cycle has done before a limit does not depend on the wake-ups on the way.

* `advance_advance`: limits on the way to a later one make no difference.
* `advance_of_later`, `le_nextTime_advance`: a cycle stands still up to its next move, and that move
  is not before the limit that it was brought up to.
* `start_begun_before`: what it has begun before a limit is what it begins before it in the end.
-/

namespace PingWatch

namespace Cycle

/-! ## The next move -/

theorem nextTime?_eq_none {c : Cycle} : c.nextTime? = none ↔ c.finished = true := by
  unfold nextTime? finished
  simp

theorem nextTime?_of_going {c : Cycle} (h : c.finished = false) :
    c.nextTime? = some c.step.now ∧ c.now ≤ c.step.now := by
  rcases step_cases c with hf | ⟨m, -, -, later, time⟩
  · exact absurd (h.symm.trans hf) Bool.false_ne_true
  · exact ⟨time, later⟩

theorem going_of_nextTime? {c : Cycle} {t : Nat} (h : c.nextTime? = some t) :
    c.finished = false ∧ t = c.step.now := by
  have going : c.finished = false := by
    cases hf : c.finished with
    | false => rfl
    | true =>
      rw [nextTime?_eq_none.mpr hf] at h
      exact absurd h (by simp)
  have time := (nextTime?_of_going going).1
  exact ⟨going, Option.some.inj (h.symm.trans time)⟩

theorem stepBefore_of_early {l : Nat} {c : Cycle} (going : c.finished = false)
    (early : c.step.now < l) : c.stepBefore (some l) = c.step := by
  unfold stepBefore
  rw [(nextTime?_of_going going).1]
  exact if_pos early

/-- A step begins a check at its own time, or none. -/
theorem step_begun (c : Cycle) :
    c.step.begun = c.begun ∨ ∃ target, c.step.begun = (c.step.now, target) :: c.begun := by
  rcases step_cases c with h | ⟨m, -, step, -, -⟩
  · exact .inl (congrArg Cycle.begun (step_of_finished h))
  · rw [step]
    cases m with
    | begin j rest =>
      obtain ⟨s, f, u, e⟩ := perform_begin c j rest
      rw [e]
      exact .inr ⟨j.target, rfl⟩
    | fill =>
      obtain ⟨s, f, u, e⟩ := perform_fill c
      rw [e]
      exact .inl rfl
    | land f =>
      obtain ⟨s, n, u, e⟩ := perform_land c f
      rw [e]
      exact .inl rfl

/-! ## Limits -/

/-- Up to its next move a cycle stands still. -/
theorem advance_of_later {l : Nat} {c : Cycle} (h : ∀ t, c.nextTime? = some t → l ≤ t) :
    c.advanceBefore (some l) = c := by
  refine advance_keep (P := fun d => d = c) ?_ rfl
  rintro d rfl
  rcases stepBefore_cases (some l) d with stuck | ⟨going, -, before⟩
  · exact stuck
  · have late := h _ (nextTime?_of_going going).1
    exact absurd (before l rfl) (Nat.not_lt.mpr late)

/-- The next move of a cycle that is brought up to a limit is not before the limit. -/
theorem le_nextTime_advance {l t : Nat} {c : Cycle}
    (h : (c.advanceBefore (some l)).nextTime? = some t) : l ≤ t := by
  obtain ⟨going, rfl⟩ := going_of_nextTime? h
  refine Nat.not_lt.mp fun early => ?_
  have stuck := advance_stuck (some l) c
  rw [stepBefore_of_early going early] at stuck
  have less := step_work_lt going
  rw [stuck] at less
  exact absurd less (Nat.lt_irrefl _)

/-- A limit on the way to a later one makes no difference. -/
theorem advance_advance {l l' : Nat} (h : l ≤ l') (c : Cycle) :
    (c.advanceBefore (some l)).advanceBefore (some l') = c.advanceBefore (some l') := by
  -- on the way to the first limit, where the cycle gets to by the second one never changes
  refine advance_keep (P := fun d => d.advanceBefore (some l') = c.advanceBefore (some l')) ?_ rfl
  intro d hd
  rcases stepBefore_cases (some l) d with stuck | ⟨going, step, before⟩
  · rw [stuck, hd]
  · have early : d.step.now < l' := Nat.lt_of_lt_of_le (before l rfl) h
    rw [step, ← stepBefore_of_early going early, advance_stepBefore, hd]

theorem advance_now_lt {l : Nat} {c : Cycle} (h : c.now < l) :
    (c.advanceBefore (some l)).now < l := by
  refine advance_keep (P := fun d => d.now < l) ?_ h
  intro d hd
  rcases stepBefore_cases (some l) d with stuck | ⟨-, step, before⟩
  · rw [stuck]
    exact hd
  · rw [step]
    exact before l rfl

/-- What a cycle begins from here on, it begins at its next move or later. -/
theorem advance_begun {l : Nat} {c : Cycle} (h : ∀ t, c.nextTime? = some t → l ≤ t)
    (limit : Option Nat) :
    ∃ new, (c.advanceBefore limit).begun = new ++ c.begun ∧ ∀ e ∈ new, l ≤ e.1 := by
  -- the next move is carried along, for it is the time of the next check
  suffices ∃ new, (c.advanceBefore limit).begun = new ++ c.begun ∧ (∀ e ∈ new, l ≤ e.1) ∧
      ∀ t, (c.advanceBefore limit).nextTime? = some t → l ≤ t by
    obtain ⟨new, begun, late, -⟩ := this
    exact ⟨new, begun, late⟩
  refine advance_keep (P := fun d => ∃ new, d.begun = new ++ c.begun ∧ (∀ e ∈ new, l ≤ e.1) ∧
    ∀ t, d.nextTime? = some t → l ≤ t) ?_ ⟨[], rfl, by simp, h⟩
  rintro d ⟨new, begun, late, next⟩
  rcases stepBefore_cases limit d with stuck | ⟨going, step, -⟩
  · rw [stuck]
    exact ⟨new, begun, late, next⟩
  · have now : l ≤ d.step.now := next _ (nextTime?_of_going going).1
    have next' : ∀ t, d.step.nextTime? = some t → l ≤ t := by
      intro t ht
      obtain ⟨-, rfl⟩ := going_of_nextTime? ht
      exact Nat.le_trans now (step_now_le d.step)
    rw [step]
    rcases step_begun d with same | ⟨target, added⟩
    · exact ⟨new, same.trans begun, late, next'⟩
    · refine ⟨(d.step.now, target) :: new, ?_, ?_, next'⟩
      · rw [added, begun, List.cons_append]
      · exact List.forall_mem_cons.mpr ⟨now, late⟩

/-! ## From the start -/

section Start

variable {kind : Kind} {slots timeout t₀ : Nat} {jobs : List Job}

/-- The checks of a cycle that is stopped before a limit have begun before it. -/
theorem begun_before {l : Nat} {e : Nat × String}
    (he : e ∈ ((start kind slots timeout t₀ jobs).advanceBefore (some l)).begun) : e.1 < l := by
  -- a cycle that starts behind the limit is not before it, but then it has begun nothing
  have early : ((start kind slots timeout t₀ jobs).advanceBefore (some l)).begun = [] ∨
      ((start kind slots timeout t₀ jobs).advanceBefore (some l)).now < l := by
    refine advance_keep (P := fun c => c.begun = [] ∨ c.now < l) ?_ (.inl rfl)
    intro c h
    rcases stepBefore_cases (some l) c with stuck | ⟨-, step, before⟩
    · rw [stuck]
      exact h
    · rw [step]
      exact .inr (before l rfl)
  have orderly := (advance_reaches (some l) (start kind slots timeout t₀ jobs)).orderly
  rcases early with nothing | before
  · rw [nothing] at he
    exact absurd he List.not_mem_nil
  · exact Nat.lt_of_le_of_lt (orderly.line.past e he).2 before

/-- What a cycle has begun before a limit is what it begins before it in the end. -/
theorem start_begun_before (l : Nat) :
    ((start kind slots timeout t₀ jobs).advanceBefore none).begun.filter (·.1 < l) =
      ((start kind slots timeout t₀ jobs).advanceBefore (some l)).begun := by
  obtain ⟨new, begun, late⟩ := advance_begun (l := l)
    (c := (start kind slots timeout t₀ jobs).advanceBefore (some l))
    (fun t ht => le_nextTime_advance ht) none
  rw [advance_none_advance] at begun
  have dropped : new.filter (·.1 < l) = [] := by
    refine List.filter_eq_nil_iff.mpr fun e he => ?_
    simpa using late e he
  have kept : ((start kind slots timeout t₀ jobs).advanceBefore (some l)).begun.filter (·.1 < l) =
      ((start kind slots timeout t₀ jobs).advanceBefore (some l)).begun :=
    List.filter_eq_self.mpr fun e he => decide_eq_true (begun_before he)
  rw [begun, List.filter_append, dropped, kept, List.nil_append]

end Start

end Cycle

end PingWatch
