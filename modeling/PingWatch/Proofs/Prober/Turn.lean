import PingWatch.Proofs.Prober.OneCycle

/-!
# Wake-ups of a loop

`Prober.turn` is what a loop does when it is woken.  `Turned` says all that it can come to for a loop
that has not ended: the loop stops because it has been cancelled, it breaks because a load fails, or
it goes on.

* `advance_of_finished`, `advance_of_going`: a cycle that is brought up to the present is flushed if
  it is finished.
* `turn_of_cancelled`: a cancelled loop does nothing any more.
* `turn_of_unloaded`, `turn_of_loaded`: the end of a pause.
* `turned`: every wake-up is one of these.
-/

namespace PingWatch

/-- Whether the loop has not ended. -/
def LoopState.goes : LoopState → Bool
  | .pausing _ | .cycling _ => true
  | .stopped | .broken _ => false

namespace Prober

/-! ## Cycles at a wake-up -/

section Advance

variable {q : Prober} {now : Nat} {c : Cycle}

theorem advance_of_finished (h : (c.advanceBefore (some (now + 1))).finished = true) :
    q.advance now c =
      ({ q with samples := (c.advanceBefore (some (now + 1))).samples
                state := .pausing (now + q.interval) },
        newChecks c (c.advanceBefore (some (now + 1))) ++
          (gather takesAll { scope := q.probing.scope, kind := q.probing.kind
                             samples := (c.advanceBefore (some (now + 1))).samples }).map .sets) := by
  unfold advance
  dsimp only
  rw [if_pos h]
  rfl

theorem advance_of_going (h : (c.advanceBefore (some (now + 1))).finished = false) :
    q.advance now c =
      ({ q with samples := (c.advanceBefore (some (now + 1))).samples
                state := .cycling (c.advanceBefore (some (now + 1))) },
        newChecks c (c.advanceBefore (some (now + 1)))) := by
  unfold advance
  dsimp only
  rw [if_neg (Bool.eq_false_iff.mp h)]

/-- Bringing a cycle up to the present loads nothing and ends no loop. -/
theorem advance_goes (q : Prober) (now : Nat) (c : Cycle) :
    (q.advance now c).1.probing = q.probing ∧ (q.advance now c).1.loads = q.loads ∧
      (q.advance now c).1.state.goes = true := by
  cases h : (c.advanceBefore (some (now + 1))).finished with
  | true =>
    rw [advance_of_finished h]
    exact ⟨rfl, rfl, rfl⟩
  | false =>
    rw [advance_of_going h]
    exact ⟨rfl, rfl, rfl⟩

end Advance

/-! ## All that a wake-up can come to -/

/-- What becomes of a loop that is woken, and what it does; the flag tells whether it has been
cancelled. -/
inductive Turned (q : Prober) : Bool → Prober × List Doing → Prop
  /-- It has been cancelled, and ends without doing anything else. -/
  | stops {samples : Samples} : Turned q true ({ q with samples, state := .stopped }, [])
  /-- Its next load fails. -/
  | fails {cause : Cause} (failed : q.probing.load q.loads = .error cause) :
    Turned q false ({ q with loads := q.loads + 1
                             state := .broken (.load (q.probing.loadFailure cause)) }, [])
  /-- It goes on, and may have begun its next cycle. -/
  | goesOn {q' : Prober} {doings : List Doing} (same : q'.probing = q.probing)
    (goes : q'.state.goes = true)
    (loads : q'.loads = q.loads ∨
      q'.loads = q.loads + 1 ∧ ∃ targets, q.probing.load q.loads = .ok targets) :
    Turned q false (q', doings)

/-- A cancelled loop stops without doing anything else. -/
theorem turn_of_cancelled {q : Prober} (h : q.state.goes = true) (now : Nat) :
    ∃ samples, q.turn now true = ({ q with samples, state := .stopped }, []) := by
  obtain ⟨probing, loads, samples, state⟩ := q
  cases state with
  | pausing u => exact ⟨samples, rfl⟩
  | cycling c => exact ⟨(c.cutOff now).samples, rfl⟩
  | stopped => exact absurd h (by simp [LoopState.goes])
  | broken why => exact absurd h (by simp [LoopState.goes])

section Pausing

variable {p : Probing} {k u now : Nat} {samples : Samples}

/-- The pause is over, and the next load fails. -/
theorem turn_of_unloaded {cause : Cause} (due : u ≤ now) (failed : p.load k = .error cause) :
    turn { probing := p, loads := k, samples, state := .pausing u } now false =
      ({ probing := p, loads := k + 1, samples, state := .broken (.load (p.loadFailure cause)) },
        []) := by
  have fails : load { probing := p, loads := k, samples, state := .pausing u } now =
      .error (.load (p.loadFailure cause)) := by
    unfold load
    rw [failed]
  unfold turn beginCycle
  dsimp only
  rw [if_pos due, fails]

/-- The pause is over, and the next cycle begins. -/
theorem turn_of_loaded {targets : List String} (due : u ≤ now) (loaded : p.load k = .ok targets)
    (permits : p.settings.concurrency ≤ mostPermits) :
    turn { probing := p, loads := k, samples, state := .pausing u } now false =
      ({ probing := p, loads := k + 1, samples := (p.opening k now targets).samples
         state := .cycling (p.opening k now targets) } : Prober).advance now
        (p.opening k now targets) := by
  unfold turn beginCycle
  dsimp only
  rw [if_pos due, load_eq (p := { probing := p, loads := k, samples, state := .pausing u }) now
    loaded permits]

end Pausing

theorem turned {q : Prober} (h : q.state.goes = true)
    (permits : q.probing.settings.concurrency ≤ mostPermits) (now : Nat) (cancelled : Bool) :
    q.Turned cancelled (q.turn now cancelled) := by
  cases cancelled with
  | true =>
    obtain ⟨samples, stops⟩ := turn_of_cancelled h now
    rw [stops]
    exact .stops
  | false =>
    obtain ⟨probing, loads, samples, state⟩ := q
    cases state with
    | stopped => exact absurd h (by simp [LoopState.goes])
    | broken why => exact absurd h (by simp [LoopState.goes])
    | cycling c =>
      obtain ⟨same, loaded, goes⟩ :=
        advance_goes { probing, loads, samples, state := .cycling c } now c
      exact .goesOn same goes (.inl loaded)
    | pausing u =>
      by_cases due : u ≤ now
      · cases loaded : probing.load loads with
        | error cause =>
          rw [turn_of_unloaded due loaded]
          exact .fails loaded
        | ok targets =>
          rw [turn_of_loaded due loaded permits]
          obtain ⟨same, more, goes⟩ := advance_goes
            { probing, loads := loads + 1, samples := (probing.opening loads now targets).samples
              state := .cycling (probing.opening loads now targets) } now
            (probing.opening loads now targets)
          exact .goesOn same goes (.inr ⟨more, targets, loaded⟩)
      · have rests : turn { probing, loads, samples, state := .pausing u } now false =
            ({ probing, loads, samples, state := .pausing u }, []) := if_neg due
        rw [rests]
        exact .goesOn rfl rfl (.inl rfl)

end Prober

end PingWatch
