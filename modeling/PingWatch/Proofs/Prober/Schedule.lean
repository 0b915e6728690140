import PingWatch.Proofs.Prober.Progress

/-!
# The schedule of a loop

A loop that is woken time after time keeps to its agenda up to its cancellation.

* `due`: the times that a watch sees, those up to its horizon and before the cancellation.
* `CameOut`: the three ways in which a watched loop comes out.  It is still going at the horizon, it
  has been cancelled, or a load has failed.
* `watch_cameOut`: every watch with enough fuel comes out in one of them.
* `loop_keeps_schedule`: what the loop has done by then, how it ended and when.
-/

namespace PingWatch

/-- Whether `t` is not past the horizon, and comes before the cancellation. -/
def due (cancelAt : Option Nat) (horizon t : Nat) : Bool := t ≤ horizon && cancelAt.all (t < ·)

theorem due_eq_true {cancelAt : Option Nat} {horizon t : Nat} :
    due cancelAt horizon t = true ↔ t ≤ horizon ∧ ∀ c, cancelAt = some c → t < c := by
  cases cancelAt <;> simp [due]

/-- The checks among what a loop has done, each with its time. -/
def begunIn (past : List (Nat × Doing)) : List (Nat × String) :=
  past.filterMap fun
    | (t, .checks target) => some (t, target)
    | (_, .sets _) => none

/-- The settings among what a loop has done. -/
def settingsIn (past : List (Nat × Doing)) : List Setting :=
  past.filterMap fun
    | (_, .sets s) => some s
    | (_, .checks _) => none

theorem Probing.pause_pos {p : Probing} (accepted : p.settings.refused? = none) : 0 < p.pause := by
  have lasts := (ProberSettings.refused?_eq_none.mp accepted).1
  unfold pause Duration.millisUp
  apply Nat.div_pos
  · simp only [Duration.perMilli]
    omega
  · decide

namespace Prober

/-! ## Watching -/

section Watch

variable {q : Prober} {cancelAt : Option Nat} {horizon now : Nat} {seen : List (Nat × Doing)}

theorem watch_of_ended (h : q.nextTime? = none) (fuel : Nat) :
    q.watch cancelAt horizon now seen fuel = (q, now, seen) := by
  cases fuel with
  | zero => rfl
  | succ fuel =>
    have asleep : q.wakeTime? cancelAt = none := by
      unfold wakeTime?
      rw [h]
    unfold watch
    rw [asleep]

/-- A loop that has something to do is woken at that time, or by its cancellation before. -/
theorem wakeTime?_eq {t : Nat} (h : q.nextTime? = some t) (cancelAt : Option Nat) :
    ∃ w, q.wakeTime? cancelAt = some w ∧ w ≤ t ∧ (∀ c, cancelAt = some c → w ≤ c) ∧
      (cancelAt.any (· ≤ w) = true ∧ cancelAt = some w ∨
        cancelAt.any (· ≤ w) = false ∧ w = t ∧ ∀ c, cancelAt = some c → w < c) := by
  unfold wakeTime?
  rw [h]
  cases cancelAt with
  | none => exact ⟨t, rfl, Nat.le_refl t, by simp, .inr ⟨rfl, rfl, by simp⟩⟩
  | some c =>
    refine ⟨min t c, rfl, Nat.min_le_left t c, ?_, ?_⟩
    · rintro _ ⟨⟩
      exact Nat.min_le_right t c
    · by_cases early : c ≤ t
      · have first : min t c = c := Nat.min_eq_right early
        rw [first]
        exact .inl ⟨by simp, rfl⟩
      · have first : min t c = t := Nat.min_eq_left (by omega)
        rw [first]
        refine .inr ⟨by simpa using early, rfl, ?_⟩
        rintro _ ⟨⟩
        omega

theorem watch_of_wake {w fuel : Nat} (h : q.wakeTime? cancelAt = some w) :
    q.watch cancelAt horizon now seen (fuel + 1) =
      if horizon < w then (q, horizon, seen)
      else (q.turn w (cancelAt.any (· ≤ w))).1.watch cancelAt horizon w
        (((q.turn w (cancelAt.any (· ≤ w))).2.map (w, ·)).reverse ++ seen) fuel := by
  rw [watch, h]

/-- A loop that is to be woken has not ended. -/
theorem goes_of_nextTime? {t : Nat} (h : q.nextTime? = some t) : q.state.goes = true := by
  unfold nextTime? at h
  unfold LoopState.goes
  split at h <;> simp_all

end Watch

/-- The ways in which a loop comes out that is watched up to `horizon`, having done `past`. -/
inductive CameOut (p : Probing) (cancelAt : Option Nat) (horizon : Nat) (past : List (Nat × Doing)) :
    Prober → Nat → Prop
  /-- It is still going at the horizon. -/
  | going {q : Prober} {t : Nat} (done : p.UpTo (horizon + 1) q past) (next : q.nextTime? = some t)
    (uncancelled : ∀ c, cancelAt = some c → horizon < c) :
    CameOut p cancelAt horizon past q horizon
  /-- It has been cancelled before. -/
  | cancelled {q : Prober} {t c : Nat} {samples : Samples} (done : p.UpTo c q past)
    (next : q.nextTime? = some t) (cut : cancelAt = some c) (early : c ≤ horizon) :
    CameOut p cancelAt horizon past { q with samples, state := .stopped } c
  /-- A load has failed before. -/
  | failed {q : Prober} {k t : Nat} {cause : Cause} (done : p.UpTo (t + 1) q past)
    (begins : p.beginsAt? k = some t) (failed : p.load k = .error cause)
    (first : due cancelAt horizon t = true) : CameOut p cancelAt horizon past q t

/-- A loop that is broken past `t` and was not at `t` has failed to load at `t`. -/
theorem failed_of_broken {p : Probing} {q q' : Prober} {past past' : List (Nat × Doing)} {t : Nat}
    (before : p.UpTo t q past) (next : q.nextTime? = some t) (after : p.UpTo (t + 1) q' past')
    (ended : q'.nextTime? = none) :
    ∃ k cause, p.beginsAt? k = some t ∧ p.load k = .error cause := by
  cases after with
  | pausing begins later flushed => exact absurd ended (by simp [nextTime?])
  | @cycling k u targets samples begins loaded begun going flushed =>
    have next' := (Cycle.nextTime?_of_going ((Probing.going_iff begun).mpr going)).1
    have ended : ((p.opening k u targets).advanceBefore (some (t + 1))).nextTime? = none := ended
    rw [next'] at ended
    exact absurd ended (by simp)
  | @broken k u cause samples begins failed begun flushed =>
    refine ⟨k, cause, ?_, failed⟩
    by_cases early : u < t
    · have broken := before.broken_of_failed begins early failed
      unfold nextTime? at next
      rw [broken] at next
      exact absurd next (by simp)
    · rw [begins, Option.some_inj]
      omega

/-- A watch with fuel for every millisecond up to the horizon comes out in one of the three ways. -/
theorem watch_cameOut {p : Probing} (pauses : 0 < p.pause)
    (permits : p.settings.concurrency ≤ mostPermits) {cancelAt : Option Nat} {horizon l t : Nat}
    {q : Prober} {seen : List (Nat × Doing)} (done : p.UpTo l q seen.reverse)
    (next : q.nextTime? = some t) (hl : l ≤ horizon + 1)
    (uncancelled : ∀ c, cancelAt = some c → l ≤ c) (now : Nat) {fuel : Nat}
    (enough : horizon + 2 ≤ l + fuel) :
    ∃ q' now' seen', q.watch cancelAt horizon now seen fuel = (q', now', seen') ∧
      CameOut p cancelAt horizon seen'.reverse q' now' := by
  -- every wake-up takes the limit of `UpTo` at least one millisecond on
  induction fuel generalizing l t now q seen with
  | zero => omega
  | succ fuel ih =>
    obtain ⟨w, wakes, soon, first, cases⟩ := wakeTime?_eq next cancelAt
    have waits : ∀ {l'}, l ≤ l' → l' ≤ t → p.UpTo l' q seen.reverse := by
      intro l' hl' later
      apply done.wait hl'
      intro u hu
      rw [next, Option.some_inj] at hu
      omega
    have later : l ≤ w := by
      rcases done.nextTime? with ⟨u, hu, hl⟩ | ⟨none, -⟩
      · rw [next, Option.some_inj] at hu
        rcases cases with ⟨-, cut⟩ | ⟨-, rfl, -⟩
        · exact uncancelled w cut
        · omega
      · exact absurd (next.symm.trans none) (by simp)
    rw [watch_of_wake wakes]
    by_cases late : horizon < w
    · rw [if_pos late]
      refine ⟨q, horizon, seen, rfl, .going (waits hl (by omega)) next ?_⟩
      intro c hc
      have := first c hc
      omega
    · rw [if_neg late]
      rcases cases with ⟨cancelled, cut⟩ | ⟨going, rfl, before⟩
      · obtain ⟨samples, stops⟩ := turn_of_cancelled (goes_of_nextTime? next) w
        rw [cancelled, stops, watch_of_ended rfl]
        exact ⟨_, _, _, rfl, .cancelled (waits later soon) next cut (by omega)⟩
      · have here := waits later soon
        have turned := here.turn pauses permits next
        have seen_eq : (((q.turn w false).2.map (w, ·)).reverse ++ seen).reverse =
            seen.reverse ++ (q.turn w false).2.map (w, ·) := by
          rw [List.reverse_append, List.reverse_reverse]
        rw [going]
        rw [← seen_eq] at turned
        cases ended : (q.turn w false).1.nextTime? with
        | none =>
          obtain ⟨k, cause, begins, failed⟩ := failed_of_broken here next turned ended
          rw [watch_of_ended ended]
          refine ⟨_, _, _, rfl, .failed turned begins failed ?_⟩
          exact due_eq_true.mpr ⟨by omega, before⟩
        | some u => exact ih turned ended (by omega) before w (by omega)

/-! ## How the loop came out -/

/-- All that can be seen of a loop that was watched until it was `q`, having done `seen`. -/
def outcome (q : Prober) (seen : List (Nat × Doing)) (result : LoopResult) (endedAt : Nat) :
    LoopRun :=
  { result, endedAt, begun := begunIn seen.reverse, samples := q.samples
    settings := settingsIn seen.reverse }

theorem run_eq {p : Probing} {cancelAt : Option Nat} {horizon now : Nat} {q : Prober}
    {seen : List (Nat × Doing)}
    (watched : (start p 0).watch cancelAt horizon 0 [] (2 * horizon + 4) = (q, now, seen)) :
    run p cancelAt horizon =
      match q.state with
      | .broken (.fault f) => .error f
      | .broken (.load cause) => .ok (q.outcome seen (.failed cause) now)
      | .stopped => .ok (q.outcome seen .ended now)
      | .pausing _ | .cycling _ => .ok (q.outcome seen .unfinished horizon) := by
  unfold run
  rw [watched]
  rfl

section CameOut

variable {p : Probing} {cancelAt : Option Nat} {horizon now : Nat} {past : List (Nat × Doing)}
  {q : Prober}

/-- Whichever way it came out, the loop has done all that was due. -/
theorem CameOut.upTo (h : CameOut p cancelAt horizon past q now) :
    ∃ q₀ l, p.UpTo l q₀ past ∧ q₀.loads = q.loads ∧ l ≤ horizon + 1 ∧
      ∀ t, due cancelAt horizon t = true ↔ t < l := by
  cases h with
  | going done next uncancelled =>
    refine ⟨q, horizon + 1, done, rfl, Nat.le_refl _, fun t => ?_⟩
    rw [due_eq_true]
    constructor
    · intro h
      omega
    · intro h
      refine ⟨by omega, fun c hc => ?_⟩
      have := uncancelled c hc
      omega
  | @cancelled q t c samples done next cut early =>
    refine ⟨q, now, done, rfl, by omega, fun t => ?_⟩
    rw [due_eq_true, cut]
    constructor
    · intro h
      exact h.2 now rfl
    · intro h
      refine ⟨by omega, ?_⟩
      rintro _ ⟨⟩
      exact h
  | @failed q k t cause done begins failed first =>
    obtain ⟨early, before⟩ := due_eq_true.mp first
    have broken := done.broken_of_failed begins (Nat.lt_succ_self _) failed
    have ended : ∀ u, q.nextTime? = some u → False := by
      intro u hu
      unfold nextTime? at hu
      rw [broken] at hu
      exact absurd hu (by simp)
    -- a broken loop has nothing left to do, so the limit is as far as the watch could see
    have onward : ∀ {l}, now < l → p.UpTo l q past :=
      fun hl => done.wait hl (fun u hu => (ended u hu).elim)
    cases cancelAt with
    | none =>
      refine ⟨q, horizon + 1, onward (by omega), rfl, Nat.le_refl _, fun t => ?_⟩
      rw [due_eq_true, Nat.lt_succ_iff]
      simp
    | some c =>
      have := before c rfl
      refine ⟨q, min c (horizon + 1), onward (by omega), rfl, Nat.min_le_right _ _, fun t => ?_⟩
      simp only [due_eq_true, Option.some.injEq, forall_eq']
      omega

/-- What the run shows of its end. -/
theorem CameOut.run_eq {seen : List (Nat × Doing)} (h : CameOut p cancelAt horizon past q now)
    (watched : (start p 0).watch cancelAt horizon 0 [] (2 * horizon + 4) = (q, now, seen)) :
    ∃ result endedAt, run p cancelAt horizon = .ok (q.outcome seen result endedAt) ∧
      (∀ t f, result = .failed f ∧ endedAt = t ↔
        ∃ k cause, p.beginsAt? k = some t ∧ due cancelAt horizon t = true ∧
          p.load k = .error cause ∧ f = p.loadFailure cause) ∧
      ∀ c, result = .ended ∧ endedAt = c ↔
        cancelAt = some c ∧ c ≤ horizon ∧
          ∀ k t, p.beginsAt? k = some t → t < c → ∃ targets, p.load k = .ok targets := by
  rw [Prober.run_eq watched]
  cases h with
  | @going q u done next uncancelled =>
    have state : (match q.state with
        | .broken (.fault f) => Except.error f
        | .broken (.load cause) => .ok (q.outcome seen (.failed cause) horizon)
        | .stopped => .ok (q.outcome seen .ended horizon)
        | .pausing _ | .cycling _ => .ok (q.outcome seen .unfinished horizon)) =
        .ok (q.outcome seen .unfinished horizon) := by
      unfold nextTime? at next
      split <;> simp_all
    refine ⟨.unfinished, horizon, state, fun t f => ?_, fun c => ?_⟩
    · constructor
      · rintro ⟨⟨⟩, -⟩
      · rintro ⟨k, cause, begins, first, failed, rfl⟩
        have early := (due_eq_true.mp first).1
        obtain ⟨targets, loaded⟩ := done.loaded next begins (Nat.lt_succ_of_le early)
        exact absurd (failed.symm.trans loaded) (by simp)
    · constructor
      · rintro ⟨⟨⟩, -⟩
      · rintro ⟨cut, early, -⟩
        have := uncancelled c cut
        omega
  | @cancelled q u c samples done next cut early =>
    refine ⟨.ended, now, rfl, fun t f => ?_, fun c => ?_⟩
    · constructor
      · rintro ⟨⟨⟩, -⟩
      · rintro ⟨k, cause, begins, first, failed, rfl⟩
        have before := (due_eq_true.mp first).2 now cut
        obtain ⟨targets, loaded⟩ := done.loaded next begins before
        exact absurd (failed.symm.trans loaded) (by simp)
    · constructor
      · rintro ⟨-, rfl⟩
        exact ⟨cut, early, fun k t begins before => done.loaded next begins before⟩
      · rintro ⟨cut', -, -⟩
        exact ⟨rfl, Option.some.inj (cut.symm.trans cut')⟩
  | @failed q k t cause done begins failed first =>
    have broken := done.broken_of_failed begins (Nat.lt_succ_self _) failed
    refine ⟨.failed (p.loadFailure cause), now, by rw [broken], fun t f => ?_, fun c => ?_⟩
    · constructor
      · rintro ⟨⟨⟩, rfl⟩
        exact ⟨k, cause, begins, first, failed, rfl⟩
      · rintro ⟨j, cause', begins', -, failed', rfl⟩
        obtain rfl := Probing.eq_of_failed begins failed begins' failed'
        obtain rfl := Except.error.inj (failed.symm.trans failed')
        exact ⟨rfl, Option.some.inj (begins.symm.trans begins')⟩
    · constructor
      · rintro ⟨⟨⟩, -⟩
      · rintro ⟨cut, -, loaded⟩
        have before := (due_eq_true.mp first).2 c cut
        obtain ⟨targets, loaded⟩ := loaded k now begins before
        exact absurd (failed.symm.trans loaded) (by simp)

end CameOut

/-- **The schedule of a loop.**  The first cycle begins at once, and every other one interval after
the flush of the one before, which comes as soon as its last check has ended.  Watched up to any
horizon, the loop has done exactly what its agenda lists up to the horizon and before the
cancellation: it has begun no other cycle and no other check, and has set nothing else.  It has
failed exactly if a load that comes before the cancellation fails, at that time and with that load's
error, and it has ended well exactly if it was cancelled and no load before the cancellation
failed. -/
theorem loop_keeps_schedule {p : Probing} (accepted : p.settings.refused? = none)
    (permits : p.settings.concurrency ≤ mostPermits) (cancelAt : Option Nat) (horizon : Nat) :
    (p.beginsAt? 0 = some 0 ∧ ∀ k t targets, p.beginsAt? k = some t → p.load k = .ok targets →
      p.InTurn k t targets) ∧
    ∃ q now seen r, (start p 0).watch cancelAt horizon 0 [] (2 * horizon + 4) = (q, now, seen) ∧
      run p cancelAt horizon = .ok r ∧
      r.begun = begunIn seen.reverse ∧ r.settings = settingsIn seen.reverse ∧
      (∀ n, horizon < n →
        seen.reverse = (p.agenda n).filter fun e => due cancelAt horizon e.1) ∧
      (∀ k, k < q.loads ↔ ∃ t, p.beginsAt? k = some t ∧ due cancelAt horizon t = true) ∧
      (∀ t f, r.result = .failed f ∧ r.endedAt = t ↔
        ∃ k cause, p.beginsAt? k = some t ∧ due cancelAt horizon t = true ∧
          p.load k = .error cause ∧
          f = cause.under s!"Failed to load {p.scope.probe} targets") ∧
      ∀ c, r.result = .ended ∧ r.endedAt = c ↔
        cancelAt = some c ∧ c ≤ horizon ∧
          ∀ k t, p.beginsAt? k = some t → t < c → ∃ targets, p.load k = .ok targets := by
  have slots := (ProberSettings.refused?_eq_none.mp accepted).2.2
  have pauses := Probing.pause_pos accepted
  have enough : horizon + 2 ≤ 0 + (2 * horizon + 4) := by omega
  have fresh : p.UpTo 0 (start p 0) ([] : List (Nat × Doing)).reverse := .start p
  obtain ⟨q, now, seen, watched, came⟩ := watch_cameOut pauses permits fresh rfl (Nat.zero_le _)
    (fun c (_ : cancelAt = some c) => Nat.zero_le c) 0 enough
  obtain ⟨result, endedAt, ran, failed, ended⟩ := came.run_eq watched
  obtain ⟨q₀, l, done, loads, hl, due_iff⟩ := came.upTo
  refine ⟨⟨rfl, fun k t targets => Probing.inTurn slots⟩, q, now, seen, _, watched, ran, rfl, rfl,
    fun n hn => ?_, fun k => ?_, failed, ended⟩
  · have few := done.loads_le pauses
    rw [done.past_eq slots (show q₀.loads ≤ n by omega)]
    apply List.filter_congr
    intro e _
    rw [Bool.eq_iff_iff, decide_eq_true_eq, due_iff]
  · rw [← loads, done.lt_loads_iff]
    simp only [due_iff]

/-- Lookups of three milliseconds, one at a time and every five milliseconds.  The third load
fails. -/
def fading : Probing where
  scope := ⟨"dns", "here"⟩
  kind := .lookup
  settings := { interval := .ofMillis 5, concurrency := 1 }
  load
    | 2 => .error (.ofText "no such file")
    | _ => .ok ["a", "b"]
  check _ _ _ := { delay? := some 3, ending := .sample (.lookup 1) }

/-- Its cycles take six milliseconds, so that the third begins after twenty-two and fails; cancelled
before, the loop ends well. -/
theorem fading_fails :
    fading.beginsAt? 1 = some 11 ∧ fading.beginsAt? 2 = some 22 ∧
      (∃ r, run fading none 30 = .ok r ∧ r.endedAt = 22 ∧
        r.result = .failed ((Cause.ofText "no such file").under "Failed to load dns targets")) ∧
      ∃ r, run fading (some 20) 30 = .ok r ∧ r.endedAt = 20 ∧ r.result = .ended := by
  have second : fading.beginsAt? 1 = some 11 := by decide +kernel
  have third : fading.beginsAt? 2 = some 22 := by decide +kernel
  obtain ⟨-, q, now, seen, r, -, ran, -, -, -, -, failed, -⟩ :=
    loop_keeps_schedule (p := fading) (by decide) (by decide) none 30
  obtain ⟨-, q', now', seen', r', -, ran', -, -, -, -, -, ended⟩ :=
    loop_keeps_schedule (p := fading) (by decide) (by decide) (some 20) 30
  have fails := (failed 22 _).mpr ⟨2, .ofText "no such file", third, rfl, rfl, rfl⟩
  have ends := (ended 20).mpr ⟨rfl, by decide, ?_⟩
  · exact ⟨second, third, ⟨r, ran, fails.2, fails.1⟩, r', ran', ends.2, ends.1⟩
  · intro k t begins early
    have few : k < 2 := by
      refine Nat.not_le.mp fun hk => ?_
      have := Probing.beginsAt?_mono third hk begins
      omega
    match k, few with
    | 0, _ => exact ⟨_, rfl⟩
    | 1, _ => exact ⟨_, rfl⟩

end Prober

end PingWatch
