import PingWatch.Proofs.Supervisor.Life
import PingWatch.Proofs.Supervisor.Moves
import PingWatch.Proofs.Supervisor.Return

/-!
# Shutdown

Every way out leads through one wait for the bodies to end, and nobody is on it who has not been
cancelled (`Closing`).  Bodies may schedule others up to their very end, so that the wait is for a
moment at which nobody is left.

* `cancelled_by`: who cancels.  The supervisor does so by itself only when it looks for work and
  finds none.
* `returns_over_no_work`: it never returns over running bodies.
-/

namespace PingWatch

namespace Run

/-- The supervisor is done with starting and looking only when it has been cancelled, and returns
only when nobody is left. -/
structure Closing (r : Run) : Prop where
  cancelled : ¬r.Active → r.books.cancelled = true
  done : r.phase = .returned → r.books.unfinished = 0

theorem Step.cancelled {r r' : Run} (s : Step r r') (h : r.books.cancelled = true) :
    r'.books.cancelled = true :=
  s.changes.keep Change.cancelled h

theorem Closing.step {r r' : Run} (h : Closing r) (heeded : Heeded r)
    (going : r.hasReturned = false) (s : Step r r') : Closing r' := by
  have open_ : r.phase ≠ .returned := by
    intro hp
    simp [hasReturned, hp] at going
  rcases s.beside_or_move with beside | move
  · have same := beside.phase
    refine ⟨fun off => s.cancelled (h.cancelled ?_), fun hp => absurd (same.symm.trans hp) open_⟩
    unfold Active at off ⊢
    rwa [same] at off
  · cases move with
    | leaves active cancelled => exact ⟨fun _ => cancelled, fun hp => absurd hp (by simp)⟩
    | heeds | closes =>
      refine ⟨fun _ => ?_, fun hp => absurd hp (by simp)⟩
      show (r.book r.books.cancel).books.cancelled = true
      rw [book_books]
      rfl
    | looksOn | goesOn =>
      exact ⟨fun off => absurd ⟨by simp, by simp⟩ off, fun hp => absurd hp (by simp)⟩
    | starts =>
      refine ⟨fun off => absurd ⟨?_, ?_⟩ off, fun hp => absurd hp ?_⟩ <;>
        · dsimp only
          split <;> simp
    | givesUp at_ uncancelled refused =>
      refine ⟨fun _ => ?_, fun hp => absurd hp (by simp)⟩
      have first : r.books.latched = none := heeded.latched_eq_none uncancelled
      show (r.enlist _).2.books.cancelled = true
      rw [books_of_refused refused, Supervisor.cancelled_failed, first]
      simp
    | returns at_ idle =>
      exact ⟨fun _ => h.cancelled fun active => active.1 at_, fun _ => idle⟩

/-- No schedule of a run that listens breaks this. -/
theorem Closing.of_reaches {r₀ r : Run} (prepared : Lives false r₀) (listeners : List Listener)
    (cancelAt : Option Nat) (reached : Reaches (r₀.listen listeners cancelAt) r) : Closing r := by
  have lives : Lives true (r₀.listen listeners cancelAt) :=
    prepared.next (.listens listeners cancelAt r₀)
  induction reached with
  | refl =>
    have starting : (r₀.listen listeners cancelAt).phase = .starting 0 listeners := listen_phase ..
    exact ⟨fun off => absurd ⟨by simp [starting], by simp [starting]⟩ off,
      fun hp => absurd hp (by simp [starting])⟩
  | next before going s ih => exact ih.step (lives.reaches before).heeded going s

theorem phase_of_hasReturned {r : Run} (h : r.hasReturned = true) : r.phase = .returned := by
  unfold hasReturned at h
  split at h
  · assumption
  · exact absurd h (by simp)

/-! ## Who cancels -/

/-- What cancelled a run between `r` and `r'`. -/
inductive CancelledBy (r r' : Run) : Prop
  /-- The first failure of the run. -/
  | failure (before : r.books.latched = none) (after : r'.books.latched ≠ none)
  /-- A body that does so on purpose, at its turn. -/
  | body {id : Nat} {t : Task} {rest : List Action} (turn : id ∈ r.queue)
    (found : r.tasks[id]? = some t) (work : t.work = .script (.cancel :: rest))
  | parent {u t : Nat} (due : r.cancelAt = some u) (past : u ≤ t) (passes : r' = r.passTo t)
  | signal (arrived : r.signalled = true) (moves : r.move? = some r')
  /-- The supervisor, which looks for work when every body has ended. -/
  | noWork (looks : r.Looks) (idle : r.running = 0) (moves : r.move? = some r')

theorem passTo_cancels {r : Run} {t : Nat} (before : r.books.cancelled = false)
    (after : (r.passTo t).books.cancelled = true) : ∃ u, r.cancelAt = some u ∧ u ≤ t := by
  unfold passTo at after
  dsimp only at after
  split at after
  · next h =>
    have due : r.cancelAt.any (· ≤ t) = true := h
    cases hu : r.cancelAt with
    | none => exact absurd (hu ▸ due) (by simp)
    | some u => exact ⟨u, rfl, by rw [hu] at due; simpa using due⟩
  · exact absurd (before.symm.trans after) (by simp)

theorem cancelled_by {r r' : Run} (sound : Sound r) (heeded : Heeded r) (s : Step r r')
    (before : r.books.cancelled = false) (after : r'.books.cancelled = true) :
    CancelledBy r r' := by
  have first : r.books.latched = none := heeded.latched_eq_none before
  have same : ∀ {b : Bool}, b = r.books.cancelled → b = true → False := by
    intro b hb ht
    rw [ht, before] at hb
    exact absurd hb (by simp)
  cases s with
  | @turn id h =>
    rcases (favour_stepTask_turn id r).cancels before after with fails | ⟨t, rest, found, work⟩
    · exact .failure first fails
    · exact .body h found work
  | signal h => exact (same rfl after).elim
  | pass t =>
    obtain ⟨u, due, past⟩ := passTo_cancels before after
    exact .parent due past rfl
  | move moves =>
    cases move?_move moves with
    | leaves active cancelled => exact (same rfl cancelled).elim
    | heeds active signalled => exact .signal signalled moves
    | closes looks uncancelled idle => exact .noWork looks (sound.running_eq.trans idle) moves
    | looksOn | goesOn | returns => exact (same rfl after).elim
    | starts at_ uncancelled admitted =>
      obtain ⟨books, -, kept, he⟩ := enlist_eq_of_admitted admitted
      rw [he] at after
      exact (same kept after).elim
    | givesUp at_ uncancelled refused =>
      refine .failure first ?_
      show (r.enlist _).2.books.latched ≠ none
      rw [books_of_refused refused]
      exact Supervisor.latched_failed_ne_none _ _

/-! ## The return -/

/-- **The supervisor returns over no running body.**  Take any run prepared in any way, any
listeners, any bodies scheduled by them at any time, even while others end after the cancellation,
and any schedule.  When the supervisor returns, it is cancelled and everybody who was ever admitted
has ended; once it is cancelled it does return; and unless a failure, a body, the parent or a signal
cancels it, it does so itself, at a look for work that finds everybody ended. -/
theorem returns_over_no_work {r₀ r : Run} (prepared : Lives false r₀) (listeners : List Listener)
    (cancelAt : Option Nat) (reached : Reaches (r₀.listen listeners cancelAt) r) :
    (r.hasReturned = true → r.books.cancelled = true ∧
      (∀ t ∈ r.tasks, ∃ ending, t.stage = .ended ending) ∧
      List.Forall₂ Origin.Names r.roster (r.tasks.map (·.label))) ∧
    (r.books.cancelled = true → ∃ n, (step^[n] r).hasReturned = true) ∧
    (∀ r', Step r r' → r.books.cancelled = false → r'.books.cancelled = true →
      CancelledBy r r') := by
  have lives : Lives true r := (prepared.next (.listens listeners cancelAt r₀)).reaches reached
  have closing := Closing.of_reaches prepared listeners cancelAt reached
  refine ⟨fun returned => ?_, fun cancelled => ?_, fun r' s => cancelled_by lives.sound lives.heeded s⟩
  · have at_ := phase_of_hasReturned returned
    have nobody : r.running = 0 := lives.sound.running_eq.trans (closing.done at_)
    exact ⟨closing.cancelled fun active => active.2 at_, ended_of_running nobody,
      lives.enrolled.roster⟩
  · obtain ⟨n, -, returned⟩ := returns lives.sound cancelled
    exact ⟨n, returned⟩

/-- A listener that schedules a sub-task once it is cancelled, and one that cancels. -/
def shift : List Listener :=
  [.script "worker" [.wait, .schedule "cleanup" [.sleep 30] false, .sleep 10] false,
    .script "stopper" [.sleep 5, .cancel] false]

/-- A single listener that has ended, as the supervisor is about to look for work again. -/
def lull : Run := (idle.complete [.script "worker" [.sleep 5] false] none 999).passTo 1000

/-- The clean-up that was scheduled after the cancellation is waited for, and over the lull the
supervisor cancels by itself. -/
theorem shift_is_over :
    (idle.complete shift none 5000).books.cancelled = true ∧
      (∀ t ∈ (idle.complete shift none 5000).tasks, ∃ ending, t.stage = .ended ending) ∧
      (idle.complete shift none 5000).roster =
        [.listener 0, .listener 1, .subtask "cleanup"] ∧
      ∃ r', lull.move? = some r' ∧ r'.books.cancelled = true ∧ CancelledBy lull r' := by
  have result := returns_over_no_work Lives.idle shift none (complete_reaches shift none 5000 idle)
  obtain ⟨cancelled, ended, -⟩ := result.1 (by rfl)
  have reached : Reaches (idle.listen [.script "worker" [.sleep 5] false] none) lull :=
    .next (complete_reaches _ none 999 idle) (by rfl) (.pass 1000)
  have quiet := (returns_over_no_work Lives.idle _ none reached).2.2
  have at_ : lull.phase = .steady 1000 := by rfl
  have books : lull.books = {} := by rfl
  have signalled : lull.signalled = false := by rfl
  have due : 1000 ≤ lull.now := Nat.le_max_right _ _
  have moves : lull.move? = some { lull.book lull.books.cancel with phase := .draining } := by
    simp [move?, at_, books, signalled, due]
  have after : (lull.book lull.books.cancel).books.cancelled = true := by
    rw [book_books]
    rfl
  exact ⟨cancelled, ended, by rfl, _, moves, after, quiet _ (.move moves) (by rw [books]) after⟩

end Run

end PingWatch
