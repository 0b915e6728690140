import PingWatch.Proofs.Supervisor.Schedule

/-!
# Books and bodies

What the operations on a run leave as it was, and what they record: `enlist` and `finish` in the
books of the supervisor, `book`, `change` and `wake` in the bodies.  `AtTurn` says that a body is at
its turn, and `endings` reads off the bodies how those that ended did.
-/

namespace PingWatch

namespace Task

theorem ending?_congr {t t' : Task} (h : t'.stage = t.stage) : t'.ending? = t.ending? := by
  unfold ending?
  rw [h]

theorem ending?_eq_none_of_alarm {t : Task} {u : Nat} (h : t.alarm?.any (· ≤ u) = true) :
    t.ending? = none := by
  unfold alarm? at h
  unfold ending?
  split at h <;> simp_all

end Task

namespace Supervisor

/-! ## What the books record -/

/-- An admission takes a permit, if there are permits, and counts one body more. -/
theorem enlist_admitted {s s' : Supervisor} (h : s.enlist = (.admitted, s')) :
    s'.latched = s.latched ∧ s'.cancelled = s.cancelled ∧ s'.unfinished = s.unfinished + 1 ∧
      ((s.permits = none ∧ s'.permits = none) ∨ ∃ capacity free,
        s.permits = some ⟨capacity, free + 1⟩ ∧ s'.permits = some ⟨capacity, free⟩) := by
  unfold enlist at h
  split at h
  · next hp =>
    obtain ⟨-, rfl⟩ := Prod.mk.inj h
    exact ⟨rfl, rfl, rfl, .inl ⟨hp, hp⟩⟩
  · exact absurd (congrArg Prod.fst h) (by simp)
  · next capacity free hp =>
    obtain ⟨-, rfl⟩ := Prod.mk.inj h
    exact ⟨rfl, rfl, rfl, .inr ⟨capacity, free, hp, rfl⟩⟩

/-- A refusal finds all permits taken, and is latched as a failure. -/
theorem enlist_refused {s s' : Supervisor} {n : Nat} (h : s.enlist = (.refused n, s')) :
    s.permits = some ⟨n, 0⟩ ∧ s' = s.failed (.tooManyTasks n) := by
  unfold enlist at h
  split at h
  · exact absurd (congrArg Prod.fst h) (by simp)
  · next capacity hp =>
    obtain ⟨hv, rfl⟩ := Prod.mk.inj h
    cases hv
    exact ⟨hp, rfl⟩
  · exact absurd (congrArg Prod.fst h) (by simp)

theorem latched_failed (f : Failure) (s : Supervisor) :
    (s.failed f).latched = s.latched.or (some f) := by
  unfold failed
  cases h : s.latched with
  | none => rfl
  | some g => simpa using h

theorem latched_failed_ne_none (f : Failure) (s : Supervisor) : (s.failed f).latched ≠ none := by
  rw [latched_failed]
  cases s.latched <;> simp

theorem cancelled_failed (f : Failure) (s : Supervisor) :
    (s.failed f).cancelled = (s.cancelled || s.latched.isNone) := by
  unfold failed
  cases h : s.latched with
  | none => simp
  | some g => simp

@[simp] theorem permits_failed (f : Failure) (s : Supervisor) :
    (s.failed f).permits = s.permits := by
  unfold failed
  split <;> rfl

@[simp] theorem unfinished_failed (f : Failure) (s : Supervisor) :
    (s.failed f).unfinished = s.unfinished := by
  unfold failed
  split <;> rfl

theorem finish_failed (f : Failure) (s : Supervisor) :
    (s.finish (.failed f)).latched = (s.failed f).latched ∧
      (s.finish (.failed f)).cancelled = (s.failed f).cancelled :=
  ⟨rfl, rfl⟩

/-- The end of a body gives its permit and its place back. -/
theorem finish_counts (e : Ending) (s : Supervisor) :
    (s.finish e).unfinished = s.unfinished - 1 ∧
      (s.finish e).permits = s.permits.map fun p => { p with free := p.free + 1 } := by
  cases e with
  | well => exact ⟨rfl, rfl⟩
  | failed f => simp [finish]

end Supervisor

namespace Run

/-! ## Frames -/

@[simp] theorem book_books (b : Supervisor) (r : Run) : (r.book b).books = b := by
  unfold book
  dsimp only
  split <;> rfl

@[simp] theorem book_trace (b : Supervisor) (r : Run) : (r.book b).trace = r.trace := by
  unfold book
  dsimp only
  split <;> rfl

@[simp] theorem book_phase (b : Supervisor) (r : Run) : (r.book b).phase = r.phase := by
  unfold book
  dsimp only
  split <;> rfl

@[simp] theorem book_now (b : Supervisor) (r : Run) : (r.book b).now = r.now := by
  unfold book
  dsimp only
  split <;> rfl

/-- Books that cancel nothing wake nobody. -/
theorem book_of_cancelled_eq {b : Supervisor} {r : Run} (h : b.cancelled = r.books.cancelled) :
    r.book b = { r with books := b } := by
  unfold book
  dsimp only
  rw [h]
  cases r.books.cancelled <;> rfl

/-- Books that cancel wake those who wait for it. -/
theorem book_of_cancels {b : Supervisor} {r : Run} (hb : b.cancelled = true)
    (hr : r.books.cancelled = false) :
    r.book b = ({ r with books := b }).wake Task.endsOnCancel := by
  unfold book
  dsimp only
  rw [hb, hr]
  rfl

theorem enlist_eq_of_admitted {r : Run} {task : Task} (h : (r.enlist task).1 = .admitted) :
    ∃ books, r.books.enlist = (.admitted, books) ∧ books.cancelled = r.books.cancelled ∧
      (r.enlist task).2 = { r with
        books, tasks := r.tasks ++ [task], queue := r.queue ++ [r.tasks.length] } := by
  unfold Run.enlist at h ⊢
  split at h
  · next books hb =>
    have kept := (Supervisor.enlist_admitted hb).2.1
    refine ⟨books, hb, kept, ?_⟩
    rw [book_of_cancelled_eq kept]
  · exact absurd h (by simp)

theorem enlist_eq_of_refused {r : Run} {task : Task} {n : Nat}
    (h : (r.enlist task).1 = .refused n) :
    r.books.permits = some ⟨n, 0⟩ ∧
      (r.enlist task).2 = r.book (r.books.failed (.tooManyTasks n)) := by
  unfold Run.enlist at h ⊢
  split at h
  · exact absurd h (by simp)
  · next books hb =>
    obtain rfl : _ = n := by simpa using h
    obtain ⟨hp, rfl⟩ := Supervisor.enlist_refused hb
    exact ⟨hp, rfl⟩

theorem books_of_refused {r : Run} {task : Task} {n : Nat} (h : (r.enlist task).1 = .refused n) :
    (r.enlist task).2.books = r.books.failed (.tooManyTasks n) := by
  rw [(enlist_eq_of_refused h).2, book_books]

/-- Whether body `id` has the turn: it stands first in the queue, has begun and has not ended. -/
def AtTurn (id : Nat) (r : Run) : Prop :=
  r.queue.head? = some id ∧
    ∃ t, r.tasks[id]? = some t ∧ t.ending? = none ∧ t.begun = true

theorem AtTurn.congr {id : Nat} {r r' : Run} (h : r.AtTurn id) (hq : r'.queue = r.queue)
    (ht : r'.tasks = r.tasks) : r'.AtTurn id := by
  unfold AtTurn
  rw [hq, ht]
  exact h

theorem AtTurn.change {id j : Nat} {r : Run} {f : Task → Task} (h : r.AtTurn id)
    (hf : ∀ t, (f t).stage = t.stage) : (r.change j f).AtTurn id := by
  obtain ⟨hq, t, ht, he, hb⟩ := h
  by_cases hj : j = id
  · subst hj
    refine ⟨hq, f t, ?_, ?_, ?_⟩
    · simp [Run.change, ht]
    · simpa [Task.ending?, hf] using he
    · simpa [Task.begun, hf] using hb
  · exact ⟨hq, t, by simp [Run.change, hj, ht], he, hb⟩

theorem AtTurn.wake {id : Nat} {r : Run} {p : Task → Bool} (h : r.AtTurn id) :
    (r.wake p).AtTurn id := by
  obtain ⟨hq, t, ht, he, hb⟩ := h
  refine ⟨?_, _, by simp [Run.wake, ht]; rfl, ?_, ?_⟩
  · simp [Run.wake, List.head?_append, hq]
  · split
    · rfl
    · exact he
  · split
    · rfl
    · exact hb

theorem AtTurn.book {id : Nat} {r : Run} (h : r.AtTurn id) (b : Supervisor) :
    (r.book b).AtTurn id := by
  have h' : ({ r with books := b } : Run).AtTurn id := h
  unfold Run.book
  dsimp only
  split
  · exact h'.wake
  · exact h'

/-! ## How the bodies ended -/

/-- How the bodies ended that have ended. -/
def endings (r : Run) : List Ending := r.tasks.filterMap Task.ending?

theorem filterMap_modify_ended {ts : List Task} {id : Nat} {t : Task} {f : Task → Task}
    {e : Ending} (ht : ts[id]? = some t) (open_ : t.ending? = none) (hf : (f t).ending? = some e) :
    ((ts.modify id f).filterMap Task.ending?).Perm (e :: ts.filterMap Task.ending?) := by
  induction ts generalizing id with
  | nil => simp at ht
  | cons a ts ih =>
    cases id with
    | zero =>
      obtain rfl : a = t := by simpa using ht
      simp [hf, open_]
    | succ id =>
      have later : ts[id]? = some t := by simpa using ht
      have ih' := ih later
      rw [List.modify_succ_cons]
      cases ha : a.ending? with
      | none => simpa [List.filterMap_cons, ha] using ih'
      | some e' =>
        simp only [List.filterMap_cons, ha]
        exact (ih'.cons e').trans (.swap e e' _)

theorem filterMap_modify_same {ts : List Task} {id : Nat} {f : Task → Task}
    (h : ∀ t, ts[id]? = some t → (f t).ending? = t.ending?) :
    (ts.modify id f).filterMap Task.ending? = ts.filterMap Task.ending? := by
  induction ts generalizing id with
  | nil => simp
  | cons a ts ih =>
    cases id with
    | zero => simp [List.filterMap_cons, h a rfl]
    | succ id =>
      rw [List.modify_succ_cons]
      simp only [List.filterMap_cons]
      rw [ih fun t ht => h t (by simpa using ht)]

theorem endings_wake {p : Task → Bool} (hp : ∀ t, p t = true → t.ending? = none) (r : Run) :
    (r.wake p).endings = r.endings := by
  have same : (Task.ending? ∘ fun t => if p t = true then { t with stage := .running } else t) =
      Task.ending? := by
    funext t
    dsimp only [Function.comp]
    split
    · next h => rw [hp t h]; rfl
    · rfl
  unfold endings wake
  rw [List.filterMap_map, same]

theorem endings_book (b : Supervisor) (r : Run) : (r.book b).endings = r.endings := by
  unfold book
  dsimp only
  split
  · exact endings_wake (fun _ => Task.ending?_eq_none_of_endsOnCancel) _
  · rfl

theorem endings_ends {id : Nat} {r : Run} (turn : r.AtTurn id) (label : Option String)
    (ending : Ending) : (r.finish id label ending).endings.Perm (ending :: r.endings) := by
  obtain ⟨-, t, ht, open_, -⟩ := turn
  have ended := filterMap_modify_ended (e := ending)
    (f := fun t => { t with stage := .ended ending, awaited := false }) ht open_ rfl
  unfold Run.finish endTurn
  exact (List.Perm.of_eq (endings_book _ _)).trans ended

end Run

end PingWatch
