import PingWatch.Proofs.Supervisor.Return

/-!
# The first failure wins

The failures of a run are the failed ends of its bodies and its refused admissions; `firstFailure?`
reads the earliest off the history.

* `Latch`: the invariant of every run under every schedule.  The latched failure is the first of the
  history, it has cancelled the supervisor, and the ends in the history are those of the bodies.
* `first_failure_wins`: the supervisor returns that failure, and returns without one only if there
  was none.
-/

namespace PingWatch

namespace Run

/-- The earliest failure of the history. -/
def firstFailure? (r : Run) : Option Failure := r.history.findSome? (·.event.failure?)

/-- What the books have latched, and what the history knows of it. -/
structure Latch (r : Run) : Prop where
  first : r.books.latched = r.firstFailure?
  cancelled : r.books.latched ≠ none → r.books.cancelled = true
  endings : r.endings.Perm (r.history.filterMap (·.event.ending?))
  inOrder : r.history.Pairwise (·.time ≤ ·.time)
  past : ∀ e ∈ r.history, e.time ≤ r.now
  refusals : ∀ e ∈ r.history, ∀ n, e.event.refusal? = some n → r.books.limit = some n

theorem Reports.history {r r' : Run} {new : Option Entry} (h : Reports r r' new) :
    r'.history = r.history ++ new.toList := by
  unfold Run.history
  rw [h.trace, List.reverse_append]
  cases new <;> rfl

theorem findSome?_toList {α β : Type} (f : α → Option β) (a : Option α) :
    a.toList.findSome? f = a.bind f := by
  cases a with
  | none => rfl
  | some x => simp

theorem filterMap_toList {α β : Type} (f : α → Option β) (a : Option α) :
    a.toList.filterMap f = (a.bind f).toList := by
  cases a with
  | none => rfl
  | some x => cases h : f x <;> simp [h]

/-- What a change reports, it latches. -/
theorem Latch.reports {r r' : Run} {new : Option Entry} (h : Reports r r' new) (hr : Latch r) :
    Latch r' where
  first := by
    unfold firstFailure?
    rw [h.latched, h.history, List.findSome?_append, findSome?_toList, hr.first]
    rfl
  cancelled := by
    intro hl
    by_cases before : r.books.latched = none
    · exact h.cancels before hl
    · exact h.cancelled (hr.cancelled before)
  endings := by
    rw [h.history, List.filterMap_append, filterMap_toList]
    exact h.endings.trans ((List.perm_append_comm).trans (hr.endings.append_right _))
  inOrder := by
    rw [h.history, List.pairwise_append]
    refine ⟨hr.inOrder, by cases new <;> simp, ?_⟩
    intro a ha b hb
    rw [h.time b (by simpa using hb)]
    exact hr.past a ha
  past := by
    intro e he
    rw [h.history, List.mem_append] at he
    rcases he with he | he
    · exact Nat.le_trans (hr.past e he) h.now
    · rw [h.time e (by simpa using he)]
      exact h.now
  refusals := by
    intro e he n hn
    rw [h.limit]
    rw [h.history, List.mem_append] at he
    rcases he with he | he
    · exact hr.refusals e he n hn
    · exact h.refusal e (by simpa using he) n hn

theorem Latch.change {r r' : Run} (hc : Change r r') (h : Latch r) : Latch r' := by
  obtain ⟨_, reports⟩ := hc.reports
  exact h.reports reports

/-- A latched failure is never replaced. -/
theorem Change.latched {r r' : Run} {f : Failure} (hc : Change r r')
    (h : r.books.latched = some f) : r'.books.latched = some f := by
  obtain ⟨_, reports⟩ := hc.reports
  rw [reports.latched, h, Option.some_or]

theorem Change.limit {r r' : Run} {limit : Option Nat} (hc : Change r r')
    (h : r.books.limit = limit) : r'.books.limit = limit := by
  obtain ⟨_, reports⟩ := hc.reports
  rw [reports.limit, h]

/-! ## The start -/

/-- A supervisor with a limit and nothing to do yet. -/
theorem setLimit_fresh {limit : Option Nat} {books : Supervisor}
    (h : Supervisor.setLimit limit {} = .ok books) :
    books.latched = none ∧ books.cancelled = false ∧ books.unfinished = 0 ∧
      books.limit = limit := by
  unfold Supervisor.setLimit at h
  cases limit with
  | none =>
    cases h
    exact ⟨rfl, rfl, rfl, rfl⟩
  | some n =>
    simp only [ne_eq, not_true_eq_false, if_false] at h
    split at h
    · cases h
    · cases h
      exact ⟨rfl, rfl, rfl, rfl⟩

/-- The run of a supervisor with a limit, before its first step. -/
theorem listen_start {limit : Option Nat} {books : Supervisor}
    (h : Supervisor.setLimit limit {} = .ok books) (listeners : List Listener)
    (cancelAt : Option Nat) :
    let r := ({ idle with books } : Run).listen listeners cancelAt
    r.tasks = [] ∧ r.queue = [] ∧ r.trace = [] ∧ r.books.latched = none ∧
      r.books.unfinished = 0 ∧ r.books.limit = limit := by
  obtain ⟨latched, cancelled, unfinished, limits⟩ := setLimit_fresh h
  unfold listen
  dsimp only
  split
  · rw [book_of_cancels rfl cancelled]
    exact ⟨rfl, rfl, rfl, latched, unfinished, limits⟩
  · exact ⟨rfl, rfl, rfl, latched, unfinished, limits⟩

theorem latch_start {limit : Option Nat} {books : Supervisor}
    (h : Supervisor.setLimit limit {} = .ok books) (listeners : List Listener)
    (cancelAt : Option Nat) :
    Latch (({ idle with books } : Run).listen listeners cancelAt) := by
  obtain ⟨tasks, -, trace, latched, -, -⟩ := listen_start h listeners cancelAt
  have history : (({ idle with books } : Run).listen listeners cancelAt).history = [] := by
    unfold Run.history
    rw [trace, List.reverse_nil]
  refine ⟨?_, fun hl => absurd latched hl, ?_, ?_, ?_, ?_⟩
  · unfold firstFailure?
    rw [latched, history]
    rfl
  · unfold Run.endings
    rw [tasks, history]
    exact .refl _
  · rw [history]
    exact .nil
  · rw [history]
    simp
  · rw [history]
    simp

theorem sound_start {limit : Option Nat} {books : Supervisor}
    (h : Supervisor.setLimit limit {} = .ok books) (listeners : List Listener)
    (cancelAt : Option Nat) :
    Sound (({ idle with books } : Run).listen listeners cancelAt) := by
  obtain ⟨tasks, queue, -, -, unfinished, -⟩ := listen_start h listeners cancelAt
  refine ⟨?_, ?_, ?_⟩
  · rw [tasks, queue]
    exact ⟨by simp, .nil⟩
  · rw [tasks]
    exact fun t ht => absurd ht List.not_mem_nil
  · unfold Run.endings
    rw [unfinished, tasks]
    rfl

/-! ## What the supervisor returns -/

/-- A failure of the history is the failed end of a body or a refused admission. -/
theorem Latch.failed_iff {r : Run} (h : Latch r) :
    (∃ f, r.firstFailure? = some f) ↔
      (∃ t ∈ r.tasks, ∃ f, t.stage = .ended (.failed f)) ∨
      ∃ e ∈ r.history, ∃ n, r.books.limit = some n ∧ e.event.refusal? = some n := by
  have bodies : (∃ t ∈ r.tasks, ∃ f, t.stage = .ended (.failed f)) ↔
      ∃ e ∈ r.history, ∃ f, e.event.ending? = some (.failed f) := by
    have both : ∀ f, Ending.failed f ∈ r.endings ↔
        Ending.failed f ∈ r.history.filterMap (·.event.ending?) := fun f => h.endings.mem_iff
    constructor
    · rintro ⟨t, ht, f, hs⟩
      have hm := (both f).mp (List.mem_filterMap.mpr ⟨t, ht, by simp [Task.ending?, hs]⟩)
      obtain ⟨e, he, hf⟩ := List.mem_filterMap.mp hm
      exact ⟨e, he, f, hf⟩
    · rintro ⟨e, he, f, hf⟩
      have hm := (both f).mpr (List.mem_filterMap.mpr ⟨e, he, hf⟩)
      obtain ⟨t, ht, hs⟩ := List.mem_filterMap.mp hm
      refine ⟨t, ht, f, ?_⟩
      unfold Task.ending? at hs
      split at hs <;> simp_all
  rw [bodies]
  unfold firstFailure?
  constructor
  · rintro ⟨f, hf⟩
    obtain ⟨e, he, hef⟩ := List.exists_of_findSome?_eq_some hf
    rcases Event.failure?_cases hef with hend | ⟨n, hn⟩
    · exact .inl ⟨e, he, f, hend⟩
    · exact .inr ⟨e, he, n, h.refusals e he n hn, hn⟩
  · intro hfail
    obtain ⟨e, he, f, hf⟩ : ∃ e ∈ r.history, ∃ f, e.event.failure? = some f := by
      rcases hfail with ⟨e, he, f, hf⟩ | ⟨e, he, n, -, hn⟩
      · exact ⟨e, he, f, Event.failure?_of_ending? hf⟩
      · exact ⟨e, he, _, (Event.failure?_of_refusal? hn).1⟩
    refine Option.isSome_iff_exists.mp (List.findSome?_isSome_iff.mpr ⟨e, he, ?_⟩)
    rw [hf]
    rfl

/-- **The first failure wins.**  Take any limit, any listeners with any sub-tasks, and any schedule.
The latched failure is the earliest of the history, which is in the order of time; once latched it
stays, and the supervisor is cancelled from then on.  The supervisor returns it exactly if a body
failed or an admission was refused, and after a failure it does return. -/
theorem first_failure_wins {limit : Option Nat} {books : Supervisor}
    (limited : Supervisor.setLimit limit {} = .ok books) (listeners : List Listener)
    (cancelAt : Option Nat) {r : Run}
    (reached : Reaches (({ idle with books } : Run).listen listeners cancelAt) r) :
    (r.books.latched = r.firstFailure? ∧ r.history.Pairwise (·.time ≤ ·.time)) ∧
    (∀ f, r.books.latched = some f → ∀ r', Reaches r r' →
      r'.books.latched = some f ∧ r'.books.cancelled = true) ∧
    (r.hasReturned = true →
      r.result? = some (match r.firstFailure? with | some f => .error f | none => .ok ()) ∧
      ((∃ f, r.result? = some (.error f)) ↔
        (∃ t ∈ r.tasks, ∃ f, t.stage = .ended (.failed f)) ∨
        ∃ e ∈ r.history, ∃ n, limit = some n ∧ e.event.refusal? = some n)) ∧
    (∀ f, r.books.latched = some f → ∃ n, (step^[n] r).result? = some (.error f)) := by
  have changes := reached.changes
  have latch : Latch r := changes.keep Latch.change (latch_start limited listeners cancelAt)
  have sound : Sound r := changes.keep Sound.change (sound_start limited listeners cancelAt)
  have limits : r.books.limit = limit :=
    changes.keep Change.limit (listen_start limited listeners cancelAt).2.2.2.2.2
  have kept : ∀ {r' f}, Changes r r' → r.books.latched = some f →
      r'.books.latched = some f ∧ r'.books.cancelled = true := by
    intro r' f hc hf
    exact ⟨hc.keep Change.latched hf,
      hc.keep Change.cancelled (latch.cancelled (by rw [hf]; simp))⟩
  refine ⟨⟨latch.first, latch.inOrder⟩, ?_, ?_, ?_⟩
  · intro f hf r' hr'
    exact kept hr'.changes hf
  · intro returned
    have result : r.result? =
        some (match r.firstFailure? with | some f => .error f | none => .ok ()) := by
      unfold result?
      rw [if_pos returned, latch.first]
      cases r.firstFailure? <;> rfl
    refine ⟨result, ?_⟩
    have failed := latch.failed_iff
    rw [limits] at failed
    rw [← failed, result]
    cases r.firstFailure? <;> simp
  · intro f hf
    obtain ⟨n, -, returned⟩ := returns sound (latch.cancelled (by rw [hf]; simp))
    have later := kept (iterate_step_changes n r) hf
    refine ⟨n, ?_⟩
    unfold result?
    rw [if_pos returned, later.1]

/-- Two listeners that fail, the second once it is cancelled, and a sub-task that panics first. -/
def rivals : List Listener :=
  [.script "first" [.schedule "sub" [.sleep 5, .panic "boom"] false, .ready, .sleep 10,
      .fail (.caused (.ofText "late"))] true,
    .script "second" [.wait, .fail (.caused (.ofText "later"))] false]

/-- The rivals under a limit of three. -/
def contest : Run :=
  ({ idle with books := { permits := some ⟨3, 3⟩ } } : Run).complete rivals none 5000

/-- Of three failures the supervisor returns the one that came first. -/
theorem contest_returns_the_panic :
    Supervisor.setLimit (some 3) {} = .ok { permits := some ⟨3, 3⟩ } ∧
      Reaches (({ idle with books := { permits := some ⟨3, 3⟩ } } : Run).listen rivals none) contest ∧
      contest.books.latched = some .panicked ∧ contest.result? = some (.error .panicked) := by
  have reached : Reaches (({ idle with books := { permits := some ⟨3, 3⟩ } } : Run).listen rivals none)
      contest := complete_reaches rivals none 5000 _
  have limited : Supervisor.setLimit (some 3) {} = .ok { permits := some ⟨3, 3⟩ } := rfl
  have wins := first_failure_wins limited rivals none reached
  have first : contest.firstFailure? = some .panicked := by rfl
  have returned : contest.hasReturned = true := by rfl
  have result := (wins.2.2.1 returned).1
  rw [first] at result
  exact ⟨limited, reached, wins.1.1.trans first, result⟩

end Run

end PingWatch
