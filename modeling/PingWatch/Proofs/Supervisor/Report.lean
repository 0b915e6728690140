import PingWatch.Proofs.Supervisor.Change

/-!
# What a run reports

An elementary change adds at most one entry to the history.  `Reports` says what the books make of
it in the same moment: a failure is latched unless one was latched before, a latched failure cancels,
and a cancellation stays.
-/

namespace PingWatch

namespace Run

/-! ## What a change reports -/

/-- What a change from `r` to `r'` adds to the history, and what the books make of it. -/
structure Reports (r r' : Run) (new : Option Entry) : Prop where
  trace : r'.trace = new.toList ++ r.trace
  time : ∀ e ∈ new, e.time = r.now
  now : r.now ≤ r'.now
  latched : r'.books.latched = r.books.latched.or (new.bind (·.event.failure?))
  cancelled : r.books.cancelled = true → r'.books.cancelled = true
  cancels : r.books.latched = none → r'.books.latched ≠ none → r'.books.cancelled = true
  limit : r'.books.limit = r.books.limit
  refusal : ∀ e ∈ new, ∀ n, e.event.refusal? = some n → r.books.limit = some n
  endings : r'.endings.Perm ((new.bind (·.event.ending?)).toList ++ r.endings)

theorem Reports.of_same {r r' : Run} (trace : r'.trace = r.trace) (now : r.now ≤ r'.now)
    (books : r'.books = r.books) (endings : r'.endings = r.endings) : Reports r r' none where
  trace := trace
  time := by simp
  now := now
  latched := by simp [books]
  cancelled := by simp [books]
  cancels := by simp_all
  limit := by rw [books]
  refusal := by simp
  endings := by simp [endings]

/-- A quiet entry changes no books. -/
theorem reports_notes {r : Run} (label : Option String) {event : Event} (quiet : event.Quiet) :
    Reports r (r.log label event) (some { time := r.now, label, event }) where
  trace := rfl
  time := by simp
  now := Nat.le_refl _
  latched := by simp [log, quiet.failure?]
  cancelled := id
  cancels := fun h h' => absurd h h'
  limit := rfl
  refusal := by simp [quiet.2]
  endings := by simp [quiet.1, Run.endings, log]

/-- Of the run behind a change only clock, books, trace and ends are reported. -/
theorem Reports.of_endings {r r' r'' : Run} {new : Option Entry} (h : Reports r r' new)
    (trace : r''.trace = r'.trace) (now : r''.now = r'.now) (books : r''.books = r'.books)
    (endings : r''.endings = r'.endings) : Reports r r'' new where
  trace := trace.trans h.trace
  time := h.time
  now := now ▸ h.now
  latched := books ▸ h.latched
  cancelled := books ▸ h.cancelled
  cancels := books ▸ h.cancels
  limit := books ▸ h.limit
  refusal := h.refusal
  endings := endings ▸ h.endings

theorem limit_finish (e : Ending) (s : Supervisor) : (s.finish e).limit = s.limit := by
  unfold Supervisor.limit
  rw [(Supervisor.finish_counts e s).2, Option.map_map]
  rfl

/-- The end of a body is latched if it failed and nothing failed before. -/
theorem reports_ends {id : Nat} {r : Run} (turn : r.AtTurn id) (label : Option String)
    (ending : Ending) :
    Reports r (r.finish id label ending) (some { time := r.now, label, event := .ended ending }) where
  trace := by simp [Run.finish, endTurn, log, change]
  time := by simp
  now := by simp [Run.finish, endTurn, log, change]
  latched := by
    cases ending with
    | well => simp [Run.finish, endTurn, log, change, Event.failure?, Supervisor.finish]
    | failed f =>
      simp [Run.finish, endTurn, log, change, Event.failure?, Supervisor.finish,
        Supervisor.latched_failed]
  cancelled := by
    cases ending with
    | well => simp [Run.finish, endTurn, log, change, Supervisor.finish]
    | failed f =>
      intro h
      simp [Run.finish, endTurn, log, change, Supervisor.finish, Supervisor.cancelled_failed, h]
  cancels := by
    cases ending with
    | well => simp_all [Run.finish, endTurn, log, change, Supervisor.finish]
    | failed f =>
      intro h _
      simp [Run.finish, endTurn, log, change, Supervisor.finish, Supervisor.cancelled_failed, h]
  limit := by simp [Run.finish, endTurn, log, change, limit_finish]
  refusal := by simp [Event.refusal?]
  endings := by simpa [Event.ending?] using endings_ends turn label ending

/-- A refusal is latched if nothing failed before. -/
theorem reports_refuses {r : Run} {task : Task} {n : Nat} (label : Option String) {event : Event}
    (refusal : event.refusal? = some n) (h : (r.enlist task).1 = .refused n) :
    Reports r ((r.enlist task).2.log label event) (some { time := r.now, label, event }) := by
  obtain ⟨hp, he⟩ := enlist_eq_of_refused h
  obtain ⟨fails, unended⟩ := Event.failure?_of_refusal? refusal
  rw [he]
  exact
    { trace := by simp [log]
      time := by simp
      now := by simp [log]
      latched := by simp [log, Supervisor.latched_failed, fails]
      cancelled := by
        intro hc
        simp [log, Supervisor.cancelled_failed, hc]
      cancels := by
        intro hl _
        simp [log, Supervisor.cancelled_failed, hl]
      limit := by simp [log, Supervisor.limit]
      refusal := by
        intro e hm m hr
        obtain rfl : _ = e := by simpa using hm
        obtain rfl : n = m := by simpa [refusal] using hr
        simp [Supervisor.limit, hp]
      endings := by
        simp only [Option.bind_some, unended, Option.toList_none, List.nil_append]
        exact .of_eq (endings_book (r.books.failed (.tooManyTasks n)) r) }

/-- Every elementary change reports what it latches. -/
theorem Change.reports {r r' : Run} (h : Change r r') : ∃ new, Reports r r' new := by
  cases h with
  | aside books tasks queue trace now =>
    exact ⟨none, .of_same trace now books (by unfold Run.endings; rw [tasks])⟩
  | notes label passing => exact ⟨_, reports_notes label (Event.passing_spec passing).1⟩
  | edits id kept named =>
    refine ⟨none, .of_same rfl (Nat.le_refl _) rfl ?_⟩
    exact filterMap_modify_same fun t _ => Task.ending?_congr (kept t)
  | @begins id t found fresh =>
    refine ⟨_, (reports_notes t.label ⟨rfl, rfl⟩).of_endings rfl rfl rfl ?_⟩
    refine filterMap_modify_same fun t' ht' => ?_
    obtain rfl := Option.some.inj (found.symm.trans ht')
    simp [Task.ending?, fresh]
  | sleeps turn until_ endsOnCancel wakes ahead =>
    refine ⟨none, .of_same rfl (Nat.le_refl _) rfl ?_⟩
    refine filterMap_modify_same fun t ht => ?_
    obtain ⟨-, t', ht', open_, -⟩ := turn
    obtain rfl := Option.some.inj (ht'.symm.trans ht)
    rw [open_]
    rfl
  | ends turn label ending => exact ⟨_, reports_ends turn label ending⟩
  | skips h => exact ⟨none, .of_same rfl (Nat.le_refl _) rfl rfl⟩
  | cancels =>
    exact ⟨none,
      { trace := by simp
        time := by simp
        now := by simp
        latched := by simp [Supervisor.cancel]
        cancelled := by simp [Supervisor.cancel]
        cancels := by simp [Supervisor.cancel]
        limit := by simp [Supervisor.cancel, Supervisor.limit]
        refusal := by simp
        endings := by simp [endings_book] }⟩
  | @admits task fresh label event o attempt names h =>
    have quiet : event.Quiet := (Event.quiet_of_admitted attempt).1
    obtain ⟨books, hb, -, he⟩ := enlist_eq_of_admitted h
    obtain ⟨hl, hc, -, hp⟩ := Supervisor.enlist_admitted hb
    rw [he]
    refine ⟨some { time := r.now, label, event }, ?_⟩
    exact
      { trace := rfl
        time := by simp
        now := Nat.le_refl _
        latched := by simp [log, hl, quiet.failure?]
        cancelled := by simp [log, hc]
        cancels := by
          intro h h'
          exact absurd (hl.trans h) h'
        limit := by
          rcases hp with ⟨h, h'⟩ | ⟨c, f, h, h'⟩ <;> simp [log, Supervisor.limit, h, h']
        refusal := by simp [quiet.2]
        endings := by simp [log, Run.endings, quiet.1, Task.ending?, fresh] }
  | refuses label attempt h =>
    exact ⟨_, reports_refuses label (Event.refusal?_of_attempt? attempt).1 h⟩
  | rings t =>
    refine ⟨none, .of_same rfl (Nat.le_refl _) rfl ?_⟩
    exact endings_wake (fun _ => Task.ending?_eq_none_of_alarm) r
  | favours h => exact ⟨none, .of_same rfl (Nat.le_refl _) rfl rfl⟩

/-- Nothing undoes a cancellation. -/
theorem Change.cancelled {r r' : Run} (h : Change r r') (cancelled : r.books.cancelled = true) :
    r'.books.cancelled = true := by
  obtain ⟨_, reports⟩ := h.reports
  exact reports.cancelled cancelled

end Run

end PingWatch
