import PingWatch.Proofs.Supervisor.Life
import PingWatch.Proofs.Supervisor.Moves

/-!
# The ceiling on running bodies

The books do not count against the limit: they hand out permits and take them back.  `Balanced` is
why this comes to the same thing: the free permits and the unfinished bodies make up the pool, and a
new pool is only taken when there are no unfinished bodies.

`task_ceiling`: in every life of a run the limit bounds the bodies that run, admissions are refused
exactly at the limit, nobody who was refused ever runs, and the limit cannot be changed over running
bodies.
-/

namespace PingWatch

namespace Supervisor

/-- Free permits and unfinished bodies make up the pool. -/
def Balanced (s : Supervisor) : Prop :=
  ∀ p, s.permits = some p → p.free + s.unfinished = p.capacity

theorem Balanced.congr {s s' : Supervisor} (h : s.Balanced) (permits : s'.permits = s.permits)
    (unfinished : s'.unfinished = s.unfinished) : s'.Balanced := by
  unfold Balanced
  rw [permits, unfinished]
  exact h

theorem Balanced.enlist {s s' : Supervisor} (h : s.Balanced) (he : s.enlist = (.admitted, s')) :
    s'.Balanced := by
  obtain ⟨-, -, hu, ⟨-, none_⟩ | ⟨capacity, free, hp, hp'⟩⟩ := enlist_admitted he
  · intro p hp
    rw [none_] at hp
    exact absurd hp (by simp)
  · intro p hp''
    obtain rfl : Permits.mk capacity free = p := Option.some.inj (hp'.symm.trans hp'')
    have full := h _ hp
    dsimp only at full ⊢
    omega

/-- The end of a body gives back the permit of that body. -/
theorem Balanced.finish {s : Supervisor} (h : s.Balanced) (some_ : 0 < s.unfinished)
    (ending : Ending) : (s.finish ending).Balanced := by
  obtain ⟨hu, hp⟩ := finish_counts ending s
  intro p' hp'
  rw [hp, Option.map_eq_some_iff] at hp'
  obtain ⟨p, found, rfl⟩ := hp'
  have full := h p found
  rw [hu]
  dsimp only
  omega

/-- An admission is refused exactly if as many bodies are unfinished as the limit allows. -/
theorem Balanced.refused_iff {s : Supervisor} (h : s.Balanced) (n : Nat) :
    s.enlist.1 = .refused n ↔ s.limit = some n ∧ s.unfinished = n := by
  unfold Supervisor.enlist limit
  split
  · next hp => simp [hp]
  · next capacity hp =>
    have full := h _ hp
    simp only [Nat.zero_add] at full
    simp only [hp, Option.map_some, Verdict.refused.injEq, Option.some.injEq, full]
    exact ⟨fun hn => ⟨hn, hn⟩, fun hn => hn.1⟩
  · next capacity free hp =>
    have full := h _ hp
    dsimp only at full
    simp only [hp, Option.map_some, Option.some.injEq, reduceCtorEq, false_iff, not_and]
    omega

theorem Balanced.unfinished_le {s : Supervisor} (h : s.Balanced) {n : Nat}
    (limited : s.limit = some n) : s.unfinished ≤ n := by
  obtain ⟨p, hp, rfl⟩ := Option.map_eq_some_iff.mp limited
  have := h p hp
  omega

end Supervisor

namespace Run

/-! ## The balance of a run -/

/-- Every elementary change keeps the balance. -/
theorem Balanced.change {r r' : Run} (hc : Change r r') (sound : Sound r)
    (h : r.books.Balanced) : r'.books.Balanced := by
  cases hc with
  | aside books => rw [books]; exact h
  | notes | edits | begins | sleeps | skips | rings | favours => exact h
  | @ends id turn label ending =>
    have books : (r.finish id label ending).books = r.books.finish ending := by
      simp [Run.finish, endTurn, Run.change, log]
    obtain ⟨-, t, ht, open_, -⟩ := turn
    have some_ : 0 < r.books.unfinished := by
      rw [← sound.running_eq]
      exact List.countP_pos_iff.mpr ⟨t, List.mem_of_getElem? ht, by rw [open_]; rfl⟩
    rw [books]
    exact h.finish some_ ending
  | cancels =>
    rw [book_books]
    exact h.congr rfl rfl
  | admits fresh label attempt names hv =>
    obtain ⟨books, hb, -, he⟩ := enlist_eq_of_admitted hv
    rw [he]
    exact h.enlist hb
  | refuses label attempt hv =>
    show (r.enlist _).2.books.Balanced
    rw [books_of_refused hv]
    exact h.congr (Supervisor.permits_failed _ _) (Supervisor.unfinished_failed _ _)

theorem Balanced.setLimit {r : Run} (h : r.books.Balanced) (limit : Option Nat) :
    (r.setLimit limit).2.books.Balanced := by
  rcases setLimit_cases limit r with same | ⟨idle, new⟩
  · rw [same]
    exact h
  · rw [new]
    intro p hp
    obtain ⟨n, -, rfl⟩ := Option.map_eq_some_iff.mp hp
    dsimp only
    omega

theorem Lives.balanced {listening : Bool} {r : Run} (h : Lives listening r) :
    r.books.Balanced := by
  have both : Sound r ∧ r.books.Balanced := by
    refine h.keep (P := fun r => Sound r ∧ r.books.Balanced) ?_ ?_ ?_
    · exact ⟨Lives.idle.sound, fun p hp => absurd hp (by simp [Run.idle])⟩
    · exact fun limit _ hr => ⟨hr.1.setLimit limit, Balanced.setLimit hr.2 limit⟩
    · exact fun hc hr => ⟨hr.1.change hc, Balanced.change hc hr.1 hr.2⟩
  exact both.2

/-! ## Admissions -/

/-- The verdicts on several bodies whose admission is asked for at once. -/
def answers (r : Run) : List Task → List Verdict
  | [] => []
  | task :: tasks => (r.enlist task).1 :: (r.enlist task).2.answers tasks

theorem enlist_books (task : Task) (r : Run) : (r.enlist task).2.books = r.books.enlist.2 := by
  unfold Run.enlist
  split <;> next h => simp [h]

/-- Without a limit everybody is admitted. -/
theorem answers_of_unlimited {r : Run} (h : r.books.limit = none) (tasks : List Task) :
    r.answers tasks = List.replicate tasks.length .admitted := by
  induction tasks generalizing r with
  | nil => rfl
  | cons task tasks ih =>
    have none_ : r.books.permits = none := Option.map_eq_none_iff.mp h
    have first : (r.enlist task).1 = .admitted := by
      rw [enlist_verdict, Supervisor.enlist, none_]
    have rest : (r.enlist task).2.books.limit = none := by
      rw [enlist_books, Supervisor.enlist, none_]
      rfl
    rw [answers, first, ih rest]
    rfl

/-- Under a limit as many are admitted as the unfinished bodies leave room for. -/
theorem answers_of_limit {r : Run} (h : r.books.Balanced) {n : Nat}
    (limited : r.books.limit = some n) (tasks : List Task) :
    r.answers tasks = List.replicate (min (n - r.books.unfinished) tasks.length) .admitted ++
      List.replicate (tasks.length - (n - r.books.unfinished)) (.refused n) := by
  induction tasks generalizing r with
  | nil => simp [answers]
  | cons task tasks ih =>
    have bound := h.unfinished_le limited
    rw [answers]
    cases hv : (r.enlist task).1 with
    | refused m =>
      have verdict := hv
      rw [enlist_verdict, h.refused_iff] at verdict
      obtain ⟨hm, full⟩ := verdict
      obtain rfl : n = m := Option.some.inj (limited.symm.trans hm)
      have books := books_of_refused hv
      have later := ih (r := (r.enlist task).2)
      rw [books, Supervisor.unfinished_failed, full] at later
      rw [later (h.congr (Supervisor.permits_failed _ _) (Supervisor.unfinished_failed _ _))
        (by unfold Supervisor.limit; rw [Supervisor.permits_failed]; exact limited), full]
      simp [List.replicate_succ]
    | admitted =>
      obtain ⟨books, hb, -, he⟩ := enlist_eq_of_admitted hv
      obtain ⟨-, -, more, pool⟩ := Supervisor.enlist_admitted hb
      have free : r.books.unfinished < n := by
        refine Nat.lt_of_le_of_ne bound fun full => ?_
        have refused := (h.refused_iff n).mpr ⟨limited, full⟩
        rw [← enlist_verdict task, hv] at refused
        exact absurd refused (by simp)
      have limited' : books.limit = some n := by
        rcases pool with ⟨hp, hp'⟩ | ⟨c, f, hp, hp'⟩
        · exact absurd limited (by simp [Supervisor.limit, hp])
        · rw [← limited, Supervisor.limit, Supervisor.limit, hp, hp']
          rfl
      have later := ih (r := (r.enlist task).2)
      rw [he] at later
      dsimp only at later
      rw [he, later (h.enlist hb) limited', more]
      have split_ : min (n - r.books.unfinished) (tasks.length + 1) =
          min (n - (r.books.unfinished + 1)) tasks.length + 1 := by omega
      have rest : tasks.length + 1 - (n - r.books.unfinished) =
          tasks.length - (n - (r.books.unfinished + 1)) := by omega
      rw [List.length_cons, split_, rest, List.replicate_succ, List.cons_append]

/-- Whatever happens asks for one admission at most, and the books of that moment decide on it. -/
theorem Deed.attempts {b b' : Bool} {r r' : Run} (d : Deed (b, r) (b', r')) :
    r'.attempts = r.attempts ∨ ∃ o, r'.attempts = r.attempts ++ [(o, r.books.enlist.1)] := by
  have turned : ∀ {id : Nat} {r' : Run}, Turn id r r' → r'.attempts = r.attempts ∨
      ∃ o, r'.attempts = r.attempts ++ [(o, r.books.enlist.1)] := by
    intro id r' turn
    rcases turn.attempts with same | ⟨name, asked⟩
    · exact .inl same
    · exact .inr ⟨_, asked⟩
  cases d with
  | limits limit =>
    refine .inl (attempts_congr ?_)
    rcases setLimit_cases limit r with same | ⟨-, new⟩
    · rw [same]
    · rw [new]
  | listens listeners cancelAt => exact .inl (attempts_congr (listen_trace listeners cancelAt r))
  | schedules _ caller name steps =>
    exact .inr ⟨_, enlist_attempts { label := some name, work := .script steps } (some caller)
      (.scheduled name) (fun _ => rfl) r⟩
  | cancels => exact .inl (attempts_congr (book_trace _ r))
  | turns h => exact turned (favour_stepTask_turn _ r)
  | passes t => exact .inl (attempts_congr (passTo_trace t r))
  | steps s =>
    cases s with
    | turn h => exact turned (favour_stepTask_turn _ r)
    | move h =>
      rcases (move?_move h).attempts with same | ⟨index, l, left, -, asked⟩
      · exact .inl same
      · exact .inr ⟨_, asked⟩
    | signal h => exact .inl rfl
    | pass t => exact .inl (attempts_congr (passTo_trace t r))

/-! ## The ceiling -/

/-- What the limit is to a run. -/
structure Ceiling (listening : Bool) (r : Run) : Prop where
  /-- No more bodies run than the limit allows. -/
  bounded : ∀ n, r.books.limit = some n → r.running ≤ n
  /-- Whatever happens next asks for one admission at most, which is refused exactly if as many
  bodies run as the limit allows. -/
  judged : ∀ b' r', Deed (listening, r) (b', r') → r'.attempts = r.attempts ∨
    ∃ o v, r'.attempts = r.attempts ++ [(o, v)] ∧
      ∀ n, v = .refused n ↔ r.books.limit = some n ∧ r.running = n
  /-- What becomes of a run that has refused a body has nothing of that body in it. -/
  refused : ∀ task n, (r.enlist task).1 = .refused n →
    (r.enlist task).2 = r.book (r.books.failed (.tooManyTasks n))
  /-- The bodies are those that were admitted, in that order. -/
  enrolled : List.Forall₂ Origin.Names r.roster (r.tasks.map (·.label))
  /-- Nobody but them has started, and none of them twice. -/
  started : ∀ label, r.starts label ≤ r.tasks.countP (·.label = label)
  /-- There is room for as many more bodies as the limit exceeds those that run by: for all `n` when
  none runs. -/
  room : ∀ n, r.books.limit = some n → ∀ tasks : List Task,
    r.answers tasks = List.replicate (min (n - r.running) tasks.length) .admitted ++
      List.replicate (tasks.length - (n - r.running)) (.refused n)
  unlimited : r.books.limit = none → ∀ tasks : List Task,
    r.answers tasks = List.replicate tasks.length .admitted
  /-- Over running bodies a new limit is a fault, and the run stays as it is. -/
  fixed : r.running ≠ 0 → ∀ limit, r.setLimit limit = (some (.limitInUse r.running), r)
  /-- Otherwise a limit within bounds is taken. -/
  free : r.running = 0 → ∀ limit : Option Nat, (∀ n ∈ limit, n ≤ mostPermits) →
    (r.setLimit limit).1 = none ∧ (r.setLimit limit).2.books.limit = limit

theorem setLimit_of_running {r : Run} (h : r.books.unfinished ≠ 0) (limit : Option Nat) :
    r.setLimit limit = (some (.limitInUse r.books.unfinished), r) := by
  unfold setLimit Supervisor.setLimit
  rw [if_pos h]

theorem setLimit_of_idle {r : Run} (h : r.books.unfinished = 0) {limit : Option Nat}
    (small : ∀ n ∈ limit, n ≤ mostPermits) :
    (r.setLimit limit).1 = none ∧ (r.setLimit limit).2.books.limit = limit := by
  unfold setLimit Supervisor.setLimit
  rw [if_neg (by simp [h])]
  cases limit with
  | none => exact ⟨rfl, rfl⟩
  | some n =>
    dsimp only
    rw [if_neg (Nat.not_lt.mpr (small n rfl))]
    exact ⟨rfl, rfl⟩

/-- **The ceiling on running bodies.**  Take any life of a run: limits set and changed before it
listens, listeners started, sub-tasks scheduled by bodies and from outside, nested as they like, and
bodies ended in any way and order.  At every moment of it the limit is a `Ceiling`. -/
theorem task_ceiling {listening : Bool} {r : Run} (h : Lives listening r) :
    Ceiling listening r := by
  have balanced := h.balanced
  have running : r.running = r.books.unfinished := h.sound.running_eq
  refine
    { bounded := fun n limited => ?_
      judged := fun b' r' d => ?_
      refused := fun task n hv => (enlist_eq_of_refused hv).2
      enrolled := h.enrolled.roster
      started := h.enrolled.starts_le
      room := fun n limited tasks => ?_
      unlimited := fun none_ tasks => answers_of_unlimited none_ tasks
      fixed := fun some_ limit => ?_
      free := fun none_ limit small => setLimit_of_idle (running.symm.trans none_) small }
  · rw [running]
    exact balanced.unfinished_le limited
  · rcases d.attempts with same | ⟨o, asked⟩
    · exact .inl same
    · refine .inr ⟨o, _, asked, fun n => ?_⟩
      rw [running]
      exact balanced.refused_iff n
  · rw [running]
    exact answers_of_limit balanced limited tasks
  · rw [running] at some_ ⊢
    exact setLimit_of_running some_ limit

/-- A listener that schedules two sub-tasks, and a second listener. -/
def crowd : List Listener :=
  [.script "first" [.schedule "sub" [.sleep 100] false, .schedule "late" [.note "never"] false,
      .sleep 200] false,
    .script "second" [.sleep 100] false]

/-- The crowd under a limit of three, after a tenth of a second less one. -/
def crowded : Run := ((idle.setLimit (some 3)).2).complete crowd none 99

/-- Two listeners and a sub-task fill a limit of three; the second sub-task was refused and never
started, nobody else is admitted, and the limit cannot be lifted. -/
theorem crowded_is_full : Lives true crowded ∧ crowded.books.limit = some 3 ∧ crowded.running = 3 ∧
    crowded.answers [{ label := none, work := .script [] }] = [.refused 3] ∧
    crowded.starts (some "late") = 0 ∧ crowded.setLimit none = (some (.limitInUse 3), crowded) := by
  have lives : Lives true crowded :=
    ((Lives.idle.next (.limits (some 3) _)).next (.listens crowd none _)).reaches
      (complete_reaches crowd none 99 _)
  have limited : crowded.books.limit = some 3 := by rfl
  have running : crowded.running = 3 := by rfl
  have ceiling := task_ceiling lives
  have answers := ceiling.room 3 limited [{ label := none, work := .script [] }]
  have started := ceiling.started (some "late")
  have nobody : crowded.tasks.countP (·.label = some "late") = 0 := by rfl
  have fixed := ceiling.fixed (by rw [running]; decide) none
  rw [running] at answers fixed
  exact ⟨lives, limited, running, answers, by omega, fixed⟩

end Run

end PingWatch
