import PingWatch.Proofs.Supervisor.Queue
import PingWatch.Proofs.Supervisor.Roster

/-!
# Turns, seen by the supervisor

Of what a body does at its turn the supervisor sees little: it may ask for an admission, cease to be
waited for, or cancel (`Turn`).  Where the supervisor stands is no business of a body.  `Frame` says
that a run has changed in none of these respects.

`stepTask_turn`: every turn of every body is a `Turn`.
-/

namespace PingWatch

namespace Run

/-- Body `id` ceases to be waited for between `r` and `r'`: it says that it is ready, drops what it
was to say so with as its loop begins, or ends. -/
def Frees (id : Nat) (r r' : Run) : Prop :=
  ∃ t, r.tasks[id]? = some t ∧ t.begun = true ∧
    ((∃ rest, t.work = .script (.ready :: rest)) ∨ (∃ p, t.work = .probing p) ∨
      ∃ t' ending, r'.tasks[id]? = some t' ∧ t'.stage = .ended ending)

/-- The supervisor sees no difference. -/
structure Frame (r r' : Run) : Prop where
  phase : r'.phase = r.phase
  attempts : r'.attempts = r.attempts
  awaits : ∀ id, r'.awaits id = r.awaits id
  cancelled : r'.books.cancelled = r.books.cancelled

/-- What the supervisor sees of a turn of body `id`. -/
structure Turn (id : Nat) (r r' : Run) : Prop where
  phase : r'.phase = r.phase
  attempts : r'.attempts = r.attempts ∨
    ∃ name, r'.attempts = r.attempts ++ [(.subtask name, r.books.enlist.1)]
  awaits : ∀ j, r'.awaits j = r.awaits j ∨ (j = id ∧ r'.awaits j = false ∧ Frees id r r')
  /-- Who cancels has failed, was refused with others, or does so on purpose. -/
  cancels : r.books.cancelled = false → r'.books.cancelled = true → r'.books.latched ≠ none ∨
    ∃ t rest, r.tasks[id]? = some t ∧ t.work = .script (.cancel :: rest)

/-! ## Who is waited for -/

theorem awaits_congr {r r' : Run} (h : r'.tasks.map (·.awaited) = r.tasks.map (·.awaited))
    (id : Nat) : r'.awaits id = r.awaits id := by
  have same := congrArg (·[id]?) h
  simp only [List.getElem?_map] at same
  unfold awaits
  cases hr : r.tasks[id]? <;> cases hr' : r'.tasks[id]? <;> simp_all

theorem awaits_change_of_ne {r : Run} {id j : Nat} {f : Task → Task} (h : j ≠ id) :
    (r.change id f).awaits j = r.awaits j := by
  simp [awaits, change, Ne.symm h]

theorem awaits_change_self {r : Run} {id : Nat} {f : Task → Task}
    (hf : ∀ t, (f t).awaited = false) : (r.change id f).awaits id = false := by
  unfold awaits change
  simp only [List.getElem?_modify_eq]
  cases r.tasks[id]? <;> simp [hf]

theorem awaits_concat {r : Run} {task : Task} (h : task.awaited = false) (queue : List Nat)
    (books : Supervisor) (id : Nat) :
    ({ r with books, tasks := r.tasks ++ [task], queue } : Run).awaits id = r.awaits id := by
  unfold awaits
  dsimp only
  rcases Nat.lt_trichotomy id r.tasks.length with hlt | rfl | hgt
  · rw [List.getElem?_append_left hlt]
  · simp [h]
  · rw [List.getElem?_eq_none (Nat.le_of_lt hgt), List.getElem?_eq_none (by simp; omega)]

theorem awaited_wake (p : Task → Bool) (r : Run) :
    (r.wake p).tasks.map (·.awaited) = r.tasks.map (·.awaited) := by
  show (r.tasks.map _).map Task.awaited = _
  rw [List.map_map]
  refine List.map_congr_left fun t _ => ?_
  dsimp only [Function.comp]
  split <;> rfl

theorem awaited_book (b : Supervisor) (r : Run) :
    (r.book b).tasks.map (·.awaited) = r.tasks.map (·.awaited) := by
  unfold book
  dsimp only
  split
  · exact awaited_wake _ _
  · rfl

/-- New books wake nobody who has ended. -/
theorem getElem?_book_of_ended {r : Run} {id : Nat} {t : Task} {e : Ending}
    (ht : r.tasks[id]? = some t) (ended : t.stage = .ended e) (b : Supervisor) :
    (r.book b).tasks[id]? = some t := by
  unfold book
  dsimp only
  split
  · simp [wake, ht, Task.endsOnCancel, ended]
  · exact ht

theorem attempts_congr {r r' : Run} (h : r'.trace = r.trace) : r'.attempts = r.attempts := by
  unfold attempts
  rw [history_congr h]

/-! ## Frames -/

theorem Frame.refl (r : Run) : Frame r r := ⟨rfl, rfl, fun _ => rfl, rfl⟩

theorem Frame.trans {r₁ r₂ r₃ : Run} (h : Frame r₁ r₂) (h' : Frame r₂ r₃) : Frame r₁ r₃ :=
  ⟨h'.phase.trans h.phase, h'.attempts.trans h.attempts,
    fun id => (h'.awaits id).trans (h.awaits id), h'.cancelled.trans h.cancelled⟩

/-- A difference that books, bodies, trace and the supervisor's place do not show. -/
theorem Frame.aside {r r₁ r' : Run} (h : Frame r r₁) (phase : r'.phase = r₁.phase)
    (trace : r'.trace = r₁.trace) (tasks : r'.tasks = r₁.tasks) (books : r'.books = r₁.books) :
    Frame r r' :=
  h.trans ⟨phase, attempts_congr trace, awaits_congr (by rw [tasks]), by rw [books]⟩

theorem Frame.log {event : Event} (h : event.attempt? = none) (label : Option String) (r : Run) :
    Frame r (r.log label event) := by
  refine ⟨rfl, ?_, fun _ => rfl, rfl⟩
  rw [attempts_log, h, Option.toList_none, List.append_nil]

theorem Frame.change {f : Task → Task} (hf : ∀ t, (f t).awaited = t.awaited) (id : Nat) (r : Run) :
    Frame r (r.change id f) :=
  ⟨rfl, rfl, awaits_congr (map_modify_same fun t _ => hf t), rfl⟩

theorem Frame.moveOn (id : Nat) (rest : List Action) (r : Run) : Frame r (r.moveOn id rest) :=
  .change (f := fun t => { t with work := .script rest }) (fun _ => rfl) id r

theorem Frame.sleep (id : Nat) (until_ : Option Nat) (endsOnCancel : Bool) (r : Run) :
    Frame r (r.sleep id until_ endsOnCancel) :=
  Frame.aside (.change (f := fun t => { t with stage := .asleep until_ endsOnCancel })
    (fun _ => rfl) id r) rfl rfl rfl rfl

theorem passTo_trace (t : Nat) (r : Run) : (r.passTo t).trace = r.trace := by
  unfold Run.passTo
  dsimp only
  split
  · exact book_trace _ _
  · rfl

theorem passTo_phase (t : Nat) (r : Run) : (r.passTo t).phase = r.phase := by
  unfold Run.passTo
  dsimp only
  split
  · exact book_phase _ _
  · rfl

theorem passTo_awaits (t : Nat) (r : Run) (id : Nat) : (r.passTo t).awaits id = r.awaits id := by
  refine awaits_congr ?_ id
  have rung := awaited_wake (fun task => task.alarm?.any (· ≤ t)) { r with now := max r.now t }
  unfold Run.passTo
  dsimp only
  split
  · exact (awaited_book _ _).trans rung
  · exact rung

/-! ## Turns -/

theorem Frame.turn {r r' : Run} (h : Frame r r') (id : Nat) : Turn id r r' where
  phase := h.phase
  attempts := .inl h.attempts
  awaits j := .inl (h.awaits j)
  cancels before after := absurd (h.cancelled.symm.trans after) (by simp [before])

/-- A body that ends is not waited for any more, and cancels if it has failed. -/
theorem Turn.finish {id : Nat} {r r₁ : Run} {t t₁ : Task} (h : Turn id r r₁)
    (found : r.tasks[id]? = some t) (begun : t.begun = true) (still : r₁.tasks[id]? = some t₁)
    (label : Option String) (ending : Ending) : Turn id r (r₁.finish id label ending) := by
  obtain ⟨r₂, hr₂⟩ : ∃ r₂, r₂ = (r₁.log label (.ended ending)).change id fun t =>
    { t with stage := .ended ending, awaited := false } := ⟨_, rfl⟩
  have closed : r₁.finish id label ending = (r₂.book (r₁.books.finish ending)).endTurn := by
    rw [hr₂]
    rfl
  have awaits : ∀ j, (r₁.finish id label ending).awaits j = r₂.awaits j := by
    intro j
    rw [closed]
    exact awaits_congr (awaited_book _ r₂) j
  have ended : ∃ t' e, (r₁.finish id label ending).tasks[id]? = some t' ∧ t'.stage = .ended e := by
    have here : r₂.tasks[id]? = some { t₁ with stage := .ended ending, awaited := false } := by
      rw [hr₂]
      simp [Run.change, log, still]
    refine ⟨{ t₁ with stage := .ended ending, awaited := false }, ending, ?_, rfl⟩
    rw [closed]
    exact getElem?_book_of_ended here rfl _
  refine ⟨?_, ?_, fun j => ?_, fun before after => ?_⟩
  · rw [closed, ← h.phase]
    show (r₂.book _).phase = r₁.phase
    rw [book_phase, hr₂]
    rfl
  · have same : (r₁.finish id label ending).attempts = r₁.attempts := by
      have entry : Frame r₁ (r₁.log label (.ended ending)) := .log rfl label r₁
      refine Eq.trans (attempts_congr ?_) entry.attempts
      rw [closed]
      show (r₂.book _).trace = _
      rw [book_trace, hr₂]
      rfl
    rw [same]
    exact h.attempts
  · by_cases hj : j = id
    · refine .inr ⟨hj, ?_, t, found, begun, .inr (.inr ended)⟩
      rw [awaits, hr₂, hj]
      exact awaits_change_self fun _ => rfl
    · rw [awaits, hr₂, awaits_change_of_ne hj]
      rcases h.awaits j with same | ⟨hj', -⟩
      · exact .inl same
      · exact absurd hj' hj
  · have books : (r₁.finish id label ending).books = r₁.books.finish ending := by
      rw [closed]
      exact book_books _ r₂
    rw [books] at after ⊢
    cases ending with
    | well => exact h.cancels before after
    | failed f =>
      refine .inl ?_
      rw [(Supervisor.finish_failed f _).1]
      exact Supervisor.latched_failed_ne_none _ _

theorem enlist_verdict (task : Task) (r : Run) : (r.enlist task).1 = r.books.enlist.1 := by
  unfold Run.enlist
  split <;> next h => rw [h]

theorem enlist_trace (task : Task) (r : Run) : (r.enlist task).2.trace = r.trace := by
  unfold Run.enlist
  split <;> exact book_trace _ r

/-- An admission is asked for, and the books decide on it. -/
theorem enlist_attempts (task : Task) {o : Origin} (label : Option String)
    (event : Verdict → Event) (attempts : ∀ v, (event v).attempt? = some (o, v)) (r : Run) :
    ((r.enlist task).2.log label (event (r.enlist task).1)).attempts =
      r.attempts ++ [(o, r.books.enlist.1)] := by
  rw [attempts_log, attempts, attempts_congr (enlist_trace task r), enlist_verdict]
  rfl

/-- The one admission that a body can ask for in one go. -/
theorem Frame.enlist {r₀ r : Run} (h : Frame r₀ r) (books : r.books = r₀.books) (task : Task)
    (unawaited : task.awaited = false) (id : Nat) (label : Option String) (name : String) :
    Turn id r₀ ((r.enlist task).2.log label (.scheduled name (r.enlist task).1)) := by
  have asked := enlist_attempts task label (.scheduled name) (fun _ => rfl) r
  rw [h.attempts, books] at asked
  cases hv : (r.enlist task).1 with
  | admitted =>
    obtain ⟨books', -, kept, he⟩ := enlist_eq_of_admitted hv
    rw [hv, he] at asked
    rw [he]
    refine ⟨h.phase, .inr ⟨name, asked⟩, fun j => .inl ?_, fun before after => ?_⟩
    · exact (awaits_concat unawaited (r.queue ++ [r.tasks.length]) books' j).trans (h.awaits j)
    · exact absurd ((kept.trans h.cancelled).symm.trans after) (by simp [before])
  | refused n =>
    obtain ⟨-, he⟩ := enlist_eq_of_refused hv
    rw [hv, he] at asked
    rw [he]
    refine ⟨(book_phase _ r).trans h.phase, .inr ⟨name, asked⟩, fun j => .inl ?_,
      fun _ _ => .inl ?_⟩
    · exact (awaits_congr (awaited_book _ r) j).trans (h.awaits j)
    · show (r.book _).books.latched ≠ none
      rw [book_books]
      exact Supervisor.latched_failed_ne_none _ _

/-- Whoever was there is still there after an admission was refused. -/
theorem exists_getElem?_of_refused {r : Run} {id n : Nat} {t task : Task}
    (found : r.tasks[id]? = some t) (h : (r.enlist task).1 = .refused n) :
    ∃ t', (r.enlist task).2.tasks[id]? = some t' := by
  rw [(enlist_eq_of_refused h).2]
  have inside : id < (r.book (r.books.failed (.tooManyTasks n))).tasks.length := by
    rw [length_book_tasks]
    exact (List.getElem?_eq_some_iff.mp found).1
  exact ⟨_, List.getElem?_eq_getElem inside⟩

theorem act_turn {id : Nat} {r : Run} {t : Task} {a : Action} {rest : List Action}
    (found : r.tasks[id]? = some t) (begun : t.begun = true) (work : t.work = .script (a :: rest))
    (label : Option String) : Turn id r (r.act id label rest a) := by
  have on : Frame r (r.moveOn id rest) := .moveOn id rest r
  have ends : ∀ ending, Turn id r (r.finish id label ending) := fun ending =>
    ((Frame.refl r).turn id).finish found begun found label ending
  cases a with
  | sleep millis =>
    unfold act
    dsimp only
    split
    · exact on.turn id
    · exact (on.trans (.sleep id _ _ _)).turn id
  | note text => exact (on.trans (.log rfl label _)).turn id
  | ready =>
    obtain ⟨said, hsaid⟩ : ∃ r', r' = (r.moveOn id rest).change id fun t => { t with awaited := false } :=
      ⟨_, rfl⟩
    have entry : Frame said (said.log label .saidReady) := .log rfl label said
    show Turn id r (((r.moveOn id rest).change id _).log label .saidReady)
    rw [← hsaid]
    refine ⟨?_, .inl ?_, fun j => ?_, fun before after => ?_⟩
    · rw [entry.phase, hsaid]
      rfl
    · rw [entry.attempts, hsaid]
      rfl
    · rw [entry.awaits j, hsaid]
      by_cases hj : j = id
      · refine .inr ⟨hj, ?_, t, found, begun, .inl ⟨rest, work⟩⟩
        rw [hj]
        exact awaits_change_self fun _ => rfl
      · rw [awaits_change_of_ne hj]
        exact .inl (on.awaits j)
    · rw [entry.cancelled, hsaid] at after
      exact absurd (before.symm.trans after) (by simp)
  | wait =>
    unfold act
    dsimp only
    split
    · exact (on.trans (.log rfl label _)).turn id
    · exact (Frame.sleep id _ _ r).turn id
  | cancel =>
    have said : Frame r ((r.moveOn id rest).log label .cancelled) := on.trans (.log rfl label _)
    refine ⟨?_, .inl ?_, fun j => .inl ?_, fun _ _ => .inr ⟨t, rest, found, work⟩⟩
    · exact (book_phase _ _).trans said.phase
    · exact (attempts_congr (book_trace _ _)).trans said.attempts
    · exact (awaits_congr (awaited_book _ _) j).trans (said.awaits j)
  | fail failure => exact ends _
  | panic text => exact ends _
  | raise signal =>
    have said : Frame r ((r.moveOn id rest).log label (.raised signal)) := on.trans (.log rfl label _)
    refine Frame.turn ?_ id
    exact said.aside rfl rfl rfl rfl
  | schedule name steps propagate =>
    have asks := on.enlist rfl { label := some name, work := .script steps } rfl id label name
    unfold act
    dsimp only
    split
    · next n hv =>
      -- the refusal is passed on as the failure of this body
      obtain ⟨t', still⟩ : ∃ t', (r.moveOn id rest).tasks[id]? = some t' :=
        ⟨_, by simp [moveOn, Run.change, found]; rfl⟩
      obtain ⟨t'', later⟩ := exists_getElem?_of_refused still hv
      exact asks.finish found begun later label _
    · exact asks

theorem turnLoop_turn {id : Nat} {r : Run} {t : Task} (found : r.tasks[id]? = some t)
    (begun : t.begun = true) (label : Option String) (p : Prober) :
    Turn id r (r.turnLoop id label p) := by
  unfold turnLoop
  generalize p.turn r.now r.books.cancelled = turned
  obtain ⟨p', doings⟩ := turned
  dsimp only
  obtain ⟨t', still⟩ : ∃ t', (r.change id fun t => { t with work := .loop p' }).tasks[id]? = some t' :=
    ⟨_, by simp [Run.change, found]; rfl⟩
  have edit : Frame r (r.change id fun t => { t with work := .loop p' }) :=
    .change (f := fun t => { t with work := .loop p' }) (fun _ => rfl) id r
  generalize hr₂ : doings.foldl _ _ = r₂
  obtain ⟨done, tasks⟩ : Frame r r₂ ∧
      r₂.tasks = (r.change id fun t => { t with work := .loop p' }).tasks := by
    rw [← hr₂]
    refine List.foldlRecOn doings _ (motive := fun r₂ : Run => Frame r r₂ ∧
      r₂.tasks = (r.change id fun t => { t with work := .loop p' }).tasks) ⟨edit, rfl⟩
      fun r₂ h d _ => ?_
    cases d with
    | checks target => exact ⟨h.1.trans (.log rfl label r₂), h.2⟩
    | sets s => exact ⟨h.1.aside rfl rfl rfl rfl, h.2⟩
  rw [← tasks] at still
  have ends : ∀ ending, Turn id r (r₂.finish id label ending) :=
    (done.turn id).finish found begun still label
  cases p'.state with
  | stopped => exact ends _
  | broken why => cases why <;> exact ends _
  | pausing u => exact (done.trans (.sleep id _ _ r₂)).turn id
  | cycling c => exact (done.trans (.sleep id _ _ r₂)).turn id

/-- Every turn of every body. -/
theorem stepTask_turn (id : Nat) (r : Run) : Turn id r (r.stepTask id) := by
  unfold stepTask
  have passed : Frame r r.endTurn := (Frame.refl r).aside rfl rfl rfl rfl
  split
  · exact passed.turn id
  · next t found =>
    split
    · exact ((Frame.change (f := fun t => { t with stage := .running }) (fun _ => rfl) id r).trans
        (.log rfl t.label _)).turn id
    · exact passed.turn id
    all_goals
      next hs =>
      have begun : t.begun = true := by
        unfold Task.begun
        rw [hs]
      split
      · exact ((Frame.refl r).turn id).finish found begun found _ _
      · next work => exact act_turn found begun work _
      · next p work =>
        refine ⟨rfl, .inl rfl, fun j => ?_, fun before after => absurd (before.symm.trans after) (by simp)⟩
        by_cases hj : j = id
        · refine .inr ⟨hj, ?_, t, found, begun, .inr (.inl ⟨p, work⟩)⟩
          rw [hj]
          exact awaits_change_self fun _ => rfl
        · exact .inl (awaits_change_of_ne hj)
      · exact turnLoop_turn found begun _ _

/-- A turn out of order is a turn all the same. -/
theorem favour_stepTask_turn (id : Nat) (r : Run) : Turn id r ((r.favour id).stepTask id) := by
  have turn := stepTask_turn id (r.favour id)
  exact ⟨turn.phase, turn.attempts, turn.awaits, turn.cancels⟩

end Run

end PingWatch
