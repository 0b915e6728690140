import PingWatch.Proofs.Prober.Turn
import PingWatch.Proofs.Supervisor.FirstFailure
import PingWatch.Proofs.Supervisor.Shutdown

/-!
# Probe loops under a supervisor

All bodies are loops.  Whatever its checks come to, a loop goes on until it is cancelled or a load
fails.  A loop that is cancelled ends without another word; one whose load fails ends with that
failure, which is latched unless another one is.

* `Task.Loops`: where the body of a prober can stand, and what its loads have come to by then.
* `Onward`: what one step does to the bodies and to the settings.
* `turnLoop_onward`, `stepTask_onward`, `Step.onward`: a turn of a loop, of any body, and any step.
-/

namespace PingWatch

/-- A load of the loop has failed, with `f` as the failure of its body. -/
def Prober.FailedLoad (q : Prober) (f : Failure) : Prop :=
  ∃ k < q.loads, ∃ cause, q.probing.load k = .error cause ∧
    f = .caused (q.probing.loadFailure cause)

namespace Task

def FailedLoad (t : Task) (f : Failure) : Prop := ∃ q, t.work = .loop q ∧ q.FailedLoad f

/-- Where the body of a prober stands; the flag tells whether the run has been cancelled. -/
inductive Loops (cancelled : Bool) (t : Task) : Prop
  /-- Its loop is still to begin. -/
  | unbegun {p : Probing} (work : t.work = .probing p)
    (permits : p.settings.concurrency ≤ mostPermits) (open_ : t.ending? = none)
  /-- Its loop goes on, and every load has succeeded. -/
  | going {q : Prober} (work : t.work = .loop q)
    (permits : q.probing.settings.concurrency ≤ mostPermits) (open_ : t.ending? = none)
    (goes : q.state.goes = true) (loaded : ∀ k < q.loads, ∃ targets, q.probing.load k = .ok targets)
  /-- It has ended after a cancellation, and every load has succeeded. -/
  | stopped {q : Prober} (work : t.work = .loop q) (ended : t.stage = .ended .well)
    (loaded : ∀ k < q.loads, ∃ targets, q.probing.load k = .ok targets)
    (after : cancelled = true)
  /-- It has ended over its last load, the only one that failed. -/
  | failed {q : Prober} {k : Nat} {cause : Cause} (work : t.work = .loop q)
    (loads : q.loads = k + 1) (fails : q.probing.load k = .error cause)
    (loaded : ∀ j < k, ∃ targets, q.probing.load j = .ok targets)
    (ended : t.stage = .ended (.failed (.caused (q.probing.loadFailure cause))))

theorem Loops.mono {c c' : Bool} {t : Task} (h : t.Loops c) (later : c = true → c' = true) :
    t.Loops c' := by
  cases h with
  | unbegun work permits open_ => exact .unbegun work permits open_
  | going work permits open_ goes loaded => exact .going work permits open_ goes loaded
  | stopped work ended loaded after => exact .stopped work ended loaded (later after)
  | failed work loads fails loaded ended => exact .failed work loads fails loaded ended

/-- A body that has not ended may sleep and wake as it likes. -/
theorem Loops.restage {c : Bool} {t : Task} (h : t.Loops c) (open_ : t.ending? = none) {s : Stage}
    (stays : ({ t with stage := s } : Task).ending? = none) :
    ({ t with stage := s } : Task).Loops c := by
  cases h with
  | unbegun work permits _ => exact .unbegun work permits stays
  | going work permits _ goes loaded => exact .going work permits stays goes loaded
  | stopped work ended loaded after => exact absurd open_ (by simp [ending?, ended])
  | failed work loads fails loaded ended => exact absurd open_ (by simp [ending?, ended])

/-- The bodies that have failed are those whose loads have. -/
theorem Loops.failedLoad_iff {c : Bool} {t : Task} (h : t.Loops c) {f : Failure} :
    t.FailedLoad f ↔ t.stage = .ended (.failed f) := by
  have none_ : ∀ {q : Prober}, t.work = .loop q →
      (∀ k < q.loads, ∃ targets, q.probing.load k = .ok targets) → ¬ t.FailedLoad f := by
    rintro q work loaded ⟨q', work', k, hk, cause, fails, -⟩
    obtain rfl : q = q' := Work.loop.inj (work.symm.trans work')
    obtain ⟨targets, ok⟩ := loaded k hk
    exact absurd (fails.symm.trans ok) (by simp)
  have running : t.ending? = none → t.stage ≠ .ended (.failed f) := by
    intro open_ ended
    exact absurd open_ (by simp [ending?, ended])
  cases h with
  | @unbegun p work permits open_ =>
    refine ⟨?_, fun ended => absurd ended (running open_)⟩
    rintro ⟨q, work', -⟩
    exact absurd (work.symm.trans work') (by simp)
  | going work permits open_ goes loaded =>
    exact ⟨fun failed => absurd failed (none_ work loaded), fun ended => absurd ended (running open_)⟩
  | stopped work ended loaded after =>
    refine ⟨fun failed => absurd failed (none_ work loaded), fun ended' => ?_⟩
    exact absurd (ended.symm.trans ended') (by simp)
  | @failed q k cause work loads fails loaded ended =>
    constructor
    · rintro ⟨q', work', j, hj, cause', fails', rfl⟩
      obtain rfl : q = q' := Work.loop.inj (work.symm.trans work')
      by_cases hk : j = k
      · subst hk
        obtain rfl := Except.error.inj (fails.symm.trans fails')
        exact ended
      · obtain ⟨targets, ok⟩ := loaded j (by omega)
        exact absurd (fails'.symm.trans ok) (by simp)
    · intro ended'
      rw [ended] at ended'
      obtain rfl := Ending.failed.inj (Stage.ended.inj ended')
      exact ⟨q, work, k, by omega, cause, fails, rfl⟩

end Task

/-- A prober whose concurrency a pool has the permits for. -/
def Listener.Loops (l : Listener) : Prop :=
  ∃ p readyRequired, l = .prober p readyRequired ∧ p.settings.concurrency ≤ mostPermits

/-- The listeners that the supervisor has not scheduled yet. -/
def Phase.left : Phase → List Listener
  | .starting _ left | .awaiting _ _ left => left
  | .steady _ | .draining | .returned => []

namespace Run

/-- A load has failed in the run, with `f` as the failure of its body. -/
def FailedLoad (r : Run) (f : Failure) : Prop := ∃ t ∈ r.tasks, t.FailedLoad f

/-! ## Bodies after a change -/

theorem mem_modify {ts : List Task} {id : Nat} {f : Task → Task} {t' : Task}
    (h : t' ∈ ts.modify id f) : t' ∈ ts ∨ ∃ t, ts[id]? = some t ∧ t' = f t := by
  obtain ⟨j, hj⟩ := List.mem_iff_getElem?.mp h
  rw [List.getElem?_modify] at hj
  by_cases hid : id = j
  · subst hid
    obtain ⟨t, ht, rfl⟩ : ∃ t, ts[id]? = some t ∧ f t = t' := by simpa using hj
    exact .inr ⟨t, ht, rfl⟩
  · have same : ts[j]? = some t' := by simpa [hid] using hj
    exact .inl (List.mem_of_getElem? same)

/-- Whether `t'` is `t`, or `t` woken. -/
def Woken (t t' : Task) : Prop :=
  t' = t ∨ t.ending? = none ∧ t' = { t with stage := .running }

theorem mem_wake {p : Task → Bool} (hp : ∀ t, p t = true → t.ending? = none) {r : Run} {t' : Task}
    (h : t' ∈ (r.wake p).tasks) : ∃ t ∈ r.tasks, Woken t t' := by
  obtain ⟨t, ht, rfl⟩ := List.mem_map.mp h
  refine ⟨t, ht, ?_⟩
  by_cases wakes : p t = true
  · rw [if_pos wakes]
    exact .inr ⟨hp t wakes, rfl⟩
  · rw [if_neg wakes]
    exact .inl rfl

theorem mem_book {b : Supervisor} {r : Run} {t' : Task} (h : t' ∈ (r.book b).tasks) :
    ∃ t ∈ r.tasks, Woken t t' := by
  unfold book at h
  dsimp only at h
  split at h
  · exact mem_wake (fun _ => Task.ending?_eq_none_of_endsOnCancel) h
  · exact ⟨t', h, .inl rfl⟩

/-! ## Outside the bodies -/

/-- What of a run neither the bodies of probers nor the moves of the supervisor touch. -/
def outside (r : Run) : Nat × Option Nat × Bool × Bool × Bool :=
  (r.now, r.cancelAt, r.parentCancelled, r.raised, r.signalled)

theorem outside_eq {r r' : Run} (h : r'.outside = r.outside) :
    r'.now = r.now ∧ r'.cancelAt = r.cancelAt ∧ r'.parentCancelled = r.parentCancelled ∧
      r'.raised = r.raised ∧ r'.signalled = r.signalled := by
  simpa [outside] using h

@[simp] theorem outside_book (b : Supervisor) (r : Run) : (r.book b).outside = r.outside := by
  unfold book
  dsimp only
  split <;> rfl

@[simp] theorem settings_book (b : Supervisor) (r : Run) : (r.book b).settings = r.settings := by
  unfold book
  dsimp only
  split <;> rfl

/-- What one step does to the bodies, and to the settings. -/
structure Onward (r r' : Run) : Prop where
  bodies : ∀ t ∈ r'.tasks, t.Loops r'.books.cancelled
  /-- A body fails only before the cancellation, and is latched unless another one is. -/
  fails : ∀ t ∈ r'.tasks, ∀ f, t.stage = .ended (.failed f) →
    (∃ t₀ ∈ r.tasks, t₀.stage = .ended (.failed f)) ∨
      r.books.cancelled = false ∧ r'.books.latched = r.books.latched.or (some f)
  /-- Settings are made only before the cancellation, and by loops that go on. -/
  sets : r'.settings = r.settings ∨ r.books.cancelled = false ∧ r'.books = r.books

/-- What one body shows that is part of `r'` after a step from `r`. -/
def Shows (r r' : Run) (t' : Task) : Prop :=
  t'.Loops r'.books.cancelled ∧ ∀ f, t'.stage = .ended (.failed f) →
    (∃ t₀ ∈ r.tasks, t₀.stage = .ended (.failed f)) ∨
      r.books.cancelled = false ∧ r'.books.latched = r.books.latched.or (some f)

theorem Onward.of_shows {r r' : Run} (shows_ : ∀ t ∈ r'.tasks, Shows r r' t)
    (sets : r'.settings = r.settings ∨ r.books.cancelled = false ∧ r'.books = r.books) :
    Onward r r' :=
  ⟨fun t ht => (shows_ t ht).1, fun t ht => (shows_ t ht).2, sets⟩

/-- A body that was there before, and has at most been woken. -/
theorem Shows.of_old {r r' : Run} {t t' : Task} (ht : t ∈ r.tasks) (h : t.Loops r.books.cancelled)
    (later : r.books.cancelled = true → r'.books.cancelled = true) (woken : Woken t t') :
    Shows r r' t' := by
  rcases woken with rfl | ⟨open_, rfl⟩
  · exact ⟨h.mono later, fun f ended => .inl ⟨t', ht, ended⟩⟩
  · exact ⟨(h.restage open_ rfl).mono later, fun f ended => absurd ended (by simp)⟩

/-- A body that has not failed shows no failure. -/
theorem Shows.of_open {r r' : Run} {t' : Task} (h : t'.Loops r'.books.cancelled)
    (open_ : t'.ending? = none) : Shows r r' t' := by
  refine ⟨h, fun f ended => ?_⟩
  exact absurd open_ (by simp [Task.ending?, ended])

/-- A step that changes one body, and leaves it open. -/
theorem shows_of_change {r r' : Run} {id : Nat} {t : Task} {f : Task → Task}
    (bodies : ∀ t ∈ r.tasks, t.Loops r.books.cancelled) (found : r.tasks[id]? = some t)
    (tasks : r'.tasks = r.tasks.modify id f) (books : r'.books = r.books)
    (new : (f t).Loops r.books.cancelled) (open_ : (f t).ending? = none) :
    ∀ t' ∈ r'.tasks, Shows r r' t' := by
  intro t' ht'
  rw [tasks] at ht'
  rcases mem_modify ht' with old | ⟨t₂, ht₂, rfl⟩
  · exact .of_old old (bodies t' old) (fun cancelled => books ▸ cancelled) (.inl rfl)
  · obtain rfl := Option.some.inj (found.symm.trans ht₂)
    exact .of_open (books ▸ new) open_

/-! ## Turns -/

theorem outside_finish (id : Nat) (label : Option String) (ending : Ending) (r : Run) :
    (r.finish id label ending).outside = r.outside := by
  unfold finish
  exact outside_book _ _

theorem settings_finish (id : Nat) (label : Option String) (ending : Ending) (r : Run) :
    (r.finish id label ending).settings = r.settings := by
  unfold finish
  exact settings_book _ _

section Turn

variable {r : Run} {id : Nat} {t : Task} {q : Prober}

/-- The end of a loop, which leaves it as `q'`. -/
theorem finish_onward (bodies : ∀ t ∈ r.tasks, t.Loops r.books.cancelled)
    (found : r.tasks[id]? = some t) (label : Option String) {q' : Prober} {ending : Ending}
    (new : ({ t with work := .loop q', stage := .ended ending, awaited := false } : Task).Loops
      (r.books.finish ending).cancelled)
    (early : ∀ f, ending = .failed f → r.books.cancelled = false) :
    Onward r ((r.change id fun t => { t with work := .loop q' }).finish id label ending) := by
  have later : r.books.cancelled = true → (r.books.finish ending).cancelled = true := by
    intro cancelled
    cases ending with
    | well => exact cancelled
    | failed f => simp [(Supervisor.finish_failed f _).2, Supervisor.cancelled_failed, cancelled]
  have books : ((r.change id fun t => { t with work := .loop q' }).finish id label ending).books =
      r.books.finish ending := book_books _ _
  refine .of_shows (fun t' ht' => ?_) (.inl (settings_finish _ _ _ _))
  unfold Shows
  rw [books]
  obtain ⟨t₁, ht₁, woken⟩ := mem_book ht'
  have ht₁ : t₁ ∈ (r.tasks.modify id fun t => { t with work := .loop q' }).modify id
      fun t => { t with stage := .ended ending, awaited := false } := ht₁
  rw [List.modify_modify_eq] at ht₁
  rcases mem_modify ht₁ with old | ⟨t₂, ht₂, rfl⟩
  · have shows_ : Shows r { r with books := r.books.finish ending } t' :=
      .of_old old (bodies t₁ old) later woken
    exact shows_
  · obtain rfl := Option.some.inj (found.symm.trans ht₂)
    rcases woken with rfl | ⟨open_, -⟩
    · refine ⟨new, fun f ended => .inr ?_⟩
      obtain rfl : ending = .failed f := Stage.ended.inj ended
      refine ⟨early f rfl, ?_⟩
      rw [(Supervisor.finish_failed f _).1, Supervisor.latched_failed]
    · exact absurd open_ (by simp [Task.ending?])

/-- What a loop does touches neither bodies nor books. -/
theorem foldl_aside {f : Run → Doing → Run}
    (hf : ∀ r d, (f r d).tasks = r.tasks ∧ (f r d).books = r.books ∧ (f r d).outside = r.outside)
    (doings : List Doing) (r : Run) :
    (doings.foldl f r).tasks = r.tasks ∧ (doings.foldl f r).books = r.books ∧
      (doings.foldl f r).outside = r.outside := by
  induction doings generalizing r with
  | nil => exact ⟨rfl, rfl, rfl⟩
  | cons d doings ih =>
    obtain ⟨tasks, books, outside⟩ := hf r d
    obtain ⟨tasks', books', outside'⟩ := ih (f r d)
    exact ⟨tasks'.trans tasks, books'.trans books, outside'.trans outside⟩

theorem turnLoop_onward (bodies : ∀ t ∈ r.tasks, t.Loops r.books.cancelled)
    (found : r.tasks[id]? = some t) (permits : q.probing.settings.concurrency ≤ mostPermits)
    (goes : q.state.goes = true) (loaded : ∀ k < q.loads, ∃ targets, q.probing.load k = .ok targets)
    (label : Option String) :
    Onward r (r.turnLoop id label q) ∧ (r.turnLoop id label q).outside = r.outside := by
  have turned := Prober.turned goes permits r.now r.books.cancelled
  unfold turnLoop
  revert turned
  generalize q.turn r.now r.books.cancelled = next
  generalize cancelled : r.books.cancelled = c
  intro turned
  cases turned with
  | @stops samples =>
    refine ⟨finish_onward bodies found label ?_ (by simp), outside_finish _ _ _ _⟩
    exact .stopped rfl rfl loaded cancelled
  | @fails cause failed =>
    refine ⟨finish_onward bodies found label ?_ (fun _ _ => cancelled), outside_finish _ _ _ _⟩
    exact .failed (q := { q with loads := q.loads + 1
                                 state := .broken (.load (q.probing.loadFailure cause)) })
      rfl rfl failed loaded rfl
  | @goesOn q' doings same goes' loads =>
    have loaded' : ∀ k < q'.loads, ∃ targets, q'.probing.load k = .ok targets := by
      rw [same]
      rcases loads with stay | ⟨more, ok⟩
      · rw [stay]
        exact loaded
      · rw [more]
        exact fun k hk => (Nat.lt_succ_iff_lt_or_eq.mp hk).elim (loaded k) (· ▸ ok)
    have sleeps : ∀ {r₂ : Run}, r₂.tasks = (r.change id fun t => { t with work := .loop q' }).tasks →
        r₂.books = r.books → r₂.outside = r.outside →
        Onward r (r₂.sleep id q'.nextTime? true) ∧
          (r₂.sleep id q'.nextTime? true).outside = r.outside := by
      intro r₂ tasks books outside
      have tasks' : (r₂.sleep id q'.nextTime? true).tasks = r.tasks.modify id fun t =>
          { t with work := .loop q', stage := .asleep q'.nextTime? true } := by
        show r₂.tasks.modify id _ = _
        rw [tasks]
        exact List.modify_modify_eq ..
      refine ⟨.of_shows (shows_of_change bodies found tasks' books ?_ rfl) (.inr ⟨cancelled, books⟩),
        outside⟩
      exact .going rfl (same ▸ permits) rfl goes' loaded'
    have result : ∀ f : Run → Doing → Run,
        (∀ r d, (f r d).tasks = r.tasks ∧ (f r d).books = r.books ∧ (f r d).outside = r.outside) →
        Onward r ((doings.foldl f (r.change id fun t => { t with work := .loop q' })).sleep id
          q'.nextTime? true) ∧
          ((doings.foldl f (r.change id fun t => { t with work := .loop q' })).sleep id
            q'.nextTime? true).outside = r.outside := by
      intro f aside
      obtain ⟨tasks, books, outside⟩ := foldl_aside aside doings
        (r.change id fun t => { t with work := .loop q' })
      exact sleeps tasks books outside
    -- a loop that goes on is in one of two states, and sleeps in both
    dsimp only
    cases state : q'.state with
    | pausing u => exact result _ (fun r d => by cases d <;> exact ⟨rfl, rfl, rfl⟩)
    | cycling c => exact result _ (fun r d => by cases d <;> exact ⟨rfl, rfl, rfl⟩)
    | stopped => rw [state] at goes'; exact absurd goes' (by simp [LoopState.goes])
    | broken why => rw [state] at goes'; exact absurd goes' (by simp [LoopState.goes])

/-- The turn of a body. -/
theorem stepTask_onward (bodies : ∀ t ∈ r.tasks, t.Loops r.books.cancelled) (id : Nat) :
    Onward r (r.stepTask id) ∧ (r.stepTask id).outside = r.outside := by
  have rests : Onward r r.endTurn :=
    .of_shows (fun t ht => .of_old ht (bodies t ht) (fun h => h) (.inl rfl)) (.inl rfl)
  generalize step : r.stepTask id = r'
  unfold stepTask at step
  split at step
  · subst step
    exact ⟨rests, rfl⟩
  · next t found =>
    have body := bodies t (List.mem_of_getElem? found)
    split at step
    · next fresh =>
      subst step
      have open_ : t.ending? = none := by
        unfold Task.ending?
        rw [fresh]
      exact ⟨.of_shows (shows_of_change bodies found rfl rfl (body.restage open_ rfl) rfl) (.inl rfl),
        rfl⟩
    · subst step
      exact ⟨rests, rfl⟩
    all_goals
      next begun =>
      have open_ : t.ending? = none := by
        unfold Task.ending?
        rw [begun]
      cases body with
      | @unbegun p work permits _ =>
        rw [work] at step
        subst step
        refine ⟨.of_shows (shows_of_change bodies found rfl rfl ?_ open_) (.inl rfl), rfl⟩
        exact .going rfl permits open_ rfl fun k hk => absurd hk (Nat.not_lt_zero k)
      | @going q work permits _ goes loaded =>
        rw [work] at step
        subst step
        exact turnLoop_onward bodies found permits goes loaded _
      | stopped work gone _ _ => exact absurd open_ (by simp [Task.ending?, gone])
      | failed work _ _ _ gone => exact absurd open_ (by simp [Task.ending?, gone])

end Turn

/-! ## Moves, and the passing of time -/

theorem Woken.trans {t t' t'' : Task} (h : Woken t t') (h' : Woken t' t'') : Woken t t'' := by
  rcases h with rfl | ⟨open_, rfl⟩
  · exact h'
  · rcases h' with rfl | ⟨-, rfl⟩
    · exact .inr ⟨open_, rfl⟩
    · exact .inr ⟨open_, rfl⟩

theorem mem_passTo {t : Nat} {r : Run} {t' : Task} (h : t' ∈ (r.passTo t).tasks) :
    ∃ t₀ ∈ r.tasks, Woken t₀ t' := by
  have rung : ∀ {t₁}, t₁ ∈ ({ r with now := max r.now t }.wake
      fun task => task.alarm?.any (· ≤ t)).tasks → ∃ t₀ ∈ r.tasks, Woken t₀ t₁ :=
    fun h₁ => mem_wake (fun _ => Task.ending?_eq_none_of_alarm) h₁
  unfold passTo at h
  dsimp only at h
  split at h
  · obtain ⟨t₁, ht₁, woken⟩ := mem_book h
    obtain ⟨t₀, ht₀, before⟩ := rung ht₁
    exact ⟨t₀, ht₀, before.trans woken⟩
  · exact rung h

theorem settings_passTo (t : Nat) (r : Run) : (r.passTo t).settings = r.settings := by
  unfold passTo
  dsimp only
  split
  · exact settings_book _ _
  · rfl

/-- Moves touch neither settings nor what is outside. -/
theorem Move.aside {r r' : Run} (h : Move r r') :
    r'.outside = r.outside ∧ r'.settings = r.settings := by
  cases h with
  | leaves | looksOn | goesOn | returns => exact ⟨rfl, rfl⟩
  | heeds | closes => exact ⟨outside_book _ r, settings_book _ r⟩
  | @starts index l left at_ uncancelled admitted =>
    obtain ⟨books, -, -, enlisted⟩ := enlist_eq_of_admitted admitted
    rw [enlisted]
    exact ⟨rfl, rfl⟩
  | givesUp at_ uncancelled refused =>
    rw [(enlist_eq_of_refused refused).2]
    exact ⟨outside_book _ r, settings_book _ r⟩

/-- One step of a run of loops. -/
theorem Step.onward {r r' : Run} (bodies : ∀ t ∈ r.tasks, t.Loops r.books.cancelled)
    (left : ∀ l ∈ r.phase.left, l.Loops) (unlimited : r.books.limit = none) (s : Step r r') :
    Onward r r' := by
  have later : r.books.cancelled = true → r'.books.cancelled = true := s.cancelled
  have old : ∀ {t t'}, t ∈ r.tasks → Woken t t' → Shows r r' t' :=
    fun ht woken => .of_old ht (bodies _ ht) later woken
  cases s with
  | @turn id h =>
    obtain ⟨bodies', fails, sets⟩ := (stepTask_onward (r := r.favour id) bodies id).1
    exact ⟨bodies', fails, sets⟩
  | signal h => exact .of_shows (fun t ht => old ht (.inl rfl)) (.inl rfl)
  | pass t =>
    refine .of_shows (fun t' ht' => ?_) (.inl (settings_passTo t r))
    obtain ⟨t₀, ht₀, woken⟩ := mem_passTo ht'
    exact old ht₀ woken
  | move moves =>
    have move := move?_move moves
    refine .of_shows (fun t' ht' => ?_) (.inl move.aside.2)
    cases move with
    | leaves | looksOn | goesOn | returns => exact old ht' (.inl rfl)
    | heeds | closes =>
      obtain ⟨t₀, ht₀, woken⟩ := mem_book ht'
      exact old ht₀ woken
    | @starts index l rest at_ uncancelled admitted =>
      obtain ⟨books, -, -, enlisted⟩ := enlist_eq_of_admitted admitted
      have ht' : t' ∈ (r.enlist l.body).2.tasks := ht'
      rw [enlisted] at ht'
      rcases List.mem_append.mp ht' with ht' | ht'
      · exact old ht' (.inl rfl)
      · obtain rfl := List.mem_singleton.mp ht'
        have prober : l.Loops := left l (by rw [at_]; exact List.mem_cons_self)
        obtain ⟨p, readyRequired, rfl, permits⟩ := prober
        exact .of_open (.unbegun rfl permits rfl) rfl
    | givesUp at_ uncancelled refused =>
      -- there is no limit to refuse anybody at
      have taken := (enlist_eq_of_refused refused).1
      unfold Supervisor.limit at unlimited
      rw [taken] at unlimited
      exact absurd unlimited (by simp)

end Run

end PingWatch
