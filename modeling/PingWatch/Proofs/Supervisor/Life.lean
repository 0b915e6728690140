import PingWatch.Proofs.Supervisor.Queue
import PingWatch.Proofs.Supervisor.Report
import PingWatch.Proofs.Supervisor.Roster

/-!
# The life of a supervised run

Before a supervised run listens, its owner may set the limit as often as he likes, and bodies handed
to the supervisor may already take their turns.  Once it listens it goes its own way.  Whoever has a
runner may schedule bodies all the while, and whoever has the token may cancel.  `Deed` lists what
can happen at once and `Lives` what it leads to; but for the setting of limits it is all made of
elementary changes, so that `Lives.keep` carries what these and the limits keep through every life.
-/

namespace PingWatch

namespace Run

/-- Sets the limit of a run.  A fault leaves the run as it was. -/
def setLimit (limit : Option Nat) (r : Run) : Option Fault × Run :=
  match r.books.setLimit limit with
  | .ok books => (none, { r with books })
  | .error fault => (some fault, r)

/-- What can happen to a run at once; the flags tell whether it listens. -/
inductive Deed : Bool × Run → Bool × Run → Prop
  | limits (limit : Option Nat) (r : Run) : Deed (false, r) (false, (r.setLimit limit).2)
  | listens (listeners : List Listener) (cancelAt : Option Nat) (r : Run) :
    Deed (false, r) (true, r.listen listeners cancelAt)
  | schedules (listening : Bool) (caller name : String) (steps : List Action) (r : Run) :
    Deed (listening, r) (listening, r.scheduleFirst caller name steps)
  | cancels (listening : Bool) (r : Run) :
    Deed (listening, r) (listening, r.book r.books.cancel)
  /-- A body takes its turn before the run listens. -/
  | turns {id : Nat} {r : Run} (h : id ∈ r.queue) :
    Deed (false, r) (false, (r.favour id).stepTask id)
  /-- Time passes before the run listens. -/
  | passes (t : Nat) (r : Run) : Deed (false, r) (false, r.passTo t)
  | steps {r r' : Run} (s : Step r r') : Deed (true, r) (true, r')

/-- The runs that a new run can come to, listening or not. -/
def Lives (listening : Bool) (r : Run) : Prop :=
  Relation.ReflTransGen Deed (false, idle) (listening, r)

theorem Lives.idle : Lives false idle := .refl

theorem Lives.next {b b' : Bool} {r r' : Run} (h : Lives b r) (d : Deed (b, r) (b', r')) :
    Lives b' r' :=
  .tail h d

/-- A run that listens goes on as one of its schedules. -/
theorem Lives.reaches {r r' : Run} (h : Lives true r) (s : Reaches r r') : Lives true r' := by
  induction s with
  | refl => exact h
  | next _ _ s ih => exact ih.next (.steps s)

/-! ## Deeds are made of elementary changes -/

/-- Either the limit stays, or no body is unfinished and the new pool is full. -/
theorem setLimit_cases (limit : Option Nat) (r : Run) :
    (r.setLimit limit).2 = r ∨ r.books.unfinished = 0 ∧
      (r.setLimit limit).2 =
        { r with books := { r.books with permits := limit.map fun n => ⟨n, n⟩ } } := by
  unfold setLimit Supervisor.setLimit
  by_cases hu : r.books.unfinished = 0
  · simp only [hu, ne_eq, not_true_eq_false, if_false, true_and]
    cases limit with
    | none => exact .inr rfl
    | some n =>
      dsimp only
      split
      · next h =>
        split at h
        · cases h
        · cases h
          exact .inr rfl
      · exact .inl rfl
  · simp [hu]

theorem listen_changes (listeners : List Listener) (cancelAt : Option Nat) (r : Run) :
    Changes r (r.listen listeners cancelAt) := by
  have placed := (phase_change r (.starting 0 listeners)).once
  unfold listen
  dsimp only
  split
  · exact (placed.tail .cancels).tail (.aside rfl rfl rfl rfl (Nat.le_refl _))
  · exact placed.tail (.aside rfl rfl rfl rfl (Nat.le_refl _))

theorem listen_phase (listeners : List Listener) (cancelAt : Option Nat) (r : Run) :
    (r.listen listeners cancelAt).phase = .starting 0 listeners := by
  unfold listen
  dsimp only
  split
  · exact book_phase _ _
  · rfl

theorem listen_trace (listeners : List Listener) (cancelAt : Option Nat) (r : Run) :
    (r.listen listeners cancelAt).trace = r.trace := by
  unfold listen
  dsimp only
  split
  · exact book_trace _ _
  · rfl

theorem scheduleFirst_change (caller name : String) (steps : List Action) (r : Run) :
    Change r (r.scheduleFirst caller name steps) :=
  enlist_change (o := .subtask name) { label := some name, work := .script steps } rfl rfl
    (some caller) (.scheduled name) (fun _ => rfl) r

theorem Deed.changes {b b' : Bool} {r r' : Run} (d : Deed (b, r) (b', r')) :
    (∃ limit, r' = (r.setLimit limit).2) ∨ Changes r r' := by
  cases d with
  | limits limit => exact .inl ⟨limit, rfl⟩
  | listens listeners cancelAt => exact .inr (listen_changes listeners cancelAt r)
  | schedules _ caller name steps => exact .inr (scheduleFirst_change caller name steps r).once
  | cancels => exact .inr Change.cancels.once
  | turns h => exact .inr (.head (.favours h) (stepTask_changes rfl))
  | passes t => exact .inr (passTo_changes t r)
  | steps s => exact .inr s.changes

/-- What elementary changes and new limits keep, a run keeps for life. -/
theorem Lives.keep {P : Run → Prop} (start : P Run.idle)
    (limits : ∀ limit r, P r → P (r.setLimit limit).2)
    (change : ∀ {r r' : Run}, Change r r' → P r → P r') {b : Bool} {r : Run} (h : Lives b r) :
    P r := by
  have all : ∀ state, Relation.ReflTransGen Deed (false, Run.idle) state → P state.2 := by
    intro state hs
    induction hs with
    | refl => exact start
    | tail _ d ih =>
      rcases Deed.changes d with ⟨limit, hl⟩ | hc
      · rw [hl]
        exact limits limit _ ih
      · exact hc.keep change ih
  exact all _ h

/-! ## What holds in every life -/

theorem Sound.setLimit {r : Run} (h : Sound r) (limit : Option Nat) :
    Sound (r.setLimit limit).2 := by
  rcases setLimit_cases limit r with same | ⟨-, new⟩
  · rw [same]
    exact h
  · rw [new]
    exact ⟨h.queued, h.wakeable, h.unfinished⟩

theorem Enrolled.setLimit {r : Run} (h : Enrolled r) (limit : Option Nat) :
    Enrolled (r.setLimit limit).2 := by
  rcases setLimit_cases limit r with same | ⟨-, new⟩
  · rw [same]
    exact h
  · rw [new]
    exact ⟨h.roster, h.starts⟩

/-- Queue, sleepers and books agree with the bodies. -/
theorem Lives.sound {b : Bool} {r : Run} (h : Lives b r) : Sound r := by
  refine h.keep ?_ (fun limit _ hr => hr.setLimit limit) Sound.change
  exact ⟨⟨by simp [Run.idle], .nil⟩, fun t ht => absurd ht List.not_mem_nil, rfl⟩

/-- The bodies are those who were admitted. -/
theorem Lives.enrolled {b : Bool} {r : Run} (h : Lives b r) : Enrolled r :=
  h.keep ⟨.nil, fun _ => rfl⟩ (fun limit _ hr => hr.setLimit limit) Enrolled.change

/-- Every failure of the history has been latched, and what is latched has cancelled the run. -/
structure Heeded (r : Run) : Prop where
  latched : ∀ e ∈ r.history, e.event.failure? ≠ none → r.books.latched ≠ none
  cancelled : r.books.latched ≠ none → r.books.cancelled = true

theorem Heeded.change {r r' : Run} (hc : Change r r') (h : Heeded r) : Heeded r' := by
  obtain ⟨new, reports⟩ := hc.reports
  refine ⟨fun e he fails => ?_, fun hl => ?_⟩
  · rw [reports.latched]
    have told : e ∈ new.toList ∨ e ∈ r.history := by
      unfold history at he ⊢
      rw [reports.trace, List.reverse_append, List.mem_append] at he
      rcases he with old | new_
      · exact .inr old
      · exact .inl (List.mem_reverse.mp new_)
    rcases told with new_ | old
    · obtain rfl := Option.mem_toList.mp new_
      cases r.books.latched <;> simp [fails]
    · have before := h.latched e old fails
      cases hb : r.books.latched <;> simp_all
  · by_cases before : r.books.latched = none
    · exact reports.cancels before hl
    · exact reports.cancelled (h.cancelled before)

theorem Heeded.setLimit {r : Run} (h : Heeded r) (limit : Option Nat) :
    Heeded (r.setLimit limit).2 := by
  rcases setLimit_cases limit r with same | ⟨-, new⟩
  · rw [same]
    exact h
  · rw [new]
    exact ⟨h.latched, h.cancelled⟩

/-- After a failure the run is cancelled. -/
theorem Lives.heeded {b : Bool} {r : Run} (h : Lives b r) : Heeded r :=
  h.keep ⟨fun e he => absurd he (by simp [history, Run.idle]), fun hl => absurd rfl hl⟩
    (fun limit _ hr => hr.setLimit limit) Heeded.change

/-- What is not cancelled has not failed. -/
theorem Heeded.latched_eq_none {r : Run} (h : Heeded r) (uncancelled : r.books.cancelled = false) :
    r.books.latched = none := by
  by_contra fails
  exact absurd (uncancelled.symm.trans (h.cancelled fails)) (by simp)

/-- The number of admitted bodies that have not ended. -/
def running (r : Run) : Nat := r.tasks.countP fun t => t.ending?.isNone

theorem ended_of_running {r : Run} (h : r.running = 0) :
    ∀ t ∈ r.tasks, ∃ ending, t.stage = .ended ending := by
  intro t ht
  have ended := List.countP_eq_zero.mp h t ht
  unfold Task.ending? at ended
  split at ended
  · next e hs => exact ⟨e, hs⟩
  · exact absurd rfl ended

/-- The books count the bodies that have not ended. -/
theorem Sound.running_eq {r : Run} (h : Sound r) : r.running = r.books.unfinished := by
  have ended : r.endings.length = r.tasks.countP fun t => t.ending?.isSome :=
    List.length_filterMap_eq_countP
  have both := List.length_eq_countP_add_countP (fun t : Task => t.ending?.isSome) (l := r.tasks)
  have open_ : r.running = r.tasks.countP fun t => !t.ending?.isSome := by
    unfold running
    exact List.countP_congr fun t _ => by simp
  have counted := h.unfinished
  simp only [Bool.not_eq_true, Bool.decide_eq_false] at both
  omega

end Run

end PingWatch
