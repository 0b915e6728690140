import Mathlib.Data.List.Forall2
import PingWatch.Proofs.Supervisor.Change

/-!
# The roster of admitted bodies

The history tells which admissions were granted (`roster`) and how often a body of some name had its
first turn (`starts`).  `Enrolled` says that this is what the bodies of the run look like: they are
the admitted ones, in the order of their admission, and each has started once or not yet.  So nobody
starts who was refused.
-/

namespace PingWatch

/-- Who was admitted by the event, if anybody was. -/
def Event.admission? (e : Event) : Option Origin :=
  match e.attempt? with
  | some (o, .admitted) => some o
  | _ => none

/-- The name of a body, and whether it has begun. -/
def Task.badge (t : Task) : Option String × Bool := (t.label, t.begun)

theorem Task.badge_congr {t t' : Task} (label : t'.label = t.label) (begun : t'.begun = t.begun) :
    t'.badge = t.badge := by
  unfold badge
  rw [label, begun]

namespace Run

/-- The admissions asked for so far, in order, each with its verdict. -/
def attempts (r : Run) : List (Origin × Verdict) := r.history.filterMap (·.event.attempt?)

/-- Those who were admitted, in order. -/
def roster (r : Run) : List Origin := r.history.filterMap (·.event.admission?)

/-- The number of bodies with a label that have had their first turn. -/
def starts (label : Option String) (r : Run) : Nat :=
  r.history.countP fun e => e.label = label && e.event.isStart

/-- The bodies are those who were admitted, in that order, and each start is the first turn of one
of them. -/
structure Enrolled (r : Run) : Prop where
  roster : List.Forall₂ Origin.Names r.roster (r.tasks.map (·.label))
  starts : ∀ label, r.starts label = (r.tasks.map Task.badge).count (label, true)

/-! ## Reading the history -/

theorem history_log (label : Option String) (event : Event) (r : Run) :
    (r.log label event).history = r.history ++ [{ time := r.now, label, event }] := by
  simp [history, log]

theorem history_congr {r r' : Run} (h : r'.trace = r.trace) : r'.history = r.history := by
  unfold history
  rw [h]

theorem attempts_log (label : Option String) (event : Event) (r : Run) :
    (r.log label event).attempts = r.attempts ++ event.attempt?.toList := by
  unfold attempts
  rw [history_log, List.filterMap_append]
  cases h : event.attempt? <;> simp [h]

theorem roster_log (label : Option String) (event : Event) (r : Run) :
    (r.log label event).roster = r.roster ++ event.admission?.toList := by
  unfold roster
  rw [history_log, List.filterMap_append]
  cases h : event.admission? <;> simp [h]

theorem starts_log (label who : Option String) (event : Event) (r : Run) :
    (r.log who event).starts label =
      r.starts label + if who = label ∧ event.isStart = true then 1 else 0 := by
  unfold starts
  rw [history_log, List.countP_append, List.countP_singleton]
  simp

theorem roster_congr {r r' : Run} (h : r'.trace = r.trace) : r'.roster = r.roster := by
  unfold roster
  rw [history_congr h]

theorem starts_congr {r r' : Run} (h : r'.trace = r.trace) (label : Option String) :
    r'.starts label = r.starts label := by
  unfold starts
  rw [history_congr h]

theorem admission?_of_attempt? {e : Event} (h : e.attempt? = none) : e.admission? = none := by
  unfold Event.admission?
  rw [h]

theorem roster_eq_attempts (r : Run) : r.roster =
    r.attempts.filterMap fun (o, v) => if v = .admitted then some o else none := by
  unfold roster attempts
  rw [List.filterMap_filterMap]
  refine List.filterMap_congr fun e _ => ?_
  unfold Event.admission?
  cases e.event.attempt? with
  | none => rfl
  | some a =>
    obtain ⟨o, v⟩ := a
    cases v <;> rfl

theorem roster_concat {r r' : Run} {o : Origin} {v : Verdict}
    (h : r'.attempts = r.attempts ++ [(o, v)]) :
    r'.roster = r.roster ++ if v = .admitted then [o] else [] := by
  rw [roster_eq_attempts, roster_eq_attempts, h, List.filterMap_append]
  cases v <;> rfl

theorem roster_of_attempts {r r' : Run} (h : r'.attempts = r.attempts) : r'.roster = r.roster := by
  rw [roster_eq_attempts, roster_eq_attempts, h]

/-- Nobody on the roster changes his place. -/
theorem getElem?_grown {os new : List Origin} {p : Nat} {o : Origin} (h : os[p]? = some o) :
    (os ++ new)[p]? = some o := by
  rw [List.getElem?_append_left (List.getElem?_eq_some_iff.mp h).1, h]

/-- Whoever is on a longer roster was there before or has come since. -/
theorem getElem?_grown_cases {os new : List Origin} {p : Nat} {o : Origin}
    (h : (os ++ new)[p]? = some o) :
    os[p]? = some o ∨ os.length ≤ p ∧ new[p - os.length]? = some o := by
  rcases Nat.lt_or_ge p os.length with old | later
  · exact .inl ((List.getElem?_append_left old).symm.trans h)
  · exact .inr ⟨later, (List.getElem?_append_right later).symm.trans h⟩

/-! ## Badges -/

theorem map_modify_same {β : Type} {g : Task → β} {ts : List Task} {id : Nat} {f : Task → Task}
    (h : ∀ t, ts[id]? = some t → g (f t) = g t) : (ts.modify id f).map g = ts.map g := by
  refine List.ext_getElem? fun j => ?_
  rw [List.getElem?_map, List.getElem?_map, List.getElem?_modify]
  by_cases hj : id = j
  · subst hj
    cases ht : ts[id]? with
    | none => rfl
    | some t => simp [h t ht]
  · simp [hj]

theorem badges_wake {p : Task → Bool} (hp : ∀ t, p t = true → t.begun = true) (r : Run) :
    (r.wake p).tasks.map Task.badge = r.tasks.map Task.badge := by
  show (r.tasks.map _).map Task.badge = _
  rw [List.map_map]
  refine List.map_congr_left fun t _ => ?_
  dsimp only [Function.comp]
  split
  · next h =>
    exact Task.badge_congr rfl (hp t h).symm
  · rfl

theorem begun_of_endsOnCancel {t : Task} (h : t.endsOnCancel = true) : t.begun = true := by
  unfold Task.endsOnCancel at h
  unfold Task.begun
  split at h <;> simp_all

theorem begun_of_alarm {t : Task} {u : Nat} (h : t.alarm?.any (· ≤ u) = true) :
    t.begun = true := by
  unfold Task.alarm? at h
  unfold Task.begun
  split at h <;> simp_all

theorem badges_book (b : Supervisor) (r : Run) :
    (r.book b).tasks.map Task.badge = r.tasks.map Task.badge := by
  unfold book
  dsimp only
  split
  · exact badges_wake (fun _ => begun_of_endsOnCancel) _
  · rfl

/-- The names can be read off the badges. -/
theorem labels_eq (ts : List Task) : ts.map (·.label) = (ts.map Task.badge).map (·.1) := by
  rw [List.map_map]
  rfl

/-- The roster is right as long as badges, admissions and starts are the same. -/
theorem Enrolled.congr {r r' : Run} (h : Enrolled r) (roster : r'.roster = r.roster)
    (starts : ∀ label, r'.starts label = r.starts label)
    (badges : r'.tasks.map Task.badge = r.tasks.map Task.badge) : Enrolled r' where
  roster := by
    rw [roster, labels_eq, badges, ← labels_eq]
    exact h.roster
  starts label := by
    rw [starts, badges]
    exact h.starts label

theorem Enrolled.of_trace {r r' : Run} (h : Enrolled r) (trace : r'.trace = r.trace)
    (badges : r'.tasks.map Task.badge = r.tasks.map Task.badge) : Enrolled r' :=
  h.congr (roster_congr trace) (starts_congr trace) badges

/-- An entry that neither admits nor starts anybody. -/
theorem Enrolled.log {r : Run} (h : Enrolled r) (label : Option String) (event : Event)
    (admission : event.admission? = none) (start : event.isStart = false) :
    Enrolled (r.log label event) := by
  refine h.congr ?_ (fun who => ?_) rfl
  · rw [roster_log, admission, Option.toList_none, List.append_nil]
  · rw [starts_log, start]
    simp

/-- The first turn of a body changes its badge, and the history tells. -/
theorem count_badge_begins {ts : List Task} {id : Nat} {t : Task} (found : ts[id]? = some t)
    (fresh : t.stage = .fresh) (label : Option String) :
    ((ts.modify id fun t => { t with stage := .running }).map Task.badge).count (label, true) =
      (ts.map Task.badge).count (label, true) + if t.label = label then 1 else 0 := by
  induction ts generalizing id with
  | nil => simp at found
  | cons a ts ih =>
    cases id with
    | zero =>
      obtain rfl : a = t := by simpa using found
      simp [Task.badge, Task.begun, fresh, List.count_cons]
    | succ id =>
      have there : ts[id]? = some t := by simpa using found
      have later := ih there
      rw [List.modify_succ_cons, List.map_cons, List.map_cons, List.count_cons, List.count_cons,
        later]
      omega

/-! ## The invariant -/

theorem Enrolled.change {r r' : Run} (hc : Change r r') (h : Enrolled r) : Enrolled r' := by
  cases hc with
  | aside books tasks queue trace now => exact h.of_trace trace (by rw [tasks])
  | notes label passing =>
    obtain ⟨-, attempt, start⟩ := Event.passing_spec passing
    exact h.log label _ (admission?_of_attempt? attempt) start
  | edits id kept named =>
    refine h.of_trace rfl (map_modify_same fun t _ => Task.badge_congr (named t) ?_)
    unfold Task.begun
    rw [kept]
  | @begins id t found fresh =>
    refine ⟨?_, fun label => ?_⟩
    · rw [roster_log]
      show List.Forall₂ _ (r.roster ++ []) ((r.tasks.modify id _).map (·.label))
      have same : (r.tasks.modify id fun t => { t with stage := .running }).map (·.label) =
          r.tasks.map (·.label) := map_modify_same fun _ _ => rfl
      rw [List.append_nil, same]
      exact h.roster
    · rw [starts_log]
      show r.starts label + _ = ((r.tasks.modify id _).map Task.badge).count (label, true)
      rw [count_badge_begins found fresh, h.starts label]
      simp [Event.isStart]
  | sleeps turn until_ endsOnCancel wakes ahead =>
    refine h.of_trace rfl (map_modify_same fun t ht => ?_)
    obtain ⟨-, t', ht', -, begun⟩ := turn
    obtain rfl := Option.some.inj (ht'.symm.trans ht)
    exact Task.badge_congr rfl begun.symm
  | @ends id turn label ending =>
    refine (h.log label (.ended ending) rfl rfl).of_trace ?_ ?_
    · simp [Run.finish, endTurn, Run.change]
    · show (book _ _).tasks.map Task.badge = r.tasks.map Task.badge
      rw [badges_book]
      refine map_modify_same fun t ht => ?_
      obtain ⟨-, t', ht', -, begun⟩ := turn
      obtain rfl := Option.some.inj (ht'.symm.trans ht)
      exact Task.badge_congr rfl begun.symm
  | skips idle => exact h.of_trace rfl rfl
  | cancels => exact h.of_trace (book_trace _ r) (badges_book _ r)
  | @admits task fresh label event o attempt names hv =>
    obtain ⟨books, -, -, he⟩ := enlist_eq_of_admitted hv
    have admission : event.admission? = some o := by
      unfold Event.admission?
      rw [attempt]
    rw [he]
    refine ⟨?_, fun who => ?_⟩
    · rw [roster_log, admission]
      show List.Forall₂ _ (r.roster ++ [o]) ((r.tasks ++ [task]).map (·.label))
      rw [List.map_append]
      exact List.rel_append h.roster (.cons names .nil)
    · rw [starts_log, (Event.quiet_of_admitted attempt).2]
      show r.starts who + _ = ((r.tasks ++ [task]).map Task.badge).count (who, true)
      rw [List.map_append, List.count_append, h.starts who]
      simp [Task.badge, Task.begun, fresh]
  | @refuses task n label event o attempt hv =>
    obtain ⟨-, he⟩ := enlist_eq_of_refused hv
    have admission : event.admission? = none := by
      unfold Event.admission?
      rw [attempt]
    rw [he]
    exact (h.of_trace (book_trace _ r) (badges_book _ r)).log label _ admission
      (Event.refusal?_of_attempt? attempt).2
  | rings t => exact h.of_trace rfl (badges_wake (fun _ => begun_of_alarm) r)
  | favours hid => exact h.of_trace rfl rfl

/-- As many bodies as were admitted. -/
theorem Enrolled.length {r : Run} (h : Enrolled r) : r.roster.length = r.tasks.length := by
  rw [h.roster.length_eq, List.length_map]

/-- No more bodies of a name have started than there are. -/
theorem Enrolled.starts_le {r : Run} (h : Enrolled r) (label : Option String) :
    r.starts label ≤ r.tasks.countP (·.label = label) := by
  rw [h.starts label, List.count, List.countP_map]
  refine List.countP_mono_left fun t _ ht => ?_
  simp [Task.badge] at ht
  simp [ht.1]

end Run

end PingWatch
