import Mathlib.Logic.Relation
import PingWatch.Proofs.Supervisor.Books

/-!
# The elementary changes of a supervised run

`Change` lists what can happen to a run at once: a body starts, sleeps or ends, an admission is
granted or refused, the supervisor is cancelled, an alarm rings, or something happens that books,
bodies, queue and trace do not show.

* `stepTask_changes`, `move?_changes`, `passTo_changes`: every step is made of such changes.
* `Reaches.changes`: so is every run.
-/

namespace PingWatch

/-- A loop that has been cancelled does not go on. -/
theorem Prober.turn_cancelled (p : Prober) (now : Nat) :
    (p.turn now true).1.state = .stopped ∨ ∃ why, (p.turn now true).1.state = .broken why := by
  unfold Prober.turn
  cases h : p.state with
  | pausing t => exact .inl rfl
  | cycling c => exact .inl rfl
  | stopped => exact .inl h
  | broken why => exact .inr ⟨why, h⟩

namespace Run

/-! ## Elementary changes -/

/-- One elementary change of a run. -/
inductive Change (r : Run) : Run → Prop
  /-- Something that books, bodies, queue and trace do not show; the clock may have moved on. -/
  | aside {r' : Run} (books : r'.books = r.books) (tasks : r'.tasks = r.tasks)
    (queue : r'.queue = r.queue) (trace : r'.trace = r.trace) (now : r.now ≤ r'.now) : Change r r'
  | notes (label : Option String) {event : Event} (passing : event.passing = true) :
    Change r (r.log label event)
  /-- The body `id` changes, but not where it stands and not its name. -/
  | edits (id : Nat) {f : Task → Task} (kept : ∀ t, (f t).stage = t.stage)
    (named : ∀ t, (f t).label = t.label) : Change r (r.change id f)
  | begins {id : Nat} {t : Task} (found : r.tasks[id]? = some t) (fresh : t.stage = .fresh) :
    Change r ((r.change id fun t => { t with stage := .running }).log t.label .started)
  /-- Nobody sleeps without something to wake him, or for a cancellation that is past. -/
  | sleeps {id : Nat} (turn : r.AtTurn id) (until_ : Option Nat) (endsOnCancel : Bool)
    (wakes : until_ = none → endsOnCancel = true)
    (ahead : endsOnCancel = true → r.books.cancelled = false) :
    Change r (r.sleep id until_ endsOnCancel)
  | ends {id : Nat} (turn : r.AtTurn id) (label : Option String) (ending : Ending) :
    Change r (r.finish id label ending)
  | skips (h : ∀ id t, r.queue.head? = some id → r.tasks[id]? = some t → t.ready = false) :
    Change r r.endTurn
  | cancels : Change r (r.book r.books.cancel)
  | admits {task : Task} (fresh : task.stage = .fresh) (label : Option String) {event : Event}
    {o : Origin} (attempt : event.attempt? = some (o, .admitted)) (names : o.Names task.label)
    (h : (r.enlist task).1 = .admitted) : Change r ((r.enlist task).2.log label event)
  | refuses {task : Task} {n : Nat} (label : Option String) {event : Event} {o : Origin}
    (attempt : event.attempt? = some (o, .refused n)) (h : (r.enlist task).1 = .refused n) :
    Change r ((r.enlist task).2.log label event)
  | rings (t : Nat) : Change r (r.wake fun task => task.alarm?.any (· ≤ t))
  | favours {id : Nat} (h : id ∈ r.queue) : Change r (r.favour id)

/-- Elementary changes one after the other. -/
abbrev Changes : Run → Run → Prop := Relation.ReflTransGen Change

theorem Change.once {r r' : Run} (h : Change r r') : Changes r r' := .single h

/-- What every elementary change keeps, all of them together keep. -/
theorem Changes.keep {P : Run → Prop} (hP : ∀ {r r' : Run}, Change r r' → P r → P r')
    {r r' : Run} (h : Changes r r') (hr : P r) : P r' := by
  induction h with
  | refl => exact hr
  | tail _ hc ih => exact hP hc ih

/-! ## Steps are made of elementary changes -/

/-- Scheduling a body, with the entry that reports it. -/
theorem enlist_change (task : Task) {o : Origin} (fresh : task.stage = .fresh)
    (names : o.Names task.label) (label : Option String) (event : Verdict → Event)
    (attempts : ∀ v, (event v).attempt? = some (o, v)) (r : Run) :
    Change r ((r.enlist task).2.log label (event (r.enlist task).1)) := by
  cases h : (r.enlist task).1 with
  | admitted => exact .admits fresh label (attempts .admitted) names h
  | refused n => exact .refuses label (attempts (.refused n)) h

theorem AtTurn.of_refused {id : Nat} {r : Run} {task : Task} {n : Nat} (h : r.AtTurn id)
    (hv : (r.enlist task).1 = .refused n) : (r.enlist task).2.AtTurn id := by
  unfold Run.enlist at hv ⊢
  split at hv
  · exact absurd hv (by simp)
  · exact h.book _

theorem moveOn_change (id : Nat) (rest : List Action) (r : Run) : Change r (r.moveOn id rest) :=
  .edits id (fun _ => rfl) fun _ => rfl

theorem AtTurn.moveOn {id : Nat} {r : Run} (h : r.AtTurn id) (rest : List Action) :
    (r.moveOn id rest).AtTurn id :=
  h.change fun _ => rfl

/-- One action of a script. -/
theorem act_changes {id : Nat} {r : Run} (h : r.AtTurn id) (label : Option String)
    (rest : List Action) (a : Action) : Changes r (r.act id label rest a) := by
  have on := (moveOn_change id rest r).once
  cases a with
  | sleep millis =>
    unfold act
    dsimp only
    split
    · exact on
    · exact on.tail (.sleeps (h.moveOn rest) _ _ (by simp) (by simp))
  | note text => exact on.tail (.notes label rfl)
  | ready =>
    have said : Changes r ((r.moveOn id rest).change id fun t => { t with awaited := false }) :=
      on.tail (.edits id (fun _ => rfl) fun _ => rfl)
    exact said.tail (.notes label rfl)
  | wait =>
    unfold act
    dsimp only
    split
    · exact on.tail (.notes label rfl)
    · next hc => exact .single (.sleeps h _ _ (fun _ => rfl) fun _ => by simpa using hc)
  | cancel => exact (on.tail (.notes label rfl)).tail .cancels
  | fail failure => exact .single (.ends h label _)
  | panic text => exact .single (.ends h label _)
  | raise signal =>
    exact (on.tail (.notes label rfl)).tail (.aside rfl rfl rfl rfl (Nat.le_refl _))
  | schedule name steps propagate =>
    have said := on.tail (enlist_change (o := .subtask name)
      { label := some name, work := .script steps } rfl rfl label (.scheduled name)
      (fun _ => rfl) _)
    unfold act
    dsimp only
    split
    · next n hv =>
      refine said.tail (.ends ?_ label _)
      exact (AtTurn.of_refused (h.moveOn rest) hv).congr rfl rfl
    · exact said

/-- What is done one thing after the other is done by changes, if each thing is. -/
theorem foldl_changes {α : Type} {f : Run → α → Run}
    (hf : ∀ r a, Change r (f r a) ∧ (f r a).books = r.books ∧ (f r a).queue = r.queue ∧
      (f r a).tasks = r.tasks) (as : List α) (r : Run) :
    Changes r (as.foldl f r) ∧ (as.foldl f r).books = r.books ∧
      (as.foldl f r).queue = r.queue ∧ (as.foldl f r).tasks = r.tasks := by
  induction as generalizing r with
  | nil => exact ⟨.refl, rfl, rfl, rfl⟩
  | cons a as ih =>
    obtain ⟨hc, hb, hq, ht⟩ := hf r a
    obtain ⟨ihc, ihb, ihq, iht⟩ := ih (f r a)
    exact ⟨.head hc ihc, ihb.trans hb, ihq.trans hq, iht.trans ht⟩

/-- One turn of a probe loop. -/
theorem turnLoop_changes {id : Nat} {r : Run} (h : r.AtTurn id) (label : Option String)
    (p : Prober) : Changes r (r.turnLoop id label p) := by
  unfold turnLoop
  have stops : r.books.cancelled = true → (p.turn r.now r.books.cancelled).1.state = .stopped ∨
      ∃ why, (p.turn r.now r.books.cancelled).1.state = .broken why := by
    intro hc
    rw [hc]
    exact p.turn_cancelled r.now
  revert stops
  generalize p.turn r.now r.books.cancelled = turned
  obtain ⟨p, doings⟩ := turned
  intro stops
  dsimp only at stops ⊢
  obtain ⟨r₁, hr₁⟩ : ∃ r₁, r₁ = r.change id fun t => { t with work := .loop p } := ⟨_, rfl⟩
  rw [← hr₁]
  have h₁ : r₁.AtTurn id := hr₁ ▸ h.change fun _ => rfl
  have edit : Changes r r₁ := hr₁ ▸ .single (.edits id (fun _ => rfl) fun _ => rfl)
  generalize hr₂ : doings.foldl _ r₁ = r₂
  obtain ⟨done, hb, hq, ht⟩ : Changes r₁ r₂ ∧ r₂.books = r₁.books ∧ r₂.queue = r₁.queue ∧
      r₂.tasks = r₁.tasks := by
    rw [← hr₂]
    refine foldl_changes (fun r d => ?_) doings r₁
    cases d with
    | checks target => exact ⟨.notes label rfl, rfl, rfl, rfl⟩
    | sets s => exact ⟨.aside rfl rfl rfl rfl (Nat.le_refl _), rfl, rfl, rfl⟩
  have h₂ : r₂.AtTurn id := h₁.congr hq ht
  have soFar : Changes r r₂ := edit.trans done
  -- a loop that goes on has not been cancelled
  have ahead : ∀ {s : LoopState}, p.state = s → s ≠ .stopped → (∀ why, s ≠ .broken why) →
      r₂.books.cancelled = false := by
    intro s hs hstop hbroke
    rw [hb, hr₁]
    cases hc : r.books.cancelled with
    | false => exact hc
    | true =>
      rcases stops hc with hs' | ⟨why, hs'⟩
      · exact absurd (hs.symm.trans hs') hstop
      · exact absurd (hs.symm.trans hs') (hbroke why)
  cases hs : p.state with
  | stopped => exact soFar.tail (.ends h₂ label _)
  | broken why => cases why <;> exact soFar.tail (.ends h₂ label _)
  | pausing t =>
    exact soFar.tail (.sleeps h₂ _ _ (fun _ => rfl) fun _ => ahead hs (by simp) (by simp))
  | cycling c =>
    exact soFar.tail (.sleeps h₂ _ _ (fun _ => rfl) fun _ => ahead hs (by simp) (by simp))

/-- The turn of a body. -/
theorem stepTask_changes {id : Nat} {r : Run} (h : r.queue.head? = some id) :
    Changes r (r.stepTask id) := by
  unfold stepTask
  split
  · next hn =>
    refine .single (.skips fun j t hj ht => ?_)
    rw [Option.some.inj (hj.symm.trans h), hn] at ht
    exact absurd ht (by simp)
  · next t ht =>
    split
    · next hs => exact .single (.begins ht hs)
    · next e hs =>
      refine .single (.skips fun j t' hj ht' => ?_)
      rw [Option.some.inj (hj.symm.trans h), ht] at ht'
      obtain rfl := Option.some.inj ht'
      simp [Task.ready, hs]
    all_goals
      next hs =>
      have turn : r.AtTurn id := ⟨h, t, ht, by simp [Task.ending?, hs], by simp [Task.begun, hs]⟩
      split
      · exact .single (.ends turn _ _)
      · exact act_changes turn _ _ _
      · exact .single (.edits id (fun _ => rfl) fun _ => rfl)
      · exact turnLoop_changes turn _ _

theorem phase_change (r : Run) (phase : Phase) : Change r { r with phase } :=
  .aside rfl rfl rfl rfl (Nat.le_refl _)

theorem cancel_changes (r : Run) (phase : Phase) :
    Changes r { r.book r.books.cancel with phase } :=
  Change.cancels.once.tail (phase_change _ phase)

theorem startNext_changes (index : Nat) (r : Run) (left : List Listener) :
    Changes r (r.startNext index left) := by
  cases left with
  | nil =>
    simp only [startNext, settleDown]
    split
    · exact (phase_change r _).once
    · split
      · exact cancel_changes r _
      · exact (phase_change r _).once
  | cons l left =>
    simp only [startNext]
    split
    · exact (phase_change r _).once
    · have said := (enlist_change (o := .listener index)
        { label := l.label, work := l.work, awaited := l.readyRequired } rfl trivial none
        (.listener index) (fun _ => rfl) r).once
      split
      · exact said.tail (phase_change _ _)
      · split
        · exact said.tail (phase_change _ _)
        · exact said.tail (phase_change _ _)

/-- The move of the supervisor. -/
theorem move?_changes {r r' : Run} (h : r.move? = some r') : Changes r r' := by
  unfold move? at h
  split at h
  · exact Option.some.inj h ▸ startNext_changes _ r _
  · repeat' split at h
    · exact Option.some.inj h ▸ (phase_change r _).once
    · exact Option.some.inj h ▸ cancel_changes r _
    · exact absurd h (by simp)
    · exact Option.some.inj h ▸ (phase_change r _).once
  · repeat' split at h
    · exact Option.some.inj h ▸ (phase_change r _).once
    · exact Option.some.inj h ▸ cancel_changes r _
    · exact Option.some.inj h ▸ cancel_changes r _
    · exact Option.some.inj h ▸ (phase_change r _).once
    · exact absurd h (by simp)
  · split at h
    · exact Option.some.inj h ▸ (phase_change r _).once
    · exact absurd h (by simp)
  · exact absurd h (by simp)

/-- The passing of time. -/
theorem passTo_changes (t : Nat) (r : Run) : Changes r (r.passTo t) := by
  have later : Change r { r with now := max r.now t } :=
    .aside rfl rfl rfl rfl (Nat.le_max_left _ _)
  have rung : Changes r ({ r with now := max r.now t }.wake fun task => task.alarm?.any (· ≤ t)) :=
    later.once.tail (.rings t)
  unfold passTo
  dsimp only
  split
  · exact (rung.tail .cancels).tail (.aside rfl rfl rfl rfl (Nat.le_refl _))
  · exact rung

theorem Step.changes {r r' : Run} (h : Step r r') : Changes r r' := by
  cases h with
  | turn h => exact .head (.favours h) (stepTask_changes rfl)
  | move h => exact move?_changes h
  | signal h => exact .single (.aside rfl rfl rfl rfl (Nat.le_refl _))
  | pass t => exact passTo_changes t r

/-- Whatever the schedule, a run is made of elementary changes. -/
theorem Reaches.changes {r₀ r : Run} (h : Reaches r₀ r) : Changes r₀ r := by
  induction h with
  | refl => exact .refl
  | next _ _ s ih => exact ih.trans s.changes

end Run

end PingWatch
