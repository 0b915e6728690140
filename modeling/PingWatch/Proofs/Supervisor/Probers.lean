import PingWatch.Proofs.Supervisor.Loops

/-!
# Probers under one supervisor

All listeners are probers.  The supervisor never runs out of work, for a loop ends only over a
cancellation or over a load that fails; so it returns only over one of the two.

* `Unlimited`: what is known of every run that listens without a limit.
* `Run.Loops`: the invariant of every run whose listeners are probers, under every schedule.
* `first_failed_load`: the step at which a load first fails; nothing is set from there on.
* `loops_under_supervisor`: what the supervisor returns, and when settings are made.
-/

namespace PingWatch

namespace Run

/-- The parent is cancelled at `cancelAt`: that is still to come, or it has come and has cancelled
the run.  No signal interferes. -/
structure Clocked (cancelAt : Option Nat) (r : Run) : Prop where
  silent : r.raised = false ∧ r.signalled = false
  parent : r.parentCancelled = false ∧ r.cancelAt = cancelAt ∧
      (∀ c, cancelAt = some c → r.now < c) ∨
    r.parentCancelled = true ∧ r.cancelAt = none ∧ r.books.cancelled = true ∧
      ∃ c, cancelAt = some c ∧ c ≤ r.now

/-- All listeners left are probers, and until the supervisor drains, somebody has been scheduled or
is still to be. -/
structure Staffed (r : Run) : Prop where
  left : ∀ l ∈ r.phase.left, l.Loops
  someone : r.Active → r.tasks ≠ [] ∨ r.phase.left ≠ []

/-- What holds of every run whose listeners are probers. -/
structure Loops (cancelAt : Option Nat) (r : Run) : Prop where
  bodies : ∀ t ∈ r.tasks, t.Loops r.books.cancelled
  staffed : r.Staffed
  clocked : r.Clocked cancelAt
  /-- Nobody cancels but a failure or the parent. -/
  why : r.books.cancelled = true → r.books.latched ≠ none ∨ r.parentCancelled = true

/-- What is known of every run that listens without a limit. -/
structure Unlimited (r : Run) : Prop where
  lives : Lives true r
  latch : Latch r
  limit : r.books.limit = none

theorem Unlimited.of_reaches {listeners : List Listener} {cancelAt : Option Nat} {r : Run}
    (reached : Reaches (idle.listen listeners cancelAt) r) : Unlimited r := by
  have fresh : Supervisor.setLimit none {} = .ok {} := rfl
  have unlimited := (listen_start fresh listeners cancelAt).2.2.2.2.2
  exact ⟨(Lives.idle.next (.listens listeners cancelAt _)).reaches reached,
    reached.changes.keep Latch.change (latch_start fresh listeners cancelAt),
    reached.changes.keep Change.limit unlimited⟩

theorem Unlimited.step {r r' : Run} (h : Unlimited r) (s : Step r r') : Unlimited r' :=
  ⟨h.lives.next (.steps s), s.changes.keep Latch.change h.latch, s.changes.keep Change.limit h.limit⟩

/-- Without a limit, what is latched is the failure of a body. -/
theorem Unlimited.latched_iff {r : Run} (h : Unlimited r) :
    ((∃ t ∈ r.tasks, ∃ f, t.stage = .ended (.failed f)) ↔ r.books.latched ≠ none) ∧
      ∀ f, r.books.latched = some f → ∃ t ∈ r.tasks, t.stage = .ended (.failed f) := by
  have body : ∀ f, r.books.latched = some f → ∃ t ∈ r.tasks, t.stage = .ended (.failed f) := by
    intro f latched
    obtain ⟨e, he, fails⟩ := List.exists_of_findSome?_eq_some (h.latch.first.symm.trans latched)
    rcases Event.failure?_cases fails with ended | ⟨n, refused⟩
    · have mem : Ending.failed f ∈ r.endings :=
        h.latch.endings.mem_iff.mpr (List.mem_filterMap.mpr ⟨e, he, ended⟩)
      obtain ⟨t, ht, ended⟩ := List.mem_filterMap.mp mem
      refine ⟨t, ht, ?_⟩
      unfold Task.ending? at ended
      split at ended <;> simp_all
    · exact absurd (h.limit.symm.trans (h.latch.refusals e he n refused)) (by simp)
  refine ⟨⟨fun failed => ?_, fun latched => ?_⟩, body⟩
  · obtain ⟨f, first⟩ := h.latch.failed_iff.mpr (.inl failed)
    rw [h.latch.first, first]
    simp
  · obtain ⟨f, latched⟩ := Option.ne_none_iff_exists'.mp latched
    obtain ⟨t, ht, ended⟩ := body f latched
    exact ⟨t, ht, f, ended⟩

theorem Loops.start {listeners : List Listener} (some_ : listeners ≠ [])
    (probers : ∀ l ∈ listeners, l.Loops) (cancelAt : Option Nat) :
    (idle.listen listeners cancelAt).Loops cancelAt := by
  have fresh : Supervisor.setLimit none {} = .ok {} := rfl
  have phase : (idle.listen listeners cancelAt).phase = .starting 0 listeners := listen_phase ..
  have tasks : (idle.listen listeners cancelAt).tasks = [] :=
    (listen_start fresh listeners cancelAt).1
  have bodies : ∀ t ∈ (idle.listen listeners cancelAt).tasks,
      t.Loops (idle.listen listeners cancelAt).books.cancelled := by
    rw [tasks]
    exact fun t ht => absurd ht List.not_mem_nil
  have left : (idle.listen listeners cancelAt).phase.left = listeners := by
    rw [phase]
    rfl
  have staffed : (idle.listen listeners cancelAt).Staffed := by
    refine ⟨?_, fun _ => .inr ?_⟩
    · rw [left]
      exact probers
    · rw [left]
      exact some_
  rcases cancelAt with _ | _ | c
  · exact ⟨bodies, staffed, ⟨⟨rfl, rfl⟩, .inl ⟨rfl, rfl, by simp⟩⟩,
      fun cancelled => absurd cancelled Bool.false_ne_true⟩
  · exact ⟨bodies, staffed, ⟨⟨rfl, rfl⟩, .inr ⟨rfl, rfl, rfl, 0, rfl, Nat.le_refl 0⟩⟩,
      fun _ => .inr rfl⟩
  · refine ⟨bodies, staffed, ⟨⟨rfl, rfl⟩, .inl ⟨rfl, rfl, ?_⟩⟩,
      fun cancelled => absurd cancelled Bool.false_ne_true⟩
    rintro _ ⟨⟩
    exact Nat.succ_pos c

/-- Either time passes the cancellation of the parent, and that cancels the run, or it does not. -/
theorem passTo_parent (t : Nat) (r : Run) :
    (r.passTo t).now = max r.now t ∧ (r.passTo t).raised = r.raised ∧
      (r.passTo t).signalled = r.signalled ∧
      ((∃ u, r.cancelAt = some u ∧ u ≤ t ∧ (r.passTo t).parentCancelled = true ∧
          (r.passTo t).cancelAt = none ∧ (r.passTo t).books.cancelled = true) ∨
        (∀ u, r.cancelAt = some u → t < u) ∧ (r.passTo t).parentCancelled = r.parentCancelled ∧
          (r.passTo t).cancelAt = r.cancelAt ∧ (r.passTo t).books = r.books) := by
  unfold passTo
  dsimp only
  split
  · next due =>
    have due : r.cancelAt.any (· ≤ t) = true := due
    obtain ⟨now, cancelAt, parent, raised, signalled⟩ := outside_eq
      (outside_book ({ r with now := max r.now t }.wake fun task =>
        task.alarm?.any (· ≤ t)).books.cancel _)
    refine ⟨now, raised, signalled, .inl ?_⟩
    cases hu : r.cancelAt with
    | none => exact absurd (hu ▸ due) (by simp)
    | some u =>
      rw [hu] at due
      exact ⟨u, rfl, by simpa using due, rfl, rfl, by simp [Supervisor.cancel]⟩
  · next early =>
    have early : ¬ r.cancelAt.any (· ≤ t) = true := early
    refine ⟨rfl, rfl, rfl, .inr ⟨fun u hu => ?_, rfl, rfl, rfl⟩⟩
    rw [hu] at early
    simpa using early

/-- A supervisor that looks for work has somebody to look after. -/
theorem Staffed.at_look {r : Run} (h : r.Staffed) (looks : r.Looks) : r.tasks ≠ [] := by
  have at_ : r.Active ∧ r.phase.left = [] := by
    rcases looks with ⟨index, at_⟩ | ⟨tick, at_, -⟩
    · exact ⟨⟨by simp [at_], by simp [at_]⟩, by rw [at_]; rfl⟩
    · exact ⟨⟨by simp [at_], by simp [at_]⟩, by rw [at_]; rfl⟩
  rcases h.someone at_.1 with some_ | some_
  · exact some_
  · exact absurd at_.2 some_

/-- An uncancelled supervisor has work: no loop has ended. -/
theorem Loops.busy {cancelAt : Option Nat} {r : Run} (h : r.Loops cancelAt) (known : Unlimited r)
    (uncancelled : r.books.cancelled = false) (looks : r.Looks) : r.running ≠ 0 := by
  intro idle
  obtain ⟨t, ht⟩ := List.exists_mem_of_ne_nil _ (h.staffed.at_look looks)
  obtain ⟨ending, ended⟩ := ended_of_running idle t ht
  have gone : t.ending? ≠ none := by simp [Task.ending?, ended]
  cases h.bodies t ht with
  | unbegun work permits open_ => exact gone open_
  | going work permits open_ goes loaded => exact gone open_
  | stopped work ended loaded after => exact absurd (uncancelled.symm.trans after) (by simp)
  | failed work loads fails loaded ended =>
    have latched := known.latched_iff.1.mp ⟨t, ht, _, ended⟩
    exact latched (known.lives.heeded.latched_eq_none uncancelled)

/-- Nobody cancels an uncancelled run of loops but a failure or the parent. -/
theorem Loops.cancelled_by {cancelAt : Option Nat} {r r' : Run} (h : r.Loops cancelAt)
    (known : Unlimited r) (s : Step r r') (before : r.books.cancelled = false)
    (after : r'.books.cancelled = true) :
    r'.books.latched ≠ none ∨ r'.parentCancelled = true := by
  cases Run.cancelled_by known.lives.sound known.lives.heeded s before after with
  | failure before after => exact .inl after
  | @body id t rest turn found work =>
    -- a prober runs no script
    cases h.bodies t (List.mem_of_getElem? found) with
    | unbegun work' | going work' | stopped work' | failed work' =>
      exact absurd (work.symm.trans work') (by simp)
  | @parent u t due past passes =>
    obtain ⟨-, -, -, ⟨-, -, -, cancelled, -⟩ | ⟨ahead, -⟩⟩ := passTo_parent t r
    · exact .inr (passes ▸ cancelled)
    · have := ahead u due
      omega
  | signal arrived moves => exact absurd (h.clocked.silent.2.symm.trans arrived) (by simp)
  | noWork looks idle moves => exact absurd idle (h.busy known before looks)

theorem Clocked.of_outside {cancelAt : Option Nat} {r r' : Run} (h : r.Clocked cancelAt)
    (outside : r'.outside = r.outside)
    (later : r.books.cancelled = true → r'.books.cancelled = true) : r'.Clocked cancelAt := by
  obtain ⟨now, cut, parent, raised, signalled⟩ := outside_eq outside
  refine ⟨?_, ?_⟩
  · rw [raised, signalled]
    exact h.silent
  · rw [now, cut, parent]
    exact h.parent.imp_right fun ⟨reached, gone, cancelled, past⟩ =>
      ⟨reached, gone, later cancelled, past⟩

theorem Clocked.passTo {cancelAt : Option Nat} {r : Run} (h : r.Clocked cancelAt) (t : Nat) :
    (r.passTo t).Clocked cancelAt := by
  obtain ⟨now, raised, signalled, passed⟩ := passTo_parent t r
  refine ⟨?_, ?_⟩
  · rw [raised, signalled]
    exact h.silent
  rcases passed with ⟨u, due, past, parent, gone, cancelled⟩ | ⟨early, parent, cut, books⟩
  · rcases h.parent with ⟨-, at_, -⟩ | ⟨-, none_, -⟩
    · exact .inr ⟨parent, gone, cancelled, u, at_.symm.trans due, by omega⟩
    · exact absurd (none_.symm.trans due) (by simp)
  · rcases h.parent with ⟨pending, at_, ahead⟩ | ⟨reached, gone, cancelled, c, at_, past⟩
    · refine .inl ⟨parent.trans pending, cut.trans at_, fun c hc => ?_⟩
      have before := ahead c hc
      have after := early c (at_.trans hc)
      omega
    · exact .inr ⟨parent.trans reached, cut.trans gone, books ▸ cancelled, c, at_, by omega⟩

/-- Without signals, nothing from outside comes in but the passing of time. -/
theorem Step.outside_or_passes {r r' : Run} (bodies : ∀ t ∈ r.tasks, t.Loops r.books.cancelled)
    (silent : r.raised = false) (s : Step r r') :
    r'.outside = r.outside ∨ ∃ t, r' = r.passTo t := by
  cases s with
  | @turn id turn => exact .inl (stepTask_onward (r := r.favour id) bodies id).2
  | move moves => exact .inl (move?_move moves).aside.1
  | signal raised => exact absurd (silent.symm.trans raised) (by simp)
  | pass t => exact .inr ⟨t, rfl⟩

theorem Clocked.step {cancelAt : Option Nat} {r r' : Run} (h : r.Clocked cancelAt)
    (bodies : ∀ t ∈ r.tasks, t.Loops r.books.cancelled) (s : Step r r') : r'.Clocked cancelAt := by
  rcases s.outside_or_passes bodies h.silent.1 with same | ⟨t, rfl⟩
  · exact h.of_outside same s.cancelled
  · exact h.passTo t

/-- A cancelled parent stays so. -/
theorem Step.parentCancelled {r r' : Run} (bodies : ∀ t ∈ r.tasks, t.Loops r.books.cancelled)
    (silent : r.raised = false) (s : Step r r') (parent : r.parentCancelled = true) :
    r'.parentCancelled = true := by
  rcases s.outside_or_passes bodies silent with same | ⟨t, rfl⟩
  · exact (outside_eq same).2.2.1.trans parent
  · obtain ⟨-, -, -, ⟨-, -, -, reached, -⟩ | ⟨-, stays, -⟩⟩ := passTo_parent t r
    · exact reached
    · exact stays.trans parent

theorem Staffed.step {r r' : Run} (h : r.Staffed) (lives : Lives true r) (s : Step r r') :
    r'.Staffed := by
  rcases s.beside_or_move with beside | move
  · -- nobody who has been scheduled is forgotten
    have grown : r.tasks ≠ [] → r'.tasks ≠ [] := by
      intro some_
      obtain ⟨new, roster, -⟩ := beside.roster
      have before := lives.enrolled.length
      have after := (lives.next (.steps s)).enrolled.length
      have somebody := List.length_pos_iff.mpr some_
      rw [roster, List.length_append] at after
      exact List.length_pos_iff.mp (by omega)
    have same := beside.phase
    refine ⟨?_, fun active => ?_⟩
    · rw [same]
      exact h.left
    · unfold Active at active
      rw [same] at active ⊢
      exact (h.someone active).imp grown id
  · cases move with
    | leaves | heeds | closes | givesUp | returns =>
      refine ⟨fun l hl => absurd hl List.not_mem_nil, fun active => ?_⟩
      exact absurd active (by simp [Active])
    | looksOn looks =>
      exact ⟨fun l hl => absurd hl List.not_mem_nil, fun _ => .inl (h.at_look looks)⟩
    | @goesOn id index left at_ uncancelled ready =>
      have placed : r.phase.left = left := by
        rw [at_]
        rfl
      have active : r.Active := ⟨by simp [at_], by simp [at_]⟩
      refine ⟨fun l hl => h.left l (placed ▸ hl), fun _ => ?_⟩
      have someone := h.someone active
      rw [placed] at someone
      exact someone
    | @starts index l left at_ uncancelled admitted =>
      obtain ⟨books, -, -, enlisted⟩ := enlist_eq_of_admitted admitted
      have placed : r.phase.left = l :: left := by
        rw [at_]
        rfl
      refine ⟨fun l' hl' => h.left l' ?_, fun _ => .inl ?_⟩
      · rw [placed]
        refine List.mem_cons_of_mem _ ?_
        dsimp only at hl'
        split at hl' <;> exact hl'
      · show (r.enlist l.body).2.tasks ≠ []
        rw [enlisted]
        simp

theorem Loops.step {cancelAt : Option Nat} {r r' : Run} (h : r.Loops cancelAt)
    (known : Unlimited r) (s : Step r r') : r'.Loops cancelAt := by
  have onward := s.onward h.bodies h.staffed.left known.limit
  have clocked := h.clocked.step h.bodies s
  refine ⟨onward.bodies, h.staffed.step known.lives s, clocked, fun cancelled => ?_⟩
  cases before : r.books.cancelled with
  | false => exact h.cancelled_by known s before cancelled
  | true =>
    rcases h.why before with latched | parent
    · left
      obtain ⟨f, latched⟩ := Option.ne_none_iff_exists'.mp latched
      rw [s.changes.keep Change.latched latched]
      simp
    · exact .inr (s.parentCancelled h.bodies h.clocked.silent.1 parent)

/-- Whatever the schedule, a run whose listeners are probers is a run of loops. -/
theorem Loops.of_reaches {listeners : List Listener} (some_ : listeners ≠ [])
    (probers : ∀ l ∈ listeners, l.Loops) {cancelAt : Option Nat} {r : Run}
    (reached : Reaches (idle.listen listeners cancelAt) r) : r.Loops cancelAt := by
  induction reached with
  | refl => exact .start some_ probers cancelAt
  | next before going s ih => exact ih.step (.of_reaches before) s

/-! ## Failed loads -/

theorem Loops.failedLoad_iff {cancelAt : Option Nat} {r : Run} (h : r.Loops cancelAt)
    {f : Failure} : r.FailedLoad f ↔ ∃ t ∈ r.tasks, t.stage = .ended (.failed f) := by
  constructor
  · rintro ⟨t, ht, failed⟩
    exact ⟨t, ht, (h.bodies t ht).failedLoad_iff.mp failed⟩
  · rintro ⟨t, ht, ended⟩
    exact ⟨t, ht, (h.bodies t ht).failedLoad_iff.mpr ended⟩

/-- What is latched is a failed load, and a failed load is latched unless another one is: neither
checks nor anything else that a prober does is a failure. -/
theorem Loops.latched_iff {cancelAt : Option Nat} {r : Run} (h : r.Loops cancelAt)
    (known : Unlimited r) :
    ((∃ f, r.FailedLoad f) ↔ r.books.latched ≠ none) ∧
      ∀ f, r.books.latched = some f → r.FailedLoad f := by
  refine ⟨?_, fun f latched => h.failedLoad_iff.mpr (known.latched_iff.2 f latched)⟩
  rw [← known.latched_iff.1]
  constructor
  · rintro ⟨f, failed⟩
    obtain ⟨t, ht, ended⟩ := h.failedLoad_iff.mp failed
    exact ⟨t, ht, f, ended⟩
  · rintro ⟨t, ht, f, ended⟩
    exact ⟨f, h.failedLoad_iff.mpr ⟨t, ht, ended⟩⟩

theorem Loops.unlatched {cancelAt : Option Nat} {r : Run} (h : r.Loops cancelAt)
    (known : Unlimited r) (none_ : ∀ f, ¬ r.FailedLoad f) : r.books.latched = none := by
  by_contra latched
  obtain ⟨f, failed⟩ := (h.latched_iff known).1.mpr latched
  exact none_ f failed

/-- A cancelled run sets nothing, and no load of it fails any more. -/
theorem Loops.calm {cancelAt : Option Nat} {r r' : Run} (h : r.Loops cancelAt)
    (known : Unlimited r) (cancelled : r.books.cancelled = true) (reached : Reaches r r') :
    r'.settings = r.settings ∧ ∀ f, r'.FailedLoad f → r.FailedLoad f := by
  suffices r'.Loops cancelAt ∧ Unlimited r' ∧ r'.books.cancelled = true ∧
      r'.settings = r.settings ∧ ∀ f, r'.FailedLoad f → r.FailedLoad f by
    exact this.2.2.2
  induction reached with
  | refl => exact ⟨h, known, cancelled, rfl, fun f failed => failed⟩
  | @next r₁ r₂ before going s ih =>
    obtain ⟨h₁, known₁, cancelled₁, settings, old⟩ := ih
    have onward := s.onward h₁.bodies h₁.staffed.left known₁.limit
    have h₂ := h₁.step known₁ s
    refine ⟨h₂, known₁.step s, s.cancelled cancelled₁, ?_, fun f failed => old f ?_⟩
    · rcases onward.sets with same | ⟨uncancelled, -⟩
      · exact same.trans settings
      · exact absurd (uncancelled.symm.trans cancelled₁) (by simp)
    · obtain ⟨t, ht, ended⟩ := h₂.failedLoad_iff.mp failed
      rcases onward.fails t ht f ended with before | ⟨uncancelled, -⟩
      · exact h₁.failedLoad_iff.mpr before
      · exact absurd (uncancelled.symm.trans cancelled₁) (by simp)

theorem iterate_step_reaches (n : Nat) (r : Run) : Reaches r (step^[n] r) := by
  induction n with
  | zero => exact .refl
  | succ n ih =>
    rw [Function.iterate_succ_apply']
    exact ih.trans (step_reaches _)

/-- If a load has failed, there was a step at which the first one did; it is latched from then on,
and nothing has been set since that step began. -/
theorem first_failed_load {listeners : List Listener} (some_ : listeners ≠ [])
    (probers : ∀ l ∈ listeners, l.Loops) {cancelAt : Option Nat} {r : Run}
    (reached : Reaches (idle.listen listeners cancelAt) r) (fails : ∃ f, r.FailedLoad f) :
    ∃ r₁ r₂ f, Reaches (idle.listen listeners cancelAt) r₁ ∧ Step r₁ r₂ ∧ Reaches r₂ r ∧
      (∀ g, ¬ r₁.FailedLoad g) ∧ (∀ g, r₂.FailedLoad g ↔ g = f) ∧
      r.books.latched = some f ∧ r.settings = r₁.settings := by
  induction reached with
  | refl =>
    -- nobody has been scheduled yet
    obtain ⟨f, t, ht, -⟩ := fails
    have fresh : Supervisor.setLimit none {} = .ok {} := rfl
    have tasks : (idle.listen listeners cancelAt).tasks = [] :=
      (listen_start fresh listeners cancelAt).1
    rw [tasks] at ht
    exact absurd ht List.not_mem_nil
  | @next r r' before going s ih =>
    have h := Loops.of_reaches some_ probers before
    have known := Unlimited.of_reaches before
    have h' := h.step known s
    have known' := Unlimited.of_reaches (before.next going s)
    -- either the first failure lies behind already, and the run is calm, or it is in this step
    by_cases earlier : ∃ f, r.FailedLoad f
    · obtain ⟨r₁, r₂, f, reached₁, first, reached₂, none_, one, latched, settings⟩ := ih earlier
      have cancelled : r.books.cancelled = true := known.lives.heeded.cancelled (by rw [latched]; simp)
      have calm := h.calm known cancelled (.next .refl going s)
      exact ⟨r₁, r₂, f, reached₁, first, reached₂.next going s, none_, one,
        s.changes.keep Change.latched latched, calm.1.trans settings⟩
    · have none_ : ∀ g, ¬ r.FailedLoad g := fun g failed => earlier ⟨g, failed⟩
      have unlatched := h.unlatched known none_
      have onward := s.onward h.bodies h.staffed.left known.limit
      have latches : ∀ g, r'.FailedLoad g → r'.books.latched = some g := by
        intro g failed
        obtain ⟨t, ht, ended⟩ := h'.failedLoad_iff.mp failed
        rcases onward.fails t ht g ended with old | ⟨-, latched⟩
        · exact absurd (h.failedLoad_iff.mpr old) (none_ g)
        · rw [latched, unlatched, Option.none_or]
      obtain ⟨f, failed⟩ := fails
      have latched := latches f failed
      refine ⟨r, r', f, before, s, .refl, none_, fun g => ⟨fun failed' => ?_, ?_⟩, latched, ?_⟩
      · exact Option.some.inj ((latches g failed').symm.trans latched)
      · rintro rfl
        exact failed
      · rcases onward.sets with same | ⟨-, books⟩
        · exact same
        · rw [books, unlatched] at latched
          exact absurd latched (by simp)

/-! ## The return -/

theorem result?_of_returned {r : Run} (returned : r.hasReturned = true) :
    r.result? = some (match r.books.latched with | some f => .error f | none => .ok ()) := by
  unfold result?
  rw [if_pos returned]
  cases r.books.latched <;> rfl

/-- Once a failure is latched, the supervisor is to return it. -/
theorem returns_latched {r : Run} (known : Unlimited r) {f : Failure}
    (latched : r.books.latched = some f) :
    (r.hasReturned = true → r.result? = some (.error f)) ∧
      ∃ n, (step^[n] r).result? = some (.error f) := by
  have cancelled : r.books.cancelled = true := known.lives.heeded.cancelled (by rw [latched]; simp)
  obtain ⟨n, -, returned⟩ := returns known.lives.sound cancelled
  have later : (step^[n] r).books.latched = some f :=
    (iterate_step_changes n r).keep Change.latched latched
  constructor
  · intro returned
    rw [result?_of_returned returned, latched]
  · refine ⟨n, ?_⟩
    rw [result?_of_returned returned, later]

section Reached

variable {listeners : List Listener} {cancelAt : Option Nat} {r : Run}

/-- Unless a load has failed, the supervisor returns over the cancellation of the parent only. -/
theorem returns_over_parent (some_ : listeners ≠ []) (probers : ∀ l ∈ listeners, l.Loops)
    (reached : Reaches (idle.listen listeners cancelAt) r) (none_ : ∀ f, ¬ r.FailedLoad f)
    (returned : r.hasReturned = true) : r.parentCancelled = true ∧ r.result? = some (.ok ()) := by
  have h := Loops.of_reaches some_ probers reached
  have unlatched := h.unlatched (.of_reaches reached) none_
  have closing := Closing.of_reaches Lives.idle listeners cancelAt reached
  have cancelled : r.books.cancelled = true := by
    apply closing.cancelled
    intro active
    exact active.2 (phase_of_hasReturned returned)
  refine ⟨(h.why cancelled).resolve_left fun latched => latched unlatched, ?_⟩
  rw [result?_of_returned returned, unlatched]

/-- Once the parent is cancelled and unless a load has failed, the supervisor is to return well. -/
theorem returns_after_parent (some_ : listeners ≠ []) (probers : ∀ l ∈ listeners, l.Loops)
    (reached : Reaches (idle.listen listeners cancelAt) r) (none_ : ∀ f, ¬ r.FailedLoad f)
    (parent : r.parentCancelled = true) : ∃ n, (step^[n] r).result? = some (.ok ()) := by
  have h := Loops.of_reaches some_ probers reached
  have known := Unlimited.of_reaches reached
  have cancelled : r.books.cancelled = true := by
    rcases h.clocked.parent with ⟨pending, -⟩ | ⟨-, -, cancelled, -⟩
    · exact absurd (pending.symm.trans parent) (by simp)
    · exact cancelled
  obtain ⟨n, -, returned⟩ := returns known.lives.sound cancelled
  have onwards := iterate_step_reaches n r
  have calm := h.calm known cancelled onwards
  have none_' : ∀ f, ¬ (step^[n] r).FailedLoad f := fun f failed => none_ f (calm.2 f failed)
  exact ⟨n, (returns_over_parent some_ probers (reached.trans onwards) none_' returned).2⟩

/-- Settings are made before any load has failed, and before the parent is cancelled. -/
theorem Loops.sets_early {r' : Run} (h : r.Loops cancelAt) (known : Unlimited r) (s : Step r r')
    (sets : r'.settings ≠ r.settings) :
    (∀ f, ¬ r'.FailedLoad f) ∧ ∀ c, cancelAt = some c → r'.now < c := by
  have h' := h.step known s
  rcases (s.onward h.bodies h.staffed.left known.limit).sets with same | ⟨uncancelled, books⟩
  · exact absurd same sets
  · have unlatched : r'.books.latched = none := by
      rw [books]
      exact known.lives.heeded.latched_eq_none uncancelled
    refine ⟨fun f failed => (h'.latched_iff (known.step s)).1.mp ⟨f, failed⟩ unlatched, ?_⟩
    rcases h'.clocked.parent with ⟨-, -, ahead⟩ | ⟨-, -, cancelled, -⟩
    · exact ahead
    · rw [books] at cancelled
      exact absurd (uncancelled.symm.trans cancelled) (by simp)

end Reached

/-- **Loops under a supervisor.**  Take any probers with any loaders and checks, at least one of
them, and any schedule without signals.  If a load has failed, the supervisor returns the failure of
the first one, and nothing has been set since.  Unless one has, it returns only after the parent is
cancelled, and returns well, whatever the checks come to.  Once the parent is cancelled, or a load
has failed, it does return.  Settings are made only before the first failed load, and before the
time at which the parent is cancelled. -/
theorem loops_under_supervisor {listeners : List Listener} (some_ : listeners ≠ [])
    (probers : ∀ l ∈ listeners, l.Loops) (cancelAt : Option Nat) {r : Run}
    (reached : Reaches (idle.listen listeners cancelAt) r) :
    ((∃ f, r.FailedLoad f) → ∃ r₁ r₂ f,
      Reaches (idle.listen listeners cancelAt) r₁ ∧ Step r₁ r₂ ∧ Reaches r₂ r ∧
      (∀ g, ¬ r₁.FailedLoad g) ∧ (∀ g, r₂.FailedLoad g ↔ g = f) ∧
      (∃ t ∈ r₂.tasks, ∃ q, t.work = .loop q ∧ ∃ k < q.loads, ∃ cause,
        q.probing.load k = .error cause ∧
        f = .caused (cause.under s!"Failed to load {q.probing.scope.probe} targets")) ∧
      r.settings = r₁.settings ∧ (r.hasReturned = true → r.result? = some (.error f)) ∧
      ∃ n, (step^[n] r).result? = some (.error f)) ∧
    ((∀ f, ¬ r.FailedLoad f) →
      (r.hasReturned = true → r.parentCancelled = true ∧ r.result? = some (.ok ())) ∧
      (r.parentCancelled = true → ∃ n, (step^[n] r).result? = some (.ok ()))) ∧
    (r.parentCancelled = true ↔ ∃ c, cancelAt = some c ∧ c ≤ r.now) ∧
    ∀ r', Step r r' → r'.settings ≠ r.settings →
      (∀ f, ¬ r'.FailedLoad f) ∧ ∀ c, cancelAt = some c → r'.now < c := by
  have h := Loops.of_reaches some_ probers reached
  have known := Unlimited.of_reaches reached
  refine ⟨fun fails => ?_, fun none_ => ⟨?_, ?_⟩, ?_, fun r' s => h.sets_early known s⟩
  · obtain ⟨r₁, r₂, f, reached₁, first, reached₂, none_, one, latched, settings⟩ :=
      first_failed_load some_ probers reached fails
    exact ⟨r₁, r₂, f, reached₁, first, reached₂, none_, one, (one f).mpr rfl, settings,
      returns_latched known latched⟩
  · exact returns_over_parent some_ probers reached none_
  · exact returns_after_parent some_ probers reached none_
  · rcases h.clocked.parent with ⟨pending, -, ahead⟩ | ⟨parent, -, -, past⟩
    · refine ⟨fun parent => absurd (pending.symm.trans parent) (by simp), ?_⟩
      rintro ⟨c, at_, past⟩
      have := ahead c at_
      omega
    · exact ⟨fun _ => past, fun _ => parent⟩

/-- Lookups of a single target every five milliseconds, whose checks panic.  Load `n` fails. -/
def brittle (n : Nat) : Probing where
  scope := ⟨"dns", "here"⟩
  kind := .lookup
  settings := { interval := .ofMillis 5, concurrency := 1 }
  load k := if k = n then .error (.ofText "no such file") else .ok ["a"]
  check _ _ _ := { delay? := some 1, ending := .panic "boom" }

/-- Two of them: the second load of one fails, and the ninth of the other. -/
def pair : List Listener := [.prober (brittle 1) true, .prober (brittle 8) false]

/-- The supervisor returns the first of the failed loads, over which nothing is set any more;
cancelled before, it returns well in spite of the panics. -/
theorem pair_returns_the_first :
    (∃ r₁ r₂ f, Reaches (idle.listen pair none) r₁ ∧ Step r₁ r₂ ∧ (∀ g, ¬ r₁.FailedLoad g) ∧
      (∀ g, r₂.FailedLoad g ↔ g = f) ∧ (idle.complete pair none 100).settings = r₁.settings ∧
      (idle.complete pair none 100).result? = some (.error f) ∧
      f = .caused ((Cause.ofText "no such file").under "Failed to load dns targets")) ∧
    (idle.complete pair (some 4) 100).parentCancelled = true ∧
      (idle.complete pair (some 4) 100).result? = some (.ok ()) := by
  have some_ : pair ≠ [] := by simp [pair]
  have probers : ∀ l ∈ pair, l.Loops := by
    intro l hl
    rcases List.mem_cons.mp hl with rfl | hl
    · exact ⟨brittle 1, true, rfl, by decide⟩
    · obtain rfl := List.mem_singleton.mp hl
      exact ⟨brittle 8, false, rfl, by decide⟩
  have failed_iff : ∀ cancelAt, (∃ f, (idle.complete pair cancelAt 100).FailedLoad f) ↔
      (idle.complete pair cancelAt 100).books.latched ≠ none := by
    intro cancelAt
    have reached := complete_reaches pair cancelAt 100 idle
    exact ((Loops.of_reaches some_ probers reached).latched_iff (.of_reaches reached)).1
  constructor
  · have latched : (idle.complete pair none 100).books.latched =
        some (.caused ((brittle 1).loadFailure (.ofText "no such file"))) := by rfl
    have fails := (failed_iff none).mpr (by rw [latched]; simp)
    obtain ⟨r₁, r₂, f, reached, first, -, none_, one, -, settings, result, -⟩ :=
      (loops_under_supervisor some_ probers none (complete_reaches pair none 100 idle)).1 fails
    have returned : (idle.complete pair none 100).result? = some (.error f) := result (by rfl)
    have error := (result?_of_returned (by rfl)).symm.trans returned
    rw [latched] at error
    exact ⟨r₁, r₂, f, reached, first, none_, one, settings, returned,
      (Except.error.inj (Option.some.inj error)).symm⟩
  · have latched : (idle.complete pair (some 4) 100).books.latched = none := by rfl
    have none_ : ∀ f, ¬ (idle.complete pair (some 4) 100).FailedLoad f :=
      fun f failed => (failed_iff (some 4)).mp ⟨f, failed⟩ latched
    exact ((loops_under_supervisor some_ probers (some 4)
      (complete_reaches pair (some 4) 100 idle)).2.1 none_).1 (by rfl)

end Run

end PingWatch
