import Mathlib.Algebra.GroupWithZero.Nat
import Mathlib.Logic.Function.Iterate
import PingWatch.Proofs.Supervisor.Queue
import PingWatch.Proofs.Supervisor.Report

/-!
# A cancelled run returns

Once the supervisor is cancelled every body comes to its end: a script has finitely many actions and
no longer waits, and a probe loop stops when it is woken.  `toil` counts what is left to do; each
step of a cancelled run lowers it (`toil_step_lt`), so the supervisor returns (`returns`).
-/

namespace PingWatch

/-! ## What is left to do -/

/-- The things left to do in a body's work. -/
def Work.toil : Work → Nat
  | .script steps => Action.sizeAll steps
  | .probing _ => 2
  | .loop _ => 1

/-- The moves left to a body.  An action may put the body to sleep, schedule another, or raise a
signal, and pays for the moves that follow from it. -/
def Task.toil (t : Task) : Nat :=
  match t.stage with
  | .fresh | .asleep .. => 4 * t.work.toil + 2
  | .running => 4 * t.work.toil + 1
  | .ended _ => 0

/-- The moves left to a cancelled supervisor. -/
def Phase.toil : Phase → Nat
  | .starting .. | .awaiting .. | .steady _ => 2
  | .draining => 1
  | .returned => 0

namespace Run

/-- The moves left to a cancelled run. -/
def toil (r : Run) : Nat :=
  (r.tasks.map Task.toil).sum + r.phase.toil + r.raised.toNat + r.cancelAt.toList.length

theorem sum_toil_modify {ts : List Task} {id : Nat} {t : Task} {f : Task → Task}
    (ht : ts[id]? = some t) :
    ((ts.modify id f).map Task.toil).sum + t.toil = (ts.map Task.toil).sum + (f t).toil := by
  induction ts generalizing id with
  | nil => simp at ht
  | cons a ts ih =>
    cases id with
    | zero =>
      obtain rfl : a = t := by simpa using ht
      simp
      omega
    | succ id =>
      have later : ts[id]? = some t := by simpa using ht
      have ih' := ih later
      rw [List.modify_succ_cons, List.map_cons, List.sum_cons, List.map_cons, List.sum_cons]
      omega

theorem toil_change {r : Run} {id : Nat} {t : Task} {f : Task → Task}
    (ht : r.tasks[id]? = some t) : (r.change id f).toil + t.toil = r.toil + (f t).toil := by
  have := sum_toil_modify (f := f) ht
  unfold toil change
  dsimp only
  omega

@[simp] theorem toil_log (label : Option String) (event : Event) (r : Run) :
    (r.log label event).toil = r.toil := rfl

@[simp] theorem toil_endTurn (r : Run) : r.endTurn.toil = r.toil := rfl

/-- Books that cancel nothing new leave as much to do. -/
theorem toil_book {b : Supervisor} {r : Run} (h : b.cancelled = r.books.cancelled) :
    (r.book b).toil = r.toil := by
  rw [book_of_cancelled_eq h]
  rfl

theorem getElem?_change_self {r : Run} {id : Nat} {t : Task} {f : Task → Task}
    (ht : r.tasks[id]? = some t) : (r.change id f).tasks[id]? = some (f t) := by
  simp [change, ht]

/-! ## Bodies of a cancelled run -/

theorem toil_sleep {r : Run} {id : Nat} {t : Task} (ht : r.tasks[id]? = some t)
    (until_ : Option Nat) (endsOnCancel : Bool) :
    (r.sleep id until_ endsOnCancel).toil + t.toil = r.toil + (4 * t.work.toil + 2) :=
  toil_change ht

theorem toil_finish {r : Run} {id : Nat} {t : Task} (ht : r.tasks[id]? = some t)
    (cancelled : r.books.cancelled = true) (label : Option String) (ending : Ending) :
    (r.finish id label ending).toil + t.toil = r.toil := by
  have kept : (r.books.finish ending).cancelled = r.books.cancelled := by
    cases ending with
    | well => rfl
    | failed f => simp [(Supervisor.finish_failed f _).2, Supervisor.cancelled_failed, cancelled]
  unfold finish
  dsimp only
  rw [toil_endTurn, toil_book]
  · exact toil_change (r := r.log label (.ended ending)) (f := fun t =>
      { t with stage := .ended ending, awaited := false }) ht
  · exact kept

theorem toil_running {t : Task} (h : t.stage = .running) : t.toil = 4 * t.work.toil + 1 := by
  unfold Task.toil
  rw [h]

theorem toil_finish_lt {r : Run} {id : Nat} {t : Task} (ht : r.tasks[id]? = some t)
    (running : t.stage = .running) (cancelled : r.books.cancelled = true) (label : Option String)
    (ending : Ending) : (r.finish id label ending).toil < r.toil := by
  have := toil_finish ht cancelled label ending
  rw [toil_running running] at this
  omega

/-- Scheduling a script from a cancelled body. -/
theorem toil_enlist_le {r : Run} (cancelled : r.books.cancelled = true) (label : Option String)
    (steps : List Action) :
    (r.enlist { label, work := .script steps }).2.toil ≤ r.toil + (4 * Action.sizeAll steps + 2) := by
  cases hv : (r.enlist { label, work := .script steps }).1 with
  | admitted =>
    obtain ⟨books, -, -, he⟩ := enlist_eq_of_admitted hv
    rw [he]
    unfold toil
    dsimp only
    rw [List.map_append, List.sum_append]
    simp [Task.toil, Work.toil]
    omega
  | refused n =>
    obtain ⟨-, he⟩ := enlist_eq_of_refused hv
    rw [he, toil_book (by simp [Supervisor.cancelled_failed, cancelled])]
    omega

theorem enlist_refused_frame {r : Run} {task : Task} {n : Nat}
    (cancelled : r.books.cancelled = true) (hv : (r.enlist task).1 = .refused n) :
    (r.enlist task).2.tasks = r.tasks ∧ (r.enlist task).2.toil = r.toil ∧
      (r.enlist task).2.books.cancelled = true := by
  obtain ⟨-, he⟩ := enlist_eq_of_refused hv
  rw [he, book_of_cancelled_eq (by simp [Supervisor.cancelled_failed, cancelled])]
  exact ⟨rfl, rfl, by simp [Supervisor.cancelled_failed, cancelled]⟩

/-- Every action of a body of a cancelled run is progress. -/
theorem toil_act_lt {r : Run} {id : Nat} {t : Task} {a : Action} {rest : List Action}
    (ht : r.tasks[id]? = some t) (running : t.stage = .running)
    (work : t.work = .script (a :: rest)) (cancelled : r.books.cancelled = true)
    (label : Option String) : (r.act id label rest a).toil < r.toil := by
  have moved := toil_change (f := fun t => { t with work := .script rest }) ht
  have ht' := getElem?_change_self (f := fun t => { t with work := .script rest }) ht
  have before : t.toil = 4 * (a.size + Action.sizeAll rest) + 1 := by
    rw [toil_running running, work]
    rfl
  have after : Task.toil { t with work := .script rest } = 4 * Action.sizeAll rest + 1 :=
    toil_running running
  rw [before, after] at moved
  change (r.moveOn id rest).toil + _ = _ at moved
  change (r.moveOn id rest).tasks[id]? = _ at ht'
  have positive : 0 < a.size := by cases a <;> simp only [Action.size] <;> omega
  cases a with
  | sleep millis =>
    unfold act
    dsimp only
    split
    · omega
    · have slept := toil_sleep ht' (some (r.now + millis)) false
      rw [after] at slept
      simp only [Work.toil] at slept
      omega
  | note text =>
    show (r.moveOn id rest).toil < r.toil
    omega
  | ready =>
    have readied := toil_change (f := fun t => { t with awaited := false }) ht'
    have same : Task.toil { t with work := .script rest, awaited := false } =
        4 * Action.sizeAll rest + 1 := toil_running running
    rw [after, same] at readied
    show ((r.moveOn id rest).change id _).toil < r.toil
    omega
  | wait =>
    unfold act
    dsimp only
    rw [if_pos cancelled, toil_log]
    omega
  | cancel =>
    have kept : r.books.cancel.cancelled = r.books.cancelled := cancelled.symm
    show (((r.moveOn id rest).log label .cancelled).book r.books.cancel).toil < r.toil
    rw [toil_book, toil_log]
    · omega
    · exact kept
  | fail failure => exact toil_finish_lt ht running cancelled label _
  | panic text => exact toil_finish_lt ht running cancelled label _
  | raise signal =>
    have raised : ({ (r.moveOn id rest).log label (.raised signal) with raised := true } : Run).toil ≤
        (r.moveOn id rest).toil + 1 := by
      unfold toil
      simp [log]
      omega
    show Run.toil { (r.moveOn id rest).log label (.raised signal) with raised := true } < r.toil
    omega
  | schedule name steps propagate =>
    have paid := toil_enlist_le (r := r.moveOn id rest) cancelled (some name) steps
    have size : (Action.schedule name steps propagate).size = 1 + Action.sizeAll steps := by
      simp [Action.size]
    have spared : ∀ n ending, ((r.moveOn id rest).enlist
        { label := some name, work := .script steps }).1 = .refused n →
        ((((r.moveOn id rest).enlist { label := some name, work := .script steps }).2.log label
          (.scheduled name (.refused n))).finish id label ending).toil < r.toil := by
      intro n ending hv
      obtain ⟨tasks, same, still⟩ := enlist_refused_frame (r := r.moveOn id rest) cancelled hv
      revert tasks same still
      generalize ((r.moveOn id rest).enlist { label := some name, work := .script steps }).2 = on
      intro tasks same still
      rw [← tasks] at ht'
      have ended := toil_finish_lt (r := on.log label (.scheduled name (.refused n))) ht' running
        still label ending
      rw [toil_log, same] at ended
      omega
    unfold act
    dsimp only
    split
    · next n hv =>
      have done := spared n (.failed (.tooManyTasks n)) hv
      rw [hv]
      exact done
    · rw [toil_log]
      omega

/-- A loop that is given a turn after the cancellation ends. -/
theorem toil_turnLoop_lt {r : Run} {id : Nat} {t : Task} {p : Prober}
    (ht : r.tasks[id]? = some t) (running : t.stage = .running) (work : t.work = .loop p)
    (cancelled : r.books.cancelled = true) (label : Option String) :
    (r.turnLoop id label p).toil < r.toil := by
  unfold turnLoop
  rw [cancelled]
  have stops := p.turn_cancelled r.now
  revert stops
  generalize p.turn r.now true = turned
  obtain ⟨p', doings⟩ := turned
  intro stops
  dsimp only at stops ⊢
  have moved := toil_change (f := fun t => { t with work := .loop p' }) ht
  have ht' := getElem?_change_self (f := fun t => { t with work := .loop p' }) ht
  have same : Task.toil { t with work := .loop p' } = t.toil := by
    rw [toil_running running, toil_running (t := { t with work := .loop p' }) running, work]
    rfl
  rw [same] at moved
  generalize hr₂ : doings.foldl _ _ = r₂
  obtain ⟨tasks, toils, still⟩ : r₂.tasks = (r.change id fun t => { t with work := .loop p' }).tasks ∧
      r₂.toil = (r.change id fun t => { t with work := .loop p' }).toil ∧
      r₂.books.cancelled = true := by
    rw [← hr₂]
    refine List.foldlRecOn doings _ (motive := fun r₂ : Run =>
      r₂.tasks = (r.change id fun t => { t with work := .loop p' }).tasks ∧
      r₂.toil = (r.change id fun t => { t with work := .loop p' }).toil ∧
      r₂.books.cancelled = true) ⟨rfl, rfl, cancelled⟩ fun r₂ h d _ => ?_
    cases d with
    | checks target => exact h
    | sets s => exact h
  rw [← tasks] at ht'
  have ended : ∀ ending, (r₂.finish id label ending).toil < r.toil := by
    intro ending
    refine Nat.lt_of_lt_of_le (toil_finish_lt ht' running still label ending) ?_
    omega
  rcases stops with hs | ⟨why, hs⟩
  · rw [hs]
    exact ended _
  · rw [hs]
    cases why <;> exact ended _

/-- Every turn in a cancelled run is progress. -/
theorem toil_stepTask_lt {r : Run} {id : Nat} {t : Task} (ht : r.tasks[id]? = some t)
    (ready : t.ready = true) (cancelled : r.books.cancelled = true) :
    (r.stepTask id).toil < r.toil := by
  unfold stepTask
  rw [ht]
  dsimp only
  cases hs : t.stage with
  | fresh =>
    dsimp only
    have started := toil_change (f := fun t => { t with stage := .running }) ht
    have before : t.toil = 4 * t.work.toil + 2 := by unfold Task.toil; rw [hs]
    have after : Task.toil { t with stage := .running } = 4 * t.work.toil + 1 := rfl
    rw [before, after] at started
    rw [toil_log]
    omega
  | running =>
    dsimp only
    cases hw : t.work with
    | script steps =>
      cases steps with
      | nil => exact toil_finish_lt ht hs cancelled _ _
      | cons a rest => exact toil_act_lt ht hs hw cancelled _
    | probing p =>
      dsimp only
      have begun := toil_change
        (f := fun t => { t with work := .loop (.start p r.now), awaited := false }) ht
      have before : t.toil = 9 := by rw [toil_running hs, hw]; rfl
      have after : Task.toil { t with work := .loop (.start p r.now), awaited := false } = 5 :=
        toil_running hs
      rw [before, after] at begun
      omega
    | loop p => exact toil_turnLoop_lt ht hs hw cancelled _
  | asleep u b => simp [Task.ready, hs] at ready
  | ended e => simp [Task.ready, hs] at ready

/-! ## The supervisor and the clock -/

/-- A cancelled supervisor that moves is nearer to its return. -/
theorem toil_move_lt {r r' : Run} (cancelled : r.books.cancelled = true)
    (h : r.move? = some r') : r'.toil < r.toil := by
  have drains : ∀ phase, r.phase = phase → phase.toil = 2 →
      Run.toil { r with phase := .draining } < r.toil := by
    intro phase hp two
    unfold toil
    rw [hp, two]
    simp [Phase.toil]
  unfold move? at h
  split at h
  · next index left hp =>
    have next : r.startNext index left = { r with phase := .draining } := by
      cases left <;> simp [startNext, settleDown, cancelled]
    rw [← Option.some.inj h, next]
    exact drains _ hp rfl
  · next id index left hp =>
    rw [if_pos cancelled] at h
    exact Option.some.inj h ▸ drains _ hp rfl
  · next tick hp =>
    rw [if_pos cancelled] at h
    exact Option.some.inj h ▸ drains _ hp rfl
  · next hp =>
    split at h
    · rw [← Option.some.inj h]
      unfold toil
      rw [hp]
      simp [Phase.toil]
    · exact absurd h (by simp)
  · exact absurd h (by simp)

/-- A cancelled supervisor that cannot move waits for its bodies. -/
theorem draining_of_stuck {r : Run} (cancelled : r.books.cancelled = true)
    (going : r.hasReturned = false) (h : r.move? = none) :
    r.phase = .draining ∧ r.books.unfinished ≠ 0 := by
  unfold move? at h
  split at h
  · exact absurd h (by simp)
  · rw [if_pos cancelled] at h
    exact absurd h (by simp)
  · rw [if_pos cancelled] at h
    exact absurd h (by simp)
  · next hp =>
    split at h
    · exact absurd h (by simp)
    · next hu => exact ⟨hp, hu⟩
  · next hp => simp [hasReturned, hp] at going

theorem sooner_eq_some {a b : Option Nat} {t : Nat} (h : sooner a b = some t) :
    a = some t ∨ b = some t := by
  unfold sooner at h
  split at h
  · next x y =>
    have := Option.some.inj h
    rcases Nat.le_total x y with hxy | hxy
    · exact .inl (by rw [← this, Nat.min_eq_left hxy])
    · exact .inr (by rw [← this, Nat.min_eq_right hxy])
  · exact .inl h
  · exact .inr h

theorem sooner_eq_none {a b : Option Nat} (h : sooner a b = none) : a = none ∧ b = none := by
  cases a <;> cases b <;> simp_all [sooner]

/-- The soonest of several times is one of them. -/
theorem foldl_sooner_eq_some {ts : List Task} {a : Option Nat} {t : Nat}
    (h : ts.foldl (fun s x => sooner s x.alarm?) a = some t) :
    a = some t ∨ ∃ x ∈ ts, x.alarm? = some t := by
  induction ts generalizing a with
  | nil => exact .inl h
  | cons x ts ih =>
    rcases ih h with hs | ⟨y, hy, ht⟩
    · rcases sooner_eq_some hs with ha | hx
      · exact .inl ha
      · exact .inr ⟨x, List.mem_cons_self, hx⟩
    · exact .inr ⟨y, List.mem_cons_of_mem x hy, ht⟩

theorem foldl_sooner_eq_none {ts : List Task} {a : Option Nat}
    (h : ts.foldl (fun s x => sooner s x.alarm?) a = none) :
    a = none ∧ ∀ x ∈ ts, x.alarm? = none := by
  induction ts generalizing a with
  | nil => exact ⟨h, by simp⟩
  | cons x ts ih =>
    obtain ⟨hs, rest⟩ := ih h
    obtain ⟨ha, hx⟩ := sooner_eq_none hs
    exact ⟨ha, by simpa [hx] using rest⟩

/-- Waking costs a body one of its moves. -/
theorem toil_woken {t : Task} {now : Nat} (h : t.alarm?.any (· ≤ now) = true) :
    Task.toil { t with stage := .running } + 1 = t.toil := by
  unfold Task.alarm? at h
  split at h
  · next u b hs =>
    have awake : Task.toil { t with stage := .running } = 4 * t.work.toil + 1 := rfl
    rw [awake]
    unfold Task.toil
    rw [hs]
  · simp at h

theorem sum_toil_rings_le (now : Nat) (ts : List Task) :
    ((ts.map fun t => if t.alarm?.any (· ≤ now) = true then { t with stage := .running } else t).map
      Task.toil).sum ≤ (ts.map Task.toil).sum := by
  induction ts with
  | nil => exact Nat.le_refl _
  | cons x ts ih =>
    simp only [List.map_cons, List.sum_cons]
    split
    · next hx =>
      have := toil_woken hx
      omega
    · omega

theorem sum_toil_rings_lt {now : Nat} {ts : List Task} {t : Task} (ht : t ∈ ts)
    (rings : t.alarm?.any (· ≤ now) = true) :
    ((ts.map fun t => if t.alarm?.any (· ≤ now) = true then { t with stage := .running } else t).map
      Task.toil).sum < (ts.map Task.toil).sum := by
  obtain ⟨before, after, rfl⟩ := List.append_of_mem ht
  have h₁ := sum_toil_rings_le now before
  have h₂ := sum_toil_rings_le now after
  have woken := toil_woken rings
  simp only [List.map_append, List.map_cons, List.sum_append, List.sum_cons, if_pos rings]
  omega

/-- When time passes in a cancelled run, a body is woken or the parent's cancellation is over. -/
theorem toil_passTo_lt {r : Run} (cancelled : r.books.cancelled = true) {t : Nat}
    (h : r.cancelAt = some t ∨ ∃ x ∈ r.tasks, x.alarm? = some t) : (r.passTo t).toil < r.toil := by
  have less := sum_toil_rings_le t r.tasks
  have strictly : (∃ x ∈ r.tasks, x.alarm? = some t) →
      ((r.tasks.map fun x => if x.alarm?.any (· ≤ t) = true then
        { x with stage := .running } else x).map Task.toil).sum < (r.tasks.map Task.toil).sum := by
    rintro ⟨x, hx, hat⟩
    exact sum_toil_rings_lt hx (by simp [hat])
  unfold passTo
  dsimp only
  split
  · next hat =>
    obtain ⟨c, hc⟩ : ∃ c, r.cancelAt = some c := by
      cases hc : r.cancelAt with
      | none =>
        have none_ : (none : Option Nat).any (· ≤ t) = true := hc ▸ hat
        exact absurd none_ (by simp)
      | some c => exact ⟨c, rfl⟩
    rw [book_of_cancelled_eq (by exact cancelled.symm)]
    unfold toil wake
    dsimp only
    rw [hc]
    simp only [Option.toList_some, Option.toList_none, List.length_cons, List.length_nil]
    omega
  · next hat =>
    unfold toil wake
    dsimp only
    rcases h with hc | hx
    · exact absurd (show (r.cancelAt.any (· ≤ t)) = true by simp [hc]) hat
    · have := strictly hx
      omega

/-- With an empty queue, a cancelled run that still has bodies has one whose alarm is set. -/
theorem exists_alarm {r : Run} (h : Sound r) (cancelled : r.books.cancelled = true)
    (hq : r.queue = []) (work : r.books.unfinished ≠ 0) :
    ∃ x ∈ r.tasks, ∃ u, x.alarm? = some u := by
  obtain ⟨x, hx, open_⟩ : ∃ x ∈ r.tasks, x.ending? = none := by
    by_contra hno
    have all : ∀ x ∈ r.tasks, x.ending?.isSome = true := by
      intro x hx
      rw [Option.isSome_iff_ne_none]
      exact fun he => hno ⟨x, hx, he⟩
    have full := List.length_filterMap_eq_countP (f := Task.ending?) (l := r.tasks)
    rw [List.countP_eq_length.mpr all] at full
    have := h.unfinished
    unfold endings at this
    omega
  obtain ⟨id, hid⟩ := List.mem_iff_getElem?.mp hx
  have unready : x.ready = false := by
    cases hr : x.ready with
    | false => rfl
    | true =>
      have := (h.queued.mem_iff id).mpr ⟨x, hid, hr⟩
      rw [hq] at this
      exact absurd this List.not_mem_nil
  cases hs : x.stage with
  | fresh => simp [Task.ready, hs] at unready
  | running => simp [Task.ready, hs] at unready
  | ended e => simp [Task.ending?, hs] at open_
  | asleep u b =>
    obtain ⟨wakes, ahead⟩ := h.wakeable x hx u b hs
    cases u with
    | none => exact absurd (ahead (wakes rfl)) (by simp [cancelled])
    | some u => exact ⟨x, hx, u, by simp [Task.alarm?, hs]⟩

/-- Every step of a cancelled run is progress. -/
theorem toil_step_lt {r : Run} (h : Sound r) (cancelled : r.books.cancelled = true)
    (going : r.hasReturned = false) : r.step.toil < r.toil := by
  unfold step
  rw [going]
  simp only [Bool.false_eq_true, if_false]
  split
  · next r' hs =>
    unfold stir? at hs
    split at hs
    · exact toil_move_lt cancelled hs
    · split at hs
      · next id rest hq =>
        obtain ⟨t, ht, ready⟩ := (h.queued.mem_iff id).mp (by rw [hq]; exact List.mem_cons_self)
        exact Option.some.inj hs ▸ toil_stepTask_lt ht ready cancelled
      · split at hs
        · next r'' hm => exact Option.some.inj hs ▸ toil_move_lt cancelled hm
        · split at hs
          · next hr =>
            rw [← Option.some.inj hs]
            unfold toil
            simp [hr]
          · exact absurd hs (by simp)
  · next hs =>
    -- nothing stirs: the queue is empty and the supervisor drains
    obtain ⟨hq, hm⟩ : r.queue = [] ∧ r.move? = none := by
      unfold stir? at hs
      split at hs
      · next starts =>
        unfold isStarting at starts
        unfold move? at hs
        split at starts <;> simp_all
      · split at hs
        · exact absurd hs (by simp)
        · next hq =>
          split at hs
          · exact absurd hs (by simp)
          · next hm => exact ⟨hq, hm⟩
    obtain ⟨draining, work⟩ := draining_of_stuck cancelled going hm
    obtain ⟨x, hx, u, hu⟩ := exists_alarm h cancelled hq work
    split
    · next t hn =>
      refine toil_passTo_lt cancelled ?_
      unfold nextTime? at hn
      rw [draining] at hn
      rcases foldl_sooner_eq_some hn with hc | hy
      · exact .inl (by simpa [sooner] using hc)
      · exact .inr hy
    · next hn =>
      have := (foldl_sooner_eq_none hn).2 x hx
      exact absurd (this.symm.trans hu) (by simp)

theorem iterate_step_changes (n : Nat) (r : Run) : Changes r (step^[n] r) := by
  induction n generalizing r with
  | zero => exact .refl
  | succ n ih => exact (step_reaches r).changes.trans (ih r.step)

/-- **A cancelled run returns**, and the steps it takes are bounded by what is left to do. -/
theorem returns {r : Run} (h : Sound r) (cancelled : r.books.cancelled = true) :
    ∃ n ≤ r.toil, (step^[n] r).hasReturned = true := by
  induction hn : r.toil using Nat.strongRecOn generalizing r with
  | ind k ih =>
    cases going : r.hasReturned with
    | true => exact ⟨0, Nat.zero_le _, going⟩
    | false =>
      have less := toil_step_lt h cancelled going
      have changes := (step_reaches r).changes
      obtain ⟨n, hle, hret⟩ := ih r.step.toil (hn ▸ less) (changes.keep Sound.change h)
        (changes.keep Change.cancelled cancelled) rfl
      refine ⟨n + 1, by omega, ?_⟩
      rwa [Function.iterate_succ_apply]

end Run

end PingWatch
