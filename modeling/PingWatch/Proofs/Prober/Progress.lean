import PingWatch.Proofs.Cycle.Clock
import PingWatch.Proofs.Prober.Agenda
import PingWatch.Proofs.Prober.Turn

/-!
# The progress of a loop

A loop that nothing cancels works through its agenda.  `UpTo p l q past` says that the loop `q` has
got there before `l`: it has done `past`, and that is all there is to do before `l`.

* `UpTo.wait`: nothing happens up to the time at which the loop is next woken.
* `UpTo.turn`: a wake-up takes the loop past its time.
* `UpTo.lt_loads_iff`, `UpTo.broken_of_failed`, `UpTo.past_eq`: how many cycles the loop has begun,
  whether a load has failed, and what the loop has done, all read off the agenda.
-/

namespace PingWatch

namespace Probing

/-- The first `k` cycles have all been loaded, and flushed before `l`. -/
def Over (p : Probing) (l k : Nat) : Prop :=
  ∀ j < k, ∃ t targets, p.beginsAt? j = some t ∧ p.load j = .ok targets ∧
    p.joinedAt j t targets < l

/-- The loop `q` has done `past`, and has nothing else to do before `l`. -/
inductive UpTo (p : Probing) (l : Nat) : Prober → List (Nat × Doing) → Prop
  /-- The first `k` cycles are past, and the next is yet to begin. -/
  | pausing {k u : Nat} {samples : Samples} (begins : p.beginsAt? k = some u) (later : l ≤ u)
    (flushed : p.Over l k) :
    UpTo p l { probing := p, loads := k, samples, state := .pausing u } (p.agenda k)
  /-- Cycle `k` has begun, and has a check that has not ended. -/
  | cycling {k t : Nat} {targets : List String} {samples : Samples}
    (begins : p.beginsAt? k = some t) (loaded : p.load k = .ok targets) (begun : t < l)
    (going : l ≤ p.joinedAt k t targets) (flushed : p.Over l k) :
    UpTo p l
      { probing := p, loads := k + 1, samples
        state := .cycling ((p.opening k t targets).advanceBefore (some l)) }
      (p.agenda k ++ checksOf ((p.opening k t targets).advanceBefore (some l)).begun)
  /-- The load of cycle `k` has failed. -/
  | broken {k t : Nat} {cause : Cause} {samples : Samples} (begins : p.beginsAt? k = some t)
    (failed : p.load k = .error cause) (begun : t < l) (flushed : p.Over l k) :
    UpTo p l
      { probing := p, loads := k + 1, samples, state := .broken (.load (p.loadFailure cause)) }
      (p.agenda k)

variable {p : Probing} {l : Nat} {q : Prober} {past : List (Nat × Doing)}

theorem Over.mono {l' k : Nat} (h : p.Over l k) (hl : l ≤ l') : p.Over l' k := by
  intro j hj
  obtain ⟨t, targets, begins, loaded, early⟩ := h j hj
  exact ⟨t, targets, begins, loaded, by omega⟩

theorem Over.succ {k t : Nat} {targets : List String} (h : p.Over l k)
    (begins : p.beginsAt? k = some t) (loaded : p.load k = .ok targets)
    (early : p.joinedAt k t targets < l) : p.Over l (k + 1) := by
  intro j hj
  by_cases hk : j = k
  · subst hk
    exact ⟨t, targets, begins, loaded, early⟩
  · exact h j (by omega)

theorem UpTo.start (p : Probing) : UpTo p 0 (Prober.start p 0) [] :=
  .pausing rfl (Nat.le_refl 0) (fun _ hj => absurd hj (Nat.not_lt_zero _))

/-! ## Waiting -/

/-- A cycle is unfinished at a limit exactly if its end does not lie before the limit. -/
theorem going_iff {k t : Nat} {targets : List String} (begun : t < l) :
    ((p.opening k t targets).advanceBefore (some l)).finished = false ↔
      l ≤ p.joinedAt k t targets := by
  have now : ((p.opening k t targets).advanceBefore (some l)).now < l :=
    Cycle.advance_now_lt (show (p.opening k t targets).now < l from begun)
  have ended : p.joinedAt k t targets < l ↔
      ((p.opening k t targets).advanceBefore (some l)).finished = true := by
    constructor
    · intro early
      exact (Cycle.advance_finished_iff.mpr early).1
    · intro finished
      exact Cycle.advance_finished_iff.mp ⟨finished, now⟩
  rw [← Nat.not_lt, ended, Bool.not_eq_true]

/-- A loop that is going, or pauses, knows when it is next to be woken. -/
theorem UpTo.nextTime? (h : UpTo p l q past) :
    (∃ t, q.nextTime? = some t ∧ l ≤ t) ∨
      q.nextTime? = none ∧ ∃ cause, q.state = .broken (.load (p.loadFailure cause)) := by
  cases h with
  | @pausing k u samples begins later flushed => exact .inl ⟨u, rfl, later⟩
  | @cycling k t targets samples begins loaded begun going flushed =>
    have unfinished := (going_iff begun).mpr going
    have next := (Cycle.nextTime?_of_going unfinished).1
    exact .inl ⟨_, next, Cycle.le_nextTime_advance next⟩
  | @broken k t cause samples begins failed begun flushed => exact .inr ⟨rfl, cause, rfl⟩

/-- Up to the time at which the loop is next woken, there is nothing to do. -/
theorem UpTo.wait {l' : Nat} (h : UpTo p l q past) (hl : l ≤ l')
    (later : ∀ t, q.nextTime? = some t → l' ≤ t) : UpTo p l' q past := by
  cases h with
  | pausing begins _ flushed => exact .pausing begins (later _ rfl) (flushed.mono hl)
  | @cycling k t targets samples begins loaded begun going flushed =>
    have begun' : t < l' := by omega
    have still : (p.opening k t targets).advanceBefore (some l') =
        (p.opening k t targets).advanceBefore (some l) := by
      rw [← Cycle.advance_advance hl]
      exact Cycle.advance_of_later later
    have going' : l' ≤ p.joinedAt k t targets := by
      rw [← going_iff begun', still, going_iff begun]
      exact going
    rw [← still]
    exact .cycling begins loaded begun' going' (flushed.mono hl)
  | broken begins failed begun flushed => exact .broken begins failed (by omega) (flushed.mono hl)

/-! ## Wake-ups -/

/-- The checks that a cycle begins at a wake-up are the new ones. -/
theorem newChecks_eq {c c' : Cycle} {new : List (Nat × String)} (h : c'.begun = new ++ c.begun)
    {t : Nat} (now : ∀ e ∈ new, e.1 = t) :
    (Prober.newChecks c c').map (t, ·) = checksOf new := by
  have count : c'.begun.length - c.begun.length = new.length := by
    rw [h, List.length_append]
    omega
  unfold Prober.newChecks checksOf
  rw [count, h, List.take_left, List.map_map]
  apply List.map_congr_left
  intro e he
  rw [← now e (List.mem_reverse.mp he)]
  rfl

/-- A wake-up at `t` begins the checks that begin at `t`, neither earlier nor later. -/
theorem begun_at_wake (p : Probing) (k t₀ t : Nat) (targets : List String) :
    checksOf ((p.opening k t₀ targets).advanceBefore (some t)).begun ++
        (Prober.newChecks ((p.opening k t₀ targets).advanceBefore (some t))
          ((p.opening k t₀ targets).advanceBefore (some (t + 1)))).map (t, ·) =
      checksOf ((p.opening k t₀ targets).advanceBefore (some (t + 1))).begun := by
  obtain ⟨new, added, late⟩ := Cycle.advance_begun
    (c := (p.opening k t₀ targets).advanceBefore (some t)) (l := t)
    (fun u hu => Cycle.le_nextTime_advance hu) (some (t + 1))
  rw [Cycle.advance_advance (Nat.le_succ t)] at added
  have now : ∀ e ∈ new, e.1 = t := by
    intro e he
    have early : e.1 < t + 1 := by
      apply Cycle.begun_before
      exact added ▸ List.mem_append_left _ he
    have := late e he
    omega
  rw [newChecks_eq added now, ← checksOf_append, ← added]

/-- A cycle that a wake-up finishes ends at that time, and there it is what it is in the end. -/
theorem closing_at_wake {k t₀ t : Nat} {targets : List String} (begun : t₀ < t + 1)
    (going : t ≤ p.joinedAt k t₀ targets)
    (finished : ((p.opening k t₀ targets).advanceBefore (some (t + 1))).finished = true) :
    p.joinedAt k t₀ targets = t ∧
      (p.opening k t₀ targets).advanceBefore (some (t + 1)) = p.closing k t₀ targets := by
  have early : ¬ t + 1 ≤ p.joinedAt k t₀ targets := by
    rw [← going_iff begun, finished]
    simp
  have ended : p.joinedAt k t₀ targets < t + 1 := by omega
  exact ⟨by omega, Cycle.advance_some_eq ended⟩

/-- A wake-up at `t` brings a cycle past `t`, and flushes it if that is its end. -/
theorem UpTo.advance {k t₀ t : Nat} {targets : List String} (pauses : 0 < p.pause)
    (begins : p.beginsAt? k = some t₀) (loaded : p.load k = .ok targets) (begun : t₀ ≤ t)
    (going : t ≤ p.joinedAt k t₀ targets) (flushed : p.Over t k) (samples : Samples)
    (state : LoopState) :
    let c := (p.opening k t₀ targets).advanceBefore (some t)
    let next := ({ probing := p, loads := k + 1, samples, state } : Prober).advance t c
    UpTo p (t + 1) next.1 (p.agenda k ++ checksOf c.begun ++ next.2.map (t, ·)) := by
  intro c next
  have onward : c.advanceBefore (some (t + 1)) =
      (p.opening k t₀ targets).advanceBefore (some (t + 1)) :=
    Cycle.advance_advance (Nat.le_succ t) _
  have begun' : t₀ < t + 1 := by omega
  have flushed' : p.Over (t + 1) k := flushed.mono (Nat.le_succ t)
  have news := p.begun_at_wake k t₀ t targets
  by_cases finished : ((p.opening k t₀ targets).advanceBefore (some (t + 1))).finished = true
  · -- the last check has ended just now, so the flush is on the agenda for `t`
    obtain ⟨ended, whole⟩ := closing_at_wake begun' going finished
    have next_eq : next = ({ probing := p, loads := k + 1
                             samples := (p.closing k t₀ targets).samples
                             state := .pausing (t + p.pause) },
        Prober.newChecks c (p.closing k t₀ targets) ++ (p.flush k t₀ targets).map .sets) := by
      rw [← onward] at finished
      apply (Prober.advance_of_finished finished).trans
      rw [onward, whole]
      rfl
    have begins' := beginsAt?_succ begins loaded
    have done := doings_eq begins loaded
    rw [ended] at begins' done
    have past_eq : p.agenda k ++ checksOf c.begun ++ next.2.map (t, ·) = p.agenda (k + 1) := by
      rw [next_eq, agenda_succ, done, List.map_append, ← whole, ← news, List.map_map,
        List.append_assoc, List.append_assoc]
      rfl
    rw [past_eq, next_eq]
    exact .pausing begins' (by omega) (flushed'.succ begins loaded (by omega))
  · have next_eq : next = ({ probing := p, loads := k + 1
                             samples := (c.advanceBefore (some (t + 1))).samples
                             state := .cycling (c.advanceBefore (some (t + 1))) },
        Prober.newChecks c (c.advanceBefore (some (t + 1)))) := by
      rw [← onward] at finished
      exact Prober.advance_of_going (Bool.eq_false_iff.mpr finished)
    have going' := (going_iff begun').mp (Bool.eq_false_iff.mpr finished)
    rw [next_eq, onward, List.append_assoc, news]
    exact .cycling begins loaded begun' going' flushed'

/-- A wake-up takes the loop past its time. -/
theorem UpTo.turn {t : Nat} (pauses : 0 < p.pause) (permits : p.settings.concurrency ≤ mostPermits)
    (h : UpTo p t q past) (next : q.nextTime? = some t) :
    UpTo p (t + 1) (q.turn t false).1 (past ++ (q.turn t false).2.map (t, ·)) := by
  cases h with
  | @pausing k u samples begins later flushed =>
    obtain rfl : u = t := Option.some.inj next
    cases loaded : p.load k with
    | error cause =>
      rw [Prober.turn_of_unloaded (Nat.le_refl u) loaded, List.map_nil, List.append_nil]
      exact .broken begins loaded (Nat.lt_succ_self u) (flushed.mono (Nat.le_succ u))
    | ok targets =>
      -- a cycle that has only been opened is one that was brought up to its beginning
      have still : (p.opening k u targets).advanceBefore (some u) = p.opening k u targets := by
        apply Cycle.advance_of_later
        intro t ht
        obtain ⟨-, rfl⟩ := Cycle.going_of_nextTime? ht
        exact Cycle.step_now_le (p.opening k u targets)
      have moved := UpTo.advance pauses begins loaded (Nat.le_refl u) (p.le_joinedAt k u targets)
        flushed (p.opening k u targets).samples (.cycling (p.opening k u targets))
      rw [still] at moved
      rw [Prober.turn_of_loaded (Nat.le_refl u) loaded permits]
      simpa [checksOf, opening, Cycle.start] using moved
  | @cycling k t₀ targets samples begins loaded begun going flushed =>
    exact UpTo.advance pauses begins loaded (Nat.le_of_lt begun) going flushed samples _
  | broken begins failed begun flushed => exact absurd next (by simp [Prober.nextTime?])

/-! ## What the loop has done -/

/-- A cycle has begun before `l` exactly if its targets have been loaded. -/
theorem UpTo.lt_loads_iff (h : UpTo p l q past) {j : Nat} :
    j < q.loads ↔ ∃ t, p.beginsAt? j = some t ∧ t < l := by
  have before : ∀ {k}, p.Over l k → j < k → ∃ t, p.beginsAt? j = some t ∧ t < l := by
    intro k flushed hj
    obtain ⟨t, targets, begins, -, early⟩ := flushed j hj
    have := p.le_joinedAt j t targets
    exact ⟨t, begins, by omega⟩
  have latest : ∀ {k u}, p.Over l k → p.beginsAt? k = some u → u < l → j < k + 1 →
      ∃ t, p.beginsAt? j = some t ∧ t < l := by
    intro k u flushed begins begun hj
    rcases Nat.lt_succ_iff_lt_or_eq.mp hj with hj | rfl
    · exact before flushed hj
    · exact ⟨u, begins, begun⟩
  cases h with
  | @pausing k u samples begins later flushed =>
    refine ⟨before flushed, ?_⟩
    rintro ⟨t, begins', early⟩
    refine Nat.not_le.mp fun hj => ?_
    have := beginsAt?_mono begins hj begins'
    omega
  | @cycling k u targets samples begins loaded begun going flushed =>
    refine ⟨latest flushed begins begun, ?_⟩
    rintro ⟨t, begins', early⟩
    refine Nat.not_le.mp fun hj => ?_
    have := beginsAt?_mono (beginsAt?_succ begins loaded) hj begins'
    omega
  | @broken k u cause samples begins failed begun flushed =>
    refine ⟨latest flushed begins begun, ?_⟩
    rintro ⟨t, begins', early⟩
    refine Nat.not_le.mp fun hj => ?_
    obtain ⟨-, targets, -, loaded, -⟩ := beginsAt?_before begins' (Nat.lt_of_succ_le hj)
    exact absurd (failed.symm.trans loaded) (by simp)

theorem UpTo.loads_le (pauses : 0 < p.pause) (h : UpTo p l q past) : q.loads ≤ l := by
  cases loads : q.loads with
  | zero => exact Nat.zero_le l
  | succ k =>
    obtain ⟨t, begins, early⟩ := h.lt_loads_iff.mp (show k < q.loads by omega)
    have := le_beginsAt? pauses begins
    omega

/-- A load that has failed has broken the loop. -/
theorem UpTo.broken_of_failed {k t : Nat} {cause : Cause} (h : UpTo p l q past)
    (begins : p.beginsAt? k = some t) (early : t < l) (failed : p.load k = .error cause) :
    q.state = .broken (.load (p.loadFailure cause)) := by
  have loads : k < q.loads := h.lt_loads_iff.mpr ⟨t, begins, early⟩
  have unfailed : ∀ {n}, p.Over l n → ¬ k < n := by
    intro n flushed hk
    obtain ⟨-, targets, -, loaded, -⟩ := flushed k hk
    exact absurd (failed.symm.trans loaded) (by simp)
  cases h with
  | pausing begins' later flushed => exact absurd loads (unfailed flushed)
  | @cycling n u targets samples begins' loaded begun going flushed =>
    rcases Nat.lt_succ_iff_lt_or_eq.mp loads with hk | rfl
    · exact absurd hk (unfailed flushed)
    · exact absurd (failed.symm.trans loaded) (by simp)
  | @broken n u cause' samples begins' failed' begun flushed =>
    rcases Nat.lt_succ_iff_lt_or_eq.mp loads with hk | rfl
    · exact absurd hk (unfailed flushed)
    · obtain rfl := Except.error.inj (failed.symm.trans failed')
      rfl

/-- While the loop has something to do, all of its loads have succeeded. -/
theorem UpTo.loaded {k t u : Nat} (h : UpTo p l q past) (next : q.nextTime? = some u)
    (begins : p.beginsAt? k = some t) (early : t < l) : ∃ targets, p.load k = .ok targets := by
  cases loaded : p.load k with
  | ok targets => exact ⟨targets, rfl⟩
  | error cause =>
    have broken := h.broken_of_failed begins early loaded
    unfold Prober.nextTime? at next
    rw [broken] at next
    exact absurd next (by simp)

theorem Over.early (slots : 0 < p.settings.concurrency) {k : Nat} (h : p.Over l k)
    {e : Nat × Doing} (he : e ∈ p.agenda k) : e.1 < l := by
  obtain ⟨j, hj, he⟩ := mem_agenda.mp he
  obtain ⟨t, targets, begins, loaded, early⟩ := h j hj
  have := ((inTurn slots begins loaded).within e he).2
  omega

theorem agenda_before {k n : Nat} (h : k ≤ n) (later : ∀ j, k ≤ j → ∀ e ∈ p.doings j, l ≤ e.1) :
    (p.agenda n).filter (·.1 < l) = (p.agenda k).filter (·.1 < l) := by
  induction h with
  | refl => rfl
  | @step n hn ih =>
    have nothing : (p.doings n).filter (·.1 < l) = [] := by
      apply List.filter_eq_nil_iff.mpr
      intro e he
      simpa using later n hn e he
    rw [agenda_succ, List.filter_append, ih, nothing, List.append_nil]

/-- Up to a limit before its end, a cycle does nothing but begin checks. -/
theorem doings_before {k t : Nat} {targets : List String} (begins : p.beginsAt? k = some t)
    (loaded : p.load k = .ok targets) (going : l ≤ p.joinedAt k t targets) :
    (p.doings k).filter (·.1 < l) =
      checksOf ((p.opening k t targets).advanceBefore (some l)).begun := by
  have unflushed : ((p.flush k t targets).map fun s =>
      (p.joinedAt k t targets, Doing.sets s)).filter (·.1 < l) = [] := by
    apply List.filter_eq_nil_iff.mpr
    intro e he
    obtain ⟨s, -, rfl⟩ := List.mem_map.mp he
    simpa using going
  have begun : (checksOf (p.closing k t targets).begun).filter (·.1 < l) =
      checksOf ((p.closing k t targets).begun.filter (·.1 < l)) := by
    unfold checksOf
    rw [List.filter_map, List.filter_reverse]
    rfl
  rw [doings_eq begins loaded, List.filter_append, unflushed, List.append_nil, begun]
  exact congrArg checksOf (Cycle.start_begun_before l)

/-- What the loop has done is what is on its agenda before `l`. -/
theorem UpTo.past_eq (slots : 0 < p.settings.concurrency) (h : UpTo p l q past) {n : Nat}
    (hn : q.loads ≤ n) : past = (p.agenda n).filter (·.1 < l) := by
  have kept : ∀ {k}, p.Over l k → (p.agenda k).filter (·.1 < l) = p.agenda k := by
    intro k flushed
    apply List.filter_eq_self.mpr
    intro e he
    exact decide_eq_true (flushed.early slots he)
  cases h with
  | @pausing k u samples begins later flushed =>
    rw [agenda_before hn ?_, kept flushed]
    intro j hj e he
    exact Nat.le_trans later (mem_doings_later slots begins hj he)
  | @cycling k t targets samples begins loaded begun going flushed =>
    rw [agenda_before hn ?_, agenda_succ, List.filter_append, kept flushed,
      doings_before begins loaded going]
    intro j hj e he
    have next := mem_doings_later slots (beginsAt?_succ begins loaded) hj he
    omega
  | @broken k t cause samples begins failed begun flushed =>
    have hn : k ≤ n := Nat.le_of_succ_le hn
    rw [agenda_before hn ?_, kept flushed]
    intro j hj e he
    rw [doings_of_failed failed hj] at he
    exact absurd he List.not_mem_nil

end Probing

end PingWatch
