import PingWatch.Proofs.Prober.OneCycle

/-!
# The agenda of a loop

A loop runs one cycle after the other: the first at once, and every other one interval after the
flush of the one before.  `Probing.beginsAt?` says when a cycle begins, if every load before it
succeeds, and `Probing.agenda` lists all that the cycles do, each with its time.

* `beginsAt?_before`: the cycles before one that begins have been flushed one interval before it at
  the latest.
* `inTurn`: what a cycle does lies between its beginning and its flush, which comes when its last
  check has ended.
* `mem_doings_later`: what a cycle and all later ones do lies behind its beginning.
-/

namespace PingWatch

/-- The checks begun, latest first in `begun`, as doings of a loop. -/
def checksOf (begun : List (Nat × String)) : List (Nat × Doing) :=
  begun.reverse.map fun (t, target) => (t, .checks target)

theorem checksOf_append (new begun : List (Nat × String)) :
    checksOf (new ++ begun) = checksOf begun ++ checksOf new := by
  unfold checksOf
  rw [List.reverse_append, List.map_append]

namespace Probing

/-- The time from the flush of a cycle to the beginning of the next. -/
def pause (p : Probing) : Nat := p.settings.interval.millisUp

/-- When cycle `k` begins, unless a load before it fails: the first at once, and every other one
interval after the flush of the one before. -/
def beginsAt? (p : Probing) : Nat → Option Nat
  | 0 => some 0
  | k + 1 =>
    match p.beginsAt? k, p.load k with
    | some t, .ok targets => some (p.joinedAt k t targets + p.pause)
    | _, _ => none

/-- The flush of cycle `k` over `targets` when it begins at `t`. -/
def flush (p : Probing) (k t : Nat) (targets : List String) : List Setting :=
  gather takesAll
    { scope := p.scope, kind := p.kind, samples := (p.closing k t targets).samples }

/-- What cycle `k` does, each with its time: its checks begin, and then it is flushed. -/
def doings (p : Probing) (k : Nat) : List (Nat × Doing) :=
  match p.beginsAt? k, p.load k with
  | some t, .ok targets =>
    checksOf (p.closing k t targets).begun ++
      (p.flush k t targets).map fun s => (p.joinedAt k t targets, .sets s)
  | _, _ => []

/-- What the first `n` cycles do, each with its time. -/
def agenda (p : Probing) (n : Nat) : List (Nat × Doing) := (List.range n).flatMap p.doings

variable {p : Probing} {j k t : Nat} {targets : List String}

theorem beginsAt?_succ (begins : p.beginsAt? k = some t) (loaded : p.load k = .ok targets) :
    p.beginsAt? (k + 1) = some (p.joinedAt k t targets + p.pause) := by
  rw [beginsAt?, begins, loaded]

theorem beginsAt?_of_succ (begins : p.beginsAt? (k + 1) = some t) :
    ∃ t' targets, p.beginsAt? k = some t' ∧ p.load k = .ok targets ∧
      t = p.joinedAt k t' targets + p.pause := by
  unfold beginsAt? at begins
  split at begins
  · next t' targets earlier loaded =>
    exact ⟨t', targets, earlier, loaded, (Option.some.inj begins).symm⟩
  · exact absurd begins (by simp)

theorem le_joinedAt (p : Probing) (k t : Nat) (targets : List String) :
    t ≤ p.joinedAt k t targets :=
  Cycle.now_le_advance none (p.opening k t targets)

/-- The cycles before one that begins have been loaded, and flushed one interval before it at the
latest. -/
theorem beginsAt?_before (begins : p.beginsAt? k = some t) (h : j < k) :
    ∃ t' targets, p.beginsAt? j = some t' ∧ p.load j = .ok targets ∧
      p.joinedAt j t' targets + p.pause ≤ t := by
  induction k generalizing t with
  | zero => exact absurd h (Nat.not_lt_zero j)
  | succ k ih =>
    obtain ⟨t', targets, earlier, loaded, rfl⟩ := beginsAt?_of_succ begins
    rcases Nat.lt_or_eq_of_le (Nat.le_of_lt_succ h) with h | rfl
    · obtain ⟨t'', targets', first, loaded', gap⟩ := ih earlier h
      have onwards := Nat.le_trans (p.le_joinedAt k t' targets) (Nat.le_add_right _ p.pause)
      exact ⟨t'', targets', first, loaded', Nat.le_trans gap onwards⟩
    · exact ⟨t', targets, earlier, loaded, Nat.le_refl _⟩

theorem beginsAt?_mono {u : Nat} (begins : p.beginsAt? k = some t) (h : k ≤ j)
    (later : p.beginsAt? j = some u) : t ≤ u := by
  rcases Nat.lt_or_eq_of_le h with h | rfl
  · obtain ⟨t', targets, same, -, gap⟩ := beginsAt?_before later h
    obtain rfl := Option.some.inj (begins.symm.trans same)
    exact Nat.le_trans (p.le_joinedAt k t targets) (Nat.le_trans (Nat.le_add_right _ _) gap)
  · exact Nat.le_of_eq (Option.some.inj (begins.symm.trans later))

/-- No cycle begins after one whose load fails. -/
theorem eq_of_failed {u : Nat} {cause cause' : Cause} (begins : p.beginsAt? k = some t)
    (failed : p.load k = .error cause) (begins' : p.beginsAt? j = some u)
    (failed' : p.load j = .error cause') : j = k := by
  rcases Nat.lt_trichotomy j k with h | h | h
  · obtain ⟨-, targets, -, loaded, -⟩ := beginsAt?_before begins h
    exact absurd (failed'.symm.trans loaded) (by simp)
  · exact h
  · obtain ⟨-, targets, -, loaded, -⟩ := beginsAt?_before begins' h
    exact absurd (failed.symm.trans loaded) (by simp)

/-- With a pause between them, the cycles do not begin faster than time passes. -/
theorem le_beginsAt? (pauses : 0 < p.pause) (begins : p.beginsAt? k = some t) : k ≤ t := by
  induction k generalizing t with
  | zero => exact Nat.zero_le t
  | succ k ih =>
    obtain ⟨t', targets, earlier, -, rfl⟩ := beginsAt?_of_succ begins
    have began := ih earlier
    have ended := p.le_joinedAt k t' targets
    omega

theorem doings_eq (begins : p.beginsAt? k = some t) (loaded : p.load k = .ok targets) :
    p.doings k = checksOf (p.closing k t targets).begun ++
      (p.flush k t targets).map fun s => (p.joinedAt k t targets, .sets s) := by
  unfold doings
  rw [begins, loaded]

/-- Only a cycle that begins, and whose load succeeds, does anything. -/
theorem mem_doings {e : Nat × Doing} (h : e ∈ p.doings k) :
    ∃ t targets, p.beginsAt? k = some t ∧ p.load k = .ok targets := by
  unfold doings at h
  split at h
  · next t targets begins loaded => exact ⟨t, targets, begins, loaded⟩
  · exact absurd h List.not_mem_nil

/-- Nothing is done from a failed load on. -/
theorem doings_of_failed {cause : Cause} (failed : p.load k = .error cause) (h : k ≤ j) :
    p.doings j = [] := by
  apply List.eq_nil_iff_forall_not_mem.mpr
  intro e he
  obtain ⟨t, targets, begins, loaded⟩ := mem_doings he
  rcases Nat.lt_or_eq_of_le h with h | rfl
  · obtain ⟨-, targets', -, loaded', -⟩ := beginsAt?_before begins h
    exact absurd (failed.symm.trans loaded') (by simp)
  · exact absurd (failed.symm.trans loaded) (by simp)

theorem agenda_succ (p : Probing) (n : Nat) : p.agenda (n + 1) = p.agenda n ++ p.doings n := by
  unfold agenda
  rw [List.range_succ, List.flatMap_append, List.flatMap_singleton]

theorem mem_agenda {n : Nat} {e : Nat × Doing} : e ∈ p.agenda n ↔ ∃ k < n, e ∈ p.doings k := by
  unfold agenda
  simp [List.mem_flatMap]

/-- What cycle `k` is like over `targets` when it begins at `t`. -/
structure InTurn (p : Probing) (k t : Nat) (targets : List String) : Prop where
  /-- It begins a check of every target, in order. -/
  checked : (p.closing k t targets).begun.reverse.map (·.2) = targets
  /-- What it does lies between its beginning and its flush. -/
  within : ∀ e ∈ p.doings k, t ≤ e.1 ∧ e.1 ≤ p.joinedAt k t targets
  /-- All of its checks have ended by the flush. -/
  ended : ∀ e ∈ (p.closing k t targets).entries (p.jobs k targets),
    e.1 + e.2.span p.patience ≤ p.joinedAt k t targets
  /-- The flush does not wait for anything else. -/
  prompt : p.joinedAt k t targets = t ∨
    ∃ e ∈ (p.closing k t targets).entries (p.jobs k targets),
      p.joinedAt k t targets = e.1 + e.2.span p.patience
  /-- The next cycle begins one interval after the flush. -/
  next : p.beginsAt? (k + 1) = some (p.joinedAt k t targets + p.pause)

theorem inTurn (slots : 0 < p.settings.concurrency) (begins : p.beginsAt? k = some t)
    (loaded : p.load k = .ok targets) : p.InTurn k t targets := by
  have reached := p.closing_reached k t targets
  obtain ⟨ended, prompt⟩ := joinedAt_last slots k t targets
  refine ⟨begun_of_finished reached (p.closing_finished k t targets) slots, ?_, ended, prompt,
    beginsAt?_succ begins loaded⟩
  intro e he
  rw [doings_eq begins loaded] at he
  rcases List.mem_append.mp he with he | he
  · obtain ⟨b, hb, rfl⟩ := List.mem_map.mp he
    exact reached.orderly.line.past b (List.mem_reverse.mp hb)
  · obtain ⟨s, -, rfl⟩ := List.mem_map.mp he
    exact ⟨p.le_joinedAt k t targets, Nat.le_refl _⟩

/-- What a cycle and all later ones do lies behind its beginning. -/
theorem mem_doings_later (slots : 0 < p.settings.concurrency) (begins : p.beginsAt? k = some t)
    (h : k ≤ j) {e : Nat × Doing} (he : e ∈ p.doings j) : t ≤ e.1 := by
  obtain ⟨u, targets, begins', loaded⟩ := mem_doings he
  have first := beginsAt?_mono begins h begins'
  exact Nat.le_trans first ((inTurn slots begins' loaded).within e he).1

end Probing

end PingWatch
