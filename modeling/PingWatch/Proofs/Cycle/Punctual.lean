import Mathlib.Order.Interval.Finset.Nat
import PingWatch.Proofs.Cycle.FanOut

/-!
# Cycles that lose no time

A cycle lets no time pass while a target could be admitted, and a check that holds a slot gives it
back after one timeout at the latest.  So a target waits for one timeout at most for each full set
of slots before it.

* `Timely`: the moves that are not late, whichever of the checks of one millisecond ends first.
  `step_timely`: those on the clock are not.
* `exists_earlier`: of the checks in all slots one began a full set of slots ago.
* `Punctual`: how far a cycle is at any moment.  Every move that is not late keeps it.
-/

namespace PingWatch

namespace Cycle

/-! ## Moves that are not late -/

theorem soonest?_le {fs : List Flight} {f : Flight} (h : soonest? fs = some f) :
    ∀ g ∈ fs, f.due ≤ g.due := by
  induction fs generalizing f with
  | nil => exact fun _ hg => absurd hg List.not_mem_nil
  | cons e fs ih =>
    unfold soonest? at h
    split at h
    · next none_ =>
      obtain rfl := Option.some.inj h
      rw [soonest?_eq_none none_]
      exact List.forall_mem_singleton.mpr (Nat.le_refl _)
    · next g hg =>
      have behind := ih hg
      split at h
      · next first =>
        obtain rfl := Option.some.inj h
        exact List.forall_mem_cons.mpr
          ⟨Nat.le_refl _, fun k hk => Nat.le_trans first (behind k hk)⟩
      · next later =>
        obtain rfl := Option.some.inj h
        exact List.forall_mem_cons.mpr ⟨Nat.le_of_not_le later, behind⟩

/-- A possible move that is not late: time passes only when nothing can be admitted or begun, and
then no further than to the first end of a check. -/
structure Timely (c : Cycle) (m : Move) : Prop where
  possible : Possible c m
  soon : c.now < c.timeOf m →
    c.admitted = [] ∧ c.canFill = false ∧ ∀ g ∈ c.flying, c.timeOf m ≤ g.due

/-- The cycles that `c₀` can come to when none of its moves is late. -/
inductive Follows (c₀ : Cycle) : Cycle → Prop
  | refl : Follows c₀ c₀
  | next {c : Cycle} {m : Move} (h : Follows c₀ c) (hm : Timely c m) : Follows c₀ (c.perform m)

theorem Follows.reaches {c₀ c : Cycle} (h : Follows c₀ c) : Reaches c₀ c := by
  induction h with
  | refl => exact .refl
  | next _ hm ih => exact .next ih hm.possible

/-- The next move on the clock is not late. -/
theorem move?_timely {c : Cycle} {t : Nat} {m : Move} (h : c.move? = some (t, m)) :
    Timely c m := by
  refine ⟨(move?_spec h).1, fun passes => ?_⟩
  unfold move? at h
  dsimp only at h
  split at h
  · next f hf =>
    -- a check whose time has come ends at once
    obtain ⟨-, rfl⟩ := Prod.mk.inj (Option.some.inj h)
    split at hf
    · next g _ =>
      split at hf
      · next due =>
        obtain rfl := Option.some.inj hf
        exact absurd (Nat.max_eq_left due) (Nat.ne_of_gt passes)
      · exact absurd hf (by simp)
    · exact absurd hf (by simp)
  · split at h
    · obtain ⟨-, rfl⟩ := Prod.mk.inj (Option.some.inj h)
      exact absurd passes (Nat.lt_irrefl _)
    · next hadm =>
      split at h
      · obtain ⟨-, rfl⟩ := Prod.mk.inj (Option.some.inj h)
        exact absurd passes (Nat.lt_irrefl _)
      · next hfill =>
        obtain ⟨f, hf, e⟩ := Option.map_eq_some_iff.mp h
        obtain ⟨-, rfl⟩ := Prod.mk.inj e
        have time : c.timeOf (.land f) = f.due := by
          have passes : c.now < max c.now f.due := passes
          show max c.now f.due = f.due
          omega
        refine ⟨hadm, Bool.eq_false_iff.mpr hfill, fun g hg => ?_⟩
        rw [time]
        exact soonest?_le hf g hg

theorem step_timely (c : Cycle) : c.finished = true ∨ ∃ m, Timely c m ∧ c.step = c.perform m := by
  cases h : c.move? with
  | none => exact .inl (by simp [finished, h])
  | some tm =>
    obtain ⟨t, m⟩ := tm
    exact .inr ⟨m, move?_timely h, step_of_move h⟩

/-- No move of a cycle on the clock is late. -/
theorem advance_follows (limit : Option Nat) (c : Cycle) : Follows c (c.advanceBefore limit) := by
  refine advance_keep (P := Follows c) ?_ .refl
  intro d h
  rcases stepBefore_cases limit d with stuck | ⟨going, step, -⟩
  · rw [stuck]
    exact h
  · rcases step_timely d with finished | ⟨m, timely, perform⟩
    · exact absurd (going.symm.trans finished) Bool.false_ne_true
    · rw [step, perform]
      exact .next h timely

/-! ## Full slots -/

/-- Where all slots are taken, one of the checks under way began a full set of slots ago. -/
theorem exists_earlier {c : Cycle} (seats : Seats c) (some_slots : 0 < c.slots)
    (full : c.slots ≤ c.flying.length) :
    ∃ f ∈ c.flying, f.position + c.slots ≤ c.begun.length := by
  by_contra none_
  have later : ∀ f ∈ c.flying, c.begun.length < f.position + c.slots :=
    fun f hf => Nat.lt_of_not_le fun earlier => none_ ⟨f, hf, earlier⟩
  -- then the positions are apart from each other, but there is room for one check less than slots
  have among : (c.flying.map (·.position)).toFinset ⊆
      Finset.Ico (c.begun.length + 1 - c.slots) c.begun.length := by
    intro i hi
    obtain ⟨f, hf, rfl⟩ := List.mem_map.mp (List.mem_toFinset.mp hi)
    have taken := seats.taken f hf
    have late := later f hf
    exact Finset.mem_Ico.mpr ⟨by omega, taken⟩
  have few := Finset.card_le_card among
  rw [List.toFinset_card_of_nodup seats.apart, List.length_map, Nat.card_Ico] at few
  omega

/-- Where a target waits and none can be admitted, all slots are taken. -/
theorem full_of_waiting {c : Cycle} (seats : Seats c) (left : c.admitted ++ c.waiting ≠ [])
    (hadm : c.admitted = []) (hfill : c.canFill = false) : c.slots ≤ c.flying.length := by
  have held := seats.held
  rw [hadm, List.length_nil] at held
  rw [hadm, List.nil_append] at left
  have waiting : c.waiting.isEmpty = false := by simpa using left
  unfold canFill at hfill
  rw [waiting] at hfill
  have none_free : ¬ 0 < c.free := by simpa using hfill
  omega

/-! ## Punctual cycles -/

/-- The time by which the check behind `i` others begins in a cycle that began at `t₀`: one timeout
for each full set of slots before it. -/
def turnBy (c : Cycle) (t₀ i : Nat) : Nat := t₀ + i / c.slots * c.timeout

/-- One timeout later a full set of slots has had its turn. -/
theorem turnBy_add_timeout {c : Cycle} (some_slots : 0 < c.slots) (t₀ i : Nat) :
    c.turnBy t₀ i + c.timeout = c.turnBy t₀ (i + c.slots) := by
  unfold turnBy
  rw [Nat.add_div_right i some_slots, Nat.succ_mul, Nat.add_assoc]

theorem turnBy_mono (c : Cycle) (t₀ : Nat) {i j : Nat} (h : i ≤ j) :
    c.turnBy t₀ i ≤ c.turnBy t₀ j :=
  Nat.add_le_add_left (Nat.mul_le_mul_right _ (Nat.div_le_div_right h)) t₀

/-- How a cycle over `total` targets that began at `t₀` stands in time. -/
structure Punctual (total t₀ : Nat) (c : Cycle) : Prop where
  begun : ∀ i e, c.begun.reverse[i]? = some e → e.1 ≤ c.turnBy t₀ i
  /-- A check gives its slot back after one timeout at the latest. -/
  due : ∀ f ∈ c.flying, f.due ≤ c.turnBy t₀ f.position + c.timeout
  /-- As long as there are targets left, it is not too late for the next one. -/
  next : c.admitted ++ c.waiting ≠ [] → c.now ≤ c.turnBy t₀ c.begun.length
  /-- The last full set of slots may be short of some. -/
  now : c.now ≤ c.turnBy t₀ (total + c.slots - 1)

theorem Punctual.start (kind : Kind) (slots timeout t₀ : Nat) (jobs : List Job) :
    Punctual jobs.length t₀ (start kind slots timeout t₀ jobs) where
  begun := fun _ _ h => absurd h (by simp [Cycle.start])
  due := fun _ hf => absurd hf List.not_mem_nil
  next := fun _ => Nat.le_add_right ..
  now := Nat.le_add_right ..

theorem span_le (timeout : Nat) (j : Job) : j.span timeout ≤ timeout := by
  unfold Job.span
  split
  · exact Nat.min_le_right ..
  · exact Nat.le_refl _

/-- No more checks have begun than there are targets. -/
theorem Line.begun_le {jobs : List Job} {t₀ : Nat} {c : Cycle} (h : Line jobs t₀ c) :
    c.begun.length ≤ jobs.length := by
  have length := congrArg List.length h.order
  rw [List.length_map, List.length_reverse, List.length_map, List.length_take] at length
  omega

section Keep

variable {jobs : List Job} {t₀ : Nat} {c : Cycle}

theorem Punctual.begin {j : Job} {rest : List Job} (hadm : c.admitted = j :: rest)
    (h : Punctual jobs.length t₀ c) : Punctual jobs.length t₀ (c.perform (.begin j rest)) := by
  have now : c.now ≤ c.turnBy t₀ c.begun.length := h.next (by simp [hadm])
  obtain ⟨s, f, u, e⟩ := perform_begin c j rest
  rw [e]
  refine ⟨?_, ?_, fun _ => ?_, h.now⟩
  · intro i b hb
    rw [List.reverse_cons] at hb
    rcases Nat.lt_or_ge i c.begun.reverse.length with old | new
    · rw [List.getElem?_append_left old] at hb
      exact h.begun i b hb
    · rw [List.getElem?_append_right new, List.getElem?_singleton] at hb
      split at hb
      · next last =>
        obtain rfl := Option.some.inj hb
        have behind : i = c.begun.length := by
          rw [List.length_reverse] at last new
          omega
        rw [behind]
        exact now
      · exact absurd hb (by simp)
  · intro f hf
    rcases List.mem_append.mp hf with hf | hf
    · exact h.due f hf
    · rw [mem_launch hf]
      exact Nat.add_le_add now (span_le c.timeout j)
  · exact Nat.le_trans now (c.turnBy_mono t₀ (Nat.le_succ _))

theorem Punctual.fill (hadm : c.admitted = []) (h : Punctual jobs.length t₀ c) :
    Punctual jobs.length t₀ (c.perform .fill) := by
  obtain ⟨s, f, u, e⟩ := perform_fill c
  rw [e]
  refine ⟨h.begun, h.due, fun left => h.next ?_, h.now⟩
  dsimp only at left
  rw [List.take_append_drop] at left
  rw [hadm]
  exact left

theorem Punctual.land {f : Flight} (hm : Timely c (.land f)) (some_slots : 0 < c.slots)
    (orderly : Orderly jobs t₀ c) (h : Punctual jobs.length t₀ c) :
    Punctual jobs.length t₀ (c.perform (.land f)) := by
  -- a check that ends late gives back a slot that was taken a full set of slots ago
  have next : c.admitted ++ c.waiting ≠ [] → max c.now f.due ≤ c.turnBy t₀ c.begun.length := by
    intro left
    rcases Nat.lt_or_ge c.now (max c.now f.due) with passes | stands
    · obtain ⟨hadm, hfill, soon⟩ := hm.soon passes
      obtain ⟨g, hg, earlier⟩ :=
        exists_earlier orderly.seats some_slots
          (full_of_waiting orderly.seats left hadm hfill)
      calc max c.now f.due ≤ g.due := soon g hg
        _ ≤ c.turnBy t₀ g.position + c.timeout := h.due g hg
        _ = c.turnBy t₀ (g.position + c.slots) := turnBy_add_timeout some_slots t₀ _
        _ ≤ c.turnBy t₀ c.begun.length := c.turnBy_mono t₀ earlier
    · exact Nat.le_trans stands (h.next left)
  have hf : f ∈ c.flying := by
    obtain ⟨⟩ | ⟨⟩ | ⟨hf⟩ := hm.possible
    exact hf
  have last : f.due ≤ c.turnBy t₀ (jobs.length + c.slots - 1) := by
    have before : f.position + c.slots ≤ jobs.length + c.slots - 1 := by
      have taken := orderly.seats.taken f hf
      have most := orderly.line.begun_le
      omega
    calc f.due ≤ c.turnBy t₀ f.position + c.timeout := h.due f hf
      _ = c.turnBy t₀ (f.position + c.slots) := turnBy_add_timeout some_slots t₀ _
      _ ≤ c.turnBy t₀ (jobs.length + c.slots - 1) := c.turnBy_mono t₀ before
  obtain ⟨s, n, u, e⟩ := perform_land c f
  rw [e]
  exact ⟨h.begun, fun g hg => h.due g (List.mem_filter.mp hg).1, next, Nat.max_le.mpr ⟨h.now, last⟩⟩

theorem Punctual.keep {m : Move} (hm : Timely c m) (some_slots : 0 < c.slots)
    (orderly : Orderly jobs t₀ c) (h : Punctual jobs.length t₀ c) :
    Punctual jobs.length t₀ (c.perform m) := by
  cases hm.possible with
  | begin hadm => exact h.begin hadm
  | fill hadm _ => exact h.fill hadm
  | land _ => exact h.land hm some_slots orderly

end Keep

theorem Follows.punctual {kind : Kind} {slots timeout t₀ : Nat} {jobs : List Job} {c : Cycle}
    (h : Follows (start kind slots timeout t₀ jobs) c) (some_slots : 0 < slots) :
    Punctual jobs.length t₀ c := by
  induction h with
  | refl => exact .start ..
  | next h hm ih =>
    have same := h.reaches.setup.2.1
    exact ih.keep hm (same ▸ some_slots) h.reaches.orderly

end Cycle

end PingWatch
