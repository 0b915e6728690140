import Mathlib.Logic.Function.Iterate
import PingWatch.Cycle

/-!
# Cycles in any order

`Cycle.move?` ends the check that is due first.  `Cycle.Possible` leaves open which of the checks
under way ends next, and `Cycle.Reaches` repeats possible moves.

* `Reaches.keep`: what every possible move keeps holds in every cycle that is reached.
* `perform_begin`, `perform_fill`, `perform_land`: all that a move does besides counting.
* `perform_now`, `work_perform_lt`: a move takes time up to `timeOf` and lowers the work left.
* `advance_reaches`: the cycle that runs on the clock is one of those that are reached.
* `advance_none_finished`, `advance_some_eq`: without a limit it comes to its end, and a limit past
  that end makes no difference.
-/

namespace PingWatch

namespace Cycle

/-! ## Possible moves -/

/-- A move that a cycle can make, whichever of its checks ends first. -/
inductive Possible (c : Cycle) : Move → Prop
  | begin {j : Job} {rest : List Job} (h : c.admitted = j :: rest) : Possible c (.begin j rest)
  | fill (h : c.admitted = []) (hf : c.canFill = true) : Possible c .fill
  | land {f : Flight} (h : f ∈ c.flying) : Possible c (.land f)

/-- The cycles that `c₀` can come to. -/
inductive Reaches (c₀ : Cycle) : Cycle → Prop
  | refl : Reaches c₀ c₀
  | next {c : Cycle} {m : Move} (h : Reaches c₀ c) (hm : Possible c m) : Reaches c₀ (c.perform m)

/-- What every possible move keeps holds in every cycle that is reached. -/
theorem Reaches.keep {c₀ c : Cycle} {P : Cycle → Prop} (h : Reaches c₀ c)
    (step : ∀ {c m}, Possible c m → P c → P (c.perform m)) (start : P c₀) : P c := by
  induction h with
  | refl => exact start
  | next _ hm ih => exact step hm ih

theorem Reaches.trans {c₀ c₁ c₂ : Cycle} (h : Reaches c₀ c₁) (h' : Reaches c₁ c₂) :
    Reaches c₀ c₂ := by
  induction h' with
  | refl => exact h
  | next _ hm ih => exact .next ih hm

theorem soonest?_mem {fs : List Flight} {f : Flight} (h : soonest? fs = some f) : f ∈ fs := by
  induction fs generalizing f with
  | nil => simp [soonest?] at h
  | cons g fs ih =>
    unfold soonest? at h
    split at h
    · obtain rfl := Option.some.inj h
      exact List.mem_cons_self
    · next k hk =>
      split at h
      · obtain rfl := Option.some.inj h
        exact List.mem_cons_self
      · obtain rfl := Option.some.inj h
        exact List.mem_cons_of_mem _ (ih hk)

theorem soonest?_eq_none {fs : List Flight} (h : soonest? fs = none) : fs = [] := by
  cases fs with
  | nil => rfl
  | cons f fs =>
    unfold soonest? at h
    split at h
    · exact absurd h (by simp)
    · split at h <;> exact absurd h (by simp)

/-- When a move takes place: a check does not end before it is due. -/
def timeOf (c : Cycle) : Move → Nat
  | .land f => max c.now f.due
  | .begin _ _ | .fill => c.now

theorem now_le_timeOf (c : Cycle) (m : Move) : c.now ≤ c.timeOf m := by
  cases m
  · exact Nat.le_refl _
  · exact Nat.le_refl _
  · exact Nat.le_max_left _ _

/-- The next move is possible. -/
theorem move?_spec {c : Cycle} {t : Nat} {m : Move} (h : c.move? = some (t, m)) :
    Possible c m ∧ t = c.timeOf m := by
  unfold move? at h
  dsimp only at h
  split at h
  · next f hf =>
    obtain ⟨rfl, rfl⟩ := Prod.mk.inj (Option.some.inj h)
    split at hf
    · next g hg =>
      split at hf
      · next due =>
        obtain rfl := Option.some.inj hf
        exact ⟨.land (soonest?_mem hg), (Nat.max_eq_left due).symm⟩
      · exact absurd hf (by simp)
    · exact absurd hf (by simp)
  · split at h
    · next j rest hadm =>
      obtain ⟨rfl, rfl⟩ := Prod.mk.inj (Option.some.inj h)
      exact ⟨.begin hadm, rfl⟩
    · next hadm =>
      split at h
      · next hfill =>
        obtain ⟨rfl, rfl⟩ := Prod.mk.inj (Option.some.inj h)
        exact ⟨.fill hadm hfill, rfl⟩
      · obtain ⟨f, hf, e⟩ := Option.map_eq_some_iff.mp h
        obtain ⟨rfl, rfl⟩ := Prod.mk.inj e
        exact ⟨.land (soonest?_mem hf), rfl⟩

/-! ## What a move does -/

/-- The check of `j` as it takes off: a check that takes no time is never under way. -/
def launch (c : Cycle) (j : Job) : List Flight :=
  if j.span c.timeout = 0 then []
  else [{ position := c.begun.length, due := c.now + j.span c.timeout
          outcome := j.outcome c.timeout }]

theorem settle_eq (o : Outcome) (c : Cycle) :
    ∃ s f u, c.settle o = { c with samples := s, failures := f, unjoined := u } := by
  cases o <;> exact ⟨_, _, _, rfl⟩

theorem perform_begin (c : Cycle) (j : Job) (rest : List Job) :
    ∃ s f u, c.perform (.begin j rest) =
      { c with
        admitted := rest
        begun := (c.now, j.target) :: c.begun
        peak := max c.peak (c.flying.length + 1)
        flying := c.flying ++ c.launch j
        free := c.free + 1 - (c.launch j).length
        samples := s, failures := f, unjoined := u } := by
  unfold perform begin launch
  dsimp only
  by_cases h : j.span c.timeout = 0
  · rw [if_pos h, if_pos h, List.append_nil]
    exact settle_eq _ _
  · rw [if_neg h, if_neg h]
    exact ⟨_, _, _, rfl⟩

theorem perform_fill (c : Cycle) :
    ∃ s f u, c.perform .fill =
      { c with
        waiting := c.waiting.drop c.free
        admitted := c.waiting.take c.free
        free := c.free - (c.waiting.take c.free).length
        samples := s, failures := f, unjoined := u } := by
  unfold perform fill
  dsimp only
  split <;> exact ⟨_, _, _, rfl⟩

theorem perform_land (c : Cycle) (f : Flight) :
    ∃ s n u, c.perform (.land f) =
      { c with
        now := max c.now f.due
        flying := c.flying.filter fun g => g.position ≠ f.position
        free := c.free + 1
        samples := s, failures := n, unjoined := u } := by
  unfold perform land
  exact settle_eq _ _

/-- What a cycle was set up with. -/
theorem perform_setup (c : Cycle) (m : Move) :
    (c.perform m).kind = c.kind ∧ (c.perform m).slots = c.slots ∧
      (c.perform m).timeout = c.timeout := by
  cases m with
  | begin j rest =>
    obtain ⟨s, f, u, e⟩ := perform_begin c j rest
    rw [e]
    exact ⟨rfl, rfl, rfl⟩
  | fill =>
    obtain ⟨s, f, u, e⟩ := perform_fill c
    rw [e]
    exact ⟨rfl, rfl, rfl⟩
  | land f =>
    obtain ⟨s, n, u, e⟩ := perform_land c f
    rw [e]
    exact ⟨rfl, rfl, rfl⟩

theorem Reaches.setup {c₀ c : Cycle} (h : Reaches c₀ c) :
    c.kind = c₀.kind ∧ c.slots = c₀.slots ∧ c.timeout = c₀.timeout := by
  refine h.keep (P := fun c => c.kind = c₀.kind ∧ c.slots = c₀.slots ∧ c.timeout = c₀.timeout) ?_
    ⟨rfl, rfl, rfl⟩
  rintro c m - ⟨kind, slots, timeout⟩
  obtain ⟨kind', slots', timeout'⟩ := perform_setup c m
  exact ⟨kind'.trans kind, slots'.trans slots, timeout'.trans timeout⟩

theorem perform_now (c : Cycle) (m : Move) : (c.perform m).now = c.timeOf m := by
  cases m with
  | begin j rest =>
    obtain ⟨s, f, u, e⟩ := perform_begin c j rest
    rw [e]
    rfl
  | fill =>
    obtain ⟨s, f, u, e⟩ := perform_fill c
    rw [e]
    rfl
  | land f =>
    obtain ⟨s, n, u, e⟩ := perform_land c f
    rw [e]
    rfl

/-! ## The work left -/

theorem settle_unjoined_le (o : Outcome) (c : Cycle) : (c.settle o).unjoined ≤ c.unjoined + 1 := by
  cases o
  · exact Nat.le_succ _
  · exact Nat.le_succ _
  · exact Nat.le_refl _

theorem settle_work_le (o : Outcome) (c : Cycle) : (c.settle o).work ≤ c.work + 1 := by
  have unjoined := settle_unjoined_le o c
  obtain ⟨s, f, u, e⟩ := settle_eq o c
  rw [e] at unjoined ⊢
  unfold work
  dsimp only at unjoined ⊢
  omega

/-- Every possible move lowers the work left. -/
theorem work_perform_lt {c : Cycle} {m : Move} (h : Possible c m) :
    (c.perform m).work < c.work := by
  cases h with
  | @begin j rest hadm =>
    unfold perform begin
    dsimp only
    split
    · refine Nat.lt_of_le_of_lt (settle_work_le _ _) ?_
      unfold work release
      rw [hadm, List.length_cons]
      dsimp only
      omega
    · unfold work
      rw [hadm, List.length_cons]
      dsimp only
      rw [List.length_append, List.length_singleton]
      omega
  | fill hadm hfill =>
    have moved := List.length_take (i := c.free) (l := c.waiting)
    have left := List.length_drop (i := c.free) (l := c.waiting)
    unfold canFill at hfill
    unfold perform fill
    dsimp only
    split at hfill
    · next hw =>
      have none_left : c.waiting = [] := by simpa using hw
      have noticed : 0 < c.unjoined := by simpa using hfill
      simp only [none_left, List.drop_nil, List.isEmpty_nil, if_true]
      unfold work join
      simp only [none_left, hadm, List.take_nil, List.length_nil]
      omega
    · next hw =>
      have some_left : 0 < c.waiting.length := List.length_pos_iff.mpr (by simpa using hw)
      have some_free : 0 < c.free := by simpa using hfill
      split
      · unfold work join
        simp only [hadm, List.length_nil]
        omega
      · unfold work
        simp only [hadm, List.length_nil]
        omega
  | @land f hf =>
    have fewer : (c.flying.filter fun g => g.position ≠ f.position).length < c.flying.length :=
      List.length_filter_lt_length_iff_exists.mpr ⟨f, hf, by simp⟩
    unfold perform land
    refine Nat.lt_of_le_of_lt (settle_work_le _ _) ?_
    unfold work release
    dsimp only
    omega

/-! ## The cycle on the clock -/

theorem step_of_move {c : Cycle} {t : Nat} {m : Move} (h : c.move? = some (t, m)) :
    c.step = c.perform m := by
  unfold step
  rw [h]

theorem step_of_finished {c : Cycle} (h : c.finished = true) : c.step = c := by
  have none : c.move? = none := by simpa [finished] using h
  unfold step
  rw [none]

/-- A step is a possible move at its time, or the cycle is finished. -/
theorem step_cases (c : Cycle) :
    c.finished = true ∨
      ∃ m, Possible c m ∧ c.step = c.perform m ∧ c.now ≤ c.step.now ∧
        c.nextTime? = some c.step.now := by
  cases h : c.move? with
  | none => exact .inl (by simp [finished, h])
  | some tm =>
    obtain ⟨t, m⟩ := tm
    obtain ⟨possible, time⟩ := move?_spec h
    have step := step_of_move h
    have now : c.step.now = c.timeOf m := by rw [step, perform_now]
    refine .inr ⟨m, possible, step, ?_, ?_⟩
    · rw [now]
      exact now_le_timeOf c m
    · rw [now, ← time, nextTime?, h]
      rfl

theorem stepBefore_none (c : Cycle) : c.stepBefore none = c.step := by
  unfold stepBefore
  cases h : c.nextTime? with
  | some t => rfl
  | none =>
    have finished : c.finished = true := by
      unfold nextTime? at h
      simpa [Cycle.finished] using h
    exact (step_of_finished finished).symm

/-- A step before a limit is a step, or there is none to make. -/
theorem stepBefore_cases (limit : Option Nat) (c : Cycle) :
    c.stepBefore limit = c ∨ c.finished = false ∧ c.stepBefore limit = c.step ∧
      ∀ l, limit = some l → c.step.now < l := by
  rcases step_cases c with h | ⟨m, possible, step, later, time⟩
  · have none : c.nextTime? = none := by
      have := h
      unfold finished at this
      simpa [nextTime?] using this
    left
    unfold stepBefore
    rw [none]
  · have going : c.finished = false := by
      cases hf : c.finished with
      | false => rfl
      | true =>
        have smaller := work_perform_lt possible
        rw [← step, step_of_finished hf] at smaller
        exact absurd smaller (Nat.lt_irrefl _)
    unfold stepBefore
    rw [time]
    cases limit with
    | none => exact .inr ⟨going, rfl, by simp⟩
    | some l =>
      dsimp only
      split
      · next h => exact .inr ⟨going, rfl, by rintro _ ⟨⟩; exact h⟩
      · exact .inl rfl

theorem step_work_lt {c : Cycle} (h : c.finished = false) : c.step.work < c.work := by
  rcases step_cases c with hf | ⟨m, possible, step, -, -⟩
  · rw [h] at hf
    exact absurd hf (by simp)
  · rw [step]
    exact work_perform_lt possible

theorem step_reaches (c : Cycle) : Reaches c c.step := by
  rcases step_cases c with h | ⟨m, possible, step, -, -⟩
  · rw [step_of_finished h]
    exact .refl
  · rw [step]
    exact .next .refl possible

theorem repeat_eq_iterate {α : Type} (f : α → α) (n : Nat) (a : α) : Nat.repeat f n a = f^[n] a := by
  induction n with
  | zero => rfl
  | succ n ih => rw [Function.iterate_succ_apply', ← ih]; rfl

/-- Steps as many as there is work left leave none to make. -/
theorem iterate_stuck (limit : Option Nat) {n : Nat} {c : Cycle} (h : c.work ≤ n) :
    ((stepBefore limit)^[n] c).stepBefore limit = (stepBefore limit)^[n] c := by
  induction n generalizing c with
  | zero =>
    rcases stepBefore_cases limit c with stuck | ⟨going, -, -⟩
    · exact stuck
    · have := step_work_lt going
      omega
  | succ n ih =>
    rw [Function.iterate_succ_apply]
    rcases stepBefore_cases limit c with stuck | ⟨going, step, -⟩
    · rw [stuck, Function.iterate_fixed stuck, stuck]
    · refine ih ?_
      rw [step]
      have := step_work_lt going
      omega

/-- Once no step is left to make, further ones change nothing. -/
theorem iterate_eq_advance (limit : Option Nat) {n : Nat} {c : Cycle} (h : c.work ≤ n) :
    (stepBefore limit)^[n] c = c.advanceBefore limit := by
  unfold advanceBefore
  rw [repeat_eq_iterate]
  obtain ⟨k, rfl⟩ := Nat.exists_eq_add_of_le' h
  rw [Function.iterate_add_apply]
  exact Function.iterate_fixed (iterate_stuck limit (Nat.le_refl _)) k

theorem advance_stuck (limit : Option Nat) (c : Cycle) :
    (c.advanceBefore limit).stepBefore limit = c.advanceBefore limit := by
  rw [← iterate_eq_advance limit (Nat.le_refl _)]
  exact iterate_stuck limit (Nat.le_refl _)

theorem advance_stepBefore (limit : Option Nat) (c : Cycle) :
    (c.stepBefore limit).advanceBefore limit = c.advanceBefore limit := by
  have less : (c.stepBefore limit).work ≤ c.work := by
    rcases stepBefore_cases limit c with stuck | ⟨going, step, -⟩
    · exact Nat.le_of_eq (congrArg work stuck)
    · rw [step]
      exact Nat.le_of_lt (step_work_lt going)
  rw [← iterate_eq_advance limit less, ← Function.iterate_succ_apply,
    iterate_eq_advance limit (Nat.le_succ _)]

/-- What every step before a limit keeps holds of the cycle when it gets there. -/
theorem advance_keep {limit : Option Nat} {P : Cycle → Prop} {c : Cycle}
    (step : ∀ c, P c → P (c.stepBefore limit)) (start : P c) : P (c.advanceBefore limit) := by
  rw [← iterate_eq_advance limit (Nat.le_refl _)]
  generalize c.work = n
  induction n with
  | zero => exact start
  | succ n ih =>
    rw [Function.iterate_succ_apply']
    exact step _ ih

/-- The cycle that runs on the clock is one of those that are reached. -/
theorem advance_reaches (limit : Option Nat) (c : Cycle) : Reaches c (c.advanceBefore limit) := by
  refine advance_keep (P := Reaches c) ?_ .refl
  intro d h
  rcases stepBefore_cases limit d with stuck | ⟨-, step, -⟩
  · rw [stuck]
    exact h
  · rw [step]
    exact h.trans (step_reaches d)

/-- Without a limit a cycle comes to its end. -/
theorem advance_none_finished (c : Cycle) : (c.advanceBefore none).finished = true := by
  have stuck := advance_stuck none c
  rw [stepBefore_none] at stuck
  cases h : (c.advanceBefore none).finished with
  | true => rfl
  | false =>
    have := step_work_lt h
    rw [stuck] at this
    exact absurd this (Nat.lt_irrefl _)

theorem advance_none_of_finished {c : Cycle} (h : c.finished = true) : c.advanceBefore none = c := by
  refine advance_keep (P := fun d => d = c) ?_ rfl
  rintro d rfl
  rw [stepBefore_none, step_of_finished h]

theorem advance_none_step (c : Cycle) : c.step.advanceBefore none = c.advanceBefore none := by
  rw [← stepBefore_none, advance_stepBefore]

/-- What is left of a cycle after a limit leads to the same end. -/
theorem advance_none_advance (limit : Option Nat) (c : Cycle) :
    (c.advanceBefore limit).advanceBefore none = c.advanceBefore none := by
  refine advance_keep (P := fun d => d.advanceBefore none = c.advanceBefore none) ?_ rfl
  intro d h
  rcases stepBefore_cases limit d with stuck | ⟨-, step, -⟩
  · rw [stuck, h]
  · rw [step, advance_none_step, h]

theorem step_now_le (c : Cycle) : c.now ≤ c.step.now := by
  rcases step_cases c with h | ⟨m, -, -, later, -⟩
  · exact Nat.le_of_eq (congrArg Cycle.now (step_of_finished h).symm)
  · exact later

theorem now_le_advance (limit : Option Nat) (c : Cycle) : c.now ≤ (c.advanceBefore limit).now := by
  refine advance_keep (P := fun d => c.now ≤ d.now) ?_ (Nat.le_refl _)
  intro d h
  rcases stepBefore_cases limit d with stuck | ⟨-, step, -⟩
  · rw [stuck]
    exact h
  · rw [step]
    exact Nat.le_trans h (step_now_le d)

/-- A limit past the end of the cycle makes no difference. -/
theorem advance_some_eq {l : Nat} {c : Cycle} (h : (c.advanceBefore none).now < l) :
    c.advanceBefore (some l) = c.advanceBefore none := by
  have same : ∀ d : Cycle, d.advanceBefore none = c.advanceBefore none →
      d.stepBefore (some l) = d.step := by
    intro d hd
    rcases step_cases d with hf | ⟨m, -, -, -, time⟩
    · rcases stepBefore_cases (some l) d with stuck | ⟨-, step, -⟩
      · rw [stuck, step_of_finished hf]
      · exact step
    · have early : d.step.now < l := by
        refine Nat.lt_of_le_of_lt ?_ h
        rw [← hd, ← advance_none_step]
        exact now_le_advance none d.step
      unfold stepBefore
      rw [time]
      exact if_pos early
  have whole : (c.advanceBefore (some l)).advanceBefore none = c.advanceBefore none :=
    advance_none_advance (some l) c
  have stuck := advance_stuck (some l) c
  rw [same _ whole] at stuck
  rw [← whole]
  cases hf : (c.advanceBefore (some l)).finished with
  | true => exact (advance_none_of_finished hf).symm
  | false =>
    have := step_work_lt hf
    rw [stuck] at this
    exact absurd this (Nat.lt_irrefl _)

/-- The cycle finishes before a limit exactly if its end lies before it. -/
theorem advance_finished_iff {l : Nat} {c : Cycle} :
    (c.advanceBefore (some l)).finished = true ∧ (c.advanceBefore (some l)).now < l ↔
      (c.advanceBefore none).now < l := by
  constructor
  · rintro ⟨hf, early⟩
    rw [← advance_none_advance (some l), advance_none_of_finished hf]
    exact early
  · intro h
    rw [advance_some_eq h]
    exact ⟨advance_none_finished c, h⟩

end Cycle

end PingWatch
