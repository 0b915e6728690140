import Mathlib.Data.List.Nodup
import PingWatch.Proofs.Cycle.Moves

/-!
# The fan-out of a cycle

The checks of a cycle begin in the order of its targets, each at most once, and at no time are more
of them under way than the cycle has slots.

* `Line`: the checks begun and the targets left are the targets of the cycle, in order.
* `Seats`: every check under way and every admitted target has a slot of its own, and the other
  slots are free; none is lost and none is given back early.
* `Booked`: the checks under way are those begun that have not come to their ends.

Each is kept by every possible move, so it holds in whatever order the checks end.
-/

namespace PingWatch

/-- The checks begun with their times, `begun` in the order in which they began. -/
def timetable (jobs : List Job) (begun : List (Nat × String)) : List (Nat × Job) :=
  (begun.map (·.1)).zip jobs

/-- Whether the check of an entry is under way at `τ` when it may take `timeout`. -/
def underWay (timeout τ : Nat) (e : Nat × Job) : Bool :=
  e.1 ≤ τ && τ < e.1 + e.2.span timeout

theorem timetable_concat {jobs rest : List Job} {j : Job} {begun : List (Nat × String)}
    (h : jobs.drop begun.length = j :: rest) (t : Nat) (target : String) :
    timetable jobs (begun ++ [(t, target)]) = timetable jobs begun ++ [(t, j)] := by
  induction begun generalizing jobs with
  | nil =>
    obtain rfl : jobs = j :: rest := h
    rfl
  | cons b bs ih =>
    cases jobs with
    | nil => exact absurd h (by simp)
    | cons k ks => exact congrArg ((b.1, k) :: ·) (ih h)

namespace Cycle

/-- The checks a cycle over `jobs` has begun, with their times, in order. -/
def entries (jobs : List Job) (c : Cycle) : List (Nat × Job) := timetable jobs c.begun.reverse

/-! ## Targets in line -/

/-- Where the targets of a cycle over `jobs` stand that began at `t₀`. -/
structure Line (jobs : List Job) (t₀ : Nat) (c : Cycle) : Prop where
  order : c.begun.reverse.map (·.2) = (jobs.take c.begun.length).map (·.target)
  left : c.admitted ++ c.waiting = jobs.drop c.begun.length
  sorted : c.begun.Pairwise (·.1 ≥ ·.1)
  past : ∀ e ∈ c.begun, t₀ ≤ e.1 ∧ e.1 ≤ c.now
  since : t₀ ≤ c.now

theorem Line.start (kind : Kind) (slots timeout t₀ : Nat) (jobs : List Job) :
    Line jobs t₀ (start kind slots timeout t₀ jobs) where
  order := by simp [Cycle.start]
  left := rfl
  sorted := .nil
  past := fun _ he => absurd he List.not_mem_nil
  since := Nat.le_refl _

theorem Line.keep {jobs : List Job} {t₀ : Nat} {c : Cycle} {m : Move} (hm : Possible c m)
    (h : Line jobs t₀ c) : Line jobs t₀ (c.perform m) := by
  cases hm with
  | @begin j rest hadm =>
    obtain ⟨s, f, u, e⟩ := perform_begin c j rest
    rw [e]
    have left : jobs.drop c.begun.length = j :: (rest ++ c.waiting) := by
      rw [← h.left, hadm, List.cons_append]
    have next : jobs[c.begun.length]? = some j := by
      rw [← List.head?_drop, left, List.head?_cons]
    refine ⟨?_, ?_, ?_, ?_, h.since⟩
    · simp only [List.reverse_cons, List.map_append, List.length_cons, List.take_add_one, next,
        h.order, List.map_cons, List.map_nil, Option.toList_some]
    · simp only [List.length_cons]
      rw [← List.tail_drop, left, List.tail_cons]
    · exact List.pairwise_cons.mpr ⟨fun e he => (h.past e he).2, h.sorted⟩
    · intro e he
      rcases List.mem_cons.mp he with rfl | he
      · exact ⟨h.since, Nat.le_refl _⟩
      · exact h.past e he
  | fill hadm hfill =>
    obtain ⟨s, f, u, e⟩ := perform_fill c
    rw [e]
    refine ⟨h.order, ?_, h.sorted, h.past, h.since⟩
    have left := h.left
    rw [hadm, List.nil_append] at left
    rw [← left]
    exact List.take_append_drop _ _
  | @land f hf =>
    obtain ⟨s, n, u, e⟩ := perform_land c f
    rw [e]
    have later : c.now ≤ max c.now f.due := Nat.le_max_left _ _
    exact ⟨h.order, h.left, h.sorted,
      fun e he => ⟨(h.past e he).1, Nat.le_trans (h.past e he).2 later⟩,
      Nat.le_trans h.since later⟩

/-- The targets checked are the first ones of the list. -/
theorem Line.begun_isPrefix {jobs : List Job} {t₀ : Nat} {c : Cycle} (h : Line jobs t₀ c) :
    c.begun.reverse.map (·.2) <+: jobs.map (·.target) := by
  rw [h.order]
  exact (List.take_prefix _ _).map _

/-- Once no target is left, every one has been checked. -/
theorem Line.begun_all {jobs : List Job} {t₀ : Nat} {c : Cycle} (h : Line jobs t₀ c)
    (waiting : c.waiting = []) (admitted : c.admitted = []) :
    c.begun.reverse.map (·.2) = jobs.map (·.target) := by
  have left := h.left
  rw [waiting, admitted, List.append_nil] at left
  rw [h.order, List.take_of_length_le (List.drop_eq_nil_iff.mp left.symm)]

theorem Line.entries_begin {jobs rest : List Job} {t₀ : Nat} {c : Cycle} {j : Job}
    (h : Line jobs t₀ c) (hadm : c.admitted = j :: rest) :
    timetable jobs ((c.now, j.target) :: c.begun).reverse = c.entries jobs ++ [(c.now, j)] := by
  have left : jobs.drop c.begun.reverse.length = j :: (rest ++ c.waiting) := by
    rw [List.length_reverse, ← h.left, hadm, List.cons_append]
  rw [List.reverse_cons]
  exact timetable_concat left _ _

/-! ## Slots -/

/-- A slot is free or is held by a check under way or an admitted target, and no check lands
twice. -/
structure Seats (c : Cycle) : Prop where
  held : c.free + c.admitted.length + c.flying.length = c.slots
  peak : c.peak ≤ c.slots
  apart : (c.flying.map (·.position)).Nodup
  taken : ∀ f ∈ c.flying, f.position < c.begun.length

theorem Seats.start (kind : Kind) (slots timeout t₀ : Nat) (jobs : List Job) :
    Seats (start kind slots timeout t₀ jobs) where
  held := rfl
  peak := Nat.zero_le _
  apart := .nil
  taken := fun _ hf => absurd hf List.not_mem_nil

theorem mem_launch {c : Cycle} {j : Job} {f : Flight} (h : f ∈ c.launch j) :
    f = { position := c.begun.length, due := c.now + j.span c.timeout
          outcome := j.outcome c.timeout } := by
  unfold launch at h
  split at h
  · exact absurd h List.not_mem_nil
  · exact List.mem_singleton.mp h

theorem launch_length_le (c : Cycle) (j : Job) : (c.launch j).length ≤ 1 := by
  unfold launch
  split
  · exact Nat.zero_le _
  · exact Nat.le_refl _

theorem launch_nodup (c : Cycle) (j : Job) : ((c.launch j).map (·.position)).Nodup := by
  unfold launch
  split <;> simp

/-- A check that lands is the only one to leave the air. -/
theorem perm_landed {fs : List Flight} (apart : (fs.map (·.position)).Nodup) {f : Flight}
    (hf : f ∈ fs) : fs.Perm (f :: fs.filter fun g => decide (g.position ≠ f.position)) := by
  induction fs with
  | nil => exact absurd hf List.not_mem_nil
  | cons g fs ih =>
    rw [List.map_cons, List.nodup_cons] at apart
    obtain ⟨alone, apart⟩ := apart
    rcases List.mem_cons.mp hf with rfl | hf
    · have others : fs.filter (fun g => decide (g.position ≠ f.position)) = fs := by
        refine List.filter_eq_self.mpr fun g hg => ?_
        refine decide_eq_true fun same => alone ?_
        exact List.mem_map.mpr ⟨g, hg, same⟩
      rw [List.filter_cons, if_neg (by simp), others]
    · have other : g.position ≠ f.position := by
        intro same
        exact alone (List.mem_map.mpr ⟨f, hf, same.symm⟩)
      rw [List.filter_cons, if_pos (decide_eq_true other)]
      exact ((ih apart hf).cons g).trans (.swap f g _)

theorem Seats.keep {c : Cycle} {m : Move} (hm : Possible c m) (h : Seats c) :
    Seats (c.perform m) := by
  have held := h.held
  cases hm with
  | @begin j rest hadm =>
    obtain ⟨s, f, u, e⟩ := perform_begin c j rest
    rw [e]
    have one := launch_length_le c j
    rw [hadm, List.length_cons] at held
    refine ⟨?_, ?_, ?_, ?_⟩
    · rw [List.length_append]
      dsimp only
      omega
    · have seat : c.flying.length + 1 ≤ c.slots := by omega
      exact Nat.max_le.mpr ⟨h.peak, seat⟩
    · rw [List.map_append]
      refine List.nodup_append.mpr ⟨h.apart, launch_nodup c j, ?_⟩
      -- a new check sits behind all that have begun
      intro p hp q hq same
      obtain ⟨f, hf, rfl⟩ := List.mem_map.mp hp
      obtain ⟨g, hg, rfl⟩ := List.mem_map.mp hq
      have behind := h.taken f hf
      rw [same, mem_launch hg] at behind
      exact absurd behind (Nat.lt_irrefl _)
    · intro f hf
      rw [List.length_cons]
      rcases List.mem_append.mp hf with hf | hf
      · exact Nat.lt_succ_of_lt (h.taken f hf)
      · rw [mem_launch hf]
        exact Nat.lt_succ_self _
  | fill hadm hfill =>
    obtain ⟨s, f, u, e⟩ := perform_fill c
    rw [e]
    refine ⟨?_, h.peak, h.apart, h.taken⟩
    rw [hadm, List.length_nil] at held
    have granted : (c.waiting.take c.free).length ≤ c.free := List.length_take_le _ _
    dsimp only
    omega
  | @land f hf =>
    obtain ⟨s, n, u, e⟩ := perform_land c f
    rw [e]
    have one_less := (perm_landed h.apart hf).length_eq
    rw [List.length_cons] at one_less
    refine ⟨?_, h.peak, ?_, ?_⟩
    · dsimp only
      omega
    · exact (List.filter_sublist.map _).nodup h.apart
    · exact fun g hg => h.taken g (List.mem_filter.mp hg).1

/-- A cycle that is cut off has all its slots back. -/
theorem Seats.free_cutOff {c : Cycle} (h : Seats c) (now : Nat) : (c.cutOff now).free = c.slots :=
  h.held

/-- A finished cycle has no target left and no check under way. -/
theorem Seats.finished {c : Cycle} (seats : Seats c) (h : c.finished = true) (slots : 0 < c.slots) :
    c.waiting = [] ∧ c.admitted = [] ∧ c.flying = [] ∧ c.unjoined = 0 := by
  have held := seats.held
  unfold Cycle.finished move? at h
  dsimp only at h
  split at h
  · exact absurd h (by simp)
  · split at h
    · exact absurd h (by simp)
    · next hadm =>
      split at h
      · exact absurd h (by simp)
      · next hfill =>
        have flying : c.flying = [] := by
          cases hs : soonest? c.flying with
          | none => exact soonest?_eq_none hs
          | some f => rw [hs] at h; exact absurd h (by simp)
        -- nobody holds a slot, so they are all free
        rw [hadm, flying, List.length_nil, List.length_nil] at held
        unfold canFill at hfill
        split at hfill
        · next hw => exact ⟨by simpa using hw, hadm, flying, by simpa using hfill⟩
        · have none_free : ¬ 0 < c.free := by simpa using hfill
          omega

/-- A position belongs to one check. -/
theorem Seats.eq_of_position {c : Cycle} (h : Seats c) {f g : Flight} (hf : f ∈ c.flying)
    (hg : g ∈ c.flying) (same : f.position = g.position) : f = g :=
  List.inj_on_of_nodup_map h.apart hf hg same

/-! ## Checks under way -/

/-- The checks under way are those begun that have not come to their ends, never more than slots;
time stands at the beginning of the cycle or at the end of a check. -/
structure Booked (jobs : List Job) (t₀ : Nat) (c : Cycle) : Prop where
  due : ∀ f ∈ c.flying, ∃ e ∈ c.entries jobs, f.due = e.1 + e.2.span c.timeout
  now : ∀ τ, c.now ≤ τ →
    (c.entries jobs).countP (underWay c.timeout τ) = c.flying.countP fun f => τ < f.due
  bound : ∀ τ, (c.entries jobs).countP (underWay c.timeout τ) ≤ c.slots
  clock : c.now = t₀ ∨ ∃ e ∈ c.entries jobs, c.now = e.1 + e.2.span c.timeout

theorem Booked.start (kind : Kind) (slots timeout t₀ : Nat) (jobs : List Job) :
    Booked jobs t₀ (start kind slots timeout t₀ jobs) where
  due := fun _ hf => absurd hf List.not_mem_nil
  now := fun _ _ => rfl
  bound := fun _ => Nat.zero_le _
  clock := .inl rfl

/-- A check that begins now is under way as long as it is in the air. -/
theorem countP_launch (c : Cycle) (j : Job) {τ : Nat} (h : c.now ≤ τ) :
    [(c.now, j)].countP (underWay c.timeout τ) = (c.launch j).countP fun f => τ < f.due := by
  have begun : underWay c.timeout τ (c.now, j) = decide (τ < c.now + j.span c.timeout) := by
    simp [underWay, h]
  rw [List.countP_singleton, begun]
  unfold launch
  by_cases hz : j.span c.timeout = 0
  · have past : ¬ τ < c.now + j.span c.timeout := by omega
    rw [if_pos hz, List.countP_nil, decide_eq_false past]
    rfl
  · rw [if_neg hz, List.countP_singleton]

/-- The landing of a check leaves in the air what is due later. -/
theorem countP_landed {c : Cycle} (h : Seats c) {f : Flight} (hf : f ∈ c.flying) {τ : Nat}
    (landed : f.due ≤ τ) :
    (c.flying.filter fun g => decide (g.position ≠ f.position)).countP (fun g => τ < g.due) =
      c.flying.countP fun g => τ < g.due := by
  rw [List.countP_filter]
  refine List.countP_congr fun g hg => ?_
  simp only [Bool.and_eq_true, decide_eq_true_eq, and_iff_left_iff_imp]
  intro later same
  rw [h.eq_of_position hg hf same] at later
  omega

theorem Booked.keep {jobs : List Job} {t₀ : Nat} {c : Cycle} {m : Move} (hm : Possible c m)
    (line : Line jobs t₀ c) (seats : Seats c) (h : Booked jobs t₀ c) :
    Booked jobs t₀ (c.perform m) := by
  have seats' := seats.keep hm
  cases hm with
  | @begin j rest hadm =>
    obtain ⟨s, f, u, e⟩ := perform_begin c j rest
    rw [e] at seats' ⊢
    have added := line.entries_begin hadm
    have now : ∀ τ, c.now ≤ τ →
        (c.entries jobs ++ [(c.now, j)]).countP (underWay c.timeout τ) =
          (c.flying ++ c.launch j).countP fun f => τ < f.due := by
      intro τ hτ
      rw [List.countP_append, List.countP_append, h.now τ hτ, countP_launch c j hτ]
    refine ⟨?_, ?_, ?_, ?_⟩ <;> unfold entries <;> dsimp only <;> rw [added]
    · intro g hg
      rcases List.mem_append.mp hg with hg | hg
      · obtain ⟨e, he, due⟩ := h.due g hg
        exact ⟨e, List.mem_append_left _ he, due⟩
      · refine ⟨(c.now, j), List.mem_append_right _ (List.mem_singleton.mpr rfl), ?_⟩
        rw [mem_launch hg]
    · exact now
    · intro τ
      by_cases hτ : c.now ≤ τ
      · rw [now τ hτ]
        have all := List.countP_le_length (p := fun f : Flight => decide (τ < f.due))
          (l := c.flying ++ c.launch j)
        have held := seats'.held
        dsimp only at held
        omega
      · -- before it begins, the new check is not under way
        have early : underWay c.timeout τ (c.now, j) = false := by simp [underWay, hτ]
        rw [List.countP_append, List.countP_singleton, early]
        exact h.bound τ
    · rcases h.clock with first | ⟨e, he, ended⟩
      · exact .inl first
      · exact .inr ⟨e, List.mem_append_left _ he, ended⟩
  | fill hadm hfill =>
    obtain ⟨s, f, u, e⟩ := perform_fill c
    rw [e]
    exact ⟨h.due, h.now, h.bound, h.clock⟩
  | @land f hf =>
    obtain ⟨s, n, u, e⟩ := perform_land c f
    rw [e]
    refine ⟨fun g hg => h.due g (List.mem_filter.mp hg).1, ?_, h.bound, ?_⟩
    · intro τ hτ
      obtain ⟨began, landed⟩ := Nat.max_le.mp hτ
      exact (h.now τ began).trans (countP_landed seats hf landed).symm
    · obtain ⟨e, he, due⟩ := h.due f hf
      rcases Nat.le_total f.due c.now with early | late
      · exact h.clock.imp ((Nat.max_eq_left early).trans ·)
          fun ⟨e, he, ended⟩ => ⟨e, he, (Nat.max_eq_left early).trans ended⟩
      · exact .inr ⟨e, he, (Nat.max_eq_right late).trans due⟩

/-! ## Every order -/

/-- What holds of every cycle that comes of a start, in whatever order its checks end. -/
structure Orderly (jobs : List Job) (t₀ : Nat) (c : Cycle) : Prop where
  line : Line jobs t₀ c
  seats : Seats c
  booked : Booked jobs t₀ c

theorem Reaches.orderly {kind : Kind} {slots timeout t₀ : Nat} {jobs : List Job} {c : Cycle}
    (h : Reaches (start kind slots timeout t₀ jobs) c) : Orderly jobs t₀ c :=
  h.keep (fun hm o => ⟨o.line.keep hm, o.seats.keep hm, o.booked.keep hm o.line o.seats⟩)
    ⟨.start .., .start .., .start ..⟩

/-- When nothing is under way any more, every check has come to its end. -/
theorem Orderly.ended {jobs : List Job} {t₀ : Nat} {c : Cycle} (h : Orderly jobs t₀ c)
    (landed : c.flying = []) {e : Nat × Job} (he : e ∈ c.entries jobs) :
    e.1 + e.2.span c.timeout ≤ c.now := by
  have nothing := h.booked.now c.now (Nat.le_refl _)
  rw [landed, List.countP_nil, List.countP_eq_zero] at nothing
  have began : e.1 ≤ c.now := by
    obtain ⟨b, hb, time⟩ := List.mem_map.mp (List.of_mem_zip he).1
    rw [← time]
    exact (h.line.past b (List.mem_reverse.mp hb)).2
  have ended := nothing e he
  simp only [underWay, began, decide_true, Bool.true_and, decide_eq_true_eq] at ended
  omega

end Cycle

end PingWatch
