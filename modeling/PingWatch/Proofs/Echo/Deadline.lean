import PingWatch.Echo.Round

/-!
# A round keeps its deadline

A round that has not passed its deadline goes on with its next request in one of three ways
(`echoesFrom_cases`): the tick comes after the deadline, and nothing is sent any more; the request
goes out and its wait lasts until the deadline; or its wait is over before, and the round goes on.
In none of them does the clock go back or past the deadline (`start_le_finish`,
`finish_le_deadline`).
-/

namespace PingWatch

namespace Round

/-- The tick that request `k` waits for. -/
def tick (r : Round) (k : Nat) : Nat := r.start + k * r.spacing

variable (r : Round)

/-- Request `k` as it goes out when the round has come to `now`. -/
def sending (k now : Nat) : Echo := r.echo k (r.next k now)

/-- The wait for a reply is over by the deadline, whatever the answer. -/
theorem closes_le_deadline {now : Nat} (h : now ≤ r.deadline) (a : Answer) :
    r.closes now a ≤ r.deadline := by
  have limit : r.limit now ≤ r.deadline := Nat.min_le_right ..
  unfold closes
  cases a.after? with
  | none => exact Nat.max_le.mpr ⟨h, limit⟩
  | some d =>
    dsimp only
    by_cases there : (d = 0 || now + d ≤ r.limit now) = true
    · rw [if_pos there]
      rw [Bool.or_eq_true, decide_eq_true_eq, decide_eq_true_eq] at there
      omega
    · rw [if_neg there]
      exact Nat.max_le.mpr ⟨h, limit⟩

theorem le_closes (now : Nat) (a : Answer) : now ≤ r.closes now a := by
  unfold closes
  cases a.after? with
  | none => exact Nat.le_max_left ..
  | some d =>
    dsimp only
    by_cases there : (d = 0 || now + d ≤ r.limit now) = true
    · rw [if_pos there]
      exact Nat.le_add_right ..
    · rw [if_neg there]
      exact Nat.le_max_left ..

/-- No request goes out before the round has come to it. -/
theorem le_next (k now : Nat) : now ≤ r.next k now := by
  unfold next
  by_cases ticks : r.spacing = 0
  · exact Nat.le_of_eq (if_pos ticks).symm
  · rw [if_neg ticks]
    exact Nat.le_max_left ..

/-- A request goes out at its tick, or at once when that has passed. -/
theorem next_eq_max {now : Nat} (since : r.start ≤ now) (k : Nat) :
    r.next k now = max now (r.tick k) := by
  unfold next tick
  by_cases ticks : r.spacing = 0
  · rw [if_pos ticks, ticks, Nat.mul_zero, Nat.add_zero, Nat.max_eq_left since]
  · exact if_neg ticks

/-- How a round goes on that has come to `now` with at least one request left. -/
theorem echoesFrom_cases {now : Nat} (h : now ≤ r.deadline) (k left : Nat) :
    (r.deadline < r.next k now ∧ r.echoesFrom k now (left + 1) = ([], r.deadline)) ∨
    (r.next k now ≤ r.deadline ∧ r.deadline ≤ (r.sending k now).closedAt ∧
      r.echoesFrom k now (left + 1) = ([r.sending k now], (r.sending k now).closedAt)) ∨
    (r.next k now ≤ r.deadline ∧ (r.sending k now).closedAt < r.deadline ∧
      r.echoesFrom k now (left + 1) =
        (r.sending k now :: (r.echoesFrom (k + 1) (r.sending k now).closedAt left).1,
          (r.echoesFrom (k + 1) (r.sending k now).closedAt left).2)) := by
  rw [echoesFrom]
  unfold sending
  by_cases cut : r.deadline < r.next k now
  · have waits : now < r.next k now := Nat.lt_of_le_of_lt h cut
    rw [if_pos ⟨waits, cut⟩, Nat.max_eq_right h]
    exact .inl ⟨cut, rfl⟩
  · have sent : r.next k now ≤ r.deadline := Nat.le_of_not_lt cut
    rw [if_neg (fun both => cut both.2)]
    by_cases last : r.deadline ≤ (r.echo k (r.next k now)).closedAt
    · rw [if_pos last]
      exact .inr (.inl ⟨sent, last, rfl⟩)
    · rw [if_neg last]
      exact .inr (.inr ⟨sent, Nat.lt_of_not_le last, rfl⟩)

theorem echoesFrom_le_deadline {k now left : Nat} (h : now ≤ r.deadline) :
    (r.echoesFrom k now left).2 ≤ r.deadline := by
  induction left generalizing k now with
  | zero => exact h
  | succ left ih =>
    obtain ⟨-, eq⟩ | ⟨sent, -, eq⟩ | ⟨-, closed, eq⟩ := r.echoesFrom_cases h k left
    · exact Nat.le_of_eq (congrArg Prod.snd eq)
    · rw [eq]
      exact r.closes_le_deadline sent _
    · rw [eq]
      exact ih (Nat.le_of_lt closed)

theorem le_echoesFrom {k now left : Nat} (h : now ≤ r.deadline) :
    now ≤ (r.echoesFrom k now left).2 := by
  induction left generalizing k now with
  | zero => exact Nat.le_refl _
  | succ left ih =>
    have closed : now ≤ (r.sending k now).closedAt :=
      Nat.le_trans (r.le_next k now) (r.le_closes ..)
    obtain ⟨-, eq⟩ | ⟨-, -, eq⟩ | ⟨-, early, eq⟩ := r.echoesFrom_cases h k left
    · rw [eq]
      exact h
    · rw [eq]
      exact closed
    · rw [eq]
      exact Nat.le_trans closed (ih (Nat.le_of_lt early))

theorem start_le_finish (h : r.start ≤ r.deadline) : r.start ≤ r.finish :=
  r.le_echoesFrom h

/-- A round is over by its deadline, however its requests are answered. -/
theorem finish_le_deadline (h : r.start ≤ r.deadline) : r.finish ≤ r.deadline :=
  r.echoesFrom_le_deadline h

end Round

end PingWatch
