import PingWatch.Proofs.Echo.Course

/-!
# Rounds with time for every request

When the deadline leaves each request a full wait, and the ticks are no further apart than that, no
request is late for what happened to the others: request `k` goes out within the first `k` waits
(`sentAt_le`), is not cut off by the deadline, and so is answered or not by its own answer alone
(`own_answer_decides`).
-/

namespace PingWatch

namespace Round

/-- The end of the clock, in milliseconds. -/
def clockEnd : Nat := clockSeconds * 1000

/-- The deadline of the round has a full wait for each of its requests, at least one, and a wait is
at least as long as the distance of the ticks. -/
structure Shared (r : Round) : Prop where
  count : 1 ≤ r.count.toNat
  wait : 0 < r.wait
  spacing : r.spacing ≤ r.wait
  deadline : r.start + r.count.toNat * r.wait ≤ r.deadline

/-- Whether request `k` is sent and answered in time. -/
def Answered (r : Round) (k : Nat) : Prop := ∃ e ∈ r.echoes, e.number = k ∧ e.rtt?.isSome = true

variable {r : Round}

namespace Shared

theorem start_le_deadline (h : r.Shared) : r.start ≤ r.deadline :=
  Nat.le_trans (Nat.le_add_right ..) h.deadline

/-- Up to the last request the waits fit in before the deadline. -/
theorem add_mul_wait_le (h : r.Shared) {k : Nat} (some_left : k < r.count.toNat) :
    r.start + k * r.wait + r.wait ≤ r.deadline := by
  have waits : (k + 1) * r.wait ≤ r.count.toNat * r.wait := Nat.mul_le_mul_right _ some_left
  have deadline := h.deadline
  rw [Nat.add_one_mul] at waits
  omega

theorem tick_le (h : r.Shared) (k : Nat) : r.tick k ≤ r.start + k * r.wait :=
  Nat.add_le_add_left (Nat.mul_le_mul_left _ h.spacing) _

/-- A request that goes out within the waits of those before it may wait for the full time. -/
theorem patience_eq (h : r.Shared) {k now : Nat} (some_left : k < r.count.toNat)
    (early : now ≤ r.start + k * r.wait) : r.patience now = r.wait := by
  have fits := h.add_mul_wait_le some_left
  unfold patience
  omega

theorem waited_le (patience : Nat) (a : Answer) : a.waited patience ≤ patience := by
  unfold Answer.waited
  cases a.after? with
  | none => exact Nat.le_refl _
  | some d => exact Nat.min_le_right ..

/-- A request that goes out within the waits of those before it is done with when its own is
over. -/
theorem closedAt_le (h : r.Shared) {k now : Nat} (some_left : k < r.count.toNat)
    (early : r.next k now ≤ r.start + k * r.wait) :
    (r.sending k now).closedAt ≤ r.start + (k + 1) * r.wait := by
  have sent : r.next k now ≤ r.deadline :=
    Nat.le_trans (Nat.le_trans early (Nat.le_add_right _ r.wait)) (h.add_mul_wait_le some_left)
  have waited := waited_le (r.patience (r.next k now)) (r.answer k)
  rw [h.patience_eq some_left early] at waited
  unfold sending
  rw [echo_eq sent, h.patience_eq some_left early, Nat.add_one_mul]
  dsimp only
  omega

/-- From request `k` on, all requests that are left go out, each within the waits of those before
it. -/
theorem echoesFrom_all (h : r.Shared) {k now left : Nat} (all : k + left = r.count.toNat)
    (since : r.start ≤ now) (early : now ≤ r.start + k * r.wait) :
    (r.echoesFrom k now left).1.length = left ∧
      ∀ e ∈ (r.echoesFrom k now left).1, e.sentAt ≤ r.start + e.number * r.wait := by
  induction left generalizing k now with
  | zero => exact ⟨rfl, fun _ he => absurd he List.not_mem_nil⟩
  | succ left ih =>
    have some_left : k < r.count.toNat := by omega
    have next : r.next k now ≤ r.start + k * r.wait := by
      rw [r.next_eq_max since]
      exact Nat.max_le.mpr ⟨early, h.tick_le k⟩
    have fits := h.add_mul_wait_le some_left
    have sent : r.next k now ≤ r.deadline := by omega
    have closed := h.closedAt_le some_left next
    obtain ⟨cut, -⟩ | ⟨-, last, eq⟩ | ⟨-, -, eq⟩ :=
      r.echoesFrom_cases (Nat.le_trans (r.le_next k now) sent) k left
    · exact absurd sent (Nat.not_le.mpr cut)
    · -- a request that is open up to the deadline is the last, for the next would need its wait
      have none_left : left = 0 := by
        rcases Nat.eq_zero_or_pos left with none_left | more
        · exact none_left
        · have fits' := h.add_mul_wait_le (k := k + 1) (by omega)
          have wait := h.wait
          omega
      rw [eq, none_left]
      exact ⟨rfl, List.forall_mem_singleton.mpr next⟩
    · have later : r.start ≤ (r.sending k now).closedAt :=
        Nat.le_trans since (Nat.le_trans (r.le_next k now) (r.le_closes ..))
      obtain ⟨length, rest⟩ := ih (by omega) later closed
      rw [eq]
      exact ⟨congrArg (· + 1) length, List.forall_mem_cons.mpr ⟨next, rest⟩⟩

theorem length_echoes (h : r.Shared) : r.echoes.length = r.count.toNat :=
  (h.echoesFrom_all (Nat.zero_add _) (Nat.le_refl _) (Nat.le_add_right ..)).1

/-- A request goes out within the waits of those before it. -/
theorem sentAt_le (h : r.Shared) {e : Echo} (he : e ∈ r.echoes) :
    e.sentAt ≤ r.start + e.number * r.wait :=
  (h.echoesFrom_all (Nat.zero_add _) (Nat.le_refl _) (Nat.le_add_right ..)).2 e he

theorem numbers (h : r.Shared) : r.echoes.map (·.number) = List.range r.count.toNat := by
  rw [(regular h.start_le_deadline).numbers, h.length_echoes]

theorem number_lt (h : r.Shared) {e : Echo} (he : e ∈ r.echoes) : e.number < r.count.toNat := by
  have listed : e.number ∈ r.echoes.map (·.number) := List.mem_map_of_mem he
  rw [h.numbers] at listed
  exact List.mem_range.mp listed

/-- Whether a reply counts is a matter of the request's own answer. -/
theorem rtt_eq (h : r.Shared) {e : Echo} (he : e ∈ r.echoes) :
    e.rtt? = (r.answer e.number).replyWithin? r.wait := by
  rw [(regular h.start_le_deadline).replies e he,
    h.patience_eq (h.number_lt he) (h.sentAt_le he)]

theorem answered_iff (h : r.Shared) {k : Nat} :
    r.Answered k ↔ k < r.count.toNat ∧ ((r.answer k).replyWithin? r.wait).isSome = true := by
  constructor
  · rintro ⟨e, he, rfl, answered⟩
    rw [h.rtt_eq he] at answered
    exact ⟨h.number_lt he, answered⟩
  · rintro ⟨inside, answered⟩
    have listed : k ∈ r.echoes.map (·.number) := by
      rw [h.numbers]
      exact List.mem_range.mpr inside
    obtain ⟨e, he, rfl⟩ := List.mem_map.mp listed
    exact ⟨e, he, rfl, by rw [h.rtt_eq he]; exact answered⟩

theorem countP_answered (h : r.Shared) :
    r.echoes.countP (·.rtt?.isSome) =
      (List.range r.count.toNat).countP fun k => ((r.answer k).replyWithin? r.wait).isSome := by
  rw [← h.numbers, List.countP_map]
  refine List.countP_congr fun e he => ?_
  rw [h.rtt_eq he]
  rfl

/-- The clock can name the wait if it can name the deadline. -/
theorem ofWait?_eq (h : r.Shared) (named : r.deadline < clockEnd) :
    ofWait? r.count r.spacing (.ofMillis r.wait) r.start r.deadline r.answer = .ok r := by
  have fits := h.add_mul_wait_le (k := 0) h.count
  have wait : (Duration.ofMillis r.wait).seconds < clockSeconds := by
    unfold clockEnd at named
    refine Nat.div_lt_of_lt_mul ?_
    rw [Duration.nanos_ofMillis]
    simp only [Duration.perMilli, Duration.perSecond]
    omega
  unfold ofWait?
  rw [if_neg fun past => Nat.not_le.mpr wait past.2, Duration.millisUp_ofMillis]

end Shared

/-- **A lost reply costs its own share.**  When the deadline has a wait for each request, the round
sends them all in order, request `k` within the first `k` waits.  A request is answered if and only
if its own answer is a reply that is there within its wait, and stays so whatever the answers to the
others are.  The summary counts just these requests. -/
theorem own_answer_decides (h : r.Shared) :
    (r.deadline < clockEnd →
      ofWait? r.count r.spacing (.ofMillis r.wait) r.start r.deadline r.answer = .ok r) ∧
    r.echoes.map (·.number) = List.range r.count.toNat ∧
    (∀ e ∈ r.echoes, e.sentAt ≤ r.start + e.number * r.wait ∧
      e.rtt? = (r.answer e.number).replyWithin? r.wait) ∧
    (∀ k, r.Answered k ↔ k < r.count.toNat ∧ ((r.answer k).replyWithin? r.wait).isSome = true) ∧
    (∀ (answer : Nat → Answer) (k : Nat), answer k = r.answer k →
      (({ r with answer } : Round).Answered k ↔ r.Answered k)) ∧
    (r.TotalFits → ∃ s, r.summary? = some s ∧ s.sent = r.count.toNat ∧
      s.received =
        (List.range r.count.toNat).countP fun k => ((r.answer k).replyWithin? r.wait).isSome) := by
  refine ⟨h.ofWait?_eq, h.numbers, fun e he => ⟨h.sentAt_le he, h.rtt_eq he⟩,
    fun _ => h.answered_iff, fun answer k same => ?_, fun fits => ?_⟩
  · have h' : ({ r with answer } : Round).Shared := ⟨h.count, h.wait, h.spacing, h.deadline⟩
    rw [h'.answered_iff, h.answered_iff]
    dsimp only
    rw [same]
  · obtain ⟨s, summary, sent, received, -⟩ :=
      (regular h.start_le_deadline).exists_summary fits
    exact ⟨s, summary, sent, received.trans h.countP_answered⟩

/-- Five requests with a second for each; the first is never answered, the third too late and the
fourth at the last moment. -/
def straggling : Round where
  count := 5
  spacing := 100
  wait := 1000
  start := 0
  deadline := 5000
  answer k := match k with
    | 0 => .silence
    | 2 => .reply 1001 (.ofMillis 1001)
    | 3 => .reply 1000 (.ofMillis 1000)
    | _ => .reply 1 (.ofMillis 1)

/-- Three of the five count. -/
theorem straggling_counts :
    ofWait? 5 100 (.ofMillis 1000) 0 5000 straggling.answer = .ok straggling ∧
    ∃ s, straggling.summary? = some s ∧ s.sent = 5 ∧ s.received = 3 ∧
      straggling.Answered 3 ∧ ¬ straggling.Answered 2 := by
  have shared : straggling.Shared := ⟨by decide, by decide, by decide, by decide⟩
  obtain ⟨comes, -, -, answered, -, summarised⟩ := own_answer_decides shared
  obtain ⟨s, summary, sent, received⟩ := summarised (by unfold TotalFits; decide)
  refine ⟨comes (by decide), s, summary, sent, received, (answered 3).mpr (by decide), ?_⟩
  exact fun third => absurd ((answered 2).mp third).2 (by decide)

end Round

end PingWatch
