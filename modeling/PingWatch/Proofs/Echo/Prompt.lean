import PingWatch.Proofs.Config.Timing
import PingWatch.Proofs.Echo.Deadline
import PingWatch.Proofs.Echo.Loss
import PingWatch.Proofs.Echo.Replies

/-!
# Rounds that are answered at once

When every request is answered at once, nothing but the ticker keeps a round waiting: request `k`
goes out at tick `k`, and the ticks after the deadline are not reached any more
(`Round.echoes_of_prompt`).  `EchoConfig.prompt_round` counts them for an accepted configuration, of
which the deadline may be too early for all requests: then even a perfect far side loses some.
-/

namespace PingWatch

/-- The answers of a far side that replies to every request at once. -/
def Answer.prompt (rtt : Nat → Duration) (k : Nat) : Answer := .reply 0 (rtt k)

namespace Round

/-- How many ticks there are up to the deadline. -/
def ticks (r : Round) : Nat := (r.deadline - r.start) / r.spacing + 1

/-- Request `k` as it is sent at its tick and answered at once. -/
def promptEcho (r : Round) (rtt : Nat → Duration) (k : Nat) : Echo :=
  { number := k, sentAt := r.tick k, closedAt := r.tick k, rtt? := some (rtt k) }

variable {r : Round} {rtt : Nat → Duration}

theorem tick_le_deadline_iff (spaced : 0 < r.spacing) (h : r.start ≤ r.deadline) {k : Nat} :
    r.tick k ≤ r.deadline ↔ k < r.ticks := by
  unfold tick ticks
  rw [Nat.lt_succ_iff, Nat.le_div_iff_mul_le spaced]
  omega

theorem next_eq_tick (spaced : 0 < r.spacing) {k now : Nat} (early : now ≤ r.tick k) :
    r.next k now = r.tick k := by
  unfold next
  rw [if_neg (Nat.ne_of_gt spaced)]
  exact Nat.max_eq_right early

theorem sending_of_prompt (answers : r.answer = .prompt rtt) (spaced : 0 < r.spacing)
    {k now : Nat} (early : now ≤ r.tick k) : r.sending k now = r.promptEcho rtt k := by
  unfold sending
  rw [next_eq_tick spaced early, echo, answers]
  simp [promptEcho, Answer.prompt, closes, inTime, Answer.after?, Answer.rtt?]

/-- From request `k` on, one request goes out at each of the ticks that are left up to the deadline,
as long as requests remain. -/
theorem echoesFrom_of_prompt (answers : r.answer = .prompt rtt) (spaced : 0 < r.spacing)
    (h : r.start ≤ r.deadline) {k now left : Nat} (early : now ≤ r.tick k)
    (going : now ≤ r.deadline) :
    (r.echoesFrom k now left).1 =
      (List.range' k (min left (r.ticks - k))).map (r.promptEcho rtt) := by
  induction left generalizing k now with
  | zero => simp [echoesFrom]
  | succ left ih =>
    have tick : r.next k now = r.tick k := next_eq_tick spaced early
    have later : r.tick k < r.tick (k + 1) := by
      unfold Round.tick
      rw [Nat.add_one_mul]
      omega
    have ways := r.echoesFrom_cases going k left
    rw [sending_of_prompt answers spaced early, tick] at ways
    obtain ⟨cut, eq⟩ | ⟨sent, last, eq⟩ | ⟨sent, closed, eq⟩ := ways
    · have none_left : ¬ k < r.ticks :=
        fun more => Nat.not_le.mpr cut ((tick_le_deadline_iff spaced h).mpr more)
      rw [eq, show min (left + 1) (r.ticks - k) = 0 by omega]
      rfl
    · have this_one : k < r.ticks := (tick_le_deadline_iff spaced h).mp sent
      have no_other : ¬ k + 1 < r.ticks := fun more =>
        Nat.not_le.mpr later (Nat.le_trans ((tick_le_deadline_iff spaced h).mpr more) last)
      rw [eq, show min (left + 1) (r.ticks - k) = 1 by omega]
      rfl
    · have this_one : k < r.ticks := (tick_le_deadline_iff spaced h).mp sent
      have rest := ih (Nat.le_of_lt later) (Nat.le_of_lt closed)
      rw [eq, show min (left + 1) (r.ticks - k) = min left (r.ticks - (k + 1)) + 1 by omega,
        List.range'_succ, List.map_cons, ← rest]
      rfl

/-- A round that is answered at once sends as many requests as there are ticks up to its
deadline, but no more than its count, each at its tick. -/
theorem echoes_of_prompt (answers : r.answer = .prompt rtt) (spaced : 0 < r.spacing)
    (h : r.start ≤ r.deadline) :
    r.echoes = (List.range (min r.count.toNat r.ticks)).map (r.promptEcho rtt) := by
  rw [List.range_eq_range']
  exact echoesFrom_of_prompt answers spaced h (Nat.le_add_right ..) h

theorem rtts_of_prompt (answers : r.answer = .prompt rtt) (spaced : 0 < r.spacing)
    (h : r.start ≤ r.deadline) : r.rtts = (List.range (min r.count.toNat r.ticks)).map rtt := by
  unfold rtts
  rw [echoes_of_prompt answers spaced h, List.filterMap_map, ← List.filterMap_eq_map]
  rfl

end Round

namespace EchoConfig

variable {c : EchoConfig}

/-- How many requests of a round there is time for. -/
def requestsInTime (c : EchoConfig) : Nat :=
  min c.count.toNat (c.timeout.nanos / c.pingInterval.nanos + 1)

/-- There is time for all requests if the last of them does not come after the deadline. -/
theorem Accepted.requestsInTime_eq_count_iff (h : c.Accepted) :
    c.requestsInTime = c.count.toNat ↔
      (c.count.toNat - 1) * c.pingInterval.nanos ≤ c.timeout.nanos := by
  unfold requestsInTime
  rw [← Nat.le_div_iff_mul_le h.pingInterval.nanos_pos]
  have some_sent := h.count.1
  omega

theorem Accepted.ticks_eq (h : c.Accepted) (start : Nat) (answer : Nat → Answer) :
    (c.echoOptions.round start answer).ticks = c.timeout.nanos / c.pingInterval.nanos + 1 := by
  obtain ⟨n, -, -, timeout⟩ := h.timeout
  obtain ⟨p, -, -, pingInterval⟩ := h.pingInterval
  show (start + c.timeout.millisUp - start) / c.pingInterval.millisUp + 1 = _
  rw [Nat.add_sub_cancel_left, timeout, pingInterval, Duration.millisUp_ofMillis,
    Duration.millisUp_ofMillis, Duration.nanos_ofMillis, Duration.nanos_ofMillis,
    Nat.mul_div_mul_right _ _ (by decide)]

theorem Accepted.spacing_pos (h : c.Accepted) : 0 < c.pingInterval.millisUp := by
  obtain ⟨p, pos, -, pingInterval⟩ := h.pingInterval
  rw [pingInterval, Duration.millisUp_ofMillis]
  exact pos

/-- **A perfect network.**  A round of an accepted configuration whose requests are all answered at
once sends request `k` after `k` ping intervals, until its count or its deadline is reached, and
every request that it sends is answered.  It sends them all exactly if the last one is due by the
deadline, and then nothing is lost. -/
theorem prompt_round {props : Properties} {c : EchoConfig} (accepted : ofProperties props = .ok c)
    (start : Nat) (rtt : Nat → Duration) :
    ∃ r, c.echoOptions.round? start (.prompt rtt) = .ok r ∧
      r.echoes = (List.range c.requestsInTime).map (fun k =>
        { number := k, sentAt := start + k * c.pingInterval.millisUp,
          closedAt := start + k * c.pingInterval.millisUp, rtt? := some (rtt k) }) ∧
      (c.requestsInTime = c.count.toNat ↔
        (c.count.toNat - 1) * c.pingInterval.nanos ≤ c.timeout.nanos) ∧
      (Duration.total ((List.range c.requestsInTime).map rtt) ≤ Duration.largest.nanos →
        ∃ s, r.summary? = some s ∧ s.sent = c.count.toNat ∧ s.received = c.requestsInTime ∧
          (s.received = c.count.toNat → s.loss = 0.0)) := by
  have sound := EchoConfig.accepted accepted
  have early : start ≤ start + c.timeout.millisUp := Nat.le_add_right ..
  have sent : min (c.echoOptions.round start (.prompt rtt)).count.toNat
      (c.echoOptions.round start (.prompt rtt)).ticks = c.requestsInTime := by
    rw [sound.ticks_eq]
    rfl
  have rtts := Round.rtts_of_prompt (r := c.echoOptions.round start (.prompt rtt)) rfl
    sound.spacing_pos early
  have echoes := Round.echoes_of_prompt (r := c.echoOptions.round start (.prompt rtt)) rfl
    sound.spacing_pos early
  rw [sent] at rtts echoes
  refine ⟨_, sound.round?_eq start _, echoes, sound.requestsInTime_eq_count_iff, fun fits => ?_⟩
  obtain ⟨s, summary, all, received⟩ := Round.exists_summary (r := c.echoOptions.round start
    (.prompt rtt)) (show Duration.total _ ≤ _ from rtts ▸ fits)
  rw [rtts, List.length_map, List.length_range] at received
  have within : c.requestsInTime ≤ c.count.toNat := Nat.min_le_left ..
  refine ⟨s, summary, all, received.trans (Nat.min_eq_left within), fun answered => ?_⟩
  have digits : c.count.toNat.log2 < 53 :=
    (Nat.log2_lt (Nat.ne_of_gt sound.count.1)).mpr (Nat.lt_of_le_of_lt sound.count.2 (by decide))
  exact EchoSummary.loss_eq_zero (all ▸ sound.count.1) (all ▸ digits) (answered.trans all.symm)

/-- Five requests at intervals of 100 milliseconds are all sent within five seconds. -/
theorem prompt_round_usual :
    ∃ c r s, ofProperties (.parse "") = .ok c ∧
      c.echoOptions.round? 0 (.prompt fun _ => .ofMillis 1) = .ok r ∧ r.summary? = some s ∧
      r.echoes.map (·.sentAt) = [0, 100, 200, 300, 400] ∧ s.received = 5 ∧ s.loss = 0.0 := by
  have accepted : ofProperties (.parse "") = .ok {} := by rfl
  obtain ⟨r, run, echoes, -, summarised⟩ := prompt_round accepted 0 (fun _ => .ofMillis 1)
  obtain ⟨s, summary, -, received, lossless⟩ := summarised (by decide)
  exact ⟨_, r, s, accepted, run, summary, by rw [echoes]; decide, received, lossless received⟩

/-- Three requests at intervals of three seconds are not: the last one is due after six seconds. It
is not sent and counts as lost, and the perfect far side is reported as lossy. -/
theorem unsent_request_is_lost :
    ∃ c r s, ofProperties (.parse "count: 3\nping_interval: 3s") = .ok c ∧ c.count = 3 ∧
      c.echoOptions.round? 0 (.prompt fun _ => .ofMillis 1) = .ok r ∧ r.summary? = some s ∧
      r.echoes.map (·.sentAt) = [0, 3000] ∧ s.received = 2 ∧ s.loss ≠ 0.0 := by
  have accepted : ofProperties (.parse "count: 3\nping_interval: 3s") =
      .ok { count := 3, pingInterval := .ofSeconds 3 } := by rfl
  refine ⟨_, _, _, accepted, rfl, rfl, rfl, ?_, ?_, ?_⟩
  · decide
  · decide
  · decide

end EchoConfig

end PingWatch
