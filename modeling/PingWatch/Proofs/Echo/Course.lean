import PingWatch.Proofs.Echo.Deadline
import PingWatch.Proofs.Echo.Replies

/-!
# The course of a round

Whatever the far side answers, the requests of a round go out in order and one at a time, each when
the one before is done with and its own tick has come, and none after the deadline.  How long a
request waits and whether its reply counts is a matter of its own answer and of its patience, the
time that it may wait.

* `closes_eq`, `echo_eq`: a request in terms of its patience.
* `course`: the requests from any point of a round on, by induction on those that are left.
* `regular_rounds`: the shape of a whole round and what its summary counts.
-/

namespace PingWatch

namespace Answer

/-- How long a request is open that may wait for `patience`. -/
def waited (patience : Nat) (a : Answer) : Nat :=
  match a.after? with
  | some d => min d patience
  | none => patience

/-- The round trip time of a reply that is there within `patience`. -/
def replyWithin? (patience : Nat) : Answer → Option Duration
  | reply after rtt => if after ≤ patience then some rtt else none
  | _ => none

end Answer

namespace Round

/-- How long a request may wait that goes out at `now`: its wait, cut off by the deadline. -/
def patience (r : Round) (now : Nat) : Nat := min r.wait (r.deadline - now)

variable {r : Round} {k now left fin : Nat} {es : List Echo}

/-! ## One request -/

theorem le_limit_iff (h : now ≤ r.deadline) {d : Nat} :
    now + d ≤ r.limit now ↔ d ≤ r.patience now := by
  unfold limit patience
  omega

theorem limit_eq (h : now ≤ r.deadline) : r.limit now = now + r.patience now := by
  unfold limit patience
  omega

theorem inTime_iff (h : now ≤ r.deadline) {a : Answer} :
    r.inTime now a = true ↔ ∃ d, a.after? = some d ∧ d ≤ r.patience now := by
  unfold inTime
  cases a.after? with
  | none => simp
  | some d =>
    simp only [Bool.or_eq_true, decide_eq_true_eq, le_limit_iff h, Option.some.injEq,
      exists_eq_left', or_iff_right_iff_imp]
    rintro rfl
    exact Nat.zero_le _

/-- A request is open until its answer is there, but not past its patience. -/
theorem closes_eq (h : now ≤ r.deadline) (a : Answer) :
    r.closes now a = now + a.waited (r.patience now) := by
  have limit : max now (r.limit now) = now + r.patience now := by
    rw [limit_eq h]
    omega
  unfold closes Answer.waited
  cases a.after? with
  | none => exact limit
  | some d =>
    dsimp only
    simp only [Bool.or_eq_true, decide_eq_true_eq, le_limit_iff h]
    by_cases there : d ≤ r.patience now
    · rw [if_pos (.inr there), Nat.min_eq_left there]
    · rw [if_neg (by omega), limit, Nat.min_eq_right (Nat.le_of_not_le there)]

/-- Only a reply that is there in time brings a round trip time. -/
theorem rtt_eq (h : now ≤ r.deadline) (a : Answer) :
    (if r.inTime now a then a.rtt? else none) = a.replyWithin? (r.patience now) := by
  simp only [inTime_iff h]
  cases a with
  | reply after rtt => simp [Answer.after?, Answer.rtt?, Answer.replyWithin?]
  | error after => simp [Answer.rtt?, Answer.replyWithin?]
  | silence => simp [Answer.rtt?, Answer.replyWithin?]

theorem echo_eq (h : now ≤ r.deadline) (k : Nat) :
    r.echo k now =
      { number := k, sentAt := now
        closedAt := now + (r.answer k).waited (r.patience now)
        rtt? := (r.answer k).replyWithin? (r.patience now) } := by
  unfold echo
  dsimp only
  rw [closes_eq h, rtt_eq h]

/-! ## The requests from one on -/

/-- The requests `es` of a round that has come to `now` and has `left` requests to send, `k` the
first of them, and that ends at `fin`. -/
structure Course (r : Round) (k now left : Nat) (es : List Echo) (fin : Nat) : Prop where
  numbers : es.map (·.number) = List.range' k es.length
  most : es.length ≤ left
  /-- A request is what its number and the time at which it goes out make it. -/
  own : ∀ e ∈ es, e = r.echo e.number e.sentAt
  between : ∀ e ∈ es, r.tick e.number ≤ e.sentAt ∧ e.sentAt ≤ r.deadline
  since : ∀ e ∈ es, now ≤ e.sentAt
  first : ∀ e, es[0]? = some e → e.sentAt = max now (r.tick k)
  next : ∀ i e e', es[i]? = some e → es[i + 1]? = some e' →
    e'.sentAt = max e.closedAt (r.tick (k + (i + 1)))
  /-- A request is done with before the next one goes out. -/
  apart : es.Pairwise (·.closedAt ≤ ·.sentAt)
  cut : es.length < left → fin = r.deadline

/-- Nothing goes out any more when the deadline has come. -/
theorem Course.ended (r : Round) (k now left : Nat) : r.Course k now left [] r.deadline where
  numbers := rfl
  most := Nat.zero_le _
  own := fun _ h => absurd h List.not_mem_nil
  between := fun _ h => absurd h List.not_mem_nil
  since := fun _ h => absurd h List.not_mem_nil
  first := fun _ h => absurd h (by simp)
  next := fun _ _ _ h => absurd h (by simp)
  apart := .nil
  cut := fun _ => rfl

/-- Nothing goes out when no request is left. -/
theorem Course.done (r : Round) (k now : Nat) : r.Course k now 0 [] now :=
  { Course.ended r k now 0 with cut := fun h => absurd h (Nat.lt_irrefl 0) }

/-- A request goes out and the round goes on where it is done with. -/
theorem Course.cons (since : r.start ≤ now) (sent : r.next k now ≤ r.deadline)
    (h : r.Course (k + 1) (r.sending k now).closedAt left es fin) :
    r.Course k now (left + 1) (r.sending k now :: es) fin where
  numbers := by
    rw [List.map_cons, h.numbers, List.length_cons, List.range'_succ]
    rfl
  most := Nat.succ_le_succ h.most
  own := List.forall_mem_cons.mpr ⟨rfl, h.own⟩
  between := by
    refine List.forall_mem_cons.mpr ⟨⟨?_, sent⟩, h.between⟩
    show r.tick k ≤ r.next k now
    rw [r.next_eq_max since]
    exact Nat.le_max_right ..
  since := by
    have goes : now ≤ r.next k now := r.le_next k now
    have open_ : r.next k now ≤ (r.sending k now).closedAt := r.le_closes ..
    refine List.forall_mem_cons.mpr ⟨goes, fun e he => ?_⟩
    exact Nat.le_trans (Nat.le_trans goes open_) (h.since e he)
  first := by
    rintro e ⟨⟩
    exact r.next_eq_max since k
  next := by
    intro i e e' he he'
    cases i with
    | zero =>
      obtain rfl := Option.some.inj he
      exact h.first e' he'
    | succ i =>
      rw [show k + (i + 1 + 1) = k + 1 + (i + 1) by omega]
      exact h.next i e e' he he'
  apart := List.pairwise_cons.mpr ⟨h.since, h.apart⟩
  cut := fun short => h.cut (Nat.lt_of_succ_lt_succ short)

/-- The course of a round from any request on. -/
theorem course (r : Round) {k now left : Nat} (since : r.start ≤ now) (h : now ≤ r.deadline) :
    r.Course k now left (r.echoesFrom k now left).1 (r.echoesFrom k now left).2 := by
  induction left generalizing k now with
  | zero => exact .done r k now
  | succ left ih =>
    obtain ⟨-, eq⟩ | ⟨sent, last, eq⟩ | ⟨sent, early, eq⟩ := r.echoesFrom_cases h k left
    · rw [eq]
      exact .ended r k now (left + 1)
    · have closed : (r.sending k now).closedAt = r.deadline :=
        Nat.le_antisymm (r.closes_le_deadline sent _) last
      rw [eq, closed]
      exact .cons since sent (.ended ..)
    · have later : r.start ≤ (r.sending k now).closedAt :=
        Nat.le_trans since (Nat.le_trans (r.le_next k now) (r.le_closes ..))
      rw [eq]
      exact .cons since sent (ih later (Nat.le_of_lt early))

/-! ## A whole round -/

/-- The shape of a round. -/
structure Regular (r : Round) : Prop where
  /-- The requests sent are the first ones of the round, in order and each once. -/
  numbers : r.echoes.map (·.number) = List.range r.echoes.length
  most : r.echoes.length ≤ r.count.toNat
  /-- No request goes out before its tick or after the deadline. -/
  between : ∀ k e, r.echoes[k]? = some e →
    r.start + k * r.spacing ≤ e.sentAt ∧ e.sentAt ≤ r.deadline
  first : ∀ e, r.echoes[0]? = some e → e.sentAt = r.start
  /-- Every other one goes out as soon as the one before is done with and its tick has come. -/
  next : ∀ k e e', r.echoes[k]? = some e → r.echoes[k + 1]? = some e' →
    e'.sentAt = max e.closedAt (r.start + (k + 1) * r.spacing)
  sorted : r.echoes.Pairwise (·.sentAt ≤ ·.sentAt)
  /-- At no time is more than one request open. -/
  alone : ∀ τ, r.echoes.countP (fun e => e.sentAt ≤ τ ∧ τ < e.closedAt) ≤ 1
  /-- A request is open until its answer is there, but not past its patience. -/
  waits : ∀ e ∈ r.echoes,
    e.closedAt = e.sentAt + (r.answer e.number).waited (r.patience e.sentAt)
  /-- A reply counts if and only if it is there within the patience of its request. -/
  replies : ∀ e ∈ r.echoes, e.rtt? = (r.answer e.number).replyWithin? (r.patience e.sentAt)
  /-- A round that leaves requests unsent ends exactly at its deadline. -/
  cut : r.echoes.length < r.count.toNat → r.finish = r.deadline

theorem countP_open_le_one (apart : es.Pairwise (·.closedAt ≤ ·.sentAt)) (τ : Nat) :
    es.countP (fun e => e.sentAt ≤ τ ∧ τ < e.closedAt) ≤ 1 := by
  induction es with
  | nil => exact Nat.zero_le 1
  | cons e es ih =>
    obtain ⟨later, apart⟩ := List.pairwise_cons.mp apart
    rw [List.countP_cons]
    by_cases open_ : e.sentAt ≤ τ ∧ τ < e.closedAt
    · have others : es.countP (fun e => e.sentAt ≤ τ ∧ τ < e.closedAt) = 0 := by
        refine List.countP_eq_zero.mpr fun e' he' both => ?_
        have both := of_decide_eq_true both
        exact Nat.not_le.mpr open_.2 (Nat.le_trans (later e' he') both.1)
      exact Nat.le_of_eq (by rw [others, if_pos (decide_eq_true open_)])
    · rw [if_neg (by simpa using open_)]
      exact ih apart

theorem Course.number_eq (h : r.Course k now left es fin) {i : Nat} {e : Echo}
    (he : es[i]? = some e) : e.number = k + i := by
  have inside : i < es.length := (List.getElem?_eq_some_iff.mp he).1
  have number : (es.map (·.number))[i]? = some e.number := by
    rw [List.getElem?_map, he]
    rfl
  rw [h.numbers, List.getElem?_range' inside, Nat.one_mul] at number
  exact (Option.some.inj number).symm

theorem regular (h : r.start ≤ r.deadline) : r.Regular := by
  have course : r.Course 0 r.start r.count.toNat r.echoes r.finish := r.course (Nat.le_refl _) h
  have own : ∀ e ∈ r.echoes, e =
      { number := e.number, sentAt := e.sentAt
        closedAt := e.sentAt + (r.answer e.number).waited (r.patience e.sentAt)
        rtt? := (r.answer e.number).replyWithin? (r.patience e.sentAt) } := fun e he =>
    (course.own e he).trans (echo_eq (course.between e he).2 e.number)
  exact
    { numbers := course.numbers.trans List.range_eq_range'.symm
      most := course.most
      between := fun k e he => by
        have bounds := course.between e (List.mem_of_getElem? he)
        rw [course.number_eq he, Nat.zero_add] at bounds
        exact bounds
      first := fun e he => by
        have start : r.tick 0 = r.start := by simp [tick]
        rw [course.first e he, start, Nat.max_self]
      next := fun k e e' he he' => by
        rw [course.next k e e' he he', Nat.zero_add]
        rfl
      sorted := course.apart.imp_of_mem fun {e e'} he _ apart => by
        have open_ : e.sentAt ≤ e.closedAt := by
          rw [own e he]
          exact Nat.le_add_right ..
        exact Nat.le_trans open_ apart
      alone := countP_open_le_one course.apart
      waits := fun e he => congrArg Echo.closedAt (own e he)
      replies := fun e he => congrArg Echo.rtt? (own e he)
      cut := course.cut }

theorem length_rtts (r : Round) : r.rtts.length = r.echoes.countP (·.rtt?.isSome) := by
  unfold rtts
  rw [List.length_filterMap_eq_countP]

/-- Every request that is sent is answered in time or not. -/
theorem countP_answered_add (es : List Echo) :
    es.countP (·.rtt?.isSome) + es.countP (·.rtt?.isNone) = es.length := by
  rw [List.length_eq_countP_add_countP (·.rtt?.isSome)]
  congr 2
  funext e
  cases e.rtt? <;> rfl

/-- What was not answered in time or not sent at all is lost. -/
theorem Regular.exists_summary (h : r.Regular) (fits : r.TotalFits) :
    ∃ s, r.summary? = some s ∧ s.sent = r.count.toNat ∧
      s.received = r.echoes.countP (·.rtt?.isSome) ∧
      s.sent - s.received =
        r.echoes.countP (·.rtt?.isNone) + (r.count.toNat - r.echoes.length) := by
  obtain ⟨s, summary, sent, received⟩ := Round.exists_summary fits
  have most := h.most
  have both := countP_answered_add r.echoes
  rw [length_rtts, Nat.min_eq_left (by omega)] at received
  exact ⟨s, summary, sent, received, by omega⟩

/-- **The shape of a round.**  For any number of requests at any distance, any wait that the clock
can name, any deadline that is not past and any answers, the round comes about.  It sends the first
of its requests in order, one at a time and none early or late, and stops short of the last one only
at its deadline.  Its summary counts the replies that came in time, so that whatever was not
answered or not sent is lost. -/
theorem regular_rounds (count : UInt16) (spacing : Nat) (wait : Duration) (start deadline : Nat)
    (answer : Nat → Answer) (named : wait.seconds < clockSeconds) (early : start ≤ deadline) :
    ∃ r : Round, ofWait? count spacing wait start deadline answer = .ok r ∧
      r = { count, spacing, wait := wait.millisUp, start, deadline, answer } ∧
      r.Regular ∧
      (r.TotalFits → ∃ s, r.summary? = some s ∧ s.sent = count.toNat ∧
        s.received = r.echoes.countP (·.rtt?.isSome) ∧
        s.sent - s.received =
          r.echoes.countP (·.rtt?.isNone) + (count.toNat - r.echoes.length)) := by
  have comes : ofWait? count spacing wait start deadline answer =
      .ok { count, spacing, wait := wait.millisUp, start, deadline, answer } :=
    if_neg fun past => Nat.not_le.mpr named past.2
  have regular := Round.regular
    (r := { count, spacing, wait := wait.millisUp, start, deadline, answer }) early
  exact ⟨_, comes, rfl, regular, fun fits => regular.exists_summary fits⟩

/-- Five requests a tenth of a second apart and a quarter of a second for all of them, the first
answered after 30 milliseconds and the others never.  The second is sent at its tick and is still
waiting when the deadline comes. -/
theorem regular_rounds_cut :
    ∃ r s, ofWait? 5 100 (.ofMillis 200) 0 250
        (fun k => if k = 0 then .reply 30 (.ofMillis 30) else .silence) = .ok r ∧
      r.echoes.map (·.sentAt) = [0, 100] ∧ r.finish = 250 ∧ r.summary? = some s ∧
      s.received = 1 ∧ s.sent - s.received = 4 := by
  obtain ⟨r, comes, rfl, regular, summarised⟩ :=
    regular_rounds 5 100 (.ofMillis 200) 0 250
      (fun k => if k = 0 then .reply 30 (.ofMillis 30) else .silence) (by decide) (by decide)
  obtain ⟨s, summary, -, received, lost⟩ := summarised (by unfold TotalFits; decide)
  exact ⟨_, s, comes, by decide, regular.cut (by decide), summary, received, lost⟩

end Round

end PingWatch
