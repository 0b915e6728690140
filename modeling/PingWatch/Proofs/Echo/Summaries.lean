import PingWatch.Proofs.Echo.Replies
import PingWatch.Proofs.Extremes
import Mathlib.Algebra.Order.BigOperators.Group.List
import Mathlib.Algebra.Order.Ring.Nat

/-!
# Summaries in words

A summary is made in words: the replies that count are put into 16 bits, and 32 bits of the number
of round trip times divide their sum.  `EchoSummary.Describes` says what a summary ought to say of a
list of times, and **`EchoSummary.round_trips_are_summarised`** that it does as long as the list and
its sum keep within bounds.

* A word of 16 bits is enough for the replies because they are cut to the requests before.
* The mean lies between the extremes because the sum does: `Duration.length_mul_le_total` and
  `Duration.total_le_length_mul`.
* The order of the times does not matter because `Describes` says the same of them in any order
  (`Describes.perm`) and leaves no choice of the summary (`Describes.unique`).

A round never gets more replies than it has requests, so its summary is the one in words
(`Round.summary?_eq_ofRtts`).  A list that is too long for its word may have none
(`EchoSummary.ofRtts_of_overlong`).
-/

namespace PingWatch

namespace Duration

variable {ds ds' : List Duration} {n : Nat}

theorem eq_of_nanos_eq {a b : Duration} (h : a.nanos = b.nanos) : a = b := by
  cases a
  cases b
  exact congrArg mk h

theorem total_eq_sum (ds : List Duration) : total ds = (ds.map (·.nanos)).sum := by
  unfold total
  rw [List.sum_eq_foldr, List.foldr_map]

theorem total_perm (h : ds.Perm ds') : total ds = total ds' := by
  rw [total_eq_sum, total_eq_sum]
  exact (h.map _).sum_eq

theorem length_mul_le_total (h : ∀ d ∈ ds, n ≤ d.nanos) : ds.length * n ≤ total ds := by
  have least := List.card_nsmul_le_sum (ds.map (·.nanos)) n (List.forall_mem_map.mpr h)
  rw [List.length_map, ← total_eq_sum] at least
  exact least

theorem total_le_length_mul (h : ∀ d ∈ ds, d.nanos ≤ n) : total ds ≤ ds.length * n := by
  have most := List.sum_le_card_nsmul (ds.map (·.nanos)) n (List.forall_mem_map.mpr h)
  rw [List.length_map, ← total_eq_sum] at most
  exact most

end Duration

namespace EchoSummary

open Duration (total)

/-! ## The extremes -/

variable {rtts rtts' : List Duration}

theorem longest_greatest (h : rtts ≠ []) :
    longest rtts ∈ rtts ∧ ∀ d ∈ rtts, d.nanos ≤ (longest rtts).nanos := by
  cases rtts with
  | nil => exact absurd rfl h
  | cons d ds =>
    refine foldl_keep (fun a b : Duration => a.nanos ≤ b.nanos) (fun _ => Nat.le_refl _)
      (fun _ _ _ => Nat.le_trans) (fun a b => ?_) (fun a b => ?_) d ds
    · unfold longer
      split <;> simp
    · unfold longer
      split <;> omega

theorem shortest_least (h : rtts ≠ []) :
    shortest rtts ∈ rtts ∧ ∀ d ∈ rtts, (shortest rtts).nanos ≤ d.nanos := by
  cases rtts with
  | nil => exact absurd rfl h
  | cons d ds =>
    refine foldl_keep (fun a b : Duration => b.nanos ≤ a.nanos) (fun _ => Nat.le_refl _)
      (fun _ _ _ ab bc => Nat.le_trans bc ab) (fun a b => ?_) (fun a b => ?_) d ds
    · unfold shorter
      split <;> simp
    · unfold shorter
      split <;> omega

/-! ## The words -/

/-- Replies that are cut to the requests fit the word of these. -/
theorem toNat_received (n : Nat) (sent : UInt16) :
    (min n sent.toNat).toUInt16.toNat = min n sent.toNat :=
  Nat.mod_eq_of_lt (Nat.lt_of_le_of_lt (Nat.min_le_right ..) sent.toNat_lt)

/-- No reply that counts is lost to the word that counts them. -/
theorem ofRtts_eq (sent : UInt16) (rtts : List Duration) :
    ofRtts sent rtts = (meanOf rtts).map fun mean =>
      { sent := sent.toNat, received := min rtts.length sent.toNat, worst := longest rtts
        best := shortest rtts, mean, received_le := Nat.min_le_right ..
        sent_le := toNat_le_mostRequests sent } := by
  unfold ofRtts
  simp only [toNat_received]

/-- Fewer than `2 ^ 32` times have their mean, and it is rounded down. -/
theorem meanOf_eq_ok (few : rtts.length < 2 ^ 32) (fits : total rtts ≤ Duration.largest.nanos) :
    meanOf rtts = .ok ⟨total rtts / rtts.length⟩ := by
  cases rtts with
  | nil => rfl
  | cons d ds =>
    have count : (d :: ds).length.toUInt32.toNat = (d :: ds).length := Nat.mod_eq_of_lt few
    -- the word keeps every bit of the length, so it is not zero either
    have positive : (d :: ds).length.toUInt32 ≠ 0 := by
      intro zero
      rw [zero] at count
      exact Nat.succ_ne_zero _ count.symm
    unfold meanOf
    rw [Duration.sum?_eq, if_pos fits]
    dsimp only
    rw [Duration.divide?_eq_share _ positive, count]
    rfl

/-- Without a bound on the list the word for its length may be left with nothing but zeros. -/
theorem ofRtts_of_overlong (sent : UInt16) (some_times : rtts ≠ [])
    (overlong : rtts.length.toUInt32 = 0) (fits : total rtts ≤ Duration.largest.nanos) :
    ofRtts sent rtts = .error .durationShare := by
  cases rtts with
  | nil => exact absurd rfl some_times
  | cons d ds =>
    unfold ofRtts meanOf
    rw [Duration.sum?_eq, if_pos fits, overlong]
    rfl

/-- Where the words are wide enough, the summary is the one in numbers without a bound. -/
theorem toOption_ofRtts (sent : UInt16) (few : rtts.length < 2 ^ 32) :
    (ofRtts sent rtts).toOption = ofReplies? sent rtts := by
  have mean : (meanOf rtts).toOption = meanOf? rtts := by
    by_cases fits : total rtts ≤ Duration.largest.nanos
    · rw [meanOf_eq_ok few fits, meanOf?_eq_some fits]
      rfl
    · cases rtts with
      | nil => exact absurd (Nat.zero_le _) fits
      | cons d ds =>
        unfold meanOf meanOf?
        rw [Duration.sum?_eq, if_neg fits]
        rfl
  rw [ofRtts_eq]
  unfold ofReplies?
  rw [← mean]
  cases meanOf rtts <;> rfl

/-! ## What a summary says -/

/-- The summary of the round trip times `rtts` of the replies to so many requests. -/
structure Describes (s : EchoSummary) (requests : Nat) (rtts : List Duration) : Prop where
  sent : s.sent = requests
  /-- Replies beyond the requests do not count. -/
  received : s.received = min rtts.length requests
  /-- What was received can be taken from what was sent, as `loss` does. -/
  received_le_sent : s.received ≤ s.sent
  worst : rtts ≠ [] → s.worst ∈ rtts ∧ ∀ d ∈ rtts, d.nanos ≤ s.worst.nanos
  best : rtts ≠ [] → s.best ∈ rtts ∧ ∀ d ∈ rtts, s.best.nanos ≤ d.nanos
  /-- The mean is rounded down to nanoseconds. -/
  mean : rtts ≠ [] → s.mean.nanos = total rtts / rtts.length
  between : rtts ≠ [] → s.best.nanos ≤ s.mean.nanos ∧ s.mean.nanos ≤ s.worst.nanos
  unanswered : rtts = [] → s.worst = .zero ∧ s.best = .zero ∧ s.mean = .zero

variable {s s' : EchoSummary} {requests : Nat}

/-- The quotient of a sum by the number of its terms lies between any bounds of the terms. -/
theorem between_of_bounds {low high : Nat} (h : rtts ≠ []) (least : ∀ d ∈ rtts, low ≤ d.nanos)
    (most : ∀ d ∈ rtts, d.nanos ≤ high) :
    low ≤ total rtts / rtts.length ∧ total rtts / rtts.length ≤ high := by
  have pos : 0 < rtts.length := List.length_pos_iff.mpr h
  constructor
  · rw [Nat.le_div_iff_mul_le pos, Nat.mul_comm]
    exact Duration.length_mul_le_total least
  · exact Nat.div_le_of_le_mul (Duration.total_le_length_mul most)

/-- A list of times in another order has the same summary. -/
theorem Describes.perm (h : s.Describes requests rtts) (order : rtts.Perm rtts') :
    s.Describes requests rtts' := by
  have nil : rtts = [] ↔ rtts' = [] := by
    rw [← List.length_eq_zero_iff, order.length_eq, List.length_eq_zero_iff]
  exact
    { sent := h.sent
      received := by rw [h.received, order.length_eq]
      received_le_sent := h.received_le_sent
      worst := fun some_times => by
        obtain ⟨one, most⟩ := h.worst (nil.not.mpr some_times)
        exact ⟨order.mem_iff.mp one, fun d hd => most d (order.mem_iff.mpr hd)⟩
      best := fun some_times => by
        obtain ⟨one, least⟩ := h.best (nil.not.mpr some_times)
        exact ⟨order.mem_iff.mp one, fun d hd => least d (order.mem_iff.mpr hd)⟩
      mean := fun some_times => by
        rw [h.mean (nil.not.mpr some_times), Duration.total_perm order, order.length_eq]
      between := fun some_times => h.between (nil.not.mpr some_times)
      unanswered := fun none_there => h.unanswered (nil.mpr none_there) }

/-- A list of times has no other summary. -/
theorem Describes.unique (h : s.Describes requests rtts) (h' : s'.Describes requests rtts) :
    s = s' := by
  -- each of two greatest times is one of the list, so neither is below the other
  have times : s.worst = s'.worst ∧ s.best = s'.best ∧ s.mean = s'.mean := by
    by_cases none_there : rtts = []
    · obtain ⟨worst, best, mean⟩ := h.unanswered none_there
      obtain ⟨worst', best', mean'⟩ := h'.unanswered none_there
      exact ⟨worst.trans worst'.symm, best.trans best'.symm, mean.trans mean'.symm⟩
    · obtain ⟨worst, most⟩ := h.worst none_there
      obtain ⟨worst', most'⟩ := h'.worst none_there
      obtain ⟨best, least⟩ := h.best none_there
      obtain ⟨best', least'⟩ := h'.best none_there
      refine ⟨Duration.eq_of_nanos_eq ?_, Duration.eq_of_nanos_eq ?_, Duration.eq_of_nanos_eq ?_⟩
      · exact Nat.le_antisymm (most' _ worst) (most _ worst')
      · exact Nat.le_antisymm (least _ best') (least' _ best)
      · exact (h.mean none_there).trans (h'.mean none_there).symm
  have sent := h.sent.trans h'.sent.symm
  have received := h.received.trans h'.received.symm
  cases s
  cases s'
  rw [mk.injEq]
  exact ⟨sent, received, times⟩

theorem exists_describes (sent : UInt16) (few : rtts.length < 2 ^ 32)
    (fits : total rtts ≤ Duration.largest.nanos) :
    ∃ s, ofRtts sent rtts = .ok s ∧ s.Describes sent.toNat rtts := by
  have made : ofRtts sent rtts = .ok
      { sent := sent.toNat, received := min rtts.length sent.toNat, worst := longest rtts
        best := shortest rtts, mean := ⟨total rtts / rtts.length⟩
        received_le := Nat.min_le_right .., sent_le := toNat_le_mostRequests sent } := by
    rw [ofRtts_eq, meanOf_eq_ok few fits]
    rfl
  exact ⟨_, made,
    { sent := rfl
      received := rfl
      received_le_sent := EchoSummary.received_le _
      worst := longest_greatest
      best := shortest_least
      mean := fun _ => rfl
      between := fun some_times =>
        between_of_bounds some_times (shortest_least some_times).2 (longest_greatest some_times).2
      unanswered := by
        rintro rfl
        exact ⟨rfl, rfl, rfl⟩ }⟩

/-- **A sound summary.**  Fewer than `2 ^ 32` round trip times that add up to a length of time have
a summary for any number of requests.  It counts the replies, but no more than the requests, gives
the extremes of the times and their mean, which lies between them, and is the same for the times in
any order. -/
theorem round_trips_are_summarised (sent : UInt16) (rtts : List Duration)
    (few : rtts.length < 2 ^ 32) (fits : total rtts ≤ Duration.largest.nanos) :
    ∃ s, ofRtts sent rtts = .ok s ∧ s.Describes sent.toNat rtts ∧
      ∀ rtts', rtts'.Perm rtts → ofRtts sent rtts' = .ok s := by
  obtain ⟨s, made, describes⟩ := exists_describes sent few fits
  refine ⟨s, made, describes, fun rtts' order => ?_⟩
  have few' : rtts'.length < 2 ^ 32 := order.length_eq ▸ few
  have fits' : total rtts' ≤ Duration.largest.nanos := Duration.total_perm order ▸ fits
  obtain ⟨s', made', describes'⟩ := exists_describes sent few' fits'
  rw [made', describes'.unique (describes.perm order.symm)]

/-- Three replies to two requests.  They take seven seconds together, so the mean has a third of a
second beyond its two seconds. -/
theorem third_reply_does_not_count :
    ∃ s, ofRtts 2 [⟨1_500_000_000⟩, ⟨5_300_000_000⟩, ⟨200_000_000⟩] = .ok s ∧
      ofRtts 2 [⟨200_000_000⟩, ⟨1_500_000_000⟩, ⟨5_300_000_000⟩] = .ok s ∧
      s.Describes 2 [⟨1_500_000_000⟩, ⟨5_300_000_000⟩, ⟨200_000_000⟩] ∧
      s.received = 2 ∧ s.worst = ⟨5_300_000_000⟩ ∧ s.best = ⟨200_000_000⟩ ∧
      s.mean = ⟨2_333_333_333⟩ := by
  obtain ⟨s, made, describes, reordered⟩ := round_trips_are_summarised 2
    [⟨1_500_000_000⟩, ⟨5_300_000_000⟩, ⟨200_000_000⟩] (by decide) (by decide)
  have same := reordered [⟨200_000_000⟩, ⟨1_500_000_000⟩, ⟨5_300_000_000⟩] (by decide)
  have value : ofRtts 2 [⟨1_500_000_000⟩, ⟨5_300_000_000⟩, ⟨200_000_000⟩] =
      .ok ⟨2, 2, ⟨5_300_000_000⟩, ⟨200_000_000⟩, ⟨2_333_333_333⟩, by decide, by decide⟩ := by
    decide +kernel
  obtain rfl := Except.ok.inj (made.symm.trans value)
  exact ⟨_, made, same, describes, rfl, rfl, rfl, rfl⟩

end EchoSummary

/-! ## The summary of a round -/

namespace Round

theorem length_echoesFrom_le (r : Round) (k now left : Nat) :
    (r.echoesFrom k now left).1.length ≤ left := by
  induction left generalizing k now with
  | zero => exact Nat.le_refl 0
  | succ left ih =>
    unfold echoesFrom
    dsimp only
    split
    · exact Nat.zero_le _
    · split
      · exact Nat.succ_le_succ (Nat.zero_le left)
      · exact Nat.succ_le_succ (ih ..)

/-- A round has its summary in words. -/
theorem summary?_eq_ofRtts (r : Round) :
    r.summary? = (EchoSummary.ofRtts r.count r.rtts).toOption := by
  have few : r.rtts.length ≤ r.count.toNat :=
    Nat.le_trans (List.length_filterMap_le ..) (r.length_echoesFrom_le 0 r.start r.count.toNat)
  have word : r.count.toNat < 2 ^ 16 := r.count.toNat_lt
  rw [EchoSummary.toOption_ofRtts _ (by omega)]
  rfl

end Round

end PingWatch
