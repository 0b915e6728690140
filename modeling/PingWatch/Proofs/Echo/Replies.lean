import PingWatch.Echo.Round

/-!
# Adding up the replies

The summary of a round needs the sum of its round trip times, and a sum of lengths of time may come
out past the largest one.  `Duration.sum?_eq` says when it does, and `Round.exists_summary` what a
round comes to when it does not.
-/

namespace PingWatch

/-- A list of lengths of time added up, in nanoseconds. -/
def Duration.total (ds : List Duration) : Nat := ds.foldr (fun d n => d.nanos + n) 0

theorem Duration.foldlM_add?_eq {d : Duration} (h : d.nanos ≤ largest.nanos)
    (ds : List Duration) :
    ds.foldlM add? d =
      if d.nanos + total ds ≤ largest.nanos then some ⟨d.nanos + total ds⟩ else none := by
  induction ds generalizing d with
  | nil => exact (if_pos h).symm
  | cons e ds ih =>
    have step : total (e :: ds) = e.nanos + total ds := rfl
    rw [List.foldlM_cons, step, ← Nat.add_assoc]
    by_cases fits : d.nanos + e.nanos ≤ largest.nanos
    · have sum : d.add? e = some ⟨d.nanos + e.nanos⟩ := if_pos fits
      rw [sum]
      exact ih (d := ⟨d.nanos + e.nanos⟩) fits
    · have past : ¬ d.nanos + e.nanos + total ds ≤ largest.nanos := by omega
      have sum : d.add? e = none := if_neg fits
      rw [sum, if_neg past]
      rfl

/-- A list adds up to a length of time unless its total is past the largest one. -/
theorem Duration.sum?_eq (ds : List Duration) :
    sum? ds = if total ds ≤ largest.nanos then some ⟨total ds⟩ else none := by
  have h := foldlM_add?_eq (d := zero) (Nat.zero_le _) ds
  rw [show zero.nanos = 0 from rfl, Nat.zero_add] at h
  exact h

/-- Times that add up to a length of time have a mean. -/
theorem EchoSummary.meanOf?_eq_some {rtts : List Duration}
    (h : Duration.total rtts ≤ Duration.largest.nanos) :
    meanOf? rtts = some ⟨Duration.total rtts / rtts.length⟩ := by
  cases rtts with
  | nil => rfl
  | cons d ds =>
    unfold meanOf?
    rw [Duration.sum?_eq, if_pos h]
    rfl

namespace Round

/-- The round trip times of the replies that came in time. -/
def rtts (r : Round) : List Duration := r.echoes.filterMap (·.rtt?)

/-- Whether these times add up to a length of time. -/
def TotalFits (r : Round) : Prop := Duration.total r.rtts ≤ Duration.largest.nanos

/-- What a round comes to unless its times add up too far. -/
theorem exists_summary {r : Round} (h : r.TotalFits) :
    ∃ s, r.summary? = some s ∧ s.sent = r.count.toNat ∧
      s.received = min r.rtts.length r.count.toNat := by
  have summary : r.summary? = EchoSummary.ofReplies? r.count r.rtts := rfl
  unfold EchoSummary.ofReplies? at summary
  rw [EchoSummary.meanOf?_eq_some h, Option.map_some] at summary
  exact ⟨_, summary, rfl, rfl⟩

end Round

end PingWatch
