import PingWatch.Proofs.Aggregate.Accounts

/-!
# Samples counted in another order

Checks end in an order that no aggregate can choose.  `Alike` says that two samples have the same
counters and the same entries in each of their vectors, in whatever order.

* `tally_eq_plus`: counting an outcome adds what the outcome comes to on its own, so that counting
  commutes up to order.
* `foldl_tally_alike`: outcomes counted in another order lead to samples that are alike.  This holds
  of every outcome, also of a sample that does not fit the kind.
-/

namespace PingWatch

namespace Samples

/-- The same counters, and the same entries in some order. -/
structure Alike (s t : Samples) : Prop where
  total : s.total = t.total
  reports : s.reports = t.reports
  success : s.success = t.success
  errors : s.errors = t.errors
  maxRtt : s.maxRtt.Perm t.maxRtt
  minRtt : s.minRtt.Perm t.minRtt
  meanRtt : s.meanRtt.Perm t.meanRtt
  packetLoss : s.packetLoss.Perm t.packetLoss

theorem Alike.refl (s : Samples) : Alike s s :=
  ⟨rfl, rfl, rfl, rfl, .refl _, .refl _, .refl _, .refl _⟩

theorem Alike.trans {s t u : Samples} (h : Alike s t) (h' : Alike t u) : Alike s u :=
  ⟨h.total.trans h'.total, h.reports.trans h'.reports, h.success.trans h'.success,
    h.errors.trans h'.errors, h.maxRtt.trans h'.maxRtt, h.minRtt.trans h'.minRtt,
    h.meanRtt.trans h'.meanRtt, h.packetLoss.trans h'.packetLoss⟩

/-- Health is a matter of counters. -/
theorem Alike.healthy {s t : Samples} (h : Alike s t) (kind : Kind) :
    s.healthy kind = t.healthy kind := by
  unfold Samples.healthy
  rw [h.reports, h.total, h.errors]

/-! ## Adding samples up -/

/-- All counters added up, and the entries of `t` behind those of `s`. -/
def plus (s t : Samples) : Samples where
  maxRtt := s.maxRtt ++ t.maxRtt
  minRtt := s.minRtt ++ t.minRtt
  meanRtt := s.meanRtt ++ t.meanRtt
  packetLoss := s.packetLoss ++ t.packetLoss
  total := s.total + t.total
  reports := s.reports + t.reports
  success := s.success + t.success
  errors := s.errors + t.errors

/-- An outcome adds what it comes to on its own. -/
theorem tally_eq_plus (kind : Kind) (s : Samples) (o : Outcome) :
    s.tally kind o = s.plus (({} : Samples).tally kind o) := by
  cases o with
  | recorded x =>
    cases x with
    | echo e =>
      unfold tally record recordEcho plus
      cases kind with
      | echo threshold =>
        by_cases replied : 0 < e.received <;> by_cases low : e.loss < threshold <;>
          simp [replied, low]
      | lookup => by_cases replied : 0 < e.received <;> simp [replied]
    | lookup n =>
      unfold tally record recordLookup plus
      by_cases some : 0 < n <;> simp [some]
  | failed => cases kind <;> simp [tally, recordFailure, plus]
  | panicked => cases kind <;> simp [tally, recordFailure, plus]

theorem Alike.plus {s t : Samples} (h : Alike s t) (u : Samples) :
    Alike (s.plus u) (t.plus u) where
  total := congrArg (· + u.total) h.total
  reports := congrArg (· + u.reports) h.reports
  success := congrArg (· + u.success) h.success
  errors := congrArg (· + u.errors) h.errors
  maxRtt := h.maxRtt.append_right u.maxRtt
  minRtt := h.minRtt.append_right u.minRtt
  meanRtt := h.meanRtt.append_right u.meanRtt
  packetLoss := h.packetLoss.append_right u.packetLoss

theorem perm_append_right_comm {α : Type} (as bs cs : List α) :
    (as ++ bs ++ cs).Perm (as ++ cs ++ bs) := by
  rw [List.append_assoc, List.append_assoc]
  exact List.perm_append_comm.append_left as

/-- Which of two samples is added first makes no difference up to order. -/
theorem plus_right_comm (s t u : Samples) : Alike ((s.plus t).plus u) ((s.plus u).plus t) where
  total := Nat.add_right_comm ..
  reports := Nat.add_right_comm ..
  success := Nat.add_right_comm ..
  errors := Nat.add_right_comm ..
  maxRtt := perm_append_right_comm ..
  minRtt := perm_append_right_comm ..
  meanRtt := perm_append_right_comm ..
  packetLoss := perm_append_right_comm ..

/-! ## Counting in another order -/

theorem Alike.tally {s t : Samples} (h : Alike s t) (kind : Kind) (o : Outcome) :
    Alike (s.tally kind o) (t.tally kind o) := by
  rw [tally_eq_plus kind s, tally_eq_plus kind t]
  exact h.plus _

theorem Alike.foldl_tally {s t : Samples} (h : Alike s t) (kind : Kind) (os : List Outcome) :
    Alike (os.foldl (Samples.tally kind) s) (os.foldl (Samples.tally kind) t) := by
  induction os generalizing s t with
  | nil => exact h
  | cons o os ih => exact ih (h.tally kind o)

theorem tally_comm (kind : Kind) (s : Samples) (a b : Outcome) :
    Alike ((s.tally kind a).tally kind b) ((s.tally kind b).tally kind a) := by
  rw [tally_eq_plus kind (s.tally kind a), tally_eq_plus kind (s.tally kind b),
    tally_eq_plus kind s a, tally_eq_plus kind s b]
  exact plus_right_comm ..

/-- Outcomes counted in another order lead to samples that are alike. -/
theorem foldl_tally_alike (kind : Kind) {as bs : List Outcome} (same : as.Perm bs) (s : Samples) :
    Alike (as.foldl (tally kind) s) (bs.foldl (tally kind) s) := by
  induction same generalizing s with
  | nil => exact .refl s
  | cons o _ ih => exact ih (s.tally kind o)
  | swap a b os => exact (tally_comm kind s b a).foldl_tally kind os
  | trans _ _ ih ih' => exact (ih s).trans (ih' s)

end Samples

end PingWatch
