import PingWatch.Cycle

/-!
# What the samples of a cycle add up to

Every ended check goes into the samples as one outcome (`Samples.tally`).  The samples of a cycle
are the fold of its outcomes, in the order in which they were counted.

* `foldl_tally_echo`, `foldl_tally_lookup`: the fold in closed form.
* `accounts_foldl`: what the samples hold of the outcomes, whatever their order.
* `Samples.Accounts.healthy_iff`: when a probe counts as healthy.
-/

namespace PingWatch

/-! ## Outcomes -/

/-- Whether a sample is one of those that a probe of the kind takes. -/
def Sample.Fits : Kind → Sample → Prop
  | .echo _, .echo _ => True
  | .lookup, .lookup _ => True
  | _, _ => False

namespace Outcome

/-- Whether the check failed, timed out or panicked. -/
def isFailure : Outcome → Bool
  | recorded _ => false
  | failed | panicked => true

/-- Whether a sample that was recorded fits the kind. -/
def Fits (kind : Kind) (o : Outcome) : Prop := ∀ s, o = recorded s → s.Fits kind

/-- The loss of an echo check; one that failed has lost everything. -/
def loss : Outcome → Float
  | recorded (.echo e) => e.loss
  | _ => 1.0

/-- The summary of an echo check with at least one reply. -/
def answer? : Outcome → Option EchoSummary
  | recorded (.echo e) => if 0 < e.received then some e else none
  | _ => none

/-- Whether the loss of an echo check lies strictly below the threshold. -/
def below (threshold : Float) : Outcome → Bool
  | recorded (.echo e) => e.loss < threshold
  | _ => false

/-- Whether a lookup came to at least one address. -/
def resolved : Outcome → Bool
  | recorded (.lookup n) => 0 < n
  | _ => false

/-- Whether a lookup came to no address at all. -/
def empty : Outcome → Bool
  | recorded (.lookup n) => n = 0
  | _ => false

/-- Whether the check counts towards a healthy probe. -/
def Good : Kind → Outcome → Prop
  | .echo threshold, recorded (.echo e) => e.loss < threshold
  | .lookup, recorded (.lookup n) => 0 < n
  | _, _ => False

end Outcome

namespace Samples

/-- Counts an outcome. -/
def tally (kind : Kind) (s : Samples) : Outcome → Samples
  | .recorded x => s.record kind x
  | .failed | .panicked => s.recordFailure kind

/-! ## The fold in closed form -/

/-- The samples with the echo checks `os` added. -/
def addEchoes (threshold : Float) (os : List Outcome) (s : Samples) : Samples :=
  { s with
    maxRtt := s.maxRtt ++ (os.filterMap Outcome.answer?).map (·.worst.toMicros)
    minRtt := s.minRtt ++ (os.filterMap Outcome.answer?).map (·.best.toMicros)
    meanRtt := s.meanRtt ++ (os.filterMap Outcome.answer?).map (·.mean.toMicros)
    packetLoss := s.packetLoss ++ os.map Outcome.loss
    reports := s.reports + os.countP (Outcome.below threshold) }

/-- The samples with the lookups `os` added. -/
def addLookups (os : List Outcome) (s : Samples) : Samples :=
  { s with
    success := s.success + os.countP Outcome.resolved
    errors := s.errors + os.countP (fun o => o.isFailure || o.empty) }

theorem tally_echo {threshold : Float} {o : Outcome} (fits : o.Fits (.echo threshold))
    (s : Samples) : s.tally (.echo threshold) o = s.addEchoes threshold [o] := by
  cases o with
  | recorded x =>
    cases x with
    | echo e =>
      unfold tally record recordEcho addEchoes
      by_cases replied : 0 < e.received <;> by_cases low : e.loss < threshold <;>
        simp [replied, low, Outcome.answer?, Outcome.loss, Outcome.below]
    | lookup n => exact (fits _ rfl).elim
  | failed => simp [tally, recordFailure, addEchoes, Outcome.answer?, Outcome.loss, Outcome.below]
  | panicked => simp [tally, recordFailure, addEchoes, Outcome.answer?, Outcome.loss, Outcome.below]

theorem tally_lookup {o : Outcome} (fits : o.Fits .lookup) (s : Samples) :
    s.tally .lookup o = s.addLookups [o] := by
  cases o with
  | recorded x =>
    cases x with
    | echo e => exact (fits _ rfl).elim
    | lookup n =>
      unfold tally record recordLookup addLookups
      by_cases some : 0 < n
      · have : n ≠ 0 := Nat.ne_of_gt some
        simp [some, this, Outcome.isFailure, Outcome.resolved, Outcome.empty]
      · obtain rfl : n = 0 := by omega
        simp [Outcome.isFailure, Outcome.resolved, Outcome.empty]
  | failed => simp [tally, recordFailure, addLookups, Outcome.isFailure, Outcome.resolved]
  | panicked => simp [tally, recordFailure, addLookups, Outcome.isFailure, Outcome.resolved]

theorem addEchoes_cons (threshold : Float) (o : Outcome) (os : List Outcome) (s : Samples) :
    (s.addEchoes threshold [o]).addEchoes threshold os = s.addEchoes threshold (o :: os) := by
  have answers : (o :: os).filterMap Outcome.answer? =
      [o].filterMap Outcome.answer? ++ os.filterMap Outcome.answer? := by
    rw [← List.filterMap_append, List.singleton_append]
  have counts : (o :: os).countP (Outcome.below threshold) =
      [o].countP (Outcome.below threshold) + os.countP (Outcome.below threshold) := by
    rw [← List.countP_append, List.singleton_append]
  unfold addEchoes
  simp only [answers, counts, List.map_append, List.append_assoc, List.map_cons, List.map_nil,
    List.cons_append, List.nil_append, Nat.add_assoc]

theorem addLookups_cons (o : Outcome) (os : List Outcome) (s : Samples) :
    (s.addLookups [o]).addLookups os = s.addLookups (o :: os) := by
  have counts : ∀ p : Outcome → Bool, (o :: os).countP p = [o].countP p + os.countP p := by
    intro p
    rw [← List.countP_append, List.singleton_append]
  unfold addLookups
  simp only [counts, Nat.add_assoc]

theorem foldl_tally_echo {threshold : Float} {os : List Outcome}
    (fits : ∀ o ∈ os, o.Fits (.echo threshold)) (s : Samples) :
    os.foldl (tally (.echo threshold)) s = s.addEchoes threshold os := by
  induction os generalizing s with
  | nil => simp [addEchoes]
  | cons o os ih =>
    obtain ⟨one, rest⟩ := List.forall_mem_cons.mp fits
    rw [List.foldl_cons, ih rest, tally_echo one, addEchoes_cons]

theorem foldl_tally_lookup {os : List Outcome} (fits : ∀ o ∈ os, o.Fits .lookup) (s : Samples) :
    os.foldl (tally .lookup) s = s.addLookups os := by
  induction os generalizing s with
  | nil => simp [addLookups]
  | cons o os ih =>
    obtain ⟨one, rest⟩ := List.forall_mem_cons.mp fits
    rw [List.foldl_cons, ih rest, tally_lookup one, addLookups_cons]

/-! ## Accounts -/

/-- What the samples of a cycle of echo checks hold: a loss for every check, three round trip times
for every check with a reply, and a report for every loss below the threshold. -/
structure EchoAccounts (threshold : Float) (os : List Outcome) (s : Samples) : Prop where
  total : s.total = os.length
  losses : s.packetLoss.Perm (os.map Outcome.loss)
  greatest : s.maxRtt.Perm ((os.filterMap Outcome.answer?).map (·.worst.toMicros))
  least : s.minRtt.Perm ((os.filterMap Outcome.answer?).map (·.best.toMicros))
  mean : s.meanRtt.Perm ((os.filterMap Outcome.answer?).map (·.mean.toMicros))
  reports : s.reports = os.countP (Outcome.below threshold)

/-- What the samples of a cycle of lookups hold: a success for every name with an address, and an
error for every failure and for every name without one. -/
structure LookupAccounts (os : List Outcome) (s : Samples) : Prop where
  total : s.total = os.length
  success : s.success = os.countP Outcome.resolved
  errors : s.errors = os.countP Outcome.isFailure + os.countP Outcome.empty
  balance : s.success + s.errors = s.total

/-- What the samples of a cycle with the outcomes `os` hold. -/
def Accounts (kind : Kind) (os : List Outcome) (s : Samples) : Prop :=
  match kind with
  | .echo threshold => s.EchoAccounts threshold os
  | .lookup => s.LookupAccounts os

/-- A lookup is resolved, empty or failed. -/
theorem countP_lookup {os : List Outcome} (fits : ∀ o ∈ os, o.Fits .lookup) :
    os.countP (fun o => o.isFailure || o.empty) =
        os.countP Outcome.isFailure + os.countP Outcome.empty ∧
      os.countP Outcome.resolved + os.countP (fun o => o.isFailure || o.empty) = os.length := by
  induction os with
  | nil => exact ⟨rfl, rfl⟩
  | cons o os ih =>
    obtain ⟨one, rest⟩ := List.forall_mem_cons.mp fits
    obtain ⟨split, all⟩ := ih rest
    have one_of : (o.resolved = true ∧ o.isFailure = false ∧ o.empty = false) ∨
        (o.resolved = false ∧ o.isFailure = true ∧ o.empty = false) ∨
        (o.resolved = false ∧ o.isFailure = false ∧ o.empty = true) := by
      cases o with
      | recorded x =>
        cases x with
        | echo e => exact (one _ rfl).elim
        | lookup n => cases n <;> simp [Outcome.resolved, Outcome.isFailure, Outcome.empty]
      | failed => exact .inr (.inl ⟨rfl, rfl, rfl⟩)
      | panicked => exact .inr (.inl ⟨rfl, rfl, rfl⟩)
    simp only [List.countP_cons, List.length_cons]
    rcases one_of with ⟨r, f, e⟩ | ⟨r, f, e⟩ | ⟨r, f, e⟩ <;> simp only [r, f, e] <;>
      exact ⟨by simp; omega, by simp; omega⟩

/-- The samples of a cycle account for its outcomes, in whatever order these were counted. -/
theorem accounts_foldl {kind : Kind} {os counted : List Outcome} (same : counted.Perm os)
    (fits : ∀ o ∈ os, o.Fits kind) :
    (counted.foldl (tally kind) (.fresh os.length)).Accounts kind os := by
  have fits' : ∀ o ∈ counted, o.Fits kind := fun o ho => fits o (same.mem_iff.mp ho)
  have answers := same.filterMap Outcome.answer?
  cases kind with
  | echo threshold =>
    rw [foldl_tally_echo fits']
    exact ⟨rfl, same.map _, answers.map _, answers.map _, answers.map _,
      (Nat.zero_add _).trans (same.countP_eq _)⟩
  | lookup =>
    rw [foldl_tally_lookup fits']
    obtain ⟨split, all⟩ := countP_lookup fits
    have success : (addLookups counted (.fresh os.length)).success = os.countP Outcome.resolved :=
      (Nat.zero_add _).trans (same.countP_eq _)
    have errors : (addLookups counted (.fresh os.length)).errors =
        os.countP (fun o => o.isFailure || o.empty) :=
      (Nat.zero_add _).trans (same.countP_eq _)
    refine ⟨rfl, success, errors.trans split, ?_⟩
    rw [success, errors, all]
    rfl

/-- A probe is healthy exactly if every check counts towards it. -/
theorem Accounts.healthy_iff {kind : Kind} {os : List Outcome} {s : Samples}
    (h : s.Accounts kind os) (fits : ∀ o ∈ os, o.Fits kind) :
    s.healthy kind = true ↔ ∀ o ∈ os, o.Good kind := by
  cases kind with
  | echo threshold =>
    have good : ∀ o : Outcome, o.below threshold = true ↔ o.Good (.echo threshold) := by
      intro o
      cases o with
      | recorded x => cases x <;> simp [Outcome.below, Outcome.Good]
      | failed => simp [Outcome.below, Outcome.Good]
      | panicked => simp [Outcome.below, Outcome.Good]
    unfold healthy
    rw [beq_iff_eq, h.reports, h.total, List.countP_eq_length]
    exact forall₂_congr fun o _ => good o
  | lookup =>
    have good : ∀ o ∈ os, ¬(o.isFailure || o.empty) = true ↔ o.Good .lookup := by
      intro o ho
      cases o with
      | recorded x =>
        cases x with
        | echo e => exact (fits _ ho _ rfl).elim
        | lookup n => simp [Outcome.isFailure, Outcome.empty, Outcome.Good, Nat.pos_iff_ne_zero]
      | failed => simp [Outcome.isFailure, Outcome.Good]
      | panicked => simp [Outcome.isFailure, Outcome.Good]
    unfold healthy
    rw [beq_iff_eq, h.errors, ← (countP_lookup fits).1, List.countP_eq_zero]
    exact forall₂_congr good

end Samples

end PingWatch
