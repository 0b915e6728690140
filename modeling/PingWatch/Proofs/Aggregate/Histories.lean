import Mathlib.Data.List.Induction
import Mathlib.Data.List.TakeWhile
import PingWatch.Proofs.Aggregate.Reordering

/-!
# Histories of an aggregate

An aggregate is reset, told its total, and given one check after the other, in any order.  What it
holds is a matter of the operations since the last reset (`Aggregate.sinceReset`), and of these only
of the checks and of the last total.

* `samples_run`: without a reset, checks are counted on top of what is there.
* `samples_run_start`: what a fresh aggregate holds after any operations.
* `Alike.run`: aggregates that are alike stay so.
* `history_invariant`: what the counters and vectors are in every state that can be reached, and
  that the order of the checks between two resets makes no difference to them.
-/

namespace PingWatch

/-- The samples with another total. -/
def Samples.withTotal (n : Nat) (s : Samples) : Samples := { s with total := n }

namespace Aggregate

/-- What can be done to an aggregate. -/
inductive Op
  | reset
  | setTotal (n : Nat)
  | record (sample : Sample)
  | recordFailure

namespace Op

def isReset : Op → Bool
  | reset => true
  | _ => false

/-- The outcome of a check that an operation counts. -/
def outcome? : Op → Option Outcome
  | record sample => some (.recorded sample)
  | recordFailure => some .failed
  | _ => none

def total? : Op → Option Nat
  | setTotal n => some n
  | _ => none

/-- Whether an operation counts a check. -/
def isCheck : Op → Bool
  | record _ | recordFailure => true
  | _ => false

/-- Whether an operation counts a check that did not fail. -/
def isRecord : Op → Bool
  | record _ => true
  | _ => false

/-- Whether an operation counts an echo round with at least one reply. -/
def isAnswer : Op → Bool
  | record (.echo e) => 0 < e.received
  | _ => false

/-- Whether a sample that is recorded fits the kind. -/
def Fits (kind : Kind) (op : Op) : Prop := ∀ s, op = record s → s.Fits kind

end Op

/-- Operations without a reset whose checks are the same in another order.  The totals stand in the
same order among themselves, wherever they stand among the checks. -/
structure Rearranged (ops ops' : List Op) : Prop where
  checks : (ops.filter Op.isCheck).Perm (ops'.filter Op.isCheck)
  totals : ops.filterMap Op.total? = ops'.filterMap Op.total?
  kept : ∀ op ∈ ops ++ ops', op.isReset = false

def apply (a : Aggregate) : Op → Aggregate
  | .reset => a.reset
  | .setTotal n => a.setTotal n
  | .record sample => a.record sample
  | .recordFailure => a.recordFailure

/-- The aggregate after some operations. -/
def run (a : Aggregate) (ops : List Op) : Aggregate := ops.foldl apply a

/-- An aggregate that nothing was done to. -/
def start (scope : Scope) (kind : Kind) : Aggregate := { scope, kind }

/-- The operations behind the last reset, or all of them without one. -/
def sinceReset (ops : List Op) : List Op := (ops.reverse.takeWhile (!·.isReset)).reverse

variable {a b : Aggregate} {kind : Kind} {ops : List Op}

/-! ## Without a reset -/

theorem samples_apply_check (a : Aggregate) {op : Op} {o : Outcome} (h : op.outcome? = some o) :
    (a.apply op).samples = a.samples.tally a.kind o := by
  cases op with
  | record sample =>
    obtain rfl := Option.some.inj h
    rfl
  | recordFailure =>
    obtain rfl := Option.some.inj h
    rfl
  | _ => exact nomatch h

theorem run_append (a : Aggregate) (ops ops' : List Op) :
    a.run (ops ++ ops') = (a.run ops).run ops' := List.foldl_append

/-- Nothing but the samples changes. -/
theorem run_eq (a : Aggregate) (ops : List Op) :
    a.run ops = { a with samples := (a.run ops).samples } := by
  induction ops generalizing a with
  | nil => rfl
  | cons op ops ih =>
    have one : a.apply op = { a with samples := (a.apply op).samples } := by cases op <;> rfl
    have rest := ih (a.apply op)
    rw [one] at rest
    show (a.apply op).run ops = { a with samples := ((a.apply op).run ops).samples }
    rw [one]
    exact rest

/-- A check does not change the total, nor does the total change what a check is counted as. -/
theorem tally_withTotal (kind : Kind) (s : Samples) (n : Nat) (o : Outcome) :
    (s.withTotal n).tally kind o = (s.tally kind o).withTotal n := by
  unfold Samples.withTotal
  cases o with
  | recorded x =>
    cases x with
    | echo e =>
      unfold Samples.tally Samples.record Samples.recordEcho
      by_cases replied : 0 < e.received <;> simp [replied]
    | lookup k =>
      unfold Samples.tally Samples.record Samples.recordLookup
      by_cases some : 0 < k <;> simp [some]
  | failed => cases kind <;> rfl
  | panicked => cases kind <;> rfl

/-- Without a reset, checks are counted on top of what is there, and the last total counts. -/
theorem samples_run (a : Aggregate) (kept : ∀ op ∈ ops, op.isReset = false) :
    (a.run ops).samples =
      ((ops.filterMap Op.outcome?).foldl (Samples.tally a.kind) a.samples).withTotal
        ((ops.filterMap Op.total?).getLast?.getD a.samples.total) := by
  induction ops using List.reverseRecOn with
  | nil => rfl
  | append_singleton ops op ih =>
    rw [List.forall_mem_append, List.forall_mem_singleton] at kept
    have before := ih kept.1
    have kind : (a.run ops).kind = a.kind := by rw [run_eq]
    rw [run_append, List.filterMap_append, List.filterMap_append, List.foldl_append]
    show ((a.run ops).apply op).samples = _
    cases checked : op.outcome? with
    | some o =>
      have untold : op.total? = none := by
        cases op with
        | setTotal n => exact nomatch checked
        | _ => rfl
      rw [samples_apply_check _ checked, kind, before, tally_withTotal]
      simp [checked, untold]
    | none =>
      cases op with
      | reset => exact absurd kept.2 (by simp [Op.isReset])
      | setTotal n =>
        have told : (Op.setTotal n).total? = some n := rfl
        show (a.run ops).samples.withTotal n = _
        rw [before]
        simp [checked, told, Samples.withTotal]
      | _ => exact nomatch checked

/-! ## Since the last reset -/

theorem sinceReset_concat_reset (ops : List Op) : sinceReset (ops ++ [.reset]) = [] := by
  simp [sinceReset, Op.isReset]

theorem sinceReset_concat {op : Op} (kept : op.isReset = false) (ops : List Op) :
    sinceReset (ops ++ [op]) = sinceReset ops ++ [op] := by
  simp [sinceReset, kept]

theorem mem_sinceReset {op : Op} (h : op ∈ sinceReset ops) : op ∈ ops ∧ op.isReset = false := by
  unfold sinceReset at h
  rw [List.mem_reverse] at h
  refine ⟨List.mem_reverse.mp ((List.takeWhile_sublist _).subset h), ?_⟩
  simpa using List.mem_takeWhile_imp h

/-- What was done up to the last reset is forgotten. -/
theorem run_start (scope : Scope) (kind : Kind) (ops : List Op) :
    (start scope kind).run ops = (start scope kind).run (sinceReset ops) := by
  induction ops using List.reverseRecOn with
  | nil => rfl
  | append_singleton ops op ih =>
    cases hop : op.isReset with
    | true =>
      cases op with
      | reset =>
        have forgotten : ((start scope kind).run ops).reset = start scope kind := by
          rw [run_eq]
          rfl
        rw [sinceReset_concat_reset, run_append]
        exact forgotten
      | _ => exact absurd hop (by simp [Op.isReset])
    | false => rw [sinceReset_concat hop, run_append, run_append, ih]

/-- What a fresh aggregate holds is what has been counted since the last reset. -/
theorem samples_run_start (scope : Scope) (kind : Kind) (ops : List Op) :
    ((start scope kind).run ops).samples =
      (((sinceReset ops).filterMap Op.outcome?).foldl (Samples.tally kind) {}).withTotal
        (((sinceReset ops).filterMap Op.total?).getLast?.getD 0) := by
  rw [run_start]
  exact samples_run _ fun op hop => (mem_sinceReset hop).2

/-! ## The invariant -/

/-- What an aggregate of echo checks holds, if `ops` are the operations since its last reset. -/
structure EchoHolds (ops : List Op) (s : Samples) : Prop where
  total : s.total = (ops.filterMap Op.total?).getLast?.getD 0
  greatest : s.maxRtt.length = ops.countP Op.isAnswer
  least : s.minRtt.length = ops.countP Op.isAnswer
  mean : s.meanRtt.length = ops.countP Op.isAnswer
  losses : s.packetLoss.length = ops.countP Op.isCheck
  reports : s.reports ≤ ops.countP Op.isRecord
  success : s.success = 0
  errors : s.errors = 0

/-- What an aggregate of lookups holds, if `ops` are the operations since its last reset. -/
structure LookupHolds (ops : List Op) (s : Samples) : Prop where
  total : s.total = (ops.filterMap Op.total?).getLast?.getD 0
  checks : s.success + s.errors = ops.countP Op.isCheck
  greatest : s.maxRtt = []
  least : s.minRtt = []
  mean : s.meanRtt = []
  losses : s.packetLoss = []
  reports : s.reports = 0

/-- What an aggregate holds, if `ops` are the operations since its last reset. -/
def Holds (kind : Kind) (ops : List Op) (s : Samples) : Prop :=
  match kind with
  | .echo _ => EchoHolds ops s
  | .lookup => LookupHolds ops s

theorem fits_outcomes (fits : ∀ op ∈ ops, op.Fits kind) :
    ∀ o ∈ ops.filterMap Op.outcome?, o.Fits kind := by
  intro o ho
  obtain ⟨op, hop, same⟩ := List.mem_filterMap.mp ho
  rintro s rfl
  cases op with
  | record sample =>
    obtain rfl := Outcome.recorded.inj (Option.some.inj same)
    exact fits _ hop _ rfl
  | _ => exact nomatch same

theorem length_outcomes (ops : List Op) :
    (ops.filterMap Op.outcome?).length = ops.countP Op.isCheck := by
  rw [List.length_filterMap_eq_countP]
  refine List.countP_congr fun op _ => ?_
  cases op <;> simp [Op.outcome?, Op.isCheck]

theorem length_answers (ops : List Op) :
    ((ops.filterMap Op.outcome?).filterMap Outcome.answer?).length = ops.countP Op.isAnswer := by
  rw [List.filterMap_filterMap, List.length_filterMap_eq_countP]
  refine List.countP_congr fun op _ => ?_
  cases op with
  | record sample =>
    cases sample with
    | echo e =>
      by_cases replied : 0 < e.received <;>
        simp [Op.outcome?, Op.isAnswer, Outcome.answer?, replied]
    | lookup n => simp [Op.outcome?, Op.isAnswer, Outcome.answer?]
  | _ => simp [Op.outcome?, Op.isAnswer, Outcome.answer?]

/-- What is below the threshold did not fail. -/
theorem countP_below_le (threshold : Float) (ops : List Op) :
    (ops.filterMap Op.outcome?).countP (Outcome.below threshold) ≤ ops.countP Op.isRecord := by
  rw [List.countP_filterMap]
  refine List.countP_mono_left fun op _ => ?_
  cases op <;> simp [Op.outcome?, Op.isRecord, Outcome.below]

theorem holds_run (scope : Scope) (fits : ∀ op ∈ ops, op.Fits kind) :
    Holds kind (sinceReset ops) ((start scope kind).run ops).samples := by
  have fits' := fits_outcomes fun op hop => fits op (mem_sinceReset hop).1
  rw [samples_run_start]
  cases kind with
  | echo threshold =>
    rw [Samples.foldl_tally_echo fits']
    have losses := length_outcomes (sinceReset ops)
    have answers := length_answers (sinceReset ops)
    constructor
    · rfl
    · simpa [Samples.withTotal, Samples.addEchoes] using answers
    · simpa [Samples.withTotal, Samples.addEchoes] using answers
    · simpa [Samples.withTotal, Samples.addEchoes] using answers
    · simpa [Samples.withTotal, Samples.addEchoes] using losses
    · show 0 + _ ≤ _
      rw [Nat.zero_add]
      exact countP_below_le threshold _
    · rfl
    · rfl
  | lookup =>
    rw [Samples.foldl_tally_lookup fits']
    constructor
    · rfl
    · show 0 + _ + (0 + _) = _
      rw [Nat.zero_add, Nat.zero_add, ← length_outcomes]
      exact (Samples.countP_lookup fits').2
    · rfl
    · rfl
    · rfl
    · rfl
    · rfl

/-! ## The order of the checks -/

theorem alike_apply (same : a.kind = b.kind) (alike : a.samples.Alike b.samples) (op : Op) :
    (a.apply op).samples.Alike (b.apply op).samples := by
  cases op with
  | reset => exact .refl _
  | setTotal n => exact { alike with total := rfl }
  | record sample =>
    rw [samples_apply_check a rfl, samples_apply_check b rfl, same]
    exact alike.tally _ _
  | recordFailure =>
    rw [samples_apply_check a rfl, samples_apply_check b rfl, same]
    exact alike.tally _ _

theorem alike_run (same : a.kind = b.kind) (alike : a.samples.Alike b.samples) (ops : List Op) :
    (a.run ops).samples.Alike (b.run ops).samples := by
  induction ops generalizing a b with
  | nil => exact alike
  | cons op ops ih =>
    have kinds : (a.apply op).kind = (b.apply op).kind := by cases op <;> exact same
    exact ih kinds (alike_apply same alike op)

/-- Checks in another order lead to samples that are alike. -/
theorem Rearranged.alike {ops ops' : List Op} (h : Rearranged ops ops') (a : Aggregate) :
    (a.run ops).samples.Alike (a.run ops').samples := by
  have only : ∀ ops : List Op,
      ops.filterMap Op.outcome? = (ops.filter Op.isCheck).filterMap Op.outcome? := by
    intro ops
    have same : Op.outcome? = fun op => if op.isCheck then op.outcome? else none := by
      funext op
      cases op <;> rfl
    rw [List.filterMap_filter, ← same]
  have outcomes : (ops.filterMap Op.outcome?).Perm (ops'.filterMap Op.outcome?) := by
    rw [only ops, only ops']
    exact h.checks.filterMap _
  have counted := Samples.foldl_tally_alike a.kind outcomes a.samples
  have kept := List.forall_mem_append.mp h.kept
  rw [samples_run a kept.1, samples_run a kept.2, h.totals]
  exact { counted with total := rfl }

/-- **What an aggregate holds, whatever was done to it.**  After any resets, totals, recorded
samples that fit the kind and failures, an aggregate of echo checks has a loss for each check since
the last reset, three round trip times for each with a reply, and no more reports than checks that
did not fail; of lookups it has none.  An aggregate of lookups has a success or an error for each
check since the last reset and nothing of echo checks.  When the checks between two resets are
rearranged, all counters stay the same, and each vector has the same entries in some order, then and
after whatever follows. -/
theorem history_invariant (scope : Scope) (kind : Kind) :
    (∀ ops, (∀ op ∈ ops, op.Fits kind) →
      Holds kind (sinceReset ops) ((start scope kind).run ops).samples) ∧
    ∀ before ops ops' after, Rearranged ops ops' →
      ((start scope kind).run (before ++ ops ++ after)).samples.Alike
        ((start scope kind).run (before ++ ops' ++ after)).samples := by
  refine ⟨fun ops => holds_run scope, fun before ops ops' after rearranged => ?_⟩
  simp only [run_append]
  refine alike_run ?_ (rearranged.alike _) after
  rw [run_eq _ ops, run_eq _ ops']

/-- A round of four requests with three replies. -/
def threeOfFour : EchoSummary := ⟨4, 3, ⟨300000⟩, ⟨100000⟩, ⟨200000⟩, by decide, by decide⟩

/-- A check before a reset, and two behind it in either order. -/
theorem two_checks_since_reset :
    EchoHolds [.setTotal 2, .record (.echo threeOfFour), .recordFailure]
        ((start ⟨"icmp", "a"⟩ (.echo 0.3)).run [.recordFailure, .reset, .setTotal 2,
          .record (.echo threeOfFour), .recordFailure]).samples ∧
      ((start ⟨"icmp", "a"⟩ (.echo 0.3)).run ([.recordFailure, .reset] ++
          [.setTotal 2, .record (.echo threeOfFour), .recordFailure] ++ [])).samples.Alike
        ((start ⟨"icmp", "a"⟩ (.echo 0.3)).run ([.recordFailure, .reset] ++
          [.recordFailure, .setTotal 2, .record (.echo threeOfFour)] ++ [])).samples := by
  obtain ⟨holds, alike⟩ := history_invariant ⟨"icmp", "a"⟩ (.echo 0.3)
  constructor
  · refine holds [.recordFailure, .reset, .setTotal 2, .record (.echo threeOfFour),
      .recordFailure] ?_
    simp [Op.Fits, Sample.Fits]
  · refine alike [.recordFailure, .reset] _ _ [] ⟨?_, rfl, ?_⟩
    · exact .swap ..
    · simp [Op.isReset]

end Aggregate

end PingWatch
