import PingWatch.Proofs.Aggregate.Accounts
import PingWatch.Proofs.Cycle.FanOut

/-!
# The ledger of a cycle

Every target of a cycle is waiting, admitted, under way, ended but not yet noticed, or counted, and
it is exactly one of these.  A check that ends is counted by `settle`, unless it panicked: then
`join` counts it.

* `Counted`: the outcomes of the checks that have ended are those in the samples and those not yet
  noticed.
* `Ledger`: with the outcomes still to come they are the outcomes of all targets.
* `Reaches.tallied`: a finished cycle has counted the outcome of every target exactly once.
-/

namespace PingWatch

namespace Cycle

/-! ## Ended checks -/

/-- The samples count the outcomes `ended`, up to the panics not yet noticed. -/
def Counted (total : Nat) (ended : List Outcome) (c : Cycle) : Prop :=
  ∃ counted : List Outcome, (counted ++ List.replicate c.unjoined Outcome.panicked).Perm ended ∧
    c.samples = counted.foldl (Samples.tally c.kind) (.fresh total) ∧
    c.failures = counted.countP Outcome.isFailure

/-- A check that ends is counted at once or waits to be noticed. -/
theorem Counted.settle {total : Nat} {ended : List Outcome} {c : Cycle}
    (h : Counted total ended c) (o : Outcome) : Counted total (o :: ended) (c.settle o) := by
  obtain ⟨counted, all, samples, failures⟩ := h
  have added : ((counted ++ [o]) ++ List.replicate c.unjoined Outcome.panicked).Perm (o :: ended) := by
    rw [List.append_assoc, List.singleton_append]
    exact List.perm_middle.trans (all.cons o)
  cases o with
  | recorded s =>
    refine ⟨counted ++ [.recorded s], added, ?_, ?_⟩
    · change c.samples.record c.kind s = _
      rw [List.foldl_append, samples]
      rfl
    · rw [List.countP_append, ← failures]
      rfl
  | failed =>
    refine ⟨counted ++ [.failed], added, ?_, ?_⟩
    · change c.samples.recordFailure c.kind = _
      rw [List.foldl_append, samples]
      rfl
    · rw [List.countP_append, ← failures]
      rfl
  | panicked => exact ⟨counted, List.perm_middle.trans (all.cons _), samples, failures⟩

theorem repeat_recordFailure (kind : Kind) (n : Nat) (s : Samples) :
    Nat.repeat (Samples.recordFailure kind) n s =
      (List.replicate n Outcome.panicked).foldl (Samples.tally kind) s := by
  induction n with
  | zero => rfl
  | succ n ih =>
    rw [List.replicate_succ', List.foldl_append, ← ih]
    rfl

/-- Noticing the panics counts them, and nothing else. -/
theorem Counted.join {total : Nat} {ended : List Outcome} {c : Cycle}
    (h : Counted total ended c) : Counted total ended c.join ∧ c.join.unjoined = 0 := by
  obtain ⟨counted, all, samples, failures⟩ := h
  refine ⟨⟨counted ++ List.replicate c.unjoined Outcome.panicked, ?_, ?_, ?_⟩, rfl⟩
  · rw [show c.join.unjoined = 0 from rfl, List.replicate_zero, List.append_nil]
    exact all
  · rw [List.foldl_append]
    unfold Cycle.join
    dsimp only
    rw [← samples]
    exact repeat_recordFailure c.kind c.unjoined c.samples
  · have panics : (List.replicate c.unjoined Outcome.panicked).countP Outcome.isFailure =
        c.unjoined := by
      rw [List.countP_replicate]
      rfl
    rw [List.countP_append, panics, ← failures]
    rfl

/-- What is counted depends on the counts alone. -/
theorem Counted.congr {total : Nat} {ended : List Outcome} {c c' : Cycle}
    (h : Counted total ended c) (kind : c'.kind = c.kind) (samples : c'.samples = c.samples)
    (failures : c'.failures = c.failures) (unjoined : c'.unjoined = c.unjoined) :
    Counted total ended c' := by
  obtain ⟨counted, all, hs, hf⟩ := h
  refine ⟨counted, ?_, ?_, failures.trans hf⟩
  · rw [unjoined]
    exact all
  · rw [samples, kind]
    exact hs

/-! ## All targets -/

/-- The outcomes still to come. -/
def pending (c : Cycle) : List Outcome :=
  c.flying.map (·.outcome) ++ (c.admitted ++ c.waiting).map (·.outcome c.timeout)

/-- The outcomes of the ended checks and those still to come are those of all `jobs`. -/
def Ledger (jobs : List Job) (c : Cycle) : Prop :=
  ∃ ended, Counted jobs.length ended c ∧
    (ended ++ c.pending).Perm (jobs.map (·.outcome c.timeout))

theorem Ledger.start (kind : Kind) (slots timeout t₀ : Nat) (jobs : List Job) :
    Ledger jobs (start kind slots timeout t₀ jobs) :=
  ⟨[], ⟨[], .refl _, rfl, rfl⟩, .refl _⟩

theorem Ledger.begin {jobs rest : List Job} {c : Cycle} {j : Job} (hadm : c.admitted = j :: rest)
    (h : Ledger jobs c) : Ledger jobs (c.perform (.begin j rest)) := by
  obtain ⟨ended, counted, all⟩ := h
  unfold pending at all
  rw [hadm, List.cons_append, List.map_cons] at all
  unfold perform Cycle.begin release
  dsimp only
  split
  · refine ⟨j.outcome c.timeout :: ended, ?_, ?_⟩
    · refine Counted.settle ?_ _
      exact counted.congr rfl rfl rfl rfl
    · obtain ⟨s, f, u, e⟩ := settle_eq (j.outcome c.timeout)
        { c with admitted := rest, begun := (c.now, j.target) :: c.begun
                 peak := max c.peak (c.flying.length + 1), free := c.free + 1 }
      rw [e]
      refine List.Perm.trans ?_ all
      unfold pending
      rw [← List.append_assoc, ← List.append_assoc]
      exact List.perm_middle.symm
  · refine ⟨ended, counted.congr rfl rfl rfl rfl, ?_⟩
    unfold pending
    dsimp only
    rw [List.map_append, List.append_assoc]
    exact all

theorem Ledger.fill {jobs : List Job} {c : Cycle} (hadm : c.admitted = [])
    (h : Ledger jobs c) : Ledger jobs (c.perform .fill) := by
  obtain ⟨ended, counted, all⟩ := h
  refine ⟨ended, ?_, ?_⟩
  · unfold perform Cycle.fill
    dsimp only
    split
    · exact (counted.congr rfl rfl rfl rfl).join.1
    · exact counted.congr rfl rfl rfl rfl
  · obtain ⟨s, f, u, e⟩ := perform_fill c
    rw [e]
    unfold pending at all ⊢
    dsimp only
    rw [List.take_append_drop]
    rw [hadm, List.nil_append] at all
    exact all

theorem Ledger.land {jobs : List Job} {c : Cycle} {f : Flight} (seats : Seats c)
    (hf : f ∈ c.flying) (h : Ledger jobs c) : Ledger jobs (c.perform (.land f)) := by
  obtain ⟨ended, counted, all⟩ := h
  refine ⟨f.outcome :: ended, ?_, ?_⟩
  · refine Counted.settle ?_ _
    exact counted.congr rfl rfl rfl rfl
  · obtain ⟨s, n, u, e⟩ := perform_land c f
    rw [e]
    refine List.Perm.trans ?_ all
    unfold pending
    dsimp only
    have landed := (perm_landed seats.apart hf).map (·.outcome)
    rw [List.map_cons] at landed
    rw [← List.append_assoc, ← List.append_assoc]
    refine List.Perm.append_right _ ?_
    exact List.perm_middle.symm.trans (landed.symm.append_left ended)

theorem Ledger.keep {jobs : List Job} {c : Cycle} {m : Move} (hm : Possible c m)
    (seats : Seats c) (h : Ledger jobs c) : Ledger jobs (c.perform m) := by
  cases hm with
  | begin hadm => exact h.begin hadm
  | fill hadm _ => exact h.fill hadm
  | land hf => exact h.land seats hf

theorem Reaches.ledger {kind : Kind} {slots timeout t₀ : Nat} {jobs : List Job} {c : Cycle}
    (h : Reaches (start kind slots timeout t₀ jobs) c) : Ledger jobs c :=
  (h.keep (P := fun c => Seats c ∧ Ledger jobs c)
    (fun hm ⟨seats, ledger⟩ => ⟨seats.keep hm, ledger.keep hm seats⟩)
    ⟨.start .., .start ..⟩).2

/-- The samples and the failures are those of the outcomes `os`, each counted once. -/
def Tallied (os : List Outcome) (c : Cycle) : Prop :=
  ∃ counted : List Outcome, counted.Perm os ∧
    c.samples = counted.foldl (Samples.tally c.kind) (.fresh os.length) ∧
    c.failures = os.countP Outcome.isFailure

/-- **Every target counts once.**  In whatever order its checks end, a finished cycle has counted
the outcome of every target exactly once, and nothing else. -/
theorem Reaches.tallied {kind : Kind} {slots timeout t₀ : Nat} {jobs : List Job} {c : Cycle}
    (h : Reaches (start kind slots timeout t₀ jobs) c) (finished : c.finished = true)
    (some_slots : 0 < slots) : Tallied (jobs.map (·.outcome timeout)) c := by
  obtain ⟨hkind, hslots, htimeout⟩ := h.setup
  obtain ⟨ended, ⟨counted, all, samples, failures⟩, whole⟩ := h.ledger
  obtain ⟨waiting, admitted, flying, unjoined⟩ :=
    h.orderly.seats.finished finished (hslots ▸ some_slots)
  rw [unjoined, List.replicate_zero, List.append_nil] at all
  unfold pending at whole
  rw [waiting, admitted, flying, htimeout, List.map_nil, List.append_nil, List.map_nil,
    List.append_nil, List.append_nil] at whole
  have same := all.trans whole
  refine ⟨counted, same, ?_, ?_⟩
  · rw [samples, List.length_map]
  · rw [failures]
    exact same.countP_eq _

end Cycle

end PingWatch
