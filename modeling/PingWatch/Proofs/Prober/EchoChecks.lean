import PingWatch.Proofs.Config.Timing
import PingWatch.Proofs.Echo.Deadline
import PingWatch.Proofs.Echo.Replies
import PingWatch.Proofs.Prober.Conservation

/-!
# Echo checks are never cut off

A check runs one echo round, and the round keeps a deadline that counts from the beginning of the
check.  The prober grants the check a little longer than that.  So the timeout of the prober never
comes first, and a round is recorded even when all its replies are lost: that is
`Prober.rounds_are_recorded`.
-/

namespace PingWatch

namespace EchoConfig

variable {c : EchoConfig}

/-- A check may take 500 milliseconds longer than its round. -/
theorem Accepted.patience {s : ProberSettings} (h : c.Accepted)
    (set : c.proberSettings? = some s) : s.timeout.millisUp = c.timeout.millisUp + 500 := by
  obtain ⟨limit, set', longer⟩ := exists_proberSettings h
  obtain rfl := Option.some.inj (set.symm.trans set')
  obtain ⟨n, -, -, timeout⟩ := h.timeout
  have limit_eq : limit.nanos = (Duration.ofMillis (n + 500)).nanos := by
    rw [longer, timeout]
    exact (Nat.add_mul ..).symm
  have limit_eq : limit = .ofMillis (n + 500) := by
    cases limit
    exact congrArg _ limit_eq
  show limit.millisUp = c.timeout.millisUp + 500
  rw [limit_eq, timeout, Duration.millisUp_ofMillis, Duration.millisUp_ofMillis]

end EchoConfig

/-- A check that runs a round is recorded if the round does not last longer than the check may. -/
theorem Job.outcome_of_round {j : Job} {r : Round} {s : EchoSummary} {timeout : Nat}
    (check : j.check = r.check) (summary : r.summary? = some s)
    (early : r.finish - r.start ≤ timeout) : j.outcome timeout = .recorded (.echo s) := by
  unfold outcome
  rw [check]
  unfold Round.check
  rw [summary]
  simp [early]

/-- Whether every check of a probing runs an echo round with the options `o`, whenever it begins and
whatever it is answered, as long as the times of the replies can be added up. -/
def Probing.RunsRounds (p : Probing) (o : EchoOptions) : Prop :=
  ∀ k i target, ∃ start answer r, o.round? start answer = .ok r ∧ r.TotalFits ∧
    p.check k i target = r.check

/-- What the round of a target comes to is recorded, for the prober waits longer than the round. -/
theorem Probing.RunsRounds.recorded {p : Probing} {c : EchoConfig} (h : c.Accepted)
    (set : c.proberSettings? = some p.settings) (rounds : p.RunsRounds c.echoOptions) (k : Nat)
    (targets : List String) : ∀ j ∈ p.jobs k targets,
      ∃ s, j.check.ending = .sample (.echo s) ∧ j.outcome p.patience = .recorded (.echo s) := by
  intro j hj
  obtain ⟨⟨target, i⟩, -, rfl⟩ := List.mem_map.mp hj
  obtain ⟨start, answer, r, run, fits, check⟩ := rounds k i target
  obtain rfl := Except.ok.inj ((h.round?_eq start answer).symm.trans run)
  obtain ⟨s, summary, -⟩ := Round.exists_summary fits
  have ends : (c.echoOptions.round start answer).finish ≤ start + c.timeout.millisUp :=
    Round.finish_le_deadline _ (Nat.le_add_right ..)
  have early : (c.echoOptions.round start answer).finish - start ≤ p.patience := by
    unfold Probing.patience
    rw [h.patience set]
    omega
  refine ⟨s, ?_, Job.outcome_of_round check summary early⟩
  show (p.check k i target).ending = .sample (.echo s)
  rw [check]
  unfold Round.check
  rw [summary]

namespace Prober

/-- **Echo checks are never cut off.**  A round with the options of an accepted configuration ends
at the latest at its deadline, whatever it is answered.  A prober with the settings of the
configuration whose checks are such rounds records for every target of a cycle that is not cancelled
the sample that its round comes to, and no failure. -/
theorem rounds_are_recorded {props : Properties} {c : EchoConfig}
    (accepted : EchoConfig.ofProperties props = .ok c) (permits : c.concurrency ≤ mostPermits) :
    (∀ start answer, ∃ r, c.echoOptions.round? start answer = .ok r ∧
      (r.TotalFits → ∃ s, r.summary? = some s) ∧
      start ≤ r.finish ∧ r.finish ≤ start + c.timeout.millisUp) ∧
    ∀ (p : Prober) (threshold : Float) (targets : List String),
      c.proberSettings? = some p.probing.settings → p.probing.kind = .echo threshold →
      p.probing.RunsRounds c.echoOptions → p.probing.load p.loads = .ok targets →
      ∀ (now : Nat) (cancelAt : Option Nat) (refuses : Gauge → Bool),
        ∃ run, p.cycle now cancelAt refuses = .ok (p.after run, run) ∧
          (cancelAt = none → run.flushed = true) ∧
          (run.flushed = true →
            run.report = .ok { targets := targets.length, failures := 0, cancelled := false } ∧
            (∀ j ∈ p.probing.jobs p.loads targets, ∃ s, j.check.ending = .sample (.echo s) ∧
              j.outcome p.probing.patience = .recorded (.echo s)) ∧
            run.samples.Accounts (.echo threshold) (p.probing.outcomes p.loads targets)) := by
  have sound := EchoConfig.accepted accepted
  refine ⟨fun start answer => ?_, fun p threshold targets set kind rounds loaded => ?_⟩
  · have early : (c.echoOptions.round start answer).start ≤
        (c.echoOptions.round start answer).deadline := Nat.le_add_right ..
    refine ⟨_, sound.round?_eq start answer, fun fits => ?_, Round.start_le_finish _ early,
      Round.finish_le_deadline _ early⟩
    obtain ⟨s, summary, -⟩ := Round.exists_summary fits
    exact ⟨s, summary⟩
  · intro now cancelAt refuses
    have recorded := rounds.recorded sound set p.loads targets
    have sampled : ∀ o ∈ p.probing.outcomes p.loads targets,
        ∃ s, o = .recorded (.echo s) := by
      intro o ho
      obtain ⟨j, hj, rfl⟩ := List.mem_map.mp ho
      obtain ⟨s, -, counted⟩ := recorded j hj
      exact ⟨s, counted⟩
    have concurrency : p.probing.settings.concurrency = c.concurrency := by
      obtain ⟨limit, set', -⟩ := EchoConfig.exists_proberSettings sound
      rw [Option.some.inj (set.symm.trans set')]
    have slots : 0 < p.probing.settings.concurrency := concurrency ▸ sound.concurrency.1
    obtain ⟨-, whole⟩ | ⟨t, rfl, -, cut⟩ :=
      cycle_cases now refuses loaded (concurrency ▸ permits) cancelAt
    · have fits : ∀ o ∈ p.probing.outcomes p.loads targets, o.Fits p.probing.kind := by
        intro o ho
        obtain ⟨s, rfl⟩ := sampled o ho
        intro x same
        obtain rfl := Outcome.recorded.inj same
        rw [kind]
        trivial
      obtain ⟨failures, accounts, -⟩ := finished_accounts slots fits
        (p.probing.closing_reached p.loads now targets)
        (p.probing.closing_finished p.loads now targets)
      have none_failed : (p.probing.outcomes p.loads targets).countP Outcome.isFailure = 0 := by
        refine List.countP_eq_zero.mpr fun o ho => ?_
        obtain ⟨s, rfl⟩ := sampled o ho
        exact Bool.false_ne_true
      rw [none_failed] at failures
      refine ⟨_, whole, fun _ => rfl, fun _ => ⟨?_, recorded, kind ▸ accounts⟩⟩
      exact congrArg (fun n => Except.ok (⟨targets.length, n, false⟩ : CycleReport)) failures
    · refine ⟨_, cut, fun never => ?_, fun flushed => ?_⟩
      · exact absurd never (Option.some_ne_none t)
      · exact absurd flushed Bool.false_ne_true

/-- Echo checks of two targets that never answer. -/
def mute : Probing where
  scope := ⟨"icmp", "here"⟩
  kind := .echo 0.05
  settings := { timeout := .ofMillis 5500 }
  load _ := .ok ["a", "b"]
  check _ _ _ := (({} : EchoConfig).echoOptions.round 0 fun _ => .silence).check

/-- Both rounds last until their deadline, and both are recorded. -/
theorem mute_is_recorded :
    (({} : EchoConfig).echoOptions.round 0 fun _ => .silence).finish = 5000 ∧
      ∃ run, (start mute 0).cycle 0 none takesAll = .ok ((start mute 0).after run, run) ∧
        run.report = .ok { targets := 2, failures := 0, cancelled := false } ∧
        run.samples.packetLoss.length = 2 := by
  have accepted : EchoConfig.ofProperties (.parse "") = .ok {} := by rfl
  have rounds : (start mute 0).probing.RunsRounds ({} : EchoConfig).echoOptions :=
    fun _ _ _ => ⟨0, fun _ => .silence, _, rfl, Nat.zero_le _, rfl⟩
  obtain ⟨-, cycles⟩ := rounds_are_recorded accepted (by decide)
  obtain ⟨run, ran, flushed, recorded⟩ :=
    cycles (start mute 0) 0.05 ["a", "b"] rfl rfl rounds rfl 0 none takesAll
  obtain ⟨report, -, accounts⟩ := recorded (flushed rfl)
  exact ⟨by decide, run, ran, report, accounts.losses.length_eq⟩

end Prober

end PingWatch
