import PingWatch.Proofs.Metric.Flushed
import PingWatch.Proofs.Prober.OneCycle

/-!
# All or nothing

A prober runs one cycle after the other.  Each is flushed as a whole or not at all: a failed load
leaves everything as it was, a cancellation before the end of the checks suppresses the flush, and
every other cycle flushes once, at its end, and only what its own checks came to.

* `Fate`: the three ways in which a cycle comes out; `Fates` goes through a sequence of them.
* `Overwrites.lastFlushed`: of many flushes a sink keeps the last.
* `flushed_of_lastFlushed`: the numbers that this leaves in a sink are those of the aggregate.
* `flush_all_or_nothing`: every sequence of cycles has such fates, and what a sink holds
  afterwards is the flush of the last cycle that had one.
-/

namespace PingWatch

/-- Whether the cycle was flushed. -/
def CycleRun.flushed (r : CycleRun) : Bool :=
  match r.report with
  | .ok report => !report.cancelled
  | .error _ => false

/-- The last cycle of a sequence that was flushed. -/
def lastFlushed? (runs : List CycleRun) : Option CycleRun := runs.reverse.find? (·.flushed)

/-- What becomes of cycle `k`, which begins at `now` under a token that is cancelled at `cancelAt`,
when the aggregate holds `held`. -/
inductive Fate (p : Probing) (k now : Nat) (held : Samples) (cancelAt : Option Nat)
    (r : CycleRun) : Prop
  /-- The load fails: nothing is set, and the aggregate stays as it was. -/
  | unloaded {cause : Cause} (load : p.load k = .error cause)
    (report : r.report = .error (cause.under s!"Failed to load {p.scope.probe} targets"))
    (samples : r.samples = held) (settings : r.settings = [])
  /-- The cancellation comes before the end: nothing is set. -/
  | cancelled {targets : List String} {t failures : Nat} (load : p.load k = .ok targets)
    (cut : cancelAt = some t) (early : t ≤ p.joinedAt k now targets)
    (report : r.report = .ok { targets := targets.length, failures, cancelled := true })
    (settings : r.settings = [])
  /-- One flush, after all checks, of what the checks of this cycle came to. -/
  | flushed {targets : List String} {failures : Nat} (load : p.load k = .ok targets)
    (late : ∀ t, cancelAt = some t → p.joinedAt k now targets < t)
    (report : r.report = .ok { targets := targets.length, failures, cancelled := false })
    (settings : r.settings = gather takesAll
      { scope := p.scope, kind := p.kind, samples := r.samples })
    (shown : r.settings.map (fun s => (s.gauge, s.value.shown)) = p.kind.gauges.map fun g =>
      (g, Aggregate.shown { scope := p.scope, kind := p.kind, samples := r.samples } g))
    (own : ∃ counted : List Outcome, counted.Perm (p.outcomes k targets) ∧
      r.samples = counted.foldl (Samples.tally p.kind) (.fresh targets.length))
    (checked : r.begun.map (·.2) = targets)
    (after : ∀ e ∈ timetable (p.jobs k targets) r.begun, e.1 + e.2.span p.patience ≤ r.endedAt)

/-- The fates of cycles `k`, `k + 1` and so on, the first of which begins at `now`; each begins
where the one before it ends, and is cancelled so long after its beginning. -/
inductive Fates (p : Probing) : Nat → Nat → Samples → List (Option Nat) → List CycleRun → Prop
  | nil {k now : Nat} {held : Samples} : Fates p k now held [] []
  | cons {k now : Nat} {held : Samples} {cancelAfter : Option Nat} {cancels : List (Option Nat)}
    {r : CycleRun} {runs : List CycleRun}
    (one : Fate p k now held (cancelAfter.map (now + ·)) r)
    (rest : Fates p (k + 1) r.endedAt r.samples cancels runs) :
    Fates p k now held (cancelAfter :: cancels) (r :: runs)

/-! ## Fates -/

/-- A cycle sets nothing, or what its samples project to. -/
def Probing.Flushes (p : Probing) (r : CycleRun) : Prop :=
  r.flushed = false ∧ r.settings = [] ∨
    r.flushed = true ∧ r.settings = gather takesAll
      { scope := p.scope, kind := p.kind, samples := r.samples }

theorem Probing.Flushes.of_flushed {p : Probing} {r : CycleRun} (h : p.Flushes r)
    (flushed : r.flushed = true) :
    r.settings = gather takesAll { scope := p.scope, kind := p.kind, samples := r.samples } := by
  rcases h with ⟨silent, -⟩ | ⟨-, settings⟩
  · exact absurd (silent.symm.trans flushed) Bool.false_ne_true
  · exact settings

theorem Fate.flushes {p : Probing} {k now : Nat} {held : Samples} {cancelAt : Option Nat}
    {r : CycleRun} (h : Fate p k now held cancelAt r) : p.Flushes r := by
  cases h with
  | unloaded load report samples settings =>
    refine .inl ⟨?_, settings⟩
    unfold CycleRun.flushed
    rw [report]
  | cancelled load cut early report settings =>
    refine .inl ⟨?_, settings⟩
    unfold CycleRun.flushed
    rw [report]
    rfl
  | flushed load late report settings shown own checked after =>
    refine .inr ⟨?_, settings⟩
    unfold CycleRun.flushed
    rw [report]
    rfl

theorem Fates.flushes {p : Probing} {k now : Nat} {held : Samples}
    {cancels : List (Option Nat)} {runs : List CycleRun} (h : Fates p k now held cancels runs)
    {r : CycleRun} (hr : r ∈ runs) : p.Flushes r := by
  induction h with
  | nil => exact absurd hr List.not_mem_nil
  | cons one rest ih =>
    rcases List.mem_cons.mp hr with rfl | hr
    · exact one.flushes
    · exact ih hr

theorem lastFlushed?_eq_some {runs : List CycleRun} {r : CycleRun}
    (h : lastFlushed? runs = some r) : r ∈ runs ∧ r.flushed = true :=
  ⟨List.mem_reverse.mp (List.mem_of_find?_eq_some h), List.find?_some h⟩

/-- Nothing but the last flush is left in a sink. -/
theorem Overwrites.lastFlushed {σ : Type} {set : σ → Setting → σ} {p : Probing}
    (h : Overwrites p.scope set) {runs : List CycleRun} (hr : ∀ r ∈ runs, p.Flushes r) (m : σ) :
    (runs.flatMap (·.settings)).foldl set m =
      match lastFlushed? runs with
      | some r => r.settings.foldl set m
      | none => m := by
  induction runs generalizing m with
  | nil => rfl
  | cons r runs ih =>
    obtain ⟨one, rest⟩ := List.forall_mem_cons.mp hr
    have last : lastFlushed? (r :: runs) =
        (lastFlushed? runs).or (if r.flushed then some r else none) := by
      unfold lastFlushed?
      rw [List.reverse_cons, List.find?_append, List.find?_singleton]
    rw [List.flatMap_cons, List.foldl_append, ih rest, last]
    cases found : lastFlushed? runs with
    | none =>
      rcases one with ⟨silent, settings⟩ | ⟨flushed, -⟩
      · simp [silent, settings]
      · simp [flushed]
    | some r' =>
      obtain ⟨member, flushed'⟩ := lastFlushed?_eq_some found
      have later := (rest r' member).of_flushed flushed'
      simp only [Option.some_or]
      rcases one with ⟨-, settings⟩ | ⟨-, settings⟩
      · rw [settings, List.foldl_nil]
      · rw [later, settings]
        exact h.flush p.kind r.samples r'.samples m

/-- What is left is made of the numbers of the aggregate that was flushed last. -/
theorem flushed_of_lastFlushed {p : Probing} {runs : List CycleRun} {r : CycleRun}
    (hr : ∀ r ∈ runs, p.Flushes r) (last : lastFlushed? runs = some r) :
    Flushed { scope := p.scope, kind := p.kind, samples := r.samples }
      (runs.flatMap (·.settings)) := by
  obtain ⟨member, flushed⟩ := lastFlushed?_eq_some last
  have settings := (hr r member).of_flushed flushed
  have collector (c : Collector) : c.setAll (runs.flatMap (·.settings)) = c.setAll r.settings := by
    refine ((Collector.overwrites p.scope).lastFlushed hr c).trans ?_
    rw [last]
    rfl
  have registry : ({} : Registry).setAll (runs.flatMap (·.settings)) =
      ({} : Registry).setAll r.settings := by
    refine ((Registry.overwrites p.scope).lastFlushed hr {}).trans ?_
    rw [last]
    rfl
  have whole := flushed_gather { scope := p.scope, kind := p.kind, samples := r.samples }
  rw [← settings] at whole
  exact
    { values := fun c => collector c ▸ whole.values c
      kept := fun c => collector c ▸ whole.kept c
      collected := collector {} ▸ whole.collected
      exposed := registry ▸ whole.exposed }

namespace Prober

/-! ## One cycle after the other -/

/-- What becomes of one cycle, and of the prober. -/
theorem cycle_fate {p p' : Prober} {now : Nat} {cancelAt : Option Nat} {r : CycleRun}
    (slots : 0 < p.probing.settings.concurrency)
    (ran : p.cycle now cancelAt takesAll = .ok (p', r)) :
    Fate p.probing p.loads now p.samples cancelAt r ∧ p' = p.after r := by
  cases loaded : p.probing.load p.loads with
  | error cause =>
    rw [cycle_of_unloaded now takesAll loaded cancelAt] at ran
    obtain ⟨rfl, rfl⟩ := Prod.mk.inj (Except.ok.inj ran)
    exact ⟨.unloaded loaded rfl rfl rfl, rfl⟩
  | ok targets =>
    by_cases permits : p.probing.settings.concurrency ≤ mostPermits
    · obtain ⟨late, whole⟩ | ⟨t, rfl, early, cut⟩ :=
        cycle_cases now takesAll loaded permits cancelAt
      · rw [whole] at ran
        obtain ⟨rfl, rfl⟩ := Prod.mk.inj (Except.ok.inj ran)
        have reached := p.probing.closing_reached p.loads now targets
        have finished := p.probing.closing_finished p.loads now targets
        obtain ⟨counted, same, samples, -⟩ := reached.tallied finished slots
        rw [List.length_map, p.probing.length_jobs, reached.setup.1] at samples
        exact ⟨.flushed loaded late rfl rfl (shown_gather _) ⟨counted, same, samples⟩
          (Probing.begun_of_finished reached finished slots)
          (Probing.joinedAt_last slots p.loads now targets).1, rfl⟩
      · rw [cut] at ran
        obtain ⟨rfl, rfl⟩ := Prod.mk.inj (Except.ok.inj ran)
        exact ⟨.cancelled loaded rfl early rfl rfl, rfl⟩
    · rw [cycle_of_fault now takesAll loaded (Nat.not_le.mp permits) cancelAt] at ran
      exact absurd ran (by simp)

theorem cycle_total {p : Prober} (permits : p.probing.settings.concurrency ≤ mostPermits)
    (now : Nat) (cancelAt : Option Nat) (refuses : Gauge → Bool) :
    ∃ r, p.cycle now cancelAt refuses = .ok (p.after r, r) := by
  cases loaded : p.probing.load p.loads with
  | error cause => exact ⟨_, cycle_of_unloaded now refuses loaded cancelAt⟩
  | ok targets =>
    obtain ⟨-, whole⟩ | ⟨t, rfl, -, cut⟩ := cycle_cases now refuses loaded permits cancelAt
    · exact ⟨_, whole⟩
    · exact ⟨_, cut⟩

theorem cycles_total {p : Prober} (permits : p.probing.settings.concurrency ≤ mostPermits)
    (now : Nat) (cancels : List (Option Nat)) :
    ∃ runs, p.cycles now (cancels.map fun cancelAfter => (cancelAfter, takesAll)) = .ok runs := by
  induction cancels generalizing p now with
  | nil => exact ⟨[], rfl⟩
  | cons cancelAfter cancels ih =>
    obtain ⟨r, ran⟩ := cycle_total permits now (cancelAfter.map (now + ·)) takesAll
    have permits' : (p.after r).probing.settings.concurrency ≤ mostPermits := permits
    obtain ⟨runs, rest⟩ := ih permits' r.endedAt
    refine ⟨r :: runs, ?_⟩
    rw [List.map_cons]
    unfold cycles
    rw [ran]
    dsimp only [bind, Except.bind]
    rw [rest]
    rfl

theorem cycles_fates {p : Prober} (slots : 0 < p.probing.settings.concurrency) {now : Nat}
    {cancels : List (Option Nat)} {runs : List CycleRun}
    (ran : p.cycles now (cancels.map fun cancelAfter => (cancelAfter, takesAll)) = .ok runs) :
    Fates p.probing p.loads now p.samples cancels runs := by
  induction cancels generalizing p now runs with
  | nil =>
    obtain rfl := Except.ok.inj ran
    exact .nil
  | cons cancelAfter cancels ih =>
    rw [List.map_cons] at ran
    unfold cycles at ran
    cases one : p.cycle now (cancelAfter.map (now + ·)) takesAll with
    | error f =>
      rw [one] at ran
      exact absurd ran (by simp [bind, Except.bind])
    | ok result =>
      obtain ⟨p', r⟩ := result
      rw [one] at ran
      dsimp only [bind, Except.bind] at ran
      obtain ⟨fate, rfl⟩ := cycle_fate slots one
      cases rest : (p.after r).cycles r.endedAt
          (cancels.map fun cancelAfter => (cancelAfter, takesAll)) with
      | error f =>
        rw [rest] at ran
        exact absurd ran (by simp)
      | ok runs' =>
        rw [rest] at ran
        obtain rfl := Except.ok.inj ran
        have slots' : 0 < (p.after r).probing.settings.concurrency := slots
        exact .cons fate (ih slots' rest)

/-- **A flush is all or nothing.**  A sequence of cycles comes to its end unless more permits are
asked for than a pool may hold.  In it a cycle whose load fails leaves everything as it was; one
that is cancelled before its last check has been counted sets nothing; and every other one flushes
once, after all of its checks, what these came to and nothing else.  In the end a sink holds the
flush of the last cycle that had one, whatever it held before, which is the numbers of the aggregate
of that cycle. -/
theorem flush_all_or_nothing {p : Prober} (slots : 0 < p.probing.settings.concurrency) (now : Nat)
    (cancels : List (Option Nat)) :
    (p.probing.settings.concurrency ≤ mostPermits →
      ∃ runs, p.cycles now (cancels.map fun cancelAfter => (cancelAfter, takesAll)) = .ok runs) ∧
    ∀ runs, p.cycles now (cancels.map fun cancelAfter => (cancelAfter, takesAll)) = .ok runs →
      Fates p.probing p.loads now p.samples cancels runs ∧
      (∀ sink : Collector, sink.setAll (runs.flatMap (·.settings)) =
        match lastFlushed? runs with | some r => sink.setAll r.settings | none => sink) ∧
      (∀ sink : Registry, sink.setAll (runs.flatMap (·.settings)) =
        match lastFlushed? runs with | some r => sink.setAll r.settings | none => sink) ∧
      ∀ r, lastFlushed? runs = some r →
        Flushed { scope := p.probing.scope, kind := p.probing.kind, samples := r.samples }
          (runs.flatMap (·.settings)) := by
  refine ⟨fun permits => cycles_total permits now cancels, fun runs ran => ?_⟩
  have fates := cycles_fates slots ran
  have flushes : ∀ r ∈ runs, p.probing.Flushes r := fun _ hr => fates.flushes hr
  exact ⟨fates, (Collector.overwrites p.probing.scope).lastFlushed flushes,
    (Registry.overwrites p.probing.scope).lastFlushed flushes,
    fun _ last => flushed_of_lastFlushed flushes last⟩

/-- Lookups of three names, of which one has no address, and whose second load fails. -/
def shaky : Probing where
  scope := ⟨"dns", "here"⟩
  kind := .lookup
  settings := { concurrency := 1 }
  load
    | 1 => .error (.ofText "no such file")
    | _ => .ok ["a", "b", "none"]
  check _ _ name :=
    { delay? := some 3, ending := .sample (.lookup (if name = "none" then 0 else 1)) }

/-- Of a whole cycle, one whose load fails and one cut off, the first is what a sink holds: two of
three names were resolved. -/
theorem shaky_flushes_once :
    ∃ r₁ r₂ r₃, (start shaky 0).cycles 0 ([none, none, some 4].map fun t => (t, takesAll)) =
        .ok [r₁, r₂, r₃] ∧
      (r₁.flushed, r₂.flushed, r₃.flushed) = (true, false, false) ∧
      (∀ sink : Collector,
        let sink' := sink.setAll (r₁.settings ++ (r₂.settings ++ (r₃.settings ++ [])))
        let read (name : String) := Series.valueOf? ⟨"dns", "here"⟩ name sink'.series
        sink' = sink.setAll r₁.settings ∧ read "dns_total" = some 3.0 ∧
          read "dns_success" = some 2.0 ∧ read "dns_error" = some 1.0 ∧ read "health" = some 0.0) ∧
      (({} : Registry).setAll (r₁.settings ++ (r₂.settings ++ (r₃.settings ++ [])))).Shows
        "octoping_probe_dns_success" [("octoping_node", "here")] 2.0 := by
  obtain ⟨fates, collector, -, flushed⟩ :=
    (flush_all_or_nothing (p := start shaky 0) (by decide) 0 [none, none, some 4]).2 _ rfl
  have numbers := flushed _ rfl
  refine ⟨_, _, _, rfl, rfl, fun sink => ⟨collector sink, ?_, ?_, ?_, ?_⟩, ?_⟩
  · exact numbers.values sink .dnsTotal (by decide)
  · exact numbers.values sink .dnsSuccess (by decide)
  · exact numbers.values sink .dnsError (by decide)
  · exact numbers.values sink .health (by decide)
  · exact (numbers.exposed _ _ _).mpr ⟨.dnsSuccess, by decide, rfl, rfl, rfl⟩

end Prober

end PingWatch
