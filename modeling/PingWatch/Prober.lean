import PingWatch.Cycle
import PingWatch.Duration
import PingWatch.Metric

/-!
# The probe loop

A `Prober` drives one probe: it loads the targets, runs a cycle over them, flushes the aggregate to
the monitor, and pauses for one interval counted from the flush.  Only a failed load, or a fault,
ends the loop with an error; a cancelled loop ends well, and a cancelled cycle is not flushed.

`Prober.cycle` runs one cycle on its own and `Prober.run` the whole loop on its own clock.
`Prober.turn` is the loop one wake-up at a time, for a supervisor that has other work too.
-/

namespace PingWatch

/-- How a prober goes about its cycles. -/
structure ProberSettings where
  /-- The pause between the end of one cycle and the start of the next. -/
  interval : Duration := .ofSeconds 1
  /-- The upper bound for one check of one target. -/
  timeout : Duration := .ofSeconds 5
  /-- The most checks under way at once. -/
  concurrency : Nat := 10
deriving DecidableEq

/-- The first setting that is zero, if any; a zero setting is refused. -/
def ProberSettings.refused? (s : ProberSettings) : Option Cause :=
  if s.interval.isZero then some (.ofText "interval must be greater than 0")
  else if s.timeout.isZero then some (.ofText "timeout must be greater than 0")
  else if s.concurrency = 0 then some (.ofText "concurrency must be greater than 0")
  else none

/-- What a prober probes, and what its surroundings answer. -/
structure Probing where
  scope : Scope
  kind : Kind
  settings : ProberSettings
  /-- The outcome of each load of the targets. -/
  load : Nat → Except Cause (List String)
  /-- The check that a target gets: by the number of the cycle and the target's position. -/
  check : Nat → Nat → String → Check

namespace Probing

/-- A probing whose settings are accepted. -/
def validate (p : Probing) : Except Cause Probing :=
  match p.settings.refused? with
  | some cause => .error (cause.under s!"Invalid {p.scope.probe} prober settings")
  | none => .ok p

def jobs (p : Probing) (k : Nat) (targets : List String) : List Job :=
  targets.zipIdx.map fun (target, i) => { target, check := p.check k i target }

/-- The error of a failed load, with its context. -/
def loadFailure (p : Probing) (cause : Cause) : Cause :=
  cause.under s!"Failed to load {p.scope.probe} targets"

end Probing

/-- Why a cycle did not come about. -/
inductive CycleFailure
  | load (cause : Cause)
  | fault (f : Fault)

/-- What a loop is doing. -/
inductive LoopState
  /-- Waiting for the next cycle to begin. -/
  | pausing (until_ : Nat)
  | cycling (c : Cycle)
  /-- Ended after a cancellation. -/
  | stopped
  | broken (why : CycleFailure)

structure Prober where
  probing : Probing
  /-- How many times the targets have been loaded. -/
  loads : Nat := 0
  /-- The samples of the latest cycle. -/
  samples : Samples := {}
  state : LoopState

structure CycleReport where
  targets : Nat
  failures : Nat
  /-- Whether the cancellation came before the flush; then there was none. -/
  cancelled : Bool
deriving DecidableEq

/-- All that can be seen of one cycle. -/
structure CycleRun where
  report : Except Cause CycleReport
  beganAt : Nat
  endedAt : Nat
  /-- The checks begun, each with its time. -/
  begun : List (Nat × String)
  peak : Nat
  samples : Samples
  settings : List Setting

/-- Something a loop does that others can see. -/
inductive Doing
  | checks (target : String)
  | sets (s : Setting)

namespace Prober

def start (probing : Probing) (now : Nat) : Prober := { probing, state := .pausing now }

def interval (p : Prober) : Nat := p.probing.settings.interval.millisUp

def aggregate (p : Prober) : Aggregate :=
  { scope := p.probing.scope, kind := p.probing.kind, samples := p.samples }

/-- Loads the targets for a cycle that begins at `now`. -/
def load (p : Prober) (now : Nat) : Except CycleFailure Cycle :=
  match p.probing.load p.loads with
  | .error cause => .error (.load (p.probing.loadFailure cause))
  | .ok targets =>
    if mostPermits < p.probing.settings.concurrency then .error (.fault .permits)
    else .ok (.start p.probing.kind p.probing.settings.concurrency
      p.probing.settings.timeout.millisUp now (p.probing.jobs p.loads targets))

def beginCycle (p : Prober) (now : Nat) : Prober :=
  match p.load now with
  | .error why => { p with loads := p.loads + 1, state := .broken why }
  | .ok c => { p with loads := p.loads + 1, samples := c.samples, state := .cycling c }

/-- The checks that `later` has begun and `earlier` had not. -/
def newChecks (earlier later : Cycle) : List Doing :=
  ((later.begun.take (later.begun.length - earlier.begun.length)).reverse).map
    fun (_, target) => .checks target

/-- Brings the cycle `c` up to `now`: a finished cycle is flushed and the loop pauses. -/
def advance (p : Prober) (now : Nat) (c : Cycle) : Prober × List Doing :=
  let c' := c.advanceBefore (some (now + 1))
  let p' := { p with samples := c'.samples }
  if c'.finished then
    ({ p' with state := .pausing (now + p.interval) },
      newChecks c c' ++ (gather takesAll p'.aggregate).map .sets)
  else ({ p' with state := .cycling c' }, newChecks c c')

/-- The time at which the loop has something to do by itself. -/
def nextTime? (p : Prober) : Option Nat :=
  match p.state with
  | .pausing t => some t
  | .cycling c => c.nextTime?
  | .stopped | .broken _ => none

/-- What the loop does when it is woken at `now`, `cancelled` by then or not.  A cancellation comes
before the end of a pause or of a check in the same millisecond.  A wait for both may end by either;
this is the order that the loop takes. -/
def turn (p : Prober) (now : Nat) (cancelled : Bool) : Prober × List Doing :=
  match p.state, cancelled with
  | .stopped, _ | .broken _, _ => (p, [])
  | .pausing _, true => ({ p with state := .stopped }, [])
  | .cycling c, true =>
    ({ p with samples := (c.cutOff now).samples, state := .stopped }, [])
  | .cycling c, false => p.advance now c
  | .pausing t, false =>
    if t ≤ now then
      let p := p.beginCycle now
      match p.state with
      | .cycling c => p.advance now c
      | _ => (p, [])
    else (p, [])

/-- Runs one cycle that begins at `now` under a token that is cancelled at `cancelAt`, on a monitor
that refuses some gauges.  The prober returned is ready for the next cycle. -/
def cycle (p : Prober) (now : Nat) (cancelAt : Option Nat) (refuses : Gauge → Bool) :
    Except Fault (Prober × CycleRun) :=
  let after := { p with loads := p.loads + 1 }
  match p.load now with
  | .error (.fault f) => .error f
  | .error (.load cause) =>
    .ok (after,
      { report := .error cause, beganAt := now, endedAt := now, begun := [], peak := 0
        samples := p.samples, settings := [] })
  | .ok c₀ =>
    let c := c₀.advanceBefore cancelAt
    let cutAt := match cancelAt with
      | some t => if c.finished && c.now < t then none else some (max now t)
      | none => none
    let done := match cutAt with
      | some t => c.cutOff t
      | none => c
    let after := { after with samples := done.samples }
    .ok (after,
      { report := .ok
          { targets := c₀.waiting.length, failures := done.failures, cancelled := cutAt.isSome }
        beganAt := now, endedAt := done.now, begun := done.begun.reverse, peak := done.peak
        samples := done.samples
        settings := if cutAt.isSome then [] else gather refuses after.aggregate })

/-- Runs one cycle after the other, each on its own token (cancelled so long after the cycle began)
and monitor. -/
def cycles (p : Prober) (now : Nat) : List (Option Nat × (Gauge → Bool)) →
    Except Fault (List CycleRun)
  | [] => .ok []
  | (cancelAfter, refuses) :: rest => do
    let (p, r) ← p.cycle now (cancelAfter.map (now + ·)) refuses
    return r :: (← p.cycles r.endedAt rest)

end Prober

inductive LoopResult
  /-- The loop was cancelled. -/
  | ended
  | failed (cause : Cause)
  /-- The loop was still going when it was no longer watched. -/
  | unfinished
deriving DecidableEq

/-- All that can be seen of a whole loop. -/
structure LoopRun where
  result : LoopResult
  endedAt : Nat
  /-- The checks begun, each with its time. -/
  begun : List (Nat × String)
  samples : Samples
  settings : List Setting

namespace Prober

/-- The time at which the loop is next woken: by itself, or by the cancellation. -/
def wakeTime? (p : Prober) (cancelAt : Option Nat) : Option Nat :=
  match p.nextTime?, cancelAt with
  | some t, some c => some (min t c)
  | some t, none => some t
  | none, _ => none

/-- The loop woken time after time until it ends or the clock passes `horizon`, and what it did,
latest first. -/
def watch (p : Prober) (cancelAt : Option Nat) (horizon now : Nat) (seen : List (Nat × Doing)) :
    Nat → Prober × Nat × List (Nat × Doing)
  | 0 => (p, now, seen)
  | fuel + 1 =>
    match p.wakeTime? cancelAt with
    | none => (p, now, seen)
    | some t =>
      if horizon < t then (p, horizon, seen)
      else
        let (p, doings) := p.turn t (cancelAt.any (· ≤ t))
        p.watch cancelAt horizon t ((doings.map (t, ·)).reverse ++ seen) fuel

/-- Runs the loop from time zero until it ends, or until `horizon` when it does not. -/
def run (probing : Probing) (cancelAt : Option Nat) (horizon : Nat) : Except Fault LoopRun :=
  let (p, now, seen) := (start probing 0).watch cancelAt horizon 0 [] (2 * horizon + 4)
  let begun := seen.reverse.filterMap fun
    | (t, .checks target) => some (t, target)
    | (_, .sets _) => none
  let settings := seen.reverse.filterMap fun
    | (_, .sets s) => some s
    | (_, .checks _) => none
  let outcome (result : LoopResult) (endedAt : Nat) : LoopRun :=
    { result, endedAt, begun, samples := p.samples, settings }
  match p.state with
  | .broken (.fault f) => .error f
  | .broken (.load cause) => .ok (outcome (.failed cause) now)
  | .stopped => .ok (outcome .ended now)
  | .pausing _ | .cycling _ => .ok (outcome .unfinished horizon)

end Prober

end PingWatch
