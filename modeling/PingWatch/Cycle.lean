import PingWatch.Aggregate
import PingWatch.Cause

/-!
# One probing cycle

A `Cycle` checks every target of a list once, with at most `slots` checks under way.  It is a
machine that moves in small steps.  Admission takes free slots for the next targets of the list; an
admitted check then begins, runs, and ends at its own time or at its timeout, when it gives its slot
back.  `Cycle.step` makes the next move and `Cycle.nextTime?` says when that is, so that a
cancellation can cut the cycle off between two moves (`advanceBefore`).

A check that panics is noticed only once every target has been admitted, and after everything else
that happens in that millisecond: until then it waits in `unjoined`.
-/

namespace PingWatch

/-- What a finished check reports. -/
inductive CheckEnd
  | sample (s : Sample)
  | error (cause : Cause)
  | panic (text : String)

/-- How a check behaves: it reports after a while, or never. -/
structure Check where
  delay? : Option Nat
  ending : CheckEnd

/-- A target with the check that it will get. -/
structure Job where
  target : String
  check : Check

/-- How a check counts in the cycle. -/
inductive Outcome
  | recorded (s : Sample)
  /-- An error or a timeout. -/
  | failed
  | panicked

namespace Job

/-- How long the job's check is under way when it may take `timeout`. -/
def span (timeout : Nat) (j : Job) : Nat :=
  match j.check.delay? with
  | some d => min d timeout
  | none => timeout

/-- How the job's check counts when it may take `timeout`: a report in the very millisecond of the
timeout is in time. -/
def outcome (timeout : Nat) (j : Job) : Outcome :=
  let inTime := match j.check.delay? with
    | some d => d = 0 || d ≤ timeout
    | none => false
  if inTime then
    match j.check.ending with
    | .sample s => .recorded s
    | .error _ => .failed
    | .panic _ => .panicked
  else .failed

end Job

/-- A check under way. -/
structure Flight where
  /-- How many checks of the cycle began before this one. -/
  position : Nat
  /-- When the check ends. -/
  due : Nat
  outcome : Outcome

structure Cycle where
  kind : Kind
  /-- How many checks may be under way. -/
  slots : Nat
  /-- How many slots nobody holds. -/
  free : Nat
  /-- How long one check may take. -/
  timeout : Nat
  /-- The time of the last move. -/
  now : Nat
  /-- The targets that have no slot yet. -/
  waiting : List Job
  /-- The targets that have a slot and whose checks have not begun. -/
  admitted : List Job := []
  /-- The checks under way, in the order in which they began. -/
  flying : List Flight := []
  /-- How many panicked checks have not been noticed yet. -/
  unjoined : Nat := 0
  samples : Samples
  /-- The checks that failed, timed out or panicked, as far as noticed. -/
  failures : Nat := 0
  /-- The checks begun, each with its time, latest first. -/
  begun : List (Nat × String) := []
  /-- The most checks that were under way at once. -/
  peak : Nat := 0

namespace Cycle

/-- The cycle over `jobs` that begins at `now`. -/
def start (kind : Kind) (slots timeout now : Nat) (jobs : List Job) : Cycle :=
  { kind, slots, free := slots, timeout, now, waiting := jobs, samples := .fresh jobs.length }

/-- Counts an ended check; a panicked one waits until it is noticed. -/
def settle (o : Outcome) (c : Cycle) : Cycle :=
  match o with
  | .recorded s => { c with samples := c.samples.record c.kind s }
  | .failed => { c with samples := c.samples.recordFailure c.kind, failures := c.failures + 1 }
  | .panicked => { c with unjoined := c.unjoined + 1 }

/-- Notices the panicked checks: each is a failure. -/
def join (c : Cycle) : Cycle :=
  { c with
    samples := Nat.repeat (Samples.recordFailure c.kind) c.unjoined c.samples
    failures := c.failures + c.unjoined
    unjoined := 0 }

/-- Gives a slot back. -/
def release (c : Cycle) : Cycle := { c with free := c.free + 1 }

/-- Begins the check of `j`, the next target in line.  A check that takes no time ends at once. -/
def begin (j : Job) (c : Cycle) : Cycle :=
  let flight :=
    { position := c.begun.length, due := c.now + j.span c.timeout, outcome := j.outcome c.timeout }
  let c := { c with
    begun := (c.now, j.target) :: c.begun
    peak := max c.peak (c.flying.length + 1) }
  if j.span c.timeout = 0 then c.release.settle flight.outcome
  else { c with flying := c.flying ++ [flight] }

/-- Takes the free slots for the next targets, and notices panicked checks once every target has a
slot. -/
def fill (c : Cycle) : Cycle :=
  let taken := c.waiting.take c.free
  let next := { c with
    waiting := c.waiting.drop c.free, admitted := taken, free := c.free - taken.length }
  if next.waiting.isEmpty then next.join else next

/-- Whether admission has something to do. -/
def canFill (c : Cycle) : Bool :=
  if c.waiting.isEmpty then 0 < c.unjoined else 0 < c.free

/-- The check that ends first; of several the one that began first. -/
def soonest? : List Flight → Option Flight
  | [] => none
  | f :: fs =>
    match soonest? fs with
    | none => some f
    | some g => if f.due ≤ g.due then some f else some g

def land (f : Flight) (c : Cycle) : Cycle :=
  let c := { c with now := max c.now f.due
                    flying := c.flying.filter fun g => g.position ≠ f.position }
  c.release.settle f.outcome

inductive Move
  | begin (j : Job) (rest : List Job)
  | fill
  | land (f : Flight)

/-- The next move and its time.  Checks whose time has come end first, then admitted checks begin,
then free slots are given away, and only then does time pass. -/
def move? (c : Cycle) : Option (Nat × Move) :=
  let overdue := match soonest? c.flying with
    | some f => if f.due ≤ c.now then some f else none
    | none => none
  match overdue with
  | some f => some (c.now, .land f)
  | none =>
    match c.admitted with
    | j :: rest => some (c.now, .begin j rest)
    | [] =>
      if c.canFill then some (c.now, .fill)
      else (soonest? c.flying).map fun f => (max c.now f.due, .land f)

def perform (c : Cycle) : Move → Cycle
  | .begin j rest => { c with admitted := rest }.begin j
  | .fill => c.fill
  | .land f => c.land f

/-- The time of the next move; a finished cycle has none. -/
def nextTime? (c : Cycle) : Option Nat := c.move?.map (·.1)

/-- Makes the next move; a finished cycle stays as it is. -/
def step (c : Cycle) : Cycle :=
  match c.move? with
  | some (_, m) => c.perform m
  | none => c

/-- Whether every check has ended and been counted. -/
def finished (c : Cycle) : Bool := c.move?.isNone

/-- An upper bound for the number of moves left. -/
def work (c : Cycle) : Nat :=
  4 * c.waiting.length + 3 * c.admitted.length + 2 * c.flying.length + c.unjoined

/-- Makes the next move if its time lies before `limit`; without a limit any move is made. -/
def stepBefore (limit : Option Nat) (c : Cycle) : Cycle :=
  match c.nextTime?, limit with
  | some t, some l => if t < l then c.step else c
  | some _, none => c.step
  | none, _ => c

/-- Makes all moves whose times lie before `limit`. -/
def advanceBefore (limit : Option Nat) (c : Cycle) : Cycle :=
  Nat.repeat (stepBefore limit) c.work c

/-- Cuts the cycle off at `now`: checks under way are dropped uncounted, and every slot that is held
is given back. -/
def cutOff (now : Nat) (c : Cycle) : Cycle :=
  { c with now, waiting := [], admitted := [], flying := []
           free := c.free + c.admitted.length + c.flying.length }.join

end Cycle

end PingWatch
