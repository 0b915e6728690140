import PingWatch.Echo.Summary

/-!
# The aggregate of a cycle

An `Aggregate` gathers the samples of one probe over one cycle.  Its kind says which counters a
failed check goes to and when the probe counts as healthy.  The vectors hold one entry per target,
in the order in which the checks ended.
-/

namespace PingWatch

/-- The probe and the node that a series is about. -/
structure Scope where
  probe : String
  node : String
deriving DecidableEq, Inhabited

/-- What an aggregate counts: echo rounds, where a target reports when its loss is strictly below
`threshold`, or name lookups. -/
inductive Kind
  | echo (threshold : Float)
  | lookup

/-- The raw samples of one cycle. -/
structure Samples where
  /-- Worst round trip time of each answering target, in microseconds. -/
  maxRtt : List Float := []
  /-- Best round trip time of each answering target, in microseconds. -/
  minRtt : List Float := []
  /-- Mean round trip time of each answering target, in microseconds. -/
  meanRtt : List Float := []
  /-- Loss fraction of each target, failed ones included. -/
  packetLoss : List Float := []
  total : Nat := 0
  reports : Nat := 0
  success : Nat := 0
  errors : Nat := 0
deriving Inhabited

namespace Samples

def fresh (total : Nat) : Samples := { total := total }

/-- Adds an echo summary to an aggregate of the given kind. -/
def recordEcho (kind : Kind) (e : EchoSummary) (s : Samples) : Samples :=
  let reports := match kind with
    | .echo threshold => if e.loss < threshold then s.reports + 1 else s.reports
    | .lookup => s.reports
  let s := { s with reports, packetLoss := s.packetLoss ++ [e.loss] }
  if 0 < e.received then
    { s with
      maxRtt := s.maxRtt ++ [e.worst.toMicros]
      minRtt := s.minRtt ++ [e.best.toMicros]
      meanRtt := s.meanRtt ++ [e.mean.toMicros] }
  else s

/-- Adds a lookup with its number of addresses: none at all is an error. -/
def recordLookup (addresses : Nat) (s : Samples) : Samples :=
  if 0 < addresses then { s with success := s.success + 1 } else { s with errors := s.errors + 1 }

/-- Adds the result of a successful check. -/
def record (kind : Kind) (sample : Sample) (s : Samples) : Samples :=
  match sample with
  | .echo e => s.recordEcho kind e
  | .lookup addresses => s.recordLookup addresses

/-- Adds a check that failed or timed out: a total loss, or a lookup error. -/
def recordFailure (kind : Kind) (s : Samples) : Samples :=
  match kind with
  | .echo _ => { s with packetLoss := s.packetLoss ++ [1.0] }
  | .lookup => { s with errors := s.errors + 1 }

/-- Whether every target reports, or no lookup failed. -/
def healthy (kind : Kind) (s : Samples) : Bool :=
  match kind with
  | .echo _ => s.reports == s.total
  | .lookup => s.errors == 0

end Samples

structure Aggregate where
  scope : Scope
  kind : Kind
  samples : Samples := {}

namespace Aggregate

def reset (a : Aggregate) : Aggregate := { a with samples := {} }

def setTotal (n : Nat) (a : Aggregate) : Aggregate :=
  { a with samples := { a.samples with total := n } }

def record (sample : Sample) (a : Aggregate) : Aggregate :=
  { a with samples := a.samples.record a.kind sample }

def recordFailure (a : Aggregate) : Aggregate :=
  { a with samples := a.samples.recordFailure a.kind }

def healthy (a : Aggregate) : Bool := a.samples.healthy a.kind

end Aggregate

end PingWatch
