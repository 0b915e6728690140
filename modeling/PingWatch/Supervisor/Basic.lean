import PingWatch.Cause

/-!
# The supervisor's books

A `Supervisor` keeps one cancellation flag, the first failure, the number of admitted bodies that
have not finished, and, under a limit, a pool of permits.  Each admission takes a permit and each
end of a body gives one back; `failed` latches the first failure and cancels.

The limit may change only while no body is unfinished, so that free permits and unfinished bodies
together always make up the pool.
-/

namespace PingWatch

/-- Why a supervised body, or an admission, failed. -/
inductive Failure
  | caused (cause : Cause)
  | panicked
  /-- An admission found all permits taken. -/
  | tooManyTasks (limit : Nat)
  /-- A listener without an implementation was started. -/
  | unimplemented
deriving DecidableEq

namespace Failure

def message : Failure → String
  | caused cause => cause.full
  | panicked => "task panicked"
  | tooManyTasks limit => s!"too many running tasks (limit {limit})"
  | unimplemented => "unimplemented"

/-- The text of a failure that ended a supervised run. -/
def finalMessage (f : Failure) : String := s!"server: {f.message}"

end Failure

structure Permits where
  capacity : Nat
  free : Nat
deriving DecidableEq

/-- What became of an admission. -/
inductive Verdict
  | admitted
  | refused (limit : Nat)
deriving DecidableEq

inductive Ending
  | well
  | failed (f : Failure)
deriving DecidableEq

/-- The books of a supervisor. -/
structure Supervisor where
  /-- The pool of permits, if there is a limit. -/
  permits : Option Permits := none
  /-- The bodies admitted and not finished. -/
  unfinished : Nat := 0
  /-- The first failure. -/
  latched : Option Failure := none
  cancelled : Bool := false
deriving DecidableEq

namespace Supervisor

/-- The most unfinished bodies allowed, if there is a limit. -/
def limit (s : Supervisor) : Option Nat := s.permits.map (·.capacity)

/-- Replaces the limit.  Doing so over running bodies is a fault. -/
def setLimit (limit : Option Nat) (s : Supervisor) : Except Fault Supervisor :=
  if s.unfinished ≠ 0 then .error (.limitInUse s.unfinished)
  else
    match limit with
    | none => .ok { s with permits := none }
    | some n =>
      if mostPermits < n then .error .permits
      else .ok { s with permits := some { capacity := n, free := n } }

def cancel (s : Supervisor) : Supervisor := { s with cancelled := true }

/-- Latches `f` and cancels, unless a failure is latched already. -/
def failed (f : Failure) (s : Supervisor) : Supervisor :=
  match s.latched with
  | some _ => s
  | none => { s with latched := some f, cancelled := true }

/-- Admits one more body, or refuses and counts that as a failure. -/
def enlist (s : Supervisor) : Verdict × Supervisor :=
  match s.permits with
  | none => (.admitted, { s with unfinished := s.unfinished + 1 })
  | some ⟨capacity, 0⟩ => (.refused capacity, s.failed (.tooManyTasks capacity))
  | some ⟨capacity, free + 1⟩ =>
    (.admitted,
      { s with permits := some { capacity, free := free }, unfinished := s.unfinished + 1 })

/-- Books the end of a body: its failure first, then its permit and its place. -/
def finish (ending : Ending) (s : Supervisor) : Supervisor :=
  let s := match ending with
    | .well => s
    | .failed f => s.failed f
  { s with
    permits := s.permits.map fun p => { p with free := p.free + 1 }
    unfinished := s.unfinished - 1 }

end Supervisor

end PingWatch
