import PingWatch.Prober
import PingWatch.Supervisor.Basic

/-!
# Listeners and their bodies

A supervised body is a script or a probe loop.  A script is a list of actions, made one after the
other; scheduling a sub-task is one of them, so a script is a tree of bodies.  A `Listener` is a
body that the supervisor starts itself, perhaps waiting for it to say that it is ready.
-/

namespace PingWatch

/-- A signal that asks the process to end. -/
inductive Signal
  | terminate
  | interrupt
deriving DecidableEq

/-- One action of a script. -/
inductive Action
  | sleep (millis : Nat)
  | note (text : String)
  /-- Says that the body is ready. -/
  | ready
  /-- Waits until the supervisor is cancelled. -/
  | wait
  /-- Cancels the supervisor. -/
  | cancel
  | fail (failure : Failure)
  | panic (text : String)
  | raise (signal : Signal)
  /-- Schedules a sub-task; with `propagate` a refusal ends this body with that failure. -/
  | schedule (name : String) (steps : List Action) (propagate : Bool)

mutual

/-- The number of actions in an action, those of sub-tasks included. -/
def Action.size : Action → Nat
  | .schedule _ steps _ => 1 + Action.sizeAll steps
  | _ => 1

/-- The number of actions in a script, those of sub-tasks included. -/
def Action.sizeAll : List Action → Nat
  | [] => 0
  | a :: rest => a.size + Action.sizeAll rest

end

/-- What a body does. -/
inductive Work
  | script (steps : List Action)
  /-- A probe loop that begins when the body starts. -/
  | probing (p : Probing)
  | loop (p : Prober)

/-- A body that the supervisor starts. -/
structure Listener where
  /-- The name under which it appears in the trace. -/
  label : Option String
  work : Work
  /-- Whether later listeners wait until this one is ready. -/
  readyRequired : Bool

namespace Listener

def unimplemented (readyRequired : Bool) : Listener :=
  { label := none, work := .script [.fail .unimplemented], readyRequired }

/-- The status endpoint on `address`, where `bound` says what the attempt to bind it came to: it is
ready once bound and serves until the supervisor is cancelled. -/
def status (address : String) (bound : Except String Unit) (readyRequired : Bool) : Listener :=
  let steps := match bound with
    | .ok () => [Action.ready, .wait]
    | .error reason =>
      [.fail (.caused ((Cause.ofText reason).under
        s!"Failed to bind status server to {address}"))]
  { label := none, work := .script steps, readyRequired }

def prober (p : Probing) (readyRequired : Bool) : Listener :=
  { label := none, work := .probing p, readyRequired }

def script (name : String) (steps : List Action) (readyRequired : Bool) : Listener :=
  { label := some name, work := .script steps, readyRequired }

end Listener

end PingWatch
