import PingWatch.Cycle
import PingWatch.Echo.Options
import PingWatch.Echo.Round

/-!
# The check of a target by an echo round

A check runs one round with the options of its probe.  The deadline of the round counts from the
beginning of the check, so the check takes as long as the round does, and reports its summary.
-/

namespace PingWatch

/-- The round of a check that begins at `start`. -/
def EchoOptions.round? (o : EchoOptions) (start : Nat) (answer : Nat → Answer) :
    Except Fault Round :=
  Round.ofWait? o.count o.pingInterval.millisUp o.echoWait start (start + o.timeout.millisUp)
    answer

/-- The check that runs the round `r` and nothing else. -/
def Round.check (r : Round) : Check :=
  { delay? := some (r.finish - r.start)
    ending := match r.summary? with
      | some s => .sample (.echo s)
      | none => .panic Fault.durationTotal.message }

end PingWatch
