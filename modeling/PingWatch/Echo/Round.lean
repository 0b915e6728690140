import PingWatch.Cause
import PingWatch.Echo.Summary

/-!
# Echo rounds

An echo round sends numbered requests one after the other and summarises the replies.  A ticker
spaces the requests, each request waits a limited time for its reply, and the round ends at its
deadline.  Times count milliseconds.

`Round.next` says when a request goes out, `Round.closes` when its wait ends, and `Round.echoes`
unfolds a round into the requests it sends.
-/

namespace PingWatch

/-- How the far side answers a request: after a while by a reply with a round trip time or by an
error, or never. -/
inductive Answer
  | reply (after : Nat) (rtt : Duration)
  | error (after : Nat)
  | silence
deriving DecidableEq

namespace Answer

/-- The time that passes before the answer is there. -/
def after? : Answer → Option Nat
  | reply after _ => some after
  | error after => some after
  | silence => none

/-- The round trip time that the answer reports. -/
def rtt? : Answer → Option Duration
  | reply _ rtt => some rtt
  | _ => none

end Answer

structure Round where
  count : UInt16
  /-- The distance of the ticks that requests wait for; zero is no ticker. -/
  spacing : Nat
  /-- How long a request waits for its reply. -/
  wait : Nat
  start : Nat
  /-- The time after which nothing is sent or waited for. -/
  deadline : Nat
  /-- The answer to each request. -/
  answer : Nat → Answer

/-- One request of a round. -/
structure Echo where
  number : Nat
  sentAt : Nat
  /-- The time at which the wait for the reply ended. -/
  closedAt : Nat
  /-- The round trip time, if the reply came in time. -/
  rtt? : Option Duration
deriving DecidableEq

namespace Round

/-- When request `k` can go out if the round has come to `now`: at tick `k`, or at once when that
tick has passed. -/
def next (r : Round) (k now : Nat) : Nat :=
  if r.spacing = 0 then now else max now (r.start + k * r.spacing)

/-- When a request sent at `now` stops waiting. -/
def limit (r : Round) (now : Nat) : Nat := min (now + r.wait) r.deadline

/-- Whether an answer is there in time.  One that is there at once always is, and one that comes
in the very millisecond of the limit is in time. -/
def inTime (r : Round) (now : Nat) (a : Answer) : Bool :=
  match a.after? with
  | none => false
  | some d => d = 0 || now + d ≤ r.limit now

/-- When the wait for the reply to a request sent at `now` ends. -/
def closes (r : Round) (now : Nat) (a : Answer) : Nat :=
  match a.after? with
  | some d => if d = 0 || now + d ≤ r.limit now then now + d else max now (r.limit now)
  | none => max now (r.limit now)

def echo (r : Round) (k now : Nat) : Echo :=
  let a := r.answer k
  { number := k, sentAt := now, closedAt := r.closes now a
    rtt? := if r.inTime now a then a.rtt? else none }

/-- The requests sent when request `k` is next, `left` remain and the round has come to `now`,
with the time at which the round ends. -/
def echoesFrom (r : Round) (k now : Nat) : Nat → List Echo × Nat
  | 0 => ([], now)
  | left + 1 =>
    let sentAt := r.next k now
    if now < sentAt ∧ r.deadline < sentAt then ([], max now r.deadline)
    else
      let e := r.echo k sentAt
      if r.deadline ≤ e.closedAt then ([e], e.closedAt)
      else
        let (later, fin) := echoesFrom r (k + 1) e.closedAt left
        (e :: later, fin)

def echoes (r : Round) : List Echo := (r.echoesFrom 0 r.start r.count.toNat).1

def finish (r : Round) : Nat := (r.echoesFrom 0 r.start r.count.toNat).2

/-- The summary of the round: what was not answered in time, or not sent, counts as lost. -/
def summary? (r : Round) : Option EchoSummary :=
  EchoSummary.ofReplies? r.count (r.echoes.filterMap (·.rtt?))

/-- The seconds that the clock of a round can count. -/
def clockSeconds : Nat := 0x8000000000000000

/-- A round for which a reply may be awaited `wait` long.  The clock cannot name the end of a wait
that is too long; that is found out when the first request goes out. -/
def ofWait? (count : UInt16) (spacing : Nat) (wait : Duration) (start deadline : Nat)
    (answer : Nat → Answer) : Except Fault Round :=
  if 0 < count ∧ clockSeconds ≤ wait.seconds then .error .clock
  else .ok { count, spacing, wait := wait.millisUp, start, deadline, answer }

end Round

end PingWatch
