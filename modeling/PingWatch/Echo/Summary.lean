import PingWatch.Cause
import PingWatch.Duration

/-!
# Summary of an echo round

`EchoSummary.ofRtts` condenses the round trip times of the replies to a number of requests.  It
keeps to words: 16 bits count the requests and the replies, and 32 bits of the number of times
divide their sum.  `EchoSummary.ofReplies?` is the summary with no word but that of the requests.
It has no value only when the times add up past the largest length of time.  Either way more
replies are never received than requests are sent.
-/

namespace PingWatch

/-- The greatest number of requests in an echo round. -/
def mostRequests : Nat := 0xFFFF

theorem toNat_le_mostRequests (n : UInt16) : n.toNat ≤ mostRequests :=
  Nat.le_of_lt_succ n.toNat_lt

/-- What one echo round against one target came to. -/
structure EchoSummary where
  sent : Nat
  received : Nat
  worst : Duration
  best : Duration
  mean : Duration
  /-- No more replies count than there were requests, so what is lost can be counted. -/
  received_le : received ≤ sent
  sent_le : sent ≤ mostRequests
deriving DecidableEq

namespace EchoSummary

def longer (a b : Duration) : Duration := if a.nanos ≤ b.nanos then b else a

def shorter (a b : Duration) : Duration := if b.nanos < a.nanos then b else a

/-- The longest time of a list, zero for an empty one. -/
def longest : List Duration → Duration
  | [] => .zero
  | d :: ds => ds.foldl longer d

/-- The shortest time of a list, zero for an empty one. -/
def shortest : List Duration → Duration
  | [] => .zero
  | d :: ds => ds.foldl shorter d

/-- The mean of a list rounded down to nanoseconds, zero for an empty one. -/
def meanOf? (rtts : List Duration) : Option Duration :=
  match rtts with
  | [] => some .zero
  | _ :: _ => (Duration.sum? rtts).map (·.share rtts.length)

/-- The summary of `rtts`, the round trip times of the replies to `sent` requests.  More replies
than requests count as all answered. -/
def ofReplies? (sent : UInt16) (rtts : List Duration) : Option EchoSummary :=
  (meanOf? rtts).map fun mean =>
    { sent := sent.toNat, received := min rtts.length sent.toNat, worst := longest rtts
      best := shortest rtts, mean, received_le := Nat.min_le_right ..
      sent_le := toNat_le_mostRequests sent }

/-- The mean of a list in words, zero for an empty one. -/
def meanOf (rtts : List Duration) : Except Fault Duration :=
  match rtts with
  | [] => .ok .zero
  | _ :: _ =>
    match Duration.sum? rtts with
    | none => .error .durationTotal
    | some total =>
      match total.divide? rtts.length.toUInt32 with
      | none => .error .durationShare
      | some mean => .ok mean

/-- The summary of `rtts` in words.  The replies are cut to the requests first, and to 16 bits only
then. -/
def ofRtts (sent : UInt16) (rtts : List Duration) : Except Fault EchoSummary :=
  (meanOf rtts).map fun mean =>
    { sent := sent.toNat, received := (min rtts.length sent.toNat).toUInt16.toNat
      worst := longest rtts, best := shortest rtts, mean
      received_le := Nat.le_trans (Nat.mod_le ..) (Nat.min_le_right ..)
      sent_le := toNat_le_mostRequests sent }

/-- The fraction of requests without a reply; nothing sent counts as total loss. -/
def loss (s : EchoSummary) : Float :=
  if s.sent = 0 then 1.0
  else (s.sent - s.received).toUInt64.toFloat / s.sent.toUInt64.toFloat

end EchoSummary

/-- Result of one successful check of one target. -/
inductive Sample
  | echo (summary : EchoSummary)
  | lookup (addresses : Nat)
deriving DecidableEq

end PingWatch
