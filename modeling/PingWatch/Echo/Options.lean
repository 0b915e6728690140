import PingWatch.Cause
import PingWatch.Duration

/-!
# Settings of an echo round

The round as a whole may take `timeout`; each of its requests waits for an equal share of it.  The
check around the round gets a grace on top, so that a round that runs into its deadline still
reports what it has.
-/

namespace PingWatch

/-- The settings of the echo rounds of a probe. -/
structure EchoOptions where
  /-- The requests sent per target and cycle. -/
  count : UInt16 := 5
  /-- The pause between two requests. -/
  pingInterval : Duration := .ofMillis 100
  /-- The deadline of the whole round. -/
  timeout : Duration := .ofSeconds 5
  /-- The loss below which a target reports. -/
  reportThreshold : Float := 0.05

namespace EchoOptions

/-- The extra time of a check beyond the deadline of its round. -/
def grace : Duration := .ofMillis 500

/-- The first setting that is zero, if any; a zero setting is refused. -/
def refused? (o : EchoOptions) : Option Cause :=
  if o.count = 0 then some (.ofText "count must be greater than 0")
  else if o.pingInterval.isZero then some (.ofText "ping_interval must be greater than 0")
  else if o.timeout.isZero then some (.ofText "timeout must be greater than 0")
  else none

/-- How long one request waits for its reply. -/
def echoWait (o : EchoOptions) : Duration := o.timeout.share (max o.count.toNat 1)

/-- How long a check may take, if that is a length of time at all. -/
def unitTimeout? (o : EchoOptions) : Option Duration := o.timeout.add? grace

/-- The error of opening a probe with refused options. -/
def openingError (c : Cause) : Cause := c.under "Invalid echo options"

end EchoOptions

end PingWatch
