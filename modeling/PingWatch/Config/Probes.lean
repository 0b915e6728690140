import PingWatch.Address.Reading
import PingWatch.Config.Properties
import PingWatch.Decimal.Shortest
import PingWatch.Echo.Options
import PingWatch.Prober

/-!
# Settings of the probes

The echo and the lookup probe each have their own properties.  Every setting is read from its own
key, is the default when the key is absent or blank, and is checked against its range; the first
setting that is refused decides.
-/

namespace PingWatch

namespace Properties

/-- A length of time other than zero. -/
def positiveDurationOr (key : String) (default : Duration) (p : Properties) :
    Except ConfigError Duration := do
  let d ← p.durationOr key default
  if d.isZero then .error (.invalid key "0" .zero) else return d

/-- A number other than zero up to `bound`. -/
def positiveOr (bound : Nat) (key : String) (default : Nat) (p : Properties) :
    Except ConfigError Nat := do
  let n ← p.wholeOr bound key default
  if n = 0 then .error (.invalid key "0" .zero) else return n

/-- A float from zero to one. -/
def fractionOr (key : String) (default : Float) (p : Properties) : Except ConfigError Float := do
  let x ← p.floatOr key default
  if 0.0 ≤ x ∧ x ≤ 1.0 then return x else .error (.invalid key (Decimal.plain x) .fraction)

/-- The endpoint of a name server; an absent or blank key has none. -/
def server? (key : String) (p : Properties) : Except ConfigError (Option Endpoint) :=
  p.readOr (fun s => match Endpoint.parseServer? s with
    | some e => .ok (some e)
    | none => .error .server) key none

end Properties

/-- The greatest number that a count can be configured to. -/
def mostConfigured : Nat := 0xFFFFFFFFFFFFFFFF

structure EchoConfig where
  interval : Duration := .ofSeconds 1
  timeout : Duration := .ofSeconds 5
  count : UInt16 := 5
  pingInterval : Duration := .ofMillis 100
  reportThreshold : Float := 0.05
  concurrency : Nat := 10
  excludeNodes : List String := []
  additionalTargets : List String := []

namespace EchoConfig

def ofProperties (p : Properties) : Except ConfigError EchoConfig := do
  let count ← p.positiveOr mostRequests "count" 5
  let reportThreshold ← p.fractionOr "node_packet_loss_threshold" 0.05
  let interval ← p.positiveDurationOr "interval" (.ofSeconds 1)
  let timeout ← p.positiveDurationOr "timeout" (.ofSeconds 5)
  let pingInterval ← p.positiveDurationOr "ping_interval" (.ofMillis 100)
  let concurrency ← p.positiveOr mostConfigured "concurrency" 10
  return { interval, timeout, count := count.toUInt16, pingInterval, reportThreshold, concurrency
           excludeNodes := p.list "exclude_nodes"
           additionalTargets := p.list "additional_targets" }

def echoOptions (c : EchoConfig) : EchoOptions :=
  { count := c.count, pingInterval := c.pingInterval, timeout := c.timeout
    reportThreshold := c.reportThreshold }

/-- How a prober goes about the echo probe: a check may take the deadline of its round and the
grace.  There is none when that is too long for a length of time. -/
def proberSettings? (c : EchoConfig) : Option ProberSettings :=
  c.echoOptions.unitTimeout?.map fun timeout =>
    { interval := c.interval, timeout, concurrency := c.concurrency }

end EchoConfig

structure LookupOptions where
  /-- The name server to ask; without one the system decides. -/
  server : Option Endpoint := none
  timeout : Duration := .ofSeconds 5
deriving DecidableEq

structure LookupConfig where
  interval : Duration := .ofSeconds 1
  timeout : Duration := .ofSeconds 5
  server : Option Endpoint := none
  names : List String := []
  concurrency : Nat := 100
deriving DecidableEq

namespace LookupConfig

def ofProperties (p : Properties) : Except ConfigError LookupConfig := do
  let server ← p.server? "server"
  let interval ← p.positiveDurationOr "interval" (.ofSeconds 1)
  let timeout ← p.positiveDurationOr "timeout" (.ofSeconds 5)
  let concurrency ← p.positiveOr mostConfigured "concurrency" 100
  return { interval, timeout, server, names := p.list "names", concurrency }

def proberSettings (c : LookupConfig) : ProberSettings :=
  { interval := c.interval, timeout := c.timeout, concurrency := c.concurrency }

def lookupOptions (c : LookupConfig) : LookupOptions := { server := c.server, timeout := c.timeout }

end LookupConfig

end PingWatch
