import PingWatch.Aggregate
import PingWatch.Cause
import PingWatch.Moments

/-!
# Metrics and gauges

A `Metric` is one projection of an aggregate and a `Gauge` one exported number.  Most metrics set
one gauge; the loss vector sets four.  `Metric.settings` is the table of which gauges a metric
sets to what, `Metric.write` makes these settings on a monitor that may refuse some, and `gather`
writes all metrics of an aggregate.

A refused setting ends the metric it belongs to and no other.
-/

namespace PingWatch

/-- An exported number, which is also a setter of a monitor. -/
inductive Gauge
  | rttMax | rttMin | rttMean | rttStddev
  | packetLossMean | packetLossMin | packetLossMax | packetLossTotal
  | nodesTotal | nodesReports | health
  | dnsTotal | dnsSuccess | dnsError
deriving DecidableEq, Inhabited

namespace Gauge

def all : List Gauge :=
  [rttMax, rttMin, rttMean, rttStddev, packetLossMean, packetLossMin, packetLossMax,
    packetLossTotal, nodesTotal, nodesReports, health, dnsTotal, dnsSuccess, dnsError]

/-- The name of the setter. -/
def name : Gauge → String
  | rttMax => "rtt_max"
  | rttMin => "rtt_min"
  | rttMean => "rtt_mean"
  | rttStddev => "rtt_stddev"
  | packetLossMean => "packet_loss_mean"
  | packetLossMin => "packet_loss_min"
  | packetLossMax => "packet_loss_max"
  | packetLossTotal => "packet_loss_total"
  | nodesTotal => "nodes_total"
  | nodesReports => "nodes_reports"
  | health => "health"
  | dnsTotal => "dns_total"
  | dnsSuccess => "dns_success"
  | dnsError => "dns_error"

theorem name_injective {g h : Gauge} (e : g.name = h.name) : g = h := by
  revert e; cases g <;> cases h <;> decide

end Gauge

/-- A value to set a gauge to: a number, or for the health gauge a flag. -/
inductive Reading
  | number (x : Float)
  | flag (b : Bool)

/-- One write to a monitor. -/
structure Setting where
  gauge : Gauge
  scope : Scope
  value : Reading

/-- What a metric projects from an aggregate. -/
inductive Projection
  | rttMax (values : List Float)
  | rttMin (values : List Float)
  | rttMean (values : List Float)
  /-- The deviation of the mean round trip times. -/
  | rttStddev (values : List Float)
  | packetLoss (values : List Float)
  | nodesTotal (count : Nat)
  | nodesReports (count : Nat)
  | health (healthy : Bool)
  | dnsTotal (count : Nat)
  | dnsSuccess (count : Nat)
  | dnsError (count : Nat)

namespace Projection

def name : Projection → String
  | rttMax _ => "rtt_max"
  | rttMin _ => "rtt_min"
  | rttMean _ => "rtt_mean"
  | rttStddev _ => "rtt_stddev"
  | packetLoss _ => "packet_loss"
  | nodesTotal _ => "nodes_total"
  | nodesReports _ => "nodes_reports"
  | health _ => "health"
  | dnsTotal _ => "dns_total"
  | dnsSuccess _ => "dns_success"
  | dnsError _ => "dns_error"

/-- A count as the number a gauge shows. -/
def countReading (n : Nat) : Reading := .number n.toUInt64.toFloat

/-- The gauges that a projection sets, in order, each with its value. -/
def readings : Projection → List (Gauge × Reading)
  | rttMax vs => [(.rttMax, .number (Moments.greatest vs))]
  | rttMin vs => [(.rttMin, .number (Moments.least vs))]
  | rttMean vs => [(.rttMean, .number (Moments.mean vs))]
  | rttStddev vs => [(.rttStddev, .number (Moments.deviation vs))]
  | packetLoss vs =>
    [(.packetLossMean, .number (Moments.mean vs)), (.packetLossMin, .number (Moments.least vs)),
      (.packetLossMax, .number (Moments.greatest vs)),
      (.packetLossTotal, .number (Moments.sum vs))]
  | nodesTotal n => [(.nodesTotal, countReading n)]
  | nodesReports n => [(.nodesReports, countReading n)]
  | health b => [(.health, .flag b)]
  | dnsTotal n => [(.dnsTotal, countReading n)]
  | dnsSuccess n => [(.dnsSuccess, countReading n)]
  | dnsError n => [(.dnsError, countReading n)]

end Projection

/-- A projection of the aggregate of `scope`. -/
structure Metric where
  scope : Scope
  projection : Projection

namespace Metric

def settings (m : Metric) : List Setting :=
  m.projection.readings.map fun (gauge, value) => { gauge, scope := m.scope, value }

/-- The settings made one after the other until the monitor refuses one: those made, the refused
one included, and the gauge that was refused, if any. -/
def attempt (refuses : Gauge → Bool) : List Setting → List Setting × Option Gauge
  | [] => ([], none)
  | s :: rest =>
    if refuses s.gauge then ([s], some s.gauge)
    else
      let (made, refused) := attempt refuses rest
      (s :: made, refused)

def write (refuses : Gauge → Bool) (m : Metric) : List Setting × Option Gauge :=
  attempt refuses m.settings

end Metric

/-- The metrics of an aggregate, in the order in which they are written: health comes last. -/
def Aggregate.metrics (a : Aggregate) : List Metric :=
  let s := a.samples
  let projections : List Projection := match a.kind with
    | .echo _ =>
      [.rttMax s.maxRtt, .rttMin s.minRtt, .rttStddev s.meanRtt, .rttMean s.meanRtt,
        .packetLoss s.packetLoss, .nodesTotal s.total, .nodesReports s.reports]
    | .lookup => [.dnsTotal s.total, .dnsSuccess s.success, .dnsError s.errors]
  (projections ++ [Projection.health a.healthy]).map fun projection =>
    { scope := a.scope, projection }

/-- Writes every metric of an aggregate; a metric that is refused does not stop the others. -/
def gather (refuses : Gauge → Bool) (a : Aggregate) : List Setting :=
  a.metrics.flatMap fun m => (m.write refuses).1

/-- A monitor that takes every setting. -/
def takesAll : Gauge → Bool := fun _ => false

def Gauge.refusal (g : Gauge) : Cause := .ofText s!"setter {g.name} failed"

end PingWatch
