import PingWatch.Metric

/-!
# The metric registry

A `GaugeVec` is a family of gauges, one for every list of values of its labels.  The gauges of most
vectors are labelled with the node and the probe, those of the lookup counters with the node alone,
so that there the probes share one gauge.  A `Registry` keeps the latest value of every gauge that
was set.  `Registry.setter` is the table of which vector a setter sets and by which label values.
-/

namespace PingWatch

structure GaugeVec where
  /-- The name of the family. -/
  name : String
  help : String
  labels : List String
deriving DecidableEq

namespace GaugeVec

/-- What the names of all families begin with. -/
def stem : String := "octoping_probe"

def nodeLabel : String := "octoping_node"

def probeLabel : String := "octoping_probe"

def named (name help : String) (labels : List String) : GaugeVec :=
  { name := stem ++ "_" ++ name, help, labels }

def probeLabels : List String := [nodeLabel, probeLabel]

def nodeLabels : List String := [nodeLabel]

def health : GaugeVec :=
  named "health" "Health of the probe (1 healthy, 0 unhealthy)" probeLabels

def nodesTotal : GaugeVec :=
  named "nodes_total" "Number of targets probed in the last cycle" probeLabels

def nodesReports : GaugeVec :=
  named "nodes_reports" "Number of targets below the packet loss threshold" probeLabels

def rttMax : GaugeVec := named "rtt_max" "Maximum round trip time in microseconds" probeLabels

def rttMin : GaugeVec := named "rtt_min" "Minimum round trip time in microseconds" probeLabels

def rttMean : GaugeVec := named "rtt_mean" "Mean round trip time in microseconds" probeLabels

def rttStddev : GaugeVec :=
  named "rtt_stddev" "Standard deviation of mean round trip times" probeLabels

def packetLossMin : GaugeVec :=
  named "packet_loss_min" "Minimum packet loss fraction" probeLabels

def packetLossMax : GaugeVec :=
  named "packet_loss_max" "Maximum packet loss fraction" probeLabels

def packetLossMean : GaugeVec :=
  named "packet_loss_mean" "Mean packet loss fraction" probeLabels

def packetLossTotal : GaugeVec :=
  named "packet_loss_total" "Sum of packet loss fractions" probeLabels

def dnsTotal : GaugeVec :=
  named "dns_total" "Number of names resolved in the last cycle" nodeLabels

def dnsSuccess : GaugeVec := named "dns_success" "Number of successful lookups" nodeLabels

def dnsError : GaugeVec := named "dns_error" "Number of failed lookups" nodeLabels

end GaugeVec

/-- The value of one gauge of a family. -/
structure GaugeSample where
  family : String
  /-- The values of the labels, in the order of the labels. -/
  values : List String
  value : Float

namespace GaugeSample

def isFor (family : String) (values : List String) (s : GaugeSample) : Bool :=
  s.family = family && s.values = values

/-- The samples with the value of one of them replaced, or with a new one behind them. -/
def put (family : String) (values : List String) (value : Float) :
    List GaugeSample → List GaugeSample
  | [] => [{ family, values, value }]
  | s :: rest =>
    if s.isFor family values then { s with value } :: rest else s :: put family values value rest

@[simp] theorem isFor_eq_true {family : String} {values : List String} {s : GaugeSample} :
    s.isFor family values = true ↔ s.family = family ∧ s.values = values := by
  simp [isFor]

end GaugeSample

structure Registry where
  samples : List GaugeSample := []

namespace Registry

/-- The vectors that a registry is made with. -/
def vecs : List GaugeVec :=
  [.health, .nodesTotal, .nodesReports, .rttMax, .rttMin, .rttMean, .rttStddev, .packetLossMin,
    .packetLossMax, .packetLossMean, .packetLossTotal, .dnsTotal, .dnsSuccess, .dnsError]

/-- Sets the gauge of a vector that has the label values.  There is no such gauge unless there is
one value for each label. -/
def put (vec : GaugeVec) (values : List String) (value : Float) (r : Registry) : Registry :=
  if values.length = vec.labels.length then ⟨GaugeSample.put vec.name values value r.samples⟩
  else r

def byProbe (scope : Scope) : List String := [scope.node, scope.probe]

def byNode (scope : Scope) : List String := [scope.node]

/-- The vector that a setter sets, and the values that it gives to the labels. -/
def setter : Gauge → GaugeVec × (Scope → List String)
  | .health => (.health, byProbe)
  | .nodesTotal => (.nodesTotal, byProbe)
  | .nodesReports => (.nodesReports, byProbe)
  | .rttMax => (.rttMax, byProbe)
  | .rttMin => (.rttMin, byProbe)
  | .rttMean => (.rttMean, byProbe)
  | .rttStddev => (.rttStddev, byProbe)
  | .packetLossMin => (.packetLossMin, byProbe)
  | .packetLossMax => (.packetLossMax, byProbe)
  | .packetLossMean => (.packetLossMean, byProbe)
  | .packetLossTotal => (.packetLossTotal, byProbe)
  | .dnsTotal => (.dnsTotal, byNode)
  | .dnsSuccess => (.dnsSuccess, byNode)
  | .dnsError => (.dnsError, byNode)

/-- The value that a gauge is set to. -/
def level : Reading → Float
  | .number x => x
  | .flag healthy => if healthy then 1.0 else 0.0

def set (r : Registry) (s : Setting) : Registry :=
  let (vec, values) := setter s.gauge
  r.put vec (values s.scope) (level s.value)

def setAll (r : Registry) (ss : List Setting) : Registry := ss.foldl set r

/-! ### The table -/

theorem setter_mem_vecs (g : Gauge) : (setter g).1 ∈ vecs := by
  cases g <;> decide

/-- Every setter gives a value to every label. -/
theorem length_setter (g : Gauge) (scope : Scope) :
    ((setter g).2 scope).length = (setter g).1.labels.length := by
  cases g <;> rfl

theorem nodup_vecs : (vecs.map (·.name)).Nodup := by decide

end Registry

end PingWatch
