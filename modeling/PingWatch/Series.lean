import PingWatch.Metric

/-!
# Collected series

A `Collector` keeps the latest value of every series that was written to it, in the order in which
the series were first written.  `Collector.seriesName` is the table of which setter writes which
series.  Main statements: a series reads back as what was last written to it, and a write to one
series leaves the others as they are.
-/

namespace PingWatch

/-- A named value of one scope. -/
structure Series where
  scope : Scope
  name : String
  value : Float

namespace Series

def isFor (scope : Scope) (name : String) (s : Series) : Bool :=
  s.scope = scope && s.name = name

/-- The series with the value of one of them replaced, or with a new one behind them. -/
def put (scope : Scope) (name : String) (value : Float) : List Series → List Series
  | [] => [{ scope, name, value }]
  | s :: rest =>
    if s.isFor scope name then { s with value } :: rest else s :: put scope name value rest

/-- The value of the first series with a scope and a name. -/
def valueOf? (scope : Scope) (name : String) (ss : List Series) : Option Float :=
  (ss.find? (isFor scope name)).map (·.value)

end Series

structure Collector where
  series : List Series := []

namespace Collector

def put (scope : Scope) (name : String) (value : Float) (c : Collector) : Collector :=
  ⟨Series.put scope name value c.series⟩

/-- The name of the series that a setter writes. -/
def seriesName : Gauge → String
  | .health => "health"
  | .nodesTotal => "nodes_total"
  | .nodesReports => "nodes_reports"
  | .rttMax => "rtt_max"
  | .rttMin => "rtt_min"
  | .rttMean => "rtt_mean"
  | .rttStddev => "rtt_stddev"
  | .packetLossMin => "packet_loss_min"
  | .packetLossMax => "packet_loss_max"
  | .packetLossMean => "packet_loss_mean"
  | .packetLossTotal => "packet_loss_total"
  | .dnsTotal => "dns_total"
  | .dnsSuccess => "dns_success"
  | .dnsError => "dns_error"

/-- The value that a series is written with. -/
def level : Reading → Float
  | .number x => x
  | .flag healthy => if healthy then 1.0 else 0.0

def set (c : Collector) (s : Setting) : Collector :=
  c.put s.scope (seriesName s.gauge) (level s.value)

def setAll (c : Collector) (ss : List Setting) : Collector := ss.foldl set c

/-- The value of the first series with a name, of whatever scope. -/
def get? (c : Collector) (name : String) : Option Float :=
  (c.series.find? (·.name = name)).map (·.value)

end Collector

/-! ### Lemmas -/

namespace Series

@[simp] theorem isFor_eq_true {scope : Scope} {name : String} {s : Series} :
    s.isFor scope name = true ↔ s.scope = scope ∧ s.name = name := by
  simp [isFor]

/-- A series reads back as what was written to it. -/
theorem valueOf?_put_self (scope : Scope) (name : String) (value : Float) (ss : List Series) :
    valueOf? scope name (put scope name value ss) = some value := by
  induction ss with
  | nil => simp [put, valueOf?, isFor]
  | cons s rest ih =>
    unfold put
    split
    · next h => simp_all [valueOf?, isFor]
    · next h =>
      rw [valueOf?, List.find?_cons_of_neg h]
      exact ih

/-- A write to another series does not change what a series reads as. -/
theorem valueOf?_put_of_ne {scope scope' : Scope} {name name' : String}
    (h : ¬(scope' = scope ∧ name' = name)) (value : Float) (ss : List Series) :
    valueOf? scope name (put scope' name' value ss) = valueOf? scope name ss := by
  induction ss with
  | nil => simp [put, valueOf?, isFor, h]
  | cons s rest ih =>
    unfold put
    split
    · next hs =>
      rw [isFor_eq_true] at hs
      simp [valueOf?, isFor, hs.1, hs.2, h]
    · by_cases hs : s.isFor scope name = true
      · simp [valueOf?, hs]
      · rw [valueOf?, List.find?_cons_of_neg hs, valueOf?, List.find?_cons_of_neg hs]
        exact ih

end Series

end PingWatch
