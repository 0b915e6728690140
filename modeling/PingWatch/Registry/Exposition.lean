import PingWatch.Decimal.Shortest
import PingWatch.Registry

/-!
# The text exposition of a registry

A family shows the gauges of one vector that were set, each with its labels.  Families are sorted by
name and their samples by label values; a family without samples is left out.  A family is written
as its help text, its type, and a line per sample.
-/

namespace PingWatch

/-- A number under labels, each with its name and in the order in which they are written. -/
structure Labelled where
  labels : List (String × String)
  value : Float
deriving DecidableEq

structure Family where
  name : String
  help : String
  samples : List Labelled

namespace Registry

def family (r : Registry) (vec : GaugeVec) : Family :=
  let samples := r.samples.filter (·.family = vec.name)
  let sorted := samples.mergeSort fun a b => !b.values.lex a.values (· < ·)
  { name := vec.name
    help := vec.help
    samples := sorted.map fun s => { labels := vec.labels.zip s.values, value := s.value } }

/-- The families with samples, sorted. -/
def families (r : Registry) : List Family :=
  let sorted := vecs.mergeSort fun a b => a.name ≤ b.name
  (sorted.map r.family).filter (!·.samples.isEmpty)

/-- One character of a label value. -/
def escapeChar (c : Char) : List Char :=
  match c with
  | '\\' => ['\\', '\\']
  | '\n' => ['\\', 'n']
  | '"' => ['\\', '"']
  | c => [c]

/-- A label value between quotes. -/
def quoteLabel (s : String) : String := .ofList ('"' :: s.toList.flatMap escapeChar ++ ['"'])

/-- The line of a sample of the family `name`. -/
def sampleLine (name : String) (s : Labelled) : String :=
  let labels := ",".intercalate (s.labels.map fun (k, v) => k ++ "=" ++ quoteLabel v)
  name ++ "\x7b" ++ labels ++ "\x7d " ++ Decimal.plain s.value ++ "\n"

def familyText (f : Family) : String :=
  s!"# HELP {f.name} {f.help}\n# TYPE {f.name} gauge\n" ++
    String.join (f.samples.map (sampleLine f.name))

def exposition (r : Registry) : String := String.join (r.families.map familyText)

end Registry

end PingWatch
