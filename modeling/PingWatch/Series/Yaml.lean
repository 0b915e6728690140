import PingWatch.Decimal.Shortest
import PingWatch.Series
import PingWatch.Text.Scalar

/-!
# Series as YAML

A mapping with the list of series, each of them a mapping of its own.
-/

namespace PingWatch.Series

namespace Yaml

/-- A number.  An exponent that is not negative has no sign. -/
def number (x : Float) : String :=
  match Decimal.pointed [] x with
  | some digits => digits
  | none => if x.isNaN then ".nan" else if x < 0.0 then "-.inf" else ".inf"

def text (s : String) : String := .ofList (Text.Scalar.line 4 s.toList)

def entry (s : Series) : String :=
  "- probe: " ++ text s.scope.probe ++ "  node: " ++ text s.scope.node ++
    "  name: " ++ text s.name ++ "  value: " ++ number s.value ++ "\n"

end Yaml

def yaml (ss : List Series) : String :=
  match ss with
  | [] => "series: []\n"
  | ss => "series:\n" ++ String.join (ss.map Yaml.entry)

end PingWatch.Series
