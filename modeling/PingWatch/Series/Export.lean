import PingWatch.Command.Error
import PingWatch.Series.Json
import PingWatch.Series.Table
import PingWatch.Series.Yaml

/-!
# Formats of series

Collected series are written as a table, as JSON or as YAML.  The text exposition is no format of
collected series: it is made from a registry.
-/

namespace PingWatch

inductive Format
  | text | json | yaml | exposition
deriving DecidableEq, Inhabited

def Series.render (format : Format) (ss : List Series) : Except CommandError String :=
  match format with
  | .text => .ok (table ss)
  | .json => .ok (json ss)
  | .yaml => .ok (yaml ss)
  | .exposition => .error (.metrics "prometheus output is rendered from the registry")

end PingWatch
