import PingWatch.Cause
import PingWatch.Config.Properties

/-!
# Why a command fails

Every failure of a command is one of a few kinds, and each of them announces itself.
-/

namespace PingWatch

inductive CommandError
  | config (e : ConfigError)
  | probe (reason : String)
  | target (reason : String)
  | metrics (reason : String)
  | argument (name value : String)
  | io (reason : String)
deriving DecidableEq

namespace CommandError

def message : CommandError → String
  | config e => s!"Configuration error: {e.message}"
  | probe reason => s!"Probe error: {reason}"
  | target reason => s!"Target error: {reason}"
  | metrics reason => s!"Metrics error: {reason}"
  | argument name value => s!"Invalid argument {name}: {value}"
  | io reason => s!"IO error: {reason}"

/-- A probe that cannot be set up, with all that led to it. -/
def ofProbe (c : Cause) : CommandError := .probe c.full

/-- Targets that cannot be loaded, with all that led to it. -/
def ofTarget (c : Cause) : CommandError := .target c.full

end CommandError

end PingWatch
