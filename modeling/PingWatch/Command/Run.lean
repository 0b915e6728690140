import PingWatch.Command.Check
import PingWatch.Target

/-!
# Carrying out commands

`Command.run` carries out a command.  The settings in a configuration directory are printed as far
as they can be made out: when the targets cannot be loaded, what was printed before stays.
-/

namespace PingWatch

namespace EchoConfig

/-- The settings, a line each. -/
def lines (c : EchoConfig) : List String :=
  ["icmp: enabled",
    s!"  interval:           {c.interval.text}",
    s!"  timeout:            {c.timeout.text}",
    s!"  count:              {c.count}",
    s!"  ping_interval:      {c.pingInterval.text}",
    s!"  loss threshold:     {Decimal.plain c.reportThreshold}",
    s!"  concurrency:        {c.concurrency}",
    "  exclude_nodes:      " ++ ", ".intercalate c.excludeNodes,
    "  additional_targets: " ++ ", ".intercalate c.additionalTargets]

/-- The loader of the targets: those of a file and the additional ones, without the excluded. -/
def loader (c : EchoConfig) (path : String) : TargetLoader :=
  ({} : TargetLoader)
    |>.addSource (.file path)
    |>.addSource (.fixed (c.additionalTargets.map .mk))
    |>.addFilter (TargetFilter.excludeAny c.excludeNodes)

end EchoConfig

/-- The settings, a line each, and the names. -/
def LookupConfig.lines (c : LookupConfig) : List String :=
  ["dns: enabled",
    s!"  interval:    {c.interval.text}",
    s!"  timeout:     {c.timeout.text}",
    "  server:      " ++ (match c.server with
      | some e => e.text
      | none => "system resolver"),
    s!"  concurrency: {c.concurrency}",
    s!"  names ({c.names.length}):"] ++ c.names.map ("    " ++ ·)

namespace Command

def ofLines (ls : List String) : String := String.join (ls.map (· ++ "\n"))

/-- The lines on the echo probe, and the error after them. -/
def echoLines (files : Files) (base : String) : Option EchoConfig →
    List String × Option CommandError
  | none => (["icmp: disabled"], none)
  | some c =>
    match (c.loader (ConfigDirectory.nodesPath base)).load files with
    | .error e => (c.lines, some (.ofTarget e))
    | .ok targets =>
      (c.lines ++ [s!"  targets ({targets.length}):"] ++ targets.map ("    " ++ ·.address), none)

/-- The lines on the lookup probe. -/
def lookupLines : Option LookupConfig → List String
  | none => ["dns: disabled"]
  | some c => c.lines

def showConfig (files : Files) (base : String) : Printed :=
  match (ConfigDirectory.mk files base).load with
  | .error e => { error := some (.config e) }
  | .ok configs =>
    match echoLines files base configs.echo with
    | (lines, some e) => { output := ofLines lines, error := some e }
    | (lines, none) => { output := ofLines (lines ++ lookupLines configs.lookup) }

def run (s : Surroundings) (c : Command) : Except Fault Printed :=
  let result (r : Except CheckFailure String) : Except Fault Printed :=
    match r with
    | .ok output => .ok { output }
    | .error (.error e) => .ok { error := some e }
    | .error (.fault f) => .error f
  match c with
  | .config directory => .ok (showConfig s.files directory)
  | .echo format targets count timeout => result (check format (echoProbing s targets count timeout))
  | .lookup format names server timeout =>
    result (check format (lookupProbing s names server timeout))

end Command

end PingWatch
