import PingWatch.Config.Probes
import PingWatch.Files

/-!
# The configuration directory

For each probe the directory may hold a file that says whether the probe is enabled and a file with
its properties.  A missing file counts as disabled or as empty; the properties of a disabled probe
are not read.
-/

namespace PingWatch

open Text

/-- The names of the probes, as they stand in file names and series. -/
def echoProbe : String := "icmp"

def lookupProbe : String := "dns"

/-- The settings of the probes that are enabled. -/
structure ProbeConfigs where
  echo : Option EchoConfig := none
  lookup : Option LookupConfig := none

/-- A directory with configuration files. -/
structure ConfigDirectory where
  files : Files
  base : String

namespace ConfigDirectory

def nodesPath (base : String) : String := joinPath base "nodes"

/-- The name of the file that says whether a probe is enabled. -/
def enabledName (probe : String) : String := s!"probes.{probe}.enabled"

def propertiesName (probe : String) : String := s!"probes.{probe}.properties"

def paths (base : String) : List String :=
  nodesPath base :: [echoProbe, lookupProbe].flatMap fun probe =>
    [joinPath base (enabledName probe), joinPath base (propertiesName probe)]

def readOptional (d : ConfigDirectory) (name : String) : Except ConfigError (Option String) :=
  let path := joinPath d.base name
  match d.files.read path with
  | .ok content => .ok (some content)
  | .error .missing => .ok none
  | .error e => .error (.unreadable path e.message)

/-- An ASCII text with its capital letters made small. -/
def lowered (s : String) : String := .ofList (s.toList.map Char.toLower)

/-- What the content of an enabling file says. -/
def readFlag (key content : String) : Except ConfigError Bool :=
  let value := trimmed content
  if lowered value = "true" then .ok true
  else if lowered value = "false" ∨ value = "" then .ok false
  else .error (.invalid key value .flag)

def enabled (d : ConfigDirectory) (probe : String) : Except ConfigError Bool := do
  let name := enabledName probe
  match ← d.readOptional name with
  | none => return false
  | some content => readFlag name content

def properties (d : ConfigDirectory) (probe : String) : Except ConfigError Properties := do
  match ← d.readOptional (propertiesName probe) with
  | none => return {}
  | some content => return Properties.parse content

def settings {α : Type} (ofProperties : Properties → Except ConfigError α) (d : ConfigDirectory)
    (probe : String) : Except ConfigError (Option α) := do
  if ← d.enabled probe then return some (← ofProperties (← d.properties probe))
  else return none

def load (d : ConfigDirectory) : Except ConfigError ProbeConfigs := do
  let echo ← d.settings EchoConfig.ofProperties echoProbe
  let lookup ← d.settings LookupConfig.ofProperties lookupProbe
  return { echo, lookup }

end ConfigDirectory

end PingWatch
