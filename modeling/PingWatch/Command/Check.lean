import PingWatch.Command.Line
import PingWatch.Registry.Exposition

/-!
# Checking targets once

A check runs exactly one cycle of a probe over the targets that were named and prints what the cycle
was flushed to: collected series, or the exposition of a registry.
-/

namespace PingWatch

/-- What a command finds around it. -/
structure Surroundings where
  files : Files
  node : String
  /-- The check of a target by echo requests, or why none can be sent. -/
  echo : Except Cause (EchoOptions → String → Check)
  /-- The check that asks a name server for the addresses of a name. -/
  ask : LookupOptions → String → Check

/-- What a command printed, and the error that it ended with, if any. -/
structure Printed where
  output : String := ""
  error : Option CommandError := none
deriving DecidableEq

inductive CheckFailure
  | error (e : CommandError)
  | fault (f : Fault)

/-- One cycle of a probe that nobody cancels, on a monitor that takes every setting. -/
def Probing.runOnce (p : Probing) : Except CheckFailure (CycleReport × CycleRun) :=
  match p.validate with
  | .error c => .error (.error (.ofProbe c))
  | .ok p =>
    match (Prober.start p 0).cycle 0 none takesAll with
    | .error f => .error (.fault f)
    | .ok (_, run) =>
      match run.report with
      | .error c => .error (.error (.ofTarget c))
      | .ok report => .ok (report, run)

namespace Command

/-- What settings come to in a format. -/
def written (format : Format) (ss : List Setting) : Except CheckFailure String :=
  match format with
  | .exposition => .ok (({} : Registry).setAll ss).exposition
  | format => (Series.render format (({} : Collector).setAll ss).series).mapError .error

def echoProbing (s : Surroundings) (targets : List String) (count : UInt16) (timeout : Duration) :
    Except CheckFailure Probing :=
  if count = 0 then .error (.error (.argument "count" "0"))
  else
    let options : EchoOptions := { count, timeout }
    match options.unitTimeout? with
    | none => .error (.fault .durationSum)
    | some limit =>
      match options.refused?, s.echo with
      | some c, _ => .error (.error (.ofProbe (EchoOptions.openingError c)))
      | none, .error c => .error (.error (.ofProbe c))
      | none, .ok check => .ok
        { scope := { probe := echoProbe, node := s.node }
          kind := .echo options.reportThreshold
          settings := { timeout := limit, concurrency := ({} : EchoConfig).concurrency }
          load := fun _ => .ok targets
          check := fun _ _ target => check options target }

/-- The check of one name: an address stands for itself, other names are asked for. -/
def lookupCheck (s : Surroundings) (options : LookupOptions) (name : String) : Check :=
  match Ip.parse? name with
  | some _ => { delay? := some 0, ending := .sample (.lookup 1) }
  | none => s.ask options name

def lookupProbing (s : Surroundings) (names : List String) (server : Option String)
    (timeout : Duration) : Except CheckFailure Probing := do
  let server ← match server with
    | none => pure none
    | some text =>
      match Endpoint.parseServer? text with
      | some e => pure (some e)
      | none => .error (.error (.argument "server" text))
  let options : LookupOptions := { server, timeout }
  return {
    scope := { probe := lookupProbe, node := s.node }
    kind := .lookup
    settings := { timeout, concurrency := ({} : LookupConfig).concurrency }
    load := fun _ => .ok names
    check := fun _ _ name => lookupCheck s options name }

def check (format : Format) (probing : Except CheckFailure Probing) : Except CheckFailure String :=
  do written format (← (← probing).runOnce).2.settings

end Command

end PingWatch
