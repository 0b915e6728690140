import PingWatch.Command.Run
import PingWatch.Command.Usage

/-!
# The program

Reads the command line and the files that a command looks at, carries the command out and prints what
it gives.  The program has no access to sockets: it reads configurations and takes addresses for
names, and every check that needs the network fails.
-/

namespace PingWatch

/-- The number of a system error; some calls report it negated. -/
def errorNumber (code : UInt32) : Nat :=
  if code.toNat < 0x80000000 then code.toNat else 0x100000000 - code.toNat

def readText (path : String) : IO (Except ReadError String) := do
  try
    match String.fromUTF8? (← IO.FS.readBinFile path) with
    | some text => return .ok text
    | none => return .error .notText
  catch
    | .noFileOrDirectory _ _ _ => return .error .missing
    | .inappropriateType _ code _ =>
      return .error (if errorNumber code = 20 then .notDirectory else .isDirectory)
    | .permissionDenied _ _ _ => return .error (.other "Permission denied (os error 13)")
    | e => return .error (.other (toString e))

def readFiles (paths : List String) : IO Files := do
  let found ← paths.mapM fun path => return (path, ← readText path)
  return { read := fun path => (found.lookup path).getD (.error .missing) }

def Command.paths : Command → List String
  | .config directory => ConfigDirectory.paths directory
  | .echo .. | .lookup .. => []

def nodeName : IO String := do
  match ← readText "/proc/sys/kernel/hostname" with
  | .ok name => return Text.trimmed name
  | .error _ => return "localhost"

/-- What the program finds around it. -/
def surroundings (c : Command) : IO Surroundings := do
  let refusal : Cause := .ofText "Operation not permitted (os error 1)"
  return {
    files := ← readFiles c.paths
    node := ← nodeName
    echo := .error (refusal.under "Failed to open ICMP socket")
    ask := fun _ _ => { delay? := some 0, ending := .error refusal } }

def runCommand (c : Command) : IO UInt32 := do
  match c.run (← surroundings c) with
  | .error fault =>
    IO.eprintln fault.message
    return 101
  | .ok printed =>
    IO.print printed.output
    match printed.error with
    | some e =>
      IO.eprintln s!"Error: {e.message}"
      return 1
    | none => return 0

end PingWatch

open PingWatch in
def main (words : List String) : IO UInt32 := do
  match Invocation.ofWords words with
  | .error e =>
    if e.isAnswer then IO.println e.message else IO.eprintln e.message
    return e.exitCode.toUInt32
  | .ok invocation =>
    match invocation.command with
    | some c => runCommand c
    | none =>
      IO.eprintln "No command specified. Use --help for usage information."
      return 1
