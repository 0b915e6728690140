import PingWatch.Config.Directory
import PingWatch.Series.Export

/-!
# The command line

A command line is a path of commands, each with options and operands of its own.  `CommandName` says
which options, operands and further commands each command knows; `Level.read` goes through the words
from the left and gives the levels of the path from the outermost one to the innermost.

An option's value may stand in the next word or in the same one, short options may share a word, and
behind two dashes every word is an operand.  Values are looked at when the next option or operand
comes up, so that a word that nobody knows is reported before a bad value in front of it; and a level
is checked only after the levels inside it.
-/

namespace PingWatch

open Text

/-! ### What there is to say -/

inductive CommandName
  | top | check | config | echo | lookup
deriving DecidableEq

inductive OptionName
  | verbose | help | version | format | count | timeout | server
deriving DecidableEq

namespace OptionName

def all : List OptionName := [verbose, help, version, format, count, timeout, server]

def long : OptionName → String
  | verbose => "verbose"
  | help => "help"
  | version => "version"
  | format => "format"
  | count => "count"
  | timeout => "timeout"
  | server => "server"

def short : OptionName → Char
  | verbose => 'v'
  | help => 'h'
  | version => 'V'
  | format => 'f'
  | count => 'c'
  | timeout => 't'
  | server => 's'

def takesValue : OptionName → Bool
  | verbose | help | version => false
  | format | count | timeout | server => true

end OptionName

/-- The operands of a command. -/
inductive Operands
  /-- None; a further command may follow. -/
  | none
  | optional
  /-- At least one. -/
  | several
deriving DecidableEq

namespace CommandName

/-- The options that a command knows. -/
def options : CommandName → List OptionName
  | top => [.verbose, .help, .version]
  | check => [.verbose, .help, .format]
  | config => [.verbose, .help]
  | echo => [.verbose, .help, .format, .count, .timeout]
  | lookup => [.verbose, .help, .format, .server, .timeout]

def operands : CommandName → Operands
  | top | check => .none
  | config => .optional
  | echo | lookup => .several

/-- The commands that may follow a command, each with its word. -/
def further : CommandName → List (String × CommandName)
  | top => [("check", check), ("config", config)]
  | check => [(echoProbe, echo), (lookupProbe, lookup)]
  | config | echo | lookup => []

def needsFurther : CommandName → Bool
  | check => true
  | top | config | echo | lookup => false

/-- Whether a word names a further command, or asks for help on one. -/
def knowsWord (c : CommandName) (word : String) : Bool :=
  !c.further.isEmpty && (word == "help" || (c.further.lookup word).isSome)

end CommandName

/-- Why a command line is not carried out. -/
inductive UsageError
  /-- Help was asked for. -/
  | helpWanted
  /-- The version was asked for. -/
  | versionWanted
  /-- Nothing was said where a further command is needed. -/
  | nothingSaid
  | missingCommand
  | unknownCommand (word : String)
  | unknownArgument (word : String)
  | missingOperand
  /-- An option lacks its value, or has one that is none of those it may have. -/
  | invalidValue (value : String)
  /-- A value cannot be read. -/
  | unreadableValue (value : String)
  /-- An option without value was given one. -/
  | needlessValue (value : String)
  | repeatedOption (option : OptionName)
deriving DecidableEq

namespace UsageError

/-- Whether what was asked for is shown; everything else is an error. -/
def isAnswer : UsageError → Bool
  | helpWanted | versionWanted => true
  | _ => false

def exitCode (e : UsageError) : Nat := if e.isAnswer then 0 else 2

end UsageError

/-! ### Values -/

namespace Format

/-- The formats with the words for them. -/
def words : List (String × Format) :=
  [("text", .text), ("json", .json), ("yaml", .yaml), ("prometheus", .exposition)]

end Format

/-- An option with its value. -/
inductive Given
  | verbose
  | format (f : Format)
  | count (n : UInt16)
  | timeout (d : Duration)
  | server (s : String)
deriving DecidableEq

namespace Given

def option : Given → OptionName
  | verbose => .verbose
  | format _ => .format
  | count _ => .count
  | timeout _ => .timeout
  | server _ => .server

/-- Reads a number of requests: a whole number within its range, perhaps with a sign. -/
def readCount? (value : String) : Option UInt16 :=
  match readSigned 0x7FFFFFFFFFFFFFFF value.toList with
  | .ok (.ofNat n) => if n ≤ mostRequests then some n.toUInt16 else none
  | .ok (.negSucc _) | .error _ => none

def read (o : OptionName) (value : String) : Except UsageError Given :=
  let readable (g : Option Given) : Except UsageError Given :=
    match g with
    | some g => .ok g
    | none => .error (.unreadableValue value)
  match o with
  | .format =>
    match Format.words.lookup value with
    | some f => .ok (format f)
    | none => .error (.invalidValue value)
  | .count => readable ((readCount? value).map count)
  | .timeout => readable ((Duration.parse value).toOption.map timeout)
  | .server => .ok (server value)
  | .verbose | .help | .version => .ok verbose

end Given

/-! ### One level -/

/-- A value that has not been looked at. -/
inductive Pending
  /-- An option, perhaps with its value. -/
  | option (o : OptionName) (value : Option String)
  | operand (word : String)

/-- What has been said on one level. -/
structure Level where
  given : List Given := []
  operands : List String := []
  pending : Option Pending := none
  /-- Whether two dashes came up. -/
  operandsOnly : Bool := false

namespace Level

def has (l : Level) (o : OptionName) : Bool := l.given.any (·.option == o)

/-- Takes an option with its value; a second time it is refused. -/
def give (l : Level) (o : OptionName) (value : String) : Except UsageError Level :=
  if l.has o then .error (.repeatedOption o)
  else (Given.read o value).map fun g => { l with given := l.given ++ [g] }

/-- Takes an operand.  The directory of a configuration has a name. -/
def take (c : CommandName) (l : Level) (word : String) : Except UsageError Level :=
  if c.operands = .optional ∧ word = "" then .error (.invalidValue word)
  else .ok { l with operands := l.operands ++ [word] }

/-- Looks at the value that has not been looked at. -/
def settle (c : CommandName) (l : Level) : Except UsageError Level :=
  let settled := { l with pending := none }
  match l.pending with
  | none => .ok l
  | some (.option _ none) => .error (.invalidValue "")
  | some (.option o (some value)) => settled.give o value
  | some (.operand word) => settled.take c word

/-- The option that waits for its value, if any. -/
def awaiting? (l : Level) : Option OptionName :=
  match l.pending with
  | some (.option o none) => some o
  | _ => none

/-- The number of operands, the one not looked at included. -/
def operandCount (l : Level) : Nat :=
  l.operands.length + match l.pending with
    | some (.operand _) => 1
    | _ => 0

/-- Takes an option whose value stands in the same word, stands in the next one, or is none. -/
def option (c : CommandName) (l : Level) (o : OptionName) (value : Option String) :
    Except UsageError Level := do
  let l ← l.settle c
  match o, value with
  | .help, _ => .error .helpWanted
  | .version, _ => .error .versionWanted
  | o, some value => l.give o value
  | o, none =>
    if o.takesValue then return { l with pending := some (.option o none) } else l.give o ""

/-- Takes a word with two dashes: a long option, perhaps with a value behind an equals sign. -/
def longWord (c : CommandName) (l : Level) (body : List Char) : Except UsageError Level :=
  let (name, value) := match cutFirst (· = '=') body with
    | some (name, value) => (name, some (String.ofList value))
    | none => (body, none)
  match c.options.find? (·.long.toList = name) with
  | none => .error (.unknownArgument (.ofList ('-' :: '-' :: body)))
  | some o =>
    match value with
    | none => l.option c o none
    | some value =>
      if o.takesValue then l.option c o (some value) else .error (.needlessValue value)

/-- Takes the short options of a word with one dash.  The first one with a value has what follows it
as its value, with or without an equals sign. -/
def shortWord (c : CommandName) : Level → List Char → Except UsageError Level
  | l, [] => .ok l
  | l, flag :: rest =>
    match c.options.find? (·.short = flag) with
    | none => .error (.unknownArgument (.ofList ['-', flag]))
    | some o =>
      if o.takesValue then
        match rest with
        | [] => l.option c o none
        | '=' :: value => l.option c o (some (.ofList value))
        | value => l.option c o (some (.ofList value))
      else
        match l.option c o none with
        | .error e => .error e
        | .ok l => shortWord c l rest

/-- The error of an operand that a command has no place for. -/
def misplaced (c : CommandName) (l : Level) (word : String) : UsageError :=
  if l.operandsOnly && c.knowsWord word then .unknownArgument word
  else if c.further.isEmpty then .unknownArgument word
  else .unknownCommand word

/-- Takes an operand, which is looked at later. -/
def operand (c : CommandName) (l : Level) (word : String) : Except UsageError Level :=
  let room := match c.operands with
    | .none => false
    | .optional => l.operandCount = 0
    | .several => true
  if room then (l.settle c).map fun l => { l with pending := some (.operand word) }
  else .error (l.misplaced c word)

/-- Takes a word that is no further command. -/
def word (c : CommandName) (l : Level) (word : String) : Except UsageError Level :=
  if l.operandsOnly then l.operand c word
  else
    match word.toList with
    | ['-', '-'] => .ok { l with operandsOnly := true }
    | '-' :: '-' :: body => l.longWord c body
    | '-' :: flag :: flags => l.shortWord c (flag :: flags)
    | _ =>
      match l.awaiting? with
      | some o => .ok { l with pending := some (.option o (some word)) }
      | none => l.operand c word

/-- Checks a level at its end; `last` tells whether no further command followed. -/
def finish (c : CommandName) (l : Level) (last : Bool) : Except UsageError Level := do
  let l ← l.settle c
  if last && c.needsFurther then
    if l.given.isEmpty then .error .nothingSaid else .error .missingCommand
  else if c.operands = .several ∧ l.operands = [] then .error .missingOperand
  else return l

/-- The answer to a request for help on the commands that the words name. -/
def helpOn : CommandName → List String → UsageError
  | _, [] => .helpWanted
  | c, w :: ws =>
    match c.further.lookup w with
    | some sub => helpOn sub ws
    | none => if c.knowsWord w ∧ ws = [] then .helpWanted else .unknownCommand (ws.headD w)

/-- Reads the words of a command and of those that follow it. -/
def read (c : CommandName) : Level → List String → Except UsageError (List (CommandName × Level))
  | l, [] => (l.finish c true).map fun l => [(c, l)]
  | l, w :: ws =>
    if !l.operandsOnly && l.awaiting?.isNone && c.knowsWord w then
      match c.further.lookup w with
      | none => .error (helpOn c ws)
      | some sub => do
        let below ← read sub {} ws
        return (c, ← l.finish c false) :: below
    else
      match l.word c w with
      | .error e => .error e
      | .ok l => read c l ws
termination_by structural _ ws => ws

end Level

/-! ### The whole line -/

inductive Command
  /-- Shows what a configuration directory says. -/
  | config (directory : String)
  | echo (format : Format) (targets : List String) (count : UInt16) (timeout : Duration)
  | lookup (format : Format) (names : List String) (server : Option String) (timeout : Duration)
deriving DecidableEq

structure Invocation where
  verbose : Bool
  command : Option Command
deriving DecidableEq

namespace Invocation

/-- The directory of a configuration when none is named. -/
def defaultDirectory : String := "/etc/config"

/-- The value that `pick` finds on the innermost level that has one. -/
def innermost {α : Type} (pick : Given → Option α) (levels : List (CommandName × Level)) :
    Option α :=
  levels.reverse.findSome? fun (_, l) => l.given.findSome? pick

/-- The format of the output: the innermost one that was given. -/
def formatOf (levels : List (CommandName × Level)) : Format :=
  (innermost (fun | .format f => some f | _ => none) levels).getD .text

/-- What the innermost level asks for. -/
def commandOf (levels : List (CommandName × Level)) : Option Command :=
  let format := formatOf levels
  match levels.getLast? with
  | some (.config, l) => some (.config (l.operands.headD defaultDirectory))
  | some (.echo, l) =>
    some (.echo format l.operands
      ((l.given.findSome? fun | .count n => some n | _ => none).getD ({} : EchoOptions).count)
      ((l.given.findSome? fun | .timeout d => some d | _ => none).getD
        ({} : EchoOptions).timeout))
  | some (.lookup, l) =>
    some (.lookup format l.operands
      (l.given.findSome? fun | .server s => some s | _ => none)
      ((l.given.findSome? fun | .timeout d => some d | _ => none).getD
        ({} : LookupOptions).timeout))
  | _ => none

def ofWords (words : List String) : Except UsageError Invocation :=
  (Level.read .top {} words).map fun levels =>
    { verbose := levels.any fun (_, l) => l.has .verbose, command := commandOf levels }

/-- What is logged. -/
def logDirectives (i : Invocation) : List String :=
  if i.verbose then ["info", "octoping=debug", "octoping_agent=debug"] else ["info"]

end Invocation

end PingWatch
