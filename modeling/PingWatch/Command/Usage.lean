import PingWatch.Command.Line
import PingWatch.Status

/-!
# Texts about the command line

What is shown when help or the version is asked for, and the texts of the errors.
-/

namespace PingWatch

def programName : String := "octoping"

def CommandName.about : CommandName → String
  | top => "Cluster network health checks from the command line"
  | check => "Run one probe cycle and print the resulting metrics"
  | config => "Validate a configuration directory and print the effective settings"
  | echo => "Ping targets over ICMP (requires CAP_NET_RAW)"
  | lookup => "Resolve names over DNS"

def OptionName.about : OptionName → String
  | verbose => "Enable verbose logging"
  | help => "Print help"
  | version => "Print version"
  | format => "Output format"
  | count => "Echo requests per target"
  | timeout => "Timeout (e.g. 500ms, 5s)"
  | server => "Name server address (defaults to the system resolver)"

namespace CommandName

def helpLines (c : CommandName) : List String :=
  [c.about, ""] ++
    c.further.map (fun (word, sub) => s!"  {word}  {sub.about}") ++
    c.options.map fun o => s!"  -{o.short}, --{o.long}  {o.about}"

end CommandName

/-- What is shown in place of a command's output. -/
def UsageError.message : UsageError → String
  | helpWanted | nothingSaid => "\n".intercalate CommandName.top.helpLines
  | versionWanted => s!"{programName} {version}"
  | missingCommand => "error: a command is missing"
  | unknownCommand word => s!"error: unrecognized command {quote word}"
  | unknownArgument word => s!"error: unexpected argument {quote word}"
  | missingOperand => "error: a required argument is missing"
  | invalidValue value => s!"error: invalid value {quote value}"
  | unreadableValue value => s!"error: unreadable value {quote value}"
  | needlessValue value => s!"error: unexpected value {quote value}"
  | repeatedOption o => s!"error: --{o.long} cannot be used multiple times"
where
  quote (s : String) : String := Text.quote s

end PingWatch
