import PingWatch.Decimal.Reading
import PingWatch.Duration.Text

/-!
# Properties

A properties file states pairs, one per line, with a colon or an equals sign between key and value.
Blank lines, lines that begin with a number sign and lines without a separator or a key state
nothing.  Of several pairs with one key the last one counts.

The typed readers give a default for a key that is absent or blank and otherwise refuse a value that
they cannot read.  Main statement: a file followed by another states the pairs of both.
-/

namespace PingWatch

open Text

/-- Why a configured value is refused. -/
inductive Refusal
  | duration (e : DurationError)
  | whole (e : WholeError)
  | float (e : Decimal.FloatError)
  | truth
  | zero
  | fraction
  | server
  | flag
  | other (reason : String)
deriving DecidableEq

def Refusal.message : Refusal → String
  | duration e => e.message
  | whole e => e.message
  | float e => e.message
  | truth => "provided string was not `true` or `false`"
  | zero => "must be greater than 0"
  | fraction => "must be between 0 and 1"
  | server => "expected an IP address with optional port"
  | flag => "expected true or false"
  | other reason => reason

/-- Why a configuration cannot be used. -/
inductive ConfigError
  | unreadable (path : String) (reason : String)
  | invalid (key value : String) (reason : Refusal)
deriving DecidableEq

def ConfigError.message : ConfigError → String
  | unreadable path reason => s!"Failed to read {path}: {reason}"
  | invalid key value reason => s!"Invalid value {quote value} for {key}: {reason.message}"

/-- The pairs that a properties file states, in order. -/
structure Properties where
  pairs : List (String × String) := []
deriving DecidableEq

namespace Properties

/-- Whether a character separates a key from its value. -/
def isSeparator (c : Char) : Bool := c = ':' || c = '='

/-- The pair that a line states, if it states one. -/
def parseLine (line : List Char) : Option (String × String) :=
  let line := trim line
  if line.head? = some '#' then none
  else
    match cutFirst isSeparator line with
    | none => none
    | some (key, value) =>
      if trim key = [] then none else some (.ofList (trim key), .ofList (trim value))

/-- The pairs that a text states. -/
def parse (content : String) : Properties :=
  ⟨(pieces (· = '\n') content.toList).filterMap parseLine⟩

/-- The value of a key: that of the last pair with this key. -/
def get? (key : String) (p : Properties) : Option String := p.pairs.reverse.lookup key

/-- The keys that have a value, each once. -/
def keys (p : Properties) : List String := (p.pairs.map (·.1)).eraseDups

def size (p : Properties) : Nat := p.keys.length

/-- The value of a key unless it is blank. -/
def stated? (key : String) (p : Properties) : Option String := (p.get? key).filter (· ≠ "")

/-- The value of a key as `read` understands it; an absent or blank key has the default. -/
def readOr {α : Type} (read : String → Except Refusal α) (key : String) (default : α)
    (p : Properties) : Except ConfigError α :=
  match p.stated? key with
  | none => .ok default
  | some value => (read value).mapError (.invalid key value)

def durationOr : String → Duration → Properties → Except ConfigError Duration :=
  readOr fun s => (Duration.parse s).mapError .duration

def wholeOr (bound : Nat) : String → Nat → Properties → Except ConfigError Nat :=
  readOr fun s => (readWhole bound s.toList).mapError .whole

/-- A number from `-(bound + 1)` to `bound`. -/
def signedOr (bound : Nat) : String → Int → Properties → Except ConfigError Int :=
  readOr fun s => (readSigned bound s.toList).mapError .whole

def floatOr : String → Float → Properties → Except ConfigError Float :=
  readOr fun s => (Decimal.readFloat s.toList).mapError .float

def boolOr : String → Bool → Properties → Except ConfigError Bool :=
  readOr fun s =>
    if s = "true" then .ok true else if s = "false" then .ok false else .error .truth

def stringOr : String → String → Properties → Except ConfigError String := readOr .ok

/-- The entries between the commas of a value; an absent key has none. -/
def list (key : String) (p : Properties) : List String :=
  match p.get? key with
  | none => []
  | some value => (entries (· = ',') value.toList).map .ofList

/-! ### Lemmas -/

/-- A text behind another states its pairs behind those of the other. -/
theorem parse_append_newline (a b : String) :
    (parse (a ++ "\n" ++ b)).pairs = (parse a).pairs ++ (parse b).pairs := by
  have h : (a ++ "\n" ++ b).toList = a.toList ++ '\n' :: b.toList := by simp
  rw [parse, h, pieces_append_sep (by decide)]
  simp [parse]

end Properties

end PingWatch
