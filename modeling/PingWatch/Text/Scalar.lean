import PingWatch.Decimal.Reading

/-!
# YAML scalars

A text is written plain where this reads back as the same text.  Where plain text would read as
something else it stands between single quotes, and between double quotes where characters have to
be written by their code points.  Texts of several lines are written as indented blocks.
-/

namespace PingWatch.Text.Scalar

/-- How a text is written. -/
inductive Style
  | plain | single | double | block
deriving DecidableEq

/-! ### Characters -/

/-- Whether a character ends a line. -/
def isBreak (c : Char) : Bool :=
  let n := c.toNat
  n == 0x0a || n == 0x0d || n == 0x85 || n == 0x2028 || n == 0x2029

/-- Whether a character separates words: a space, a tab, a line end or the null character. -/
def isGap (c : Char) : Bool := c == ' ' || c == '\t' || c == '\x00' || isBreak c

/-- Whether a character may stand for itself. -/
def isPrintable (c : Char) : Bool :=
  let n := c.toNat
  n == 0x0a || (0x20 ≤ n && n ≤ 0x7e) || (0xa0 ≤ n && n ≤ 0xfffd && n != 0xfeff) || 0x10000 ≤ n

/-- Whether a character at the front of a text marks it as something else than plain text. -/
def isIndicator (c : Char) : Bool :=
  ['#', ',', '[', ']', '\x7b', '\x7d', '&', '*', '!', '|', '>', '\'', '"', '%', '@', '\x60'].contains c

/-! ### Shapes of texts -/

/-- Whether a character with the property `p` directly precedes one with the property `q`. -/
def adjacent (p q : Char → Bool) : List Char → Bool
  | c :: d :: cs => (p c && q d) || adjacent p q (d :: cs)
  | _ => false

/-- Whether a colon stands before a gap or at the end. -/
def colonBeforeGap : List Char → Bool
  | [] => false
  | [c] => c == ':'
  | c :: d :: cs => (c == ':' && isGap d) || colonBeforeGap (d :: cs)

/-- Whether the text would be read as the beginning of something else than plain text. -/
def startsOtherwise : List Char → Bool
  | '-' :: '-' :: '-' :: _ => true
  | '.' :: '.' :: '.' :: _ => true
  | c :: cs => isIndicator c || ((c == '?' || c == '-') && (cs.head?.map isGap).getD true)
  | [] => false

/-- Whether a text of one line cannot be told from plain text. -/
def plainAllowed (cs : List Char) : Bool :=
  cs.all isPrintable && !cs.any isBreak && cs.head? != some ' ' && cs.getLast? != some ' '
    && !startsOtherwise cs && !colonBeforeGap cs && !adjacent isGap (· == '#') cs

/-- Whether single quotes keep the text as it is. -/
def singleAllowed (cs : List Char) : Bool :=
  cs.all isPrintable && !adjacent isBreak (· == ' ') cs && !adjacent (· == ' ') isBreak cs

/-- Whether an indented block keeps the text as it is. -/
def blockAllowed (cs : List Char) : Bool :=
  cs.all isPrintable && !adjacent (· == ' ') isBreak cs && cs.getLast? != some ' '

/-! ### Values that are no texts -/

/-- Removes a text from the front of another. -/
def dropFront? : List Char → List Char → Option (List Char)
  | [], cs => some cs
  | f :: fs, c :: cs => if f = c then dropFront? fs cs else none
  | _ :: _, [] => none

/-- The number that digits in a base make up; there is at least one. -/
def readDigitsIn? (base : Nat) (cs : List Char) : Option Nat :=
  if cs.isEmpty then none
  else cs.foldlM (fun n c =>
    let value :=
      if c.isDigit then c.toNat - '0'.toNat
      else if c.isAlpha then c.toLower.toNat - 'a'.toNat + 10
      else base
    if value < base then some (base * n + value) else none) 0

/-- The marks of the bases other than ten. -/
def bases : List (List Char × Nat) := [(['0', 'x'], 16), (['0', 'o'], 8), (['0', 'b'], 2)]

/-- The largest whole number that a scalar may be; the one below zero may be half as far off. -/
def mostWhole : Nat := 0xFFFFFFFFFFFFFFFFFFFFFFFFFFFFFFFF

/-- Whether a text is a whole number in a base other than ten. -/
def isBased (cs : List Char) : Bool :=
  let unsigned := (dropFront? ['+'] cs).getD cs
  bases.any fun (mark, base) =>
    (((dropFront? mark unsigned).bind (readDigitsIn? base)).any (· ≤ mostWhole))
      || (((dropFront? ('-' :: mark) cs).bind (readDigitsIn? base)).any (· ≤ mostWhole / 2 + 1))

/-- Whether a text is a number with needless zeros in front. -/
def isZeroPadded (cs : List Char) : Bool :=
  match (dropFront? ['-'] cs).getD ((dropFront? ['+'] cs).getD cs) with
  | '0' :: c :: rest => (c :: rest).all Char.isDigit
  | _ => false

/-- Whether a text is a finite decimal number. -/
def isDecimal (cs : List Char) : Bool :=
  let unsigned := dropFront? ['+'] cs
  match unsigned with
  | some ('+' :: _) | some ('-' :: _) => false
  | _ =>
    match Decimal.readFloat (unsigned.getD cs) with
    | .ok x => x.isFinite
    | .error _ => false

def words : List String :=
  ["", "null", "Null", "NULL", "~", "true", "True", "TRUE", "false", "False", "FALSE",
    ".inf", ".Inf", ".INF", "+.inf", "+.Inf", "+.INF", "-.inf", "-.Inf", "-.INF",
    ".nan", ".NaN", ".NAN"]

/-- Whether a plain text would be read as a value of another type. -/
def isOtherValue (cs : List Char) : Bool :=
  words.contains (.ofList cs) || isBased cs || isZeroPadded cs || isDecimal cs

/-! ### Writing -/

/-- How a text is written. -/
def style (cs : List Char) : Style :=
  if cs.contains '\n' then if blockAllowed cs then .block else .double
  else if plainAllowed cs && !isOtherValue cs then .plain
  else if singleAllowed cs then .single
  else .double

def spaces (n : Nat) : List Char := List.replicate n ' '

/-- The lines of a text, each of them behind `indent` spaces unless it is empty.  `fresh` tells
whether a line begins here. -/
def indented (indent : Nat) : Bool → List Char → List Char
  | _, [] => []
  | fresh, c :: cs =>
    if isBreak c then c :: indented indent true cs
    else (if fresh then spaces indent else []) ++ c :: indented indent false cs

def single (indent : Nat) (cs : List Char) : List Char :=
  let body := indented indent false (cs.flatMap fun c => if c = '\'' then ['\'', '\''] else [c])
  let ending := if cs.getLast?.any isBreak then spaces indent else []
  '\'' :: body ++ ending ++ ['\'']

/-- The code point of a character in so many hexadecimal digits. -/
def codePoint (width : Nat) (c : Char) : List Char :=
  let digits := (Nat.toDigits 16 c.toNat).map Char.toUpper
  List.replicate (width - digits.length) '0' ++ digits

def doubleChar (c : Char) : List Char :=
  let n := c.toNat
  if isPrintable c && !isBreak c && c ≠ '"' && c ≠ '\\' then [c]
  else '\\' :: match n with
    | 0 => ['0']
    | 7 => ['a']
    | 8 => ['b']
    | 9 => ['t']
    | 10 => ['n']
    | 11 => ['v']
    | 12 => ['f']
    | 13 => ['r']
    | 27 => ['e']
    | 34 => ['"']
    | 92 => ['\\']
    | 0x85 => ['N']
    | 0x2028 => ['L']
    | 0x2029 => ['P']
    | n =>
      if n ≤ 0xff then 'x' :: codePoint 2 c
      else if n ≤ 0xffff then 'u' :: codePoint 4 c
      else 'U' :: codePoint 8 c

def double (cs : List Char) : List Char := '"' :: cs.flatMap doubleChar ++ ['"']

/-- What is said at the head of a block: the indentation, when the text begins with a space or a
line end, and what happens to the line ends behind it. -/
def blockHead (cs : List Char) : List Char :=
  let indentation := if cs.head?.any fun c => c == ' ' || isBreak c then ['2'] else []
  let ending := match cs.reverse with
    | a :: rest =>
      if !isBreak a then ['-'] else if (rest.head?.map isBreak).getD true then ['+'] else []
    | [] => ['-']
  '|' :: indentation ++ ending

/-- A text as a scalar inside an entry that is indented by `indent` less two, with the line end
behind it. -/
def line (indent : Nat) (cs : List Char) : List Char :=
  match style cs with
  | .plain => cs ++ ['\n']
  | .single => single indent cs ++ ['\n']
  | .double => double cs ++ ['\n']
  | .block =>
    blockHead cs ++ '\n' :: indented indent true cs ++
      if cs.getLast?.any isBreak then [] else ['\n']

end PingWatch.Text.Scalar
