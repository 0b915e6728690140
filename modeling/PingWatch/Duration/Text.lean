import PingWatch.Duration
import PingWatch.Text.Pieces
import PingWatch.Text.Quoted
import PingWatch.Text.Whole

/-!
# Written lengths of time

`Duration.parse` reads a number with a unit, such as `500ms` or `1h`.  `Duration.text` writes a
length of time in the largest unit of which it holds at least one, as a decimal without trailing
zeros.
-/

namespace PingWatch

open Text

inductive TimeUnit
  | millisecond | second | minute | hour
deriving DecidableEq

namespace TimeUnit

/-- The units in the order in which they are looked for: `ms` ends in `s`, so it comes first. -/
def all : List TimeUnit := [millisecond, second, minute, hour]

def symbol : TimeUnit → List Char
  | millisecond => ['m', 's']
  | second => ['s']
  | minute => ['m']
  | hour => ['h']

def millis : TimeUnit → Nat
  | millisecond => 1
  | second => 1000
  | minute => 60 * 1000
  | hour => 60 * 60 * 1000

end TimeUnit

/-- What is wrong with a written length of time. -/
inductive DurationError
  | unit
  | number (text : String)
  | overflow
deriving DecidableEq

def DurationError.message : DurationError → String
  | unit => "expected a duration like 500ms, 30s, 5m or 1h"
  | number text => s!"invalid duration number {quote text}"
  | overflow => "duration overflows"

namespace Duration

/-- The most milliseconds that can be written down. -/
def mostMillis : Nat := 0xFFFFFFFFFFFFFFFF

/-- The number and the unit at the end of a text. -/
def cutUnit (cs : List Char) : Option (List Char × TimeUnit) :=
  TimeUnit.all.findSome? fun u => (dropEnding u.symbol cs).map (·, u)

def parse (s : String) : Except DurationError Duration :=
  match cutUnit (trim s.toList) with
  | none => .error .unit
  | some (num, unit) =>
    match readWhole mostMillis (trim num) with
    | .error _ => .error (.number (.ofList num))
    | .ok n =>
      if mostMillis < n * unit.millis then .error .overflow else .ok (ofMillis (n * unit.millis))

/-- A decimal with `places` digits behind the point, less trailing zeros. -/
def decimalText (whole fraction places : Nat) : List Char :=
  let digits := decimal fraction
  let padded := List.replicate (places - digits.length) '0' ++ digits
  let kept := (padded.reverse.dropWhile (· = '0')).reverse
  decimal whole ++ if kept.isEmpty then [] else '.' :: kept

def text (d : Duration) : String :=
  let n := d.nanos
  if perSecond ≤ n then .ofList (decimalText (n / perSecond) (n % perSecond) 9 ++ ['s'])
  else if perMilli ≤ n then .ofList (decimalText (n / perMilli) (n % perMilli) 6 ++ ['m', 's'])
  else if 1_000 ≤ n then .ofList (decimalText (n / 1_000) (n % 1_000) 3 ++ ['µ', 's'])
  else .ofList (decimal n ++ ['n', 's'])

end Duration

end PingWatch
