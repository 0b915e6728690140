/-!
# Summary statistics of float lists

Every function is total, so that an exported series has a value even when no target answered: the
mean, least, greatest and deviation of an empty list are `0.0`.  Its sum is `-0.0`, the neutral
element of float addition.  Terms are added from the left.
-/

namespace PingWatch.Moments

/-- The sum of a list, added from the left onto `-0.0`. -/
def sum (values : List Float) : Float := values.foldl (· + ·) (-0.0)

def size (values : List Float) : Float := values.length.toUInt64.toFloat

def mean (values : List Float) : Float :=
  if values.isEmpty then 0.0 else sum values / size values

/-- The lesser of two floats; a NaN gives way to a number, and of equals the first is taken. -/
def lesser (a b : Float) : Float := if a.isNaN then b else if b < a then b else a

/-- The greater of two floats; a NaN gives way to a number, and of equals the first is taken. -/
def greater (a b : Float) : Float := if a.isNaN then b else if a < b then b else a

/-- The least element, ignoring NaNs unless there is nothing else. -/
def least : List Float → Float
  | [] => 0.0
  | v :: vs => vs.foldl lesser v

/-- The greatest element, ignoring NaNs unless there is nothing else. -/
def greatest : List Float → Float
  | [] => 0.0
  | v :: vs => vs.foldl greater v

/-- The sample standard deviation; fewer than two values have none and count as `0.0`. -/
def deviation (values : List Float) : Float :=
  if values.length < 2 then 0.0
  else
    let m := mean values
    let squares := values.map fun v => (v - m) * (v - m)
    (sum squares / (values.length - 1).toUInt64.toFloat).sqrt

end PingWatch.Moments
