import PingWatch.Decimal.Places
import PingWatch.Series
import PingWatch.Text.Columns

/-!
# Series as a table

One line per series, with the probe, the name and the value.  Whole values are written without
fraction and kept within 64 bits; others have three places.
-/

namespace PingWatch.Series

open Text

/-- The greatest whole number that is written without a fraction. -/
def mostWhole : Nat := 0x7FFFFFFFFFFFFFFF

def cell (value : Float) : String :=
  match Decimal.whole? value with
  | some (.ofNat n) => toString (min n mostWhole)
  | some (.negSucc n) => "-" ++ toString (min (n + 1) (mostWhole + 1))
  | none => Decimal.fixed 3 value

/-- A line of the table, whose second column has the width `width`. -/
def row (width : Nat) (probe name value : String) : String :=
  padRight 6 probe ++ " " ++ padRight width name ++ " " ++ padLeft 14 value ++ "\n"

/-- The width of the second column: the length in bytes of the longest name or of the heading. -/
def nameWidth (ss : List Series) : Nat :=
  (ss.map (·.name.utf8ByteSize)).foldl max "METRIC".length

def table (ss : List Series) : String :=
  let width := nameWidth ss
  row width "PROBE" "METRIC" "VALUE" ++
    String.join (ss.map fun s => row width s.scope.probe s.name (cell s.value))

end PingWatch.Series
