import PingWatch.Decimal.Shortest
import PingWatch.Series
import PingWatch.Text.Quoted

/-!
# Series as JSON

One object with the list of series, indented by two spaces a level.  Values that are no finite
number are written as null.
-/

namespace PingWatch.Series

namespace Json

def quoteChar (c : Char) : List Char :=
  match c with
  | '"' => ['\\', '"']
  | '\\' => ['\\', '\\']
  | '\x08' => ['\\', 'b']
  | '\t' => ['\\', 't']
  | '\n' => ['\\', 'n']
  | '\x0c' => ['\\', 'f']
  | '\r' => ['\\', 'r']
  | c =>
    if c.toNat < 32 then
      let digits := Text.hexDigits c.toNat
      ['\\', 'u'] ++ List.replicate (4 - digits.length) '0' ++ digits
    else [c]

def quote (s : String) : String := .ofList ('"' :: s.toList.flatMap quoteChar ++ ['"'])

/-- A number, or null.  Exponents have their sign. -/
def number (x : Float) : String := (Decimal.pointed ['+'] x).getD "null"

/-- The object of one series, two levels deep. -/
def object (s : Series) : String :=
  "    \x7b\n" ++
    "      \"probe\": " ++ quote s.scope.probe ++ ",\n" ++
    "      \"node\": " ++ quote s.scope.node ++ ",\n" ++
    "      \"name\": " ++ quote s.name ++ ",\n" ++
    "      \"value\": " ++ number s.value ++ "\n" ++
    "    \x7d"

end Json

def json (ss : List Series) : String :=
  let items := match ss with
    | [] => "[]"
    | ss => "[\n" ++ ",\n".intercalate (ss.map Json.object) ++ "\n  ]"
  "\x7b\n  \"series\": " ++ items ++ "\n\x7d\n"

end PingWatch.Series
