/-!
# Columns

Texts filled up with spaces to a width counted in characters.  A text that is wider stays as it is.
-/

namespace PingWatch.Text

def padRight (width : Nat) (s : String) : String :=
  s ++ .ofList (List.replicate (width - s.length) ' ')

def padLeft (width : Nat) (s : String) : String :=
  .ofList (List.replicate (width - s.length) ' ') ++ s

end PingWatch.Text
