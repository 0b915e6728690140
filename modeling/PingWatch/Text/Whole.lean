/-!
# Whole numbers in decimal

`readWhole` reads an unsigned number up to a bound and `readSigned` a signed one between bounds.
They go through the digits from the left and report the first thing that is wrong: a character that
is no digit, or a number that has grown past its bound.
-/

namespace PingWatch.Text

inductive WholeError
  | empty
  | digit
  | tooLarge
  | tooSmall
deriving DecidableEq

def WholeError.message : WholeError → String
  | empty => "cannot parse integer from empty string"
  | digit => "invalid digit found in string"
  | tooLarge => "number too large to fit in target type"
  | tooSmall => "number too small to fit in target type"

/-- The value of a decimal digit; only the ten ASCII digits have one. -/
def digit? (c : Char) : Option Nat :=
  if 48 ≤ c.toNat ∧ c.toNat ≤ 57 then some (c.toNat - 48) else none

/-- Reads the digits `cs` behind those already read, which make up `n`. -/
def readDigits (bound : Nat) (past : WholeError) : Nat → List Char → Except WholeError Nat
  | n, [] => .ok n
  | n, c :: cs =>
    match digit? c with
    | none => .error .digit
    | some d => if bound < 10 * n + d then .error past else readDigits bound past (10 * n + d) cs

/-- Reads at least one digit. -/
def readNumber (bound : Nat) (past : WholeError) : List Char → Except WholeError Nat
  | [] => .error .digit
  | c :: cs => readDigits bound past 0 (c :: cs)

/-- Reads a number from zero to `bound`; a plus sign may come first. -/
def readWhole (bound : Nat) : List Char → Except WholeError Nat
  | [] => .error .empty
  | '+' :: cs => readNumber bound .tooLarge cs
  | cs => readNumber bound .tooLarge cs

/-- Reads a number from `-(bound + 1)` to `bound`; a sign may come first. -/
def readSigned (bound : Nat) : List Char → Except WholeError Int
  | [] => .error .empty
  | '+' :: cs => (readNumber bound .tooLarge cs).map (↑·)
  | '-' :: cs => (readNumber (bound + 1) .tooSmall cs).map fun n => -(n : Int)
  | cs => (readNumber bound .tooLarge cs).map (↑·)

def decimal (n : Nat) : List Char := Nat.toDigits 10 n

end PingWatch.Text
