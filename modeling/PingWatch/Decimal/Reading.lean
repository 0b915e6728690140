import PingWatch.Decimal.Binary
import PingWatch.Text.Whole

/-!
# Reading floats

A float is written as an optional sign and then a number, `inf`, `infinity` or `nan` in any case.  A
number has digits, perhaps a point, and perhaps an exponent; at least one digit stands before or
after the point, and at least one in an exponent.  `readFloat` gives the nearest float.
-/

namespace PingWatch.Decimal

open PingWatch.Text

/-- What is wrong with the text of a float. -/
inductive FloatError
  | empty
  | invalid
deriving DecidableEq

def FloatError.message : FloatError → String
  | empty => "cannot parse float from empty string"
  | invalid => "invalid float literal"

/-- The digits at the front of a text: their number, the number they make up behind `n`, and what
follows them. -/
def takeDigits (count n : Nat) : List Char → Nat × Nat × List Char
  | [] => (count, n, [])
  | c :: cs =>
    match digit? c with
    | some d => takeDigits (count + 1) (10 * n + d) cs
    | none => (count, n, c :: cs)

/-- The value of an exponent part; a text without one has exponent zero. -/
def readExponent : List Char → Option Int
  | [] => some 0
  | c :: cs =>
    if c = 'e' ∨ c = 'E' then
      let (negative, cs) := match cs with
        | '+' :: cs => (false, cs)
        | '-' :: cs => (true, cs)
        | cs => (false, cs)
      match takeDigits 0 0 cs with
      | (0, _) => none
      | (_, n, []) => some (if negative then -(n : Int) else n)
      | _ => none
    else none

/-- The bits of the float nearest to `digits * 10 ^ power`.  Powers far beyond the range of floats
are not worked out. -/
def bitsOf (digits : Nat) (power : Int) : Nat :=
  if digits = 0 then 0
  else
    let size : Int := power + (decimal digits).length
    if 400 < size then infiniteBits
    else if size < -400 then 0
    else if 0 ≤ power then Ratio.bits ⟨digits * Nat.pow 10 power.toNat, 1⟩
    else Ratio.bits ⟨digits, Nat.pow 10 (-power).toNat⟩

/-- The bits of an unsigned number. -/
def readUnsigned (cs : List Char) : Option Nat :=
  let (whole, n, rest) := takeDigits 0 0 cs
  let (places, n, rest) := match rest with
    | '.' :: rest => takeDigits 0 n rest
    | rest => (0, n, rest)
  if whole + places = 0 then none
  else (readExponent rest).map fun e => bitsOf n (e - places)

/-- The bits of a word that stands for a value which is no finite number. -/
def readWord (cs : List Char) : Option Nat :=
  let word := String.ofList (cs.map Char.toLower)
  if word = "inf" ∨ word = "infinity" then some infiniteBits
  else if word = "nan" then some undefinedBits
  else none

def readFloat (cs : List Char) : Except FloatError Float :=
  match cs with
  | [] => .error .empty
  | c :: rest =>
    let (sign, body) :=
      if c = '-' then (signBit, rest) else if c = '+' then (0, rest) else (0, cs)
    match (readUnsigned body).or (readWord body) with
    | some bits => .ok (Float.ofBits (sign + bits).toUInt64)
    | none => .error .invalid

end PingWatch.Decimal
