/-!
# Floats as binary fractions

A positive finite float is `mantissa * 2 ^ exponent` for whole numbers.  `Binary.ofFloat?` takes a
float apart, and `nearest` finds the float nearest to a fraction, a half going to the even mantissa.
-/

namespace PingWatch.Decimal

/-- The number `mantissa * 2 ^ exponent`. -/
structure Binary where
  mantissa : Nat
  exponent : Int
  /-- Whether the float below is only half as far away as the float above. -/
  lowEdge : Bool
deriving DecidableEq

structure Ratio where
  num : Nat
  den : Nat

/-- The place of a float's leading binary digit, above the 52 that are stored. -/
def leading : Nat := 0x10000000000000

/-- The bit that is set in negative floats. -/
def signBit : Nat := 0x8000000000000000

/-- The bits of the infinite float. -/
def infiniteBits : Nat := 0x7FF0000000000000

/-- The bits of the value that is no number. -/
def undefinedBits : Nat := 0x7FF8000000000000

/-- The bits of a float without its sign, if it is finite. -/
def Binary.ofBits? (bits : Nat) : Option Binary :=
  let fraction : Nat := bits % leading
  let biased : Nat := bits / leading % 2048
  if biased = 2047 then none
  else if biased = 0 then some { mantissa := fraction, exponent := -1074, lowEdge := false }
  else some
    { mantissa := leading + fraction, exponent := biased - 1075
      lowEdge := fraction = 0 && biased ≠ 1 }

/-- Takes a finite float apart; the sign is dropped. -/
def Binary.ofFloat? (x : Float) : Option Binary := Binary.ofBits? x.toBits.toNat

/-- The whole number that a binary fraction is, if it is one. -/
def Binary.whole? (b : Binary) : Option Nat :=
  if 0 ≤ b.exponent then some (b.mantissa * Nat.pow 2 b.exponent.toNat)
  else
    let unit := Nat.pow 2 (-b.exponent).toNat
    if b.mantissa % unit = 0 then some (b.mantissa / unit) else none

/-- The whole number that a float is, if it is one. -/
def whole? (x : Float) : Option Int :=
  ((Binary.ofFloat? x).bind Binary.whole?).map fun n =>
    if x.toBits.toNat < signBit then (n : Int) else -(n : Int)

/-- `n * 2 ^ e` as a fraction. -/
def scaled (n : Nat) (e : Int) : Ratio :=
  if 0 ≤ e then ⟨n * Nat.pow 2 e.toNat, 1⟩ else ⟨n, Nat.pow 2 (-e).toNat⟩

/-- The whole number nearest to a fraction; a half goes to the even one. -/
def Ratio.nearest (r : Ratio) : Nat :=
  let q := r.num / r.den
  let twice := 2 * (r.num % r.den)
  if r.den < twice ∨ (twice = r.den ∧ q % 2 = 1) then q + 1 else q

/-- A fraction divided by `2 ^ e`. -/
def Ratio.shifted (r : Ratio) (e : Int) : Ratio :=
  if 0 ≤ e then ⟨r.num, r.den * Nat.pow 2 e.toNat⟩ else ⟨r.num * Nat.pow 2 (-e).toNat, r.den⟩

/-- The exponent at which the fraction has a mantissa of 53 binary digits, or the least exponent. -/
def Ratio.exponent (r : Ratio) : Int :=
  let guess : Int := (r.num.log2 : Int) - r.den.log2 - 52
  let s := r.shifted guess
  let e := if s.num / s.den < leading then guess - 1 else guess
  max e (-1074)

/-- The bits of the float nearest to a positive fraction. -/
def Ratio.bits (r : Ratio) : Nat :=
  let e := r.exponent
  let m := (r.shifted e).nearest
  let (m, e) := if m = 2 * leading then (leading, e + 1) else (m, e)
  if m < leading then m
  else if 971 < e then infiniteBits
  else (e + 1075).toNat * leading + (m - leading)

end PingWatch.Decimal
