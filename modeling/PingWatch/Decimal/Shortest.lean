import PingWatch.Decimal.Binary
import PingWatch.Text.Whole

/-!
# The shortest decimal of a float

Every real number in an interval around a float reads back as that float.  `shortest` takes the
coarsest power of ten that has a multiple in this interval, and of its multiples the one nearest to
the float: no decimal with fewer digits reads back, and none with as many lies nearer.

`plain` writes the digits with a point and without an exponent, `pointed` never without a fraction
and with an exponent where the number is very large or small.
-/

namespace PingWatch.Decimal

/-- The number `digits * 10 ^ power`. -/
structure Numeral where
  digits : Nat
  power : Int
deriving DecidableEq

/-- The whole multiples of `10 ^ k` on both sides of the float `4 * m` that read back as it, all in
units of `2 ^ e`; the nearer one, an even number if both are as near. -/
def onGrid? (b : Binary) (k : Int) : Option Nat :=
  let ten := scaledTen k
  let e := b.exponent - 2
  let unit (n : Nat) : Ratio := ⟨n * (scaled 1 e).num * ten.den, (scaled 1 e).den * ten.num⟩
  let value := unit (4 * b.mantissa)
  let low := unit (4 * b.mantissa - if b.lowEdge then 1 else 2)
  let high := unit (4 * b.mantissa + 2)
  let ends := b.mantissa % 2 = 0
  let inside (n : Nat) : Bool :=
    let n := n * value.den
    if ends then low.num ≤ n && n ≤ high.num else low.num < n && n < high.num
  let below := value.num / value.den
  let above := below + 1
  match inside below && 0 < below, inside above with
  | true, true =>
    let r := 2 * (value.num % value.den)
    if r < value.den ∨ (r = value.den ∧ below % 2 = 0) then some below else some above
  | true, false => some below
  | false, true => some above
  | false, false => none
where
  /-- The fraction `10 ^ k`. -/
  scaledTen (k : Int) : Ratio := if 0 ≤ k then ⟨Nat.pow 10 k.toNat, 1⟩ else ⟨1, Nat.pow 10 (-k).toNat⟩

/-- The first hit on the grids of `10 ^ k` and the finer ones below. -/
def search (b : Binary) (k : Int) : Nat → Numeral
  | 0 => ⟨0, 0⟩
  | fuel + 1 =>
    match onGrid? b k with
    | some n => ⟨n, k⟩
    | none => search b (k - 1) fuel

/-- The shortest decimal that reads back as a positive float.  The search begins at a power of ten
above the float and needs no more than twenty grids. -/
def shortest (b : Binary) : Numeral :=
  let width : Int := (b.mantissa.log2 : Int) + 1 + b.exponent
  search b (width * 30103 / 100000 + 1) 24

/-- The decimal digits without a point, with `power` zeros behind or a point inside. -/
def plainDigits (d : Numeral) : List Char :=
  let ds := Text.decimal d.digits
  if 0 ≤ d.power then ds ++ List.replicate d.power.toNat '0'
  else
    let places := (-d.power).toNat
    if places < ds.length then
      ds.take (ds.length - places) ++ '.' :: ds.drop (ds.length - places)
    else '0' :: '.' :: List.replicate (places - ds.length) '0' ++ ds

/-- The sign, the digits of the shortest decimal and a point where one is needed; whole numbers have
no fraction and nothing has an exponent. -/
def plain (x : Float) : String :=
  let bits := x.toBits.toNat
  let sign := if bits < signBit then "" else "-"
  match Binary.ofFloat? x with
  | none => if x.isNaN then "NaN" else sign ++ "inf"
  | some b =>
    if b.mantissa = 0 then sign ++ "0" else sign ++ .ofList (plainDigits (shortest b))

/-- One digit, a point if more follow, and an exponent; `plus` is the sign of an exponent that is not
negative. -/
def exponential (plus : List Char) (d : Numeral) : List Char :=
  let ds := Text.decimal d.digits
  let e : Int := d.power + ds.length - 1
  let mantissa := match ds with
    | c :: r :: rest => c :: '.' :: r :: rest
    | ds => ds
  mantissa ++ 'e' :: (if e < 0 then ['-'] else plus) ++ Text.decimal e.natAbs

/-- The shortest decimal of a finite float, always with a fraction or an exponent: an exponent from
`10 ^ 16` on and below `10 ^ -5`. -/
def pointed (plus : List Char) (x : Float) : Option String :=
  let sign := if x.toBits.toNat < signBit then "" else "-"
  (Binary.ofFloat? x).map fun b =>
    if b.mantissa = 0 then sign ++ "0.0"
    else
      let d := shortest b
      let point : Int := d.power + (Text.decimal d.digits).length
      if point ≤ -5 ∨ 16 < point then sign ++ .ofList (exponential plus d)
      else if 0 ≤ d.power then sign ++ .ofList (plainDigits d ++ ['.', '0'])
      else sign ++ .ofList (plainDigits d)

end PingWatch.Decimal
