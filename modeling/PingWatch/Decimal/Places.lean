import PingWatch.Decimal.Shortest

/-!
# Decimals of a fixed number of places

`fixed n x` writes a float with `n` digits behind the point.  The exact value is rounded, a half to
the even digit.
-/

namespace PingWatch.Decimal

/-- The whole number nearest to `10 ^ places` times a positive float. -/
def scaledNearest (places : Nat) (b : Binary) : Nat :=
  let r := scaled b.mantissa b.exponent
  Ratio.nearest ⟨r.num * Nat.pow 10 places, r.den⟩

/-- A number of `10 ^ -places` with its point. -/
def withPlaces (places n : Nat) : List Char :=
  if places = 0 then Text.decimal n
  else
    let fraction := Text.decimal (n % Nat.pow 10 places)
    Text.decimal (n / Nat.pow 10 places) ++
      '.' :: List.replicate (places - fraction.length) '0' ++ fraction

/-- A float with `places` digits behind the point. -/
def fixed (places : Nat) (x : Float) : String :=
  let sign := if x.toBits.toNat < signBit then "" else "-"
  match Binary.ofFloat? x with
  | none => if x.isNaN then "NaN" else sign ++ "inf"
  | some b => sign ++ .ofList (withPlaces places (scaledNearest places b))

end PingWatch.Decimal
