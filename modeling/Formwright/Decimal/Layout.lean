import Formwright.Decimal.Shortest
import Formwright.Text.Numeral

/-
  How a double is written. A number is written with the fewest digits that read back; positional
  notation serves from `0.0001` up to below `10 ^ 16` and always shows a fractional digit; outside
  that range the exponent has a sign and at least two digits.
-/

namespace Formwright.Decimal

/-- The characters of decimal digits. -/
def digitText (ds : List Nat) : String := String.ofList (ds.map fun d => Char.ofNat (d + 48))

/-- The exponent mark, sign and at least two digits. -/
def exponentText (e : Int) : String :=
  "e" ++ (if e < 0 then "-" else "+") ++ Text.paddedNat 2 e.natAbs

/-- Where positional notation serves: the point stands at most three places left of the first
digit and at most sixteen right of it. -/
def isPositional (point : Int) : Bool := -4 < point && point ≤ 16

/-- The text of a positive decimal. -/
def layout (d : Digits) : String :=
  if isPositional d.point then
    if d.point ≤ 0 then "0." ++ digitText (List.replicate (-d.point).toNat 0 ++ d.digits)
    else
      let whole := d.digits.take d.point.toNat
      let fraction := d.digits.drop d.point.toNat
      digitText (whole ++ List.replicate (d.point.toNat - whole.length) 0) ++ "." ++
        (if fraction.isEmpty then "0" else digitText fraction)
  else
    let fraction := d.digits.drop 1
    digitText (d.digits.take 1) ++ (if fraction.isEmpty then "" else "." ++ digitText fraction) ++
      exponentText (d.point - 1)

/-- The text of a double. -/
def floatText (x : Float) : String :=
  match read x with
  | .nan => "nan"
  | .infinite negative => if negative then "-inf" else "inf"
  | .finite negative m q =>
    (if negative then "-" else "") ++ (if m = 0 then "0.0" else layout (shortest m q))

/-- A double rounded to a whole number, a half going to the even neighbour. -/
def wholeText (x : Float) : String :=
  match read x with
  | .nan => "nan"
  | .infinite negative => if negative then "-inf" else "inf"
  | .finite negative m q =>
    (if negative then "-" else "") ++ (roundDiv (numerator m q) (denominator q)).repr

end Formwright.Decimal
