/-
  Double-precision numbers as exact binary fractions, and the nearest double to an exact fraction.
-/

namespace Formwright.Decimal

/-- What a double stands for: a finite number is `mantissa * 2 ^ exponent`, with its sign aside. -/
inductive Reading where
  | finite (negative : Bool) (mantissa : Nat) (exponent : Int)
  | infinite (negative : Bool)
  | nan
  deriving Repr, DecidableEq

/-- The smallest exponent of a double. -/
def leastExponent : Int := -1074

/-- Reads the sign, exponent and fraction fields of a double. -/
def read (x : Float) : Reading :=
  let bits := x.toBits.toNat
  let negative := bits / Nat.pow 2 63 == 1
  let field := bits / Nat.pow 2 52 % 2048
  let fraction := bits % Nat.pow 2 52
  if field = 2047 then (if fraction = 0 then .infinite negative else .nan)
  else if field = 0 then .finite negative fraction leastExponent
  else .finite negative (fraction + Nat.pow 2 52) (Int.ofNat field - 1075)

/-- The numerator of `m * 2 ^ q`. -/
def numerator (m : Nat) (q : Int) : Nat := if 0 ≤ q then m * Nat.pow 2 q.toNat else m

/-- The denominator of `m * 2 ^ q`. -/
def denominator (q : Int) : Nat := if 0 ≤ q then 1 else Nat.pow 2 (-q).toNat

/-- The quotient rounded to the nearest natural number, a half going to the even neighbour. -/
def roundDiv (num den : Nat) : Nat :=
  let below := num / den
  let twice := 2 * (num % den)
  if twice < den then below
  else if den < twice then below + 1
  else below + below % 2

/-- A rounded quotient is one of the two neighbours of the exact one. -/
theorem roundDiv_le (num den : Nat) : num / den ≤ roundDiv num den ∧ roundDiv num den ≤ num / den + 1 := by
  simp only [roundDiv]
  split
  · omega
  · split <;> omega

/-- The bit pattern of the nearest double to `num / den`, a tie going to the even mantissa; too
large a number is infinite. -/
def nearestBits (num den : Nat) : Nat :=
  if num = 0 then 0
  else
    let scale (q : Int) : Nat × Nat := if 0 ≤ q then (num, den * Nat.pow 2 q.toNat) else (num * Nat.pow 2 (-q).toNat, den)
    let guess : Int := Int.ofNat num.log2 - Int.ofNat den.log2 - 53
    let q := if Nat.pow 2 53 ≤ (scale guess).1 / (scale guess).2 then guess + 1 else guess
    let q := max q leastExponent
    let m := roundDiv (scale q).1 (scale q).2
    min ((q - leastExponent).toNat * Nat.pow 2 52 + m) (2047 * Nat.pow 2 52)

/-- The nearest double to a fraction of the given sign. -/
def nearest (negative : Bool) (num den : Nat) : Float :=
  Float.ofBits (UInt64.ofNat (nearestBits num den + (if negative then Nat.pow 2 63 else 0)))

/-- The nearest double to an integer. -/
def nearestInt (n : Int) : Float := nearest (n < 0) n.natAbs 1

/-- The nearest double to `digits * 10 ^ exponent`. Exponents so far out that the answer is plain
are answered without the power. -/
def nearestDecimal (negative : Bool) (digits : Nat) (exponent : Int) : Float :=
  let order := exponent + (Nat.toDigits 10 digits).length
  if digits = 0 ∨ order < -330 then nearest negative 0 1
  else if 330 < order then nearest negative (Nat.pow 2 1024) 1
  else if 0 ≤ exponent then nearest negative (digits * Nat.pow 10 exponent.toNat) 1
  else nearest negative digits (Nat.pow 10 (-exponent).toNat)

/-- The integer part of a finite double, toward zero. -/
def truncate? (x : Float) : Option Int :=
  match read x with
  | .finite negative m q =>
    let n : Int := Int.ofNat (numerator m q / denominator q)
    some (if negative then -n else n)
  | _ => none

/-- The order of an integer and a double as exact numbers; none beside a double that is no number. -/
def compareInt? (n : Int) (x : Float) : Option Ordering :=
  match read x with
  | .finite negative m q =>
    let num : Int := if negative then -Int.ofNat (numerator m q) else Int.ofNat (numerator m q)
    some (compare (n * Int.ofNat (denominator q)) num)
  | .infinite negative => some (if negative then .gt else .lt)
  | .nan => none

end Formwright.Decimal
