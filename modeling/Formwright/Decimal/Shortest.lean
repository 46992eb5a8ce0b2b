import Formwright.Decimal.Binary64

/-
  The shortest decimal that reads back as a given double. For one digit, two digits and so on the
  two neighbours of the number on that decimal grid are tried; the first grid with a neighbour that
  rounds to the number wins, and of two such neighbours the nearer one.
-/

namespace Formwright.Decimal

/-- A positive decimal `0.d₁d₂… * 10 ^ point`. -/
structure Digits where
  digits : List Nat
  point : Int
  deriving Repr, DecidableEq

/-- The number of decimal digits of a natural number. -/
def digitCount (n : Nat) : Nat := (Nat.toDigits 10 n).length

/-- The least `p` with `num / den < 10 ^ p`, for a positive fraction. -/
def decimalPoint (num den : Nat) : Int :=
  if den ≤ num then Int.ofNat (digitCount (num / den))
  else
    let k := digitCount (den / num)
    if num * Nat.pow 10 (k - 1) = den then 2 - Int.ofNat k else 1 - Int.ofNat k

/-- Whether a fraction rounds to `m * 2 ^ q`: it lies between the halfway points to the
neighbours, ends included when `m` is even. Below a power of two the lower neighbour is nearer. -/
def roundsTo (m : Nat) (q : Int) (num den : Nat) : Bool :=
  let closeBelow := m = Nat.pow 2 52 ∧ leastExponent < q
  -- all three sides as multiples of 2 ^ (q - 2)
  let low := if closeBelow then 4 * m - 1 else 4 * m - 2
  let high := 4 * m + 2
  let lowNum := numerator low (q - 2)
  let highNum := numerator high (q - 2)
  let unit := denominator (q - 2)
  if m % 2 = 0 then lowNum * den ≤ num * unit && num * unit ≤ highNum * den
  else lowNum * den < num * unit && num * unit < highNum * den

/-- `n * 10 ^ e` as a fraction. -/
def gridPoint (n : Nat) (e : Int) : Nat × Nat :=
  if 0 ≤ e then (n * Nat.pow 10 e.toNat, 1) else (n, Nat.pow 10 (-e).toNat)

/-- The distance of two fractions, as a numerator over the product of the denominators. -/
def distance (a b : Nat × Nat) : Nat :=
  let x := a.1 * b.2
  let y := b.1 * a.2
  if x ≤ y then y - x else x - y

/-- The neighbour on the grid of step `10 ^ e` that reads back as `m * 2 ^ q`. -/
def neighbour? (m : Nat) (q : Int) (e : Int) : Option Nat :=
  let value := (numerator m q, denominator q)
  let step := gridPoint 1 e
  let below := (value.1 * step.2) / (value.2 * step.1)
  let fits (n : Nat) : Bool := roundsTo m q (gridPoint n e).1 (gridPoint n e).2
  let gap (n : Nat) : Nat := distance value (gridPoint n e)
  match fits below, fits (below + 1) with
  | true, false => some below
  | false, true => some (below + 1)
  | false, false => none
  | true, true =>
    if gap below < gap (below + 1) then some below
    else if gap (below + 1) < gap below then some (below + 1)
    else some (below + below % 2)

/-- The digits of a number without the zeros at its end. -/
def significant (n : Nat) : List Nat :=
  (((Nat.toDigits 10 n).map fun c => c.toNat - 48).reverse.dropWhile (· = 0)).reverse

/-- The shortest decimal that reads back as `m * 2 ^ q`, for a positive `m`. -/
def shortest (m : Nat) (q : Int) : Digits :=
  let p := decimalPoint (numerator m q) (denominator q)
  let found := (List.range 17).findSome? fun k =>
    (neighbour? m q (p - Int.ofNat (k + 1))).map fun n => (n, p - Int.ofNat (k + 1))
  match found with
  | some (n, e) => ⟨significant n, Int.ofNat (digitCount n) + e⟩
  | none => ⟨[], 0⟩

end Formwright.Decimal
