import Formwright.Decimal.Binary64
import Formwright.Fault
import Formwright.Text.Blank
import Formwright.Text.Digit
import Formwright.Text.Lower
import Formwright.Text.Quoted

/-
  Reading numbers from free text: blanks may stand around, a sign in front, and digits may be of
  any script.
-/

namespace Formwright.Text

/-- A sign, read as whether it is a minus, and what follows. -/
def signed : List Char → Bool × List Char
  | '-' :: rest => (true, rest)
  | '+' :: rest => (false, rest)
  | cs => (false, cs)

/-- The value of a digit in a base: decimal digits of any script, then ASCII letters. -/
def baseDigit? (base : Nat) (c : Char) : Option Nat :=
  let v? := (digitValue? c).or
    (if 'a' ≤ c ∧ c ≤ 'z' then some (c.toNat - 87)
      else if 'A' ≤ c ∧ c ≤ 'Z' then some (c.toNat - 55) else none)
  v?.bind fun v => if v < base then some v else none

/-- The characters behind the mark of a base, such as `0x`. -/
def afterBaseMark (base : Nat) : List Char → List Char
  | '0' :: c :: rest =>
    if base = 2 ∧ (c = 'b' ∨ c = 'B') ∨ base = 8 ∧ (c = 'o' ∨ c = 'O') ∨ base = 16 ∧ (c = 'x' ∨ c = 'X')
    then rest else '0' :: c :: rest
  | cs => cs

/-- Reads an integer. Only in bases whose digits are no whole bits is their number limited. -/
def readInt (base : Nat) (s : String) : Except Fault Int :=
  let (negative, body) := signed (stripChars s.toList)
  let body := afterBaseMark base body
  match body.mapM (baseDigit? base) with
  | none | some [] => .error (.badValue (.integer base (quoted s)))
  | some ds =>
    if base = 10 ∧ maxIntegerDigits < ds.length then .error (.badValue (.integerTooLong ds.length))
    else
      let n : Int := Int.ofNat (ds.foldl (fun n d => base * n + d) 0)
      .ok (if negative then -n else n)

/-- The exponent behind its mark; none if there is anything else. -/
def floatExponent? (cs : List Char) : Option Int :=
  match cs with
  | [] => some 0
  | e :: rest =>
    if e = 'e' ∨ e = 'E' then
      let (negative, digits) := signed rest
      match digits.mapM digitValue? with
      | none | some [] => none
      | some ds =>
        let n : Int := Int.ofNat (ofDigits ds)
        some (if negative then -n else n)
    else none

/-- A number without sign: digits with a point among them or not, then perhaps an exponent. -/
def floatBody? (negative : Bool) (cs : List Char) : Option Float :=
  let whole := cs.takeWhile isDigit
  let (tenths, rest) := match cs.drop whole.length with
    | '.' :: more => (more.takeWhile isDigit, more.dropWhile isDigit)
    | rest => ([], rest)
  let ds := (whole ++ tenths).filterMap digitValue?
  if ds.isEmpty then none
  else (floatExponent? rest).map fun e =>
    Decimal.nearestDecimal negative (ofDigits ds) (e - Int.ofNat tenths.length)

/-- Reads a double; the words for infinities and for no-number may be of either case. -/
def readFloat (s : String) : Except Fault Float :=
  let (negative, body) := signed (stripChars s.toList)
  let word := lower (String.ofList body)
  if word = "inf" ∨ word = "infinity" then .ok (if negative then -1.0 / 0.0 else 1.0 / 0.0)
  else if word = "nan" then .ok (0.0 / 0.0)
  else
    match floatBody? negative body with
    | some x => .ok x
    | none => .error (.badValue (.float (quoted s)))

end Formwright.Text
