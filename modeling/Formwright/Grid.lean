import Formwright.Text.Blank
import Formwright.Text.Digit
import Formwright.Value.Basic

/-
  Grid positions: a row number and a column letter, such as `2B`. Digits may be of any script and
  blanks may stand around; whatever has another shape lies in row 0, column 0.
-/

namespace Formwright.Grid

/-- A place on the grid. -/
structure Position where
  row : Nat
  column : Nat
  deriving Repr, DecidableEq

/-- The place of everything without a readable position. -/
def Position.origin : Position := ⟨0, 0⟩

def isColumn (c : Char) : Bool := 'A' ≤ c && c ≤ 'Z'

/-- Row digits and column letter of a position without blanks around it. -/
def shape? (cs : List Char) : Option (List Char × Char) :=
  let digits := cs.takeWhile Text.isDigit
  match digits, cs.drop digits.length with
  | _ :: _, [c] => if isColumn c then some (digits, c) else none
  | _, _ => none

/-- The number that digits of any script denote. -/
def rowNumber (digits : List Char) : Nat := Text.ofDigits (digits.filterMap Text.digitValue?)

/-- Reads a position. Rows of more digits than an integer may have are refused. -/
def parse (s : String) : Except Fault Position :=
  match shape? (Text.stripChars s.toList) with
  | none => .ok .origin
  | some (digits, c) =>
    if maxIntegerDigits < digits.length then .error (.badValue (.integerTooLong digits.length))
    else .ok ⟨rowNumber digits, c.toNat - 'A'.toNat⟩

/-- Reads the position that a value holds; a value that is not given lies at the origin. -/
def parseValue (v : Value) : Except Fault Position :=
  if v.isGiven then
    match v with
    | .text s => parse s
    | .bytes _ => .error (.misuse (.searchIn .bytes))
    | v => .error (.noMember v.kind "strip")
  else .ok .origin

theorem parseValue_text (s : String) : parseValue (.text s) = if s.isEmpty then .ok .origin else parse s := by
  by_cases h : s = "" <;> simp [parseValue, h]

example : (parse " 2B ").toOption = some ⟨2, 1⟩ ∧ (parse "B2").toOption = some .origin := by decide +kernel

end Formwright.Grid
