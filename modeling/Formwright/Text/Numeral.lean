/-
  Numerals: naturals and integers in base ten and sixteen, with padding.
-/

namespace Formwright.Text

/-- `s` behind as many `c` as bring it to `width` characters. -/
def padLeft (c : Char) (width : Nat) (s : String) : String :=
  String.ofList (List.replicate (width - s.length) c ++ s.toList)

/-- A natural number in base ten with at least `width` digits. -/
def paddedNat (width n : Nat) : String := padLeft '0' width n.repr

/-- An integer in base ten, a minus in front of a negative one. -/
def decimal : Int → String
  | .ofNat n => n.repr
  | .negSucc n => "-" ++ (n + 1).repr

/-- An integer in base ten with at least `width` characters; zeros follow the sign. -/
def paddedInt (width : Nat) : Int → String
  | .ofNat n => paddedNat width n
  | .negSucc n => "-" ++ paddedNat (width - 1) (n + 1)

/-- A natural number in base sixteen, lower case, with at least `width` digits. -/
def hex (width n : Nat) : String := padLeft '0' width (String.ofList (Nat.toDigits 16 n))

/-- The value of a hexadecimal digit of either case. -/
def hexValue? (c : Char) : Option Nat :=
  if '0' ≤ c ∧ c ≤ '9' then some (c.toNat - 48)
  else if 'a' ≤ c ∧ c ≤ 'f' then some (c.toNat - 87)
  else if 'A' ≤ c ∧ c ≤ 'F' then some (c.toNat - 55)
  else none

/-- The number denoted by hexadecimal digits, if all of them are such. -/
def ofHex? (cs : List Char) : Option Nat :=
  (cs.mapM hexValue?).map fun ds => ds.foldl (fun n d => 16 * n + d) 0

theorem decimal_natCast (n : Nat) : decimal (n : Int) = n.repr := rfl

example : paddedInt 2 (-1) = "-1" ∧ paddedInt 2 7 = "07" ∧ paddedInt 2 100 = "100" := by decide +kernel

end Formwright.Text
