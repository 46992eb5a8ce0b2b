/-
  Comparison without regard to case against words of ASCII letters.
-/

namespace Formwright.Text

/-- Lower case as far as ASCII words can show it: the letters A to Z, and the Kelvin sign, the only
other character whose lower case is an ASCII letter. -/
def lowerChar (c : Char) : Char :=
  if 'A' ≤ c ∧ c ≤ 'Z' then Char.ofNat (c.toNat + 32)
  else if c = '\u212a' then 'k'
  else c

/-- The text with its letters lowered, for comparison with an ASCII word. -/
def lower (s : String) : String := String.ofList (s.toList.map lowerChar)

theorem length_lower (s : String) : (lower s).length = s.length := by
  simp [lower, String.length_toList]

end Formwright.Text
