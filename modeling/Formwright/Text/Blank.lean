/-
  Blank characters and their removal at the ends of a text.
-/

namespace Formwright.Text

/-- Code points of blank characters beyond the ranges 9–13 and 28–32. -/
def farBlanks : List Nat :=
  [0x85, 0xA0, 0x1680, 0x2000, 0x2001, 0x2002, 0x2003, 0x2004, 0x2005, 0x2006, 0x2007, 0x2008,
   0x2009, 0x200A, 0x2028, 0x2029, 0x202F, 0x205F, 0x3000]

/-- A blank: white space of any script, and the four separator controls. The zero-width space and
the byte-order mark are not blank. -/
def isBlank (c : Char) : Bool :=
  (9 ≤ c.toNat && c.toNat ≤ 13) || (28 ≤ c.toNat && c.toNat ≤ 32) || farBlanks.contains c.toNat

/-- The characters without the blanks at both ends. -/
def stripChars (cs : List Char) : List Char :=
  ((cs.dropWhile isBlank).reverse.dropWhile isBlank).reverse

/-- The text without the blanks at both ends. -/
def strip (s : String) : String := String.ofList (stripChars s.toList)

theorem isBlank_of_isWhitespace {c : Char} (h : c.isWhitespace = true) : isBlank c = true := by
  simp only [Char.isWhitespace, Bool.or_eq_true, decide_eq_true_eq] at h
  rcases h with ((h | h) | h) | h <;> subst h <;> decide

/-- Without blanks at the front, the first character is no blank. -/
theorem head_dropWhile_isBlank {cs : List Char} {c : Char}
    (h : (cs.dropWhile isBlank).head? = some c) : isBlank c = false := by
  induction cs with
  | nil => simp at h
  | cons d ds ih =>
    by_cases hd : isBlank d = true
    · exact ih (by simpa [List.dropWhile_cons, hd] using h)
    · simp only [List.dropWhile_cons, hd] at h
      simp_all

end Formwright.Text
