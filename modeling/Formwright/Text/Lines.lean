/-
  Line ends. Files may end lines with a line feed, a carriage return, or both in that order; texts
  that are read have line feeds only.
-/

namespace Formwright.Text

/-- Line ends of every kind as line feeds. -/
def plainLines : List Char → List Char
  | '\r' :: '\n' :: cs => '\n' :: plainLines cs
  | '\r' :: cs => '\n' :: plainLines cs
  | c :: cs => c :: plainLines cs
  | [] => []

/-- The text of a file with line feeds only. -/
def ofFile (s : String) : String := String.ofList (plainLines s.toList)

theorem not_mem_plainLines (cs : List Char) : '\r' ∉ plainLines cs := by
  fun_induction plainLines cs with
  | case1 cs ih => simp [ih]
  | case2 cs _ ih => simp [ih]
  | case3 c cs _ h ih => simpa [ih] using fun hc => h hc.symm
  | case4 => simp

end Formwright.Text
