/-
  A YAML text as it is being written: what stands there so far, and what the next piece has to know
  about the current line. Nothing that was written is ever changed.
-/

namespace Formwright.Yaml

/-- The width from which a line is broken at the next single space. -/
def lineWidth : Nat := 80

/-- A text with the state of its last line. -/
structure Page where
  /-- The pieces of the text, the last one first. -/
  pieces : List String := []
  column : Nat := 0
  /-- Whether a mark may follow without a blank. -/
  afterBlank : Bool := true
  /-- Whether only indentation and marks that open items stand on the line. -/
  atMargin : Bool := true
  deriving Repr

namespace Page

/-- The whole text. -/
def text (p : Page) : String := String.join p.pieces.reverse

/-- Adds characters to the line. -/
def put (p : Page) (s : String) : Page := { p with pieces := s :: p.pieces, column := p.column + s.length }

/-- Notes that content, not layout, stands last. -/
def inContent (p : Page) : Page := { p with afterBlank := false, atMargin := false }

/-- Adds a mark, with a blank in front unless one stands there. `opens` says that the content of an
item may follow on the same line. -/
def mark (p : Page) (s : String) (opens : Bool) : Page :=
  { p.put (if p.afterBlank then s else " " ++ s) with afterBlank := false, atMargin := p.atMargin && opens }

/-- Adds a mark that follows directly on what stands before it. -/
def close (p : Page) (s : String) : Page := { p.put s with afterBlank := false, atMargin := false }

/-- Ends the line with a character. -/
def breakWith (p : Page) (c : Char) : Page :=
  ⟨String.singleton c :: p.pieces, 0, true, true⟩

/-- Goes to a column: on this line if nothing but layout stands there and it is not yet reached,
else on a new one. -/
def indent (p : Page) (n : Nat) : Page :=
  let p := if !p.atMargin || n < p.column || (p.column == n && !p.afterBlank) then p.breakWith '\n' else p
  if p.column < n then { p.put (String.ofList (List.replicate (n - p.column) ' ')) with afterBlank := true }
  else p

theorem text_put (p : Page) (s : String) : (p.put s).text = p.text ++ s := by
  simp [text, put, String.join_append]

end Page

end Formwright.Yaml
