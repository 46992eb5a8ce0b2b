import Formwright.Text.Numeral
import Formwright.Text.Printable

/-
  The quoted form of a text or of bytes, as error messages and shown collections carry it: single
  quotes unless the text holds a single quote and no double one, a backslash before the quote and
  before itself, and a number for every character that is not printable.
-/

namespace Formwright.Text

/-- The quote that spares escapes: double exactly when the text holds a single quote only. -/
def quoteFor (hasSingle hasDouble : Bool) : Char := if hasSingle && !hasDouble then '"' else '\''

/-- A character by its number: two, four or eight hexadecimal digits. -/
def numbered (n : Nat) : String :=
  if n < 0x100 then "\\x" ++ hex 2 n
  else if n < 0x10000 then "\\u" ++ hex 4 n
  else "\\U" ++ hex 8 n

/-- One character inside a text quoted by `q`. -/
def quotedChar (q c : Char) : String :=
  if c = q ∨ c = '\\' then String.ofList ['\\', c]
  else if c = '\t' then "\\t"
  else if c = '\n' then "\\n"
  else if c = '\r' then "\\r"
  else if isPrintable c then String.singleton c
  else numbered c.toNat

/-- The quoted form of a text. -/
def quoted (s : String) : String :=
  let q := quoteFor (s.toList.contains '\'') (s.toList.contains '"')
  String.singleton q ++ String.join (s.toList.map (quotedChar q)) ++ String.singleton q

/-- One byte inside bytes quoted by `q`; a byte beyond ASCII is shown by its number. -/
def quotedByte (q : Char) (b : UInt8) : String :=
  if b.toNat < 127 then quotedChar q (Char.ofNat b.toNat) else numbered b.toNat

/-- The quoted form of bytes, marked by a leading `b`. -/
def quotedBytes (bs : List UInt8) : String :=
  let q := quoteFor (bs.contains 39) (bs.contains 34)
  "b" ++ String.singleton q ++ String.join (bs.map (quotedByte q)) ++ String.singleton q

theorem quoteFor_eq (s d : Bool) : quoteFor s d = '"' ∨ quoteFor s d = '\'' := by
  cases s <;> cases d <;> simp [quoteFor]

end Formwright.Text
