import Formwright.Fault

/-
  Places in a YAML text, and the classes of characters that its layout rests on.
-/

namespace Formwright.Yaml

/-- A character that ends a line. -/
def isBreak (c : Char) : Bool :=
  c == '\n' || c == '\r' || c == '\x85' || c == '\u2028' || c == '\u2029'

/-- The end of a line or of the text. -/
def endsLine : Option Char → Bool
  | none => true
  | some c => isBreak c

/-- A space, the end of a line or of the text. -/
def endsField : Option Char → Bool
  | none => true
  | some c => c == ' ' || isBreak c

/-- A space or tab, the end of a line or of the text. -/
def endsWord : Option Char → Bool
  | none => true
  | some c => c == ' ' || c == '\t' || isBreak c

/-- A letter, digit, hyphen or underscore of ASCII, as names of anchors and handles have them. -/
def isNameChar (c : Char) : Bool :=
  ('0' ≤ c && c ≤ '9') || ('A' ≤ c && c ≤ 'Z') || ('a' ≤ c && c ≤ 'z') || c == '-' || c == '_'

/-- A character that a YAML text may hold at all. -/
def isAllowed (c : Char) : Bool :=
  let n := c.toNat
  n == 9 || n == 10 || n == 13 || (0x20 ≤ n && n ≤ 0x7E) || n == 0x85 || (0xA0 ≤ n && n ≤ 0xD7FF) ||
    (0xE000 ≤ n && n ≤ 0xFFFD) || 0x10000 ≤ n

/-- A place in a text: what follows, how far it is from the start, and line and column. -/
structure Cursor where
  rest : List Char
  index : Nat
  line : Nat
  column : Nat
  deriving Repr

namespace Cursor

/-- The start of a text. -/
def start (cs : List Char) : Cursor := ⟨cs, 0, 0, 0⟩

/-- The next character. -/
def head? (c : Cursor) : Option Char := c.rest.head?

/-- Past one character. A carriage return with a line feed behind it leaves the line change to the
line feed; a byte-order mark has no width. -/
def advance (c : Cursor) : Cursor :=
  match c.rest with
  | [] => c
  | ch :: rest =>
    if isBreak ch && (ch != '\r' || rest.head? != some '\n') then ⟨rest, c.index + 1, c.line + 1, 0⟩
    else if ch == '\ufeff' then ⟨rest, c.index + 1, c.line, c.column⟩
    else ⟨rest, c.index + 1, c.line, c.column + 1⟩

/-- Past a number of characters. -/
def skip : Nat → Cursor → Cursor
  | 0, c => c
  | n + 1, c => skip n c.advance

/-- The characters of a class that follow, and the place behind them. -/
def span (p : Char → Bool) (c : Cursor) : List Char × Cursor :=
  let taken := c.rest.takeWhile p
  (taken, c.skip taken.length)

/-- Past the spaces that follow. -/
def skipSpaces (c : Cursor) : Cursor := (c.span (· == ' ')).2

/-- The end of a line, as the character it counts for, and the place behind it. The separators of
lines and paragraphs count for themselves, all others for a line feed. -/
def lineBreak? (c : Cursor) : Option (Char × Cursor) :=
  match c.rest with
  | '\r' :: '\n' :: _ => some ('\n', c.skip 2)
  | ch :: _ =>
    if ch == '\u2028' || ch == '\u2029' then some (ch, c.advance)
    else if isBreak ch then some ('\n', c.advance)
    else none
  | [] => none

/-- Three hyphens or three points that stand as a word. -/
def atMarker (marker : Char) (c : Cursor) : Bool :=
  match c.rest with
  | x :: y :: z :: rest => x == marker && y == marker && z == marker && endsWord rest.head?
  | _ => false

/-- A mark between documents. -/
def atDocumentMark (c : Cursor) : Bool := c.atMarker '-' || c.atMarker '.'

/-- Past spaces, a comment and the end of the line; nothing else may stand there. -/
def ignoredLine (c : Cursor) : Except Fault Cursor :=
  let c := c.skipSpaces
  let c := if c.head? == some '#' then (c.span fun ch => !isBreak ch).2 else c
  match c.rest, c.lineBreak? with
  | [], _ => .ok c
  | _, some (_, after) => .ok after
  | _, none => .error .yaml

/-- Nothing is gained by advancing. -/
theorem length_rest_advance (c : Cursor) : c.advance.rest.length ≤ c.rest.length := by
  unfold advance
  split
  · exact Nat.le_refl _
  · rename_i h
    rw [h]
    split
    · simp
    · split <;> simp

end Cursor

end Formwright.Yaml
