import Formwright.Yaml.Cursor

/-
  Block scalars: literal ones, whose lines stay, and folded ones, whose lines are joined. Behind
  the mark may stand how deep the content is indented and what becomes of the line breaks at its end.
-/

namespace Formwright.Yaml

/-- What becomes of the line breaks at the end: one stays, none stays, or all stay. -/
inductive Chomping where
  | clip | strip | keep
  deriving Repr, DecidableEq

/-- The chomping that a sign asks for. -/
def chomping? : Option Char → Option Chomping
  | some '+' => some .keep
  | some '-' => some .strip
  | _ => none

/-- The indentation that a digit asks for; zero is none. -/
def indentDigit? : Option Char → Option Nat
  | some c => if '0' ≤ c ∧ c ≤ '9' then some (c.toNat - 48) else none
  | none => none

/-- The indicators behind the mark, in either order. -/
def blockIndicators (c : Cursor) : Except Fault (Chomping × Option Nat × Cursor) := do
  let (chomping, width, after) :=
    match chomping? c.head?, indentDigit? c.head? with
    | some ch, _ =>
      match indentDigit? c.advance.head? with
      | some n => (ch, some n, c.skip 2)
      | none => (ch, none, c.advance)
    | none, some n =>
      match chomping? c.advance.head? with
      | some ch => (ch, some n, c.skip 2)
      | none => (.clip, some n, c.advance)
    | none, none => (.clip, none, c)
  if width == some 0 || !endsField after.head? then .error .yaml
  else .ok (chomping, width, after)

/-- Leading blank lines when the indentation is not given: their breaks, and the deepest column
that spaces reach. -/
def leadingBreaks : Nat → Nat → Cursor → List Char × Nat × Cursor
  | 0, deepest, c => ([], deepest, c)
  | fuel + 1, deepest, c =>
    match c.rest, c.lineBreak? with
    | ' ' :: _, _ => leadingBreaks fuel (max deepest c.advance.column) c.advance
    | _, some (b, after) =>
      let (bs, depth, rest) := leadingBreaks fuel deepest after
      (b :: bs, depth, rest)
    | _, none => ([], deepest, c)

/-- Past spaces, but not beyond a column. -/
def skipIndent (indent : Nat) (c : Cursor) : Cursor :=
  c.skip (min (indent - c.column) (c.rest.takeWhile (· == ' ')).length)

/-- Blank lines between lines of content, and the place behind the next line's indentation. -/
def blockBreaks (indent : Nat) : Nat → Cursor → List Char × Cursor
  | 0, c => ([], c)
  | fuel + 1, c =>
    let c := skipIndent indent c
    match c.lineBreak? with
    | some (b, after) =>
      let (bs, rest) := blockBreaks indent fuel after
      (b :: bs, rest)
    | none => ([], c)

/-- What joins a line to the next in a folded scalar: nothing more when blank lines stand between,
else a space; lines that start with a blank keep their break. -/
def joinLines (folded : Bool) (lineBreak : List Char) (plainBefore plainAfter : Bool) (breaks : List Char) :
    List Char :=
  if folded && lineBreak == ['\n'] && plainBefore && plainAfter then (if breaks.isEmpty then [' '] else [])
  else lineBreak

def startsPlain (c : Cursor) : Bool := c.head? != some ' ' && c.head? != some '\t'

/-- The lines of a block scalar: content, last line break, blank lines behind, place behind. -/
def blockLines (folded : Bool) (indent : Nat) :
    Nat → List Char → List Char → List Char → Cursor → List Char × List Char × List Char × Cursor
  | 0, done, last, breaks, c => (done, last, breaks, c)
  | fuel + 1, done, last, breaks, c =>
    if c.column == indent && c.head?.isSome then
      let plainBefore := startsPlain c
      let (line, after) := c.span fun ch => !isBreak ch
      let (lineBreak, next) := after.lineBreak?.elim ([], after) fun p => ([p.1], p.2)
      let (more, resumed) := blockBreaks indent fuel next
      let done := done ++ breaks ++ line
      if resumed.column == indent && resumed.head?.isSome then
        blockLines folded indent fuel
          (done ++ joinLines folded lineBreak plainBefore (startsPlain resumed) more) lineBreak more resumed
      else (done, lineBreak, more, resumed)
    else (done, last, breaks, c)

/-- A block scalar behind its mark, inside a collection indented by `outer`. `fuel` exceeds the number
of characters left. -/
def blockScalar (folded : Bool) (outer : Int) (fuel : Nat) (c : Cursor) : Except Fault (String × Cursor) := do
  let (chomping, width, c) ← blockIndicators c
  let c ← c.ignoredLine
  let least := (max 1 (outer + 1)).toNat
  let (indent, breaks, c) :=
    match width with
    | some n =>
      let indent := least + n - 1
      let (bs, after) := blockBreaks indent fuel c
      (indent, bs, after)
    | none =>
      let (bs, depth, after) := leadingBreaks fuel 0 c
      (max least depth, bs, after)
  let (content, last, breaks, after) := blockLines folded indent fuel [] [] breaks c
  let tail := match chomping with
    | .strip => []
    | .clip => last
    | .keep => last ++ breaks
  return (String.ofList (content ++ tail), after)

end Formwright.Yaml
