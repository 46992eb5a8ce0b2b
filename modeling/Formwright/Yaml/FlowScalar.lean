import Formwright.Text.Numeral
import Formwright.Yaml.Cursor

/-
  Scalars within lines: quoted ones and plain ones. Line breaks inside fold: one becomes a space,
  of several the first is dropped.
-/

namespace Formwright.Yaml

/-- What a folded line break contributes: a break that is no plain line feed stays, and a plain one
becomes a space unless empty lines follow. -/
def foldBreak (first : Char) (more : List Char) : List Char :=
  (if first != '\n' then [first] else if more.isEmpty then [' '] else []) ++ more

/-! ## Quoted scalars -/

/-- Empty lines inside a quoted scalar. A document mark may not stand there. -/
def quotedBreaks : Nat → Cursor → Except Fault (List Char × Cursor)
  | 0, _ => .error .yaml
  | fuel + 1, c =>
    if c.atDocumentMark then .error .yaml
    else
      let c := (c.span fun ch => ch == ' ' || ch == '\t').2
      match c.lineBreak? with
      | none => .ok ([], c)
      | some (b, after) => do
        let (bs, rest) ← quotedBreaks fuel after
        return (b :: bs, rest)

/-- The character that an escape letter stands for. -/
def escape? : Char → Option Char
  | '0' => some '\x00'
  | 'a' => some '\x07'
  | 'b' => some '\x08'
  | 't' => some '\t'
  | '\t' => some '\t'
  | 'n' => some '\n'
  | 'v' => some '\x0b'
  | 'f' => some '\x0c'
  | 'r' => some '\r'
  | 'e' => some '\x1b'
  | ' ' => some ' '
  | '"' => some '"'
  | '\\' => some '\\'
  | '/' => some '/'
  | 'N' => some '\x85'
  | '_' => some '\xa0'
  | 'L' => some '\u2028'
  | 'P' => some '\u2029'
  | _ => none

/-- How many hexadecimal digits follow an escape letter. -/
def escapeWidth? : Char → Option Nat
  | 'x' => some 2
  | 'u' => some 4
  | 'U' => some 8
  | _ => none

/-- The character with a number; a surrogate stands for the replacement character. -/
def charOfNumber (n : Nat) : Except Fault Char :=
  if 0x10FFFF < n then .error (.badValue .character)
  else if 0xD800 ≤ n ∧ n < 0xE000 then .ok '\ufffd'
  else .ok (Char.ofNat n)

/-- An escape behind its backslash. -/
def quotedEscape (fuel : Nat) (c : Cursor) : Except Fault (List Char × Cursor) :=
  match c.rest with
  | [] => .error .yaml
  | e :: rest =>
    match escape? e, escapeWidth? e, c.lineBreak? with
    | some ch, _, _ => .ok ([ch], c.advance)
    | none, some width, _ =>
      let digits := rest.take width
      match Text.ofHex? digits with
      | some n =>
        if digits.length = width then do return ([← charOfNumber n], c.skip (width + 1))
        else .error .yaml
      | none => .error .yaml
    | none, none, some (_, after) => quotedBreaks fuel after
    | none, none, none => .error .yaml

/-- The content of a quoted scalar behind its opening quote, and the place behind the closing one.
`done` holds the characters read, last first. -/
def quotedBody (quote : Char) : Nat → List Char → Cursor → Except Fault (List Char × Cursor)
  | 0, _, _ => .error .yaml
  | fuel + 1, done, c =>
    match c.rest with
    | [] => .error .yaml
    | ch :: rest =>
      if ch == quote then
        if quote == '\'' && rest.head? == some '\'' then quotedBody quote fuel ('\'' :: done) (c.skip 2)
        else .ok (done.reverse, c.advance)
      else if ch == '\\' && quote == '"' then do
        let (cs, after) ← quotedEscape fuel c.advance
        quotedBody quote fuel (cs.reverse ++ done) after
      else if ch == ' ' || ch == '\t' || isBreak ch then
        let (blanks, after) := c.span fun ch => ch == ' ' || ch == '\t'
        match after.rest, after.lineBreak? with
        | [], _ => .error .yaml
        | _, none => quotedBody quote fuel (blanks.reverse ++ done) after
        | _, some (b, next) => do
          let (bs, resumed) ← quotedBreaks fuel next
          quotedBody quote fuel ((foldBreak b bs).reverse ++ done) resumed
      else quotedBody quote fuel (ch :: done) c.advance

/-- A quoted scalar, its quotes included. `fuel` exceeds the number of characters left. -/
def quotedScalar (quote : Char) (fuel : Nat) (c : Cursor) : Except Fault (String × Cursor) := do
  let (cs, after) ← quotedBody quote fuel [] c.advance
  return (String.ofList cs, after)

/-! ## Plain scalars -/

/-- A character that ends or separates items inside flow collections. -/
def isFlowMark (c : Char) : Bool := c == ',' || c == '[' || c == ']' || c == '\x7b' || c == '\x7d'

/-- The characters up to where a plain scalar pauses: at a blank, at a colon before a blank, and
inside flow collections at their marks. -/
def plainRun (inFlow : Bool) : List Char → List Char
  | [] => []
  | ch :: rest =>
    let colonEnds := ch == ':' && (endsWord rest.head? || (inFlow && rest.head?.any isFlowMark))
    if endsWord (some ch) || colonEnds || (inFlow && (isFlowMark ch || ch == '?')) then []
    else ch :: plainRun inFlow rest

/-- Empty and blank lines between the lines of a plain scalar; none when a document mark follows. -/
def plainBreaks : Nat → Cursor → Option (List Char) × Cursor
  | 0, c => (none, c)
  | fuel + 1, c =>
    match c.rest, c.lineBreak? with
    | ' ' :: _, _ => plainBreaks fuel c.advance
    | _, some (b, after) =>
      if after.atDocumentMark then (none, after)
      else
        let (bs, rest) := plainBreaks fuel after
        (bs.map (b :: ·), rest)
    | _, none => (some [], c)

/-- What stands between two runs of a plain scalar: its contribution, the place behind it and
whether a line ended. -/
def plainGap (fuel : Nat) (c : Cursor) : List Char × Cursor × Bool :=
  let (blanks, after) := c.span (· == ' ')
  match after.lineBreak? with
  | none => (blanks, after, false)
  | some (b, next) =>
    if next.atDocumentMark then ([], next, true)
    else
      let (bs, resumed) := plainBreaks fuel next
      (bs.elim [] (foldBreak b), resumed, true)

/-- The runs of a plain scalar. `gap` stands before the next run and counts only if there is one;
the last part says whether a line ended behind the scalar. -/
def plainBody (inFlow : Bool) (indent : Int) :
    Nat → List Char → List Char → Bool → Cursor → List Char × Cursor × Bool
  | 0, done, _, lineEnded, c => (done, c, lineEnded)
  | fuel + 1, done, gap, lineEnded, c =>
    let run := if c.head? == some '#' then [] else plainRun inFlow c.rest
    if run.isEmpty then (done, c, lineEnded)
    else
      let done := done ++ gap ++ run
      let (next, after, ended) := plainGap fuel (c.skip run.length)
      if next.isEmpty || after.head? == some '#' || (!inFlow && after.column < indent) then (done, after, ended)
      else plainBody inFlow indent fuel done next ended after

/-- A plain scalar; its further lines have to be indented by at least `indent`. `fuel` exceeds the
number of characters left. -/
def plainScalar (inFlow : Bool) (indent : Int) (fuel : Nat) (c : Cursor) : String × Cursor × Bool :=
  let (cs, after, ended) := plainBody inFlow indent fuel [] [] false c
  (String.ofList cs, after, ended)

end Formwright.Yaml
