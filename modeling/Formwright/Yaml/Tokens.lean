import Formwright.Yaml.BlockScalar
import Formwright.Yaml.FlowScalar
import Formwright.Yaml.Token

/-
  The tokens of a YAML text. Indentation opens and closes block collections. A scalar or collection
  may turn out to be a key when a colon follows it on its line; its place is remembered until then,
  and the tokens that make it a key are put in front of it afterwards.
-/

namespace Formwright.Yaml

/-- A place where a key without its own mark may have started. -/
structure KeyPlace where
  /-- How many tokens stand in front of it. -/
  before : Nat
  /-- Whether a colon has to follow, because nothing else can stand there. -/
  required : Bool
  index : Nat
  line : Nat
  column : Nat
  deriving Repr

/-- The state of reading tokens. -/
structure Lexer where
  cursor : Cursor
  /-- The tokens read, the last one first. -/
  tokens : List Token
  /-- How many tokens have been read. -/
  count : Nat
  /-- The column of the innermost block collection; -1 outside of all. -/
  indent : Int
  /-- The columns of the collections around it. -/
  outer : List Int
  /-- The possible key of the innermost flow collection, or of the block context. -/
  place : Option KeyPlace
  /-- The possible keys of the contexts around; one for each open flow collection. -/
  outerPlaces : List (Option KeyPlace)
  /-- Whether a key may start here. -/
  keyAllowed : Bool
  deriving Repr

namespace Lexer

def start (cs : List Char) : Lexer := ⟨.start cs, [], 0, -1, [], none, [], true⟩

/-- Whether a flow collection is open. -/
def inFlow (l : Lexer) : Bool := !l.outerPlaces.isEmpty

def emit (l : Lexer) (mark : Mark) : Lexer :=
  { l with tokens := ⟨mark, l.cursor.index⟩ :: l.tokens, count := l.count + 1 }

/-- Puts tokens in front of the one at a place. -/
def insert (l : Lexer) (place : KeyPlace) (marks : List Mark) : Lexer :=
  let behind := l.count - place.before
  { l with
    tokens := l.tokens.take behind ++ (marks.map (⟨·, place.index⟩)).reverse ++ l.tokens.drop behind
    count := l.count + marks.length }

def moveTo (l : Lexer) (c : Cursor) : Lexer := { l with cursor := c }

def allowKey (l : Lexer) (b : Bool) : Lexer := { l with keyAllowed := b }

/-- How far behind its start a key's colon may stand. -/
def maxKeyLength : Nat := 1024

/-- A possible key that can still become one: on the same line and not too far back. -/
def fresh (c : Cursor) : Option KeyPlace → Except Fault (Option KeyPlace)
  | none => .ok none
  | some p =>
    if p.line != c.line || maxKeyLength < c.index - p.index then
      if p.required then .error .yaml else .ok none
    else .ok (some p)

/-- Forgets the possible keys that can no longer become one. -/
def dropStale (l : Lexer) : Except Fault Lexer := do
  return { l with place := ← fresh l.cursor l.place, outerPlaces := ← l.outerPlaces.mapM (fresh l.cursor) }

/-- Forgets the possible key of the innermost context. -/
def dropPlace (l : Lexer) : Except Fault Lexer :=
  match l.place with
  | some p => if p.required then .error .yaml else .ok { l with place := none }
  | none => .ok l

/-- Remembers that a key may start here. -/
def savePlace (l : Lexer) : Except Fault Lexer :=
  if l.keyAllowed then do
    let required := !l.inFlow && l.indent == Int.ofNat l.cursor.column
    let l ← l.dropPlace
    return { l with place := some ⟨l.count, required, l.cursor.index, l.cursor.line, l.cursor.column⟩ }
  else .ok l

/-- Closes the block collections that are indented deeper than a column. -/
def unwind (l : Lexer) (column : Int) : Lexer :=
  if l.inFlow then l
  else
    let closed := (l.indent :: l.outer).takeWhile (column < ·)
    match (l.indent :: l.outer).drop closed.length with
    | [] => l
    | indent :: outer =>
      { l with
        tokens := closed.map (fun _ => ⟨.blockEnd, l.cursor.index⟩) ++ l.tokens
        count := l.count + closed.length
        indent := indent
        outer := outer }

/-- Opens a block collection at a column if none is as deep; tells whether it did. -/
def deepen (l : Lexer) (column : Nat) : Lexer × Bool :=
  if l.indent < column then ({ l with indent := column, outer := l.indent :: l.outer }, true) else (l, false)

/-- Opens a block collection here, unless a flow collection is open or one is as deep. -/
def openBlock (l : Lexer) (mark : Mark) : Lexer :=
  if l.inFlow then l
  else
    match l.deepen l.cursor.column with
    | (l, true) => l.emit mark
    | (l, false) => l

/-- Past spaces, comments and line ends to the next token. -/
def toNextToken : Nat → Lexer → Lexer
  | 0, l => l
  | fuel + 1, l =>
    let c := if l.cursor.index == 0 && l.cursor.head? == some '\ufeff' then l.cursor.advance else l.cursor
    let c := c.skipSpaces
    let c := if c.head? == some '#' then (c.span fun ch => !isBreak ch).2 else c
    match c.lineBreak? with
    | some (_, after) =>
      toNextToken fuel { l with cursor := after, keyAllowed := l.keyAllowed || !l.inFlow }
    | none => l.moveTo c

/-! ## Tokens of one kind -/

/-- A name behind an asterisk or ampersand. -/
def anchorName (c : Cursor) : Except Fault (String × Cursor) :=
  let (name, after) := c.advance.span isNameChar
  let ended := endsWord after.head? || after.head?.any fun ch => "?:,]\x7d%@\x60".toList.contains ch
  if name.isEmpty || !ended then .error .yaml else .ok (String.ofList name, after)

/-- Bytes written as percent escapes, and the place behind them. -/
def percentBytes : Nat → Cursor → Except Fault (List UInt8 × Cursor)
  | 0, _ => .error .yaml
  | fuel + 1, c =>
    match c.rest with
    | '%' :: a :: b :: _ =>
      match Text.ofHex? [a, b] with
      | some n => do
        let (bs, after) ← percentBytes fuel (c.skip 3)
        return (UInt8.ofNat n :: bs, after)
      | none => .error .yaml
    | '%' :: _ => .error .yaml
    | _ => .ok ([], c)

/-- A character of a tag's name that needs no escape. -/
def isTagChar (c : Char) : Bool :=
  isNameChar c || ";/?:@&=+$,_.!~*'()[]".toList.contains c

/-- The name of a tag, its escapes read as UTF-8. -/
def tagBody : Nat → Cursor → Except Fault (String × Cursor)
  | 0, _ => .error .yaml
  | fuel + 1, c =>
    let (cs, after) := c.span isTagChar
    if after.head? == some '%' then do
      let (bs, next) ← percentBytes fuel after
      match String.fromUTF8? ⟨bs.toArray⟩ with
      | some s =>
        let (more, rest) ← tagBody fuel next
        return (String.ofList cs ++ s ++ more, rest)
      | none => .error .yaml
    else .ok (String.ofList cs, after)

/-- A name of a tag, which may not be empty. -/
def tagName (fuel : Nat) (c : Cursor) : Except Fault (String × Cursor) := do
  let (s, after) ← tagBody fuel c
  if s.isEmpty then .error .yaml else .ok (s, after)

/-- A tag handle: one exclamation mark, or a name between two. -/
def tagHandle (c : Cursor) : Except Fault (String × Cursor) :=
  if c.head? != some '!' then .error .yaml
  else if c.advance.head? == some ' ' then .ok ("!", c.advance)
  else
    let (name, after) := c.advance.span isNameChar
    if after.head? == some '!' then .ok (String.ofList (('!' :: name) ++ ['!']), after.advance)
    else .error .yaml

/-- A tag: verbatim between angle brackets, alone, or behind a handle. -/
def tag (fuel : Nat) (c : Cursor) : Except Fault (Mark × Cursor) := do
  let next := c.advance.head?
  let (handle, suffix, after) ←
    if next == some '<' then do
      let (s, after) ← tagName fuel (c.skip 2)
      if after.head? == some '>' then pure (none, s, after.advance) else .error .yaml
    else if endsWord next then pure (none, "!", c.advance)
    else do
      let word := c.advance.rest.takeWhile fun ch => !endsField (some ch)
      let (handle, after) ← if word.contains '!' then tagHandle c else pure ("!", c.advance)
      let (s, after) ← tagName fuel after
      pure (some handle, s, after)
  if endsField after.head? then .ok (.tag handle suffix, after) else .error .yaml

/-- A number in a version directive. -/
def versionNumber (c : Cursor) : Except Fault (Nat × Cursor) :=
  let (ds, after) := c.span fun ch => '0' ≤ ch && ch ≤ '9'
  if ds.isEmpty then .error .yaml
  else .ok (ds.foldl (fun n d => 10 * n + (d.toNat - 48)) 0, after)

/-- A directive, with the rest of its line. -/
def directive (fuel : Nat) (c : Cursor) : Except Fault (Mark × Cursor) := do
  let (name, after) := c.advance.span isNameChar
  if name.isEmpty || !endsField after.head? then throw .yaml
  if name = "YAML".toList then
    let (major, c) ← versionNumber after.skipSpaces
    if c.head? != some '.' then throw .yaml
    let (minor, c) ← versionNumber c.advance
    if !endsField c.head? then throw .yaml
    return (.versionDirective major minor, ← c.ignoredLine)
  else if name = "TAG".toList then
    let (handle, c) ← tagHandle after.skipSpaces
    if c.head? != some ' ' then throw .yaml
    let (leading, c) ← tagName fuel c.skipSpaces
    if !endsField c.head? then throw .yaml
    return (.tagDirective handle leading, ← c.ignoredLine)
  else
    return (.otherDirective, ← (after.span fun ch => !isBreak ch).2.ignoredLine)

/-! ## One token after the other -/

/-- A directive or document mark, which closes all block collections. -/
def documentToken (l : Lexer) (mark : Mark) (after : Cursor) : Except Fault Lexer := do
  let l ← (l.unwind (-1)).dropPlace
  return ((l.allowKey false).emit mark).moveTo after

/-- The start of a flow collection, which may itself be a key. -/
def openFlow (l : Lexer) (mark : Mark) : Except Fault Lexer := do
  let l ← l.savePlace
  let l := l.emit mark
  return { l with
    outerPlaces := l.place :: l.outerPlaces, place := none, keyAllowed := true, cursor := l.cursor.advance }

/-- The end of a flow collection; none may be open beside it. -/
def closeFlow (l : Lexer) (mark : Mark) : Except Fault Lexer := do
  let l ← l.dropPlace
  match l.outerPlaces with
  | [] => .error .yaml
  | p :: ps =>
    let l := (l.allowKey false).emit mark
    return { l with place := p, outerPlaces := ps, cursor := l.cursor.advance }

/-- A comma between items. -/
def comma (l : Lexer) : Except Fault Lexer := do
  let l ← (l.allowKey true).dropPlace
  return (l.emit .comma).moveTo l.cursor.advance

/-- A hyphen before an item. -/
def entry (l : Lexer) : Except Fault Lexer := do
  if !l.inFlow && !l.keyAllowed then throw .yaml
  let l ← ((l.openBlock .blockSequence).allowKey true).dropPlace
  return (l.emit .entry).moveTo l.cursor.advance

/-- A question mark before a key. -/
def key (l : Lexer) : Except Fault Lexer := do
  if !l.inFlow && !l.keyAllowed then throw .yaml
  let l := l.openBlock .blockMapping
  let l ← (l.allowKey !l.inFlow).dropPlace
  return (l.emit .key).moveTo l.cursor.advance

/-- A colon: what stands at the possible key becomes one, or the colon follows a marked key. -/
def value (l : Lexer) : Except Fault Lexer := do
  match l.place with
  | some p =>
    let l := { l with place := none }
    let (l, opened) := if l.inFlow then (l, false) else l.deepen p.column
    let l := l.insert p (if opened then [.blockMapping, .key] else [.key])
    return ((l.allowKey false).emit .value).moveTo l.cursor.advance
  | none =>
    if !l.inFlow && !l.keyAllowed then throw .yaml
    let l := l.openBlock .blockMapping
    let l := l.allowKey !l.inFlow
    return (l.emit .value).moveTo l.cursor.advance

/-- A token that may start a key. -/
def keyable (l : Lexer) (read : Cursor → Except Fault (Mark × Cursor)) : Except Fault Lexer := do
  let l ← l.savePlace
  let (mark, after) ← read l.cursor
  return ((l.allowKey false).emit mark).moveTo after

/-- A block scalar. -/
def block (l : Lexer) (fuel : Nat) (folded : Bool) : Except Fault Lexer := do
  let l ← (l.allowKey true).dropPlace
  let (s, after) ← blockScalar folded l.indent fuel l.cursor.advance
  return (l.emit (.scalar s false)).moveTo after

/-- A plain scalar; a key may start behind it if its line has ended. -/
def plain (l : Lexer) (fuel : Nat) : Except Fault Lexer := do
  let l ← l.savePlace
  let (s, after, ended) := plainScalar l.inFlow (l.indent + 1) fuel l.cursor
  return ((l.allowKey ended).emit (.scalar s true)).moveTo after

/-- Characters that no plain scalar starts with. -/
def isIndicator (c : Char) : Bool := "-?:,[]\x7b\x7d#&*!|>'\"%@\x60".toList.contains c

/-- Whether a plain scalar starts here. -/
def atPlain (l : Lexer) (c : Char) : Bool :=
  (!endsWord (some c) && !isIndicator c) ||
    (!endsWord l.cursor.advance.head? && (c == '-' || (!l.inFlow && (c == '?' || c == ':'))))

/-- Reads the next token; tells whether the text has ended. `fuel` exceeds the number of characters
left. -/
def next (fuel : Nat) (l : Lexer) : Except Fault (Lexer × Bool) := do
  let l ← (toNextToken fuel l).dropStale
  let l := l.unwind l.cursor.column
  let c := l.cursor
  let marked := endsWord c.advance.head?
  match c.head? with
  | none => return (← (l.unwind (-1)).dropPlace, true)
  | some ch =>
    let l ←
      if ch == '%' && c.column == 0 then do
        let (mark, after) ← directive fuel c
        l.documentToken mark after
      else if c.column == 0 && c.atMarker '-' then l.documentToken .documentStart (c.skip 3)
      else if c.column == 0 && c.atMarker '.' then l.documentToken .documentEnd (c.skip 3)
      else if ch == '[' then l.openFlow .flowSequence
      else if ch == '\x7b' then l.openFlow .flowMapping
      else if ch == ']' then l.closeFlow .flowSequenceEnd
      else if ch == '\x7d' then l.closeFlow .flowMappingEnd
      else if ch == ',' then l.comma
      else if ch == '-' && marked then l.entry
      else if ch == '?' && (l.inFlow || marked) then l.key
      else if ch == ':' && (l.inFlow || marked) then l.value
      else if ch == '*' then l.keyable fun c => (anchorName c).map fun p => (.alias p.1, p.2)
      else if ch == '&' then l.keyable fun c => (anchorName c).map fun p => (.anchor p.1, p.2)
      else if ch == '!' then l.keyable (tag fuel)
      else if ch == '|' && !l.inFlow then l.block fuel false
      else if ch == '>' && !l.inFlow then l.block fuel true
      else if ch == '\'' || ch == '"' then
        l.keyable fun c => (quotedScalar ch fuel c).map fun p => (.scalar p.1 false, p.2)
      else if l.atPlain ch then l.plain fuel
      else .error .yaml
    return (l, false)

/-- Reads tokens to the end. Each token consumes a character, so that what is left of `fuel` still
exceeds the number of characters left. -/
def run : Nat → Lexer → Except Fault (List Token)
  | 0, _ => .error .yaml
  | fuel + 1, l => do
    let (l, finished) ← l.next fuel
    if finished then return l.tokens.reverse else run fuel l

end Lexer

/-- The tokens of a text. Each consumes a character, so the text's length bounds their number. -/
def tokens (cs : List Char) : Except Fault (List Token) :=
  if cs.all isAllowed then Lexer.run (cs.length + 2) (.start cs) else .error .yaml

end Formwright.Yaml
