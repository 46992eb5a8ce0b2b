import Formwright.Text.Numeral
import Formwright.Yaml.Cursor
import Formwright.Yaml.Implicit
import Formwright.Yaml.Page

/-
  Writing scalars. A text is written plain if nothing in it could be taken for layout and its shape
  gives it the right tag; else in single quotes if they can hold it; else in double quotes, with
  escapes. Lines are broken at single spaces beyond the line width.
-/

namespace Formwright.Yaml

/-- A line break that is written as it is; a carriage return is not. -/
def isPlainBreak (c : Char) : Bool := isBreak c && c != '\r'

/-- Whether a character stands for itself outside double quotes. -/
def isRaw (anyScript : Bool) (c : Char) : Bool :=
  c == '\n' || (' ' ≤ c && c ≤ '~') ||
    (anyScript && c != '\ufeff' && isAllowed c && 0x85 ≤ c.toNat && c.toNat ≠ 0x10FFFF)

/-- Whether some neighbours are of two given classes. -/
def hasPair (first second : Char → Bool) : List Char → Bool
  | a :: b :: cs => (first a && second b) || hasPair first second (b :: cs)
  | _ => false

/-- Characters that open something when they come first. -/
def openers : List Char :=
  ['#', ',', '[', ']', '\x7b', '\x7d', '&', '*', '!', '|', '>', '\'', '"', '%', '@', '\x60']

/-- Whether a text starts like layout. -/
def startsLikeLayout (cs : List Char) : Bool :=
  "---".toList.isPrefixOf cs || "...".toList.isPrefixOf cs ||
    match cs with
    | [] => false
    | c :: rest => openers.contains c || ((c == '?' || c == ':' || c == '-') && endsWord rest.head?)

/-- Whether a colon before a blank or a number sign behind one stands in a text. -/
def holdsLayout : List Char → Bool
  | a :: b :: cs =>
    (b == ':' && endsWord cs.head?) || (b == '#' && (a == '\t' || a == ' ' || isBreak a)) || holdsLayout (b :: cs)
  | _ => false

/-- Whether a text has spaces or line breaks at either end. -/
def hasLooseEnds (cs : List Char) : Bool :=
  let loose (c : Char) : Bool := c == ' ' || isPlainBreak c
  cs.head?.any loose || cs.getLast?.any loose

/-- Whether a text of one line can stand without quotes. -/
def isPlainText (anyScript : Bool) (cs : List Char) : Bool :=
  cs.all (fun c => isRaw anyScript c && !isPlainBreak c) && !hasLooseEnds cs && !startsLikeLayout cs &&
    !holdsLayout cs

/-- Whether single quotes can hold a text: no line of it starts or ends with a space. -/
def isQuotable (anyScript : Bool) (cs : List Char) : Bool :=
  cs.all (isRaw anyScript) && !hasPair isPlainBreak (· == ' ') cs && !hasPair (· == ' ') isPlainBreak cs

/-- Ways to write a scalar. -/
inductive ScalarStyle where
  | plain | single | double | literal
  deriving Repr, DecidableEq

/-- The way a scalar is written. Bytes take the literal style, which has no room in a key. -/
def scalarStyle (anyScript isKey : Bool) (tag : Tag) (s : String) : ScalarStyle :=
  let cs := s.toList
  let broken := cs.any isPlainBreak
  if tag == .binary then (if cs.isEmpty || isKey then .double else .literal)
  else if implicitTag s == tag && !(isKey && (cs.isEmpty || broken)) && isPlainText anyScript cs then .plain
  else if isQuotable anyScript cs && !(isKey && broken) then .single
  else .double

/-! ## Runs -/

/-- What a run of characters consists of. -/
inductive RunKind where
  | spaces | breaks | others
  deriving Repr, DecidableEq

def runKind (c : Char) : RunKind :=
  if c = ' ' then .spaces else if isPlainBreak c then .breaks else .others

/-- The maximal runs of one kind. -/
def runs : List Char → List (RunKind × List Char)
  | [] => []
  | c :: cs =>
    match runs cs with
    | [] => [(runKind c, [c])]
    | (k, r) :: rest => if k = runKind c then (k, c :: r) :: rest else (runKind c, [c]) :: (k, r) :: rest

/-- A space at which the line is broken, as it is too long. -/
def foldsAt (p : Page) (run : List Char) : Bool := run.length == 1 && lineWidth < p.column

/-- Writes a text without quotes. -/
def writePlain (p : Page) (indent : Nat) (folds : Bool) (s : String) : Page :=
  let start := (if p.afterBlank then p else p.put " ").inContent
  if s.isEmpty then p
  else (runs s.toList).foldl (fun p run =>
    if run.1 = .spaces && folds && foldsAt p run.2 then (p.indent indent).inContent
    else p.put (String.ofList run.2)) start

/-- Line breaks inside single quotes. One more is written in front of a line feed, as reading folds
the first. -/
def writeBreaks (p : Page) (indent : Nat) (run : List Char) : Page :=
  let p := if run.head? == some '\n' then p.breakWith '\n' else p
  (run.foldl Page.breakWith p).indent indent

/-- Writes the runs of a text in single quotes; the first and the last run are never folded. -/
def writeSingleRuns (indent : Nat) (folds : Bool) : Page → Bool → List (RunKind × List Char) → Page
  | p, _, [] => p
  | p, atStart, (k, run) :: rest =>
    let next := match k with
      | .spaces =>
        if folds && foldsAt p run && !atStart && !rest.isEmpty then p.indent indent
        else p.put (String.ofList run)
      | .breaks => writeBreaks p indent run
      | .others => p.put (String.ofList (run.flatMap fun c => if c = '\'' then ['\'', '\''] else [c]))
    writeSingleRuns indent folds next false rest

/-- Writes a text in single quotes. -/
def writeSingle (p : Page) (indent : Nat) (folds : Bool) (s : String) : Page :=
  (writeSingleRuns indent folds (p.mark "'" false) true (runs s.toList)).close "'"

/-! ## Double quotes -/

/-- The letter that stands for a character behind a backslash. -/
def escapeLetter? : Char → Option Char
  | '\x00' => some '0'
  | '\x07' => some 'a'
  | '\x08' => some 'b'
  | '\t' => some 't'
  | '\n' => some 'n'
  | '\x0b' => some 'v'
  | '\x0c' => some 'f'
  | '\r' => some 'r'
  | '\x1b' => some 'e'
  | '"' => some '"'
  | '\\' => some '\\'
  | '\x85' => some 'N'
  | '\xa0' => some '_'
  | '\u2028' => some 'L'
  | '\u2029' => some 'P'
  | _ => none

/-- Whether a character is escaped inside double quotes. -/
def isEscaped (anyScript : Bool) (c : Char) : Bool :=
  c == '"' || c == '\\' || c == '\x85' || c == '\u2028' || c == '\u2029' || c == '\ufeff' ||
    !((' ' ≤ c && c ≤ '~') ||
      (anyScript && 0xA0 ≤ c.toNat && c.toNat ≤ 0xFFFD))

/-- A number in capital hexadecimal digits. -/
def capitalHex (width n : Nat) : String :=
  String.ofList ((Text.hex width n).toList.map Char.toUpper)

/-- A character behind a backslash: by letter, else by number. -/
def escape (c : Char) : String :=
  match escapeLetter? c with
  | some l => String.ofList ['\\', l]
  | none =>
    if c.toNat < 0x100 then "\\x" ++ capitalHex 2 c.toNat
    else if c.toNat < 0x10000 then "\\u" ++ capitalHex 4 c.toNat
    else "\\U" ++ capitalHex 8 c.toNat

/-- Ends a line inside double quotes. A space at the start of the next line is escaped, as reading
would drop it. -/
def foldDouble (p : Page) (indent : Nat) (next : Option Char) : Page :=
  let p := ((p.put "\\").indent indent).inContent
  if next == some ' ' then p.put "\\" else p

/-- Writes characters inside double quotes. `held` are the ones read and not yet written, the last
one first; `inside` says that the next character is not the first. Lines are broken before a space
and next to an escape. -/
def writeDoubleChars (anyScript folds : Bool) (indent : Nat) : Page → Bool → List Char → List Char → Page
  | p, _, held, [] => p.put (String.ofList held.reverse)
  | p, inside, held, c :: cs =>
    let mayFold := folds && inside && !cs.isEmpty
    if isEscaped anyScript c then
      let p := (p.put (String.ofList held.reverse)).put (escape c)
      let p := if mayFold && lineWidth + 1 < p.column then foldDouble p indent cs.head? else p
      writeDoubleChars anyScript folds indent p true [] cs
    else if mayFold && (c == ' ' || held.isEmpty) && lineWidth < p.column + held.length then
      let p := foldDouble (p.put (String.ofList held.reverse)) indent (some c)
      writeDoubleChars anyScript folds indent p true [c] cs
    else writeDoubleChars anyScript folds indent p true (c :: held) cs

/-- Writes a text in double quotes. -/
def writeDouble (p : Page) (anyScript : Bool) (indent : Nat) (folds : Bool) (s : String) : Page :=
  (writeDoubleChars anyScript folds indent (p.mark "\"" false) false [] s.toList).close "\""

/-! ## Literal style -/

/-- Writes lines that each end with a line feed, indented below a bar. -/
def writeLiteral (p : Page) (indent : Nat) (lines : List String) : Page :=
  lines.foldl (fun p line => ((p.indent indent).put line).breakWith '\n') ((p.mark "|" false).breakWith '\n')

/-- The lines of a text of which each ends with a line feed. -/
def textLines : List Char → List (List Char)
  | [] => []
  | c :: cs =>
    if c = '\n' then [] :: textLines cs
    else
      match textLines cs with
      | [] => [[c]]
      | l :: ls => (c :: l) :: ls

/-- Writes a scalar in a given style. -/
def writeScalar (p : Page) (anyScript : Bool) (indent : Nat) (folds : Bool) (style : ScalarStyle) (s : String) :
    Page :=
  match style with
  | .plain => writePlain p indent folds s
  | .single => writeSingle p indent folds s
  | .double => writeDouble p anyScript indent folds s
  | .literal => writeLiteral p indent ((textLines s.toList).map String.ofList)

/-- The runs of a text hold all its characters. -/
theorem flatten_runs (cs : List Char) : ((runs cs).map (·.2)).flatten = cs := by
  induction cs with
  | nil => rfl
  | cons c cs ih =>
    simp only [runs]
    split
    · next h => simp_all
    · next k r rest h =>
      rw [h] at ih
      split <;> simp_all

end Formwright.Yaml
