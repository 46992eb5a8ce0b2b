import Formwright.Text.Digit

/-
  The tags of plain scalars, by their shape: truth values, numbers, null, dates, the merge and
  value marks; whatever has no such shape is a text.
-/

namespace Formwright.Yaml

/-- The tags that this library gives a meaning; any other tag is unknown to it. -/
inductive Tag where
  | null | bool | int | float | binary | timestamp | omap | pairs | set | str | seq | map
  | merge | value | yaml
  | unknown
  deriving Repr, DecidableEq

/-- The common start of the names of standard tags. -/
def standardTags : String := "tag:yaml.org,2002:"

namespace Tag

/-- The tag with a full name. -/
def named (name : String) : Tag :=
  if standardTags.toList.isPrefixOf name.toList then
    match String.ofList (name.toList.drop standardTags.length) with
    | "null" => null
    | "bool" => bool
    | "int" => int
    | "float" => float
    | "binary" => binary
    | "timestamp" => timestamp
    | "omap" => omap
    | "pairs" => pairs
    | "set" => set
    | "str" => str
    | "seq" => seq
    | "map" => map
    | "merge" => merge
    | "value" => value
    | "yaml" => yaml
    | _ => unknown
  else unknown

/-- The short name of a standard tag. -/
def word : Tag → String
  | null => "null"
  | bool => "bool"
  | int => "int"
  | float => "float"
  | binary => "binary"
  | timestamp => "timestamp"
  | omap => "omap"
  | pairs => "pairs"
  | set => "set"
  | str => "str"
  | seq => "seq"
  | map => "map"
  | merge => "merge"
  | value => "value"
  | yaml => "yaml"
  | unknown => ""

end Tag

/-! ## Shapes -/

open Text (isAsciiDigit)

/-- A digit or the underscore that may stand between digits. -/
def isDigitOrLine (c : Char) : Bool := isAsciiDigit c || c == '_'

/-- The characters behind a sign, if there is one. -/
def afterSign : List Char → List Char
  | '-' :: rest => rest
  | '+' :: rest => rest
  | cs => cs

def nullWords : List String := ["~", "null", "Null", "NULL", ""]

def trueWords : List String := ["yes", "Yes", "YES", "true", "True", "TRUE", "on", "On", "ON"]

def falseWords : List String := ["no", "No", "NO", "false", "False", "FALSE", "off", "Off", "OFF"]

/-- One digit, or two of which the first is below six. -/
def isSixty (cs : List Char) : Bool :=
  match cs with
  | [d] => isAsciiDigit d
  | [t, d] => '0' ≤ t && t ≤ '5' && isAsciiDigit d
  | _ => false

/-- The pieces of a text between colons. -/
def colonPieces : List Char → List (List Char)
  | [] => [[]]
  | c :: cs =>
    match colonPieces cs with
    | [] => [[c]]
    | p :: ps => if c = ':' then [] :: p :: ps else (c :: p) :: ps

/-- A non-empty run of characters of a class. -/
def allOf (p : Char → Bool) (cs : List Char) : Bool := !cs.isEmpty && cs.all p

/-- Digits and underscores that start with a digit. -/
def isNumberRun : List Char → Bool
  | [] => false
  | c :: cs => isAsciiDigit c && cs.all isDigitOrLine

/-- Integers: binary, octal, decimal, hexadecimal, or in base sixty. -/
def isInt (cs : List Char) : Bool :=
  match afterSign cs with
  | '0' :: 'b' :: rest => allOf (fun c => c == '0' || c == '1' || c == '_') rest
  | '0' :: 'x' :: rest =>
    allOf (fun c => isDigitOrLine c || ('a' ≤ c && c ≤ 'f') || ('A' ≤ c && c ≤ 'F')) rest
  | '0' :: rest => rest.all fun c => ('0' ≤ c && c ≤ '7') || c == '_'
  | body =>
    match colonPieces body with
    | [] => false
    | lead :: sixties => isNumberRun lead && sixties.all isSixty

/-- Nothing, or an exponent with a sign. -/
def isExponent : List Char → Bool
  | [] => true
  | e :: sign :: digits =>
    (e == 'e' || e == 'E') && (sign == '-' || sign == '+') && allOf isAsciiDigit digits
  | _ => false

/-- A fraction behind its point: digits and underscores, then perhaps an exponent. -/
def isFraction (cs : List Char) : Bool := isExponent (cs.dropWhile isDigitOrLine)

/-- Doubles: with a point, in base sixty with a point, infinities, or no-number. -/
def isFloat (cs : List Char) : Bool :=
  let body := afterSign cs
  let lead := body.takeWhile (· != '.')
  match body.drop lead.length with
  | [] => false
  | _ :: rest =>
    let tail := String.ofList rest
    if lead.isEmpty then
      ["inf", "Inf", "INF"].contains tail ||
        (body.length == cs.length && (["nan", "NaN", "NAN"].contains tail || (rest.head?.any isAsciiDigit && isFraction rest)))
    else if lead.contains ':' then
      match colonPieces lead with
      | [] => false
      | first :: sixties => isNumberRun first && sixties.all isSixty && rest.all isDigitOrLine
    else isNumberRun lead && isFraction rest

/-- The parts of a date or moment as they are written. -/
structure Stamp where
  year : List Char
  month : List Char
  day : List Char
  /-- Hour, minute, second, fraction and zone; a date has none of them. -/
  time : Option (List Char × List Char × List Char × List Char × Option (List Char))
  deriving Repr

/-- A run of one or two digits up to a mark. -/
def field (mark : Char) (cs : List Char) : Option (List Char × List Char) :=
  let ds := cs.takeWhile isAsciiDigit
  match cs.drop ds.length with
  | c :: rest => if c == mark && (ds.length == 1 || ds.length == 2) then some (ds, rest) else none
  | [] => none

/-- A zone: `Z`, or a sign, one or two digits of hours and perhaps two of minutes. -/
def isZone (cs : List Char) : Bool :=
  match cs with
  | ['Z'] => true
  | sign :: rest =>
    (sign == '-' || sign == '+') &&
      (match colonPieces rest with
      | [h] => allOf isAsciiDigit h && h.length ≤ 2
      | [h, m] => allOf isAsciiDigit h && h.length ≤ 2 && allOf isAsciiDigit m && m.length == 2
      | _ => false)
  | [] => false

/-- The second with fraction and zone behind it. -/
def secondPart (cs : List Char) : Option (List Char × List Char × Option (List Char)) :=
  let second := cs.take 2
  if second.length == 2 && second.all isAsciiDigit then
    let rest := cs.drop 2
    let (fraction, rest) := match rest with
      | '.' :: more => (more.takeWhile isAsciiDigit, more.dropWhile isAsciiDigit)
      | _ => ([], rest)
    let zone := rest.dropWhile fun c => c == ' ' || c == '\t'
    if rest.isEmpty then some (second, fraction, none)
    else if isZone zone then some (second, fraction, some zone)
    else none
  else none

/-- The parts of a date or moment. -/
def stamp? (cs : List Char) : Option Stamp := do
  let year := cs.take 4
  guard (year.length == 4 && year.all isAsciiDigit && (cs.drop 4).head? == some '-')
  let (month, rest) ← field '-' (cs.drop 5)
  let day := rest.takeWhile isAsciiDigit
  guard (day.length == 1 || day.length == 2)
  let rest := rest.drop day.length
  if rest.isEmpty then return ⟨year, month, day, none⟩
  let time ← match rest with
    | 'T' :: more => some more
    | 't' :: more => some more
    | _ =>
      let more := rest.dropWhile fun c => c == ' ' || c == '\t'
      if more.length < rest.length then some more else none
  let (hour, rest) ← field ':' time
  let (minute, rest) ← field ':' rest
  guard (minute.length == 2)
  let (second, fraction, zone) ← secondPart rest
  return ⟨year, month, day, some (hour, minute, second, fraction, zone)⟩

/-- A plain date needs two digits of month and day; a moment may have one. -/
def isTimestamp (cs : List Char) : Bool :=
  match stamp? cs with
  | some s => s.time.isSome || (s.month.length == 2 && s.day.length == 2)
  | none => false

/-- The tag of a plain scalar. -/
def implicitTag (s : String) : Tag :=
  let cs := s.toList
  if trueWords.contains s || falseWords.contains s then .bool
  else if isFloat cs then .float
  else if isInt cs then .int
  else if s == "<<" then .merge
  else if nullWords.contains s then .null
  else if isTimestamp cs then .timestamp
  else if s == "=" then .value
  else if s == "!" || s == "&" || s == "*" then .yaml
  else .str

end Formwright.Yaml
