import Formwright.Decimal.Layout
import Formwright.Value.Compare

/-
  Writing values as JSON texts. A style says whether characters beyond ASCII are escaped, whether
  the members of objects are sorted, and whether the text is laid out on lines. Dates, bytes and
  sets have no JSON form; keys that are numbers, truth values or null are written as texts.
-/

namespace Formwright.Json

/-- How a JSON text is written. -/
structure Style where
  asciiOnly : Bool
  sortMembers : Bool
  /-- Spaces for each level of nesting; none keeps the text on one line. -/
  indent : Option Nat
  deriving Repr, DecidableEq

/-- One line, ASCII only, members sorted: two equal forms have one text. -/
def Style.canonical : Style := ⟨true, true, none⟩

/-- Two spaces a level, characters as they are, members in their order. -/
def Style.readable : Style := ⟨false, false, some 2⟩

/-- An escape by code unit. -/
def unitEscape (n : Nat) : String := "\\u" ++ Text.hex 4 n

/-- An escape of any character: two units beyond the basic plane. -/
def charEscape (c : Char) : String :=
  if c.toNat < 0x10000 then unitEscape c.toNat
  else
    let n := c.toNat - 0x10000
    unitEscape (0xD800 + n / 0x400) ++ unitEscape (0xDC00 + n % 0x400)

/-- One character inside a string. -/
def stringChar (asciiOnly : Bool) (c : Char) : String :=
  if c = '"' then "\\\""
  else if c = '\\' then "\\\\"
  else if c = '\n' then "\\n"
  else if c = '\r' then "\\r"
  else if c = '\t' then "\\t"
  else if c = '\x08' then "\\b"
  else if c = '\x0c' then "\\f"
  else if c.toNat < 32 then unitEscape c.toNat
  else if asciiOnly && 126 < c.toNat then charEscape c
  else String.singleton c

/-- A text as a JSON string. -/
def stringText (asciiOnly : Bool) (s : String) : String :=
  "\"" ++ String.join (s.toList.map (stringChar asciiOnly)) ++ "\""

/-- A double: the words for infinities and for no-number are not standard. -/
def floatText (x : Float) : String :=
  if x.isNaN then "NaN"
  else if x.isInf then (if x < 0 then "-Infinity" else "Infinity")
  else Decimal.floatText x

/-- The name of a member with a given key. -/
def keyText : Value → Except Fault String
  | .text s => .ok s
  | .null => .ok "null"
  | .bool b => .ok (if b then "true" else "false")
  | .int n => .ok (Text.decimal n)
  | .float x => .ok (floatText x)
  | v => .error (.misuse (.badKey v.kind))

/-- A line break and the blanks of a level; nothing in a one-line style. -/
def Style.lineBreak (style : Style) (level : Nat) : String :=
  match style.indent with
  | some n => "\n" ++ String.ofList (List.replicate (n * level) ' ')
  | none => ""

/-- What stands between two items. -/
def Style.separator (style : Style) (level : Nat) : String :=
  match style.indent with
  | some _ => "," ++ style.lineBreak level
  | none => ", "

/-- Items between brackets, on lines of their own where the style says so. -/
def Style.enclose (style : Style) (level : Nat) (opening closing : String) (parts : List String) : String :=
  if parts.isEmpty then opening ++ closing
  else opening ++ style.lineBreak (level + 1) ++ (style.separator (level + 1)).intercalate parts ++
    style.lineBreak level ++ closing

/-- Members, each with its key for sorting and its text. -/
def arrange (style : Style) (parts : List (Value × String)) : Except Fault (List String) :=
  if style.sortMembers then do return (← Value.sortOn (·.1) parts).map (·.2)
  else .ok (parts.map (·.2))

mutual
/-- The text of a value at a level of nesting. -/
def valueText (style : Style) : Value → Nat → Except Fault String
  | .null, _ => .ok "null"
  | .bool b, _ => .ok (if b then "true" else "false")
  | .int n, _ => .ok (Text.decimal n)
  | .float x, _ => .ok (floatText x)
  | .text s, _ => .ok (stringText style.asciiOnly s)
  | .list _ vs, level => do return style.enclose level "[" "]" (← itemTexts style vs (level + 1))
  | .tuple _ vs, level => do return style.enclose level "[" "]" (← itemTexts style vs (level + 1))
  | .map _ es, level => do
    let parts ← memberTexts style es (level + 1)
    return style.enclose level "\x7b" "\x7d" (← arrange style parts)
  | .bytes _, _ => .error (.misuse (.unserialisable .bytes))
  | .date .., _ => .error (.misuse (.unserialisable .date))
  | .moment .., _ => .error (.misuse (.unserialisable .moment))
  | .set .., _ => .error (.misuse (.unserialisable .set))
termination_by structural v => v

def itemTexts (style : Style) : List Value → Nat → Except Fault (List String)
  | [], _ => .ok []
  | v :: vs, level => do
    let s ← valueText style v level
    return s :: (← itemTexts style vs level)
termination_by structural vs => vs

def memberTexts (style : Style) : List (Value × Value) → Nat → Except Fault (List (Value × String))
  | [], _ => .ok []
  | (k, v) :: es, level => do
    let name ← keyText k
    let s ← valueText style v level
    return (k, stringText style.asciiOnly name ++ ": " ++ s) :: (← memberTexts style es level)
termination_by structural es => es
end

/-- Writes a value as a JSON text. -/
def write (style : Style) (v : Value) : Except Fault String := valueText style v 0

end Formwright.Json
