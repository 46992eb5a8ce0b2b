import Formwright.Text.Digit
import Formwright.Value.Access

/-
  Reading JSON texts. Numbers with a point or an exponent are doubles, all others integers of any
  size up to the digit limit; the words for infinities and for no-number are read too. The last of
  members with one name decides. Every list and object is given a number as its identity, so that
  no two share one.
-/

namespace Formwright.Json

def isSpace (c : Char) : Bool := c == ' ' || c == '\t' || c == '\n' || c == '\r'

def skipSpace (cs : List Char) : List Char := cs.dropWhile isSpace

/-- The rest of the text behind a word. -/
def afterWord? (word : String) (cs : List Char) : Option (List Char) :=
  if word.toList.isPrefixOf cs then some (cs.drop word.length) else none

/-- A code unit of four hexadecimal digits. -/
def codeUnit? : List Char → Option (Nat × List Char)
  | a :: b :: c :: d :: rest => (Text.ofHex? [a, b, c, d]).map (·, rest)
  | _ => none

def isHighSurrogate (n : Nat) : Bool := 0xD800 ≤ n && n < 0xDC00

def isLowSurrogate (n : Nat) : Bool := 0xDC00 ≤ n && n < 0xE000

/-- The character of a code unit, or of a surrogate pair; a surrogate alone stands for the
replacement character. -/
def unitChar (n : Nat) (rest : List Char) : Char × List Char :=
  let alone := (if isHighSurrogate n || isLowSurrogate n then '\ufffd' else Char.ofNat n, rest)
  if isHighSurrogate n then
    match rest with
    | '\\' :: 'u' :: more =>
      match codeUnit? more with
      | some (low, after) =>
        if isLowSurrogate low then (Char.ofNat (0x10000 + (n - 0xD800) * 0x400 + (low - 0xDC00)), after)
        else alone
      | none => alone
    | _ => alone
  else alone

/-- The character that an escape letter stands for. -/
def escape? : Char → Option Char
  | '"' => some '"'
  | '\\' => some '\\'
  | '/' => some '/'
  | 'b' => some '\x08'
  | 'f' => some '\x0c'
  | 'n' => some '\n'
  | 'r' => some '\r'
  | 't' => some '\t'
  | _ => none

/-- The characters of a string behind its opening quote, and the rest behind the closing one. -/
def stringBody : Nat → List Char → List Char → Except Fault (List Char × List Char)
  | 0, _, _ => .error .json
  | fuel + 1, done, cs =>
    match cs with
    | [] => .error .json
    | '"' :: rest => .ok (done.reverse, rest)
    | '\\' :: 'u' :: rest =>
      match codeUnit? rest with
      | some (n, after) => let (c, more) := unitChar n after; stringBody fuel (c :: done) more
      | none => .error .json
    | '\\' :: c :: rest =>
      match escape? c with
      | some d => stringBody fuel (d :: done) rest
      | none => .error .json
    | c :: rest => if c.toNat < 32 then .error .json else stringBody fuel (c :: done) rest

/-- A string behind its opening quote. `fuel` exceeds the number of characters left. -/
def string (fuel : Nat) (cs : List Char) : Except Fault (String × List Char) := do
  let (body, rest) ← stringBody fuel [] cs
  return (String.ofList body, rest)

/-- The value of ASCII digits. -/
def digitsValue (ds : List Char) : Nat := Text.ofDigits (ds.map fun c => c.toNat - 48)

/-- A fraction: a point and at least one digit. -/
def fraction (cs : List Char) : List Char × List Char :=
  match cs with
  | '.' :: rest =>
    let ds := rest.takeWhile Text.isAsciiDigit
    if ds.isEmpty then ([], cs) else (ds, rest.drop ds.length)
  | _ => ([], cs)

/-- An exponent: its mark, perhaps a sign, and at least one digit. -/
def exponent? (cs : List Char) : Option (Int × List Char) :=
  match cs with
  | e :: rest =>
    if e = 'e' ∨ e = 'E' then
      let (negative, body) := match rest with
        | '-' :: more => (true, more)
        | '+' :: more => (false, more)
        | _ => (false, rest)
      let ds := body.takeWhile Text.isAsciiDigit
      if ds.isEmpty then none
      else
        let n : Int := Int.ofNat (digitsValue ds)
        some (if negative then -n else n, body.drop ds.length)
    else none
  | [] => none

/-- A number: no zero may lead other digits of the integer part. -/
def number (cs : List Char) : Except Fault (Value × List Char) :=
  let (negative, body) := match cs with
    | '-' :: rest => (true, rest)
    | _ => (false, cs)
  let whole := match body with
    | '0' :: _ => ['0']
    | _ => body.takeWhile Text.isAsciiDigit
  if whole.isEmpty then .error .json
  else
    let afterWhole := body.drop whole.length
    let (tenths, afterFraction) := fraction afterWhole
    let power := exponent? afterFraction
    if tenths.isEmpty && power.isNone then
      if Formwright.maxIntegerDigits < whole.length then .error (.badValue (.integerTooLong whole.length))
      else
        let n : Int := Int.ofNat (digitsValue whole)
        .ok (.int (if negative then -n else n), afterFraction)
    else
      let (e, rest) := power.getD (0, afterFraction)
      .ok (.float (Decimal.nearestDecimal negative (digitsValue (whole ++ tenths)) (e - Int.ofNat tenths.length)), rest)

/-- The values that are single words. -/
def word? (cs : List Char) : Option (Value × List Char) :=
  [("null", Value.null), ("true", .bool true), ("false", .bool false),
    ("NaN", .float (0.0 / 0.0)), ("Infinity", .float (1.0 / 0.0)), ("-Infinity", .float (-1.0 / 0.0))].findSome?
      fun w => (afterWord? w.1 cs).map (w.2, ·)

mutual
/-- A value, leading blanks skipped. -/
def value : Nat → List Char → Except Fault (Value × List Char)
  | 0, _ => .error .json
  | fuel + 1, cs =>
    let cs := skipSpace cs
    match cs with
    | [] => .error .json
    | '"' :: rest => do let (s, rest) ← string (fuel + 1) rest; return (.text s, rest)
    | '[' :: rest =>
      match skipSpace rest with
      | ']' :: after => .ok (.list 0 [], after)
      | _ => do let (vs, after) ← items fuel rest; return (.list 0 vs, after)
    | '\x7b' :: rest =>
      match skipSpace rest with
      | '\x7d' :: after => .ok (.map 0 [], after)
      | _ => do let (es, after) ← members fuel [] rest; return (.map 0 es, after)
    | _ =>
      match word? cs with
      | some found => .ok found
      | none => number cs

/-- The items of a list up to its closing bracket. -/
def items : Nat → List Char → Except Fault (List Value × List Char)
  | 0, _ => .error .json
  | fuel + 1, cs => do
    let (v, rest) ← value fuel cs
    match skipSpace rest with
    | ',' :: more => let (vs, after) ← items fuel more; return (v :: vs, after)
    | ']' :: after => return ([v], after)
    | _ => .error .json

/-- The members of an object up to its closing brace. -/
def members : Nat → List (Value × Value) → List Char → Except Fault (List (Value × Value) × List Char)
  | 0, _, _ => .error .json
  | fuel + 1, es, cs =>
    match skipSpace cs with
    | '"' :: rest => do
      let (name, rest) ← string (fuel + 1) rest
      match skipSpace rest with
      | ':' :: rest =>
        let (v, rest) ← value fuel rest
        let es := Value.put es (.text name) v
        match skipSpace rest with
        | ',' :: more => members fuel es more
        | '\x7d' :: after => return (es, after)
        | _ => .error .json
      | _ => .error .json
    | _ => .error .json
end

mutual
/-- A value with its lists and objects numbered downward from `n` in the order in which they open,
and the next number. -/
def numbered : Value → Nat → Value × Nat
  | .list _ vs, n => let (ws, m) := numberedAll vs (n - 1); (.list n ws, m)
  | .map _ es, n => let (fs, m) := numberedEntries es (n - 1); (.map n fs, m)
  | v, n => (v, n)
termination_by structural v => v

def numberedAll : List Value → Nat → List Value × Nat
  | [], n => ([], n)
  | v :: vs, n =>
    let (w, m) := numbered v n
    let (ws, k) := numberedAll vs m
    (w :: ws, k)
termination_by structural vs => vs

def numberedEntries : List (Value × Value) → Nat → List (Value × Value) × Nat
  | [], n => ([], n)
  | (key, v) :: es, n =>
    let (w, m) := numbered v n
    let (fs, k) := numberedEntries es m
    ((key, w) :: fs, k)
termination_by structural es => es
end

/-- Reads a whole text as one value. Two units of fuel for each character suffice, and the text has
more characters than lists and objects, so that no number is zero. -/
def read (s : String) : Except Fault Value := do
  let cs := s.toList
  let (v, rest) ← value (2 * cs.length + 2) cs
  if (skipSpace rest).isEmpty then return (numbered v cs.length).1 else .error .json

end Formwright.Json
