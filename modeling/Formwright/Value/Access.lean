import Formwright.Text.Quoted
import Formwright.Value.Compare

/-
  Reading the parts of a value whose kind is not known. Each way to read has its own demands: a
  lookup by name needs a map, membership also works on other collections, and iteration runs over
  the keys of a map and the characters of a text.
-/

namespace Formwright.Value

/-- The value under a text key. -/
def member? (es : List (Value × Value)) (name : String) : Option Value :=
  lookup es (.text name)

/-- The entries of a map; any other kind lacks the named operation. -/
def entriesFor (member : String) : Value → Except Fault (List (Value × Value))
  | map _ es => .ok es
  | v => .error (.noMember v.kind member)

/-- The value under a name of a map, else a default. -/
def getD (v : Value) (name : String) (default : Value) : Except Fault Value := do
  return (member? (← v.entriesFor "get") name).getD default

/-- The value under a name of a map, null if there is none. -/
def get (v : Value) (name : String) : Except Fault Value := v.getD name .null

/-- The value under a name that has to be there. -/
def require (v : Value) (name : String) : Except Fault Value :=
  match v with
  | map _ es =>
    match member? es name with
    | some w => .ok w
    | none => .error (.missingKey (Text.quoted name))
  | v => .error (.misuse (.noLookup v.kind))

/-- Whether a text occurs in a list of characters. -/
def isInfix (needle : List Char) : List Char → Bool
  | [] => needle.isEmpty
  | c :: cs => needle.isPrefixOf (c :: cs) || isInfix needle cs

/-- Whether a name is a key of a map, an item of a collection or a part of a text. -/
def contains (v : Value) (name : String) : Except Fault Bool :=
  match v with
  | map _ es => .ok (es.any fun e => same e.1 (.text name))
  | list _ vs | tuple _ vs | set _ vs => .ok ((Value.text name).occursIn vs)
  | text s => .ok (isInfix name.toList s.toList)
  | v => .error (.misuse (.noMembers v.kind))

/-- What iteration runs over: items, keys, characters or byte numbers. -/
def elements : Value → Except Fault (List Value)
  | list _ vs | tuple _ vs | set _ vs => .ok vs
  | map _ es => .ok (es.map (·.1))
  | text s => .ok (s.toList.map fun c => .text (String.singleton c))
  | bytes bs => .ok (bs.map fun b => .int (Int.ofNat b.toNat))
  | v => .error (.misuse (.notIterable v.kind))

/-- The entry that item number `i` of a sequence of pairs stands for. -/
def asPair (i : Nat) (v : Value) : Except Fault (Value × Value) :=
  match v.elements with
  | .error _ => .error (.misuse (.notAPair i))
  | .ok [k, w] => do return (← k.asKey, w)
  | .ok ws => .error (.badValue (.pairLength i ws.length))

/-- The entries of a map, or of a sequence of pairs; the last entry of a key decides. -/
def asEntries (v : Value) : Except Fault (List (Value × Value)) :=
  match v with
  | map _ es => .ok es
  | v => do
    let pairs ← (← v.elements).zipIdx.mapM fun p => asPair p.2 p.1
    return pairs.foldl (fun es e => put es e.1 e.2) []

/-- The texts of a list, joined; every item has to be a text. -/
def joinTexts (separator : String) (vs : List Value) : Except Fault String := do
  let ss ← vs.zipIdx.mapM fun p =>
    match p.1 with
    | text s => .ok s
    | v => .error (.misuse (.notText p.2 v.kind))
  return separator.intercalate ss

/-- A number as a double; an integer beyond all doubles is too large. -/
def Numeric.toDouble : Numeric → Except Fault Float
  | .double x => .ok x
  | .whole n =>
    let x := Decimal.nearestInt n
    if x.isInf then .error .tooLarge else .ok x

/-- The sum of two numbers, or two sequences of one kind end to end. -/
def add (a b : Value) : Except Fault Value :=
  match a, b with
  | text x, text y => .ok (.text (x ++ y))
  | bytes x, bytes y => .ok (.bytes (x ++ y))
  | list _ x, list _ y => .ok (.list 0 (x ++ y))
  | tuple _ x, tuple _ y => .ok (.tuple 0 (x ++ y))
  | a, b =>
    match a.numeric?, b.numeric? with
    | some (.whole x), some (.whole y) => .ok (.int (x + y))
    | some x, some y => do return .float ((← x.toDouble) + (← y.toDouble))
    | _, _ => .error (.misuse (.noSum a.kind b.kind))

theorem member?_nil (name : String) : member? [] name = none := rfl

theorem elements_list (n : Nat) (vs : List Value) : elements (.list n vs) = .ok vs := rfl

theorem asEntries_map (n : Nat) (es : List (Value × Value)) : asEntries (.map n es) = .ok es := rfl

/-- Integers add as integers. -/
theorem add_int (a b : Int) : add (.int a) (.int b) = .ok (.int (a + b)) := rfl

end Formwright.Value
