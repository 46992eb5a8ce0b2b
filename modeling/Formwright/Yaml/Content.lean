import Formwright.Text.Base64
import Formwright.Text.Reading
import Formwright.Value.Display
import Formwright.Value.Compare
import Formwright.Yaml.Node

/-
  The values of nodes. A merge key takes over the entries of other mappings; a mapping's own
  entries decide over them, and of equal keys the last entry decides.
-/

namespace Formwright.Yaml

open Calendar

/-! ## Scalars -/

/-- A sign mark and the rest of a number, which may not be empty. -/
def numberBody (s : List Char) : Except Fault (Bool × List Char) :=
  match s with
  | [] => .error .indexRange
  | _ => .ok (Text.signed s)

/-- Values in base sixty, most significant first. -/
def sixties (ds : List Int) : Int := ds.foldl (fun n d => 60 * n + d) 0

/-- An integer without its sign. -/
def intBody : List Char → Except Fault Int
  | [] => .error .indexRange
  | ['0'] => .ok 0
  | '0' :: 'b' :: rest => Text.readInt 2 (String.ofList rest)
  | '0' :: 'x' :: rest => Text.readInt 16 (String.ofList rest)
  | '0' :: rest => Text.readInt 8 (String.ofList ('0' :: rest))
  | body =>
    if body.contains ':' then
      sixties <$> (colonPieces body).mapM fun p => Text.readInt 10 (String.ofList p)
    else Text.readInt 10 (String.ofList body)

/-- An integer as YAML writes it. -/
def intOf (s : String) : Except Fault Int := do
  let (negative, body) ← numberBody (s.toList.filter (· != '_'))
  let n ← intBody body
  return if negative then -n else n

/-- Values in base sixty, least significant first, the place value beside them. -/
def sixtiesFloat : List Float → Nat → Float → Float
  | [], _, sum => sum
  | d :: ds, place, sum => sixtiesFloat ds (place * 60) (sum + d * Decimal.nearestInt (Int.ofNat place))

/-- A double without its sign, in lower case. -/
def floatBody (body : List Char) : Except Fault Float :=
  let text := String.ofList body
  if text = ".inf" then .ok (1.0 / 0.0)
  else if text = ".nan" then .ok (0.0 / 0.0)
  else if body.contains ':' then
    (fun ds => sixtiesFloat ds.reverse 1 0.0) <$> (colonPieces body).mapM fun p => Text.readFloat (String.ofList p)
  else Text.readFloat text

/-- A double as YAML writes it. -/
def floatOf (s : String) : Except Fault Float := do
  let (negative, body) ← numberBody ((Text.lower s).toList.filter (· != '_'))
  let x ← floatBody body
  return if negative then -x else x

/-- A truth value by its word, of either case. -/
def boolOf (s : String) : Except Fault Bool :=
  let word := Text.lower s
  if ["yes", "true", "on"].contains word then .ok true
  else if ["no", "false", "off"].contains word then .ok false
  else .error (.missingKey (Text.quoted word))

/-- The fault of numbers that are no date. -/
def dateFault : DateFault → BadValue
  | .year n => .year n
  | .month => .month
  | .day => .day

/-- The fault of numbers that are no moment. -/
def momentFault : MomentFault → BadValue
  | .date f => dateFault f
  | .hour => .hour
  | .minute => .minute
  | .second => .second
  | .zone minutes => .zone (Value.shownSpan minutes)

/-- The number that ASCII digits denote. -/
def digits (cs : List Char) : Nat := Text.ofDigits (cs.map fun c => c.toNat - 48)

/-- A fraction of a second in microseconds, further digits dropped. -/
def microseconds (cs : List Char) : Nat :=
  let six := cs.take 6
  digits (six ++ List.replicate (6 - six.length) '0')

/-- Minutes from universal time. -/
def zoneMinutes (cs : List Char) : Int :=
  let (negative, body) := Text.signed cs
  match colonPieces body with
  | [h] => let n : Int := if cs = ['Z'] then 0 else Int.ofNat (digits h * 60); if negative then -n else n
  | [h, m] => let n : Int := Int.ofNat (digits h * 60 + digits m); if negative then -n else n
  | _ => 0

/-- A date or moment. -/
def stampValue (id : Nat) (s : String) : Except Fault Value := do
  match stamp? s.toList with
  | none => .error (.noMember .null "groupdict")
  | some st =>
    let (y, m, d) := (digits st.year, digits st.month, digits st.day)
    match st.time with
    | none =>
      match Date.check y m d with
      | .ok date => return .date id date
      | .error f => .error (.badValue (dateFault f))
    | some (h, mi, sec, fraction, zone) =>
      match Moment.check y m d (digits h) (digits mi) (digits sec) (microseconds fraction) (zone.map zoneMinutes) with
      | .ok t => return .moment id t
      | .error f => .error (.badValue (momentFault f))

/-- The value of a scalar by its tag. -/
def scalarValue (id : Nat) (tag : Tag) (s : String) : Except Fault Value :=
  match tag with
  | .null => .ok .null
  | .bool => (boolOf s).map .bool
  | .int => (intOf s).map .int
  | .float => (floatOf s).map .float
  | .binary =>
    if s.toList.all (·.toNat < 128) then
      match Text.ofBase64? s with
      | some bs => .ok (.bytes bs)
      | none => .error .yaml
    else .error .yaml
  | .timestamp => stampValue id s
  | .str => .ok (.text s)
  | _ => .error .yaml

/-- Tags whose values are single scalars. -/
def Tag.isScalar : Tag → Bool
  | .null | .bool | .int | .float | .binary | .timestamp | .str => true
  | _ => false

/-! ## Collections -/

/-- The scalar that stands for a mapping under the value key, if it has one. -/
def defaultScalar? : List (Node × Node) → Option String
  | [] => none
  | (.scalar _ .value _, v) :: es =>
    match v with
    | .scalar _ _ s => some s
    | _ => defaultScalar? es
  | _ :: es => defaultScalar? es

/-- Whether a node stands for a collection that can grow, whatever it holds. No such node is a key. -/
def Node.isGrowing : Node → Bool
  | .sequence _ tag _ => tag == .seq || tag == .omap || tag == .pairs
  | .mapping _ tag _ => tag == .map || tag == .set
  | .scalar .. => false

/-- Entries in order, later ones of a key deciding. -/
def collect (es : List (Value × Value)) : List (Value × Value) :=
  es.foldl (fun acc e => Value.put acc e.1 e.2) []

mutual
/-- The value of a node. -/
def valueOf : Node → Except Fault Value
  | .scalar id tag s => scalarValue id tag s
  | .sequence id tag ns =>
    match tag with
    | .seq => do return .list id (← valuesOf ns)
    | .omap | .pairs => do return .list id (← pairsOf ns)
    | _ => .error .yaml
  | .mapping id tag es =>
    match tag with
    | .map => do
      let (merged, own) ← entriesOf es
      return .map id (collect (merged ++ own))
    | .set => do
      let (merged, own) ← entriesOf es
      return .set id ((collect (merged ++ own)).map (·.1))
    | tag =>
      if tag.isScalar then
        match defaultScalar? es with
        | some s => scalarValue id tag s
        | none => .error .yaml
      else .error .yaml
termination_by structural n => n

def valuesOf : List Node → Except Fault (List Value)
  | [] => .ok []
  | n :: ns => do
    let v ← valueOf n
    return v :: (← valuesOf ns)
termination_by structural ns => ns

/-- Pairs from mappings of one entry each. -/
def pairsOf : List Node → Except Fault (List Value)
  | [] => .ok []
  | n :: ns => do
    let p ← pairOf n
    return p :: (← pairsOf ns)
termination_by structural ns => ns

def pairOf : Node → Except Fault Value
  | .mapping _ _ es => entryPair es
  | _ => .error .yaml
termination_by structural n => n

def entryPair : List (Node × Node) → Except Fault Value
  | (k, v) :: rest =>
    if rest.isEmpty then do
      let key ← valueOf k
      return .tuple 0 [key, ← valueOf v]
    else .error .yaml
  | [] => .error .yaml
termination_by structural es => es

/-- The entries of a mapping: those taken over, and its own. -/
def entriesOf : List (Node × Node) → Except Fault (List (Value × Value) × List (Value × Value))
  | [] => .ok ([], [])
  | (k, v) :: es =>
    match k with
    | .scalar _ .merge _ => do
      let taken ← mergedFrom v
      let (merged, own) ← entriesOf es
      return (taken ++ merged, own)
    | .scalar _ .value s => do
      let w ← valueOf v
      let (merged, own) ← entriesOf es
      return (merged, (.text s, w) :: own)
    | k =>
      if k.isGrowing then .error .yaml
      else do
        let key ← valueOf k
        let w ← valueOf v
        let (merged, own) ← entriesOf es
        return (merged, (key, w) :: own)
termination_by structural es => es

/-- The entries of a mapping, or of several of which the first decides. -/
def mergedFrom : Node → Except Fault (List (Value × Value))
  | .mapping _ _ es => do
    let (merged, own) ← entriesOf es
    return merged ++ own
  | .sequence _ _ ns => mergedFromAll ns
  | .scalar .. => .error .yaml
termination_by structural n => n

/-- The entries of several mappings, the last one first. -/
def mergedFromAll : List Node → Except Fault (List (Value × Value))
  | [] => .ok []
  | n :: ns => do
    let es ← mergedOne n
    return (← mergedFromAll ns) ++ es
termination_by structural ns => ns

def mergedOne : Node → Except Fault (List (Value × Value))
  | .mapping _ _ es => do
    let (merged, own) ← entriesOf es
    return merged ++ own
  | _ => .error .yaml
termination_by structural n => n
end

/-- Reads a YAML text of one document; a text without any is null. -/
def read (s : String) : Except Fault Value := do
  match ← document (← tokens s.toList) with
  | some n => valueOf n
  | none => return .null

end Formwright.Yaml
