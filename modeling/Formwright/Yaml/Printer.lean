import Formwright.Text.Base64
import Formwright.Value.Compare
import Formwright.Decimal.Layout
import Formwright.Yaml.Node
import Formwright.Yaml.Scalar

/-
  Writing values as YAML texts in block style. A value becomes a tree of nodes, and a node that
  occurs more than once is written where it comes first, under an anchor; later occurrences refer
  to it. Anchors are numbered in the order in which nodes are met a second time.
-/

namespace Formwright.Yaml

/-- How a YAML text is written. -/
structure Style where
  /-- Whether characters beyond ASCII stand for themselves. -/
  anyScript : Bool
  sortKeys : Bool
  deriving Repr, DecidableEq

/-- ASCII only, keys sorted: two equal forms have one text. -/
def Style.canonical : Style := ⟨false, true⟩

/-- Characters as they are, keys in their order. -/
def Style.readable : Style := ⟨true, false⟩

/-! ## Nodes of values -/

/-- A double; an exponent needs a point in front of it. -/
def floatText (x : Float) : String :=
  if x.isNaN then ".nan"
  else if x.isInf then (if x < 0 then "-.inf" else ".inf")
  else
    let cs := (Decimal.floatText x).toList
    let mantissa := cs.takeWhile (· != 'e')
    if mantissa.length < cs.length && !mantissa.contains '.' then
      String.ofList (mantissa ++ ".0".toList ++ cs.drop mantissa.length)
    else String.ofList cs

/-- Entries in the order of their keys where the style asks for it and the keys have an order. -/
def arrange (style : Style) (es : List (Value × (Node × Node))) : List (Node × Node) :=
  if style.sortKeys then
    match Value.sortOn (·.1) es with
    | .ok sorted => sorted.map (·.2)
    | .error _ => es.map (·.2)
  else es.map (·.2)

def Node.null : Node := .scalar 0 .null "null"

mutual
/-- The node of a value. -/
def Node.ofValue (style : Style) : Value → Node
  | .null => Node.null
  | .bool b => .scalar 0 .bool (if b then "true" else "false")
  | .int n => .scalar 0 .int (Text.decimal n)
  | .float x => .scalar 0 .float (floatText x)
  | .text s => .scalar 0 .str s
  | .bytes bs => .scalar 0 .binary (Text.toBase64 bs)
  | .date id d => .scalar id .timestamp d.isoText
  | .moment id m => .scalar id .timestamp (m.isoText " ")
  | .list id vs => .sequence id .seq (Node.ofValues style vs)
  | .tuple id vs => .sequence (if vs.isEmpty then 0 else id) .seq (Node.ofValues style vs)
  | .set id vs => .mapping id .set (arrange style (Node.ofItems style vs))
  | .map id es => .mapping id .map (arrange style (Node.ofEntries style es))
termination_by structural v => v

def Node.ofValues (style : Style) : List Value → List Node
  | [] => []
  | v :: vs => Node.ofValue style v :: Node.ofValues style vs
termination_by structural vs => vs

/-- The items of a set, as keys without values. -/
def Node.ofItems (style : Style) : List Value → List (Value × (Node × Node))
  | [] => []
  | v :: vs => (v, (Node.ofValue style v, Node.null)) :: Node.ofItems style vs
termination_by structural vs => vs

def Node.ofEntries (style : Style) : List (Value × Value) → List (Value × (Node × Node))
  | [] => []
  | (k, v) :: es => (k, (Node.ofValue style k, Node.ofValue style v)) :: Node.ofEntries style es
termination_by structural es => es
end

/-! ## Anchors -/

def Node.id : Node → Nat
  | .scalar id .. | .sequence id .. | .mapping id .. => id

/-- Nodes met so far, and the numbers of those met again. -/
structure Census where
  met : List Nat := []
  numbers : List (Nat × Nat) := []

/-- Meets a node again, which gives it a number if it has none. -/
def Census.again (c : Census) (id : Nat) : Census :=
  if c.numbers.any (·.1 == id) then c else { c with numbers := c.numbers ++ [(id, c.numbers.length + 1)] }

/-- Meets a node for the first time; identity 0 is not kept. -/
def Census.first (c : Census) (id : Nat) : Census := if id = 0 then c else { c with met := id :: c.met }

mutual
/-- Meets a node and, the first time, everything inside it. -/
def Census.visit : Node → Census → Census
  | .scalar id _ _, c => if c.met.contains id then c.again id else c.first id
  | .sequence id _ ns, c => if c.met.contains id then c.again id else Census.visitAll ns (c.first id)
  | .mapping id _ es, c => if c.met.contains id then c.again id else Census.visitEntries es (c.first id)
termination_by structural n => n

def Census.visitAll : List Node → Census → Census
  | [], c => c
  | n :: ns, c => Census.visitAll ns (Census.visit n c)
termination_by structural ns => ns

def Census.visitEntries : List (Node × Node) → Census → Census
  | [], c => c
  | (k, v) :: es, c => Census.visitEntries es (Census.visit v (Census.visit k c))
termination_by structural es => es
end

/-- The name of an anchor. -/
def anchorName (number : Nat) : String := "id" ++ Text.paddedNat 3 number

/-! ## Writing -/

/-- What the writing of a node depends on besides the page. -/
structure Setting where
  anyScript : Bool
  numbers : List (Nat × Nat)

/-- The name of a node's anchor, if it has one. -/
def Setting.anchor? (t : Setting) (n : Node) : Option String :=
  (t.numbers.find? (·.1 == n.id)).map fun e => anchorName e.2

/-- Where a node stands: the column of the collection around it, none outside of all, and its part. -/
structure Spot where
  indent : Option Nat
  inMapping : Bool
  isKey : Bool

/-- The column of the items of a block collection at a spot. -/
def deeper : Option Nat → Nat
  | none => 0
  | some n => n + 2

/-- The page, and the nodes that stand on it under their anchors. -/
structure Printing where
  page : Page := {}
  begun : List Nat := []

namespace Printing

def update (p : Printing) (f : Page → Page) : Printing := { p with page := f p.page }

def mark (p : Printing) (s : String) (opens : Bool) : Printing := p.update (·.mark s opens)

def indent (p : Printing) (n : Nat) : Printing := p.update (·.indent n)

end Printing

/-- The longest key that stands on one line with its value, with its tag and anchor counted. -/
def maxKeyLength : Nat := 127

/-- The length that a tag adds to a key, although it is not written. -/
def tagLength (tag : Tag) : Nat := tag.word.length + 2

/-- Whether a key stands in front of a colon, without a mark of its own. -/
def isSimpleKey (t : Setting) (begun : List Nat) (n : Node) : Bool :=
  let anchor := ((t.anchor? n).map String.length).getD 0
  if (t.anchor? n).isSome && begun.contains n.id then anchor ≤ maxKeyLength
  else
    match n with
    | .scalar _ tag s =>
      anchor + tagLength tag + s.length ≤ maxKeyLength && !s.isEmpty && !s.toList.any isPlainBreak
    | .sequence _ tag ns => ns.isEmpty && anchor + tagLength tag ≤ maxKeyLength
    | .mapping _ tag es => es.isEmpty && anchor + tagLength tag ≤ maxKeyLength

/-- Writes a reference to a node, or the anchor that later references name. Says whether the node
itself is still to be written. -/
def writeAnchor (t : Setting) (n : Node) (p : Printing) : Bool × Printing :=
  match t.anchor? n with
  | none => (true, p)
  | some name =>
    if p.begun.contains n.id then (false, p.mark ("*" ++ name) false)
    else (true, { p.mark ("&" ++ name) false with begun := n.id :: p.begun })

/-- Writes the tag of a node where its shape does not tell it. -/
def writeTag (n : Node) (p : Printing) : Printing :=
  match n with
  | .scalar _ .binary _ => p.mark "!!binary" false
  | .mapping _ .set _ => p.mark "!!set" false
  | _ => p

/-- Writes an empty collection. -/
def writeEmpty (opening closing : String) (p : Printing) : Printing :=
  p.update fun page => (page.mark opening false).close closing

mutual
/-- Writes a node at a spot. -/
def writeNode (t : Setting) : Node → Spot → Printing → Printing
  | n@(.scalar _ tag s), spot, p =>
    let (whole, p) := writeAnchor t n p
    if whole then
      let p := writeTag n p
      p.update fun page =>
        writeScalar page t.anyScript ((spot.indent.map (· + 2)).getD 2) (!spot.isKey)
          (scalarStyle t.anyScript spot.isKey tag s) s
    else p
  | n@(.sequence _ _ ns), spot, p =>
    let (whole, p) := writeAnchor t n p
    if whole then
      let p := writeTag n p
      if ns.isEmpty then writeEmpty "[" "]" p
      else
        let sameColumn := spot.inMapping && !p.page.atMargin
        writeItems t ns (if sameColumn then spot.indent.getD 0 else deeper spot.indent) p
    else p
  | n@(.mapping _ _ es), spot, p =>
    let (whole, p) := writeAnchor t n p
    if whole then
      let p := writeTag n p
      if es.isEmpty then writeEmpty "\x7b" "\x7d" p
      else writeEntries t es (deeper spot.indent) p
    else p
termination_by structural n => n

/-- Writes the items of a sequence, each behind a hyphen. -/
def writeItems (t : Setting) : List Node → Nat → Printing → Printing
  | [], _, p => p
  | n :: ns, column, p =>
    let p := (p.indent column).mark "-" true
    writeItems t ns column (writeNode t n ⟨some column, false, false⟩ p)
termination_by structural ns => ns

/-- Writes the entries of a mapping. -/
def writeEntries (t : Setting) : List (Node × Node) → Nat → Printing → Printing
  | [], _, p => p
  | (k, v) :: es, column, p =>
    let p := p.indent column
    let p :=
      if isSimpleKey t p.begun k then
        let p := writeNode t k ⟨some column, true, true⟩ p
        writeNode t v ⟨some column, true, false⟩ (p.update (·.close ":"))
      else
        let p := writeNode t k ⟨some column, true, false⟩ (p.mark "?" true)
        writeNode t v ⟨some column, true, false⟩ ((p.indent column).mark ":" true)
    writeEntries t es column p
termination_by structural es => es
end

/-- A plain scalar on its own needs a mark behind it. -/
def endMark (style : Style) : Node → String
  | .scalar _ tag s => if scalarStyle style.anyScript false tag s = .plain then "...\n" else ""
  | _ => ""

/-- Writes a value as a YAML text. -/
def write (style : Style) (v : Value) : String :=
  let n := Node.ofValue style v
  let setting : Setting := ⟨style.anyScript, (Census.visit n {}).numbers⟩
  let p := writeNode setting n ⟨none, false, false⟩ {}
  (p.page.indent 0).text ++ endMark style n

end Formwright.Yaml
