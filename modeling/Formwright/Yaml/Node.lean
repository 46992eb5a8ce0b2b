import Formwright.Yaml.Implicit
import Formwright.Yaml.Tokens

/-
  The document of a YAML text: a tree of nodes with their tags. An alias stands for a copy of the
  node it names, with the same identity. Nodes that are not written are empty scalars.
-/

namespace Formwright.Yaml

/-- A node of a document. The identity tells occurrences of one node from equal ones. -/
inductive Node where
  | scalar (id : Nat) (tag : Tag) (content : String)
  | sequence (id : Nat) (tag : Tag) (items : List Node)
  | mapping (id : Nat) (tag : Tag) (entries : List (Node × Node))

/-- What an anchor names: a node, or one that is still being read. -/
abbrev Anchors := List (String × Option Node)

/-- Handles of tags and what they stand for. -/
abbrev Handles := List (String × String)

/-- The handles that need no directive. -/
def defaultHandles : Handles := [("!", "!"), ("!!", standardTags)]

/-- Tokens that are left, and anchors known so far. -/
structure Composer where
  tokens : List Token
  anchors : Anchors

namespace Composer

def head? (s : Composer) : Option Mark := s.tokens.head?.map (·.mark)

/-- The identity of a scalar that starts at the next token; collections have odd ones. -/
def scalarId (s : Composer) : Nat := s.tokens.head?.elim 0 fun t => 2 * t.start + 2

/-- The identity of a collection that starts at the next token. -/
def collectionId (s : Composer) : Nat := s.tokens.head?.elim 0 fun t => 2 * t.start + 1

def drop (s : Composer) : Composer := { s with tokens := s.tokens.tail }

/-- Sets what an anchor names. -/
def bind (s : Composer) (anchor : Option String) (n : Option Node) : Composer :=
  match anchor with
  | some a => { s with anchors := (a, n) :: s.anchors.filter (·.1 != a) }
  | none => s

end Composer

/-- The empty scalar, which is null. -/
def Node.empty : Node := .scalar 0 .null ""

/-- The properties in front of a node: an anchor and a tag, in either order. -/
structure Properties where
  anchor : Option String
  tag : Option (Option String × String)

def properties (s : Composer) : Properties × Composer :=
  match s.tokens with
  | ⟨.anchor a, _⟩ :: ⟨.tag h t, _⟩ :: rest => (⟨some a, some (h, t)⟩, { s with tokens := rest })
  | ⟨.tag h t, _⟩ :: ⟨.anchor a, _⟩ :: rest => (⟨some a, some (h, t)⟩, { s with tokens := rest })
  | ⟨.anchor a, _⟩ :: rest => (⟨some a, none⟩, { s with tokens := rest })
  | ⟨.tag h t, _⟩ :: rest => (⟨none, some (h, t)⟩, { s with tokens := rest })
  | _ => (⟨none, none⟩, s)

/-- The full name of a tag; none for a node without one, or with the bare mark that asks for the
tag of its shape. -/
def fullTag (handles : Handles) : Option (Option String × String) → Except Fault (Option String)
  | none => .ok none
  | some (none, name) => .ok (some name)
  | some (some h, name) =>
    match handles.find? (·.1 == h) with
    | some p => .ok (some (p.2 ++ name))
    | none => .error .yaml

/-- Whether a tag leaves the choice to the shape of the node. -/
def leavesChoice (tag : Option String) : Bool := tag == none || tag == some "!"

/-- The tag of a scalar: its own, else the one of its shape if it is plain. -/
def scalarTag (tag : Option String) (content : String) (plain : Bool) : Tag :=
  match tag with
  | some "!" => implicitTag content
  | some name => .named name
  | none => if plain then implicitTag content else .str

/-- The tag of a collection. -/
def collectionTag (tag : Option String) (default : Tag) : Tag :=
  if leavesChoice tag then default else (tag.map Tag.named).getD default

/-- Where a node stands: inside block or flow collections, and whether the hyphens of a sequence
may stand at its parent's column. -/
inductive Place where
  | block | blockOrEntries | flow
  deriving DecidableEq

mutual
/-- A node with its properties. -/
def node (handles : Handles) (place : Place) : Nat → Composer → Except Fault (Node × Composer)
  | 0, _ => .error .yaml
  | fuel + 1, s =>
    match s.head? with
    | some (.alias name) =>
      match s.anchors.find? (·.1 == name) with
      | some (_, some n) => .ok (n, s.drop)
      | _ => .error .yaml
    | _ => do
      let (p, s) := properties s
      let tag ← fullTag handles p.tag
      if p.anchor.any fun a => s.anchors.any (·.1 == a) then throw .yaml
      let (n, s) ← content handles place fuel tag (p.anchor.isSome || p.tag.isSome) (s.bind p.anchor none)
      return (n, s.bind p.anchor (some n))

/-- The content of a node behind its properties. -/
def content (handles : Handles) (place : Place) : Nat → Option String → Bool → Composer → Except Fault (Node × Composer)
  | 0, _, _, _ => .error .yaml
  | fuel + 1, tag, hasProperties, s =>
    let id := s.collectionId
    match s.head? with
    | some (.scalar text plain) => .ok (.scalar s.scalarId (scalarTag tag text plain) text, s.drop)
    | some .flowSequence => do
      let (ns, s) ← flowItems handles fuel true s.drop
      return (.sequence id (collectionTag tag .seq) ns, s)
    | some .flowMapping => do
      let (es, s) ← flowEntries handles fuel true s.drop
      return (.mapping id (collectionTag tag .map) es, s)
    | some .blockSequence =>
      if place = .flow then .error .yaml
      else do
        let (ns, s) ← blockItems handles fuel s.drop
        return (.sequence id (collectionTag tag .seq) ns, s)
    | some .blockMapping =>
      if place = .flow then .error .yaml
      else do
        let (es, s) ← blockEntries handles fuel s.drop
        return (.mapping id (collectionTag tag .map) es, s)
    | some .entry =>
      if place = .blockOrEntries then do
        let (ns, s) ← bareItems handles fuel s
        return (.sequence id (collectionTag tag .seq) ns, s)
      else if hasProperties then .ok (.scalar s.scalarId (scalarTag tag "" true) "", s)
      else .error .yaml
    | _ =>
      if hasProperties then .ok (.scalar s.scalarId (scalarTag tag "" true) "", s) else .error .yaml

/-- A node unless one of some marks, or the end of the text, follows. -/
def nodeUnless (handles : Handles) (place : Place) (ends : Option Mark → Bool) : Nat → Composer → Except Fault (Node × Composer)
  | 0, _ => .error .yaml
  | fuel + 1, s => if ends s.head? then .ok (.empty, s) else node handles place fuel s

/-- The items of a block sequence up to its end. -/
def blockItems (handles : Handles) : Nat → Composer → Except Fault (List Node × Composer)
  | 0, _ => .error .yaml
  | fuel + 1, s =>
    match s.head? with
    | some .entry => do
      let (n, s) ← nodeUnless handles .block (fun m => m == some .entry || m == some .blockEnd) fuel s.drop
      let (ns, s) ← blockItems handles fuel s
      return (n :: ns, s)
    | some .blockEnd => .ok ([], s.drop)
    | _ => .error .yaml

/-- The items of a sequence whose hyphens stand at its parent's column; nothing marks its end. -/
def bareItems (handles : Handles) : Nat → Composer → Except Fault (List Node × Composer)
  | 0, _ => .error .yaml
  | fuel + 1, s =>
    match s.head? with
    | some .entry => do
      let (n, s) ← nodeUnless handles .block
        (fun m => m == some .entry || m == some .key || m == some .value || m == some .blockEnd) fuel s.drop
      let (ns, s) ← bareItems handles fuel s
      return (n :: ns, s)
    | _ => .ok ([], s)

/-- The entries of a block mapping up to its end. -/
def blockEntries (handles : Handles) : Nat → Composer → Except Fault (List (Node × Node) × Composer)
  | 0, _ => .error .yaml
  | fuel + 1, s =>
    let ends (m : Option Mark) : Bool := m == some .key || m == some .value || m == some .blockEnd
    match s.head? with
    | some .key => do
      let (k, s) ← nodeUnless handles .blockOrEntries ends fuel s.drop
      let (v, s) ←
        if s.head? == some .value then nodeUnless handles .blockOrEntries ends fuel s.drop
        else pure (.empty, s)
      let (es, s) ← blockEntries handles fuel s
      return ((k, v) :: es, s)
    | some .blockEnd => .ok ([], s.drop)
    | _ => .error .yaml

/-- The items of a flow sequence up to its bracket. A key among them is a mapping of one entry. -/
def flowItems (handles : Handles) : Nat → Bool → Composer → Except Fault (List Node × Composer)
  | 0, _, _ => .error .yaml
  | fuel + 1, first, s =>
    if s.head? == some .flowSequenceEnd then .ok ([], s.drop)
    else if !first && s.head? != some .comma then .error .yaml
    else
      let s := if first then s else s.drop
      if s.head? == some .flowSequenceEnd then .ok ([], s.drop)
      else do
        let (n, s) ←
          if s.head? == some .key then do
            let id := s.collectionId
            let ends (m : Option Mark) : Bool := m == some .comma || m == some .flowSequenceEnd
            let (k, s) ← nodeUnless handles .flow (fun m => m == some .value || ends m) fuel s.drop
            let (v, s) ←
              if s.head? == some .value then nodeUnless handles .flow ends fuel s.drop else pure (.empty, s)
            pure (.mapping id .map [(k, v)], s)
          else node handles .flow fuel s
        let (ns, s) ← flowItems handles fuel false s
        return (n :: ns, s)

/-- The entries of a flow mapping up to its brace. A node without a key mark is a key without value. -/
def flowEntries (handles : Handles) : Nat → Bool → Composer → Except Fault (List (Node × Node) × Composer)
  | 0, _, _ => .error .yaml
  | fuel + 1, first, s =>
    if s.head? == some .flowMappingEnd then .ok ([], s.drop)
    else if !first && s.head? != some .comma then .error .yaml
    else
      let s := if first then s else s.drop
      if s.head? == some .flowMappingEnd then .ok ([], s.drop)
      else do
        let ends (m : Option Mark) : Bool := m == some .comma || m == some .flowMappingEnd
        let (e, s) ←
          if s.head? == some .key then do
            let (k, s) ← nodeUnless handles .flow (fun m => m == some .value || ends m) fuel s.drop
            let (v, s) ←
              if s.head? == some .value then nodeUnless handles .flow ends fuel s.drop else pure (.empty, s)
            pure ((k, v), s)
          else do
            let (k, s) ← node handles .flow fuel s
            pure ((k, .empty), s)
        let (es, s) ← flowEntries handles fuel false s
        return (e :: es, s)
end

/-! ## Documents -/

/-- The directives in front of a document: at most one version, which has to be 1, and handles. -/
def directives : List Token → Bool → Handles → Except Fault (Handles × List Token)
  | ⟨.versionDirective major _, _⟩ :: rest, seen, hs =>
    if seen || major != 1 then .error .yaml else directives rest true hs
  | ⟨.tagDirective h lead, _⟩ :: rest, seen, hs =>
    if hs.any (·.1 == h) then .error .yaml else directives rest seen ((h, lead) :: hs)
  | ⟨.otherDirective, _⟩ :: rest, seen, hs => directives rest seen hs
  | rest, _, hs => .ok (hs ++ defaultHandles.filter fun p => !hs.any (·.1 == p.1), rest)

def isDirective : Mark → Bool
  | .versionDirective .. | .tagDirective .. | .otherDirective => true
  | _ => false

/-- Past marks that end documents. -/
def dropEnds (ts : List Token) : List Token := ts.dropWhile fun t => t.mark == .documentEnd

/-- The content of a document behind its mark, which may be missing. -/
def documentContent (handles : Handles) (ts : List Token) : Except Fault (Node × Composer) :=
  let ends (m : Option Mark) : Bool :=
    match m with
    | none => true
    | some m => isDirective m || m == .documentStart || m == .documentEnd
  nodeUnless handles .block ends (4 * ts.length + 4) ⟨ts, []⟩

/-- The one document of a text; none when the text holds nothing. -/
def document (ts : List Token) : Except Fault (Option Node) := do
  match ts with
  | [] => return none
  | t :: _ =>
    let (n, rest) ←
      if isDirective t.mark || t.mark == .documentStart then do
        let (handles, rest) ← directives ts false []
        match rest with
        | ⟨.documentStart, _⟩ :: body => do
          let (n, s) ← documentContent handles body
          pure (n, s.tokens)
        | _ => .error .yaml
      else do
        let (n, s) ← node defaultHandles .block (4 * ts.length + 4) ⟨ts, []⟩
        pure (n, s.tokens)
    -- only marks that end the document may follow
    if (dropEnds rest).isEmpty then return some n else throw .yaml

end Formwright.Yaml
