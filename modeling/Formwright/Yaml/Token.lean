/-
  Tokens of a YAML text: marks of structure, properties of nodes, and scalars.
-/

namespace Formwright.Yaml

/-- What a token says. -/
inductive Mark where
  | versionDirective (major minor : Nat)
  | tagDirective (handle leading : String)
  | otherDirective
  | documentStart
  | documentEnd
  | blockSequence
  | blockMapping
  | blockEnd
  | flowSequence
  | flowSequenceEnd
  | flowMapping
  | flowMappingEnd
  | entry
  | comma
  | key
  | value
  | alias (name : String)
  | anchor (name : String)
  | tag (handle : Option String) (suffix : String)
  | scalar (content : String) (plain : Bool)
  deriving Repr, DecidableEq

/-- A token and where it starts. -/
structure Token where
  mark : Mark
  start : Nat
  deriving Repr, DecidableEq

end Formwright.Yaml
