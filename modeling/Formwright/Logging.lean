import Formwright.Fault
import Formwright.Path
import Formwright.Text.Quoted
import Formwright.Text.Upper

/-
  Setting up the log of a program: the level named by a text, the places that records go to, and
  the record that says what was set up. Records below the level are dropped.
-/

namespace Formwright.Logging

/-- The names of levels. -/
def levels : List (String × Nat) :=
  [("CRITICAL", 50), ("FATAL", 50), ("ERROR", 40), ("WARNING", 30), ("WARN", 30), ("INFO", 20),
   ("DEBUG", 10), ("NOTSET", 0)]

/-- The level of ordinary information. -/
def info : Nat := 20

/-- The name of the default level. -/
def defaultLevel : String := "INFO"

/-- The form that records have when nothing else is said; its name is no name of a level. -/
def basicFormat : String := "%(levelname)s:%(name)s:%(message)s"

/-- The level named by a text, letters of either case. Two other names are known to the log, and
neither stands for a level. -/
def levelNamed (name : String) : Except Fault Nat :=
  let upper := Text.upper name
  match levels.find? fun l => l.1 == upper with
  | some l => .ok l.2
  | none =>
    if upper == "BASIC_FORMAT" then .error (.badValue (.level (Text.quoted basicFormat)))
    else if upper == "_STYLES" then .error (.misuse .levelFrom)
    else .error (.noMember .map upper)

/-- A log that has been set up. -/
structure Setup where
  level : Nat
  /-- Whether records go to a file besides the standard output. -/
  toFile : Bool
  /-- The records written by setting up, without their times. -/
  records : List String
  deriving Repr, DecidableEq

/-- The number of places that records go to. -/
def Setup.handlers (s : Setup) : Nat := if s.toFile then 2 else 1

/-- The record that tells the level. -/
def levelRecord (name : String) : String :=
  "cfm.logging_config - INFO - Logging configured at " ++ name ++ " level"

/-- Whether a path below a folder names a folder itself: it is empty, or ends by going up. -/
def namesFolder (components : List String) : Bool :=
  let last := Path.name ("/".intercalate components).toList
  last.isEmpty || last == ['.', '.']

/-- Sets up the log. A file may be named by the components of its path below a folder. -/
def setUp (name : String) (file : Option (List String)) : Except Fault Setup := do
  if file.any namesFolder then throw .folder
  let level ← levelNamed name
  return { level, toFile := file.isSome, records := if level ≤ info then [levelRecord name] else [] }

end Formwright.Logging
