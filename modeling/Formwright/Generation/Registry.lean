import Formwright.Nintex.Generator
import Formwright.Sql.Generator
import Formwright.Text.Blank
import Formwright.Text.Lower

/-
  The generators by name. Names are taken without regard to case and to blanks around.
-/

namespace Formwright.Generator

/-- Every generator under its name. -/
def registry : List (String × Generator) :=
  (Sql.Dialect.all.map fun d => (d.name, Sql.generator d)) ++ [("nintex", Nintex.generator)]

/-- The names of all generators, ascending. -/
def available : List String := (registry.map (·.1)).mergeSort fun a b => !(b < a)

/-- The generator with a name. -/
def ofName? (name : String) : Option Generator :=
  (registry.find? fun e => e.1 == Text.lower (Text.strip name)).map (·.2)

/-- The generator that a value names. -/
def named (v : Value) : Except Fault Generator :=
  let found := match v with
    | .text s => ofName? s
    | _ => none
  match found with
  | some g => .ok g
  | none => .error (.unknownTarget v.display available)

end Formwright.Generator
