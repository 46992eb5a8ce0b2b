import Formwright.Text.Blank
import Formwright.Text.Lower
import Formwright.Value.Compare
import Formwright.Value.Display

/-
  Extension properties. They hold texts, truth values, numbers and null; anything else is kept as
  its text. The flags for read-only and required controls are settled here once.
-/

namespace Formwright.Form

/-- The value itself if it is simple, else its text. -/
def coerce : Value → Value
  | v@(.null) | v@(.bool _) | v@(.int _) | v@(.float _) | v@(.text _) => v
  | v => .text v.display

/-- Whether a value says that a flag is on: true, or the word in either case. -/
def asFlag : Value → Bool
  | .bool b => b
  | .text s => Text.lower (Text.strip s) == "true"
  | _ => false

/-- A raw flag and the settled flag made from it. -/
def flags : List (String × String) := [("ReadOnly", "IsReadOnly"), ("Required", "IsRequired")]

/-- Settles one flag: from the raw one if there is one, else from itself. -/
def settle (es : List (Value × Value)) (flag : String × String) : List (Value × Value) :=
  match Value.lookup es (.text flag.1), Value.lookup es (.text flag.2) with
  | some raw, _ => Value.put es (.text flag.2) (.bool (asFlag raw))
  | none, some own => Value.put es (.text flag.2) (.bool (asFlag own))
  | none, none => es

/-- The properties of a control: keys as texts, simple values, flags settled. Of equal keys the
first place and the last value stay. -/
def mapProperties (es : List (Value × Value)) : List (Value × Value) :=
  flags.foldl settle (es.foldl (fun acc e => Value.put acc (.text e.1.display) (coerce e.2)) [])

/-- A settled flag; an absent one is off. -/
def flag (es : List (Value × Value)) (name : String) : Bool :=
  ((Value.lookup es (.text name)).map (·.isGiven)).getD false

theorem coerce_coerce (v : Value) : coerce (coerce v) = coerce v := by
  cases v <;> rfl

end Formwright.Form
