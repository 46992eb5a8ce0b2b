import Formwright.Form.Record
import Formwright.Json.Reader
import Formwright.Json.Writer
import Formwright.Yaml.Content
import Formwright.Yaml.Printer

/-
  Forms as JSON and YAML texts. Equal forms have one text of each kind, as members and keys are
  sorted. A form that holds a date has a YAML text but no JSON text.
-/

namespace Formwright.Form

/-- The JSON text of a form. -/
def toJson (f : Form) : Except Fault String := Json.write .canonical f.toValue

/-- Reads a form from a JSON text. -/
def ofJson (s : String) : Except Fault Form := do ofValue (← Json.read s)

/-- The YAML text of a form. -/
def toYaml (f : Form) : String := Yaml.write .canonical f.toValue

/-- Reads a form from a YAML text. -/
def ofYaml (s : String) : Except Fault Form := do ofValue (← Yaml.read s)

end Formwright.Form
