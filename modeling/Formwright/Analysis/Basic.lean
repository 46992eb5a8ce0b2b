import Formwright.Forest.Basic
import Formwright.Value.Basic

/-
  What an analyzer reports about one source form. Almost everything may be missing, and the values
  of fields are taken as they come.
-/

namespace Formwright

/-- How grave a message is. -/
inductive Severity where
  | info | warning | error
  deriving Repr, DecidableEq

namespace Severity

def all : List Severity := [info, warning, error]

def name : Severity → String
  | info => "Info"
  | warning => "Warning"
  | error => "Error"

end Severity

namespace Source

/-- A message of the analyzer. -/
structure Message where
  severity : Severity
  message : Value
  details : Value := .null
  source : Value := .null

/-- One choice of a control, or one valid value of a column. -/
structure Choice where
  value : Value := .null
  displayText : Value := .null
  isDefault : Bool := false
  order : Value := .int 0

/-- A control without the controls inside it. -/
structure Control where
  name : Value := .null
  type : Value := .null
  label : Value := .null
  binding : Value := .null
  gridPosition : Value := .null
  /-- The one thing that decides whether the control is linked to a repeating section. -/
  inRepeatingSection : Bool := false
  sectionName : Value := .null
  sectionBinding : Value := .null
  properties : List (Value × Value) := []
  choices : List Choice := []

/-- A section of a view. -/
structure Section where
  name : Value := .null
  type : Value := .null
  ctrlId : Value := .null
  startRow : Value := .int 0
  endRow : Value := .int 0
  controlIds : List Value := []

/-- A view with its nested controls. -/
structure View where
  name : Value := .null
  controls : Forest Control := .nil
  sections : List Section := []

/-- A data field. Its type token may stand in either of two places, of which the first wins. -/
structure Column where
  name : Value := .null
  type : Value := .null
  dataType : Value := .null
  displayName : Value := .null
  repeatingSection : Value := .null
  isRepeating : Bool := false
  isConditional : Bool := false
  conditionalOnField : Value := .null
  validValues : List Choice := []
  defaultValue : Value := .null

/-- A region whose visibility depends on a condition. -/
structure DynamicSection where
  mode : Value := .null
  ctrlId : Value := .null
  caption : Value := .null
  condition : Value := .null
  conditionField : Value := .null
  conditionValue : Value := .null
  controls : List Value := []
  isVisible : Bool := false

/-- Counts that the analyzer took. -/
structure Metadata where
  totalControls : Value := .int 0
  totalSections : Value := .int 0
  dynamicSections : Value := .int 0
  repeatingSections : Value := .int 0
  conditionalFields : List Value := []

/-- The definition of a form. -/
structure Definition where
  fileName : Value := .null
  views : List View := []
  columns : List Column := []
  dynamicSections : List DynamicSection := []
  metadata : Option Metadata := none

end Source

/-- The result of analyzing one form; the definition is missing when the analyzer failed. -/
structure Analysis where
  formName : Value := .null
  formType : Value := .null
  analyzer : Value := .null
  definition : Option Source.Definition := none
  messages : List Source.Message := []

/-- The texts of the warnings. -/
def Analysis.warnings (a : Analysis) : List Value :=
  (a.messages.filter (·.severity == .warning)).map (·.message)

end Formwright
