import Formwright.ControlType

/-
  Widgets of the Nintex target, and the data types of the variables behind them.
-/

namespace Formwright.Nintex

/-- The widget that shows a control of a type. -/
def widget : ControlType → String
  | .textField => "textbox"
  | .textArea | .richText => "multilinetext"
  | .number | .decimal => "number"
  | .currency => "currency"
  | .datePicker => "datetime"
  | .checkBox => "boolean"
  | .dropDown | .choice => "choice"
  | .peoplePicker => "people-picker-core"
  | .email => "email"
  | .fileUpload => "file-upload"
  | .signature => "signature"
  | .repeatingTable | .repeatingSection => "repeating-section"
  | .plainSection | .group => "group-control"
  | .label => "richtext-label"
  | .button => "button"
  | .image => "image"

/-- The data type of the variable of a control. -/
def variableType : ControlType → String
  | .checkBox => "boolean"
  | .number | .decimal | .currency => "number"
  | .fileUpload | .peoplePicker => "array"
  | .repeatingTable | .repeatingSection | .group => "object"
  | _ => "string"

end Formwright.Nintex
