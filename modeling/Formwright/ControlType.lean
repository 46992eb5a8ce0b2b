import Formwright.Text.Blank
import Formwright.Text.Lower
import Formwright.Value.Display

/-
  The closed set of control types, and the tokens of source forms that stand for them. Matching is
  without regard to case and to blanks around; every unknown token is a text field.
-/

namespace Formwright

/-- The types a canonical control or data column can have. -/
inductive ControlType where
  -- data entry
  | textField | textArea | richText | number | decimal | currency | datePicker | checkBox
  | dropDown | choice | peoplePicker | email | fileUpload | signature
  -- containers
  | repeatingTable | repeatingSection | plainSection | group
  -- presentation
  | label | button | image
  deriving Repr, DecidableEq, Inhabited

namespace ControlType

/-- Every control type. -/
def all : List ControlType :=
  [textField, textArea, richText, number, decimal, currency, datePicker, checkBox, dropDown, choice,
   peoplePicker, email, fileUpload, signature, repeatingTable, repeatingSection, plainSection, group,
   label, button, image]

/-- The canonical name of a type. -/
def name : ControlType → String
  | textField => "TextField"
  | textArea => "TextArea"
  | richText => "RichText"
  | number => "Number"
  | decimal => "Decimal"
  | currency => "Currency"
  | datePicker => "DatePicker"
  | checkBox => "CheckBox"
  | dropDown => "DropDown"
  | choice => "Choice"
  | peoplePicker => "PeoplePicker"
  | email => "Email"
  | fileUpload => "FileUpload"
  | signature => "Signature"
  | repeatingTable => "RepeatingTable"
  | repeatingSection => "RepeatingSection"
  | plainSection => "Section"
  | group => "Group"
  | label => "Label"
  | button => "Button"
  | image => "Image"

/-- Controls that hold other controls. -/
def isContainer : ControlType → Bool
  | repeatingTable | repeatingSection | plainSection | group => true
  | _ => false

/-- Containers whose content occurs any number of times. -/
def isRepeating : ControlType → Bool
  | repeatingTable | repeatingSection => true
  | _ => false

/-- Controls that hold no user data. -/
def isPresentation : ControlType → Bool
  | label | button | image => true
  | _ => false

/-- Controls with a value of their own: neither presentation nor plain layout. -/
def isDataBearing (t : ControlType) : Bool := !t.isPresentation && t != plainSection

/-- The type of a data type token in lower case. -/
def ofDataToken? : String → Option ControlType
  | "string" | "text" | "hyperlink" | "url" => some textField
  | "int" | "integer" | "wholenumber" => some number
  | "decimal" | "float" | "double" => some decimal
  | "date" | "datetime" => some datePicker
  | "boolean" | "bool" => some checkBox
  | "choice" => some dropDown
  | "multichoice" => some choice
  | "user" => some peoplePicker
  | "email" => some email
  | "file" | "attachment" => some fileUpload
  | _ => none

/-- The type whose canonical name is a text, letters of either case. -/
def ofLowerName? (token : String) : Option ControlType :=
  all.find? fun t => Text.lower t.name == token

/-- A token made ready for comparison. -/
def plain (token : String) : String := Text.lower (Text.strip token)

/-- The type of a data type token. -/
def ofDataToken (token : String) : ControlType := (ofDataToken? (plain token)).getD textField

/-- The type of a control type token: canonical names come first, then data types. -/
def ofControlToken (token : String) : ControlType :=
  (ofLowerName? (plain token)).getD (ofDataToken token)

/-- Applies a reading of tokens to a value; bytes are never a known token. -/
def ofValue (read : String → ControlType) (v : Value) : Except Fault ControlType :=
  if v.isGiven then
    match v with
    | .text s => .ok (read s)
    | .bytes _ => .ok textField
    | v => .error (.noMember v.kind "strip")
  else .ok textField

/-- The type with a canonical name, if the value is one. -/
def named? : Value → Option ControlType
  | .text s => all.find? fun t => t.name == s
  | _ => none

/-- The type whose canonical name a value has to be. -/
def named (v : Value) : Except Fault ControlType :=
  match named? v with
  | some t => .ok t
  | none => .error (.badValue (.controlType v.shown))

theorem mem_all (t : ControlType) : t ∈ all := by
  cases t <;> decide

theorem name_injective {a b : ControlType} (h : a.name = b.name) : a = b := by
  cases a <;> cases b <;> first | rfl | exact absurd h (by decide)

theorem named?_name (t : ControlType) : named? (.text t.name) = some t := by
  cases t <;> decide +kernel

theorem isContainer_of_isRepeating {t : ControlType} (h : t.isRepeating = true) : t.isContainer = true := by
  cases t <;> simp_all [isRepeating, isContainer]

end ControlType

end Formwright
