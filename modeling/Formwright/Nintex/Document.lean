import Formwright.Form.Record
import Formwright.Nintex.Widget
import Formwright.Value.Display

/-
  The form definition document of the Nintex target: pages of rows of controls, variables for the
  controls that hold data, titles by language, and rules that show controls. Its parts become
  members of maps in a fixed order.
-/

namespace Formwright.Nintex

/-- A control of a page. -/
structure Control where
  id : String
  name : Value
  widget : String
  sourceType : Value
  label : Value
  isReadOnly : Value
  /-- Whether the control is required; absent without validation rules. -/
  isRequired : Option Value
  formula : Option String
  /-- The id of the control that this one lies in. -/
  parentId : Option String
  choices : List Form.Choice
  repeatingSection : Option Value
  /-- The id of the variable that holds the control's data. -/
  variableId : Option String

/-- A row of a page. Its number on the grid orders the rows and is not written. -/
structure Row where
  id : String
  number : Nat
  controls : List Control

structure Page where
  id : String
  name : Value
  rows : List Row

structure Variable where
  id : String
  name : Value
  dataType : String
  controlId : String

/-- A rule that shows controls under a condition, which nothing here evaluates. -/
structure Rule where
  id : String
  name : Value
  condition : Value
  field : Value
  value : Value
  targets : List String

structure Document where
  id : String
  name : Value
  description : Value
  layoutType : Value
  defaultLanguage : Value
  pages : List Page
  formVariables : List Variable
  /-- Titles of controls in the default language, by key. -/
  titles : List (String × Value)
  /-- The rules; absent without conditional logic. -/
  rules : Option (List Rule)

/-- A member that is left out when there is nothing to say. -/
def optionalMember (name : String) (v : Option Value) : List (String × Value) :=
  (v.map fun v => (name, v)).toList

def choiceValue (c : Form.Choice) : Value :=
  .record [("value", c.value), ("text", c.displayText), ("default", c.isDefault)]

namespace Control

/-- The properties of a control, as far as the switches let them through. -/
def propertiesValue (c : Control) : Value :=
  .record ([("readOnly", c.isReadOnly)] ++ optionalMember "required" c.isRequired ++
    optionalMember "formula" (c.formula.map .text))

/-- The choices of a control; without any there is no such member. -/
def choicesValue? (c : Control) : Option Value :=
  if c.choices.isEmpty then none else some (.ofList (c.choices.map choiceValue))

def toValue (c : Control) : Value :=
  .record ([
    ("id", .text c.id), ("name", c.name), ("widget", .text c.widget), ("sourceType", c.sourceType),
    ("label", c.label), ("properties", c.propertiesValue)] ++
    optionalMember "parentId" (c.parentId.map .text) ++
    optionalMember "options" c.choicesValue? ++
    optionalMember "repeatingSection" c.repeatingSection ++
    optionalMember "variableId" (c.variableId.map .text))

end Control

def Row.toValue (r : Row) : Value :=
  .record [("id", .text r.id), ("controls", .ofList (r.controls.map (·.toValue)))]

def Page.toValue (p : Page) : Value :=
  .record [("id", .text p.id), ("name", p.name), ("rows", .ofList (p.rows.map (·.toValue)))]

def Variable.toValue (v : Variable) : Value :=
  .record [("id", .text v.id), ("name", v.name), ("dataType", .text v.dataType), ("controlId", .text v.controlId)]

def Rule.toValue (r : Rule) : Value :=
  .record [
    ("id", .text r.id), ("name", r.name), ("action", .text "show"), ("condition", r.condition),
    ("field", r.field), ("value", r.value), ("targets", .ofTexts r.targets)]

namespace Document

/-- The titles, under the language they are in. -/
def titlesValue (d : Document) : Value := .map 0 [(d.defaultLanguage, .record d.titles)]

def toValue (d : Document) : Value :=
  .record ([
    ("id", .text d.id), ("name", d.name), ("description", d.description), ("version", .text "1.0"),
    ("settings", .record [("layoutType", d.layoutType), ("defaultLanguage", d.defaultLanguage)]),
    ("pages", .ofList (d.pages.map (·.toValue))),
    ("variables", .ofList (d.formVariables.map (·.toValue))),
    ("translations", d.titlesValue)] ++
    optionalMember "rules" (d.rules.map fun rs => .ofList (rs.map (·.toValue))))

/-- All rows, page after page. -/
def rows (d : Document) : List Row := d.pages.flatMap (·.rows)

/-- All controls, row after row. -/
def controls (d : Document) : List Control := d.rows.flatMap (·.controls)

end Document

end Formwright.Nintex
