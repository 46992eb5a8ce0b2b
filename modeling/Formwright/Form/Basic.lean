import Formwright.ControlType

/-
  Canonical forms: views of flattened controls, the data schema, conditional regions and counts.
  Fields that are only passed on hold whatever value the source gave them.
-/

namespace Formwright

namespace Form

/-- One choice of a control, or one valid value of a column. -/
structure Choice where
  value : Value
  displayText : Value
  isDefault : Value
  order : Value

/-- The repeating section that a control lies in, by name. -/
structure SectionLink where
  name : Value
  binding : Value

/-- A control of a flattened view. -/
structure Control where
  name : Value
  type : ControlType
  /-- The token that the source gave as type. -/
  sourceType : Value
  label : Value
  binding : Value
  gridPosition : Value
  choices : List Choice
  sectionLink : Option SectionLink
  /-- The place of the container in the view; null for a control outside of all. -/
  parentIndex : Value
  depth : Value
  /-- How many controls behind this one lie inside it. -/
  childCount : Value
  properties : List (Value × Value)
  isReadOnly : Value
  isRequired : Value

/-- What the source says about a section. -/
structure Section where
  name : Value
  type : Value
  ownerControlId : Value
  startRow : Value
  endRow : Value
  controlCount : Value

/-- A view: controls in pre-order, each container before what it holds. -/
structure View where
  name : Value
  controls : List Control
  sections : List Section

/-- A field of the data schema. -/
structure Column where
  name : Value
  displayName : Value
  type : ControlType
  validValues : List Choice
  isRepeating : Value
  repeatingSection : Value
  isConditional : Value
  conditionalOnField : Value
  defaultValue : Value

/-- A region whose visibility hangs on a condition. The condition is never evaluated. -/
structure DynamicSection where
  name : Value
  mode : Value
  ctrlId : Value
  caption : Value
  condition : Value
  conditionField : Value
  conditionValue : Value
  controls : List Value
  isVisible : Value

/-- Counts as the source reported them; they need not fit the views. -/
structure Metadata where
  totalControls : Value := .int 0
  totalSections : Value := .int 0
  dynamicSections : Value := .int 0
  repeatingSections : Value := .int 0
  conditionalFields : List Value := []

end Form

/-- A canonical form. -/
structure Form where
  id : Value
  name : Value
  formType : Value
  views : List Form.View
  columns : List Form.Column
  dynamicSections : List Form.DynamicSection
  metadata : Form.Metadata
  sourceWarnings : List Value

namespace Form

def Control.isContainer (c : Control) : Bool := c.type.isContainer

def Control.isRepeatingContainer (c : Control) : Bool := c.type.isRepeating

/-- Whether the source placed the control in a repeating section. -/
def Control.inRepeatingSection (c : Control) : Bool := c.sectionLink.isSome

/-- The controls of every view, one view after the other. -/
def allControls (f : Form) : List Control := f.views.flatMap (·.controls)

/-- The number of controls in all views. -/
def totalControls (f : Form) : Nat := f.views.foldr (fun v n => v.controls.length + n) 0

theorem length_allControls (f : Form) : f.allControls.length = f.totalControls := by
  unfold allControls totalControls
  induction f.views with
  | nil => rfl
  | cons v vs ih => simp [ih]

end Form

end Formwright
