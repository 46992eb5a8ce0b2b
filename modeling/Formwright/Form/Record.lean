import Formwright.Form.Basic
import Formwright.Value.Access

/-
  Forms as documents: every part is a map of its fields, so that reading back what was written
  gives the same form. A field that is missing has a default, except names, ids and the values of
  choices.
-/

namespace Formwright.Form

def Choice.toValue (c : Choice) : Value :=
  .record [("value", c.value), ("display_text", c.displayText), ("is_default", c.isDefault), ("order", c.order)]

def Choice.ofValue (v : Value) : Except Fault Choice := do
  return {
    value := ← v.require "value"
    displayText := ← v.getD "display_text" (.text "")
    isDefault := ← v.getD "is_default" (.bool false)
    order := ← v.getD "order" (.int 0) }

def SectionLink.toValue (l : SectionLink) : Value := .record [("name", l.name), ("binding", l.binding)]

def SectionLink.ofValue (v : Value) : Except Fault SectionLink := do
  return ⟨← v.get "name", ← v.get "binding"⟩

/-- The parts of a list field; a missing field is an empty list. -/
def parts {α : Type} (v : Value) (name : String) (read : Value → Except Fault α) : Except Fault (List α) := do
  (← (← v.getD name (.ofList [])).elements).mapM read

/-- The section that a value links to; null links to none. -/
def SectionLink.ofOptional : Value → Except Fault (Option SectionLink)
  | .null => .ok none
  | v => some <$> ofValue v

def Control.toValue (c : Control) : Value :=
  .record [
    ("name", c.name), ("type", .text c.type.name), ("source_type", c.sourceType), ("label", c.label),
    ("binding", c.binding), ("grid_position", c.gridPosition),
    ("data_options", .ofList (c.choices.map (·.toValue))),
    ("repeating_section", c.sectionLink.elim .null (·.toValue)),
    ("parent_index", c.parentIndex), ("depth", c.depth), ("child_count", c.childCount),
    ("properties", .map 0 c.properties), ("is_read_only", c.isReadOnly), ("is_required", c.isRequired)]

def Control.ofValue (v : Value) : Except Fault Control := do
  let link ← v.get "repeating_section"
  return {
    name := ← v.require "name"
    type := ← ControlType.named (← v.getD "type" (.text ControlType.textField.name))
    sourceType := ← v.getD "source_type" (.text "")
    label := ← v.get "label"
    binding := ← v.get "binding"
    gridPosition := ← v.get "grid_position"
    choices := ← parts v "data_options" Choice.ofValue
    sectionLink := ← SectionLink.ofOptional link
    parentIndex := ← v.get "parent_index"
    depth := ← v.getD "depth" (.int 0)
    childCount := ← v.getD "child_count" (.int 0)
    properties := ← (← v.getD "properties" (.map 0 [])).asEntries
    isReadOnly := ← v.getD "is_read_only" (.bool false)
    isRequired := ← v.getD "is_required" (.bool false) }

def Section.toValue (s : Section) : Value :=
  .record [
    ("name", s.name), ("type", s.type), ("owner_control_id", s.ownerControlId), ("start_row", s.startRow),
    ("end_row", s.endRow), ("control_count", s.controlCount)]

def Section.ofValue (v : Value) : Except Fault Section := do
  return {
    name := ← v.require "name"
    type := ← v.getD "type" (.text "")
    ownerControlId := ← v.get "owner_control_id"
    startRow := ← v.getD "start_row" (.int 0)
    endRow := ← v.getD "end_row" (.int 0)
    controlCount := ← v.getD "control_count" (.int 0) }

def View.toValue (w : View) : Value :=
  .record [
    ("name", w.name), ("controls", .ofList (w.controls.map (·.toValue))),
    ("sections", .ofList (w.sections.map (·.toValue)))]

def View.ofValue (v : Value) : Except Fault View := do
  return {
    name := ← v.require "name"
    controls := ← parts v "controls" Control.ofValue
    sections := ← parts v "sections" Section.ofValue }

def Column.toValue (c : Column) : Value :=
  .record [
    ("name", c.name), ("display_name", c.displayName), ("type", .text c.type.name),
    ("valid_values", .ofList (c.validValues.map (·.toValue))), ("is_repeating", c.isRepeating),
    ("repeating_section", c.repeatingSection), ("is_conditional", c.isConditional),
    ("conditional_on_field", c.conditionalOnField), ("default_value", c.defaultValue)]

def Column.ofValue (v : Value) : Except Fault Column := do
  return {
    name := ← v.require "name"
    displayName := ← v.getD "display_name" (.text "")
    type := ← ControlType.named (← v.getD "type" (.text ControlType.textField.name))
    validValues := ← parts v "valid_values" Choice.ofValue
    isRepeating := ← v.getD "is_repeating" (.bool false)
    repeatingSection := ← v.get "repeating_section"
    isConditional := ← v.getD "is_conditional" (.bool false)
    conditionalOnField := ← v.get "conditional_on_field"
    defaultValue := ← v.get "default_value" }

def DynamicSection.toValue (s : DynamicSection) : Value :=
  .record [
    ("name", s.name), ("mode", s.mode), ("ctrl_id", s.ctrlId), ("caption", s.caption),
    ("condition", s.condition), ("condition_field", s.conditionField), ("condition_value", s.conditionValue),
    ("controls", .ofList s.controls), ("is_visible", s.isVisible)]

def DynamicSection.ofValue (v : Value) : Except Fault DynamicSection := do
  return {
    name := ← v.getD "name" (.text "")
    mode := ← v.getD "mode" (.text "")
    ctrlId := ← v.get "ctrl_id"
    caption := ← v.get "caption"
    condition := ← v.getD "condition" (.text "")
    conditionField := ← v.getD "condition_field" (.text "")
    conditionValue := ← v.getD "condition_value" (.text "")
    controls := ← (← v.getD "controls" (.ofList [])).elements
    isVisible := ← v.getD "is_visible" (.bool false) }

def Metadata.toValue (m : Metadata) : Value :=
  .record [
    ("total_controls", m.totalControls), ("total_sections", m.totalSections),
    ("dynamic_section_count", m.dynamicSections), ("repeating_section_count", m.repeatingSections),
    ("conditional_fields", .ofList m.conditionalFields)]

def Metadata.ofValue : Value → Except Fault Metadata
  | .null => .ok {}
  | v => do
    return {
      totalControls := ← v.getD "total_controls" (.int 0)
      totalSections := ← v.getD "total_sections" (.int 0)
      dynamicSections := ← v.getD "dynamic_section_count" (.int 0)
      repeatingSections := ← v.getD "repeating_section_count" (.int 0)
      conditionalFields := ← (← v.getD "conditional_fields" (.ofList [])).elements }

/-- The document of a form. -/
def toValue (f : Form) : Value :=
  .record [
    ("id", f.id), ("name", f.name), ("form_type", f.formType),
    ("views", .ofList (f.views.map (·.toValue))),
    ("data_columns", .ofList (f.columns.map (·.toValue))),
    ("dynamic_sections", .ofList (f.dynamicSections.map (·.toValue))),
    ("metadata", f.metadata.toValue), ("source_warnings", .ofList f.sourceWarnings)]

/-- Reads a form from its document; the name is the id unless it is given. -/
def ofValue (v : Value) : Except Fault Form := do
  let id ← v.require "id"
  return {
    id
    name := ← v.getD "name" id
    formType := ← v.get "form_type"
    views := ← parts v "views" View.ofValue
    columns := ← parts v "data_columns" Column.ofValue
    dynamicSections := ← parts v "dynamic_sections" DynamicSection.ofValue
    metadata := ← Metadata.ofValue (← v.get "metadata")
    sourceWarnings := ← (← v.getD "source_warnings" (.ofList [])).elements }

/-- Equality of forms, field by field. -/
def same (a b : Form) : Bool := Value.same a.toValue b.toValue

end Formwright.Form
