import Formwright.Analysis.Basic
import Formwright.Json.Reader
import Formwright.Text.Lower
import Formwright.Value.Display
import Formwright.Yaml.Content

/-
  Reading analyses from documents. A field is found under its name in snake case, else in Pascal
  case. Null items of lists are left out, and a missing list is empty.
-/

namespace Formwright

/-- The Pascal spelling of a name in snake case. -/
def pascalChars : List Char → Bool → List Char
  | [], _ => []
  | c :: cs, atStart =>
    if c = '_' then pascalChars cs true
    else (if atStart then c.toUpper else c) :: pascalChars cs false

def pascal (name : String) : String := String.ofList (pascalChars name.toList true)

namespace Value

/-- The value under a name in either spelling, else a default. -/
def pickD (v : Value) (name : String) (default : Value) : Except Fault Value := do
  if ← v.contains name then v.require name else v.getD (pascal name) default

/-- The value under a name in either spelling, null if there is none. -/
def pick (v : Value) (name : String) : Except Fault Value := v.pickD name .null

/-- The items of a list that is given, nothing otherwise. -/
def itemsIfGiven (v : Value) : Except Fault (List Value) := if v.isGiven then v.elements else .ok []

/-- The items of a list field without the null ones. -/
def pickItems (v : Value) (name : String) : Except Fault (List Value) := do
  return (← (← v.pick name).itemsIfGiven).filter (!·.isNull)

/-- A list field with every item. -/
def pickAll (v : Value) (name : String) : Except Fault (List Value) := do
  (← v.pick name).itemsIfGiven

/-- Whether a field is given. -/
def pickFlag (v : Value) (name : String) : Except Fault Bool := do
  return (← v.pickD name (.bool false)).isGiven

/-- A field that counts as zero when it is not given. -/
def pickCount (v : Value) (name : String) : Except Fault Value := do
  return (← v.pickD name (.int 0)).orElse (.int 0)

end Value

namespace Severity

/-- The severity that a value names, letters of either case; all else is information. -/
def ofValue (v : Value) : Severity :=
  (all.find? fun s => Text.lower v.display == Text.lower s.name).getD info

end Severity

namespace Source

def Choice.read (v : Value) : Except Fault Choice := do
  return {
    value := ← v.pick "value"
    displayText := ← v.pick "display_text"
    isDefault := ← v.pickFlag "is_default"
    order := ← v.pickCount "order" }

/-- The properties of a control: a map, or pairs. -/
def readProperties (v : Value) : Except Fault (List (Value × Value)) := do
  let p ← v.pick "properties"
  if p.isGiven then p.asEntries else return []

/-- A control and the controls inside it, to a number of levels that the value cannot exceed. -/
def readControl : Nat → Value → Except Fault (Control × Forest Control)
  | 0, _ => .error .nestedTooDeeply
  | fuel + 1, v => do
    let name ← v.pick "name"
    let type ← v.pick "type"
    let label ← v.pick "label"
    let binding ← v.pick "binding"
    let gridPosition ← v.pick "grid_position"
    let inRepeatingSection ← v.pickFlag "is_in_repeating_section"
    let sectionName ← v.pick "repeating_section_name"
    let sectionBinding ← v.pick "repeating_section_binding"
    let properties ← readProperties v
    let children ← (← v.pickItems "controls").mapM (readControl fuel)
    let choices ← (← v.pickItems "data_options").mapM Choice.read
    return (⟨name, type, label, binding, gridPosition, inRepeatingSection, sectionName, sectionBinding,
      properties, choices⟩, .ofTrees (children.map some))

def Section.read (v : Value) : Except Fault Section := do
  return {
    name := ← v.pick "name"
    type := ← v.pick "type"
    ctrlId := ← v.pick "ctrl_id"
    startRow := ← v.pickCount "start_row"
    endRow := ← v.pickCount "end_row"
    controlIds := ← v.pickAll "control_ids" }

end Source

namespace Value

mutual
/-- How deep collections are nested in a value. -/
def depth : Value → Nat
  | list _ vs | tuple _ vs | set _ vs => depthAll vs + 1
  | map _ es => depthEntries es + 1
  | _ => 0
termination_by structural v => v

def depthAll : List Value → Nat
  | [] => 0
  | v :: vs => max (depth v) (depthAll vs)
termination_by structural vs => vs

def depthEntries : List (Value × Value) → Nat
  | [] => 0
  | (k, v) :: es => max (depth k) (max (depth v) (depthEntries es))
termination_by structural es => es
end

end Value

namespace Source

/-- A control with everything inside it. -/
def Control.read (v : Value) : Except Fault (Control × Forest Control) := readControl (v.depth + 1) v

def View.read (v : Value) : Except Fault View := do
  let name ← v.pick "view_name"
  let controls ← (← v.pickItems "controls").mapM Control.read
  let sections ← (← v.pickItems "sections").mapM Section.read
  return ⟨name, .ofTrees (controls.map some), sections⟩

def Column.read (v : Value) : Except Fault Column := do
  return {
    name := ← v.pick "column_name"
    type := ← v.pick "type"
    dataType := ← v.pick "data_type"
    displayName := ← v.pick "display_name"
    repeatingSection := ← v.pick "repeating_section"
    isRepeating := ← v.pickFlag "is_repeating"
    isConditional := ← v.pickFlag "is_conditional"
    conditionalOnField := ← v.pick "conditional_on_field"
    validValues := ← (← v.pickItems "valid_values").mapM Choice.read
    defaultValue := ← v.pick "default_value" }

def DynamicSection.read (v : Value) : Except Fault DynamicSection := do
  return {
    mode := ← v.pick "mode"
    ctrlId := ← v.pick "ctrl_id"
    caption := ← v.pick "caption"
    condition := ← v.pick "condition"
    conditionField := ← v.pick "condition_field"
    conditionValue := ← v.pick "condition_value"
    controls := ← v.pickAll "controls"
    isVisible := ← v.pickFlag "is_visible" }

def Metadata.read (v : Value) : Except Fault Metadata := do
  return {
    totalControls := ← v.pickCount "total_controls"
    totalSections := ← v.pickCount "total_sections"
    dynamicSections := ← v.pickCount "dynamic_section_count"
    repeatingSections := ← v.pickCount "repeating_section_count"
    conditionalFields := ← v.pickAll "conditional_fields" }

def Definition.read (v : Value) : Except Fault Definition := do
  let metadata ← v.pick "metadata"
  return {
    fileName := ← v.pick "file_name"
    views := ← (← v.pickItems "views").mapM View.read
    columns := ← (← v.pickItems "data").mapM Column.read
    dynamicSections := ← (← v.pickItems "dynamic_sections").mapM DynamicSection.read
    metadata := ← if metadata.isNull then pure none else some <$> Metadata.read metadata }

def Message.read (v : Value) : Except Fault Message := do
  return {
    severity := .ofValue (← v.pick "severity")
    message := (← v.pickD "message" (.text "")).orElse (.text "")
    details := ← v.pick "details"
    source := ← v.pick "source" }

end Source

namespace Analysis

/-- Reads an analysis from a document. -/
def read (v : Value) : Except Fault Analysis := do
  let formName ← v.pick "form_name"
  let formType ← v.pick "form_type"
  let analyzer ← v.pick "analyzer_used"
  let definition ← v.pick "form_definition"
  return {
    formName, formType, analyzer
    definition := ← if definition.isNull then pure none else some <$> Source.Definition.read definition
    messages := ← (← v.pickItems "messages").mapM Source.Message.read }

/-- Reads an analysis from a JSON text. -/
def ofJson (s : String) : Except Fault Analysis := do read (← Json.read s)

/-- Reads an analysis from a YAML text. -/
def ofYaml (s : String) : Except Fault Analysis := do read (← Yaml.read s)

end Analysis

end Formwright
