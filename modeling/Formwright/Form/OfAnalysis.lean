import Formwright.Analysis.Basic
import Formwright.Form.Names
import Formwright.Form.Properties
import Formwright.Forest.Graph
import Formwright.Form.Basic
import Formwright.Path

/-
  The canonical form of an analysis. Nested controls are flattened in pre-order, type tokens are
  read, missing fields get defaults, and everything else is copied. Mapping fails for a missing
  definition or missing views, and for controls that cannot be flattened.
-/

namespace Formwright.Form

/-- The name of a view that the source left unnamed. -/
def defaultViewName : String := "view1.xsl"

/-- The id of a form without file name and form name. -/
def defaultFormName : String := "UnknownForm"

def Choice.ofSource (c : Source.Choice) : Choice :=
  let value := c.value.orElse (.text "")
  let displayText := match c.displayText with
    | .null => value
    | v => v
  ⟨value, displayText, .bool c.isDefault, c.order.orElse (.int 0)⟩

def SectionLink.ofSource (c : Source.Control) : Option SectionLink :=
  if c.inRepeatingSection then some ⟨c.sectionName, c.sectionBinding⟩ else none

/-- A control from its place in the flattened view. -/
def Control.ofEntry (e : Entry Source.Control) (name : Value) : Except Fault Control := do
  let c := e.label
  let properties := mapProperties c.properties
  let type ← ControlType.ofValue .ofControlToken c.type
  return {
    name, type
    sourceType := c.type.orElse (.text "")
    label := c.label
    binding := c.binding
    gridPosition := c.gridPosition
    choices := c.choices.map .ofSource
    sectionLink := SectionLink.ofSource c
    parentIndex := e.parent.elim .null .count
    depth := .count e.depth
    childCount := .count e.descendants
    properties
    isReadOnly := .bool (flag properties "IsReadOnly")
    isRequired := .bool (flag properties "IsRequired") }

/-- The controls of a flattened forest, named. -/
def Control.ofEntries (es : List (Entry Source.Control)) : Except Fault (List Control) := do
  let names ← assignNames (es.map (·.label.name))
  (es.zip names).mapM fun p => Control.ofEntry p.1 p.2

/-- The canonical controls of nested ones. -/
def mapControls (f : Forest Source.Control) : Except Fault (List Control) :=
  if maxDepth < f.height then .error .nestedTooDeeply else Control.ofEntries f.flatten

/-- How a fault calls a control. -/
def calledName (c : Source.Control) : String := (c.name.orElse (.text "<unnamed>")).display

/-- The canonical controls of objects that may share children. -/
def mapGraph (g : Graph Source.Control) (roots : List Nat) : Except Fault (List Control) := do
  Control.ofEntries (← g.unfold calledName maxDepth [] roots).flatten

def Section.ofSource (s : Source.Section) : Section :=
  ⟨s.name.orElse (.text ""), s.type.orElse (.text ""), s.ctrlId, s.startRow.orElse (.int 0),
    s.endRow.orElse (.int 0), .count s.controlIds.length⟩

def View.ofSource (v : Source.View) : Except Fault View := do
  return ⟨v.name.orElse (.text defaultViewName), ← mapControls v.controls, v.sections.map .ofSource⟩

def Column.ofSource (c : Source.Column) : Except Fault Column := do
  let name := c.name.orElse (.text "")
  return {
    name
    displayName := c.displayName.orElse name
    type := ← ControlType.ofValue .ofDataToken (c.type.orElse c.dataType)
    validValues := c.validValues.map .ofSource
    isRepeating := .bool c.isRepeating
    repeatingSection := c.repeatingSection
    isConditional := .bool c.isConditional
    conditionalOnField := c.conditionalOnField
    defaultValue := c.defaultValue }

def DynamicSection.ofSource (s : Source.DynamicSection) : DynamicSection :=
  { name := s.ctrlId.orElse (.text "")
    mode := s.mode.orElse (.text "")
    ctrlId := s.ctrlId
    caption := s.caption
    condition := s.condition.orElse (.text "")
    conditionField := s.conditionField.orElse (.text "")
    conditionValue := s.conditionValue.orElse (.text "")
    controls := s.controls
    isVisible := .bool s.isVisible }

def Metadata.ofSource : Option Source.Metadata → Metadata
  | none => {}
  | some m =>
    { totalControls := m.totalControls.orElse (.int 0)
      totalSections := m.totalSections.orElse (.int 0)
      dynamicSections := m.dynamicSections.orElse (.int 0)
      repeatingSections := m.repeatingSections.orElse (.int 0)
      conditionalFields := m.conditionalFields }

/-- The id of a form: its file name, else its form name, else a default. -/
def idOf (a : Analysis) (d : Source.Definition) : Value :=
  d.fileName.orElse (a.formName.orElse (.text defaultFormName))

/-- The name of a form: the one given, else the stem of its id, else the id. -/
def nameOf (a : Analysis) (id : Value) : Except Fault Value :=
  if a.formName.isGiven then .ok a.formName
  else do return (Value.text (← Path.stemOf id)).orElse id

/-- The canonical form of an analysis, which may be missing. -/
def ofAnalysis : Option Analysis → Except Fault Form
  | none => .error .analysisMissing
  | some a =>
    match a.definition with
    | none => .error .definitionMissing
    | some d =>
      if d.views.isEmpty then .error .viewsMissing
      else do
        let id := idOf a d
        return {
          id
          name := ← nameOf a id
          views := ← d.views.mapM View.ofSource
          columns := ← d.columns.mapM Column.ofSource
          dynamicSections := d.dynamicSections.map .ofSource
          metadata := .ofSource d.metadata
          formType := a.formType
          sourceWarnings := a.warnings }

theorem ofAnalysis_none : ofAnalysis none = .error .analysisMissing := rfl

end Formwright.Form
