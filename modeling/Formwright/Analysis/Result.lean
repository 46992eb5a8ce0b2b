import Formwright.Analysis.Basic
import Formwright.Forest.Graph
import Formwright.Value.Integers

/-
  What an analyzer hands over about one source form. Every field and every item of a list may be
  missing. Controls are objects that are referred to by number, so one of them may lie in several
  places, or inside itself. What is left of the records without the missing items are those of an
  analysis (`Choice.read` and the like); the views of an analysis hold what the controls unfold to.
-/

namespace Formwright.Analyzer

/-- A text that may be missing. -/
def textOf : Option String → Value
  | none => .null
  | some s => .text s

/-- An integer that may be missing. -/
def integerOf : Option Int → Value
  | none => .null
  | some n => .int n

/-- The items of a list that are there. -/
def present {α : Type} (xs : Option (List (Option α))) : List α := (xs.getD []).filterMap id

/-- The items of a list of texts, the missing ones among them. -/
def texts (xs : Option (List (Option String))) : List Value := (xs.getD []).map textOf

structure Message where
  severity : Option Severity := some .info
  message : Option String := some ""
  details : Option String := none
  source : Option String := none

/-- One choice of a control, or one valid value of a column. -/
structure Choice where
  value : Option String := none
  displayText : Option String := none
  isDefault : Option Bool := some false
  order : Option Int := some 0

/-- What a property of a control may hold. -/
abbrev Property := { v : Value // v.integersFit = true }

/-- A control with the numbers of the controls inside it. -/
structure Control where
  name : Option String := none
  type : Option String := none
  label : Option String := none
  binding : Option String := none
  gridPosition : Option String := none
  inRepeatingSection : Option Bool := some false
  sectionName : Option String := none
  sectionBinding : Option String := none
  properties : Option (List (String × Property)) := some []
  controls : Option (List (Option Nat)) := some []
  choices : Option (List (Option Choice)) := some []

structure Section where
  name : Option String := none
  type : Option String := none
  ctrlId : Option String := none
  startRow : Option Int := some 0
  endRow : Option Int := some 0
  controlIds : Option (List (Option String)) := some []

/-- A view with the numbers of its controls. -/
structure View where
  name : Option String := none
  controls : Option (List (Option Nat)) := some []
  sections : Option (List (Option Section)) := some []

structure Column where
  name : Option String := none
  type : Option String := none
  dataType : Option String := none
  displayName : Option String := none
  repeatingSection : Option String := none
  isRepeating : Option Bool := some false
  isConditional : Option Bool := some false
  conditionalOnField : Option String := none
  validValues : Option (List (Option Choice)) := some []
  defaultValue : Option String := none

structure DynamicSection where
  mode : Option String := none
  ctrlId : Option String := none
  caption : Option String := none
  condition : Option String := none
  conditionField : Option String := none
  conditionValue : Option String := none
  controls : Option (List (Option String)) := some []
  isVisible : Option Bool := some false

structure Metadata where
  totalControls : Option Int := some 0
  totalSections : Option Int := some 0
  dynamicSections : Option Int := some 0
  repeatingSections : Option Int := some 0
  conditionalFields : Option (List (Option String)) := some []

structure Definition where
  fileName : Option String := none
  views : Option (List (Option View)) := some []
  columns : Option (List (Option Column)) := some []
  dynamicSections : Option (List (Option DynamicSection)) := some []
  metadata : Option Metadata := none

/-- The result for one form. Only its messages are always there. -/
structure Result where
  formName : Option String := none
  formType : Option String := none
  analyzer : Option String := none
  definition : Option Definition := none
  messages : List Message := []

/-! ## What is left without the missing items -/

def Message.read (m : Message) : Source.Message where
  severity := m.severity.getD .info
  message := textOf m.message
  details := textOf m.details
  source := textOf m.source

def Choice.read (c : Choice) : Source.Choice where
  value := textOf c.value
  displayText := textOf c.displayText
  isDefault := c.isDefault.getD false
  order := integerOf c.order

/-- A control without the controls inside it. -/
def Control.read (c : Control) : Source.Control where
  name := textOf c.name
  type := textOf c.type
  label := textOf c.label
  binding := textOf c.binding
  gridPosition := textOf c.gridPosition
  inRepeatingSection := c.inRepeatingSection.getD false
  sectionName := textOf c.sectionName
  sectionBinding := textOf c.sectionBinding
  properties := (c.properties.getD []).map fun e => (.text e.1, e.2.val)
  choices := (present c.choices).map Choice.read

def Section.read (s : Section) : Source.Section where
  name := textOf s.name
  type := textOf s.type
  ctrlId := textOf s.ctrlId
  startRow := integerOf s.startRow
  endRow := integerOf s.endRow
  controlIds := texts s.controlIds

def Column.read (c : Column) : Source.Column where
  name := textOf c.name
  type := textOf c.type
  dataType := textOf c.dataType
  displayName := textOf c.displayName
  repeatingSection := textOf c.repeatingSection
  isRepeating := c.isRepeating.getD false
  isConditional := c.isConditional.getD false
  conditionalOnField := textOf c.conditionalOnField
  validValues := (present c.validValues).map Choice.read
  defaultValue := textOf c.defaultValue

def DynamicSection.read (s : DynamicSection) : Source.DynamicSection where
  mode := textOf s.mode
  ctrlId := textOf s.ctrlId
  caption := textOf s.caption
  condition := textOf s.condition
  conditionField := textOf s.conditionField
  conditionValue := textOf s.conditionValue
  controls := texts s.controls
  isVisible := s.isVisible.getD false

def Metadata.read (m : Metadata) : Source.Metadata where
  totalControls := integerOf m.totalControls
  totalSections := integerOf m.totalSections
  dynamicSections := integerOf m.dynamicSections
  repeatingSections := integerOf m.repeatingSections
  conditionalFields := texts m.conditionalFields

/-- The controls of a result by number. -/
def objects (cs : List Control) : Graph Source.Control :=
  ⟨cs.map fun c => some (c.read, .objects (present c.controls))⟩

end Formwright.Analyzer
