import Formwright.Identifier
import Formwright.Nintex.Document
import Formwright.Nintex.Layout
import Formwright.Options
import Formwright.Statistics

/-
  The document of a form: one page a view, one control for each control of the form, one variable
  for each control that holds data, one rule for each dynamic section. Ids come from places, so that
  equal forms have equal documents. The options only add or remove content.
-/

namespace Formwright.Nintex

/-- A control of the document that has no variable yet. -/
structure Draft where
  placed : Placed
  control : Control
  /-- The name that the variable is to have, if the control holds data. -/
  variableName : Option String

/-- The formula of a control. -/
def formula? (c : Form.Control) : Option String :=
  match Value.lookup c.properties (.text "Calculation") with
  | some v => if v.isGiven then some v.display else none
  | none => none

/-- The name of the repeating section that a control is linked to. -/
def sectionName? (c : Form.Control) : Option Value :=
  match c.sectionLink with
  | some l => if l.name.isGiven then some l.name else none
  | none => none

/-- The variable name that a control asks for. -/
def wantedVariable (c : Form.Control) (o : Options) : Except Fault (Option String) :=
  if c.type.isDataBearing then do return some (← Identifier.variableNameOf c.name o.variableLead.display)
  else .ok none

/-- Drafts the control at a place of a page that has `count` controls. Its name and its source type
have to be hashable, as both are counted. -/
def draft (o : Options) (count : Nat) (p : Placed) : Except Fault Draft := do
  let c := p.control
  discard c.name.asKey
  discard (Statistics.sourceKey c.sourceType).asKey
  let parentId ← parentId p.page count c.parentIndex
  let choices ← Value.sortOn (·.order) c.choices
  let variableName ← wantedVariable c o
  return {
    placed := p
    control := {
      id := p.id
      name := c.name
      widget := widget c.type
      sourceType := c.sourceType
      label := c.label.orElse c.name
      isReadOnly := c.isReadOnly
      isRequired := if o.validationRules.isGiven then some c.isRequired else none
      formula := if o.calculations.isGiven then formula? c else none
      parentId, choices
      repeatingSection := sectionName? c
      variableId := none }
    variableName }

/-- Drafts a row. -/
def draftRow (o : Options) (count : Nat) (r : Nat × List Placed) : Except Fault (Nat × List Draft) := do
  return (r.1, ← r.2.mapM (draft o count))

/-- Drafts the rows of a page. -/
def draftPage (o : Options) (page : Nat) (v : Form.View) : Except Fault (List (Nat × List Draft)) := do
  (gather (← placeAll page v)).mapM (draftRow o v.controls.length)

/-! ## Variables -/

/-- The names for a variable in order of preference: the one wanted, then with numbers from 2 on. -/
def variableCandidate (wanted : String) (k : Nat) : String :=
  if k = 0 then wanted else wanted ++ "_" ++ (k + 1).repr

/-- The first name that is not taken. One of the first candidates is free, as there is one more of
them than names are taken. -/
def freeVariable (taken : List String) (wanted : String) : String :=
  variableCandidate wanted
    (((List.range (taken.length + 1)).find? fun k => !taken.contains (variableCandidate wanted k)).getD 0)

/-- The variables of drafted controls, in their order; names in `taken` are not used again. -/
def variablesFrom (taken : List String) : List Draft → List Variable
  | [] => []
  | d :: ds =>
    match d.variableName with
    | none => variablesFrom taken ds
    | some wanted =>
      let id := freeVariable taken wanted
      ⟨id, d.control.name, variableType d.placed.control.type, d.control.id⟩ :: variablesFrom (id :: taken) ds

/-- The control of a draft, with its variable. -/
def Draft.finish (vs : List Variable) (d : Draft) : Control :=
  { d.control with variableId := (vs.find? fun v => v.controlId == d.control.id).map (·.id) }

/-- A page of drafted rows. -/
def finishPage (vs : List Variable) (page : Nat) (name : Value) (rows : List (Nat × List Draft)) : Page where
  id := pageId page
  name
  rows := rows.zipIdx.map fun r => ⟨rowId page r.2, r.1.1, r.1.2.map (Draft.finish vs)⟩

/-! ## Titles and rules -/

/-- The key that the title of a control stands under. -/
def titleKey (controlId : String) : String := controlId ++ ".FORMDESIGNER_CONTROL_PROP_TITLE"

/-- The title of a control that has a label. -/
def title? (d : Draft) : Option (String × Value) :=
  if d.placed.control.label.isGiven then some (titleKey d.control.id, d.placed.control.label) else none

/-- The ids of the controls that names stand for: of controls of one name, the first of the document.
Names that no control has are left out. -/
def targetIds (controls : List Control) (names : List Value) : Except Fault (List String) := do
  let keys ← names.mapM (·.asKey)
  return keys.filterMap fun k => (controls.find? fun c => c.name.same k).map (·.id)

/-- The rule of the dynamic section with a number, counted from 1. -/
def ruleOf (controls : List Control) (number : Nat) (s : Form.DynamicSection) : Except Fault Rule := do
  let id := "rule_" ++ number.repr
  return {
    id
    name := s.caption.orElse (s.name.orElse (.text id))
    condition := s.condition
    field := s.conditionField
    value := s.conditionValue
    targets := ← targetIds controls s.controls }

/-- The rules of a form. -/
def rulesOf (controls : List Control) (o : Options) (ss : List Form.DynamicSection) :
    Except Fault (Option (List Rule)) :=
  if o.conditionalLogic.isGiven then
    some <$> ss.zipIdx.mapM fun p => ruleOf controls (p.2 + 1) p.1
  else .ok none

/-! ## The document -/

/-- The document of a form, with the drafts it was made from. -/
def build (f : Form) (o : Options) : Except Fault (List Draft × Document) := do
  let drafted ← f.views.zipIdx.mapM fun p => draftPage o (p.2 + 1) p.1
  let drafts := drafted.flatten.flatMap (·.2)
  let formVariables := variablesFrom [] drafts
  let id ← Identifier.variableNameOf f.name ""
  let defaultLanguage ← o.defaultLanguage.asKey
  let rules ← rulesOf (drafts.map (·.control)) o f.dynamicSections
  let pages := (f.views.zip drafted).zipIdx.map fun p => finishPage formVariables (p.2 + 1) p.1.1.name p.1.2
  return (drafts, {
    id
    name := f.name
    description := o.description.orElse (.text ("Converted from " ++ f.id.display))
    layoutType := o.layoutType
    defaultLanguage, pages, formVariables
    titles := drafts.filterMap title?
    rules })

/-- The statistics of a document. -/
def statistics (f : Form) (drafts : List Draft) (d : Document) : Except Fault Statistics := do
  let sources ← Tally.ofKeys (drafts.map fun x => Statistics.sourceKey x.placed.control.sourceType)
  let widgets ← Tally.ofKeys (drafts.map fun x => .text x.control.widget)
  return {
    totalControls := .count drafts.length
    totalVariables := .count d.formVariables.length
    totalPages := .count d.pages.length
    totalRows := .count d.rows.length
    totalRepeatingSections := .count (f.allControls.filter (·.isRepeatingContainer)).length
    controlTypes := .map 0 sources
    widgetTypes := .map 0 widgets }

end Formwright.Nintex
