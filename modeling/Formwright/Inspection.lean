import Formwright.Form.Basic
import Formwright.Statistics
import Formwright.Value.Display

/-
  Inspection of a form: an inventory of its controls, and warnings about names that occur twice in
  a view, containers that hold nothing, references to what does not exist, and counts of the source
  that differ from the form. The form is not changed.
-/

namespace Formwright

/-- What an inspection finds. -/
structure Report where
  formId : Value
  totalViews : Nat
  totalControls : Nat
  totalColumns : Nat
  totalDynamicSections : Nat
  controlTypes : Tally
  maxDepth : Value
  repeatingContainers : Nat
  unlabeledControls : Nat
  emptyContainers : List Value
  /-- The names that occur twice, for each view name; of equal view names the last view decides. -/
  duplicateNames : List (Value × List Value)
  unknownTargets : List Value
  unknownFields : List Value
  metadataMismatch : Bool
  warnings : List String

namespace Inspection

/-- The greater of two values; the first unless the second exceeds it. -/
def greater (a b : Value) : Except Fault Value := do
  if ← a.less b then return b else return a

/-- The greatest depth among controls. -/
def deepest (cs : List Form.Control) : Except Fault Value := cs.foldlM (fun d c => greater d c.depth) (.int 0)

/-- A container that holds nothing. -/
def isEmptyContainer (c : Form.Control) : Bool := c.isContainer && c.childCount.same (.int 0)

/-- The names that occur more than once in a view, in ascending order. -/
def repeatedNames (v : Form.View) : Except Fault (List Value) := do
  let t ← Tally.ofKeys (v.controls.map (·.name))
  Value.sorted ((t.filter fun e => !e.2.same (.int 1)).map (·.1))

/-- Sets the names found for a view name. -/
def putNames (es : List (Value × List Value)) (view : Value) (names : List Value) : List (Value × List Value) :=
  if es.any fun e => e.1.same view then es.map fun e => if e.1.same view then (e.1, names) else e
  else es ++ [(view, names)]

/-- Adds what a view repeats, if it repeats anything. -/
def addRepeated (es : List (Value × List Value)) (v : Form.View) : Except Fault (List (Value × List Value)) := do
  let names ← repeatedNames v
  if names.isEmpty then return es else return putNames es (← v.name.asKey) names

/-- The keys among some values that do not occur among others. -/
def missing (vs known : List Value) : Except Fault (List Value) := do
  return Value.distinct ((← vs.mapM (·.asKey)).filter fun v => !v.occursIn known)

/-- Fields that conditions refer to. -/
def conditionalFields (f : Form) : List Value :=
  f.metadata.conditionalFields ++ (f.columns.map (·.conditionalOnField)).filter (·.isGiven)

/-- Whether the source reported another number of controls; zero is no report. -/
def mismatch (f : Form) : Bool :=
  f.metadata.totalControls.isGiven && !f.metadata.totalControls.same (.count f.totalControls)

/-- A message about a list of names, if there are any. -/
def listWarning (lead : String) (names : List Value) : Except Fault (List String) := do
  if names.isEmpty then return [] else return [lead ++ (← Value.joinTexts ", " names)]

/-- Adds a warning that is not there yet. -/
def addWarning (ws : List String) (w : String) : List String := if ws.contains w then ws else ws ++ [w]

end Inspection

open Inspection

/-- Adds a warning that the report does not have yet. -/
def Report.addWarning (r : Report) (w : String) : Report := { r with warnings := Inspection.addWarning r.warnings w }

/-- Inspects a form. -/
def Form.inspect (f : Form) : Except Fault Report := do
  let cs := f.allControls
  let maxDepth ← deepest cs
  let controlTypes ← Tally.ofKeys (cs.map fun c => .text c.type.name)
  let emptyContainers := (cs.filter isEmptyContainer).map (·.name)
  let duplicateNames ← f.views.foldlM addRepeated []
  let unknownTargets ← missing (f.dynamicSections.flatMap (·.controls)) (cs.map (·.name))
  let columnNames ← (f.columns.map (·.name)).mapM (·.asKey)
  let unknownFields ← missing (conditionalFields f) columnNames
  let repeated ← duplicateNames.mapM fun e =>
    return "Duplicate control names in view " ++ e.1.display ++ ": " ++ (← Value.joinTexts ", " e.2)
  let empties ← listWarning "Containers without controls: " emptyContainers
  let targets ← listWarning "Dynamic sections reference unknown controls: " (← Value.sorted unknownTargets)
  let fields ← listWarning "Conditional fields without data columns: " (← Value.sorted unknownFields)
  let counts := if mismatch f then
      ["Analyzer reported " ++ f.metadata.totalControls.display ++ " controls, flattened form has " ++
        f.totalControls.repr]
    else []
  return {
    formId := f.id
    totalViews := f.views.length
    totalControls := f.totalControls
    totalColumns := f.columns.length
    totalDynamicSections := f.dynamicSections.length
    controlTypes, maxDepth
    repeatingContainers := (cs.filter (·.isRepeatingContainer)).length
    unlabeledControls := (cs.filter fun c => !c.label.isGiven).length
    emptyContainers, duplicateNames, unknownTargets, unknownFields
    metadataMismatch := mismatch f
    warnings := (repeated ++ empties ++ targets ++ fields ++ counts).foldl Inspection.addWarning [] }

end Formwright
