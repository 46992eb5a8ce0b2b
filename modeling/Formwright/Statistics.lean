import Formwright.Form.Basic
import Formwright.Grid
import Formwright.Value.Access

/-
  Statistics of generation. They are counters that add up, so the total over a batch does not
  depend on the order of its forms. Counters are values, since a generator may report any.
-/

namespace Formwright

/-- Counters for one form, or for several together. -/
structure Statistics where
  totalControls : Value := .int 0
  totalVariables : Value := .int 0
  totalPages : Value := .int 0
  totalRows : Value := .int 0
  totalRepeatingSections : Value := .int 0
  /-- How many controls there are of each source type. -/
  controlTypes : Value := .map 0 []
  /-- How many controls there are of each target type. -/
  widgetTypes : Value := .map 0 []

/-- How often each key occurs. -/
abbrev Tally := List (Value × Value)

namespace Tally

/-- Counts a key once more. Keys have to be hashable, and their counts are whole. -/
def add (t : Tally) (key : Value) : Except Fault Tally := do
  let key ← key.asKey
  match Value.lookup t key with
  | some (.int n) => return Value.put t key (.int (n + 1))
  | _ => return Value.put t key (.int 1)

/-- Counts every key of a list. -/
def ofKeys (keys : List Value) : Except Fault Tally := keys.foldlM add []

/-- Adds the counts of an entry. -/
def addEntry (t : Tally) (e : Value × Value) : Except Fault Tally := do
  return Value.put t e.1 (← ((Value.lookup t e.1).getD (.int 0)).add e.2)

/-- The sums of two tallies, key by key. -/
def merge (left right : Value) : Except Fault Value := do
  let t ← left.asEntries
  let es ← right.entriesFor "items"
  return .map 0 (← es.foldlM addEntry t)

/-- The sum of all counts. -/
def total (t : Value) : Except Fault Value := do
  ((← t.entriesFor "values").map (·.2)).foldlM Value.add (.int 0)

end Tally

namespace Statistics

/-- The sums of two statistics, counter by counter. -/
def merge (a b : Statistics) : Except Fault Statistics := do
  return {
    totalControls := ← a.totalControls.add b.totalControls
    totalVariables := ← a.totalVariables.add b.totalVariables
    totalPages := ← a.totalPages.add b.totalPages
    totalRows := ← a.totalRows.add b.totalRows
    totalRepeatingSections := ← a.totalRepeatingSections.add b.totalRepeatingSections
    controlTypes := ← Tally.merge a.controlTypes b.controlTypes
    widgetTypes := ← Tally.merge a.widgetTypes b.widgetTypes }

/-- The sums of any number of statistics. -/
def mergeAll (xs : List Statistics) : Except Fault Statistics := xs.foldlM merge {}

/-- Whether both tallies sum up to the number of controls. -/
def isConsistent (s : Statistics) : Except Fault Bool := do
  if (← Tally.total s.controlTypes).same s.totalControls then
    return (← Tally.total s.widgetTypes).same s.totalControls
  else return false

/-- The key that a source type is counted under. -/
def sourceKey (sourceType : Value) : Value := sourceType.orElse (.text "unknown")

/-- The distinct values of a list of numbers, in order of first occurrence. -/
def distinctRows (rows : List Nat) : List Nat := rows.eraseDups

/-- The number of rows that the controls of a view stand in. -/
def rowCount (v : Form.View) : Except Fault Nat := do
  let places ← v.controls.mapM fun c => Grid.parseValue c.gridPosition
  return (distinctRows (places.map (·.row))).length

/-- What a view adds to the counts of rows and types. -/
def collectView (acc : Nat × Tally × Tally) (v : Form.View) : Except Fault (Nat × Tally × Tally) := do
  let rows ← rowCount v
  let sources ← (v.controls.map fun c => sourceKey c.sourceType).foldlM Tally.add acc.2.1
  let types ← (v.controls.map fun c => Value.text c.type.name).foldlM Tally.add acc.2.2
  return (acc.1 + rows, sources, types)

/-- The statistics of a form itself: a page for each view, a row for each row of the grid in use, a
variable for each data column. -/
def collect (f : Form) : Except Fault Statistics := do
  let (rows, sources, types) ← f.views.foldlM collectView (0, [], [])
  return {
    totalControls := .count f.totalControls
    totalVariables := .count f.columns.length
    totalPages := .count f.views.length
    totalRows := .count rows
    totalRepeatingSections := .count (f.allControls.filter (·.isRepeatingContainer)).length
    controlTypes := .map 0 sources
    widgetTypes := .map 0 types }

def toValue (s : Statistics) : Value :=
  .record [
    ("total_controls", s.totalControls), ("total_variables", s.totalVariables),
    ("total_pages", s.totalPages), ("total_rows", s.totalRows),
    ("total_repeating_sections", s.totalRepeatingSections),
    ("control_type_counts", s.controlTypes), ("widget_type_counts", s.widgetTypes)]

end Statistics

end Formwright
