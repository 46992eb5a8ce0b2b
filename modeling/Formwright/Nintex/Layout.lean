import Formwright.Form.Basic
import Formwright.Grid
import Formwright.Value.Compare
import Formwright.Value.Display

/-
  Laying out a view: its controls are gathered into rows by the row number of their grid position,
  rows ascend, and within a row the order of the view is kept. Ids tell places.
-/

namespace Formwright.Nintex

/-- A control of a form at its place: number of the page from 1, index in the view, row on the grid. -/
structure Placed where
  page : Nat
  index : Nat
  row : Nat
  control : Form.Control

/-- The id of the control at an index of a page. -/
def controlId (page index : Nat) : String := "ctrl_" ++ page.repr ++ "_" ++ (index + 1).repr

def pageId (page : Nat) : String := "page_" ++ page.repr

/-- The id of a row, rows of a page being counted from 0. -/
def rowId (page k : Nat) : String := pageId page ++ "_row_" ++ (k + 1).repr

def Placed.id (p : Placed) : String := controlId p.page p.index

/-- The controls of a view at their places. -/
def placeAll (page : Nat) (v : Form.View) : Except Fault (List Placed) :=
  v.controls.zipIdx.mapM fun p => do
    return ⟨page, p.2, (← Grid.parseValue p.1.gridPosition).row, p.1⟩

/-- The row numbers in use, ascending. -/
def rowNumbers (ps : List Placed) : List Nat := ((ps.map (·.row)).eraseDups).mergeSort (· ≤ ·)

/-- The rows of a page: each number in use with the controls of that row. -/
def gather (ps : List Placed) : List (Nat × List Placed) :=
  (rowNumbers ps).map fun r => (r, ps.filter (·.row == r))

/-- The id of the parent that a control names by index; null names none. -/
def parentId (page count : Nat) : Value → Except Fault (Option String)
  | .null => .ok none
  | v => do
    let key ← v.asKey
    match (List.range count).find? fun i => (Value.count i).same key with
    | some i => return some (controlId page i)
    | none => throw (.missingKey v.shown)

end Formwright.Nintex
