import Formwright.Form.Basic
import Formwright.Value.Access

/-
  Finding parts of forms. Places are numbers, negative ones counting from the end. What a container
  holds stands directly behind it, so the controls inside are a slice of the view.
-/

namespace Formwright.Form

/-- The item at a place; a negative place counts from the end. -/
def itemAt {α : Type} (xs : List α) (i : Int) : Except Fault α :=
  let k := if i < 0 then i + xs.length else i
  if k < 0 then .error .indexRange
  else
    match xs[k.toNat]? with
    | some x => .ok x
    | none => .error .indexRange

/-- A bound of a slice: negative ones count from the end, and none lies outside. -/
def bound (length : Nat) (i : Int) : Nat :=
  min (if i < 0 then i + length else i).toNat length

/-- The items from one place up to another. -/
def slice {α : Type} (xs : List α) (start stop : Int) : List α :=
  (xs.take (bound xs.length stop)).drop (bound xs.length start)

/-- A number of controls, which has to be whole. -/
def wholeCount : Value → Except Fault Int
  | .int n => .ok n
  | .bool b => .ok (if b then 1 else 0)
  | v => .error (.misuse (.notACount v.kind))

namespace View

/-- The first control with a name. -/
def control? (v : View) (name : Value) : Option Control := v.controls.find? fun c => c.name.same name

/-- The controls inside the one at a place, in pre-order. -/
def descendants (v : View) (i : Int) : Except Fault (List Control) := do
  let c ← itemAt v.controls i
  let n ← wholeCount c.childCount
  return slice v.controls (i + 1) (i + 1 + n)

/-- The controls directly inside the one at a place. -/
def children (v : View) (i : Int) : Except Fault (List Control) := do
  return (← v.descendants i).filter fun c => c.parentIndex.same (.int i)

/-- The controls that the source placed in a repeating section. -/
def inSection (v : View) (name : Value) : List Control :=
  v.controls.filter fun c => c.sectionLink.any fun l => l.name.same name

end View

/-- The first view with a name. -/
def view? (f : Form) (name : Value) : Option View := f.views.find? fun v => v.name.same name

/-- The first data column with a name. -/
def column? (f : Form) (name : Value) : Option Column := f.columns.find? fun c => c.name.same name

/-- A slice inside the list is what its length says. -/
theorem length_slice {α : Type} (xs : List α) (i n : Nat) (h : i + n ≤ xs.length) :
    (slice xs i (i + n)).length = n := by
  simp only [slice, bound, List.length_drop, List.length_take]
  split <;> split <;> omega

end Formwright.Form
