/-
  Forests with gaps, and their flattening to a list in pre-order. Each entry of the list knows its
  parent's place, its depth and how many of the entries behind it are its descendants.
-/

namespace Formwright

/-- A forest: its first tree, then the others. A gap is a place where a tree is missing. -/
inductive Forest (α : Type) where
  | nil
  | gap (rest : Forest α)
  | node (label : α) (children rest : Forest α)
  deriving Repr, DecidableEq

/-- A node of a flattened forest. -/
structure Entry (α : Type) where
  label : α
  /-- The place of the parent; a root has none. -/
  parent : Option Nat
  depth : Nat
  /-- How many entries behind this one are its descendants. -/
  descendants : Nat
  deriving Repr, DecidableEq

namespace Forest

variable {α : Type}

/-- A forest of trees that may be missing, each a label with its children. -/
def ofTrees : List (Option (α × Forest α)) → Forest α
  | [] => nil
  | none :: ts => gap (ofTrees ts)
  | some (a, children) :: ts => node a children (ofTrees ts)

/-- The number of nodes. -/
def size : Forest α → Nat
  | nil => 0
  | gap rest => rest.size
  | node _ children rest => children.size + 1 + rest.size

/-- The number of levels. -/
def height : Forest α → Nat
  | nil => 0
  | gap rest => rest.height
  | node _ children rest => max (children.height + 1) rest.height

/-- Entries of a forest whose nodes stand from place `start` on, below `parent`, at `depth`. -/
def flattenAt (parent : Option Nat) (depth start : Nat) : Forest α → List (Entry α)
  | nil => []
  | gap rest => rest.flattenAt parent depth start
  | node a children rest =>
    let inner := children.flattenAt (some start) (depth + 1) (start + 1)
    ⟨a, parent, depth, inner.length⟩ :: (inner ++ rest.flattenAt parent depth (start + 1 + inner.length))

/-- The nodes of a forest in pre-order, with their links. -/
def flatten (f : Forest α) : List (Entry α) := f.flattenAt none 0 0

@[simp] theorem length_flattenAt (f : Forest α) (parent : Option Nat) (depth start : Nat) :
    (f.flattenAt parent depth start).length = f.size := by
  induction f generalizing parent depth start with
  | nil => rfl
  | gap rest ih => exact ih parent depth start
  | node a children rest ihc ihr =>
    simp only [flattenAt, List.length_cons, List.length_append, ihc, ihr, size]
    omega

theorem length_flatten (f : Forest α) : f.flatten.length = f.size := length_flattenAt f none 0 0

end Forest

end Formwright
