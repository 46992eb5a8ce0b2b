import Formwright.Fault
import Formwright.Forest.Basic

/-
  Graphs of objects that may share children or point back, and their unfolding to a forest. An
  object is unfolded once for each path that leads to it; one that lies below itself has no
  unfolding, nor has a path longer than the greatest depth.
-/

namespace Formwright

/-- The greatest depth of nested controls. -/
def maxDepth : Nat := 960

/-- What lies below an object: a forest of its own, or objects of the graph by number. -/
inductive Links (α : Type) where
  | own (children : Forest α)
  | objects (places : List Nat)

/-- Objects by number; a number may stand for a missing object. -/
structure Graph (α : Type) where
  objects : List (Option (α × Links α))

namespace Graph

variable {α : Type}

/-- What a number stands for. -/
def object? (g : Graph α) (i : Nat) : Option (α × Links α) := (g.objects[i]?).join

/-- What an object unfolds to, if it is there. `path` are the objects that it lies below, `below`
unfolds the children of an object, and `name` is how a fault calls one. -/
def tree (g : Graph α) (name : α → String) (path : List Nat)
    (below : Nat → List Nat → Except Fault (Forest α)) (i : Nat) :
    Except Fault (Option (α × Forest α)) :=
  match g.object? i with
  | none => .ok none
  | some (a, links) =>
    if path.contains i then .error (.containsItself (name a))
    else
      match links with
      | .own children => .ok (some (a, children))
      | .objects [] => .ok (some (a, .nil))
      | .objects js => do
        let children ← below i js
        return some (a, children)

/-- The forest below a list of objects. `fuel` is the number of levels left and `path` the objects
that the list lies below. -/
def unfold (g : Graph α) (name : α → String) : Nat → List Nat → List Nat → Except Fault (Forest α)
  | 0, path, places => do
    return .ofTrees (← places.mapM (g.tree name path fun _ _ => .error .nestedTooDeeply))
  | fuel + 1, path, places => do
    return .ofTrees (← places.mapM (g.tree name path fun i js => g.unfold name fuel (i :: path) js))

end Graph

end Formwright
