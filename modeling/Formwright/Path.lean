import Formwright.Value.Basic

/-
  Paths of files: parts between slashes, of which empty ones and single points do not count. The
  stem of a name is the name without its last suffix; a point at either end starts no suffix.
-/

namespace Formwright.Path

/-- The pieces of a text between slashes. -/
def pieces : List Char → List (List Char)
  | [] => [[]]
  | c :: cs =>
    match pieces cs with
    | [] => [[c]]
    | p :: ps => if c = '/' then [] :: p :: ps else (c :: p) :: ps

/-- The parts of a path. -/
def parts (path : List Char) : List (List Char) :=
  (pieces path).filter fun p => !p.isEmpty && p != ['.']

/-- The last part of a path, empty if there is none. -/
def name (path : List Char) : List Char := (parts path).getLast?.getD []

/-- A name as stem and suffix. -/
def split (name : List Char) : List Char × List Char :=
  let suffix := (name.reverse.takeWhile (· != '.')).reverse
  let stem := name.take (name.length - suffix.length - 1)
  if name.contains '.' && !stem.isEmpty && !suffix.isEmpty then (stem, '.' :: suffix) else (name, [])

/-- The stem of the last part of a path. -/
def stem (path : String) : String := String.ofList (split (name path.toList)).1

/-- The suffix of the last part of a path, its point included. -/
def suffix (path : String) : String := String.ofList (split (name path.toList)).2

/-- The stem of a value that has to be a path. -/
def stemOf : Value → Except Fault String
  | .text s => .ok (stem s)
  | v => .error (.misuse (.pathFrom v.kind))

theorem pieces_ne_nil (cs : List Char) : pieces cs ≠ [] := by
  cases cs with
  | nil => simp [pieces]
  | cons c cs =>
    simp only [pieces]
    split
    · simp
    · split <;> simp

/-- Stem and suffix together are the name. -/
theorem split_append (n : List Char) (h : (split n).2 = []) : (split n).1 = n := by
  simp only [split] at h ⊢
  split <;> simp_all

end Formwright.Path
