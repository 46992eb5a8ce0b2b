import Formwright.Form.Basic
import Formwright.Options
import Formwright.Statistics

/-
  Generators. A generator has a target and turns a form into a product, under options. A call may
  also fail, or give back something that is no product; whoever runs generators has to cope with
  both.
-/

namespace Formwright

/-- What stands where the statistics of a product belong. -/
inductive Attachment where
  | absent
  | statistics (s : Statistics)
  /-- Something else, which a generator should not have put there. -/
  | other (v : Value)

/-- What a generator makes of one form. -/
structure Product where
  success : Bool
  errorMessage : String := ""
  target : String := ""
  /-- The primary output. -/
  output : String := ""
  /-- The file name proposed for the primary output. -/
  outputPath : String := ""
  /-- Further outputs by name, in order of creation. -/
  artifacts : List (String × String) := []
  statistics : Attachment := .absent

/-- A product that only says why there is none. -/
def Product.failure (target message : String) : Product :=
  { success := false, errorMessage := message, target }

/-- What a call of a generator gives back. -/
inductive Answer where
  | product (p : Product)
  /-- Something that is no product; null stands for nothing at all. -/
  | other (v : Value)

/-- A generator: its target, and what a call does. -/
structure Generator where
  target : String
  generate : Form → Options → Except Fault Answer

/-- A generator that always answers with a product when it succeeds. -/
def Generator.ofProducts (target : String) (make : Form → Options → Except Fault Product) : Generator where
  target
  generate f o := (make f o).map .product

/-- What stands in for a generator that is not there: every call fails. -/
def Generator.missing : Generator where
  target := Kind.null.name
  generate _ _ := .error (.noMember .null "generate")

/-- Sets the text of an artifact: a new name goes to the end, an old one keeps its place. -/
def putArtifact (as : List (String × String)) (name text : String) : List (String × String) :=
  if as.any (·.1 == name) then as.map fun a => if a.1 == name then (name, text) else a
  else as ++ [(name, text)]

theorem putArtifact_new {as : List (String × String)} {name : String} (text : String)
    (h : as.any (·.1 == name) = false) : putArtifact as name text = as ++ [(name, text)] := by
  simp [putArtifact, h]

end Formwright
