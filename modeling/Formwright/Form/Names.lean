import Formwright.Value.Compare

/-
  Names for controls that the source left unnamed. A made name is `Control_` with the number of the
  control in its sequence, and a further number from 2 on if that is taken. No name is given twice
  unless the source did.
-/

namespace Formwright.Form

/-- The made names for a number, in order of preference. -/
def candidate (number k : Nat) : String :=
  if k = 0 then "Control_" ++ number.repr else "Control_" ++ number.repr ++ "_" ++ (k + 1).repr

/-- The first made name that is not taken. One of the first candidates is free, as there is one more
of them than names are taken. -/
def freshName (used : List String) (number : Nat) : String :=
  candidate number (((List.range (used.length + 1)).find? fun k => !used.contains (candidate number k)).getD 0)

/-- Names from place `index` on: given ones stay, the others get the first free made name. -/
def nameFrom (index : Nat) (used : List String) : List Value → List Value
  | [] => []
  | v :: vs =>
    if v.isGiven then v :: nameFrom (index + 1) used vs
    else
      let name := freshName used (index + 1)
      .text name :: nameFrom (index + 1) (name :: used) vs

/-- The texts among given names. -/
def givenTexts (vs : List Value) : List String :=
  (vs.filter (·.isGiven)).filterMap fun v =>
    match v with
    | .text s => some s
    | _ => none

/-- Names for a sequence of controls. Given names have to be hashable. -/
def assignNames (vs : List Value) : Except Fault (List Value) := do
  discard ((vs.filter (·.isGiven)).mapM (·.asKey))
  return nameFrom 0 (givenTexts vs) vs

theorem length_nameFrom (index : Nat) (used : List String) (vs : List Value) :
    (nameFrom index used vs).length = vs.length := by
  induction vs generalizing index used with
  | nil => rfl
  | cons v vs ih => by_cases h : v.isGiven = true <;> simp [nameFrom, h, ih]

end Formwright.Form
