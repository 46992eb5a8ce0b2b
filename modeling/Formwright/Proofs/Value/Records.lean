import Formwright.Value.Access

/-
  Reading records. A record is a map from names to values, and a field of it is looked up by name:
  `getD_record` and `require_record` reduce every way to read a field to a lookup in the list of the
  fields. Records can be compared up to some of their members, which are left out (`without_record`)
  also inside of other members (`under_record`).
-/

namespace Formwright.Value

/-- The value under a name is that of the first field with this name. -/
theorem member?_record (fields : List (String × Value)) (name : String) :
    member? (fields.map fun f => (.text f.1, f.2)) name = fields.lookup name := by
  unfold member? lookup
  induction fields with
  | nil => rfl
  | cons f fields ih =>
    rw [List.map_cons, List.find?_cons, List.lookup_cons, same_text]
    by_cases h : name = f.1
    · simp [h]
    · have hname : (f.1 == name) = false := by simpa using Ne.symm h
      have hlookup : (name == f.1) = false := by simpa using h
      rw [hname, hlookup]
      exact ih

theorem getD_record (fields : List (String × Value)) (name : String) (default : Value) :
    (record fields).getD name default = .ok ((fields.lookup name).getD default) := by
  show Except.ok ((member? _ name).getD default) = _
  rw [member?_record]

theorem get_record (fields : List (String × Value)) (name : String) :
    (record fields).get name = .ok ((fields.lookup name).getD .null) :=
  getD_record fields name .null

theorem require_record {fields : List (String × Value)} {name : String} {v : Value}
    (h : fields.lookup name = some v) : (record fields).require name = .ok v := by
  rw [← member?_record] at h
  rw [record, require, h]

/-- A record has a member when a field has its name. -/
theorem contains_record (fields : List (String × Value)) (name : String) :
    (record fields).contains name = .ok (fields.any (·.1 == name)) := by
  have hsame : ∀ f : String × Value, (text f.1).same (text name) = (f.1 == name) :=
    fun f => same_text f.1 name
  rw [record, contains, List.any_map]
  exact congrArg Except.ok (congrArg fields.any (funext hsame))

/-! ## Members that are left out -/

/-- A map without the members of some names. -/
def without (names : List String) : Value → Value
  | map n es => map n (es.filter fun e => !e.1.occursIn (names.map text))
  | v => v

/-- A map with a change to the member of a name. -/
def under (name : String) (g : Value → Value) : Value → Value
  | map n es => map n (es.map fun e => if e.1.same (text name) then (e.1, g e.2) else e)
  | v => v

/-- A list with a change to each item. -/
def each (g : Value → Value) : Value → Value
  | list n vs => list n (vs.map g)
  | v => v

theorem without_record (names : List String) (fields : List (String × Value)) :
    (record fields).without names = record (fields.filter fun f => !names.contains f.1) := by
  have hkey : ∀ f : String × Value, (text f.1).occursIn (names.map text) = names.contains f.1 := by
    intro f
    rw [occursIn, List.any_map, List.contains_eq_any_beq]
    exact congrArg names.any (funext fun n => same_text f.1 n)
  have hkept : fields.filter ((fun e => !e.1.occursIn (names.map text)) ∘ fun f => (text f.1, f.2)) =
      fields.filter fun f => !names.contains f.1 :=
    List.filter_congr fun f _ => congrArg not (hkey f)
  rw [record, without, List.filter_map, hkept, record]

theorem under_record (name : String) (g : Value → Value) (fields : List (String × Value)) :
    (record fields).under name g =
      record (fields.map fun f => if f.1 = name then (f.1, g f.2) else f) := by
  rw [record, under, List.map_map, record, List.map_map]
  refine congrArg (map 0) (List.map_congr_left fun f _ => ?_)
  by_cases h : f.1 = name
  · simp [same_text, h]
  · simp [same_text, h]

theorem each_ofList (g : Value → Value) (vs : List Value) : (ofList vs).each g = ofList (vs.map g) := rfl

end Formwright.Value
