import Formwright.Proofs.Distinct
import Formwright.Proofs.Json.Documents

/-
  Maps with text keys, as the list of their fields. Putting a value under a name sets a field
  (`put_entriesOf`), and everything else about a map that grows by `put` is said of fields: which
  value a name has (`lookup_setField`), which names there are and in which order
  (`map_fst_setField`), and that setting a field to the value it has changes nothing
  (`setField_of_lookup`).
-/

namespace Formwright.Value

open Json (entriesOf)

/-- The fields with the value of one name set: a new name goes to the end, an old one keeps its
place. -/
def setField (fs : List (String × Value)) (name : String) (v : Value) : List (String × Value) :=
  if fs.any (·.1 == name) then fs.map fun f => if f.1 == name then (name, v) else f
  else fs ++ [(name, v)]

variable {fs : List (String × Value)} {name : String} {v : Value}

theorem lookup_entriesOf (fs : List (String × Value)) (name : String) :
    lookup (entriesOf fs) (.text name) = fs.lookup name :=
  member?_record fs name

theorem put_entriesOf (fs : List (String × Value)) (name : String) (v : Value) :
    put (entriesOf fs) (.text name) v = entriesOf (setField fs name v) := by
  have hany : (entriesOf fs).any (fun e => e.1.same (.text name)) = fs.any (·.1 == name) := by
    rw [entriesOf, List.any_map]
    exact congrArg fs.any (funext fun f => same_text f.1 name)
  unfold put setField
  rw [hany]
  split
  · rw [entriesOf, entriesOf, List.map_map, List.map_map]
    refine List.map_congr_left fun f _ => ?_
    by_cases hf : f.1 = name
    · simp [same_text, hf]
    · simp [same_text, hf]
  · rw [entriesOf, entriesOf, List.map_append]
    rfl

theorem lookup_setField (fs : List (String × Value)) (name : String) (v : Value) (n : String) :
    (setField fs name v).lookup n = if n = name then some v else fs.lookup n :=
  lookup_set fs name v n

theorem map_fst_setField (fs : List (String × Value)) (name : String) (v : Value) :
    (setField fs name v).map (·.1) = keepFirst id (fs.map (·.1)) name :=
  map_fst_set fs name v

theorem nodup_setField (h : (fs.map (·.1)).Nodup) (name : String) (v : Value) :
    ((setField fs name v).map (·.1)).Nodup := by
  have hid : ((fs.map (·.1)).map id).Nodup := by rwa [List.map_id]
  have hkeys := (nodup_keepFirst id hid name).1
  rwa [List.map_id, ← map_fst_setField fs name v] at hkeys

theorem setField_of_not_mem (h : name ∉ fs.map (·.1)) (v : Value) :
    setField fs name v = fs ++ [(name, v)] := by
  rw [setField, if_neg (mt any_key_iff.mp h)]

/-- Setting a field to the value it has changes nothing. -/
theorem setField_of_lookup (hnames : (fs.map (·.1)).Nodup) (h : fs.lookup name = some v) :
    setField fs name v = fs := by
  have hmem : name ∈ fs.map (·.1) := lookup_isSome_iff.mp (Option.isSome_iff_exists.mpr ⟨v, h⟩)
  rw [setField, if_pos (any_key_iff.mpr hmem)]
  refine (List.map_congr_left fun f hf => ?_).trans (List.map_id fs)
  by_cases hname : f.1 = name
  · have hf : fs.lookup name = some f.2 := Json.lookup_of_mem hnames (hname ▸ hf)
    have hv : v = f.2 := Option.some.inj (h.symm.trans hf)
    rw [if_pos (beq_iff_eq.mpr hname), hv, ← hname]
    rfl
  · rw [if_neg (mt beq_iff_eq.mp hname)]
    rfl

theorem mem_setField {f : String × Value} (h : f ∈ setField fs name v) : f ∈ fs ∨ f = (name, v) := by
  unfold setField at h
  split at h
  · obtain ⟨g, hg, rfl⟩ := List.mem_map.mp h
    split
    · exact Or.inr rfl
    · exact Or.inl hg
  · rcases List.mem_append.mp h with hf | hf
    · exact Or.inl hf
    · exact Or.inr (List.mem_singleton.mp hf)

end Formwright.Value
