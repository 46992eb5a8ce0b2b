import Formwright.Proofs.Json.Expressible

/-
  What has a readable JSON text. Null, truth values, numbers and texts have one at any level of nesting,
  and so have lists of what has one (`writable_ofList`) and records of what has one (`writable_record`).
  Writable is what the readable style can express (`writable_iff`), as it does not sort members.
-/

namespace Formwright

namespace Json

/-- A value that is written at any level, with the members of maps in their order. -/
def Writable (v : Value) : Prop := ∀ level, ∃ s, valueText .readable v level = .ok s

theorem writable_iff {v : Value} : Writable v ↔ Expressible .readable v :=
  ⟨fun h => (exists_valueText_eq_ok_iff v 0).mp (h 0),
    fun h level => (exists_valueText_eq_ok_iff v level).mpr h⟩

theorem writable_null : Writable .null := fun _ => ⟨_, rfl⟩

theorem writable_bool (b : Bool) : Writable (.bool b) := fun _ => ⟨_, rfl⟩

theorem writable_int (n : Int) : Writable (.int n) := fun _ => ⟨_, rfl⟩

theorem writable_text (s : String) : Writable (.text s) := fun _ => ⟨_, rfl⟩

theorem writable_ofList {vs : List Value} (h : ∀ v ∈ vs, Writable v) : Writable (.ofList vs) :=
  writable_iff.mpr (expressible_ofList_iff.mpr fun v hv => writable_iff.mp (h v hv))

theorem writable_ofTexts (ss : List String) : Writable (.ofTexts ss) := by
  refine writable_ofList fun v hv => ?_
  obtain ⟨s, -, rfl⟩ := List.mem_map.mp hv
  exact writable_text s

theorem writable_map {es : List (Value × Value)}
    (h : ∀ e ∈ es, (∃ name, keyText e.1 = .ok name) ∧ Writable e.2) : Writable (.map 0 es) :=
  writable_iff.mpr (.map 0 (fun e he => exists_keyText_eq_ok_iff.mp (h e he).1)
    (fun hsorted => Bool.noConfusion hsorted) fun e he => writable_iff.mp (h e he).2)

theorem writable_record {fields : List (String × Value)} (h : ∀ e ∈ fields, Writable e.2) :
    Writable (.record fields) :=
  writable_iff.mpr (expressible_record_iff.mpr (allExpressible_map_iff.mpr fun e he =>
    writable_iff.mp (h e he)))

theorem exists_write_eq_ok {v : Value} (h : Writable v) : ∃ s, write .readable v = .ok s := h 0

end Json

end Formwright
