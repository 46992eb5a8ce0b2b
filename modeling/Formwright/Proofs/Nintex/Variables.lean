import Formwright.Nintex.OfForm
import Formwright.Proofs.FreeName
import Mathlib.Data.List.Forall2

/-
  The variables of a document. A name that is made for a variable is not taken
  (`freeVariable_not_mem`), so no two variables have one id (`nodup_variablesFrom`). There is one
  variable for each draft that asks for one (`map_controlId_variablesFrom`), and where the drafts have
  different ids, a variable and the control of its draft name each other (`find?_variablesFrom`). An id
  is the first candidate that no variable before it has (`found_variablesFrom`).
-/

namespace Formwright.Nintex

/-! ## Names -/

theorem variableCandidate_succ (wanted : String) (k : Nat) :
    variableCandidate wanted (k + 1) = wanted ++ ("_" ++ (k + 2).repr) := by
  rw [variableCandidate, if_neg (Nat.succ_ne_zero k), String.append_assoc]

theorem variableCandidate_inj {wanted : String} {j k : Nat}
    (h : variableCandidate wanted j = variableCandidate wanted k) : j = k :=
  numbered_inj h

theorem freeVariable_not_mem (taken : List String) (wanted : String) :
    freeVariable taken wanted ∉ taken :=
  candidate_not_mem taken _ variableCandidate_inj

/-! ## Variables -/

/-- A variable is that of a draft that asks for one. -/
theorem exists_of_mem_variablesFrom {taken : List String} {ds : List Draft} {v : Variable}
    (hv : v ∈ variablesFrom taken ds) :
    ∃ d ∈ ds, v.name = d.control.name ∧ v.controlId = d.control.id := by
  induction ds generalizing taken with
  | nil => exact absurd hv List.not_mem_nil
  | cons d ds ih =>
    rw [variablesFrom] at hv
    split at hv
    · obtain ⟨e, he, hve⟩ := ih hv
      exact ⟨e, List.mem_cons_of_mem d he, hve⟩
    · rcases List.mem_cons.mp hv with rfl | hv
      · exact ⟨d, List.mem_cons_self, rfl, rfl⟩
      · obtain ⟨e, he, hve⟩ := ih hv
        exact ⟨e, List.mem_cons_of_mem d he, hve⟩

/-- Variables have ids that differ and that were not taken. -/
theorem nodup_variablesFrom (taken : List String) (ds : List Draft) :
    ((variablesFrom taken ds).map (·.id)).Nodup ∧ ∀ v ∈ variablesFrom taken ds, v.id ∉ taken := by
  induction ds generalizing taken with
  | nil => exact ⟨List.nodup_nil, fun v hv => absurd hv List.not_mem_nil⟩
  | cons d ds ih =>
    rw [variablesFrom]
    split
    · exact ih taken
    · rename_i wanted hwanted
      obtain ⟨hnodup, hfree⟩ := ih (freeVariable taken wanted :: taken)
      rw [List.map_cons, List.nodup_cons, List.forall_mem_cons]
      refine ⟨⟨fun hmem => ?_, hnodup⟩, freeVariable_not_mem taken wanted, fun v hv hmem => ?_⟩
      · obtain ⟨v, hv, hid⟩ := List.mem_map.mp hmem
        exact hfree v hv (by rw [hid]; exact List.mem_cons_self)
      · exact hfree v hv (List.mem_cons_of_mem _ hmem)

/-- The variables belong to the drafts that ask for one, in their order. -/
theorem map_controlId_variablesFrom (taken : List String) (ds : List Draft) :
    (variablesFrom taken ds).map (·.controlId) =
      (ds.filter (·.variableName.isSome)).map (·.control.id) := by
  induction ds generalizing taken with
  | nil => rfl
  | cons d ds ih =>
    rw [variablesFrom, List.filter_cons]
    split
    · rename_i hnone
      rw [hnone]
      exact ih taken
    · rename_i wanted hwanted
      rw [hwanted, List.map_cons, ih]
      rfl

/-- Among drafts of different ids, a variable is the one that its control finds. -/
theorem find?_variablesFrom {taken : List String} {ds : List Draft}
    (hids : (ds.map (·.control.id)).Nodup) {v : Variable} (hv : v ∈ variablesFrom taken ds) :
    (variablesFrom taken ds).find? (·.controlId == v.controlId) = some v := by
  have hdistinct : ((variablesFrom taken ds).map (·.controlId)).Nodup := by
    rw [map_controlId_variablesFrom]
    exact hids.sublist (List.filter_sublist.map _)
  obtain ⟨w, hw⟩ : ∃ w, (variablesFrom taken ds).find? (·.controlId == v.controlId) = some w := by
    rw [← Option.isSome_iff_exists, List.find?_isSome]
    exact ⟨v, hv, beq_self_eq_true _⟩
  have hsame : w.controlId = v.controlId := by simpa using List.find?_some hw
  rw [hw, List.inj_on_of_nodup_map hdistinct (List.mem_of_find?_eq_some hw) hv hsame]

/-! ## How ids are found -/

/-- An id that the search behind a wanted name ends with: the first candidate that is not taken, after
no more steps than names are taken. -/
def Found (taken : List String) (wanted id : String) : Prop :=
  ∃ k ≤ taken.length, id = variableCandidate wanted k ∧ id ∉ taken ∧
    ∀ j < k, variableCandidate wanted j ∈ taken

theorem found_freeVariable (taken : List String) (wanted : String) :
    Found taken wanted (freeVariable taken wanted) := by
  obtain ⟨k, hk, hfound, hfree, hbefore⟩ :=
    exists_firstFree taken (variableCandidate wanted) variableCandidate_inj
  have hname : freeVariable taken wanted = variableCandidate wanted k :=
    congrArg (variableCandidate wanted) hfound
  exact ⟨k, hk, hname, hname ▸ hfree, hbefore⟩

/-- What is taken may be listed in another order. -/
theorem Found.reverse {taken : List String} {wanted id : String} (h : Found taken.reverse wanted id) :
    Found taken wanted id := by
  simpa only [Found, List.length_reverse, List.mem_reverse] using h

/-- The drafts that ask for a variable have one each, in their order. -/
theorem forall₂_variablesFrom (taken : List String) (ds : List Draft) :
    List.Forall₂ (fun v d => v.controlId = d.control.id ∧ v.name = d.control.name ∧
        v.dataType = variableType d.placed.control.type)
      (variablesFrom taken ds) (ds.filter (·.variableName.isSome)) := by
  induction ds generalizing taken with
  | nil => exact .nil
  | cons d ds ih =>
    rw [variablesFrom, List.filter_cons]
    split
    · rename_i hnone
      rw [hnone]
      exact ih taken
    · rename_i wanted hwanted
      rw [hwanted]
      exact .cons ⟨rfl, rfl, rfl⟩ (ih _)

/-- Each id is found behind the name that its draft asks for, the ids before it being taken. -/
theorem found_variablesFrom {taken : List String} {ds : List Draft} {i : Nat} {v : Variable}
    (hv : (variablesFrom taken ds)[i]? = some v) : ∃ d ∈ ds, ∃ wanted, d.variableName = some wanted ∧
      v.name = d.control.name ∧
      Found ((((variablesFrom taken ds).take i).map (·.id)).reverse ++ taken) wanted v.id := by
  induction ds generalizing taken i with
  | nil => simp [variablesFrom] at hv
  | cons d ds ih =>
    rw [variablesFrom] at hv ⊢
    split at hv
    · obtain ⟨e, he, hfound⟩ := ih hv
      exact ⟨e, List.mem_cons_of_mem d he, hfound⟩
    · rename_i wanted hwanted
      obtain _ | i := i
      · obtain rfl := Option.some.inj hv
        exact ⟨d, List.mem_cons_self, wanted, hwanted, rfl, found_freeVariable taken wanted⟩
      · obtain ⟨e, he, w, hw, hname, hfound⟩ := ih hv
        refine ⟨e, List.mem_cons_of_mem d he, w, hw, hname, ?_⟩
        dsimp only
        rw [List.take_succ_cons, List.map_cons, List.reverse_cons, List.append_assoc]
        exact hfound

end Formwright.Nintex
