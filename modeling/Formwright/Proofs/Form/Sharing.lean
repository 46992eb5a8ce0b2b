import Formwright.Proofs.Forest.Unfolding
import Formwright.Proofs.Form.Flattening
import Mathlib.Data.List.Forall2

/-
  Mapping control objects that may share children or point back. Of graphs on which no way from a
  root meets more than 300 different objects, those are rejected in which a control on a cycle can be
  reached, and the fault names the first control that is met again on the way to it. All others are
  mapped as the forest that they unfold to, so a shared control is mapped once for each way that
  leads to it (`mapGraph_unshared`).
-/

namespace Formwright

/-! ## Faults of controls that are flattened already -/

theorem ControlType.category_of_ofValue {read : String → ControlType} {v : Value} {e : Fault}
    (h : ofValue read v = .error e) : e.category = .missingMember := by
  unfold ofValue at h
  split at h
  · split at h <;> cases h
    rfl
  · cases h

theorem Value.category_of_asKey {v : Value} {e : Fault} (h : v.asKey = .error e) :
    e.category = .misuse := by
  unfold asKey at h
  split at h <;> cases h
  rfl

namespace Form

/-- Naming and typing controls never says that these are nested badly. -/
theorem Control.category_of_ofEntries {es : List (Entry Source.Control)} {e : Fault}
    (h : ofEntries es = .error e) : e.category ≠ .mapping := by
  rcases bind_eq_error.mp h with hnames | ⟨names, -, hcontrols⟩
  · rcases bind_eq_error.mp hnames with hkeys | ⟨_, -, hdone⟩
    · obtain ⟨v, -, hkey⟩ := exists_of_mapM_eq_error (map_eq_error.mp hkeys)
      rw [Value.category_of_asKey hkey]
      decide
    · simp at hdone
  · obtain ⟨⟨entry, name⟩, -, hentry⟩ := exists_of_mapM_eq_error hcontrols
    rcases bind_eq_error.mp hentry with htype | ⟨_, -, hdone⟩
    · rw [ControlType.category_of_ofValue htype]
      decide
    · simp at hdone

/-! ## Controls of an unfolding -/

section
variable {g : Graph Source.Control} {roots : List Nat}

/-- Controls that are made from what stands at each place of the unfolding of some objects, in
pre-order. -/
def Unfolding (g : Graph Source.Control) (roots : List Nat) (cs : List Control) : Prop :=
  ∃ ps : List Place, ps.Pairwise (· < ·) ∧ (∀ p, p ∈ ps ↔ (g.node? p roots).isSome) ∧
    List.Forall₂ (fun c p => ∃ a, g.node? p roots = some a ∧ c.IsOf a) cs ps

theorem unfolding_of_mapControls {t : Forest Source.Control} (ht : ∀ p, t.node? p = g.node? p roots)
    {cs : List Control} (h : mapControls t = .ok cs) : Unfolding g roots cs := by
  refine ⟨t.places, t.pairwise_places, fun p => ?_, List.forall₂_iff_get.mpr ⟨?_, ?_⟩⟩
  · rw [Forest.mem_places, ht]
  · rw [length_of_mapControls h, Forest.length_places]
  · intro i hi hi'
    obtain ⟨a, ha, his⟩ := (placed_of_mapControls h (List.getElem?_eq_getElem hi)
      (List.getElem?_eq_getElem hi')).node
    exact ⟨a, (ht _).symm.trans ha, his⟩

/-- What becomes of control objects that may share children or point back. -/
structure Unshared (g : Graph Source.Control) (roots : List Nat) : Prop where
  /-- They are rejected for their nesting exactly when one that lies below itself can be reached. -/
  rejected : (∃ e, mapGraph g roots = .error e ∧ e.category = .mapping) ↔
    ∃ i, g.Reachable roots i ∧ g.OnCycle i
  /-- Then the fault names the one that is the first to be met again on the way to it. -/
  named : (∃ i, g.Reachable roots i ∧ g.OnCycle i) →
    ∃ i a links, g.object? i = some (a, links) ∧ g.FirstRepeat [] roots i ∧
      mapGraph g roots = .error (.containsItself (calledName a))
  /-- Else they are mapped as the forest that has their unfolding, -/
  unfolded : (¬ ∃ i, g.Reachable roots i ∧ g.OnCycle i) →
    ∃ t : Forest Source.Control, t.height ≤ 300 ∧ (∀ p, t.node? p = g.node? p roots) ∧
      mapGraph g roots = mapControls t
  /-- which succeeds when each of them can be named and typed, -/
  succeeds : (¬ ∃ i, g.Reachable roots i ∧ g.OnCycle i) →
    ((∃ cs, mapGraph g roots = .ok cs) ↔ ∀ p a, g.node? p roots = some a → a.Mappable)
  /-- and gives one control for each way to one of them. -/
  emitted : ∀ cs, mapGraph g roots = .ok cs → Unfolding g roots cs

/-- An unfolding that stops at a first repeat rejects the controls. -/
theorem unshared_of_error {e : Fault} (hunfold : g.unfold calledName maxDepth [] roots = .error e)
    (hout : g.Outcome calledName [] roots (.error e)) : Unshared g roots := by
  obtain ⟨i, a, links, hobject, rfl, hrepeat⟩ := hout
  have herror : mapGraph g roots = .error (.containsItself (calledName a)) := by
    rw [mapGraph, hunfold, error_bind]
  have hcycle := hrepeat.exists_onCycle
  exact ⟨⟨fun _ => hcycle, fun _ => ⟨_, herror, rfl⟩⟩,
    fun _ => ⟨i, a, links, hobject, hrepeat, herror⟩, fun hnone => absurd hcycle hnone,
    fun hnone => absurd hcycle hnone, fun cs hcs => by rw [herror] at hcs; cases hcs⟩

/-- One that gives a forest maps them as this forest. -/
theorem unshared_of_ok {t : Forest Source.Control}
    (hshort : ∀ p, (g.node? p roots).isSome → (g.trail p roots).Nodup → p.length ≤ 300)
    (hunfold : g.unfold calledName maxDepth [] roots = .ok t)
    (hout : g.Outcome calledName [] roots (.ok t)) : Unshared g roots := by
  have hnone := hout.not_exists_onCycle
  have hheight : t.height ≤ 300 := by
    rw [Forest.height_le_iff]
    intro p hp
    rw [hout.holds] at hp
    exact hshort p hp (hout.nodup p hp)
  have hdeep : t.height ≤ maxDepth := Nat.le_trans hheight (by decide)
  have hofEntries : mapGraph g roots = Control.ofEntries t.flatten := by
    rw [mapGraph, hunfold, ok_bind]
  have hmap : mapGraph g roots = mapControls t := by
    rw [hofEntries, mapControls, if_neg (Nat.not_lt.mpr hdeep)]
  refine ⟨⟨?_, fun h => absurd h hnone⟩, fun h => absurd h hnone,
    fun _ => ⟨t, hheight, hout.holds, hmap⟩, fun _ => ?_, fun cs hcs => ?_⟩
  · rintro ⟨e, he, hcategory⟩
    rw [hofEntries] at he
    exact absurd hcategory (Control.category_of_ofEntries he)
  · rw [hmap, exists_mapControls_eq_ok]
    simp only [Forest.mem_labels, hout.holds]
    refine ⟨fun h p a ha => h.2 a ⟨p, ha⟩, fun h => ⟨hdeep, fun a ha => ?_⟩⟩
    obtain ⟨p, ha⟩ := ha
    exact h p a ha
  · exact unfolding_of_mapControls hout.holds (hmap.symm.trans hcs)

/-- Control objects are unfolded, or rejected for a cycle, when no way from a root meets more than 300
different objects. -/
theorem mapGraph_unshared (g : Graph Source.Control) (roots : List Nat)
    (hshort : ∀ p, (g.node? p roots).isSome → (g.trail p roots).Nodup → p.length ≤ 300) :
    Unshared g roots := by
  have hout : g.Outcome calledName [] roots (g.unfold calledName maxDepth [] roots) :=
    g.unfold_outcome List.nodup_nil fun p hp hnodup => Nat.le_trans (hshort p hp hnodup) (by decide)
  cases hunfold : g.unfold calledName maxDepth [] roots with
  | error e =>
    rw [hunfold] at hout
    exact unshared_of_error hunfold hout
  | ok t =>
    rw [hunfold] at hout
    exact unshared_of_ok hshort hunfold hout

end

/-- Two tables that share a control, one of them inside of the other, and beside them two that lie
inside of each other. -/
def sharedTables : Graph Source.Control where
  objects := [
    some ({ name := .text "Orders", type := .text "RepeatingTable" }, .objects [1, 2]),
    some ({ name := .text "Lines", type := .text "RepeatingTable" }, .objects [2, 5]),
    some ({ name := .text "Total" }, .objects []),
    some ({ name := .text "Outer", type := .text "Group" }, .objects [2, 4]),
    some ({ name := .text "Inner", type := .text "Group" }, .objects [3]),
    none]

/-- The shared control is mapped once for each table; with the other two, these are rejected. -/
theorem mapGraph_unshared_tables :
    (∀ roots p, (sharedTables.node? p roots).isSome → (sharedTables.trail p roots).Nodup →
        p.length ≤ 300) ∧
      Unshared sharedTables [0] ∧
      (mapGraph sharedTables [0]).map (·.map (·.name)) =
        .ok [.text "Orders", .text "Lines", .text "Total", .text "Total"] ∧
      Unshared sharedTables [0, 4] ∧
      mapGraph sharedTables [0, 4] = .error (.containsItself "Inner") := by
  have hlinked : ∀ i a children, sharedTables.object? i = some (a, .own children) →
      children = .nil := by
    intro i a children h
    have hmem := List.mem_of_getElem? (Option.join_eq_some_iff.mp h)
    simp [sharedTables] at hmem
  have hshort : ∀ roots p, (sharedTables.node? p roots).isSome →
      (sharedTables.trail p roots).Nodup → p.length ≤ 300 := fun roots p hp hnodup =>
    Nat.le_trans (Graph.length_le_of_nodup hlinked hp hnodup) (by decide)
  exact ⟨hshort, mapGraph_unshared _ _ (hshort [0]), rfl,
    mapGraph_unshared _ _ (hshort [0, 4]), rfl⟩

end Form

end Formwright
