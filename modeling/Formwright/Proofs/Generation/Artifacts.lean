import Formwright.Generation.Basic
import Formwright.Proofs.Distinct
import Mathlib.Data.List.Forall2

/-
  Artifacts of a product. Each has a name of its own, as a text that is put under a name takes the
  place of the one that was there (`nodup_foldl_putArtifact`). So of texts that are put one after
  another all are kept exactly when their names differ (`foldl_putArtifact_eq_iff`), and under each name
  there is the last one (`lookup_foldl_putArtifact`). Which text is kept under a name depends on the names
  only, so texts that are put under the same names and that are related one by one stay so
  (`Alike.putAll`).
-/

namespace Formwright

theorem map_fst_putArtifact (as : List (String × String)) (name text : String) :
    (putArtifact as name text).map (·.1) = keepFirst id (as.map (·.1)) name :=
  map_fst_set as name text

theorem lookup_putArtifact (as : List (String × String)) (name text n : String) :
    (putArtifact as name text).lookup n = if n = name then some text else as.lookup n :=
  lookup_set as name text n

section
variable {α : Type} (name text : α → String)

/-- Artifacts have a name each. -/
theorem nodup_foldl_putArtifact (xs : List α) {as : List (String × String)}
    (h : (as.map (·.1)).Nodup) :
    ((xs.foldl (fun as x => putArtifact as (name x) (text x)) as).map (·.1)).Nodup := by
  induction xs generalizing as with
  | nil => exact h
  | cons x xs ih =>
    refine ih ?_
    rw [← List.map_id (as.map (·.1))] at h
    have hstep := (nodup_keepFirst id h (name x)).1
    rwa [List.map_id, ← map_fst_putArtifact as (name x) (text x)] at hstep

/-- Texts under names that are new and that differ are kept in their order. -/
theorem foldl_putArtifact_of_nodup {xs : List α} {as : List (String × String)}
    (h : (as.map (·.1) ++ xs.map name).Nodup) :
    xs.foldl (fun as x => putArtifact as (name x) (text x)) as =
      as ++ xs.map fun x => (name x, text x) := by
  induction xs generalizing as with
  | nil => rw [List.map_nil, List.append_nil, List.foldl_nil]
  | cons x xs ih =>
    have hnew : as.any (·.1 == name x) = false := by
      rw [List.any_eq_false]
      intro a ha heq
      obtain ⟨-, -, hdisjoint⟩ := List.nodup_append.mp h
      exact hdisjoint a.1 (List.mem_map_of_mem ha) (name x) List.mem_cons_self (beq_iff_eq.mp heq)
    rw [List.map_cons, List.append_cons] at h
    rw [List.foldl_cons, putArtifact_new _ hnew, ih (by rwa [List.map_append]), List.append_assoc]
    rfl

/-- The text that is kept under a name is the last one that was put there. -/
theorem lookup_foldl_putArtifact (xs : List α) (as : List (String × String)) (n : String) :
    (xs.foldl (fun as x => putArtifact as (name x) (text x)) as).lookup n =
      ((xs.map fun x => (name x, text x)).reverse ++ as).lookup n := by
  induction xs generalizing as with
  | nil => rfl
  | cons x xs ih =>
    rw [List.foldl_cons, ih, List.map_cons, List.reverse_cons, List.append_assoc, List.lookup_append,
      List.lookup_append, lookup_putArtifact, List.singleton_append, lookup_cons_eq]

/-- Every text is an artifact of its own exactly when the names differ. -/
theorem foldl_putArtifact_eq_iff {xs : List α} :
    xs.foldl (fun as x => putArtifact as (name x) (text x)) [] = xs.map (fun x => (name x, text x)) ↔
      (xs.map name).Nodup := by
  constructor
  · intro h
    have hnone : (([] : List (String × String)).map (·.1)).Nodup := List.nodup_nil
    have hnodup := nodup_foldl_putArtifact name text xs hnone
    rwa [h, List.map_map] at hnodup
  · intro h
    exact foldl_putArtifact_of_nodup name text h

end

/-! ## Artifacts of two runs -/

/-- Artifacts of the same names in the same order, with texts that are related. -/
def Alike (R : String → String → Prop) : List (String × String) → List (String × String) → Prop :=
  List.Forall₂ fun a b => a.1 = b.1 ∧ R a.2 b.2

section
variable {R : String → String → Prop} {as bs : List (String × String)}

theorem Alike.map_fst (h : Alike R as bs) : as.map (·.1) = bs.map (·.1) := by
  induction h with
  | nil => rfl
  | cons hab _ ih => rw [List.map_cons, List.map_cons, hab.1, ih]

/-- Whether a name is there does not depend on the texts. -/
theorem Alike.any_name (h : Alike R as bs) (name : String) :
    as.any (·.1 == name) = bs.any (·.1 == name) := by
  induction h with
  | nil => rfl
  | cons hab _ ih => rw [List.any_cons, List.any_cons, hab.1, ih]

theorem Alike.put (h : Alike R as bs) (name : String) {text text' : String} (htext : R text text') :
    Alike R (putArtifact as name text) (putArtifact bs name text') := by
  unfold putArtifact
  rw [h.any_name name]
  split
  · refine List.forall₂_map_left_iff.mpr (List.forall₂_map_right_iff.mpr (h.imp fun a b hab => ?_))
    rw [hab.1]
    by_cases hname : (b.1 == name) = true
    · rw [if_pos hname, if_pos hname]
      exact ⟨rfl, htext⟩
    · rw [if_neg hname, if_neg hname]
      exact hab
  · exact List.rel_append h (List.Forall₂.cons ⟨rfl, htext⟩ List.Forall₂.nil)

theorem Alike.putAll {α : Type} {name text text' : α → String} {xs : List α}
    (htext : ∀ x ∈ xs, R (text x) (text' x)) (h : Alike R as bs) :
    Alike R (xs.foldl (fun as x => putArtifact as (name x) (text x)) as)
      (xs.foldl (fun as x => putArtifact as (name x) (text' x)) bs) := by
  induction xs generalizing as bs with
  | nil => exact h
  | cons x xs ih =>
    obtain ⟨hx, hxs⟩ := List.forall_mem_cons.mp htext
    exact ih hxs (h.put (name x) hx)

end

end Formwright
