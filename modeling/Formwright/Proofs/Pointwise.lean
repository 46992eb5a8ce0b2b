import Formwright.Proofs.Success
import Mathlib.Data.List.Forall2

/-
  Lists that correspond item by item. Such correspondences can be composed (`forall₂_trans`), and each
  item has one that it corresponds to (`exists_of_mem_forall₂`). Results of a step for each item
  correspond to the items (`forall₂_of_mapM_eq_ok`), and items that lead to the same one by one lead to
  the same together (`mapM_eq_of_forall₂`).
-/

namespace Formwright

variable {ε α β γ : Type}

/-- Lists that correspond to one list in the middle correspond to each other. -/
theorem forall₂_trans {R : α → β → Prop} {S : β → γ → Prop} {T : α → γ → Prop} {as : List α}
    {bs : List β} {cs : List γ} (ha : List.Forall₂ R as bs) (hb : List.Forall₂ S bs cs)
    (hT : ∀ {a : α} {b : β} {c : γ}, R a b → S b c → T a c) : List.Forall₂ T as cs := by
  induction ha generalizing cs with
  | nil =>
    cases hb
    exact .nil
  | cons hab _ ih =>
    cases hb with
    | cons hbc hbs => exact .cons (hT hab hbc) (ih hbs)

/-- An item of a list corresponds to one of the other list. -/
theorem exists_of_mem_forall₂ {R : α → β → Prop} {as : List α} {bs : List β}
    (h : List.Forall₂ R as bs) {a : α} (ha : a ∈ as) : ∃ b ∈ bs, R a b := by
  induction h with
  | nil => cases ha
  | cons hab _ ih =>
    rcases List.mem_cons.mp ha with rfl | ha
    · exact ⟨_, List.mem_cons_self, hab⟩
    · obtain ⟨b, hb, hab⟩ := ih ha
      exact ⟨b, List.mem_cons_of_mem _ hb, hab⟩

/-- Results of a step for each item correspond to the items as each one does. -/
theorem forall₂_of_mapM_eq_ok {f : α → Except ε β} {R : β → α → Prop} {xs : List α}
    {ys : List β} (hR : ∀ x ∈ xs, ∀ y, f x = .ok y → R y x) (h : xs.mapM f = .ok ys) :
    List.Forall₂ R ys xs := by
  induction xs generalizing ys with
  | nil =>
    obtain rfl := Except.ok.inj h
    exact .nil
  | cons x xs ih =>
    obtain ⟨y, zs, hy, hzs, rfl⟩ := mapM_cons_eq_ok.mp h
    exact .cons (hR x List.mem_cons_self y hy)
      (ih (fun z hz => hR z (List.mem_cons_of_mem x hz)) hzs)

/-- Items that lead to the same one by one lead to the same together. -/
theorem mapM_eq_of_forall₂ {f : α → Except ε γ} {g : β → Except ε γ} {xs : List α}
    {ys : List β} (h : List.Forall₂ (fun x y => f x = g y) xs ys) : xs.mapM f = ys.mapM g := by
  induction h with
  | nil => rfl
  | cons hxy _ ih => rw [List.mapM_cons, List.mapM_cons, hxy, ih]

/-- Where exactly the items of a filter lead to something, what the items lead to corresponds to the
items of the filter. -/
theorem forall₂_filter_filterMap {q : α → Bool} {g : α → Option β} {R : α → β → Prop} {xs : List α}
    (hsome : ∀ x ∈ xs, q x = true → ∃ y, g x = some y ∧ R x y) (hnone : ∀ x ∈ xs, q x = false → g x = none) :
    List.Forall₂ R (xs.filter q) (xs.filterMap g) := by
  induction xs with
  | nil => exact .nil
  | cons x xs ih =>
    rw [List.forall_mem_cons] at hsome hnone
    have ih := ih hsome.2 hnone.2
    cases hq : q x with
    | true =>
      obtain ⟨y, hy, hxy⟩ := hsome.1 hq
      rw [List.filter_cons_of_pos hq, List.filterMap_cons_some hy]
      exact .cons hxy ih
    | false =>
      rw [List.filter_cons_of_neg (by rw [hq]; exact Bool.false_ne_true),
        List.filterMap_cons_none (hnone.1 hq)]
      exact ih

end Formwright
