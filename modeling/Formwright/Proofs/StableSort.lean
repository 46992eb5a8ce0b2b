/-
  Sorting by a key, such as a number. The sort is stable: items of one key keep their order
  (`filter_mergeSort_eq`), so what comes out is known from what goes in (`stablySorted_mergeSort`),
  and items may be left out before or after (`filter_mergeSort`). So items stand in the order of their
  numbers, and those of one number in the order they had before (`pairwise_mergeSort_of_pairwise`). Put
  together from the items of each number (`flatMap_filter_eq_of_pairwise`), they stand in this order
  too. Where the order of two items is known, so is which one stands in front of the other
  (`mem_take_of_pairwise`).
-/

namespace Formwright

variable {α : Type}

section
variable {κ : Type} [LE κ] [DecidableLE κ] [Std.IsLinearPreorder κ] (key : α → κ)

theorem le_key_trans (a b c : α) (hab : decide (key a ≤ key b) = true)
    (hbc : decide (key b ≤ key c) = true) : decide (key a ≤ key c) = true := by
  rw [decide_eq_true_eq] at hab hbc ⊢
  exact Std.le_trans hab hbc

theorem le_key_total (a b : α) : (decide (key a ≤ key b) || decide (key b ≤ key a)) = true := by
  rw [Bool.or_eq_true, decide_eq_true_eq, decide_eq_true_eq]
  exact Std.le_total

theorem pairwise_le_mergeSort (xs : List α) :
    (xs.mergeSort fun a b => key a ≤ key b).Pairwise fun a b => key a ≤ key b := by
  have h := List.pairwise_mergeSort (le_key_trans key) (le_key_total key) xs
  exact h.imp of_decide_eq_true

variable [BEq κ] [LawfulBEq κ]

/-- Sorting keeps the items of a key in their order. -/
theorem filter_mergeSort_eq (xs : List α) (k : κ) :
    (xs.mergeSort fun a b => key a ≤ key b).filter (key · == k) = xs.filter (key · == k) := by
  have hkey : ∀ a ∈ xs.filter (key · == k), key a = k := by
    intro a ha
    simpa using (List.mem_filter.mp ha).2
  -- the items of one key are sorted already, so they are found in the sorted list
  have hsorted : (xs.filter (key · == k)).Pairwise fun a b => decide (key a ≤ key b) = true := by
    refine List.pairwise_of_forall_mem_list fun a ha b hb => ?_
    rw [hkey a ha, hkey b hb]
    exact decide_eq_true (Std.le_refl k)
  have hsub := (List.sublist_mergeSort (le_key_trans key) (le_key_total key) hsorted
    List.filter_sublist).filter (key · == k)
  rw [List.filter_filter] at hsub
  simp only [Bool.and_self] at hsub
  have hperm := (List.mergeSort_perm xs fun a b => decide (key a ≤ key b)).filter (key · == k)
  exact (hsub.eq_of_length hperm.length_eq.symm).symm

/-- Items in ascending order of a key, those of one key in the order they had before. -/
structure StablySorted (xs ys : List α) : Prop where
  perm : ys.Perm xs
  ascending : ys.Pairwise fun a b => key a ≤ key b
  stable : ∀ k, ys.filter (key · == k) = xs.filter (key · == k)

theorem stablySorted_mergeSort (xs : List α) :
    StablySorted key xs (xs.mergeSort fun a b => key a ≤ key b) :=
  ⟨List.mergeSort_perm _ _, pairwise_le_mergeSort key xs, filter_mergeSort_eq key xs⟩

end

variable (key : α → Nat)

/-- What holds of any two items that stand one behind the other holds in the sorted list of items of
one number; other items are in the order of their numbers. -/
theorem pairwise_mergeSort_of_pairwise {R : α → α → Prop} {xs : List α} (h : xs.Pairwise R) :
    (xs.mergeSort fun a b => key a ≤ key b).Pairwise fun a b =>
      key a < key b ∨ key a = key b ∧ R a b := by
  rw [List.pairwise_iff_forall_sublist]
  intro a b hab
  have hle := List.pairwise_iff_forall_sublist.mp (pairwise_le_mergeSort key xs) hab
  rcases Nat.lt_or_eq_of_le hle with hlt | heq
  · exact Or.inl hlt
  · refine Or.inr ⟨heq, ?_⟩
    have hfilter := hab.filter (key · == key b)
    rw [filter_mergeSort_eq] at hfilter
    have hboth : [a, b].filter (key · == key b) = [a, b] := by simp [heq]
    rw [hboth] at hfilter
    exact List.pairwise_iff_forall_sublist.mp h (hfilter.trans List.filter_sublist)

/-- Where the items of the least number stand in front, a list is these items and then the others. -/
theorem filter_append_filter_of_pairwise {xs : List α} {k : Nat}
    (h : xs.Pairwise fun a b => key a ≤ key b) (hk : ∀ a ∈ xs, k ≤ key a) :
    xs.filter (key · == k) ++ xs.filter (key · != k) = xs := by
  induction xs with
  | nil => rfl
  | cons x xs ih =>
    obtain ⟨hx, hxs⟩ := List.pairwise_cons.mp h
    obtain ⟨hkx, hkxs⟩ := List.forall_mem_cons.mp hk
    by_cases heq : key x = k
    · rw [List.filter_cons_of_pos (by simpa using heq), List.filter_cons_of_neg (by simpa using heq),
        List.cons_append, ih hxs hkxs]
    · -- the items behind `x` have greater numbers still
      have hgt : ∀ a ∈ x :: xs, key a ≠ k := by
        rw [List.forall_mem_cons]
        refine ⟨heq, fun a ha => ?_⟩
        have := hx a ha
        omega
      rw [List.filter_eq_nil_iff.mpr fun a ha => by simpa using hgt a ha,
        List.filter_eq_self.mpr fun a ha => by simpa using hgt a ha, List.nil_append]

/-- Items in the order of their numbers are put together from the items of each number, the numbers
ascending. -/
theorem flatMap_filter_eq_of_pairwise {ks : List Nat} {xs : List α} (hks : ks.Pairwise (· < ·))
    (h : xs.Pairwise fun a b => key a ≤ key b) (hmem : ∀ a ∈ xs, key a ∈ ks) :
    (ks.flatMap fun k => xs.filter (key · == k)) = xs := by
  induction ks generalizing xs with
  | nil =>
    obtain rfl := List.eq_nil_iff_forall_not_mem.mpr fun a ha => absurd (hmem a ha) List.not_mem_nil
    rfl
  | cons k ks ih =>
    obtain ⟨hk, hks⟩ := List.pairwise_cons.mp hks
    have hleast : ∀ a ∈ xs, k ≤ key a := by
      intro a ha
      rcases List.mem_cons.mp (hmem a ha) with heq | hrest
      · omega
      · exact Nat.le_of_lt (hk _ hrest)
    have hothers : (ks.flatMap fun j => (xs.filter (key · != k)).filter (key · == j)) =
        xs.filter (key · != k) := by
      refine ih hks (h.sublist List.filter_sublist) fun a ha => ?_
      obtain ⟨ha, hne⟩ := List.mem_filter.mp ha
      rcases List.mem_cons.mp (hmem a ha) with heq | hrest
      · simp [heq] at hne
      · exact hrest
    have hsame : ∀ j ∈ ks, (xs.filter (key · != k)).filter (key · == j) = xs.filter (key · == j) := by
      intro j hj
      have hkj := hk j hj
      rw [List.filter_filter]
      refine List.filter_congr fun a _ => ?_
      by_cases haj : key a = j
      · have hne : key a ≠ k := by omega
        simp [hne]
      · simp [haj]
    rw [List.flatMap_def, List.map_congr_left hsame, ← List.flatMap_def] at hothers
    rw [List.flatMap_cons, hothers, filter_append_filter_of_pairwise key h hleast]

/-- Items in the order of their numbers are known from the items of each number. -/
theorem eq_of_filter_eq {xs ys : List α} (hxs : xs.Pairwise fun a b => key a ≤ key b)
    (hys : ys.Pairwise fun a b => key a ≤ key b)
    (h : ∀ k, xs.filter (key · == k) = ys.filter (key · == k)) : xs = ys := by
  obtain ⟨n, hn⟩ : ∃ n, ∀ a ∈ xs, key a < n := by
    clear hxs h
    induction xs with
    | nil => exact ⟨0, fun a ha => absurd ha List.not_mem_nil⟩
    | cons x xs ih =>
      obtain ⟨n, hn⟩ := ih
      refine ⟨max (key x + 1) n, fun a ha => ?_⟩
      rcases List.mem_cons.mp ha with rfl | ha
      · omega
      · exact Nat.lt_of_lt_of_le (hn a ha) (Nat.le_max_right _ _)
  have hmem : ∀ a ∈ ys, a ∈ xs := by
    intro a ha
    have hkey : a ∈ xs.filter (key · == key a) := by
      rw [h, List.mem_filter]
      exact ⟨ha, beq_self_eq_true _⟩
    exact (List.mem_filter.mp hkey).1
  have hxall := flatMap_filter_eq_of_pairwise key List.pairwise_lt_range hxs
    fun a ha => List.mem_range.mpr (hn a ha)
  have hyall := flatMap_filter_eq_of_pairwise key List.pairwise_lt_range hys
    fun a ha => List.mem_range.mpr (hn a (hmem a ha))
  simp only [h] at hxall
  exact hxall.symm.trans hyall

/-- Items may be left out before sorting or after it. -/
theorem filter_mergeSort (p : α → Bool) (xs : List α) :
    (xs.mergeSort fun a b => key a ≤ key b).filter p =
      (xs.filter p).mergeSort fun a b => key a ≤ key b := by
  refine eq_of_filter_eq key ((pairwise_le_mergeSort key xs).sublist List.filter_sublist)
    (pairwise_le_mergeSort key _) fun k => ?_
  have hswap : ∀ ys : List α, (ys.filter p).filter (key · == k) =
      (ys.filter (key · == k)).filter p := by
    intro ys
    rw [List.filter_filter, List.filter_filter]
    exact List.filter_congr fun a _ => Bool.and_comm _ _
  rw [filter_mergeSort_eq, hswap, hswap, filter_mergeSort_eq]

/-- Where a relation holds of any two items one behind the other, an item that it does not relate
to another one stands in front of it. -/
theorem mem_take_of_pairwise {R : α → α → Prop} {xs : List α} {i : Nat} {x y : α}
    (h : xs.Pairwise R) (hx : xs[i]? = some x) (hy : y ∈ xs) (hne : y ≠ x) (hR : ¬ R x y) :
    y ∈ xs.take i := by
  obtain ⟨j, hj⟩ := List.getElem?_of_mem hy
  obtain ⟨hi, rfl⟩ := List.getElem?_eq_some_iff.mp hx
  obtain ⟨hjs, rfl⟩ := List.getElem?_eq_some_iff.mp hj
  rcases Nat.lt_trichotomy j i with hlt | rfl | hgt
  · exact List.mem_take_iff_getElem.mpr ⟨j, by omega, rfl⟩
  · exact absurd rfl hne
  · exact absurd (List.pairwise_iff_getElem.mp h i j hi hjs hgt) hR

/-- In front of an item stands nothing that the item should stand in front of. -/
theorem rel_of_mem_take {R : α → α → Prop} {xs : List α} {i : Nat} {x y : α} (h : xs.Pairwise R)
    (hx : xs[i]? = some x) (hy : y ∈ xs.take i) : R y x := by
  obtain ⟨hi, rfl⟩ := List.getElem?_eq_some_iff.mp hx
  obtain ⟨j, hj, rfl⟩ := List.mem_take_iff_getElem.mp hy
  exact List.pairwise_iff_getElem.mp h j i (by omega) hi (by omega)

end Formwright
