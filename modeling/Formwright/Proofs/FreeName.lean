import Formwright.Proofs.Text.Numerals
import Mathlib.Data.List.Nodup
import Mathlib.Data.List.Perm.Subperm

/-
  Searching for a name that is free. Of candidates that differ one is free among one more of them than
  names are taken, so the search ends at the first free one (`exists_firstFree`). A name and the same
  name with numbers behind it are such candidates (`numbered_inj`).
-/

namespace Formwright

/-- Of candidates that differ, there is a free one among one more than names are taken. -/
theorem candidate_not_mem (taken : List String) (candidate : Nat → String)
    (hinj : ∀ {j k}, candidate j = candidate k → j = k) :
    candidate (((List.range (taken.length + 1)).find? fun k => !taken.contains (candidate k)).getD 0) ∉
      taken := by
  cases hfind : (List.range (taken.length + 1)).find? fun k => !taken.contains (candidate k) with
  | some k =>
    have hfree := List.find?_some hfind
    simpa using hfree
  | none =>
    have htaken : ∀ k ∈ List.range (taken.length + 1), candidate k ∈ taken := by
      intro k hk
      simpa using List.find?_eq_none.mp hfind k hk
    have hsubset : (List.range (taken.length + 1)).map candidate ⊆ taken := by
      intro s hs
      obtain ⟨k, hk, rfl⟩ := List.mem_map.mp hs
      exact htaken k hk
    have hdistinct : ((List.range (taken.length + 1)).map candidate).Nodup :=
      List.pairwise_map.mpr (List.nodup_range.imp fun hne heq => hne (hinj heq))
    have hlength := (List.subperm_of_subset hdistinct hsubset).length_le
    rw [List.length_map, List.length_range] at hlength
    omega

/-- The search ends at the first free candidate, after no more steps than names are taken. -/
theorem exists_firstFree (taken : List String) (candidate : Nat → String)
    (hinj : ∀ {j k}, candidate j = candidate k → j = k) : ∃ k ≤ taken.length,
      ((List.range (taken.length + 1)).find? fun k => !taken.contains (candidate k)).getD 0 = k ∧
      candidate k ∉ taken ∧ ∀ j < k, candidate j ∈ taken := by
  have hfree := candidate_not_mem taken candidate hinj
  cases hfind : (List.range (taken.length + 1)).find? fun k => !taken.contains (candidate k) with
  | none =>
    rw [hfind] at hfree
    exact ⟨0, Nat.zero_le _, rfl, hfree, fun j hj => absurd hj (Nat.not_lt_zero j)⟩
  | some k =>
    rw [hfind] at hfree
    obtain ⟨-, hk, hbefore⟩ := List.find?_range_eq_some.mp hfind
    refine ⟨k, Nat.le_of_lt_succ (List.mem_range.mp hk), rfl, hfree, fun j hj => ?_⟩
    simpa using hbefore j hj

/-- A name, and the name with a number from 2 on behind it. -/
theorem numbered_inj {wanted : String} {j k : Nat}
    (h : (if j = 0 then wanted else wanted ++ "_" ++ (j + 1).repr) =
      if k = 0 then wanted else wanted ++ "_" ++ (k + 1).repr) : j = k := by
  have hlonger : ∀ n : Nat, wanted ++ "_" ++ n.repr ≠ wanted := by
    intro n heq
    have hlength := congrArg String.length heq
    have hone : "_".length = 1 := by decide
    rw [String.length_append, String.length_append, hone] at hlength
    omega
  split at h
  · rename_i hj
    split at h
    · rename_i hk
      rw [hj, hk]
    · exact absurd h.symm (hlonger _)
  · split at h
    · exact absurd h (hlonger _)
    · rw [String.append_right_inj] at h
      have := Text.eq_of_repr_eq h
      omega

end Formwright
