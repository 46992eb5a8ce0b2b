import Formwright.Proofs.Batch.Schedule

/-
  Cancelled runs with several workers. An item either finds the run cancelled and brings nothing, or is
  processed and recorded. Whatever the order in which the items complete, and whichever of them find the
  run cancelled, the run returns and accounts for exactly the others (`runParallel_accounts`): its
  warning counts the items that were skipped, though it is computed from how many were recorded
  (`length_kept`).
-/

namespace Formwright.Batch

section
variable {items : List Item} {g : Generator} {o : Options} {skipped : Nat → Bool}
  {completed : List (Nat × Item)}

/-! ## Skipped items -/

/-- How many of `n` items are skipped. -/
def skippedCount (skipped : Nat → Bool) (n : Nat) : Nat := (List.range n).countP skipped

theorem skippedCount_pos_iff {n : Nat} : 0 < skippedCount skipped n ↔ ∃ i < n, skipped i = true := by
  unfold skippedCount
  rw [List.countP_pos_iff]
  simp only [List.mem_range]

theorem skippedCount_le (skipped : Nat → Bool) (n : Nat) : skippedCount skipped n ≤ n := by
  have hle := List.countP_le_length (p := skipped) (l := List.range n)
  rwa [List.length_range] at hle

theorem map_fst_numbered (items : List Item) : (numbered items).map (·.1) = List.range items.length := by
  rw [numbered, List.map_map, List.range_eq_range']
  exact List.zipIdx_map_snd 0 items

/-- The items that are recorded are as many as those that are not skipped. -/
theorem length_kept (hperm : completed.Perm (numbered items)) :
    (kept skipped completed).length = items.length - skippedCount skipped items.length := by
  have hskipped : completed.countP (fun e => skipped e.1) = skippedCount skipped items.length := by
    have hmap : (numbered items).countP (fun e => skipped e.1) =
        ((numbered items).map (·.1)).countP skipped := by
      rw [List.countP_map]
      rfl
    rw [hperm.countP_eq, hmap, map_fst_numbered, skippedCount]
  have hkept : (kept skipped completed).length = completed.countP fun e => !skipped e.1 := by
    rw [kept, List.length_map, List.countP_eq_length_filter]
  have hlength : completed.length = items.length := by
    rw [hperm.length_eq, ← List.length_map (·.2), map_snd_numbered]
  have hall := List.length_eq_countP_add_countP (fun e : Nat × Item => skipped e.1) (l := completed)
  have hnot : completed.countP (fun e => decide ¬skipped e.1 = true) =
      completed.countP fun e => !skipped e.1 := by
    refine List.countP_congr fun e _ => ?_
    simp
  omega

/-! ## The result of a cancelled run -/

/-- Outcomes of items come from items that are kept. -/
theorem exists_outcomes_kept {formName : Value} (skipped : Nat → Bool)
    (hperm : completed.Perm (numbered items))
    (hreturns : ∀ item ∈ items, ∃ out, processItem g o formName item = .ok out) :
    ∃ os, (kept skipped completed).mapM (processItem g o formName) = .ok os := by
  refine exists_mapM_eq_ok.mpr fun item hitem => hreturns item ?_
  have hmem := (kept_perm hperm).mem_iff.mp hitem
  exact (kept_numbered_sublist skipped items).subset hmem

theorem whole_gains_of_mapM {formName : Value} {done : List Item} {os : List Outcome} (hg : g.IsWhole)
    (hos : done.mapM (processItem g o formName) = .ok os) : ∀ out ∈ os, ∀ s ∈ out.gains, s.Whole := by
  intro out hout
  obtain ⟨item, -, hitem⟩ := exists_of_mem_mapM_eq_ok hos hout
  exact whole_of_mem_gains hg hitem

/-- Take a generator whose statistics are whole, and items that all get an outcome. Whatever the order
in which they complete and whichever of them find the run cancelled, a run with workers returns and
records exactly the others, each once: the products stand in the order of the items, progress in that of
completion, and the statistics are the sum over the recorded successes. The run is cancelled when an
item was skipped, and then its last warning tells how many were. -/
theorem runParallel_accounts {workers : Int} (distinct : (items.map (·.1)).Nodup) (hg : g.IsWhole)
    (hreturns : ∀ item ∈ items, ∃ out, processItem g o (formNameFor items o) item = .ok out)
    (hworkers : 1 ≤ workers) (hperm : completed.Perm (numbered items)) (skipped : Nat → Bool)
    (startTime now : Calendar.Moment) :
    ∃ (r : Recorder) (os os' : List Outcome),
      runParallel items g o workers completed skipped startTime now = .ok r ∧
      (kept skipped completed).map (processItem g o (formNameFor items o)) = os.map .ok ∧
      (kept skipped (numbered items)).map (processItem g o (formNameFor items o)) = os'.map .ok ∧
      r.result.products = os'.map (fun out => (out.formId, out.product)) ∧
      r.result.products.map (·.1) = (kept skipped (numbered items)).map (·.1) ∧
      r.completed = items.length - skippedCount skipped items.length ∧
      r.events.map (·.index) = List.range' 1 (items.length - skippedCount skipped items.length) ∧
      r.events.map (·.formId) = (kept skipped completed).map (·.1) ∧
      r.events.map (·.success) = os.map (·.product.success) ∧
      Statistics.mergeAll (os.flatMap Outcome.gains) = .ok r.result.statistics ∧
      (r.result.cancelled = true ↔ ∃ i < items.length, skipped i = true) ∧
      r.result.warnings = os.flatMap Outcome.warningLines ++
        (if r.result.cancelled then
          ["Batch cancelled, " ++ (skippedCount skipped items.length).repr ++ " form(s) not processed"]
        else []) ∧
      (r.result.success = true ↔ ∃ out ∈ os, out.product.success = true) ∧
      Accounts items.length g.target os r := by
  obtain ⟨os, hos⟩ := exists_outcomes_kept skipped hperm hreturns
  have hsum := exists_mergeAll_of_whole (whole_gains_of_mapM hg hos)
  obtain ⟨r, hr⟩ : ∃ r, runParallel items g o workers completed skipped startTime now = .ok r :=
    (exists_runParallel_eq_ok (fun _ => hworkers) hperm).mpr ⟨os, hos, hsum⟩
  obtain ⟨us, os', hus, hos', -, hproducts, haccounts⟩ := accounts_of_runParallel distinct hperm hr
  obtain rfl := Except.ok.inj (hos.symm.trans hus)
  have hlength : os.length = items.length - skippedCount skipped items.length := by
    rw [length_of_mapM_eq_ok hos, length_kept hperm]
  have hle := skippedCount_le skipped items.length
  have hcancelled : r.result.cancelled = true ↔ 0 < skippedCount skipped items.length := by
    rw [haccounts.cancelled, decide_eq_true_eq]
    omega
  refine ⟨r, os, os', hr, mapM_eq_ok.mp hos, mapM_eq_ok.mp hos', hproducts, ?_, ?_, ?_, ?_, ?_,
    haccounts.statistics, hcancelled.trans skippedCount_pos_iff, ?_, ?_, haccounts⟩
  · rw [hproducts, List.map_map]
    exact map_formId_of_mapM_processItem hos'
  · rw [haccounts.completed, hlength]
  · rw [haccounts.map_index_events, hlength]
  · rw [haccounts.map_formId_events, map_formId_of_mapM_processItem hos]
  · rw [haccounts.events, List.map_map]
    show (os.zipIdx 1).map ((·.product.success) ∘ (·.1)) = _
    rw [← List.map_map, List.zipIdx_map_fst]
  · have hmissing : items.length - os.length = skippedCount skipped items.length := by omega
    rw [haccounts.warnings, haccounts.cancelled, hmissing]
    simp only [decide_eq_true_eq]
  · rw [haccounts.success, List.any_eq_true]

end

/-- Of three items the second one finds the run cancelled, and it is the first to complete. -/
theorem runParallel_accounts_interrupted :
    let g : Generator := .ofProducts "t" fun _ _ =>
      .ok { success := true, statistics := .statistics { totalPages := .int 1 } }
    let a : Analysis := { formName := .text "f", definition := some { views := [{}] } }
    let items : List Item := [("a", some a), ("b", some a), ("c", none)]
    let t : Calendar.Moment := ⟨⟨2024, 1, 1⟩, 9, 0, 0, 0, none⟩
    ∃ r, runParallel items g {} 2 [(1, ("b", some a)), (2, ("c", none)), (0, ("a", some a))]
        (fun i => i == 1) t t = .ok r ∧
      r.result.products.map (·.1) = ["a", "c"] ∧ r.events.map (·.formId) = ["c", "a"] ∧
      r.events.map (·.index) = [1, 2] ∧ r.result.cancelled = true := by
  intro g a items t
  have hg : g.IsWhole := by
    intro f o p s hp hs
    obtain rfl := Answer.product.inj (Except.ok.inj hp)
    obtain rfl := Attachment.statistics.inj hs
    have hempty := Statistics.whole_empty
    exact ⟨rfl, rfl, rfl, rfl, rfl, hempty.controlTypes, hempty.widgetTypes⟩
  have hreturns : ∀ item ∈ items, ∃ out, processItem g {} (formNameFor items {}) item = .ok out := by
    intro item hitem
    simp only [items, List.mem_cons, List.not_mem_nil, or_false] at hitem
    rcases hitem with rfl | rfl | rfl
    · exact ⟨_, by with_unfolding_all rfl⟩
    · exact ⟨_, by with_unfolding_all rfl⟩
    · exact ⟨_, rfl⟩
  have hperm : [(1, ("b", some a)), (2, ("c", none)), (0, ("a", some a))].Perm (numbered items) := by
    exact List.perm_append_singleton (0, ("a", some a)) [(1, ("b", some a)), (2, ("c", none))]
  obtain ⟨r, os, os', hr, -, -, -, hproducts, -, hindex, hids, -, -, hcancelled, -⟩ :=
    runParallel_accounts (by decide) hg hreturns (by decide : (1 : Int) ≤ 2) hperm (fun i => i == 1) t t
  exact ⟨r, hr, hproducts, hids, hindex, hcancelled.mpr ⟨1, by decide, rfl⟩⟩

end Formwright.Batch
