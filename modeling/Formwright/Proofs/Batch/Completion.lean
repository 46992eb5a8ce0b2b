import Formwright.Proofs.Batch.Accounting
import Mathlib.Data.List.Basic

/-
  The accounts of a run with several workers. Items that found the run cancelled bring nothing, so
  completing a list of items is to take a step for each of the others, in the order in which they
  complete (`foldlM_complete_eq`). At the end the products stand in the order of the items again
  (`inItemOrder_eq`), and the result accounts for the items that were processed
  (`accounts_of_runParallel`).
-/

namespace Formwright.Batch

/-! ## Completing items -/

/-- The items that did not find the run cancelled. -/
def kept (skipped : Nat → Bool) (entries : List (Nat × Item)) : List Item :=
  (entries.filter fun e => !skipped e.1).map (·.2)

section
variable {g : Generator} {o : Options} {formName : Value} {items : List Item}

/-- Cancelling does not matter to what is recorded. -/
theorem recorded_cancel (r : Recorder) (out : Outcome) :
    r.cancel.recorded out = Recorder.cancel <$> r.recorded out := by
  unfold Recorder.recorded Recorder.record
  have hmerged : r.cancel.merged out = r.merged out := rfl
  rw [hmerged]
  cases r.merged out with
  | error f => rfl
  | ok t =>
    by_cases htotal : r.total = 0
    · cases t <;>
        simp [Recorder.advance, Recorder.settle, Recorder.keep, Recorder.message, Recorder.cancel,
          htotal, Functor.map, Except.map]
    · cases t <;>
        simp [Recorder.advance, Recorder.settle, Recorder.keep, Recorder.message, Recorder.cancel,
          htotal, Functor.map, Except.map]

theorem step_cancel (r : Recorder) (item : Item) :
    step g o formName r.cancel item = Recorder.cancel <$> step g o formName r item := by
  rw [step_eq, step_eq]
  cases processItem g o formName item with
  | error f => rfl
  | ok out => exact recorded_cancel r out

theorem foldlM_step_cancel (r : Recorder) :
    items.foldlM (step g o formName) r.cancel =
      Recorder.cancel <$> items.foldlM (step g o formName) r := by
  induction items generalizing r with
  | nil => rfl
  | cons item items ih =>
    rw [List.foldlM_cons, List.foldlM_cons, step_cancel]
    cases step g o formName r item with
    | error f => rfl
    | ok s => exact ih s

/-- To complete items is to take a step for each that did not find the run cancelled. -/
theorem foldlM_complete_eq (skipped : Nat → Bool) (entries : List (Nat × Item)) (r : Recorder) :
    entries.foldlM (complete g o formName skipped) r =
      (kept skipped entries).foldlM (step g o formName) r >>= fun r =>
        .ok (if entries.any (fun e => skipped e.1) then r.cancel else r) := by
  induction entries generalizing r with
  | nil => rfl
  | cons e entries ih =>
    rw [List.foldlM_cons, complete, List.any_cons]
    cases he : skipped e.1 with
    | true =>
      have hkept : kept skipped (e :: entries) = kept skipped entries := by
        rw [kept, List.filter_cons_of_neg (by simp [he])]
        rfl
      rw [if_pos rfl, ok_bind, ih, hkept, foldlM_step_cancel]
      cases (kept skipped entries).foldlM (step g o formName) r with
      | error f => rfl
      | ok s =>
        show Except.ok (if _ then s.cancel.cancel else s.cancel) =
          Except.ok (if _ then s.cancel else s)
        -- cancelled twice is cancelled
        rw [Bool.true_or, if_pos rfl]
        split <;> rfl
    | false =>
      have hkept : kept skipped (e :: entries) = e.2 :: kept skipped entries := by
        rw [kept, List.filter_cons_of_pos (by simp [he])]
        rfl
      rw [if_neg Bool.false_ne_true, hkept, List.foldlM_cons, Bool.false_or, bind_assoc]
      simp only [ih]

/-! ## The order of items -/

theorem map_snd_numbered (items : List Item) : (numbered items).map (·.2) = items := by
  rw [numbered, List.map_map]
  exact List.zipIdx_map_fst 0 items

theorem kept_never (entries : List (Nat × Item)) :
    kept (fun _ => false) entries = entries.map (·.2) := by
  have h : (entries.filter fun e => !(fun _ => false) e.1) = entries :=
    List.filter_eq_self.mpr fun _ _ => rfl
  rw [kept, h]

/-- Which items are kept does not depend on the order in which they complete. -/
theorem kept_perm {skipped : Nat → Bool} {entries : List (Nat × Item)}
    (h : entries.Perm (numbered items)) :
    (kept skipped entries).Perm (kept skipped (numbered items)) :=
  (h.filter _).map _

theorem kept_numbered_sublist (skipped : Nat → Bool) (items : List Item) :
    (kept skipped (numbered items)).Sublist items := by
  have h := (List.filter_sublist (p := fun e => !skipped e.1) (l := numbered items)).map (·.2)
  rwa [map_snd_numbered] at h

/-- An item is missing among the kept ones when one was skipped. -/
theorem length_kept_lt_iff {skipped : Nat → Bool} {entries : List (Nat × Item)} :
    (kept skipped entries).length < entries.length ↔ entries.any (fun e => skipped e.1) = true := by
  rw [kept, List.length_map, List.any_eq_true]
  constructor
  · intro h
    obtain ⟨e, he, hskipped⟩ := List.length_filter_lt_length_iff_exists.mp h
    exact ⟨e, he, by simpa using hskipped⟩
  · rintro ⟨e, he, hskipped⟩
    exact List.length_filter_lt_length_iff_exists.mpr ⟨e, he, by simpa using hskipped⟩

/-- Among products with distinct ids, each is found by its id. -/
theorem find?_id_eq_some_iff {ps : List (String × Product)} (h : (ps.map (·.1)).Nodup) {id : String}
    {p : String × Product} : ps.find? (·.1 == id) = some p ↔ p ∈ ps ∧ p.1 = id := by
  constructor
  · intro hp
    exact ⟨List.mem_of_find?_eq_some hp, by simpa using List.find?_some hp⟩
  · rintro ⟨hp, rfl⟩
    induction ps with
    | nil => exact absurd hp List.not_mem_nil
    | cons q ps ih =>
      rw [List.map_cons, List.nodup_cons] at h
      by_cases hq : q.1 = p.1
      · rcases List.mem_cons.mp hp with rfl | hp
        · rw [List.find?_cons_of_pos (by simp)]
        · exact absurd (hq ▸ List.mem_map_of_mem hp) h.1
      · rcases List.mem_cons.mp hp with rfl | hp
        · exact absurd rfl hq
        · rw [List.find?_cons_of_neg (by simpa using hq)]
          exact ih h.2 hp

theorem find?_id_eq_none {ps : List (String × Product)} {id : String} (h : id ∉ ps.map (·.1)) :
    ps.find? (·.1 == id) = none := by
  rw [List.find?_eq_none]
  intro p hp heq
  refine h ?_
  rw [← show p.1 = id by simpa using heq]
  exact List.mem_map_of_mem hp

/-- Products that stand in the order of the items stay there. -/
theorem inItemOrder_self {qs : List (String × Product)}
    (hqs : (qs.map (·.1)).Sublist (items.map (·.1))) (distinct : (items.map (·.1)).Nodup) :
    inItemOrder items qs = qs := by
  induction items generalizing qs with
  | nil =>
    rw [List.map_nil, List.sublist_nil, List.map_eq_nil_iff] at hqs
    subst hqs
    rfl
  | cons item items ih =>
    rw [List.map_cons, List.nodup_cons] at distinct
    rw [List.map_cons] at hqs
    rcases List.sublist_cons_iff.mp hqs with hqs | ⟨ids, hids, hrest⟩
    · have hnone : qs.find? (·.1 == item.1) = none :=
        find?_id_eq_none fun hmem => distinct.1 (hqs.subset hmem)
      rw [inItemOrder, List.filterMap_cons, hnone]
      exact ih hqs distinct.2
    · obtain _ | ⟨q, qs⟩ := qs
      · cases hids
      · obtain ⟨hq, rfl⟩ := List.cons.inj hids
        have hfirst : (q :: qs).find? (·.1 == item.1) = some q :=
          List.find?_cons_of_pos (by simpa using hq)
        have hothers : ∀ i ∈ items, (q :: qs).find? (·.1 == i.1) = qs.find? (·.1 == i.1) := by
          intro i hi
          refine List.find?_cons_of_neg ?_
          intro heq
          have hqi : q.1 = i.1 := by simpa using heq
          have hmem : i.1 ∈ items.map (·.1) := List.mem_map_of_mem hi
          rw [← hqi, show q.1 = item.1 from hq] at hmem
          exact distinct.1 hmem
        rw [inItemOrder, List.filterMap_cons, hfirst, List.filterMap_congr hothers]
        exact congrArg (q :: ·) (ih hrest distinct.2)

/-- Products in any order are put back into the order of the items. -/
theorem inItemOrder_eq {ps qs : List (String × Product)} (hperm : ps.Perm qs)
    (hqs : (qs.map (·.1)).Sublist (items.map (·.1))) (distinct : (items.map (·.1)).Nodup) :
    inItemOrder items ps = qs := by
  have hq : (qs.map (·.1)).Nodup := distinct.sublist hqs
  have hp : (ps.map (·.1)).Nodup := ((hperm.map _).nodup_iff).mpr hq
  have hfind : ∀ i ∈ items, ps.find? (·.1 == i.1) = qs.find? (·.1 == i.1) := by
    intro i _
    refine Option.ext fun p => ?_
    rw [find?_id_eq_some_iff hp, find?_id_eq_some_iff hq, hperm.mem_iff]
  rw [inItemOrder, List.filterMap_congr hfind]
  exact inItemOrder_self hqs distinct

/-! ## The result -/

variable {skipped : Nat → Bool} {completed : List (Nat × Item)} {workers : Int}
  {startTime now : Calendar.Moment}

theorem runParallel_eq_ok {r : Recorder} :
    runParallel items g o workers completed skipped startTime now = .ok r ↔
      (items ≠ [] → 1 ≤ workers) ∧ ∃ s,
        (kept skipped completed).foldlM (step g o (formNameFor items o))
          (begin items g startTime) = .ok s ∧
        r = ({ s with result := { s.result with
          products := inItemOrder items s.result.products
          cancelled := s.result.cancelled || completed.any fun e => skipped e.1 } } :
            Recorder).finish now := by
  have hworkers : (!items.isEmpty && decide (workers ≤ 0)) = true ↔
      ¬(items ≠ [] → 1 ≤ workers) := by
    rw [Bool.and_eq_true, decide_eq_true_eq]
    cases items with
    | nil => simp
    | cons i is => simp; omega
  have hcancel : ∀ s : Recorder,
      let t := if completed.any (fun e => skipped e.1) then s.cancel else s
      ({ t with result := { t.result with products := inItemOrder items t.result.products } } :
        Recorder).finish now =
      ({ s with result := { s.result with
          products := inItemOrder items s.result.products
          cancelled := s.result.cancelled || completed.any fun e => skipped e.1 } } :
        Recorder).finish now := by
    intro s
    cases completed.any fun e => skipped e.1 with
    | true =>
      rw [Bool.or_true]
      rfl
    | false =>
      rw [Bool.or_false]
      rfl
  unfold runParallel
  by_cases h : items ≠ [] → 1 ≤ workers
  · rw [if_neg (fun hc => hworkers.mp hc h)]
    rw [foldlM_complete_eq]
    refine Iff.trans ?_ (and_iff_right h).symm
    constructor
    · intro hr
      obtain ⟨t, ht, hr⟩ := bind_eq_ok.mp hr
      obtain ⟨s, hs, ht⟩ := bind_eq_ok.mp ht
      refine ⟨s, hs, ?_⟩
      obtain rfl := Except.ok.inj hr
      obtain rfl := Except.ok.inj ht
      exact hcancel s
    · rintro ⟨s, hs, rfl⟩
      refine bind_eq_ok.mpr ⟨_, bind_eq_ok.mpr ⟨s, hs, rfl⟩, ?_⟩
      exact congrArg Except.ok (hcancel s)
  · rw [if_pos (hworkers.mpr h)]
    simp [h]

/-- A run with workers returns when every item that is kept gets an outcome and the statistics of
the successes can be merged. -/
theorem exists_runParallel_eq_ok (hworkers : items ≠ [] → 1 ≤ workers)
    (hperm : completed.Perm (numbered items)) :
    (∃ r, runParallel items g o workers completed skipped startTime now = .ok r) ↔
      ∃ os, (kept skipped completed).mapM (processItem g o (formNameFor items o)) = .ok os ∧
        ∃ s, Statistics.mergeAll (os.flatMap Outcome.gains) = .ok s := by
  have hne : kept skipped completed ≠ [] → items ≠ [] := by
    rintro hkept rfl
    rw [show completed = [] from List.Perm.eq_nil hperm] at hkept
    exact hkept rfl
  rw [← exists_foldlM_step_eq_ok hne startTime]
  constructor
  · rintro ⟨r, hr⟩
    obtain ⟨-, s, hs, -⟩ := runParallel_eq_ok.mp hr
    exact ⟨s, hs⟩
  · rintro ⟨s, hs⟩
    exact ⟨_, runParallel_eq_ok.mpr ⟨hworkers, s, hs, rfl⟩⟩

/-- A run with workers that returns accounts for the outcomes of the items that are kept, in the
order in which they complete; the products stand in the order of the items. -/
theorem accounts_of_runParallel {r : Recorder} (distinct : (items.map (·.1)).Nodup)
    (hperm : completed.Perm (numbered items))
    (h : runParallel items g o workers completed skipped startTime now = .ok r) :
    ∃ os os', (kept skipped completed).mapM (processItem g o (formNameFor items o)) = .ok os ∧
      (kept skipped (numbered items)).mapM (processItem g o (formNameFor items o)) = .ok os' ∧
      os.Perm os' ∧ r.result.products = os'.map (fun out => (out.formId, out.product)) ∧
      Accounts items.length g.target os r := by
  obtain ⟨-, s, hs, rfl⟩ := runParallel_eq_ok.mp h
  obtain ⟨os, hos, hs⟩ := foldlM_step_eq_ok.mp hs
  obtain ⟨os', hos', hosperm⟩ := exists_mapM_perm (kept_perm hperm) hos
  obtain ⟨hholds, hgrows⟩ := Recorder.holds_of_recordAll (Recorder.holds_new _ _ _) hs
  rw [List.nil_append] at hholds
  have hsublist : (os'.map (·.formId)).Sublist (items.map (·.1)) := by
    rw [map_formId_of_mapM_processItem hos']
    exact (kept_numbered_sublist skipped items).map _
  have hnodup : (os.map (·.formId)).Nodup :=
    ((hosperm.map _).nodup_iff).mpr (distinct.sublist hsublist)
  have hproducts : s.result.products = os.map fun out => (out.formId, out.product) := by
    rw [hholds.products, Recorder.foldl_putProduct, List.nil_append]
    rw [List.map_nil, List.nil_append]
    exact hnodup
  have hordered : inItemOrder items s.result.products =
      os'.map fun out => (out.formId, out.product) := by
    rw [hproducts]
    refine inItemOrder_eq (hosperm.map _) ?_ distinct
    rw [List.map_map]
    exact hsublist
  have hlength : os.length = (kept skipped completed).length := length_of_mapM_eq_ok hos
  have htotal : completed.length = items.length := by
    rw [hperm.length_eq, ← List.length_map (·.2), map_snd_numbered]
  have hcancelled : (s.result.cancelled || completed.any fun e => skipped e.1) =
      decide (os.length < items.length) := by
    rw [show s.result.cancelled = false from hgrows.cancelled, Bool.false_or, hlength, ← htotal,
      Bool.eq_iff_iff, decide_eq_true_eq, length_kept_lt_iff]
  have hle : os.length ≤ items.length := by
    rw [hlength, ← htotal, kept, List.length_map]
    exact List.length_filter_le _ _
  have hps : (inItemOrder items s.result.products).Perm
      (os.map fun out => (out.formId, out.product)) := by
    rw [hordered]
    exact (hosperm.map _).symm
  refine ⟨os, os', hos, hos', hosperm, ?_, ?_⟩
  · rw [(Recorder.ends_finish _ now).products]
    exact hordered
  · rw [hcancelled]
    exact accounts_finish hholds hgrows hle hps now

end

end Formwright.Batch
