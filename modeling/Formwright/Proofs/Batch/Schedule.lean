import Formwright.Proofs.Batch.Completion
import Formwright.Proofs.Batch.Isolation
import Formwright.Proofs.Statistics.Merge

/-
  Runs agree. Recording takes outcomes one at a time, and whole statistics have one sum in every
  order. So a run with workers gives what a run in order gives, however its items complete, and a
  run over the same items in another order gives the same product for each. Only errors, warnings
  and progress follow the order in which items are recorded (`Accounts.agrees`).
-/

namespace Formwright

/-- A generator whose statistics, where it attaches any, have whole counters. -/
def Generator.IsWhole (g : Generator) : Prop :=
  ∀ f o p s, g.generate f o = .ok (.product p) → p.statistics = .statistics s → s.Whole

namespace Batch

/-! ## Whole statistics -/

section
variable {g : Generator} {o : Options} {formName : Value} {item : Item} {out : Outcome}

/-- A product with statistics passes the check as it is. -/
theorem checkAnswer_eq_ok {answer : Answer} {p : Product} {s : Statistics}
    (h : checkAnswer answer = .ok p) (hs : p.statistics = .statistics s) : answer = .product p := by
  unfold checkAnswer at h
  split at h
  · cases h
  · cases h
  · split at h
    · split at h
      · obtain rfl := Except.ok.inj h
        cases hs
      · cases h
    · obtain rfl := Except.ok.inj h
      rfl

theorem generate_of_answerFor {f : Form} {p : Product} {s : Statistics}
    (h : answerFor g o formName f = .ok p) (hs : p.statistics = .statistics s) :
    g.generate (renamed f formName) o = .ok (.product p) := by
  obtain ⟨answer, hanswer, hcheck⟩ := bind_eq_ok.mp h
  rw [hanswer, checkAnswer_eq_ok hcheck hs]

/-- The statistics of a success are whole, whether they came with it or were derived. -/
theorem whole_of_mem_gains (hg : g.IsWhole) (h : processItem g o formName item = .ok out) :
    ∀ s ∈ out.gains, s.Whole := by
  intro s hs
  unfold Outcome.gains at hs
  split at hs
  · rename_i hsuccess
    obtain ⟨e, -, rfl⟩ | ⟨f, report, hf, -, ⟨e, -, rfl⟩ | ⟨p, hp, hconclude⟩⟩ :=
      process_eq_ok_iff.mp h
    · cases hsuccess
    · cases hsuccess
    · obtain ⟨-, t, ht, rfl⟩ | ⟨hfailure, rfl⟩ := conclude_eq_ok_iff.mp hconclude
      · obtain rfl : s = t := by simpa using hs
        unfold statisticsOf at ht
        split at ht
        · rename_i u hu
          obtain rfl := Except.ok.inj ht
          exact hg _ _ _ _ (generate_of_answerFor hp hu) hu
        · refine Statistics.whole_of_collect ?_ ht
          rw [allControls_renamed]
          exact Form.mapped_of_ofAnalysis hf
      · cases hsuccess.symm.trans hfailure
  · exact absurd hs List.not_mem_nil

end

/-! ## Agreement -/

/-- Two finished recorders that agree on everything but the order of what was recorded. -/
structure Agrees (r r' : Recorder) : Prop where
  products : r'.result.products.Perm r.result.products
  statistics : r'.result.statistics.Same r.result.statistics
  success : r'.result.success = r.result.success
  cancelled : r'.result.cancelled = r.result.cancelled
  completed : r'.completed = r.completed
  succeeded : r'.result.succeeded = r.result.succeeded
  failed : r'.result.failed = r.result.failed
  errors : r'.result.errors.Perm r.result.errors
  warnings : r'.result.warnings.Perm r.result.warnings

/-- Results for the same outcomes in another order agree. -/
theorem Accounts.agrees {n : Nat} {target : String} {os os' : List Outcome} {r r' : Recorder}
    (h : Accounts n target os r) (h' : Accounts n target os' r') (hperm : os'.Perm os)
    (hproducts : r'.result.products.Perm r.result.products)
    (hwhole : ∀ out ∈ os, ∀ s ∈ out.gains, s.Whole) : Agrees r r' := by
  have hlength := hperm.length_eq
  constructor
  · exact hproducts
  · have hgains : (os'.flatMap Outcome.gains).Perm (os.flatMap Outcome.gains) :=
      hperm.flatMap_right _
    refine Statistics.same_of_perm hgains (fun s hs => ?_) h'.statistics h.statistics
    obtain ⟨out, hout, hs⟩ := List.mem_flatMap.mp hs
    exact hwhole out (hperm.mem_iff.mp hout) s hs
  · rw [h'.success, h.success, hperm.any_eq]
  · rw [h'.cancelled, h.cancelled, hlength]
  · rw [h'.completed, h.completed, hlength]
  · rw [h'.succeeded, h.succeeded, hperm.countP_eq]
  · rw [h'.failed, h.failed, hperm.countP_eq]
  · rw [h'.errors, h.errors]
    exact hperm.flatMap_right _
  · rw [h'.warnings, h.warnings, hlength]
    exact (hperm.flatMap_right _).append_right _

section
variable {items : List Item} {g : Generator} {o : Options} {os : List Outcome}

theorem exists_mergeAll_of_whole (hwhole : ∀ out ∈ os, ∀ s ∈ out.gains, s.Whole) :
    ∃ s, Statistics.mergeAll (os.flatMap Outcome.gains) = .ok s := by
  have hgains : ∀ s ∈ os.flatMap Outcome.gains, s.Whole := by
    intro s hs
    obtain ⟨out, hout, hs⟩ := List.mem_flatMap.mp hs
    exact hwhole out hout s hs
  obtain ⟨s, hs, -⟩ := Statistics.exists_mergeAll_eq_ok hgains
  exact ⟨s, hs⟩

/-- A run over items with whole statistics returns. -/
theorem exists_run_of_whole (distinct : (items.map (·.1)).Nodup)
    (hos : items.mapM (processItem g o (formNameFor items o)) = .ok os)
    (hwhole : ∀ out ∈ os, ∀ s ∈ out.gains, s.Whole) (startTime now : Calendar.Moment) :
    ∃ r, run items g o (fun _ => false) startTime now = .ok r ∧
      r.result.products = os.map (fun out => (out.formId, out.product)) ∧
      Accounts items.length g.target os r := by
  obtain ⟨r, hr⟩ : ∃ r, run items g o (fun _ => false) startTime now = .ok r :=
    exists_run_eq_ok.mpr ⟨os, hos, exists_mergeAll_of_whole hwhole⟩
  obtain ⟨os', hos', hproducts, haccounts⟩ := accounts_of_run distinct hr
  rw [reached_never, List.take_length] at hos'
  obtain rfl := Except.ok.inj (hos.symm.trans hos')
  exact ⟨r, hr, hproducts, haccounts⟩

/-- A run with workers over items with whole statistics returns, in whatever order they complete. -/
theorem exists_runParallel_of_whole {workers : Int} {completed : List (Nat × Item)}
    (distinct : (items.map (·.1)).Nodup)
    (hos : items.mapM (processItem g o (formNameFor items o)) = .ok os)
    (hwhole : ∀ out ∈ os, ∀ s ∈ out.gains, s.Whole) (hworkers : 1 ≤ workers)
    (hperm : completed.Perm (numbered items)) (startTime now : Calendar.Moment) :
    ∃ r os', runParallel items g o workers completed (fun _ => false) startTime now = .ok r ∧
      (completed.map (·.2)).mapM (processItem g o (formNameFor items o)) = .ok os' ∧ os'.Perm os ∧
      r.result.products = os.map (fun out => (out.formId, out.product)) ∧
      Accounts items.length g.target os' r := by
  have hitems : items.Perm (completed.map (·.2)) := by
    have h := (hperm.map (·.2)).symm
    rwa [map_snd_numbered] at h
  obtain ⟨os', hos', hosperm⟩ := exists_mapM_perm hitems hos
  have hwhole' : ∀ out ∈ os', ∀ s ∈ out.gains, s.Whole := fun out hout =>
    hwhole out (hosperm.mem_iff.mpr hout)
  obtain ⟨r, hr⟩ : ∃ r,
      runParallel items g o workers completed (fun _ => false) startTime now = .ok r := by
    rw [exists_runParallel_eq_ok (fun _ => hworkers) hperm, kept_never]
    exact ⟨os', hos', exists_mergeAll_of_whole hwhole'⟩
  obtain ⟨us, vs, hus, hvs, -, hproducts, haccounts⟩ := accounts_of_runParallel distinct hperm hr
  rw [kept_never] at hus
  rw [kept_never, map_snd_numbered] at hvs
  obtain rfl := Except.ok.inj (hos'.symm.trans hus)
  obtain rfl := Except.ok.inj (hos.symm.trans hvs)
  exact ⟨r, os', hr, hos', hosperm.symm, hproducts, haccounts⟩

/-- The events of a result number the outcomes in the order in which they were recorded. -/
theorem Accounts.map_index_events {n : Nat} {target : String} {r : Recorder}
    (h : Accounts n target os r) : r.events.map (·.index) = List.range' 1 os.length := by
  rw [h.events, List.map_map]
  exact List.zipIdx_map_snd 1 os

theorem Accounts.map_formId_events {n : Nat} {target : String} {r : Recorder}
    (h : Accounts n target os r) : r.events.map (·.formId) = os.map (·.formId) := by
  rw [h.events, List.map_map]
  show (os.zipIdx 1).map ((·.formId) ∘ (·.1)) = _
  rw [← List.map_map, List.zipIdx_map_fst]

/-- Take a generator whose statistics are whole, and items that all get an outcome. Then a run with
workers returns in whatever order the items complete, with the products of a run in order and all
else rearranged into the order of completion; and so does a run over the items in another order,
with the same product for each. -/
theorem run_agrees (distinct : (items.map (·.1)).Nodup) (hg : g.IsWhole)
    (hreturns : ∀ item ∈ items, ∃ out, processItem g o (formNameFor items o) item = .ok out)
    (startTime now : Calendar.Moment) :
    ∃ r os, run items g o (fun _ => false) startTime now = .ok r ∧
      items.map (processItem g o (formNameFor items o)) = os.map .ok ∧
      r.result.products.map (·.1) = items.map (·.1) ∧ Accounts items.length g.target os r ∧
      (∀ workers completed startTime' now', 1 ≤ workers → completed.Perm (numbered items) →
        ∃ r' os',
          runParallel items g o workers completed (fun _ => false) startTime' now' = .ok r' ∧
          (completed.map (·.2)).map (processItem g o (formNameFor items o)) = os'.map .ok ∧
          os'.Perm os ∧ Accounts items.length g.target os' r' ∧
          Agrees r r' ∧ r'.result.products = r.result.products ∧
          r'.events.map (·.index) = List.range' 1 items.length ∧
          r'.events.map (·.formId) = completed.map (·.2.1)) ∧
      ∀ items' startTime' now', items'.Perm items →
        ∃ r', run items' g o (fun _ => false) startTime' now' = .ok r' ∧ Agrees r r' ∧
          r'.result.products.map (·.1) = items'.map (·.1) := by
  obtain ⟨os, hos⟩ := exists_mapM_eq_ok.mpr hreturns
  have hwhole : ∀ out ∈ os, ∀ s ∈ out.gains, s.Whole := by
    intro out hout
    obtain ⟨i, hi⟩ := List.getElem?_of_mem hout
    obtain ⟨item, -, hitem⟩ := getElem?_of_mapM_eq_ok hos hi
    exact whole_of_mem_gains hg hitem
  obtain ⟨r, hr, hproducts, haccounts⟩ := exists_run_of_whole distinct hos hwhole startTime now
  have hids : ∀ {is : List Item} {us : List Outcome} {name : Value},
      is.mapM (processItem g o name) = .ok us →
        (us.map fun out => (out.formId, out.product)).map (·.1) = is.map (·.1) := by
    intro is us name hus
    rw [List.map_map]
    exact map_formId_of_mapM_processItem hus
  refine ⟨r, os, hr, mapM_eq_ok.mp hos, hproducts ▸ hids hos, haccounts, ?_, ?_⟩
  · intro workers completed startTime' now' hworkers hperm
    obtain ⟨r', os', hr', hos', hosperm, hproducts', haccounts'⟩ :=
      exists_runParallel_of_whole distinct hos hwhole hworkers hperm startTime' now'
    have hsame : r'.result.products = r.result.products := by
      rw [hproducts', hproducts]
    refine ⟨r', os', hr', mapM_eq_ok.mp hos', hosperm, haccounts',
      haccounts.agrees haccounts' hosperm (List.Perm.of_eq hsame) hwhole, hsame, ?_, ?_⟩
    · rw [haccounts'.map_index_events, hosperm.length_eq, length_of_mapM_eq_ok hos]
    · rw [haccounts'.map_formId_events, map_formId_of_mapM_processItem hos', List.map_map]
      rfl
  · intro items' startTime' now' hperm
    have hlength := hperm.length_eq
    have hname : formNameFor items' o = formNameFor items o := by
      rw [formNameFor, formNameFor, hlength]
    obtain ⟨os', hos', hosperm⟩ := exists_mapM_perm hperm.symm hos
    have hwhole' : ∀ out ∈ os', ∀ s ∈ out.gains, s.Whole := fun out hout =>
      hwhole out (hosperm.mem_iff.mpr hout)
    rw [← hname] at hos'
    obtain ⟨r', hr', hproducts', haccounts'⟩ :=
      exists_run_of_whole (((hperm.map _).nodup_iff).mpr distinct) hos' hwhole' startTime' now'
    rw [hlength] at haccounts'
    have hproductsPerm : r'.result.products.Perm r.result.products := by
      rw [hproducts', hproducts]
      exact (hosperm.map _).symm
    exact ⟨r', hr', haccounts.agrees haccounts' hosperm.symm hproductsPerm hwhole,
      hproducts' ▸ hids hos'⟩

end

/-- Two items, of which the first succeeds and the second fails, complete the other way round. -/
theorem run_agrees_swapped :
    let g : Generator := .ofProducts "t" fun _ _ =>
      .ok { success := true, statistics := .statistics { totalPages := .int 1 } }
    let a : Analysis := { formName := .text "f", definition := some { views := [{}] } }
    let items : List Item := [("a", some a), ("b", none)]
    let t : Calendar.Moment := ⟨⟨2024, 1, 1⟩, 9, 0, 0, 0, none⟩
    ∃ r r', run items g {} (fun _ => false) t t = .ok r ∧
      runParallel items g {} 2 [(1, ("b", none)), (0, ("a", some a))] (fun _ => false) t t =
        .ok r' ∧
      r'.result.products = r.result.products ∧ r'.result.statistics.Same r.result.statistics ∧
      r'.events.map (·.formId) = ["b", "a"] := by
  intro g a items t
  have hg : g.IsWhole := by
    intro f o p s hp hs
    obtain rfl := Answer.product.inj (Except.ok.inj hp)
    obtain rfl := Attachment.statistics.inj hs
    have hempty := Statistics.whole_empty
    exact ⟨rfl, rfl, rfl, rfl, rfl, hempty.controlTypes, hempty.widgetTypes⟩
  have hreturns : ∀ item ∈ items, ∃ out,
      processItem g {} (formNameFor items {}) item = .ok out := by
    intro item hitem
    rcases List.mem_cons.mp hitem with rfl | hitem
    · exact ⟨_, by with_unfolding_all rfl⟩
    · obtain rfl := List.mem_singleton.mp hitem
      exact ⟨_, rfl⟩
  obtain ⟨r, os, hr, -, -, -, hparallel, -⟩ := run_agrees (by decide) hg hreturns t t
  obtain ⟨r', os', hr', -, -, -, hagrees, hproducts, -, hids⟩ :=
    hparallel 2 [(1, ("b", none)), (0, ("a", some a))] t t (by decide) (List.Perm.swap _ _ [])
  exact ⟨r, r', hr, hr', hproducts, hagrees.statistics, hids⟩

end Batch

end Formwright
