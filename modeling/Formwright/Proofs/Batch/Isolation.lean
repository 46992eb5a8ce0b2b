import Formwright.Analysis.Reader
import Formwright.Proofs.Batch.Accounting
import Formwright.Proofs.Statistics.Collecting

/-
  What a run contains. Faults of mapping and of generation become entries of the result, and the
  other items are processed all the same. Three things are done outside of this: inspecting a form,
  deriving statistics for a success that has none, and merging statistics. A fault in any of them
  ends the run. So an item gets an outcome exactly when its form can be inspected and its statistics
  can be had (`exists_process_eq_ok`), and a run returns when all items do and the sum exists.
-/

namespace Formwright.Batch

section
variable {g : Generator} {o : Options} {formName : Value} {formId : String} {a : Option Analysis}
  {out : Outcome}

/-! ## One item -/

/-- What an item needs to get an outcome. -/
structure Contained (g : Generator) (o : Options) (formName : Value) (a : Option Analysis) :
    Prop where
  /-- Its form, if it has one, can be inspected, -/
  inspected : ∀ f, Form.ofAnalysis a = .ok f → f.Inspectable
  /-- and if the generator makes a success of it without statistics, its positions can be read. -/
  derived : ∀ f p, Form.ofAnalysis a = .ok f → answerFor g o formName f = .ok p → p.success = true →
    (∀ s, p.statistics ≠ .statistics s) → ∀ c ∈ f.allControls, Grid.Readable c.gridPosition

/-- The message with which an item fails. -/
inductive Fails (g : Generator) (o : Options) (formName : Value) (a : Option Analysis) :
    String → Prop
  | mapping {e : Fault} (h : Form.ofAnalysis a = .error e) :
      Fails g o formName a (stageMessage mappingStage e)
  | generation {f : Form} {e : Fault} (hf : Form.ofAnalysis a = .ok f)
      (h : answerFor g o formName f = .error e) :
      Fails g o formName a (stageMessage generationStage e)
  | reported {f : Form} {p : Product} (hf : Form.ofAnalysis a = .ok f)
      (h : answerFor g o formName f = .ok p) (hp : p.success = false) :
      Fails g o formName a (failureMessage p)

theorem allControls_renamed (f : Form) (name : Value) :
    (renamed f name).allControls = f.allControls := by
  unfold renamed
  split <;> rfl

theorem exists_statisticsOf_eq_ok {p : Product} {f : Form} (hf : ∀ c ∈ f.allControls, c.Mapped) :
    (∃ s, statisticsOf p f = .ok s) ↔
      ((∀ s, p.statistics ≠ .statistics s) →
        ∀ c ∈ f.allControls, Grid.Readable c.gridPosition) := by
  unfold statisticsOf
  cases p.statistics with
  | statistics s =>
    refine ⟨fun _ h => absurd rfl (h s), fun _ => ⟨s, rfl⟩⟩
  | absent =>
    rw [Statistics.exists_collect_eq_ok hf]
    exact ⟨fun h _ => h, fun h => h fun s => Attachment.noConfusion⟩
  | other v =>
    rw [Statistics.exists_collect_eq_ok hf]
    exact ⟨fun h _ => h, fun h => h fun s => Attachment.noConfusion⟩

/-- An item gets an outcome exactly when it is contained. -/
theorem exists_process_eq_ok :
    (∃ out, process formId a g o formName = .ok out) ↔ Contained g o formName a := by
  cases hf : Form.ofAnalysis a with
  | error e =>
    have hnone : ∀ f, Form.ofAnalysis a ≠ .ok f := by
      intro f h
      rw [hf] at h
      cases h
    constructor
    · intro _
      exact ⟨fun f h => absurd h (hnone f), fun f p h => absurd h (hnone f)⟩
    · intro _
      exact ⟨_, process_of_mapping_error hf formId g o formName⟩
  | ok f =>
    have hone : ∀ f', Form.ofAnalysis a = .ok f' → f' = f := by
      intro f' h
      rw [hf] at h
      exact (Except.ok.inj h).symm
    have hmapped := Form.mapped_of_ofAnalysis hf
    have hrenamed : ∀ c ∈ (renamed f formName).allControls, c.Mapped := by
      rw [allControls_renamed]
      exact hmapped
    constructor
    · rintro ⟨out, h⟩
      obtain ⟨e, he, -⟩ | ⟨f', report, hf', hreport, hout⟩ := process_eq_ok_iff.mp h
      · rw [hf] at he
        cases he
      obtain rfl := hone f' hf'
      constructor
      · intro f'' h''
        obtain rfl := hone f'' h''
        exact (Form.exists_inspect_eq_ok hmapped).mp ⟨report, hreport⟩
      · intro f'' p h'' hp hsuccess
        obtain rfl := hone f'' h''
        obtain ⟨e, he, -⟩ | ⟨p', hp', hconclude⟩ := hout
        · rw [hp] at he
          cases he
        obtain rfl := Except.ok.inj (hp.symm.trans hp')
        obtain ⟨-, s, hs, -⟩ | ⟨hfailure, -⟩ := conclude_eq_ok_iff.mp hconclude
        · have := (exists_statisticsOf_eq_ok hrenamed).mp ⟨s, hs⟩
          rwa [allControls_renamed] at this
        · rw [hsuccess] at hfailure
          cases hfailure
    · intro h
      obtain ⟨report, hreport⟩ := (Form.exists_inspect_eq_ok hmapped).mpr (h.inspected f hf)
      cases hp : answerFor g o formName f with
      | error e =>
        exact ⟨_, process_eq_ok_iff.mpr (Or.inr ⟨f, report, hf, hreport, Or.inl ⟨e, hp, rfl⟩⟩)⟩
      | ok p =>
        have hconclude : ∃ out,
            conclude formId p (renamed f formName) (warningsOf f report) = .ok out := by
          cases hsuccess : p.success with
          | false => exact ⟨_, conclude_eq_ok_iff.mpr (Or.inr ⟨hsuccess, rfl⟩)⟩
          | true =>
            have hderived := h.derived f p hf hp hsuccess
            rw [← allControls_renamed f formName] at hderived
            obtain ⟨s, hs⟩ := (exists_statisticsOf_eq_ok hrenamed).mpr hderived
            exact ⟨_, conclude_eq_ok_iff.mpr (Or.inl ⟨hsuccess, s, hs, rfl⟩)⟩
        obtain ⟨out, hout⟩ := hconclude
        exact ⟨out, process_eq_ok_iff.mpr (Or.inr ⟨f, report, hf, hreport, Or.inr ⟨p, hp, hout⟩⟩)⟩

/-- An item that fails has its message in the outcome. -/
theorem Fails.product {m : String} (h : Fails g o formName a m)
    (hout : process formId a g o formName = .ok out) :
    out.product.success = false ∧ out.product.errorMessage = m := by
  obtain ⟨e, he, rfl⟩ | ⟨f, report, hf, -, hout⟩ := process_eq_ok_iff.mp hout
  · cases h with
    | mapping he' =>
      obtain rfl := Except.error.inj (he.symm.trans he')
      exact ⟨rfl, rfl⟩
    | generation hf => cases he.symm.trans hf
    | reported hf => cases he.symm.trans hf
  · cases h with
    | mapping he => cases hf.symm.trans he
    | generation hf' he' =>
      obtain rfl := Except.ok.inj (hf.symm.trans hf')
      obtain ⟨e, he, rfl⟩ | ⟨p, hp, -⟩ := hout
      · obtain rfl := Except.error.inj (he.symm.trans he')
        exact ⟨rfl, rfl⟩
      · cases hp.symm.trans he'
    | reported hf' hp' hfailure =>
      obtain rfl := Except.ok.inj (hf.symm.trans hf')
      obtain ⟨e, he, -⟩ | ⟨p, hp, hconclude⟩ := hout
      · cases he.symm.trans hp'
      · obtain rfl := Except.ok.inj (hp.symm.trans hp')
        obtain ⟨hsuccess, -⟩ | ⟨-, rfl⟩ := conclude_eq_ok_iff.mp hconclude
        · cases hsuccess.symm.trans hfailure
        · exact ⟨hfailure, rfl⟩

end

/-! ## All items -/

section
variable {items : List Item} {g : Generator} {o : Options} {startTime now : Calendar.Moment}

/-- A run returns exactly when every item is contained and the statistics of the successes can be
merged. Then each item has the product of its outcome as its one entry, and the failed ones have
their message there and in a line of the errors. -/
theorem run_isolates (distinct : (items.map (·.1)).Nodup) :
    ((∃ r, run items g o (fun _ => false) startTime now = .ok r) ↔
      (∀ item ∈ items, Contained g o (formNameFor items o) item.2) ∧
        ∀ os, items.mapM (processItem g o (formNameFor items o)) = .ok os →
          ∃ s, Statistics.mergeAll (os.flatMap Outcome.gains) = .ok s) ∧
      ∀ r, run items g o (fun _ => false) startTime now = .ok r →
        r.result.products.map (·.1) = items.map (·.1) ∧
          ∀ item ∈ items, ∃ out, process item.1 item.2 g o (formNameFor items o) = .ok out ∧
            (item.1, out.product) ∈ r.result.products ∧
            ∀ m, Fails g o (formNameFor items o) item.2 m →
              out.product.success = false ∧ out.product.errorMessage = m ∧
                item.1 ++ ": " ++ m ∈ r.result.errors := by
  constructor
  · have hcontained : (∃ os, items.mapM (processItem g o (formNameFor items o)) = .ok os) ↔
        ∀ item ∈ items, Contained g o (formNameFor items o) item.2 := by
      rw [exists_mapM_eq_ok]
      simp only [processItem, exists_process_eq_ok]
    rw [exists_run_eq_ok, ← hcontained]
    constructor
    · rintro ⟨os, hos, hs⟩
      refine ⟨⟨os, hos⟩, fun os' hos' => ?_⟩
      obtain rfl := Except.ok.inj (hos.symm.trans hos')
      exact hs
    · rintro ⟨⟨os, hos⟩, hs⟩
      exact ⟨os, hos, hs os hos⟩
  · intro r hr
    obtain ⟨os, hos, hproducts, haccounts⟩ := accounts_of_run distinct hr
    rw [reached_never, List.take_length] at hos
    refine ⟨?_, fun item hitem => ?_⟩
    · rw [hproducts, List.map_map]
      exact map_formId_of_mapM_processItem hos
    · obtain ⟨out, hout, hmem⟩ := mem_of_mapM_eq_ok hos hitem
      have hid := (process_eq_ok hout).1
      refine ⟨out, hout, ?_, fun m hm => ?_⟩
      · rw [hproducts, ← hid]
        exact List.mem_map_of_mem hmem
      · obtain ⟨hfailure, hmessage⟩ := hm.product hout
        refine ⟨hfailure, hmessage, ?_⟩
        rw [haccounts.errors]
        refine List.mem_flatMap.mpr ⟨out, hmem, ?_⟩
        rw [Outcome.errors, hfailure, hid, hmessage]
        exact List.mem_singleton_self _

end

/-- The item behind one that fails is processed. -/
theorem run_isolates_missing :
    ∃ r, run [("a", none), ("b", none)] .missing {} (fun _ => false)
        ⟨⟨2024, 1, 1⟩, 9, 0, 0, 0, none⟩ ⟨⟨2024, 1, 1⟩, 9, 0, 1, 0, none⟩ = .ok r ∧
      r.result.products.map (·.1) = ["a", "b"] ∧
      "b: Failed to map form structure: Analysis result is missing" ∈ r.result.errors := by
  obtain ⟨r, hr⟩ : ∃ r, run [("a", none), ("b", none)] .missing {} (fun _ => false)
      ⟨⟨2024, 1, 1⟩, 9, 0, 0, 0, none⟩ ⟨⟨2024, 1, 1⟩, 9, 0, 1, 0, none⟩ = .ok r := ⟨_, rfl⟩
  obtain ⟨hids, hitems⟩ := (run_isolates (by decide)).2 r hr
  obtain ⟨out, -, -, hfails⟩ := hitems ("b", none) (by simp)
  obtain ⟨-, -, herror⟩ := hfails _ (Fails.mapping Form.ofAnalysis_none)
  have hline : "b" ++ ": " ++ stageMessage mappingStage .analysisMissing =
      "b: Failed to map form structure: Analysis result is missing" := by decide
  rw [hline] at herror
  exact ⟨r, hr, hids, herror⟩

/-- A reference that cannot be a key, a grid position that is a number, or statistics with a text as
a counter: each ends the run, and the item behind is not processed. -/
theorem run_not_isolated :
    (∀ startTime now, run
        [("a", some { formName := .text "a", definition := some {
            views := [{}], dynamicSections := [{ controls := [.ofTexts ["n"]] }] } }), ("b", none)]
        (.ofProducts "t" fun _ _ => .ok { success := true }) {} (fun _ => false) startTime now =
      .error (.misuse (.unhashable .list))) ∧
    (∀ startTime now, run
        [("a", some { formName := .text "a", definition := some {
            views := [{ controls := .node { gridPosition := .int 5 } .nil .nil }] } }), ("b", none)]
        (.ofProducts "t" fun _ _ => .ok { success := true }) {} (fun _ => false) startTime now =
      .error (.noMember .int "strip")) ∧
    ∀ startTime now, run
        [("a", some { formName := .text "a", definition := some { views := [{}] } }), ("b", none)]
        (.ofProducts "t" fun _ _ =>
          .ok { success := true, statistics := .statistics { totalPages := .text "1" } })
        {} (fun _ => false) startTime now =
      .error (.misuse (.noSum .int .text)) := by
  refine ⟨fun _ _ => ?_, fun _ _ => ?_, fun _ _ => ?_⟩
  · with_unfolding_all rfl
  · with_unfolding_all rfl
  · with_unfolding_all rfl

end Formwright.Batch
