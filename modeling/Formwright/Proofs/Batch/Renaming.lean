import Formwright.Proofs.Batch.Schedule
import Formwright.Proofs.Generation.Renaming

/-
  The form name of the options in a batch. Generators do not read it (`Generator.generate_formName`), so
  only the name that a batch of one form takes from it can matter, and runs over other numbers of forms
  are the same whatever it is (`run_congr`). In a batch of one form it becomes the name of the form:
  the result of the item is what the generator makes of the renamed form, and ids and warnings are those
  of the form itself. Statistics do not depend on a name either; but a form whose own name is no text is
  generated under another name only, so its statistics are there or not (`run_formName`).
-/

namespace Formwright.Batch

/-! ## Options that generate the same -/

section
variable {g : Generator} {o o' : Options} {items : List Item}

theorem process_congr (h : ∀ f, g.generate f o = g.generate f o') (formId : String)
    (a : Option Analysis) (formName : Value) :
    process formId a g o formName = process formId a g o' formName := by
  unfold process
  simp only [h]

theorem step_congr (h : ∀ f, g.generate f o = g.generate f o') (formName : Value) (r : Recorder)
    (item : Item) : step g o formName r item = step g o' formName r item := by
  unfold step
  rw [process_congr h]

theorem runFrom_congr (h : ∀ f, g.generate f o = g.generate f o') (formName : Value)
    (asked : Nat → Bool) (k : Nat) (items : List Item) (r : Recorder) :
    runFrom g o formName asked k items r = runFrom g o' formName asked k items r := by
  induction items generalizing k r with
  | nil => rfl
  | cons item items ih =>
    rw [runFrom, runFrom, step_congr h]
    simp only [ih]

/-- A run depends on the options through the calls of the generator and the name for the form. -/
theorem run_congr (h : ∀ f, g.generate f o = g.generate f o')
    (hname : formNameFor items o = formNameFor items o') (asked : Nat → Bool)
    (startTime now : Calendar.Moment) :
    run items g o asked startTime now = run items g o' asked startTime now := by
  rw [run, run, hname, runFrom_congr h]

/-! ## Batches of one form -/

variable {id : String} {a : Option Analysis} {asked : Nat → Bool} {startTime now : Calendar.Moment}
  {r : Recorder}

/-- A run that is asked to stop before its only item makes nothing of it. -/
theorem run_of_asked (h : asked 0 = true) : run [(id, a)] g o asked startTime now =
    .ok ((begin [(id, a)] g startTime).cancel.finish now) := by
  rw [run, runFrom_of_asked h]
  rfl

theorem exists_run_single (h : asked 0 = false) :
    (∃ r, run [(id, a)] g o asked startTime now = .ok r) ↔
      ∃ out, process id a g o o.formName = .ok out ∧ ∃ s, Statistics.mergeAll out.gains = .ok s := by
  have hnever : run [(id, a)] g o asked startTime now =
      run [(id, a)] g o (fun _ => false) startTime now := by
    simp only [run, runFrom, h]
  rw [hnever, exists_run_eq_ok]
  constructor
  · rintro ⟨os, hos, s, hs⟩
    obtain ⟨out, hout, rfl⟩ := mapM_singleton_eq_ok.mp hos
    exact ⟨out, hout, s, by rwa [List.flatMap_singleton] at hs⟩
  · rintro ⟨out, hout, s, hs⟩
    exact ⟨[out], mapM_singleton_eq_ok.mpr ⟨out, hout, rfl⟩, s, by rwa [List.flatMap_singleton]⟩

/-- The result of a run over one item is that of its outcome. -/
theorem run_single (h : asked 0 = false) (hr : run [(id, a)] g o asked startTime now = .ok r) :
    ∃ out, process id a g o o.formName = .ok out ∧ r.result.products = [(id, out.product)] ∧
      r.result.warnings = out.warningLines ∧
      Statistics.mergeAll out.gains = .ok r.result.statistics := by
  have distinct : ([(id, a)].map (·.1)).Nodup := List.nodup_singleton id
  obtain ⟨os, hos, hproducts, haccounts⟩ := accounts_of_run distinct hr
  have hreached : reached asked 0 [(id, a)].length = 1 := by
    rw [List.length_singleton, reached, if_neg (by simp [h]), reached]
  rw [hreached, List.take_of_length_le (Nat.le_refl 1)] at hos
  obtain ⟨out, hout, rfl⟩ := mapM_singleton_eq_ok.mp hos
  have hstatistics := haccounts.statistics
  rw [List.flatMap_singleton] at hstatistics
  have hwarnings := haccounts.warnings
  rw [List.flatMap_singleton, if_neg (by simp), List.append_nil] at hwarnings
  refine ⟨out, hout, ?_, hwarnings, hstatistics⟩
  rw [hproducts, List.map_singleton, (process_eq_ok hout).1]

end

/-! ## What a generator makes of a form -/

/-- What the call of a generator gives an item: the product that it answers with and the statistics in
it, or the failure that tells why there is none. -/
inductive Gives (g : Generator) (o : Options) (f : Form) : Product → List Statistics → Prop
  | made {p : Product} {s : Statistics} (h : g.generate f o = .ok (.product p))
      (hs : p.statistics = .statistics s) : Gives g o f p [s]
  | failed {e : Fault} (h : g.generate f o = .error e) :
      Gives g o f (.failure g.target (stageMessage generationStage e)) []

section
variable {name : String} {g : Generator} {o : Options} {f : Form} {report : Report}
  {a : Option Analysis} {p : Product} {ss : List Statistics}

theorem Gives.congr {o' : Options} (h : Gives g o f p ss) (ho : g.generate f o' = g.generate f o) :
    Gives g o' f p ss := by
  cases h with
  | made hp hs => exact .made (ho.trans hp) hs
  | failed he => exact .failed (ho.trans he)

theorem Gives.whole (hg : (name, g) ∈ Generator.registry) (hf : ∀ c ∈ f.allControls, c.Mapped)
    (h : Gives g o f p ss) : ∀ s ∈ ss, s.Whole := by
  cases h with
  | made hp hs => exact List.forall_mem_singleton.mpr (Generator.whole_of_generate hg hf hp hs)
  | failed _ => exact List.forall_mem_nil _

/-- A name changes the statistics only when it makes the difference whether the form is generated,
and then its own name is no text. -/
theorem Gives.statistics_renamed (hg : (name, g) ∈ Generator.registry) (h : Gives g o f p ss)
    {x : String} {p' : Product} {ss' : List Statistics}
    (h' : Gives g o { f with name := .text x } p' ss') :
    ss' = ss ∨ (∀ n, f.name ≠ .text n) ∧ ∃ e, g.generate f o = .error e := by
  cases h with
  | made hp hs =>
    obtain ⟨q, hq, hstatistics⟩ := Generator.exists_generate_renamed hg hp x
    cases h' with
    | made hp' hs' =>
      obtain rfl := Answer.product.inj (Except.ok.inj (hq.symm.trans hp'))
      obtain rfl := Attachment.statistics.inj (hs'.symm.trans (hstatistics.trans hs))
      exact .inl rfl
    | failed he' => cases hq.symm.trans he'
  | failed he =>
    cases h' with
    | made hp' hs' =>
      refine .inr ⟨fun n hn => ?_, _, he⟩
      obtain ⟨q, hq, -⟩ := Generator.exists_generate_renamed hg hp' n
      have hback : ({ f with name := .text n } : Form) = f := by rw [← hn]
      cases (hback ▸ hq).symm.trans he
    | failed _ => exact .inl rfl

/-- An item whose form can be inspected gets what the generator makes of the form, under the name that
is given, and the warnings of the form. -/
theorem exists_process_gives (id : String) (hg : (name, g) ∈ Generator.registry)
    (hf : Form.ofAnalysis a = .ok f) (hr : f.inspect = .ok report) (formName : Value) :
    ∃ out, process id a g o formName = .ok out ∧ out.formId = id ∧ out.warnings = warningsOf f report ∧
      Gives g o (renamed f formName) out.product out.gains := by
  cases hgenerate : g.generate (renamed f formName) o with
  | error e =>
    have hanswer : answerFor g o formName f = .error e := by rw [answerFor, hgenerate]; rfl
    exact ⟨_, process_eq_ok_iff.mpr (.inr ⟨f, report, hf, hr, .inl ⟨e, hanswer, rfl⟩⟩), rfl, rfl,
      .failed hgenerate⟩
  | ok answer =>
    obtain ⟨p, s, rfl, hsuccess, hs⟩ := Generator.exists_product_of_generate hg hgenerate
    have hanswer : answerFor g o formName f = .ok p := by
      rw [answerFor, hgenerate]
      show checkAnswer (.product p) = _
      rw [checkAnswer, hs]
    have hstatistics : statisticsOf p (renamed f formName) = .ok s := by rw [statisticsOf, hs]
    refine ⟨_, process_eq_ok_iff.mpr (.inr ⟨f, report, hf, hr, .inr ⟨p, hanswer,
      conclude_eq_ok_iff.mpr (.inl ⟨hsuccess, s, hstatistics, rfl⟩)⟩⟩), rfl, rfl, ?_⟩
    rw [Outcome.gains, if_pos hsuccess]
    exact .made hgenerate hs

variable {id : String} {asked : Nat → Bool} {startTime now : Calendar.Moment} {r : Recorder}

/-- A run over one item that has a form returns when the form can be inspected. -/
theorem exists_run_mapped (hg : (name, g) ∈ Generator.registry) (hf : Form.ofAnalysis a = .ok f)
    (h : asked 0 = false) : (∃ r, run [(id, a)] g o asked startTime now = .ok r) ↔
      ∃ report, f.inspect = .ok report := by
  rw [exists_run_single h]
  constructor
  · rintro ⟨out, hout, -⟩
    rcases process_eq_ok_iff.mp hout with ⟨e, he, -⟩ | ⟨f', report, hf', hr, -⟩
    · cases he.symm.trans hf
    · obtain rfl := Except.ok.inj (hf'.symm.trans hf)
      exact ⟨report, hr⟩
  · rintro ⟨report, hr⟩
    obtain ⟨out, hout, -, -, hgives⟩ := exists_process_gives id hg hf hr o.formName
    have hmapped : ∀ c ∈ (renamed f o.formName).allControls, c.Mapped := by
      rw [allControls_renamed]
      exact Form.mapped_of_ofAnalysis hf
    obtain ⟨s, hs, -⟩ := Statistics.exists_mergeAll_eq_ok (hgives.whole hg hmapped)
    exact ⟨out, hout, s, hs⟩

/-- The result of such a run. -/
theorem run_mapped (hg : (name, g) ∈ Generator.registry) (hf : Form.ofAnalysis a = .ok f)
    (h : asked 0 = false) (hrun : run [(id, a)] g o asked startTime now = .ok r) :
    ∃ report p ss, f.inspect = .ok report ∧ Gives g o (renamed f o.formName) p ss ∧
      r.result.products = [(id, p)] ∧
      r.result.warnings = (warningsOf f report).map (fun w => id ++ ": " ++ w.display) ∧
      Statistics.mergeAll ss = .ok r.result.statistics := by
  obtain ⟨report, hr⟩ := (exists_run_mapped hg hf h).mp ⟨r, hrun⟩
  obtain ⟨out, hout, hid, hwarnings, hgives⟩ := exists_process_gives id hg hf hr o.formName
  obtain ⟨out', hout', hproducts, hlines, hstatistics⟩ := run_single h hrun
  obtain rfl := Except.ok.inj (hout'.symm.trans hout)
  rw [Outcome.warningLines, hid, hwarnings] at hlines
  exact ⟨report, out'.product, out'.gains, hr, hgives, hproducts, hlines, hstatistics⟩

end

/-! ## The form name -/

/-- What a name `x` does to a run over one item with form `f`: `r` is the end of the run with the name,
`r'` that of the run without one. -/
structure Renames (g : Generator) (o : Options) (asked : Nat → Bool) (id : String) (f : Form)
    (x : String) (r r' : Recorder) : Prop where
  /-- Stopped before the item, both are the same. -/
  stopped : asked 0 = true → r = r'
  /-- Else the result is what the generator makes of the form under the name, whatever name the options
  that it is called with hold. -/
  result : asked 0 = false → ∀ v, ∃ p ss,
    Gives g { o with formName := v } { f with name := .text x } p ss ∧
      r.result.products = [(id, p)] ∧ Statistics.mergeAll ss = .ok r.result.statistics
  ids : r.result.products.map (·.1) = r'.result.products.map (·.1)
  warnings : r.result.warnings = r'.result.warnings
  /-- Statistics are the same, unless the form has no text as name and is not generated without `x`. -/
  statistics : r.result.statistics = r'.result.statistics ∨
    (∀ n, f.name ≠ .text n) ∧ ∃ e, g.generate f o = .error e

section
variable {name : String} {g : Generator} {o : Options} {f : Form} {id x : String} {a : Option Analysis}
  {v : Value} {asked : Nat → Bool} {startTime now : Calendar.Moment} {r r' : Recorder}

/-- Whether a run over one item that has a form returns does not depend on the form name. -/
theorem exists_run_formName (hg : (name, g) ∈ Generator.registry) (hf : Form.ofAnalysis a = .ok f)
    (v w : Value) :
    (∃ r, run [(id, a)] g { o with formName := v } asked startTime now = .ok r) ↔
      ∃ r, run [(id, a)] g { o with formName := w } asked startTime now = .ok r := by
  cases hasked : asked 0 with
  | true => rw [run_of_asked hasked, run_of_asked hasked]
  | false => rw [exists_run_mapped hg hf hasked, exists_run_mapped hg hf hasked]

theorem renames_of_run (hg : (name, g) ∈ Generator.registry) (hf : Form.ofAnalysis a = .ok f)
    (hx : x ≠ "") (hv : v.isGiven = false)
    (hr : run [(id, a)] g { o with formName := .text x } asked startTime now = .ok r)
    (hr' : run [(id, a)] g { o with formName := v } asked startTime now = .ok r') :
    Renames g o asked id f x r r' := by
  cases hasked : asked 0 with
  | true =>
    rw [run_of_asked hasked] at hr hr'
    obtain rfl := Except.ok.inj (hr.symm.trans hr')
    exact ⟨fun _ => rfl, fun h => (by cases hasked.symm.trans h), rfl, rfl, .inl rfl⟩
  | false =>
    obtain ⟨report, p, ss, hreport, hgives, hproducts, hwarnings, hss⟩ := run_mapped hg hf hasked hr
    obtain ⟨report', p', ss', hreport', hgives', hproducts', hwarnings', hss'⟩ :=
      run_mapped hg hf hasked hr'
    obtain rfl := Except.ok.inj (hreport.symm.trans hreport')
    have hnamed : renamed f (.text x) = { f with name := .text x } := if_pos (by simpa using hx)
    have hunnamed : renamed f v = f := if_neg (by simp [hv])
    rw [hnamed] at hgives
    rw [hunnamed] at hgives'
    have hread := fun v f => Generator.generate_formName hg f o v
    have hplain : Gives g o { f with name := .text x } p ss := hgives.congr (hread _ _).symm
    refine ⟨fun h => (by cases hasked.symm.trans h), fun _ w => ?_, ?_, ?_, ?_⟩
    · exact ⟨p, ss, hplain.congr (hread w _), hproducts, hss⟩
    · rw [hproducts, hproducts']
      rfl
    · rw [hwarnings, hwarnings']
    · rcases (hgives'.congr (hread v f).symm).statistics_renamed hg hplain with rfl | hnone
      · exact .inl (Except.ok.inj (hss.symm.trans hss'))
      · exact .inr hnone

end

/-- An analysis of a form with one field. -/
def oneField (name : Value) : Analysis where
  formName := name
  definition := some {
    views := [{
      name := .text "v"
      controls := .node { name := .text "n", type := .text "TextField" } .nil .nil }] }

end Formwright.Batch
