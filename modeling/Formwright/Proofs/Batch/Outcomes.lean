import Formwright.Proofs.Batch.Isolation

/-
  What an item comes to. An outcome is either a success with statistics or a failure with a message, and
  which of them it is follows from two calls: mapping the analysis and running the generator. A fault of
  either is named with the stage it belongs to if it is one of the domain (`blames_of_failure`). An answer
  of no use is such a fault (`checkAnswer_of_useless`); a usable product is kept, with its own statistics or
  with those of the form that it was made of. The warnings are settled before the generator runs, so they
  do not depend on what it does.
-/

namespace Formwright

/-- What a generator may give back that nobody can use, and the complaint about it. -/
inductive Answer.Useless : Answer → String → Prop
  | nothing : Useless (.other .null) "Generator returned no result"
  | noProduct {v : Value} (hv : v.isNull = false) :
      Useless (.other v) ("Generator returned " ++ v.kind.name ++ ", not a RebuildResult")
  | wrongStatistics {p : Product} {v : Value} (hp : p.statistics = .other v) (hv : v.isNull = false) :
      Useless (.product p) ("Generator returned " ++ v.kind.name ++ " statistics, not GenerationStatistics")

/-- A product with statistics or with none. -/
def Product.Usable (p : Product) : Prop := ∀ v, p.statistics = .other v → v.isNull = true

namespace Batch

namespace Outcome

/-- A failure with a message, and without statistics. -/
structure FailsWith (out : Outcome) (message : String) : Prop where
  failure : out.product.success = false
  statistics : out.statistics = none
  message : out.product.errorMessage = message

/-- A failure for a fault: one of the domain is named with the stage it happened in. -/
structure Blames (out : Outcome) (stage : String) (e : Fault) : Prop where
  domain : e.isDomain = true → out.FailsWith (stage ++ e.message)
  unexpected : e.isDomain = false → out.FailsWith ("Unexpected error - " ++ e.message)

/-- A success with the statistics of a product, or with those of the form it was made of. -/
structure Succeeds (out : Outcome) (p : Product) (f : Form) : Prop where
  success : out.product.success = true
  own : ∀ s, p.statistics = .statistics s → out.statistics = some s
  derived : (∀ s, p.statistics ≠ .statistics s) →
    ∃ s, Statistics.collect f = .ok s ∧ out.statistics = some s

/-- What comes of a form that was handed to a generator, by what the call led to. -/
structure Generated (call : Except Fault Answer) (f : Form) (out : Outcome) : Prop where
  raised : ∀ e, call = .error e → out.Blames "Failed to generate form: " e
  useless : ∀ answer complaint, call = .ok answer → answer.Useless complaint →
    out.FailsWith ("Failed to generate form: " ++ complaint)
  rejected : ∀ p, call = .ok (.product p) → p.Usable → p.success = false →
    out.FailsWith (if p.errorMessage = "" then "Generation failed" else p.errorMessage)
  accepted : ∀ p, call = .ok (.product p) → p.Usable → p.success = true → out.Succeeds p f

/-- What comes of an item. -/
structure WellFormed (out : Outcome) (formId : String) (a : Option Analysis) (g : Generator) (o : Options)
    (formName : Value) : Prop where
  formId : out.formId = formId
  kind : (out.product.success = true ∧ out.statistics.isSome) ∨ ∃ m, m ≠ "" ∧ out.FailsWith m
  unmapped : ∀ e, Form.ofAnalysis a = .error e →
    out.Blames "Failed to map form structure: " e ∧ out.warnings = []
  mapped : ∀ f, Form.ofAnalysis a = .ok f →
    out.Generated (g.generate (renamed f formName) o) (renamed f formName) ∧
      ∃ report, f.inspect = .ok report ∧ out.warnings = f.sourceWarnings ++ report.warnings.map .text

end Outcome

/-! ## Faults -/

theorem stageMessage_ne_empty {stage : String} (h : stage ≠ "") (e : Fault) :
    stageMessage stage e ≠ "" := by
  unfold stageMessage
  split
  · simp [h]
  · simp

theorem failureMessage_ne_empty (p : Product) : failureMessage p ≠ "" := by
  unfold failureMessage
  split
  · simp
  · next h => simpa using h

/-- The failure for a fault blames it. -/
theorem blames_of_failure (formId target stage : String) (e : Fault) (warnings : List Value) :
    Outcome.Blames
      { formId, product := .failure target (stageMessage stage e), warnings } stage e where
  domain h := ⟨rfl, rfl, if_pos h⟩
  unexpected h := ⟨rfl, rfl, if_neg (by simp [h])⟩

/-! ## Answers -/

/-- An answer of no use is a fault of the domain. -/
theorem checkAnswer_of_useless {answer : Answer} {complaint : String} (h : answer.Useless complaint) :
    ∃ e, checkAnswer answer = .error e ∧ e.isDomain = true ∧ e.message = complaint := by
  cases h with
  | nothing => exact ⟨.noResult, rfl, rfl, rfl⟩
  | @noProduct v hv =>
    refine ⟨.notAResult v.kind, ?_, rfl, rfl⟩
    cases v with
    | null => cases hv
    | _ => rfl
  | @wrongStatistics p v hp hv =>
    refine ⟨.notStatistics v.kind, ?_, rfl, rfl⟩
    simp [checkAnswer, hp, hv]

/-- A usable product is kept. Null in the place of its statistics is as good as none. -/
theorem checkAnswer_of_usable {p : Product} (h : p.Usable) :
    checkAnswer (.product p) = .ok p ∨
      checkAnswer (.product p) = .ok { p with statistics := .absent } ∧
        ∀ s, p.statistics ≠ .statistics s := by
  cases hp : p.statistics with
  | absent => exact Or.inl (by simp [checkAnswer, hp])
  | statistics s => exact Or.inl (by simp [checkAnswer, hp])
  | other v => exact Or.inr ⟨by simp [checkAnswer, hp, h v hp], by simp⟩

/-- What becomes of a usable product differs from it at most in statistics that it lacks. -/
theorem exists_checkAnswer_eq_ok {p : Product} (h : p.Usable) :
    ∃ q, checkAnswer (.product p) = .ok q ∧ q.success = p.success ∧ failureMessage q = failureMessage p ∧
      ∀ f, statisticsOf q f = statisticsOf p f := by
  obtain hq | ⟨hq, hnone⟩ := checkAnswer_of_usable h
  · exact ⟨p, hq, rfl, rfl, fun f => rfl⟩
  · refine ⟨_, hq, rfl, rfl, fun f => ?_⟩
    unfold statisticsOf
    cases hp : p.statistics with
    | statistics s => exact absurd hp (hnone s)
    | absent => rfl
    | other v => rfl

section
variable {formId : String} {a : Option Analysis} {g : Generator} {o : Options} {formName : Value}
  {f : Form} {p : Product} {out : Outcome} {warnings : List Value}

theorem statisticsOf_of_statistics {s : Statistics} (h : p.statistics = .statistics s) :
    statisticsOf p f = .ok s := by
  simp [statisticsOf, h]

theorem statisticsOf_of_none (h : ∀ s, p.statistics ≠ .statistics s) :
    statisticsOf p f = Statistics.collect f := by
  unfold statisticsOf
  split
  · next s hs => exact absurd hs (h s)
  · rfl

/-! ## Outcomes of a form -/

/-- A product that failed is a failure with its message. -/
theorem failsWith_of_conclude (hp : p.success = false) (h : conclude formId p f warnings = .ok out) :
    out.FailsWith (failureMessage p) := by
  obtain ⟨hsuccess, -⟩ | ⟨-, rfl⟩ := conclude_eq_ok_iff.mp h
  · cases hp.symm.trans hsuccess
  · exact ⟨hp, rfl, rfl⟩

/-- A product that succeeded is a success with the statistics it has or is given. -/
theorem statistics_of_conclude (hp : p.success = true) (h : conclude formId p f warnings = .ok out) :
    out.product.success = true ∧ ∃ s, statisticsOf p f = .ok s ∧ out.statistics = some s := by
  obtain ⟨-, s, hs, rfl⟩ | ⟨hfailure, -⟩ := conclude_eq_ok_iff.mp h
  · exact ⟨hp, s, hs, rfl⟩
  · cases hp.symm.trans hfailure

/-- What a form comes to, once it is inspected. -/
def Reached (formId : String) (g : Generator) (o : Options) (formName : Value) (f : Form)
    (warnings : List Value) (out : Outcome) : Prop :=
  (∃ e, answerFor g o formName f = .error e ∧
      out = { formId, product := .failure g.target (stageMessage generationStage e), warnings }) ∨
    ∃ p, answerFor g o formName f = .ok p ∧ conclude formId p (renamed f formName) warnings = .ok out

/-- An item whose analysis maps to a form comes to what the form comes to, with its warnings. -/
theorem reached_of_process (hf : Form.ofAnalysis a = .ok f)
    (h : process formId a g o formName = .ok out) :
    ∃ report, f.inspect = .ok report ∧
      Reached formId g o formName f (warningsOf f report) out := by
  obtain ⟨e, he, -⟩ | ⟨f', report, hf', hreport, hout⟩ := process_eq_ok_iff.mp h
  · cases hf.symm.trans he
  · obtain rfl := Except.ok.inj (hf.symm.trans hf')
    exact ⟨report, hreport, hout⟩

namespace Reached

theorem warnings_eq (h : Reached formId g o formName f warnings out) : out.warnings = warnings := by
  obtain ⟨e, -, rfl⟩ | ⟨p, -, hconclude⟩ := h
  · rfl
  · obtain ⟨-, s, -, rfl⟩ | ⟨-, rfl⟩ := conclude_eq_ok_iff.mp hconclude
    · rfl
    · rfl

theorem kind (h : Reached formId g o formName f warnings out) :
    (out.product.success = true ∧ out.statistics.isSome) ∨ ∃ m, m ≠ "" ∧ out.FailsWith m := by
  obtain ⟨e, -, rfl⟩ | ⟨p, -, hconclude⟩ := h
  · exact Or.inr ⟨_, stageMessage_ne_empty (by decide) e, ⟨rfl, rfl, rfl⟩⟩
  · cases hp : p.success with
    | false => exact Or.inr ⟨_, failureMessage_ne_empty p, failsWith_of_conclude hp hconclude⟩
    | true =>
      obtain ⟨hsuccess, s, -, hs⟩ := statistics_of_conclude hp hconclude
      exact Or.inl ⟨hsuccess, by simp [hs]⟩

/-- A fault on the way to a product is blamed. -/
theorem blames {e : Fault} (he : answerFor g o formName f = .error e)
    (h : Reached formId g o formName f warnings out) : out.Blames generationStage e := by
  obtain ⟨e', he', rfl⟩ | ⟨p, hp, -⟩ := h
  · obtain rfl := Except.error.inj (he.symm.trans he')
    exact blames_of_failure formId g.target generationStage e warnings
  · cases he.symm.trans hp

/-- A product concludes its form. -/
theorem concluded (hp : answerFor g o formName f = .ok p)
    (h : Reached formId g o formName f warnings out) :
    conclude formId p (renamed f formName) warnings = .ok out := by
  obtain ⟨e, he, -⟩ | ⟨p', hp', hconclude⟩ := h
  · cases hp.symm.trans he
  · obtain rfl := Except.ok.inj (hp.symm.trans hp')
    exact hconclude

/-- What a form comes to is what the call of the generator leads to. -/
theorem generated (h : Reached formId g o formName f warnings out) :
    out.Generated (g.generate (renamed f formName) o) (renamed f formName) where
  raised e hcall := by
    refine h.blames ?_
    rw [answerFor, hcall]
    rfl
  useless answer complaint hcall huseless := by
    obtain ⟨e, he, hdomain, rfl⟩ := checkAnswer_of_useless huseless
    have hanswer : answerFor g o formName f = .error e := by
      rw [answerFor, hcall]
      exact he
    exact (h.blames hanswer).domain hdomain
  rejected p hcall husable hp := by
    obtain ⟨q, hq, hsuccess, hmessage, -⟩ := exists_checkAnswer_eq_ok husable
    have hanswer : answerFor g o formName f = .ok q := by
      rw [answerFor, hcall]
      exact hq
    have hfails := failsWith_of_conclude (hsuccess.trans hp) (h.concluded hanswer)
    rw [hmessage, failureMessage] at hfails
    simpa using hfails
  accepted p hcall husable hp := by
    obtain ⟨q, hq, hsuccess, -, hstatistics⟩ := exists_checkAnswer_eq_ok husable
    have hanswer : answerFor g o formName f = .ok q := by
      rw [answerFor, hcall]
      exact hq
    obtain ⟨hout, s, hs, hsome⟩ :=
      statistics_of_conclude (hsuccess.trans hp) (h.concluded hanswer)
    rw [hstatistics] at hs
    refine ⟨hout, fun t ht => ?_, fun hnone => ⟨s, ?_, hsome⟩⟩
    · rw [statisticsOf_of_statistics ht] at hs
      rw [hsome, Except.ok.inj hs]
    · rwa [statisticsOf_of_none hnone] at hs

end Reached

/-- An item has an outcome exactly when nothing escapes that is not contained, and then the outcome is a
success with statistics or a failure with the reason, as mapping and the generator have it. -/
theorem process_wellFormed :
    ((∃ out, process formId a g o formName = .ok out) ↔ Contained g o formName a) ∧
      ∀ out, process formId a g o formName = .ok out → out.WellFormed formId a g o formName := by
  refine ⟨exists_process_eq_ok, fun out h => ?_⟩
  have hid := (process_eq_ok h).1
  cases hf : Form.ofAnalysis a with
  | error e =>
    obtain rfl := Except.ok.inj ((process_of_mapping_error hf formId g o formName).symm.trans h)
    refine ⟨hid, Or.inr ⟨_, stageMessage_ne_empty (by decide) e, ⟨rfl, rfl, rfl⟩⟩, ?_, ?_⟩
    · intro e' he'
      obtain rfl := Except.error.inj (hf.symm.trans he')
      exact ⟨blames_of_failure formId g.target mappingStage e [], rfl⟩
    · intro f hf'
      cases hf.symm.trans hf'
  | ok f =>
    obtain ⟨report, hreport, hreached⟩ := reached_of_process hf h
    refine ⟨hid, hreached.kind, ?_, ?_⟩
    · intro e he
      cases hf.symm.trans he
    · intro f' hf'
      obtain rfl := Except.ok.inj (hf.symm.trans hf')
      exact ⟨hreached.generated, report, hreport, hreached.warnings_eq⟩

end

/-- A product with a map in the place of its statistics is of no use, whatever else it says; one with nothing
there gets the statistics of the form under its new name. -/
theorem process_wellFormed_statistics :
    (∃ out, process "e" (some {
            formName := .text "a"
            definition := some { views := [{}] }
            messages := [⟨.warning, .text "odd", .null, .null⟩] })
          (.ofProducts "t" fun _ _ => .ok { success := true, statistics := .other (.record [("pages", .int 5)]) })
          {} .null = .ok out ∧
        out.FailsWith "Failed to generate form: Generator returned dict statistics, not GenerationStatistics" ∧
        out.warnings = [.text "odd"]) ∧
      ∃ out, process "e" (some { formName := .text "a", definition := some { views := [{}] } })
          (.ofProducts "t" fun _ _ => .ok { success := true }) {} (.text "b") = .ok out ∧
        out.product.success = true ∧ out.statistics = some { totalPages := .int 1 } := by
  constructor
  · refine Exists.imp (fun out hout => ⟨hout, ?_⟩) ⟨_, by with_unfolding_all rfl⟩
    obtain ⟨hgenerated, report, hreport, hwarnings⟩ :=
      (process_wellFormed.2 out hout).mapped _ (by with_unfolding_all rfl)
    refine ⟨hgenerated.useless _ _ rfl (.wrongStatistics rfl rfl), ?_⟩
    have hnone : report.warnings = [] := by
      obtain rfl := Except.ok.inj (hreport.symm.trans (by with_unfolding_all rfl))
      with_unfolding_all rfl
    rw [hwarnings, hnone]
    with_unfolding_all rfl
  · refine Exists.imp (fun out hout => ⟨hout, ?_⟩) ⟨_, by with_unfolding_all rfl⟩
    obtain ⟨hgenerated, -⟩ := (process_wellFormed.2 out hout).mapped _ (by with_unfolding_all rfl)
    obtain ⟨hsuccess, -, hderived⟩ := hgenerated.accepted _ rfl (fun v hv => by cases hv) rfl
    obtain ⟨s, hs, hstatistics⟩ := hderived (fun s hs => by cases hs)
    refine ⟨hsuccess, hstatistics.trans ?_⟩
    exact congrArg some (Except.ok.inj (hs.symm.trans (by with_unfolding_all rfl)))

end Batch

end Formwright
