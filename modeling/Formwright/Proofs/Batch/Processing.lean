import Formwright.Batch.Outcome
import Formwright.Proofs.Success

/-
  What processing one item comes to. An item whose analysis cannot be mapped, or whose form the
  generator does not turn into a product, has a failure as its outcome. Everything between is
  not contained: the inspection of the form, and the statistics that are derived for a product
  without any (`process_eq_ok_iff`).
-/

namespace Formwright.Batch

/-- The warnings of a form that was inspected. -/
def warningsOf (f : Form) (report : Report) : List Value :=
  f.sourceWarnings ++ report.warnings.map .text

/-- What a generator makes of a form under a name, as a product or a fault. -/
def answerFor (g : Generator) (o : Options) (formName : Value) (f : Form) : Except Fault Product :=
  (g.generate (renamed f formName) o).bind checkAnswer

section
variable {formId : String} {a : Option Analysis} {g : Generator} {o : Options} {formName : Value}
  {out : Outcome}

/-- The ways in which an item gets an outcome. -/
theorem process_eq_ok_iff : process formId a g o formName = .ok out ↔
    (∃ e, Form.ofAnalysis a = .error e ∧
        out = { formId, product := .failure g.target (stageMessage mappingStage e) }) ∨
      ∃ f report, Form.ofAnalysis a = .ok f ∧ f.inspect = .ok report ∧
        ((∃ e, answerFor g o formName f = .error e ∧
            out = { formId, product := .failure g.target (stageMessage generationStage e),
                    warnings := warningsOf f report }) ∨
          ∃ p, answerFor g o formName f = .ok p ∧
            conclude formId p (renamed f formName) (warningsOf f report) = .ok out) := by
  unfold process
  cases hf : Form.ofAnalysis a with
  | error e => simp [eq_comm]
  | ok f =>
    cases hr : f.inspect with
    | error e => simp [hr]
    | ok report =>
      have hanswer : (g.generate (renamed f formName) o).bind checkAnswer =
        answerFor g o formName f := rfl
      cases hp : answerFor g o formName f with
      | error e => simp [hr, hanswer, hp, warningsOf, eq_comm (b := out)]
      | ok p => simp [hr, hanswer, hp, warningsOf]

/-- A product that a generator made concludes an item as it is, unless it is a success that lacks
statistics and has none derived, or a failure without a message. -/
theorem conclude_eq_ok_iff {p : Product} {f : Form} {warnings : List Value} :
    conclude formId p f warnings = .ok out ↔
      (p.success = true ∧ ∃ s, statisticsOf p f = .ok s ∧
          out = { formId, product := p, statistics := some s, warnings }) ∨
        (p.success = false ∧
          out = { formId, product := { p with errorMessage := failureMessage p }, warnings }) := by
  unfold conclude
  by_cases hs : p.success = true
  · cases h : statisticsOf p f <;> simp [hs, eq_comm]
  · simp [hs, eq_comm]

/-- An outcome bears the id of its item, and statistics if it is a success. -/
theorem process_eq_ok (h : process formId a g o formName = .ok out) :
    out.formId = formId ∧ (out.product.success = true → out.statistics.isSome) := by
  rcases process_eq_ok_iff.mp h with ⟨e, -, rfl⟩ | ⟨f, report, -, -, ⟨e, -, rfl⟩ | ⟨p, -, hc⟩⟩
  · exact ⟨rfl, fun h => Bool.noConfusion h⟩
  · exact ⟨rfl, fun h => Bool.noConfusion h⟩
  · rcases conclude_eq_ok_iff.mp hc with ⟨-, s, -, rfl⟩ | ⟨hs, rfl⟩
    · exact ⟨rfl, fun _ => rfl⟩
    · exact ⟨rfl, fun h => absurd h (by simp [hs])⟩

end

end Formwright.Batch
