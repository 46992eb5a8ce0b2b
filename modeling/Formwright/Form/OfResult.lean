import Formwright.Analysis.Result
import Formwright.Form.OfAnalysis

/-
  The canonical form of an analyzer's result. The controls of each view are unfolded, which fails for a
  control that lies inside itself, and then the result is an analysis.
-/

namespace Formwright

namespace Analyzer

def View.unfold (g : Graph Source.Control) (v : View) : Except Fault Source.View := do
  return {
    name := textOf v.name
    controls := ← g.unfold Form.calledName maxDepth [] (present v.controls)
    sections := (present v.sections).map Section.read }

def Definition.unfold (g : Graph Source.Control) (d : Definition) : Except Fault Source.Definition := do
  return {
    fileName := textOf d.fileName
    views := ← (present d.views).mapM (View.unfold g)
    columns := (present d.columns).map Column.read
    dynamicSections := (present d.dynamicSections).map DynamicSection.read
    metadata := d.metadata.map Metadata.read }

/-- The analysis that a result is, for the controls that it refers to. -/
def Result.unfold (cs : List Control) (r : Result) : Except Fault Analysis := do
  return {
    formName := textOf r.formName
    formType := textOf r.formType
    analyzer := textOf r.analyzer
    definition := ← match r.definition with
      | none => pure none
      | some d => some <$> d.unfold (objects cs)
    messages := r.messages.map Message.read }

end Analyzer

/-- The canonical form of a result, which may be missing. -/
def Form.ofResult (cs : List Analyzer.Control) : Option Analyzer.Result → Except Fault Form
  | none => ofAnalysis none
  | some r => do ofAnalysis (some (← r.unfold cs))

end Formwright
