import Formwright.Form.OfAnalysis
import Formwright.Generation.Basic
import Formwright.Inspection

/-
  Processing one item of a batch: its analysis is mapped to a form, the form is inspected, and a
  generator runs on it. What goes wrong in mapping or generation becomes a failed product with the
  reason, a domain fault with the stage it happened in.
-/

namespace Formwright.Batch

/-- What one item contributes to a batch. -/
structure Outcome where
  formId : String
  product : Product
  /-- The statistics of a success. -/
  statistics : Option Statistics := none
  warnings : List Value := []

/-- The message of a fault in a stage. -/
def stageMessage (stage : String) (f : Fault) : String :=
  if f.isDomain then stage ++ f.message else "Unexpected error - " ++ f.message

def mappingStage : String := "Failed to map form structure: "

def generationStage : String := "Failed to generate form: "

/-- The product of an answer. An answer that is none, or a product with wrong statistics, is a fault. -/
def checkAnswer : Answer → Except Fault Product
  | .other .null => .error .noResult
  | .other v => .error (.notAResult v.kind)
  | .product p =>
    match p.statistics with
    | .other v => if v.isNull then .ok { p with statistics := .absent } else .error (.notStatistics v.kind)
    | _ => .ok p

/-- The form under another name, if one is given. -/
def renamed (f : Form) (name : Value) : Form := if name.isGiven then { f with name } else f

/-- The statistics of a success: the ones that come with it, else those of the form. -/
def statisticsOf (p : Product) (f : Form) : Except Fault Statistics :=
  match p.statistics with
  | .statistics s => .ok s
  | _ => Statistics.collect f

/-- The message of a product that failed. -/
def failureMessage (p : Product) : String :=
  if p.errorMessage.isEmpty then "Generation failed" else p.errorMessage

/-- The outcome of a product that a generator made of a form. -/
def conclude (formId : String) (p : Product) (f : Form) (warnings : List Value) : Except Fault Outcome :=
  if p.success then do
    return { formId, product := p, statistics := some (← statisticsOf p f), warnings }
  else .ok { formId, product := { p with errorMessage := failureMessage p }, warnings }

/-- Processes one item. A name that is given replaces the name of the form after its inspection. -/
def process (formId : String) (a : Option Analysis) (g : Generator) (o : Options) (formName : Value) :
    Except Fault Outcome :=
  match Form.ofAnalysis a with
  | .error e => .ok { formId, product := .failure g.target (stageMessage mappingStage e) }
  | .ok f => do
    let report ← f.inspect
    let warnings := f.sourceWarnings ++ report.warnings.map .text
    let f := renamed f formName
    match (g.generate f o).bind checkAnswer with
    | .error e => return { formId, product := .failure g.target (stageMessage generationStage e), warnings }
    | .ok p => conclude formId p f warnings

theorem process_of_mapping_error {a : Option Analysis} {e : Fault} (h : Form.ofAnalysis a = .error e)
    (formId : String) (g : Generator) (o : Options) (formName : Value) :
    process formId a g o formName = .ok { formId, product := .failure g.target (stageMessage mappingStage e) } := by
  simp [process, h]

end Formwright.Batch
