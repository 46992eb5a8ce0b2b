import Formwright.Analysis.Reader
import Formwright.Analysis.Samples
import Formwright.Batch.Run
import Formwright.Decimal.Layout
import Formwright.Generation.Registry
import Formwright.Inspection
import Formwright.Text.Lines

/-
  The demonstration program: analyses are loaded, samples unless files are named, their forms are
  inspected, a batch runs against one target, and the primary outputs are saved. What it prints and
  writes is a function of its arguments, the files it reads and the time the batch takes.
-/

namespace Formwright.Demo

open Calendar

/-- What the program leaves behind. -/
structure Output where
  exitCode : Nat
  /-- Everything printed. -/
  printed : String
  /-- The files written, by name. -/
  written : List (String × String)
  deriving Repr, DecidableEq

/-- The target of a run that names none. -/
def defaultTarget : String := "nintex"

/-- The printed text of lines. -/
def printed (ls : List String) : String := String.join (ls.map (· ++ "\n"))

def rule (c : Char) : String := String.ofList (List.replicate 80 c)

/-- Whether a file is taken for YAML. -/
def isYaml (path : String) : Bool :=
  let suffix := Text.lower (Path.suffix path)
  suffix == ".yaml" || suffix == ".yml"

/-- The analysis in the text of a file. -/
def analysisOf (path text : String) : Except Fault Analysis :=
  if isYaml path then Analysis.ofYaml (Text.ofFile text) else Analysis.ofJson (Text.ofFile text)

/-- The name of a file, under which its analysis is known. -/
def fileName (path : String) : String := String.ofList (Path.name path.toList)

/-- Sets the analysis of an id: a new id goes to the end, an old one keeps its place. -/
def putForm (forms : List (String × Analysis)) (id : String) (a : Analysis) : List (String × Analysis) :=
  if forms.any (·.1 == id) then forms.map fun f => if f.1 == id then (id, a) else f else forms ++ [(id, a)]

/-- Loads the analyses of files. -/
def load (fileText : String → Except Fault String) (paths : List String) : Except Fault (List (String × Analysis)) :=
  paths.foldlM (fun forms path => do
    return putForm forms (fileName path) (← analysisOf path (← fileText path))) []

/-- The forms of a run that names no files. -/
def samples : List (String × Analysis) := [
  ("ExpenseReport.xsn", Analysis.Sample.expense Analysis.Sample.expenseFile),
  ("Contact.xsn", Analysis.Sample.simpleForm (.text "Contact") (.int 3) 3 .null),
  ("Broken.xsn", Analysis.Sample.withoutViews (.text "Broken"))]

/-- Whether an analysis has a view to make a form of. -/
def hasViews (a : Analysis) : Bool := a.definition.any fun d => !d.views.isEmpty

/-- What the inspection of one form prints. -/
def inspectLines (form : String × Analysis) : Except Fault (List String) :=
  if hasViews form.2 then do
    let r ← Form.inspect (← Form.ofAnalysis (some form.2))
    return ["   ✓ " ++ form.1 ++ ": " ++ r.totalControls.repr ++ " controls, " ++ r.totalViews.repr ++ " view(s)"] ++
      r.warnings.map ("      - " ++ ·)
  else .ok ["   - " ++ form.1 ++ ": no views, will fail"]

/-- What is printed for a notice of the batch. -/
def noticeLine : Batch.Notice → String
  | .line s => "   " ++ s
  | .progress p =>
    "   [" ++ p.index.repr ++ "/" ++ Text.decimal p.total ++ "] " ++ p.formId ++ ": " ++
      (if p.success then "ok" else "failed") ++ " (" ++ Decimal.wholeText p.percent ++ "%)"

/-- The outputs of the forms that succeeded; of equal file names the last one stays. -/
def outputs (r : Batch.Result) : List (String × String) :=
  (r.products.filter (·.2.success)).foldl (fun ws p => putArtifact ws p.2.outputPath p.2.output) []

/-- The lines about what was saved. -/
def savedLines (r : Batch.Result) : List String :=
  (r.products.filter (·.2.success)).map fun p => "   ✓ Saved " ++ p.2.outputPath

/-- A run that is ready for its batch: the target, the generator, the forms and what the inspection
prints. -/
structure Prepared where
  target : String
  generator : Generator
  forms : List (String × Analysis)
  inspection : List String

/-- What is said about a target that no generator has. -/
def refusal (target : String) : Output :=
  ⟨1, printed ["Unknown target " ++ target ++ ". Available: " ++ ", ".intercalate Generator.available], []⟩

/-- Loads and inspects. A target has to be named exactly; otherwise there is nothing but a refusal. -/
def prepare (args : List String) (fileText : String → Except Fault String) : Except Fault (Output ⊕ Prepared) := do
  let target := args.headD defaultTarget
  match Generator.registry.find? (·.1 == target) with
  | none => return .inl (refusal target)
  | some (_, generator) =>
    let forms ← if args.length ≤ 1 then pure samples else load fileText args.tail
    let inspection ← forms.mapM inspectLines
    return .inr ⟨target, generator, forms, inspection.flatten⟩

/-- The items of the batch. -/
def Prepared.items (p : Prepared) : List Batch.Item := p.forms.map fun f => (f.1, some f.2)

/-- Runs the batch, as far as its end. -/
def Prepared.generate (p : Prepared) (startTime : Moment) : Except Fault Batch.Recorder :=
  let o : Options := { workflow := .bool true }
  Batch.runFrom p.generator o (Batch.formNameFor p.items o) (fun _ => false) 0 p.items
    (Batch.begin p.items p.generator startTime)

/-- What a run leaves behind once its batch has ended. -/
def Prepared.report (p : Prepared) (ended : Batch.Recorder) : Output where
  exitCode := 0
  printed := printed ([
    rule '=', "BATCH GENERATION DEMO: Analyzer → CFM → " ++ p.target, rule '=',
    "\n1. LOADING ANALYZER RESULTS...",
    "   ✓ Loaded " ++ p.forms.length.repr ++ " form(s)",
    "\n2. INSPECTING FORMS..."] ++ p.inspection ++
    ["\n3. GENERATING..."] ++ ended.notices.map noticeLine ++
    ["\n4. SUMMARY:", rule '-', ended.result.summary] ++ savedLines ended.result ++ [rule '='])
  written := outputs ended.result

/-- Runs the program on its arguments. -/
def run (args : List String) (fileText : String → Except Fault String) (startTime now : Moment) :
    Except Fault Output := do
  match ← prepare args fileText with
  | .inl refused => return refused
  | .inr p => return p.report ((← p.generate startTime).finish now)

end Formwright.Demo
