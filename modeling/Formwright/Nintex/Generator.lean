import Formwright.Generation.Basic
import Formwright.Json.Writer
import Formwright.Nintex.OfForm
import Formwright.Yaml.Printer

/-
  Generation for the Nintex target: the form definition as primary output and as an artifact, and on
  demand a workflow definition and notes on the conversion.
-/

namespace Formwright.Nintex

def target : String := "nintex"

/-- The workflow that stores the data of a submitted form. -/
def workflow (d : Document) : Value :=
  .record [
    ("name", .text (d.name.display ++ " Workflow")), ("trigger", .text "form-submitted"),
    ("actions", .ofList [
      .record [("type", .text "store-data"), ("variables", .ofTexts (d.formVariables.map (·.id)))]])]

/-- What a form was converted from. -/
def metadata (f : Form) (s : Statistics) : Value :=
  .record [
    ("sourceFormId", f.id), ("sourceFormType", f.formType), ("generatedBy", .text target),
    ("views", .count f.views.length), ("controls", s.totalControls),
    ("dataColumns", .count f.columns.length), ("sourceWarnings", .ofList f.sourceWarnings)]

/-- How often each widget is used, by name. -/
def widgetUse (s : Statistics) : Except Fault (List String) := do
  let es ← s.widgetTypes.entriesFor "items"
  return (← Value.sortOn (·.1) es).map fun e => "  " ++ e.1.display ++ ": " ++ e.2.display

/-- Notes on a conversion, for people. -/
def conversionNotes (f : Form) (s : Statistics) : Except Fault String := do
  return "\n".intercalate ([
    "Form: " ++ f.name.display,
    "Source: " ++ f.id.display,
    "Pages: " ++ s.totalPages.display,
    "Rows: " ++ s.totalRows.display,
    "Controls: " ++ s.totalControls.display,
    "Variables: " ++ s.totalVariables.display,
    "",
    "Widget usage:"] ++ (← widgetUse s)) ++ "\n"

/-- The artifacts besides the form definition. -/
def companions (f : Form) (o : Options) (d : Document) (s : Statistics) :
    Except Fault (List (String × String)) := do
  let flow ← if o.workflow.isGiven then
      do pure [("workflow-definition.json", ← Json.write .readable (workflow d))]
    else pure []
  let notes ← if o.metadata.isGiven then
      do pure [("metadata.json", ← Json.write .readable (metadata f s)),
        ("conversion-info.txt", ← conversionNotes f s)]
    else pure []
  return flow ++ notes

/-- The suffix of the primary output. -/
def suffix : OutputFormat → String
  | .json => "json"
  | .yaml => "yaml"

/-- The document of a form as a product. A form without views has none. -/
def product (f : Form) (o : Options) : Except Fault Product := do
  if f.views.isEmpty then throw (.nothingToRender f.id.display)
  let (drafts, d) ← build f o
  let s ← statistics f drafts d
  let json ← Json.write .readable d.toValue
  let others ← companions f o d s
  let output := match o.outputFormat with
    | .json => json
    | .yaml => Yaml.write .readable d.toValue
  return {
    success := true
    target
    output
    outputPath := (← Identifier.tableNameOf f.name) ++ "_nintex." ++ suffix o.outputFormat
    artifacts := ("form-definition.json", json) :: others
    statistics := .statistics s }

/-- The generator of the Nintex target. -/
def generator : Generator := .ofProducts target product

end Formwright.Nintex
