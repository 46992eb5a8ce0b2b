import Formwright.Text.Lines
import Formwright.Text.Upper
import Formwright.Value.Access
import Formwright.Value.Display
import Formwright.Yaml.Content

/-
  Generation options. Each switch adds or removes content of what is generated and leaves the rest
  alone. A document of options is a map from option names to values; only the output format is
  checked, all other values are taken as they come.
-/

namespace Formwright

/-- How the primary output of a form definition is encoded. -/
inductive OutputFormat where
  | json | yaml
  deriving Repr, DecidableEq

namespace OutputFormat

def all : List OutputFormat := [json, yaml]

def name : OutputFormat → String
  | json => "JSON"
  | yaml => "YAML"

/-- The format named by an upper-case text. -/
def named (s : String) : Except Fault OutputFormat :=
  match all.find? fun f => f.name == s with
  | some f => .ok f
  | none => .error (.unsupportedFormat s (all.map name))

/-- The format that a value names, letters of either case; JSON when nothing is given. -/
def ofValue (v : Value) : Except Fault OutputFormat :=
  if v.isGiven then
    match v with
    | .text s => named (Text.upper s)
    | .bytes bs =>
      let raised := bs.map fun b => if 97 ≤ b ∧ b ≤ 122 then b - 32 else b
      .error (.unsupportedFormat (Text.quotedBytes raised) (all.map name))
    | v => .error (.noMember v.kind "upper")
  else .ok json

end OutputFormat

/-- Switches for the generation of one form or of a batch. -/
structure Options where
  /-- The name of the generated form; it counts only when a single form is generated. -/
  formName : Value := .null
  description : Value := .null
  validationRules : Value := .bool true
  conditionalLogic : Value := .bool true
  calculations : Value := .bool true
  workflow : Value := .bool false
  outputFormat : OutputFormat := .json
  defaultLanguage : Value := .text "en"
  metadata : Value := .bool true
  comments : Value := .bool true
  /-- What stands in front of the names of variables. -/
  variableLead : Value := .text "se_"
  layoutType : Value := .text "Responsive"

namespace Options

/-- The names of the options. -/
def names : List String :=
  ["form_name", "description", "include_validation_rules", "include_conditional_logic",
   "include_calculations", "generate_workflow", "output_format", "default_language",
   "include_metadata", "include_comments", "variable_prefix", "layout_type"]

/-- The keys that are no option names. -/
def unknownKeys (es : List (Value × Value)) : List Value :=
  (es.map (·.1)).filter fun k => !k.occursIn (names.map .text)

/-- The fault of unknown keys, which are named in ascending order. -/
def checkKeys (es : List (Value × Value)) : Except Fault Unit := do
  let unknown ← Value.sorted (unknownKeys es)
  if !unknown.isEmpty then
    discard (Value.joinTexts ", " unknown)
    throw (.unknownOptions (unknown.map Value.display))

/-- Reads options from the entries of a document. -/
def ofEntries (es : List (Value × Value)) : Except Fault Options := do
  checkKeys es
  let pick (name : String) (default : Value) : Value := (Value.member? es name).getD default
  let d : Options := {}
  return {
    formName := pick "form_name" d.formName
    description := pick "description" d.description
    validationRules := pick "include_validation_rules" d.validationRules
    conditionalLogic := pick "include_conditional_logic" d.conditionalLogic
    calculations := pick "include_calculations" d.calculations
    workflow := pick "generate_workflow" d.workflow
    outputFormat := ← OutputFormat.ofValue (pick "output_format" (.text d.outputFormat.name))
    defaultLanguage := pick "default_language" d.defaultLanguage
    metadata := pick "include_metadata" d.metadata
    comments := pick "include_comments" d.comments
    variableLead := pick "variable_prefix" d.variableLead
    layoutType := pick "layout_type" d.layoutType }

/-- Reads options from a document; null stands for the defaults. -/
def read : Value → Except Fault Options
  | .null => .ok {}
  | .map _ es => ofEntries es
  | v => .error (.optionsNotMapping v.kind)

/-- The document of options, every option named. -/
def toValue (o : Options) : Value :=
  .record [
    ("form_name", o.formName), ("description", o.description),
    ("include_validation_rules", o.validationRules), ("include_conditional_logic", o.conditionalLogic),
    ("include_calculations", o.calculations), ("generate_workflow", o.workflow),
    ("output_format", .text o.outputFormat.name), ("default_language", o.defaultLanguage),
    ("include_metadata", o.metadata), ("include_comments", o.comments),
    ("variable_prefix", o.variableLead), ("layout_type", o.layoutType)]

/-- Reads options from the text of a YAML file. -/
def ofFile (text : String) : Except Fault Options := do
  match Yaml.read (Text.ofFile text) with
  | .ok v => read v
  | .error .yaml => .error .unreadableOptions
  | .error f => .error f

end Options

end Formwright
