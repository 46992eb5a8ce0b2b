import Formwright.Form.Basic
import Formwright.Identifier
import Formwright.Options
import Formwright.Sql.Script
import Formwright.Value.Compare

/-
  The schema of a form: a main table with the columns that do not repeat, a table for each
  repeating section, a lookup table for each column with valid values, and a summary view. Scripts
  stand in order of execution. Columns whose names become one name share the first one's column.
-/

namespace Formwright.Sql

/-- A repeating section with the data columns that lie in it. -/
structure SectionColumns where
  name : Value
  columns : List Form.Column

/-- A data column that lies in a named repeating section. -/
def isInSection (c : Form.Column) : Bool := c.isRepeating.isGiven && c.repeatingSection.isGiven

/-- Adds a column to its section; a new section goes to the end. -/
def addToSection (ss : List SectionColumns) (c : Form.Column) : Except Fault (List SectionColumns) := do
  let name ← c.repeatingSection.asKey
  if ss.any (·.name.same name) then
    return ss.map fun s => if s.name.same name then { s with columns := s.columns ++ [c] } else s
  else return ss ++ [⟨name, [c]⟩]

/-- The repeating sections, in order of first appearance. -/
def sectionsOf (cs : List Form.Column) : Except Fault (List SectionColumns) :=
  (cs.filter isInSection).foldlM addToSection []

/-- The table of a section. -/
def sectionTableName (main : String) (sectionName : Value) : Except Fault String := do
  return main ++ "_" ++ (← Identifier.tableNameOf sectionName)

/-- Refuses sections that would share a table. -/
def checkSections (main : String) : List (String × Value) → List SectionColumns → Except Fault Unit
  | _, [] => .ok ()
  | taken, s :: ss => do
    let table ← sectionTableName main s.name
    match taken.find? (·.1 == table) with
    | some t => .error (.sectionsCollide t.2.display s.name.display table)
    | none => checkSections main (taken ++ [(table, s.name)]) ss

/-- Data columns as columns of a table; of equal names only the first is kept. -/
def fieldsOf (d : Dialect) (cs : List Form.Column) : Except Fault (List Field) := do
  let fields ← cs.mapM fun c =>
    return ⟨← Identifier.columnNameOf c.name, d.columnType c.type ++ " NULL"⟩
  return fields.foldl (fun kept f => if kept.any (·.name == f.name) then kept else kept ++ [f]) []

/-- The columns that every main table has. -/
def systemFields (d : Dialect) : List Field :=
  let p := d.profile
  [⟨"Id", p.identity⟩,
   ⟨formColumn, p.uuid ++ " " ++ p.uuidDefault ++ " NOT NULL UNIQUE"⟩,
   ⟨"CreatedDate", p.timestamp ++ " " ++ p.timestampDefault ++ " NOT NULL"⟩,
   ⟨"ModifiedDate", p.timestamp ++ " " ++ p.timestampDefault ++ " NOT NULL"⟩,
   ⟨"CreatedBy", p.shortText⟩,
   ⟨"ModifiedBy", p.shortText⟩,
   ⟨"Status", "VARCHAR(50) DEFAULT 'Draft'"⟩]

/-- The columns that every section table has. -/
def sectionFields (d : Dialect) : List Field :=
  let p := d.profile
  [⟨"Id", p.identity⟩,
   ⟨parentColumn, p.uuid ++ " NOT NULL"⟩,
   ⟨"ItemOrder", p.integer ++ " NOT NULL DEFAULT 0"⟩,
   ⟨"CreatedDate", p.timestamp ++ " " ++ p.timestampDefault ++ " NOT NULL"⟩]

/-- The data columns that do not repeat. -/
def plainColumns (f : Form) : List Form.Column := f.columns.filter fun c => !c.isRepeating.isGiven

def tableScriptName (table : String) : String := "Create_" ++ table ++ "_Table"

def mainScript (d : Dialect) (f : Form) (main : String) : Except Fault Script := do
  return {
    name := tableScriptName main
    body := .table {
      name := main
      fields := systemFields d ++ (← fieldsOf d (plainColumns f))
      parent := none
      indexed := ["CreatedDate", "Status"] }
    order := 1
    description := "Main table for form " ++ f.name.display }

def sectionScript (d : Dialect) (main : String) (s : SectionColumns) (order : Nat) : Except Fault Script := do
  let table ← sectionTableName main s.name
  return {
    name := tableScriptName table
    body := .table {
      name := table
      fields := sectionFields d ++ (← fieldsOf d s.columns)
      parent := some main
      indexed := [parentColumn] }
    order
    description := "Repeating section table for " ++ s.name.display }

/-- A value that has to be a text, as it is about to be quoted. -/
def literalText : Value → Except Fault String
  | .text s => .ok s
  | .bytes _ => .error (.misuse .bytesWanted)
  | .date .. => .error (.misuse .numberWanted)
  | .moment .. => .error (.misuse .numberWanted)
  | v => .error (.noMember v.kind "replace")

/-- The place of a choice, as it is about to be written; a number can have too many digits for that. -/
def writtenOrder : Value → Except Fault Value
  | .int n =>
    if maxIntegerDigits < (Nat.toDigits 10 n.natAbs).length then .error (.badValue .integerUnwritable)
    else .ok (.int n)
  | v => .ok v

def LookupRow.ofChoice (c : Form.Choice) : Except Fault LookupRow := do
  return ⟨← literalText c.value, ← literalText c.displayText, c.isDefault.isGiven, ← writtenOrder c.order⟩

def lookupScript (main : String) (c : Form.Column) (order : Nat) : Except Fault Script := do
  let name := main ++ "_" ++ (← Identifier.columnNameOf c.name) ++ "_Lookup"
  let rows ← (← Value.sortOn (·.order) c.validValues).mapM LookupRow.ofChoice
  return {
    name := "Create_" ++ name
    body := .lookup ⟨name, rows⟩
    order
    description := "Valid values for " ++ (c.displayName.orElse c.name).display }

/-- How many data columns the summary view shows at most. -/
def maxSummaryColumns : Nat := 10

/-- The columns of the main table that the summary view shows besides data columns. -/
def summaryFields : List String := ["Id", formColumn, "CreatedDate", "ModifiedDate", "Status"]

/-- The count that the summary view shows for a section. -/
def SectionCount.ofSection (main : String) (s : SectionColumns) : Except Fault SectionCount := do
  return ⟨← sectionTableName main s.name, (← Identifier.tableNameOf s.name) ++ "Count"⟩

def summaryScript (f : Form) (main : String) (ss : List SectionColumns) : Except Fault Script := do
  let names ← ((plainColumns f).take maxSummaryColumns).mapM fun c => Identifier.columnNameOf c.name
  let name := "vw_" ++ main ++ "_Summary"
  return {
    name
    body := .view {
      name
      table := main
      fields := summaryFields ++ names.eraseDups
      counts := ← ss.mapM (SectionCount.ofSection main) }
    order := 200
    description := "Summary view for " ++ f.name.display }

/-- The place of the first section table in the order of execution. -/
def firstSectionOrder : Nat := 2

/-- The place of the first lookup table in the order of execution. -/
def firstLookupOrder : Nat := 50

def lookupScripts (f : Form) (main : String) (o : Options) : Except Fault (List Script) :=
  if o.validationRules.isGiven then
    (f.columns.filter fun c => !c.validValues.isEmpty).zipIdx.mapM fun p =>
      lookupScript main p.1 (firstLookupOrder + p.2)
  else .ok []

/-- The scripts of a form in order of execution. -/
def scripts (d : Dialect) (f : Form) (main : String) (o : Options) : Except Fault (List Script) := do
  let ss ← sectionsOf f.columns
  checkSections main [] ss
  let table ← mainScript d f main
  let tables ← ss.zipIdx.mapM fun p => sectionScript d main p.1 (firstSectionOrder + p.2)
  let lookups ← lookupScripts f main o
  let summary ← summaryScript f main ss
  return ([table] ++ tables ++ lookups ++ [summary]).mergeSort fun a b => a.order ≤ b.order

end Formwright.Sql
