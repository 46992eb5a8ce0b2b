import Formwright.Sql.Dialect

/-
  Scripts of a schema: tables, lookup tables with their rows, and the summary view. A script is a
  structure first; its text is a rendering in a dialect.
-/

namespace Formwright.Sql

/-- A column of a table: its name, and its type with all constraints. -/
structure Field where
  name : String
  definition : String
  deriving Repr, DecidableEq

/-- A table that holds data of a form, and the columns that have an index each. -/
structure Table where
  name : String
  fields : List Field
  /-- The main table, for a table whose rows belong to rows of it. -/
  parent : Option String
  indexed : List String
  deriving Repr, DecidableEq

/-- A row of a lookup table. -/
structure LookupRow where
  value : String
  displayText : String
  isDefault : Bool
  order : Value

/-- A lookup table with its rows. -/
structure Lookup where
  name : String
  rows : List LookupRow

/-- A count of the rows of a section table that belong to a row of the main table. -/
structure SectionCount where
  table : String
  label : String
  deriving Repr, DecidableEq

/-- A view over the main table. -/
structure Summary where
  name : String
  table : String
  fields : List String
  counts : List SectionCount
  deriving Repr, DecidableEq

/-- What a script creates. -/
inductive Body where
  | table (t : Table)
  | lookup (l : Lookup)
  | view (s : Summary)

/-- A script with its place in the order of execution. -/
structure Script where
  name : String
  body : Body
  order : Nat
  description : String

/-- The word for what a script creates. -/
def Body.kind : Body → String
  | .table _ => "table"
  | .lookup _ => "lookup"
  | .view _ => "view"

/-- The name of the table or view that a script creates. -/
def Body.creates : Body → String
  | .table t => t.name
  | .lookup l => l.name
  | .view s => s.name

/-! ## Text -/

/-- A text literal: quotes around it, and every quote inside twice. -/
def literalChars : List Char → List Char
  | [] => []
  | c :: cs => if c = '\'' then '\'' :: '\'' :: literalChars cs else c :: literalChars cs

def literal (s : String) : String := "'" ++ String.ofList (literalChars s.toList) ++ "'"

/-- The column that links a row to its row of the main table. -/
def parentColumn : String := "ParentFormId"

/-- The column of the main table that other tables refer to. -/
def formColumn : String := "FormId"

def lines (ss : List String) : String := "\n".intercalate ss

/-- The lines of a list, with a comma behind each but the last. -/
def commaLines (ss : List String) : String := ",\n".intercalate ss

def Field.text (d : Dialect) (f : Field) : String := "    " ++ d.quote f.name ++ " " ++ f.definition

/-- The index over one column of a table. -/
def indexText (d : Dialect) (table column : String) : String :=
  "CREATE INDEX " ++ d.quote ("IX_" ++ table ++ "_" ++ column) ++ " ON " ++ d.table table ++
    " (" ++ d.quote column ++ ");"

/-- The constraint that ties a table to the main table. -/
def parentText (d : Dialect) (table parent : String) : String :=
  "    CONSTRAINT " ++ d.quote ("FK_" ++ table) ++ " FOREIGN KEY (" ++ d.quote parentColumn ++
    ") REFERENCES " ++ d.table parent ++ " (" ++ d.quote formColumn ++ ") ON DELETE CASCADE"

def Table.text (d : Dialect) (t : Table) : String :=
  lines ([
    "CREATE TABLE " ++ d.table t.name ++ " (",
    commaLines (t.fields.map (Field.text d) ++ (t.parent.map (parentText d t.name)).toList),
    ");", ""] ++ t.indexed.map (indexText d t.name))

/-- The columns of a lookup table. -/
def lookupFields (d : Dialect) : List Field := [
  ⟨"Value", d.profile.shortText ++ " NOT NULL PRIMARY KEY"⟩,
  ⟨"DisplayText", d.profile.shortText ++ " NOT NULL"⟩,
  ⟨"IsDefault", d.profile.truth ++ " NOT NULL"⟩,
  ⟨"SortOrder", d.profile.integer ++ " NOT NULL"⟩]

/-- The statement that inserts a row. -/
def LookupRow.text (d : Dialect) (table : String) (r : LookupRow) : String :=
  "INSERT INTO " ++ d.table table ++ " (" ++ ", ".intercalate ((lookupFields d).map fun f => d.quote f.name) ++
    ") VALUES (" ++ literal r.value ++ ", " ++ literal r.displayText ++ ", " ++
    (if r.isDefault then d.profile.trueWord else d.profile.falseWord) ++ ", " ++ r.order.display ++ ");"

def Lookup.text (d : Dialect) (l : Lookup) : String :=
  lines ([
    "CREATE TABLE " ++ d.table l.name ++ " (", commaLines ((lookupFields d).map (Field.text d)), ");"] ++
    l.rows.map (LookupRow.text d l.name))

/-- A count in the list of what the view selects. -/
def SectionCount.text (d : Dialect) (c : SectionCount) : String :=
  "    (SELECT COUNT(*) FROM " ++ d.table c.table ++ " r WHERE r." ++ d.quote parentColumn ++ " = m." ++
    d.quote formColumn ++ ") AS " ++ d.quote c.label

def Summary.text (d : Dialect) (s : Summary) : String :=
  lines [
    "CREATE VIEW " ++ d.table s.name ++ " AS", "SELECT",
    commaLines ((s.fields.map fun f => "    m." ++ d.quote f) ++ s.counts.map (SectionCount.text d)),
    "FROM " ++ d.table s.table ++ " m;"]

/-- The text of what a script creates. -/
def Body.text (d : Dialect) : Body → String
  | .table t => t.text d
  | .lookup l => l.text d
  | .view s => s.text d

/-- The text of a script. -/
def Script.content (s : Script) (d : Dialect) : String := s.body.text d

/-- The text of a script under its description, as a comment. -/
def Script.commented (s : Script) (d : Dialect) : String := "-- " ++ s.description ++ "\n" ++ s.content d

example : literal "it's" = "'it''s'" := by decide +kernel

end Formwright.Sql
