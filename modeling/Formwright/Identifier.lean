import Formwright.Path
import Formwright.Text.Lower

/-
  Identifiers for free-form names: the words of a name, runs of ASCII letters and digits, joined
  by single underscores, then made to start with a letter and cut to length.
-/

namespace Formwright.Identifier

/-- A character that may stand in a word: an ASCII letter or digit. -/
def isWordChar (c : Char) : Bool :=
  ('a' ≤ c && c ≤ 'z') || ('A' ≤ c && c ≤ 'Z') || ('0' ≤ c && c ≤ '9')

def isDigitChar (c : Char) : Bool := '0' ≤ c && c ≤ '9'

/-- The words of a name: its maximal runs of word characters. -/
def words : List Char → List (List Char)
  | [] => []
  | c :: cs =>
    if isWordChar c then
      match cs with
      | [] => [[c]]
      | d :: ds =>
        if isWordChar d then
          match words (d :: ds) with
          | [] => [[c]]
          | w :: ws => (c :: w) :: ws
        else [c] :: words (d :: ds)
    else words cs

/-- The words of a name joined by single underscores. -/
def joined (name : String) : List Char := ['_'].intercalate (words name.toList)

/-- `cs` behind `lead` when it starts with a digit. -/
def withLead (lead : String) (cs : List Char) : List Char :=
  match cs with
  | [] => []
  | c :: _ => if isDigitChar c then lead.toList ++ cs else cs

def maxTableName : Nat := 64

def maxColumnName : Nat := 128

/-- Words that no column may be named. -/
def reserved : List String :=
  ["user", "date", "time", "table", "index", "key", "primary", "foreign", "references"]

/-- The text, or a default in place of the empty text. -/
def orDefault (default : String) (cs : List Char) : String :=
  if cs.isEmpty then default else String.ofList cs

/-- The table name for a form or section: the words of its stem. -/
def tableName (name : String) : String :=
  if name.isEmpty then "FormTable"
  else orDefault "FormTable" ((withLead "Form_" (joined (Path.stem name))).take maxTableName)

/-- A reserved word with `_Field` behind it; any other name as it is. -/
def unreserve (cs : List Char) : List Char :=
  if reserved.contains (Text.lower (String.ofList cs)) then cs ++ "_Field".toList else cs

/-- The column name for a data field. -/
def columnName (name : String) : String :=
  if name.isEmpty then "Column"
  else orDefault "Column" ((unreserve (withLead "Col_" (joined name))).take maxColumnName)

/-- The lower-case part of a variable name. -/
def variableStem (name : String) : String :=
  let clean := (joined name).map Text.lowerChar
  match clean with
  | [] => "field"
  | c :: _ => if isDigitChar c then "field_" ++ String.ofList clean else String.ofList clean

/-- The variable name for a control, behind a lead. -/
def variableName (name lead : String) : String := lead ++ variableStem name

/-- The table name for a value; one that is not given gets the default name. -/
def tableNameOf (v : Value) : Except Fault String :=
  if v.isGiven then
    match v with
    | .text s => .ok (tableName s)
    | v => .error (.misuse (.pathFrom v.kind))
  else .ok (tableName "")

/-- A name to be searched for words; a value that is not given counts as empty. -/
def nameText (v : Value) : Except Fault String :=
  if v.isGiven then
    match v with
    | .text s => .ok s
    | v => .error (.misuse (.searchIn v.kind))
  else .ok ""

/-- The column name for a value. -/
def columnNameOf (v : Value) : Except Fault String := (nameText v).map columnName

/-- The variable name for a value. -/
def variableNameOf (v : Value) (lead : String) : Except Fault String :=
  (nameText v).map (variableName · lead)

theorem tableNameOf_text (s : String) : tableNameOf (.text s) = .ok (tableName s) := by
  by_cases h : s = "" <;> simp [tableNameOf, h]

theorem nameText_text (s : String) : nameText (.text s) = .ok s := by
  by_cases h : s = "" <;> simp [nameText, h]

theorem columnNameOf_text (s : String) : columnNameOf (.text s) = .ok (columnName s) := by
  rw [columnNameOf, nameText_text]
  rfl

example : tableName "Expense Report.xsn" = "Expense_Report" ∧ tableName "2024 budget" = "Form_2024_budget" ∧
    variableName "1st" "se_" = "se_field_1st" ∧ columnName "Date" = "Date_Field" := by decide +kernel

end Formwright.Identifier
