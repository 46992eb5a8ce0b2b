import Formwright.ControlType

/-
  Dialects of SQL: how each spells quoted names, types and defaults.
-/

namespace Formwright.Sql

/-- The dialects that scripts are written in. -/
inductive Dialect where
  | sqlServer | mysql | postgresql
  deriving Repr, DecidableEq

/-- The spelling of the constructs that scripts use. -/
structure Profile where
  quoteOpen : String
  quoteClose : String
  schema : String
  identity : String
  uuid : String
  uuidDefault : String
  timestamp : String
  timestampDefault : String
  longText : String
  shortText : String
  truth : String
  integer : String
  decimal : String
  people : String
  binary : String
  trueWord : String
  falseWord : String
  deriving Repr, DecidableEq

namespace Dialect

def all : List Dialect := [sqlServer, mysql, postgresql]

def name : Dialect → String
  | sqlServer => "sql-server"
  | mysql => "mysql"
  | postgresql => "postgresql"

/-- The dialect that a value names. -/
def named (v : Value) : Except Fault Dialect :=
  match v with
  | .text s =>
    match all.find? fun d => d.name == s with
    | some d => .ok d
    | none => .error (.badValue (.dialect v.shown))
  | v => .error (.badValue (.dialect v.shown))

def profile : Dialect → Profile
  | sqlServer =>
    { quoteOpen := "[", quoteClose := "]", schema := "[dbo].",
      identity := "INT IDENTITY(1,1) PRIMARY KEY",
      uuid := "UNIQUEIDENTIFIER", uuidDefault := "DEFAULT NEWID()",
      timestamp := "DATETIME2", timestampDefault := "DEFAULT GETDATE()",
      longText := "NVARCHAR(MAX)", shortText := "NVARCHAR(255)",
      truth := "BIT", integer := "INT", decimal := "DECIMAL(18,4)",
      people := "NVARCHAR(500)", binary := "VARBINARY(MAX)",
      trueWord := "1", falseWord := "0" }
  | mysql =>
    { quoteOpen := "\x60", quoteClose := "\x60", schema := "",
      identity := "INT AUTO_INCREMENT PRIMARY KEY",
      uuid := "CHAR(36)", uuidDefault := "DEFAULT (UUID())",
      timestamp := "DATETIME", timestampDefault := "DEFAULT CURRENT_TIMESTAMP",
      longText := "TEXT", shortText := "VARCHAR(255)",
      truth := "TINYINT(1)", integer := "INT", decimal := "DECIMAL(18,4)",
      people := "VARCHAR(500)", binary := "LONGBLOB",
      trueWord := "1", falseWord := "0" }
  | postgresql =>
    { quoteOpen := "\"", quoteClose := "\"", schema := "",
      identity := "SERIAL PRIMARY KEY",
      uuid := "UUID", uuidDefault := "DEFAULT gen_random_uuid()",
      timestamp := "TIMESTAMP", timestampDefault := "DEFAULT CURRENT_TIMESTAMP",
      longText := "TEXT", shortText := "VARCHAR(255)",
      truth := "BOOLEAN", integer := "INTEGER", decimal := "NUMERIC(18,4)",
      people := "VARCHAR(500)", binary := "BYTEA",
      trueWord := "TRUE", falseWord := "FALSE" }

/-- A quoted name. -/
def quote (d : Dialect) (name : String) : String := d.profile.quoteOpen ++ name ++ d.profile.quoteClose

/-- A quoted table name, with its schema where the dialect has one. -/
def table (d : Dialect) (name : String) : String := d.profile.schema ++ d.quote name

/-- The column type for data of a control type; whatever has no type of its own is long text. -/
def columnType (d : Dialect) : ControlType → String
  | .number => d.profile.integer
  | .decimal | .currency => d.profile.decimal
  | .datePicker => d.profile.timestamp
  | .checkBox => d.profile.truth
  | .dropDown | .choice => d.profile.shortText
  | .peoplePicker => d.profile.people
  | .fileUpload => d.profile.binary
  | _ => d.profile.longText

theorem mem_all (d : Dialect) : d ∈ all := by cases d <;> decide

end Dialect

end Formwright.Sql
