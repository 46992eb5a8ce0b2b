/-
  The kinds of values a document can hold, and their names in messages.
-/

namespace Formwright

/-- The kinds of values. -/
inductive Kind where
  | null | bool | int | float | text | bytes | date | moment | list | tuple | set | map
  deriving Repr, DecidableEq

namespace Kind

/-- The short name of a kind. -/
def name : Kind → String
  | null => "NoneType"
  | bool => "bool"
  | int => "int"
  | float => "float"
  | text => "str"
  | bytes => "bytes"
  | date => "date"
  | moment => "datetime"
  | list => "list"
  | tuple => "tuple"
  | set => "set"
  | map => "dict"

/-- The full name of a kind; only the calendar kinds have a longer one. -/
def fullName : Kind → String
  | date => "datetime.date"
  | moment => "datetime.datetime"
  | k => k.name

theorem name_injective {a b : Kind} (h : a.name = b.name) : a = b := by
  cases a <;> cases b <;> simp_all [name]

end Kind

end Formwright
