import Formwright.Analysis.Basic
import Formwright.Value.Display

/-
  Sample analyses: an expense claim with a repeating table, a conditional section and choices, plain
  forms of any length, and two results that no form can be made of.
-/

namespace Formwright.Analysis.Sample

open Source

def choice (value : String) (order : Int) (displayText : Value) (isDefault : Bool) : Choice :=
  { value := .text value, displayText, isDefault, order := .int order }

/-- A control with name, type, label and position, bound to its name. -/
def control (name type label position : String) : Control :=
  { name := .text name, type := .text type, label := .text label,
    binding := .text ("my:" ++ name), gridPosition := .text position }

/-- A control of the expense items. -/
def itemControl (name type label position : String) : Control :=
  { control name type label position with
    inRepeatingSection := true
    sectionName := .text "ExpenseItems"
    sectionBinding := .text "my:ExpenseItems" }

/-- A forest of controls without controls inside. -/
def leaves (cs : List Control) : Forest Control := .ofTrees (cs.map fun c => some (c, .nil))

def expenseItems : Forest Control :=
  leaves [
    itemControl "ItemDate" "DatePicker" "Date" "5A",
    itemControl "ItemDescription" "TextField" "Description" "5B",
    { itemControl "ItemAmount" "Currency" "Amount" "5C" with
      properties := [(.text "Required", .text "true")] }]

def mainView : View where
  name := .text "view1.xsl"
  controls := .ofTrees [
    some ({ name := .text "Title", type := .text "Label", label := .text "Expense Claim",
            gridPosition := .text "1A" }, .nil),
    some ({ control "EmployeeName" "TextField" "Employee Name" "2A" with
            properties := [(.text "Required", .bool true)] }, .nil),
    some ({ control "Department" "DropDown" "Department" "2B" with
            choices := [choice "FIN" 0 (.text "Finance") false, choice "ENG" 1 (.text "Engineering") true,
              choice "OPS" 2 .null false] }, .nil),
    some (control "TravelInvolved" "CheckBox" "Travel involved?" "3A", .nil),
    some (control "ExpenseItems" "RepeatingTable" "Expense Items" "4A", expenseItems),
    some ({ control "Total" "Currency" "Total" "6A" with
            properties := [(.text "ReadOnly", .text "true"),
              (.text "Calculation", .text "sum(my:ItemAmount)")] }, .nil),
    some (control "TravelDestination" "TextField" "Destination" "7A", .nil)]
  sections := [
    { name := .text "ExpenseItems", type := .text "repeating", ctrlId := .text "CTRL10",
      startRow := .int 4, endRow := .int 5,
      controlIds := [.text "ItemDate", .text "ItemDescription", .text "ItemAmount"] }]

def approvalView : View where
  name := .text "approval.xsl"
  controls := leaves [control "ApproverComments" "TextArea" "Comments" "1A"]

/-- A data field of the expense items. -/
def itemColumn (name type : String) : Column :=
  { name := .text name, type := .text type, isRepeating := true, repeatingSection := .text "ExpenseItems" }

def expenseColumns : List Column := [
  { name := .text "EmployeeName", type := .text "string", displayName := .text "Employee Name" },
  { name := .text "Department", type := .text "dropdown",
    validValues := [choice "FIN" 0 (.text "Finance") false, choice "ENG" 1 (.text "Engineering") true,
      choice "OPS" 2 (.text "Operations") false] },
  { name := .text "TravelInvolved", dataType := .text "boolean" },
  { name := .text "TravelDestination", type := .text "string", isConditional := true,
    conditionalOnField := .text "TravelInvolved" },
  { name := .text "Total", type := .text "currency" },
  itemColumn "ItemDate" "date",
  itemColumn "ItemDescription" "string",
  itemColumn "ItemAmount" "decimal",
  { name := .text "ApproverComments", type := .text "textarea" }]

/-- An expense claim: eleven controls in two views, three of them in a repeating table. -/
def expense (fileName : Value) : Analysis where
  formName := .text "Expense Report"
  formType := .text "InfoPath"
  analyzer := .text "InfoPathAnalyzer"
  definition := some {
    fileName
    views := [mainView, approvalView]
    columns := expenseColumns
    dynamicSections := [
      { mode := .text "Show", ctrlId := .text "CTRL20", caption := .text "Travel details",
        condition := .text "my:TravelInvolved = true()", conditionField := .text "TravelInvolved",
        conditionValue := .text "true", controls := [.text "TravelDestination"] }]
    metadata := some {
      totalControls := .int 11, totalSections := .int 1, dynamicSections := .int 1,
      repeatingSections := .int 1, conditionalFields := [.text "TravelInvolved"] } }
  messages := [
    { severity := .info, message := .text "Analysis complete" },
    { severity := .warning, message := .text "Rule 'ValidateTotal' uses script and was not analyzed" }]

/-- The file name of the expense claim unless another is given. -/
def expenseFile : Value := .text "ExpenseReport.xsn"

/-- A form of one view with a number of text fields, one to a row. -/
def simpleForm (formName : Value) (count : Value) (fields : Nat) (fileName : Value) : Analysis where
  formName
  definition := some {
    fileName := fileName.orElse (.text (formName.display ++ ".xsn"))
    views := [{
      name := .text "view1.xsl"
      controls := leaves ((List.range fields).map fun k =>
        let i := (k + 1).repr
        control ("Field" ++ i) "TextField" ("Field " ++ i) (i ++ "A")) }]
    columns := (List.range fields).map fun k =>
      { name := .text ("Field" ++ (k + 1).repr), type := .text "string" }
    metadata := some { totalControls := count } }

/-- The same, from a count that has to be whole. -/
def simple (formName count fileName : Value) : Except Fault Analysis :=
  match count with
  | .int n => .ok (simpleForm formName count n.toNat fileName)
  | .bool b => .ok (simpleForm formName count (if b then 1 else 0) fileName)
  | v => .error (.misuse (.notACount v.kind))

/-- A definition without views. -/
def withoutViews (formName : Value) : Analysis where
  formName
  definition := some { fileName := .text (formName.display ++ ".xsn") }

/-- A result without definition. -/
def withoutDefinition (formName : Value) : Analysis where
  formName
  messages := [{ severity := .error, message := .text "Could not open template" }]

end Formwright.Analysis.Sample
