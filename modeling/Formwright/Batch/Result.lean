import Formwright.Calendar.Moment
import Formwright.Decimal.Binary64
import Formwright.Generation.Basic
import Formwright.Value.Display

/-
  The result of a batch: a product for each form that was processed, errors and warnings, the status
  lines that were sent, times and merged statistics. A batch succeeds when a form did.
-/

namespace Formwright.Batch

open Calendar

/-- What a batch has come to so far, or in the end. -/
structure Result where
  /-- The products by form id. -/
  products : List (String × Product) := []
  errors : List String := []
  warnings : List String := []
  messages : List String := []
  startTime : Moment
  endTime : Option Moment := none
  success : Bool := false
  cancelled : Bool := false
  statistics : Statistics := {}

/-! ## Durations -/

/-- The most days that a duration may have. -/
def maxDays : Nat := 999999999

/-- The microseconds of a number of milliseconds, within the limit of durations. -/
def ofMillis (ms : Int) : Except Fault Int :=
  if maxDays < (Int.fdiv ms 86400000).natAbs then .error .tooLarge else .ok (1000 * ms)

/-- The whole seconds of a duration, toward zero. Seconds are counted as a double, which holds all
microseconds of some three hundred years. -/
def wholeSeconds (micros : Int) : Int :=
  (Decimal.truncate? (Decimal.nearest (micros < 0) micros.natAbs 1000000)).getD 0

/-- Minutes and seconds; a batch without end is in progress. -/
def durationText : Option Int → String
  | none => "In progress"
  | some micros =>
    let s := wholeSeconds micros
    Text.paddedInt 2 (Int.fdiv s 60) ++ ":" ++ Text.paddedInt 2 (Int.fmod s 60)

namespace Result

/-- The number of forms that were processed. -/
def total (r : Result) : Nat := r.products.length

def succeeded (r : Result) : Nat := (r.products.filter (·.2.success)).length

def failed (r : Result) : Nat := (r.products.filter (!·.2.success)).length

/-- The microseconds from start to end. -/
def duration (r : Result) : Option Int :=
  r.endTime.map fun e => e.localMicros - r.startTime.localMicros

/-- A heading with a count and a line for each item; nothing for no items. -/
def listing (heading : String) (items : List String) : List String :=
  if items.isEmpty then []
  else [heading ++ " (" ++ items.length.repr ++ "):"] ++ items.map ("  - " ++ ·) ++ [""]

/-- The summary for people: counts, duration, totals, errors and warnings. -/
def summary (r : Result) : String :=
  "\n".intercalate ([
    "=== Form Generation Summary ===",
    "Total Forms: " ++ r.total.repr,
    "Successful: " ++ r.succeeded.repr,
    "Failed: " ++ r.failed.repr,
    "Duration: " ++ durationText r.duration] ++
    (if r.cancelled then ["Status: Cancelled"] else []) ++ [
    "",
    "Total Controls: " ++ r.statistics.totalControls.display,
    "Total Variables: " ++ r.statistics.totalVariables.display,
    "Total Pages: " ++ r.statistics.totalPages.display,
    ""] ++ listing "Errors" r.errors ++ listing "Warnings" r.warnings)

/-- A product in the document of a result: outputs are left out, artifacts are named in order. -/
def productValue (p : Product) : Value :=
  .record [
    ("success", p.success), ("error_message", .text p.errorMessage), ("target", .text p.target),
    ("output_path", .text p.outputPath),
    ("artifacts", .ofTexts ((p.artifacts.map (·.1)).mergeSort fun a b => !(b < a)))]

/-- The document of a result. -/
def toValue (r : Result) : Value :=
  .record [
    ("success", r.success), ("cancelled", r.cancelled), ("total_forms", .count r.total),
    ("successful_forms", .count r.succeeded), ("failed_forms", .count r.failed),
    ("start_time", .text (r.startTime.isoText "T")),
    ("end_time", (r.endTime.map fun e => Value.text (e.isoText "T")).getD .null),
    ("form_results", .record (r.products.map fun p => (p.1, productValue p.2))),
    ("errors", .ofTexts r.errors), ("warnings", .ofTexts r.warnings), ("messages", .ofTexts r.messages),
    ("statistics", r.statistics.toValue)]

theorem total_eq (r : Result) : r.total = r.succeeded + r.failed := by
  unfold total succeeded failed
  induction r.products with
  | nil => rfl
  | cons p ps ih => cases h : p.2.success <;> simp [h] <;> omega

end Result

example : durationText (some 61000000) = "01:01" ∧ durationText none = "In progress" := by decide +kernel

end Formwright.Batch
