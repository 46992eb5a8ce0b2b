import Formwright.Batch.Outcome
import Formwright.Batch.Result

/-
  Recording a batch. Outcomes are taken in one at a time; each is merged as a whole or not at all,
  and sends a status line and a progress event. Statistics grow by successes only.
-/

namespace Formwright.Batch

open Calendar

/-- The notice that an item was processed. -/
structure Progress where
  formId : String
  success : Bool
  /-- How many items have been processed with this one. -/
  index : Nat
  total : Int
  percent : Float

/-- What is sent to whoever watches a batch. -/
inductive Notice where
  | line (text : String)
  | progress (p : Progress)

/-- A batch that is being recorded. -/
structure Recorder where
  result : Result
  total : Int
  target : String
  completed : Nat := 0
  /-- Everything sent so far. -/
  notices : List Notice := []

namespace Recorder

/-- A recorder at the start of a batch. -/
def new (total : Int) (target : String) (startTime : Moment) : Recorder :=
  { result := { startTime }, total, target }

/-- The lines sent so far. -/
def lines (r : Recorder) : List String :=
  r.notices.filterMap fun n =>
    match n with
    | .line s => some s
    | .progress _ => none

/-- The progress events sent so far. -/
def events (r : Recorder) : List Progress :=
  r.notices.filterMap fun n =>
    match n with
    | .line _ => none
    | .progress p => some p

/-- Keeps a status line and sends it. -/
def message (r : Recorder) (s : String) : Recorder :=
  { r with result := { r.result with messages := r.result.messages ++ [s] }, notices := r.notices ++ [.line s] }

/-- Sends the first line. -/
def start (r : Recorder) : Recorder :=
  r.message ("Starting " ++ r.target ++ " generation for " ++ Text.decimal r.total ++ " form(s)...")

/-- Sets the product of a form: a new id goes to the end, an old one keeps its place. -/
def putProduct (ps : List (String × Product)) (formId : String) (p : Product) : List (String × Product) :=
  if ps.any (·.1 == formId) then ps.map fun e => if e.1 == formId then (formId, p) else e
  else ps ++ [(formId, p)]

/-- The statistics with those of a success merged in; a failure has nothing to merge. -/
def merged (r : Recorder) (o : Outcome) : Except Fault (Option Statistics) :=
  if o.product.success then
    match o.statistics with
    | some s => some <$> r.result.statistics.merge s
    | none => .error (.noMember .null "total_controls")
  else .ok none

/-- Takes in what every outcome brings: its product and its warnings. -/
def keep (r : Recorder) (o : Outcome) : Recorder :=
  { r with result := { r.result with
      products := putProduct r.result.products o.formId o.product
      warnings := r.result.warnings ++ o.warnings.map fun w => o.formId ++ ": " ++ w.display } }

/-- Takes in a success with the statistics it leads to, or the error of a failure. -/
def settle (r : Recorder) (o : Outcome) : Option Statistics → Recorder
  | some statistics =>
    { r with result := { r.result with statistics } }.message ("  ✓ " ++ o.formId ++ " converted successfully")
  | none =>
    let errors := r.result.errors ++ [o.formId ++ ": " ++ o.product.errorMessage]
    { r with result := { r.result with errors } }.message
      ("  ✗ " ++ o.formId ++ " failed: " ++ o.product.errorMessage)

/-- How much of a batch is done, in percent. -/
def percent (done : Nat) (total : Int) : Float := Float.ofNat done / Float.ofInt total * 100

/-- Counts an outcome and sends its progress event. A total of zero has no percentage. -/
def advance (r : Recorder) (o : Outcome) : Recorder × Option Fault :=
  let r := { r with completed := r.completed + 1 }
  if r.total = 0 then (r, some .emptyTotal)
  else
    let p : Progress := ⟨o.formId, o.product.success, r.completed, r.total, percent r.completed r.total⟩
    ({ r with notices := r.notices ++ [.progress p] }, none)

/-- Records an outcome. One whose statistics cannot be merged changes nothing. -/
def record (r : Recorder) (o : Outcome) : Recorder × Option Fault :=
  match r.merged o with
  | .error f => (r, some f)
  | .ok s => ((r.keep o).settle o s).advance o

def cancel (r : Recorder) : Recorder := { r with result := { r.result with cancelled := true } }

/-- What a cancelled batch is warned about. -/
def cancelWarnings (r : Recorder) : List String :=
  if r.result.cancelled then
    ["Batch cancelled, " ++ Text.decimal (r.total - Int.ofNat r.completed) ++ " form(s) not processed"]
  else []

/-- The last lines. -/
def closing (r : Result) : List String :=
  ["", "=== Generation Complete ===",
   "Total Forms: " ++ r.total.repr,
   "Successful: " ++ r.succeeded.repr,
   "Failed: " ++ r.failed.repr,
   "Duration: " ++ durationText r.duration]

/-- Ends a batch: time, success and the last lines. -/
def finish (r : Recorder) (now : Moment) : Recorder :=
  let result := { r.result with
    endTime := some now
    success := 0 < r.result.succeeded
    warnings := r.result.warnings ++ r.cancelWarnings }
  (closing result).foldl message { r with result }

@[simp] theorem lines_message (r : Recorder) (s : String) : (r.message s).lines = r.lines ++ [s] := by
  simp [lines, message]

@[simp] theorem events_message (r : Recorder) (s : String) : (r.message s).events = r.events := by
  simp [events, message]

theorem record_of_merged_error {r : Recorder} {o : Outcome} {f : Fault} (h : r.merged o = .error f) :
    r.record o = (r, some f) := by
  simp [record, h]

end Recorder

end Formwright.Batch
