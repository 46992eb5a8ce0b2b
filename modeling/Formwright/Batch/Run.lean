import Formwright.Batch.Recorder
import Formwright.Value.Display

/-
  Running a batch over forms by id, one after the other or several at once. A run can be cancelled
  before any item; the items before are kept. When several run at once, outcomes are recorded in the
  order in which they complete, and products are put back into the order of the forms at the end.
-/

namespace Formwright.Batch

open Calendar

/-- What is given as the forms of a batch: analyses by id, or something that is no such map. -/
inductive Forms where
  | byId (items : List (Value × Option Analysis))
  | other (v : Value)

/-- A form id, which has to be a text. -/
def textId : Value → Except Fault String
  | .text s => .ok s
  | v => .error (.idNotText v.shown)

/-- Sets the analysis of an id: a new id goes to the end, an old one keeps its place. -/
def putAnalysis (items : List (Value × Option Analysis)) (id : Value) (a : Option Analysis) :
    List (Value × Option Analysis) :=
  if items.any fun i => i.1.same id then items.map fun i => if i.1.same id then (i.1, a) else i
  else items ++ [(id, a)]

/-- Forms by id from a list of pairs. -/
def Forms.ofPairs (pairs : List (Value × Option Analysis)) : Except Fault Forms := do
  return .byId (← pairs.foldlM (fun items p => return putAnalysis items (← p.1.asKey) p.2) [])

/-- An item of a batch. -/
abbrev Item := String × Option Analysis

/-- The items and the generator of a batch, if they are what they should be. -/
def check (forms : Forms) (g : Option Generator) : Except Fault (List Item × Generator) :=
  match forms, g with
  | .other .null, _ => .error .formsMissing
  | .other v, _ => .error (.formsNotMapping v.kind)
  | .byId _, none => .error .generatorMissing
  | .byId items, some g => do
    return (← items.mapM fun i => do return (← textId i.1, i.2), g)

/-- The name for the form of a batch: only a batch of one form has one. -/
def formNameFor (items : List Item) (o : Options) : Value :=
  if items.length = 1 then o.formName else .null

/-- The recorder of a batch, with its first line sent. -/
def begin (items : List Item) (g : Generator) (startTime : Moment) : Recorder :=
  (Recorder.new items.length g.target startTime).start

/-- Processes an item and records it. -/
def step (g : Generator) (o : Options) (formName : Value) (r : Recorder) (item : Item) : Except Fault Recorder := do
  match r.record (← process item.1 item.2 g o formName) with
  | (r, none) => return r
  | (_, some f) => throw f

/-- Processes items in order until the run is cancelled. `asked k` is the answer to the question
before item number `k` whether to stop. -/
def runFrom (g : Generator) (o : Options) (formName : Value) (asked : Nat → Bool) :
    Nat → List Item → Recorder → Except Fault Recorder
  | _, [], r => .ok r
  | k, item :: items, r =>
    if asked k then .ok r.cancel
    else do runFrom g o formName asked (k + 1) items (← step g o formName r item)

/-- Runs a batch, one item after the other. -/
def run (items : List Item) (g : Generator) (o : Options) (asked : Nat → Bool) (startTime now : Moment) :
    Except Fault Recorder := do
  let r ← runFrom g o (formNameFor items o) asked 0 items (begin items g startTime)
  return r.finish now

/-! ## Several at once -/

/-- Takes in a completed item: one that found the run cancelled brings nothing. -/
def complete (g : Generator) (o : Options) (formName : Value) (skipped : Nat → Bool) (r : Recorder)
    (entry : Nat × Item) : Except Fault Recorder :=
  if skipped entry.1 then .ok r.cancel else step g o formName r entry.2

/-- The products in the order of the items. -/
def inItemOrder (items : List Item) (ps : List (String × Product)) : List (String × Product) :=
  items.filterMap fun i => ps.find? (·.1 == i.1)

/-- Runs a batch with several workers. `completed` lists the items with their numbers in the order
in which they complete; `skipped` tells which of them found the run cancelled. -/
def runParallel (items : List Item) (g : Generator) (o : Options) (workers : Int)
    (completed : List (Nat × Item)) (skipped : Nat → Bool) (startTime now : Moment) :
    Except Fault Recorder := do
  if !items.isEmpty && workers ≤ 0 then throw (.badValue .workers)
  let r ← completed.foldlM (complete g o (formNameFor items o) skipped) (begin items g startTime)
  let products := inItemOrder items r.result.products
  return { r with result := { r.result with products } }.finish now

/-- The items with their numbers, in their own order. -/
def numbered (items : List Item) : List (Nat × Item) := items.zipIdx.map fun p => (p.2, p.1)

theorem runFrom_nil (g : Generator) (o : Options) (formName : Value) (asked : Nat → Bool) (k : Nat)
    (r : Recorder) : runFrom g o formName asked k [] r = .ok r := rfl

theorem runFrom_of_asked {asked : Nat → Bool} {k : Nat} (h : asked k = true) (g : Generator) (o : Options)
    (formName : Value) (item : Item) (items : List Item) (r : Recorder) :
    runFrom g o formName asked k (item :: items) r = .ok r.cancel := by
  simp [runFrom, h]

end Formwright.Batch
