import Formwright.Calendar.Moment
import Formwright.Fault

/-
  Values of documents. Analyses are loaded without a schema, so a field may hold any value, and a
  canonical form carries what it was given.

  Dates and collections bear the identity of the place they were read from: two occurrences with
  one identity other than 0 are one node of the document, which a printer may write once and then
  refer to. Identity 0 marks a value that was made and not read, which is shared with nothing.
-/

namespace Formwright

open Calendar

/-- A value of a document. Entries of a map keep their order and have distinct keys. -/
inductive Value where
  | null
  | bool (b : Bool)
  | int (n : Int)
  | float (x : Float)
  | text (s : String)
  | bytes (bs : List UInt8)
  | date (node : Nat) (d : Date)
  | moment (node : Nat) (m : Moment)
  | list (node : Nat) (items : List Value)
  | tuple (node : Nat) (items : List Value)
  | set (node : Nat) (items : List Value)
  | map (node : Nat) (entries : List (Value × Value))

namespace Value

instance : Inhabited Value := ⟨null⟩

instance : Coe String Value := ⟨text⟩

instance : Coe Bool Value := ⟨bool⟩

/-- A list made by the program. -/
def ofList (vs : List Value) : Value := .list 0 vs

/-- A list of texts made by the program. -/
def ofTexts (ss : List String) : Value := .list 0 (ss.map text)

/-- A map with text keys made by the program. -/
def record (fields : List (String × Value)) : Value := .map 0 (fields.map fun f => (.text f.1, f.2))

/-- A count. -/
def count (n : Nat) : Value := .int (Int.ofNat n)

def kind : Value → Kind
  | null => .null
  | bool _ => .bool
  | int _ => .int
  | float _ => .float
  | text _ => .text
  | bytes _ => .bytes
  | date .. => .date
  | moment .. => .moment
  | list .. => .list
  | tuple .. => .tuple
  | set .. => .set
  | map .. => .map

def isNull : Value → Bool
  | null => true
  | _ => false

/-- The identity of the node a value was read from; 0 when it has none. -/
def node : Value → Nat
  | date n _ | moment n _ | list n _ | tuple n _ | set n _ | map n _ => n
  | _ => 0

/-- Whether a value counts as given: absent, false, zero and empty values do not. -/
def isGiven : Value → Bool
  | null => false
  | bool b => b
  | int n => n != 0
  | float x => x != 0
  | text s => !s.isEmpty
  | bytes bs => !bs.isEmpty
  | date .. | moment .. => true
  | list _ vs | tuple _ vs | set _ vs => !vs.isEmpty
  | map _ es => !es.isEmpty

/-- The value if it is given, else a default. -/
def orElse (v : Value) (other : Value) : Value := if v.isGiven then v else other

@[simp] theorem orElse_of_isGiven {v other : Value} (h : v.isGiven = true) : v.orElse other = v := by
  simp [orElse, h]

@[simp] theorem orElse_of_not_isGiven {v other : Value} (h : v.isGiven = false) :
    v.orElse other = other := by
  simp [orElse, h]

@[simp] theorem isGiven_text (s : String) : (text s).isGiven = !s.isEmpty := rfl

mutual
/-- Whether a value can be a key: collections that can grow cannot. -/
def unhashable? : Value → Option Kind
  | list .. => some .list
  | set .. => some .set
  | map .. => some .map
  | tuple _ vs => unhashableIn? vs
  | _ => none
/-- The first kind among some values that cannot be part of a key. -/
def unhashableIn? : List Value → Option Kind
  | [] => none
  | v :: vs => (unhashable? v).or (unhashableIn? vs)
end

/-- The value, if it can be a key. -/
def asKey (v : Value) : Except Fault Value :=
  match v.unhashable? with
  | none => .ok v
  | some k => .error (.misuse (.unhashable k))

theorem asKey_text (s : String) : (text s).asKey = .ok (text s) := by
  simp [asKey, unhashable?]

end Value

end Formwright
