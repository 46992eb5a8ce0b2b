import Formwright.Value.Basic
import Formwright.Decimal.Binary64

/-
  Equality and order of values. Truth values, integers and doubles are one family of numbers and
  compare as exact numbers; the identity of nodes plays no part. Only values of one family have an
  order, and the order of lists is that of their first difference.
-/

namespace Formwright.Value

open Calendar Decimal

/-- A number as an exact integer or as a double. -/
inductive Numeric where
  | whole (n : Int)
  | double (x : Float)

def numeric? : Value → Option Numeric
  | bool b => some (.whole (if b then 1 else 0))
  | int n => some (.whole n)
  | float x => some (.double x)
  | _ => none

/-- The exact order of two numbers; none beside a double that is no number. -/
def Numeric.compare? : Numeric → Numeric → Option Ordering
  | .whole a, .whole b => some (compare a b)
  | .whole a, .double y => compareInt? a y
  | .double x, .whole b => (compareInt? b x).map Ordering.swap
  | .double x, .double y =>
    if x < y then some .lt else if x == y then some .eq else if y < x then some .gt else none

/-- Whether a value is a number equal to a given one. -/
def sameNumber (x : Numeric) (v : Value) : Bool :=
  match v.numeric? with
  | some y => x.compare? y == some .eq
  | none => false

/-- Equality of moments: with zones they are compared in universal time. -/
def sameMoment (a b : Moment) : Bool :=
  if a.zone.isSome != b.zone.isSome then false else a.universalMicros == b.universalMicros

mutual
/-- Equality of values without regard to the identity of nodes. -/
def same : Value → Value → Bool
  | null, w => match w with | null => true | _ => false
  | bool a, w => sameNumber (.whole (if a then 1 else 0)) w
  | int a, w => sameNumber (.whole a) w
  | float a, w => sameNumber (.double a) w
  | text a, w => match w with | text b => a == b | _ => false
  | bytes a, w => match w with | bytes b => a == b | _ => false
  | date _ a, w => match w with | date _ b => a == b | _ => false
  | moment _ a, w => match w with | moment _ b => sameMoment a b | _ => false
  | list _ xs, w => match w with | list _ ys => sameAll xs ys | _ => false
  | tuple _ xs, w => match w with | tuple _ ys => sameAll xs ys | _ => false
  | set _ xs, w => match w with | set _ ys => xs.length == ys.length && sameWithin xs ys | _ => false
  | map _ es, w => match w with | map _ fs => es.length == fs.length && sameEntries es fs | _ => false
termination_by structural v => v

/-- Equality of lists, item by item. -/
def sameAll : List Value → List Value → Bool
  | [], ys => ys.isEmpty
  | x :: xs, ys =>
    match ys with
    | [] => false
    | y :: ys => same x y && sameAll xs ys
termination_by structural xs => xs

/-- Every item has an equal one. -/
def sameWithin : List Value → List Value → Bool
  | [], _ => true
  | x :: xs, ys => ys.any (fun y => same x y) && sameWithin xs ys
termination_by structural xs => xs

/-- Every entry has one of equal key and equal value. -/
def sameEntries : List (Value × Value) → List (Value × Value) → Bool
  | [], _ => true
  | (k, v) :: es, fs => fs.any (fun f => same k f.1 && same v f.2) && sameEntries es fs
termination_by structural es => es
end

/-- Whether a value occurs among others. -/
def occursIn (v : Value) (vs : List Value) : Bool := vs.any (same v)

/-- The values without those that occur earlier. -/
def distinct (vs : List Value) : List Value :=
  vs.foldl (fun seen v => if v.occursIn seen then seen else seen ++ [v]) []

/-- The order of moments; a zoned and a local one have none. -/
def momentBefore (a b : Moment) : Except Fault Bool :=
  if a.zone.isSome != b.zone.isSome then .error (.misuse .zonedWithLocal)
  else .ok (a.universalMicros < b.universalMicros)

/-- The order of numbers beside any other value. -/
def numberLess (x : Numeric) (v w : Value) : Except Fault Bool :=
  match w.numeric? with
  | some y => .ok (x.compare? y == some .lt)
  | none => .error (.misuse (.incomparable v.kind w.kind))

mutual
/-- Whether one value comes before another. -/
def less : Value → Value → Except Fault Bool
  | bool a, w => numberLess (.whole (if a then 1 else 0)) (bool a) w
  | int a, w => numberLess (.whole a) (int a) w
  | float a, w => numberLess (.double a) (float a) w
  | v@(text a), w => match w with | text b => .ok (a < b) | _ => .error (.misuse (.incomparable v.kind w.kind))
  | v@(bytes a), w =>
    match w with
    | bytes b => .ok (a.map (·.toNat) < b.map (·.toNat))
    | _ => .error (.misuse (.incomparable v.kind w.kind))
  | v@(date _ a), w =>
    match w with
    | date _ b => .ok (a.before b)
    | moment .. => .error (.misuse .momentWithDate)
    | _ => .error (.misuse (.incomparable v.kind w.kind))
  | v@(moment _ a), w =>
    match w with
    | moment _ b => momentBefore a b
    | date .. => .error (.misuse .momentWithDate)
    | _ => .error (.misuse (.incomparable v.kind w.kind))
  | v@(list _ xs), w =>
    match w with
    | list _ ys => lessAll xs ys
    | _ => .error (.misuse (.incomparable v.kind w.kind))
  | v@(tuple _ xs), w =>
    match w with
    | tuple _ ys => lessAll xs ys
    | _ => .error (.misuse (.incomparable v.kind w.kind))
  | v@(set _ xs), w =>
    match w with
    | set _ ys => .ok (xs.all (fun x => ys.any (same x)) && xs.length < ys.length)
    | _ => .error (.misuse (.incomparable v.kind w.kind))
  | v, w => .error (.misuse (.incomparable v.kind w.kind))
termination_by structural v => v

/-- The order of lists: the first difference decides, and a list comes before its extensions. -/
def lessAll : List Value → List Value → Except Fault Bool
  | [], ys => .ok !ys.isEmpty
  | x :: xs, ys =>
    match ys with
    | [] => .ok false
    | y :: ys => if same x y then lessAll xs ys else less x y
termination_by structural xs => xs
end

/-- Whether each value can be compared with the one before it. -/
def checkOrder : List Value → Except Fault Unit
  | a :: b :: rest => do
    discard (b.less a)
    checkOrder (b :: rest)
  | _ => .ok ()

/-- Whether `b` does not come before `a`. -/
def notAfter (a b : Value) : Bool :=
  match b.less a with
  | .ok before => !before
  | .error _ => true

/-- Items in ascending order of a key, equal keys in their old order. -/
def sortOn {α : Type} (key : α → Value) (items : List α) : Except Fault (List α) := do
  checkOrder (items.map key)
  return items.mergeSort fun a b => notAfter (key a) (key b)

/-- Values in ascending order. -/
def sorted (vs : List Value) : Except Fault (List Value) := sortOn id vs

/-- The value of a key of a map. -/
def lookup (es : List (Value × Value)) (key : Value) : Option Value :=
  (es.find? fun e => same e.1 key).map (·.2)

/-- The entries with a key's value set: a new key goes to the end, an old one keeps its place. -/
def put (es : List (Value × Value)) (key v : Value) : List (Value × Value) :=
  if es.any fun e => same e.1 key then es.map fun e => if same e.1 key then (e.1, v) else e
  else es ++ [(key, v)]

theorem same_text (a b : String) : same (text a) (text b) = (a == b) := by
  simp [same]

theorem lookup_nil (key : Value) : lookup [] key = none := rfl

/-- Items whose keys are integers can always be sorted. -/
theorem checkOrder_int (ns : List Int) : checkOrder (ns.map int) = .ok () := by
  induction ns with
  | nil => rfl
  | cons a ns ih =>
    cases ns with
    | nil => rfl
    | cons b ns =>
      simp only [List.map_cons, checkOrder] at ih ⊢
      simp only [less, numberLess, numeric?]
      exact ih

theorem notAfter_int (a b : Int) : notAfter (int a) (int b) = decide (a ≤ b) := by
  have hless : (int b).less (int a) = .ok (some (compare b a) == some .lt) := by
    simp only [less, numberLess, numeric?, Numeric.compare?]
  have hlt : (some (compare b a) == some .lt) = decide (b < a) := by
    rw [Bool.eq_iff_iff, beq_iff_eq, Option.some.injEq, decide_eq_true_eq]
    exact Int.compare_eq_lt
  rw [notAfter, hless, hlt]
  show (!decide (b < a)) = decide (a ≤ b)
  rw [← decide_not, decide_eq_decide]
  omega

end Formwright.Value
