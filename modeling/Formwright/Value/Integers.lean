import Formwright.Fault
import Formwright.Value.Basic

/-
  Values whose integers can be written out: each has at most as many digits as an integer may have.
-/

namespace Formwright.Value

mutual
/-- Whether every integer in a value has at most as many digits as an integer may have. -/
def integersFit : Value → Bool
  | int n => n.natAbs.repr.length ≤ maxIntegerDigits
  | list _ vs | tuple _ vs | set _ vs => allIntegersFit vs
  | map _ es => entriesFit es
  | _ => true
termination_by structural v => v

def allIntegersFit : List Value → Bool
  | [] => true
  | v :: vs => integersFit v && allIntegersFit vs
termination_by structural vs => vs

def entriesFit : List (Value × Value) → Bool
  | [] => true
  | (k, v) :: es => integersFit k && integersFit v && entriesFit es
termination_by structural es => es
end

end Formwright.Value
