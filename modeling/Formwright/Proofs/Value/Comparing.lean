import Formwright.Proofs.Success
import Formwright.Value.Compare

/-
  Comparisons that fail. Values of different kinds have no order, nor have times with and without a
  zone; to ask for one is a misuse wherever in the values it happens (`category_of_less`). So sorting
  fails with a misuse or not at all (`category_of_sorted`).
-/

namespace Formwright.Value

theorem category_of_numberLess {x : Numeric} {v w : Value} {e : Fault}
    (h : numberLess x v w = .error e) : e.category = .misuse := by
  unfold numberLess at h
  split at h
  · cases h
  · obtain rfl := Except.error.inj h
    rfl

theorem category_of_momentBefore {a b : Calendar.Moment} {e : Fault}
    (h : momentBefore a b = .error e) : e.category = .misuse := by
  unfold momentBefore at h
  split at h
  · obtain rfl := Except.error.inj h
    rfl
  · cases h

mutual
/-- Values that cannot be compared are misused. -/
theorem category_of_less (v w : Value) {e : Fault} (h : v.less w = .error e) :
    e.category = .misuse := by
  cases v with
  | bool | int | float => exact category_of_numberLess h
  | list _ xs =>
    rw [less.eq_def] at h
    dsimp only at h
    split at h
    · exact category_of_lessAll xs _ h
    · obtain rfl := Except.error.inj h
      rfl
  | tuple _ xs =>
    rw [less.eq_def] at h
    dsimp only at h
    split at h
    · exact category_of_lessAll xs _ h
    · obtain rfl := Except.error.inj h
      rfl
  | moment _ a =>
    rw [less.eq_def] at h
    dsimp only at h
    split at h
    · exact category_of_momentBefore h
    · obtain rfl := Except.error.inj h
      rfl
    · obtain rfl := Except.error.inj h
      rfl
  | text | bytes | date | set =>
    rw [less.eq_def] at h
    dsimp only at h
    split at h <;> cases h <;> rfl
  | null | map =>
    obtain rfl := Except.error.inj h
    rfl

theorem category_of_lessAll (xs ys : List Value) {e : Fault} (h : lessAll xs ys = .error e) :
    e.category = .misuse := by
  cases xs with
  | nil => cases h
  | cons x xs =>
    cases ys with
    | nil => cases h
    | cons y ys =>
      rw [lessAll.eq_def] at h
      dsimp only at h
      split at h
      · exact category_of_lessAll xs ys h
      · exact category_of_less x y h
end

theorem category_of_checkOrder {vs : List Value} {e : Fault} (h : checkOrder vs = .error e) :
    e.category = .misuse := by
  induction vs with
  | nil => cases h
  | cons a vs ih =>
    obtain _ | ⟨b, vs⟩ := vs
    · cases h
    · rcases bind_eq_error.mp h with hless | ⟨_, -, hrest⟩
      · exact category_of_less b a (map_eq_error.mp hless)
      · exact ih hrest

theorem category_of_sorted {vs : List Value} {e : Fault} (h : sorted vs = .error e) :
    e.category = .misuse := by
  rcases bind_eq_error.mp h with hcheck | ⟨_, -, hdone⟩
  · rw [List.map_id] at hcheck
    exact category_of_checkOrder hcheck
  · cases hdone

end Formwright.Value
