import Formwright.Text.Numeral

/-
  Numerals read back. The digits of a number in a name end where an underscore or the end of the text
  follows, so a number can be told from a name that holds it (`repr_append_inj`). An integer that was
  written is read as itself (`integer?_decimal`).
-/

namespace Formwright.Text

/-- Whether a text can follow a number in a name. -/
def EndsNumeral (s : String) : Prop := s = "" ∨ ∃ t, s = "_" ++ t

theorem takeWhile_repr_append {n : Nat} {s : String} (hs : EndsNumeral s) :
    (n.repr ++ s).toList.takeWhile (· != '_') = n.repr.toList := by
  have hdigits : ∀ c ∈ n.repr.toList, (c != '_') = true := by
    intro c hc
    rw [Nat.toList_repr] at hc
    rw [bne_iff_ne]
    rintro rfl
    exact Nat.underscore_not_in_toDigits hc
  rw [String.toList_append, List.takeWhile_append_of_pos hdigits]
  rcases hs with rfl | ⟨t, rfl⟩
  · simp
  · simp

/-- A number and what follows it in a name are known from the name. -/
theorem repr_append_inj {m n : Nat} {s t : String} (hs : EndsNumeral s) (ht : EndsNumeral t)
    (h : m.repr ++ s = n.repr ++ t) : m = n ∧ s = t := by
  have hlists := congrArg (fun u : String => u.toList.takeWhile (· != '_')) h
  have hdigits : Nat.toDigits 10 m = Nat.toDigits 10 n := by
    rw [← Nat.toList_repr, ← Nat.toList_repr, ← takeWhile_repr_append hs, ← takeWhile_repr_append ht]
    exact hlists
  have hnumber := congrArg (Nat.ofDigitChars 10 · 0) hdigits
  simp only [Nat.ofDigitChars_ten_toDigits] at hnumber
  subst hnumber
  exact ⟨rfl, (String.append_right_inj _).mp h⟩

theorem endsNumeral_empty : EndsNumeral "" := Or.inl rfl

theorem endsNumeral_underscore (t : String) : EndsNumeral ("_" ++ t) := Or.inr ⟨t, rfl⟩

/-- Numbers with one numeral are one number. -/
theorem eq_of_repr_eq {m n : Nat} (h : m.repr = n.repr) : m = n :=
  (repr_append_inj endsNumeral_empty endsNumeral_empty (by rw [h])).1

/-! ## Integers -/

/-- The number that decimal digits denote; none when anything else is among them. -/
def natural? (cs : List Char) : Option Nat :=
  if !cs.isEmpty && cs.all Char.isDigit then some (Nat.ofDigitChars 10 cs 0) else none

/-- The integer that a numeral denotes, with a minus in front of a negative one. -/
def integer? (s : String) : Option Int :=
  match s.toList with
  | '-' :: cs => (natural? cs).map fun n => -(n : Int)
  | cs => (natural? cs).map fun n => (n : Int)

theorem isDigit_of_mem_repr {n : Nat} : ∀ c ∈ n.repr.toList, c.isDigit = true := by
  intro c hc
  rw [Nat.toList_repr] at hc
  exact Nat.isDigit_of_mem_toDigits (by decide) (by decide) hc

theorem natural?_repr (n : Nat) : natural? n.repr.toList = some n := by
  have hall : n.repr.toList.all Char.isDigit = true := List.all_eq_true.mpr isDigit_of_mem_repr
  have hsome : (!n.repr.toList.isEmpty) = true := by simp
  rw [natural?, hall, hsome, Nat.toList_repr, Nat.ofDigitChars_ten_toDigits]
  rfl

theorem toList_decimal_negSucc (n : Nat) :
    (decimal (Int.negSucc n)).toList = '-' :: (n + 1).repr.toList := by
  rw [decimal, String.toList_append]
  rfl

theorem integer?_decimal (n : Int) : integer? (decimal n) = some n := by
  cases n with
  | ofNat n =>
    have hminus : ∀ cs, n.repr.toList ≠ '-' :: cs := by
      intro cs hcs
      have hdigit := isDigit_of_mem_repr (n := n) '-' (hcs ▸ List.mem_cons_self)
      cases hdigit
    rw [decimal, integer?]
    split
    · rename_i cs hcs
      exact absurd hcs (hminus cs)
    · rw [natural?_repr]
      rfl
  | negSucc n =>
    rw [integer?, toList_decimal_negSucc]
    show ((natural? (n + 1).repr.toList).map fun k => -(k : Int)) = _
    rw [natural?_repr]
    rfl

end Formwright.Text
