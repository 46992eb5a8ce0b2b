import Formwright.Json.Reader
import Formwright.Proofs.Text.Numerals

/-
  JSON integers are read back. A numeral starts with a zero only if it is the numeral of zero
  (`head?_toDigits_ne_zero`), and it ends where something follows that is no digit, point or exponent
  (`Ends`); so an integer of not too many digits is read as itself (`number_decimal`).
-/

namespace Formwright.Json

/-- What may follow a value inside of a text: nothing, or the end of an item or of a collection. -/
def Ends (rest : List Char) : Prop := ∀ c ∈ rest.head?, c = ',' ∨ c = ']' ∨ c = '\x7d'

theorem ends_nil : Ends [] := fun _ h => nomatch h

theorem head?_toDigits_ne_zero {n : Nat} (h : 0 < n) : (Nat.toDigits 10 n).head? ≠ some '0' := by
  induction n using Nat.strongRecOn with
  | _ n ih =>
    rw [Nat.toDigits_eq_if (by decide)]
    split
    · rename_i hn
      have hall : ∀ k : Fin 10, 0 < k.val → k.val.digitChar ≠ '0' := by decide
      intro heq
      exact hall ⟨n, hn⟩ h (Option.some.inj heq)
    · rename_i hn
      rw [List.head?_append, Option.or_of_isSome (by simp [Nat.toDigits_ne_nil])]
      exact ih (n / 10) (by omega) (by omega)

theorem digitsValue_toDigits (n : Nat) : digitsValue (Nat.toDigits 10 n) = n := by
  rw [digitsValue, Text.ofDigits, List.foldl_map]
  exact Nat.ofDigitChars_ten_toDigits

/-- Digits end where something follows that ends a value. -/
theorem takeWhile_digits {cs rest : List Char} (hcs : ∀ c ∈ cs, Text.isAsciiDigit c = true)
    (hrest : Ends rest) : (cs ++ rest).takeWhile Text.isAsciiDigit = cs := by
  rw [List.takeWhile_append_of_pos hcs]
  cases rest with
  | nil => exact List.append_nil cs
  | cons c rest =>
    have hc : ¬ Text.isAsciiDigit c = true := by
      rcases hrest c rfl with rfl | rfl | rfl <;> decide
    rw [List.takeWhile_cons_of_neg hc, List.append_nil]

theorem fraction_of_ends {rest : List Char} (h : Ends rest) : fraction rest = ([], rest) := by
  unfold fraction
  split
  · rcases h '.' rfl with h | h | h <;> cases h
  · rfl

theorem exponent?_of_ends {rest : List Char} (h : Ends rest) : exponent? rest = none := by
  cases rest with
  | nil => rfl
  | cons c rest =>
    rcases h c rfl with rfl | rfl | rfl <;> rfl

/-- The numeral of a natural number, perhaps behind a minus, is read as its number. -/
theorem number_toDigits (n : Nat) (hn : (Nat.toDigits 10 n).length ≤ maxIntegerDigits)
    {rest : List Char} (hrest : Ends rest) :
    number (Nat.toDigits 10 n ++ rest) = .ok (.int n, rest) ∧
      number ('-' :: (Nat.toDigits 10 n ++ rest)) = .ok (.int (-n), rest) := by
  have hdigits : ∀ c ∈ Nat.toDigits 10 n, Text.isAsciiDigit c = true := fun c hc =>
    Nat.isDigit_of_mem_toDigits (by decide) (by decide) hc
  have hvalue := digitsValue_toDigits n
  have hwhole := takeWhile_digits hdigits hrest
  have hfraction := fraction_of_ends hrest
  have hexponent := exponent?_of_ends hrest
  obtain rfl | hpos := Nat.eq_zero_or_pos n
  · have hzero : digitsValue ['0'] = 0 := rfl
    have hone : ¬ maxIntegerDigits = 0 := by decide
    constructor
    · simp [number, hfraction, hexponent, hzero, hone]
    · simp [number, hfraction, hexponent, hzero, hone]
  · have hzero := head?_toDigits_ne_zero hpos
    cases hcs : Nat.toDigits 10 n with
    | nil => exact absurd hcs Nat.toDigits_ne_nil
    | cons c cs =>
      rw [hcs] at hdigits hvalue hwhole hzero hn
      have hminus : c ≠ '-' := by
        rintro rfl
        exact absurd (hdigits _ List.mem_cons_self) (by decide)
      have hlead : c ≠ '0' := fun h => hzero (congrArg some h)
      rw [List.cons_append] at hwhole ⊢
      have hfew : (maxIntegerDigits < cs.length + 1) = False := eq_false (Nat.not_lt.mpr hn)
      constructor
      · simp [number, hminus, hlead, hwhole, hfraction, hexponent, hvalue, hfew]
      · simp [number, hlead, hwhole, hfraction, hexponent, hvalue, hfew]

/-- An integer is read back. -/
theorem number_decimal {n : Int} (hn : n.natAbs.repr.length ≤ maxIntegerDigits) {rest : List Char}
    (hrest : Ends rest) : number ((Text.decimal n).toList ++ rest) = .ok (.int n, rest) := by
  rw [← String.length_toList, Nat.toList_repr] at hn
  cases n with
  | ofNat n =>
    rw [Text.decimal, Nat.toList_repr]
    exact (number_toDigits n hn hrest).1
  | negSucc n =>
    rw [Text.toList_decimal_negSucc, Nat.toList_repr]
    exact (number_toDigits (n + 1) hn hrest).2

/-- What is written for an integer starts with a digit or with a minus in front of a digit. -/
theorem toList_decimal (n : Int) : ∃ c cs, c.isDigit = true ∧
    ((Text.decimal n).toList = c :: cs ∨ (Text.decimal n).toList = '-' :: c :: cs) := by
  have hrepr : ∀ n : Nat, ∃ c cs, c.isDigit = true ∧ n.repr.toList = c :: cs := by
    intro n
    cases hcs : n.repr.toList with
    | nil => exact absurd hcs (by rw [Nat.toList_repr]; exact Nat.toDigits_ne_nil)
    | cons c cs => exact ⟨c, cs, Text.isDigit_of_mem_repr c (hcs ▸ List.mem_cons_self), rfl⟩
  cases n with
  | ofNat n =>
    obtain ⟨c, cs, hc, hcs⟩ := hrepr n
    exact ⟨c, cs, hc, Or.inl hcs⟩
  | negSucc n =>
    obtain ⟨c, cs, hc, hcs⟩ := hrepr (n + 1)
    exact ⟨c, cs, hc, Or.inr (by rw [Text.toList_decimal_negSucc, hcs])⟩

end Formwright.Json
