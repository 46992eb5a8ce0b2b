import Formwright.Proofs.Text.Numerals
import Formwright.Text.Blank
import Formwright.Text.Digit
import Mathlib.Data.List.Forall2
import Mathlib.Data.List.Induction
import Mathlib.Data.Nat.Digits.Defs

/-
  Digits of every script and the numbers they denote. The zeros of two scripts lie ten characters or
  more apart (`zeroDigits_apart`), so a character is a digit of one script at most and has one value
  (`digitValue?_eq_some_iff`). A row of digits denotes the number of their values, of whatever scripts
  they are (`denotes_iff`): the numeral of a number does (`denotes_repr`), and zeros in front change
  nothing (`Denotes.zeros`). No digit is blank (`IsDigitFor.not_isBlank`).
-/

namespace Formwright.Text

/-! ## Single digits -/

/-- A character that stands for the number `d` below ten: it comes `d` places behind the zero of its
script. -/
def IsDigitFor (c : Char) (d : Nat) : Prop := d < 10 ∧ ∃ z ∈ zeroDigits, c.toNat = z + d

/-- The ten digits of one script end before those of the next begin. -/
theorem zeroDigits_apart : ∀ a ∈ zeroDigits, ∀ b ∈ zeroDigits, a = b ∨ a + 9 < b ∨ b + 9 < a := by
  decide +kernel

theorem digitValue?_eq_some_iff {c : Char} {d : Nat} : digitValue? c = some d ↔ IsDigitFor c d := by
  constructor
  · intro h
    have hd := digitValue?_lt h
    obtain ⟨z, hz, rfl⟩ := Option.map_eq_some_iff.mp h
    have hrange := List.find?_some hz
    rw [Bool.and_eq_true, decide_eq_true_eq] at hrange
    exact ⟨hd, z, List.mem_of_find?_eq_some hz, (Nat.add_sub_cancel' hrange.1).symm⟩
  · rintro ⟨hd, z, hmem, hc⟩
    have hsome : (zeroDigits.find? fun a => a ≤ c.toNat && c.toNat ≤ a + 9).isSome = true := by
      rw [List.find?_isSome]
      refine ⟨z, hmem, ?_⟩
      rw [Bool.and_eq_true, decide_eq_true_eq, decide_eq_true_eq]
      omega
    obtain ⟨a, ha⟩ := Option.isSome_iff_exists.mp hsome
    have hrange := List.find?_some ha
    rw [Bool.and_eq_true, decide_eq_true_eq, decide_eq_true_eq] at hrange
    have hsame : a = z := by
      rcases zeroDigits_apart a (List.mem_of_find?_eq_some ha) z hmem with h | h | h
      · exact h
      · omega
      · omega
    rw [digitValue?, ha, Option.map_some, hsame, hc, Nat.add_sub_cancel_left]

theorem isDigit_iff {c : Char} : isDigit c = true ↔ ∃ d, IsDigitFor c d := by
  rw [isDigit, Option.isSome_iff_exists]
  exact exists_congr fun _ => digitValue?_eq_some_iff

theorem isDigitFor_of_isDigit {c : Char} (h : c.isDigit = true) : IsDigitFor c (c.toNat - 48) := by
  rw [Char.isDigit, Bool.and_eq_true, decide_eq_true_eq, decide_eq_true_eq] at h
  have hlow : 48 ≤ c.toNat := h.1
  have hhigh : c.toNat ≤ 57 := h.2
  exact ⟨by omega, 48, by decide, by omega⟩

theorem IsDigitFor.not_isBlank {c : Char} {d : Nat} (h : IsDigitFor c d) : isBlank c = false := by
  obtain ⟨hd, z, hz, hc⟩ := h
  have hlow : 48 ≤ z := (by decide : ∀ z ∈ zeroDigits, 48 ≤ z) z hz
  have hfar : ∀ n ∈ farBlanks, n < z ∨ z + 9 < n := by
    have hall : ∀ z ∈ zeroDigits, ∀ n ∈ farBlanks, n < z ∨ z + 9 < n := by decide +kernel
    exact hall z hz
  rw [Bool.eq_false_iff]
  intro hblank
  simp only [isBlank, Bool.or_eq_true, Bool.and_eq_true, decide_eq_true_eq, List.contains_eq_mem]
    at hblank
  rcases hblank with (hblank | hblank) | hblank
  · omega
  · omega
  · rcases hfar _ hblank with h | h
    · omega
    · omega

/-! ## Rows of digits -/

/-- Digits, at least one, of any scripts, that denote a number with the most significant first. -/
def Denotes (cs : List Char) (n : Nat) : Prop :=
  cs ≠ [] ∧ ∃ ds, List.Forall₂ IsDigitFor cs ds ∧ Nat.ofDigits 10 ds.reverse = n

theorem ofDigits_eq (ds : List Nat) : ofDigits ds = Nat.ofDigits 10 ds.reverse := by
  induction ds using List.reverseRecOn with
  | nil => rfl
  | append_singleton ds d ih =>
    rw [ofDigits_append_singleton, List.reverse_append, List.reverse_singleton,
      List.singleton_append, Nat.ofDigits_cons, ih, Nat.add_comm]

theorem forall₂_isDigitFor_iff {cs : List Char} {ds : List Nat} :
    List.Forall₂ IsDigitFor cs ds ↔
      (∀ c ∈ cs, isDigit c = true) ∧ cs.filterMap digitValue? = ds := by
  constructor
  · intro h
    induction h with
    | nil => exact ⟨List.forall_mem_nil _, rfl⟩
    | cons hd _ ih =>
      refine ⟨List.forall_mem_cons.mpr ⟨isDigit_iff.mpr ⟨_, hd⟩, ih.1⟩, ?_⟩
      rw [List.filterMap_cons_some (digitValue?_eq_some_iff.mpr hd), ih.2]
  · rintro ⟨hdigits, rfl⟩
    induction cs with
    | nil => exact .nil
    | cons c cs ih =>
      obtain ⟨hc, hcs⟩ := List.forall_mem_cons.mp hdigits
      obtain ⟨d, hd⟩ := isDigit_iff.mp hc
      rw [List.filterMap_cons_some (digitValue?_eq_some_iff.mpr hd)]
      exact .cons hd (ih hcs)

/-- What digits denote is what is read from them. -/
theorem denotes_iff {cs : List Char} {n : Nat} : Denotes cs n ↔
    cs ≠ [] ∧ (∀ c ∈ cs, isDigit c = true) ∧ ofDigits (cs.filterMap digitValue?) = n := by
  refine and_congr_right fun _ => ?_
  constructor
  · rintro ⟨ds, hds, rfl⟩
    obtain ⟨hdigits, rfl⟩ := forall₂_isDigitFor_iff.mp hds
    exact ⟨hdigits, ofDigits_eq _⟩
  · rintro ⟨hdigits, rfl⟩
    exact ⟨_, forall₂_isDigitFor_iff.mpr ⟨hdigits, rfl⟩, (ofDigits_eq _).symm⟩

/-- A zero in front does not change what digits denote. -/
theorem Denotes.zero_cons {cs : List Char} {n : Nat} (h : Denotes cs n) : Denotes ('0' :: cs) n := by
  obtain ⟨-, ds, hds, rfl⟩ := h
  have hzero : IsDigitFor '0' 0 := ⟨by decide, 48, by decide, rfl⟩
  exact ⟨List.cons_ne_nil _ _, 0 :: ds, .cons hzero hds, Nat.ofDigits_reverse_zero_cons ds⟩

theorem Denotes.zeros {cs : List Char} {n : Nat} (h : Denotes cs n) (k : Nat) :
    Denotes (List.replicate k '0' ++ cs) n := by
  induction k with
  | zero => exact h
  | succ k ih =>
    rw [List.replicate_succ, List.cons_append]
    exact ih.zero_cons

theorem denotes_repr (n : Nat) : Denotes n.repr.toList n := by
  refine ⟨by rw [Nat.toList_repr]; exact Nat.toDigits_ne_nil, n.repr.toList.map (·.toNat - 48), ?_, ?_⟩
  · rw [List.forall₂_map_right_iff, List.forall₂_same]
    exact fun c hc => isDigitFor_of_isDigit (isDigit_of_mem_repr c hc)
  · rw [← ofDigits_eq, ofDigits, List.foldl_map, Nat.toList_repr]
    exact Nat.ofDigitChars_ten_toDigits

end Formwright.Text
