import Formwright.Text.Blank
import Formwright.Text.Lower
import Mathlib.Data.List.TakeWhile

/-
  Texts without the blanks at their ends, and words compared without regard to case. What is left of
  a text is a part of it with blanks before and behind (`exists_stripChars`), that neither starts nor
  ends with a blank, and there is one such part only (`strips_iff`). A word that has no `k` is another
  one in lower case exactly when the letters A to Z say so (`map_lowerChar_iff`).
-/

namespace Formwright.Text

/-- Characters all of which are blank. -/
def Blanks (cs : List Char) : Prop := ∀ c ∈ cs, isBlank c = true

instance (cs : List Char) : Decidable (Blanks cs) :=
  decidable_of_iff (cs.all isBlank = true) List.all_eq_true

theorem dropWhile_of_blanks {before : List Char} (h : Blanks before) (cs : List Char) :
    (before ++ cs).dropWhile isBlank = cs.dropWhile isBlank :=
  List.dropWhile_append_of_pos h

theorem dropWhile_of_head {c : Char} (h : isBlank c = false) (cs : List Char) :
    (c :: cs).dropWhile isBlank = c :: cs := by
  rw [List.dropWhile_cons, h]
  rfl

/-- Blanks before and behind a part that has none at its ends are removed, and nothing else. -/
theorem stripChars_append {before word behind : List Char} (hbefore : Blanks before)
    (hbehind : Blanks behind) (hhead : ∀ c ∈ word.head?, isBlank c = false)
    (hlast : ∀ c ∈ word.getLast?, isBlank c = false) :
    stripChars (before ++ word ++ behind) = word := by
  have hreverse : Blanks behind.reverse := fun c hc => hbehind c (List.mem_reverse.mp hc)
  unfold stripChars
  rw [List.append_assoc, dropWhile_of_blanks hbefore]
  cases word with
  | nil =>
    have hnone : behind.dropWhile isBlank = [] := List.dropWhile_eq_nil_iff.mpr hbehind
    rw [List.nil_append, hnone]
    rfl
  | cons c cs =>
    rw [List.cons_append, dropWhile_of_head (hhead c rfl), ← List.cons_append, List.reverse_append,
      dropWhile_of_blanks hreverse]
    obtain ⟨d, ds, hd⟩ := List.exists_cons_of_ne_nil (l := (c :: cs).reverse) (by simp)
    have hword : c :: cs = ds.reverse ++ [d] := by rw [← List.reverse_cons, ← hd, List.reverse_reverse]
    have hend : (c :: cs).getLast? = some d := by rw [hword, List.getLast?_concat]
    rw [hd, dropWhile_of_head (hlast d hend), ← hd, List.reverse_reverse]

/-- What is removed is blank. -/
theorem exists_stripChars (cs : List Char) : ∃ before behind, Blanks before ∧ Blanks behind ∧
    cs = before ++ stripChars cs ++ behind := by
  refine ⟨cs.takeWhile isBlank, ((cs.dropWhile isBlank).reverse.takeWhile isBlank).reverse,
    fun c hc => List.mem_takeWhile_imp hc, fun c hc => List.mem_takeWhile_imp (List.mem_reverse.mp hc), ?_⟩
  have hbehind : stripChars cs ++ ((cs.dropWhile isBlank).reverse.takeWhile isBlank).reverse =
      cs.dropWhile isBlank := by
    rw [stripChars, ← List.reverse_append, List.takeWhile_append_dropWhile, List.reverse_reverse]
  rw [List.append_assoc, hbehind, List.takeWhile_append_dropWhile]

/-- A text that is `word` between blanks, where the word itself has no blank at its ends. -/
structure Strips (cs word : List Char) : Prop where
  around : ∃ before behind, Blanks before ∧ Blanks behind ∧ cs = before ++ word ++ behind
  head : ∀ c ∈ word.head?, isBlank c = false
  last : ∀ c ∈ word.getLast?, isBlank c = false

theorem head?_stripChars {cs : List Char} {c : Char} (h : c ∈ (stripChars cs).head?) :
    isBlank c = false := by
  obtain ⟨behind, hbehind⟩ : stripChars cs <+: cs.dropWhile isBlank := by
    rw [stripChars, ← List.reverse_suffix, List.reverse_reverse]
    exact List.dropWhile_suffix isBlank
  have hhead : (cs.dropWhile isBlank).head? = some c := by
    rw [← hbehind, List.head?_append, Option.mem_def.mp h]
    rfl
  exact head_dropWhile_isBlank hhead

theorem getLast?_stripChars {cs : List Char} {c : Char} (h : c ∈ (stripChars cs).getLast?) :
    isBlank c = false := by
  rw [stripChars, List.getLast?_reverse] at h
  exact head_dropWhile_isBlank h

/-- A text strips to exactly one word. -/
theorem strips_iff {cs word : List Char} : Strips cs word ↔ stripChars cs = word := by
  constructor
  · rintro ⟨⟨before, behind, hbefore, hbehind, rfl⟩, hhead, hlast⟩
    exact stripChars_append hbefore hbehind hhead hlast
  · rintro rfl
    exact ⟨exists_stripChars cs, fun c => head?_stripChars, fun c => getLast?_stripChars⟩

/-! ## Lower case -/

/-- No blank is a letter. -/
theorem toLower_of_isBlank {c : Char} (h : isBlank c = true) : c.toLower = c := by
  have hc : ¬(c.val ≥ 'A'.val ∧ c.val ≤ 'Z'.val) := by
    rintro ⟨hlow, hhigh⟩
    have hlow : 65 ≤ c.toNat := hlow
    have hhigh : c.toNat ≤ 90 := hhigh
    have hfar : ∀ n ∈ farBlanks, 90 < n := by decide
    simp only [isBlank, Bool.or_eq_true, Bool.and_eq_true, decide_eq_true_eq,
      List.contains_eq_mem] at h
    rcases h with (h | h) | h
    · omega
    · omega
    · exact Nat.not_lt.mpr hhigh (hfar _ h)
  exact dif_neg hc

theorem lowerChar_of_capital {n : Nat} (hlow : 65 ≤ n) (hhigh : n ≤ 90) :
    lowerChar (Char.ofNat n) = (Char.ofNat n).toLower := by
  have hall : ∀ k : Fin 26, lowerChar (Char.ofNat (65 + k)) = (Char.ofNat (65 + k)).toLower := by decide
  have hn := hall ⟨n - 65, by omega⟩
  rwa [Nat.add_sub_cancel' hlow] at hn

/-- The Kelvin sign is the one character that the letters A to Z do not account for. -/
theorem lowerChar_eq_toLower {c : Char} (h : c ≠ '\u212a') : lowerChar c = c.toLower := by
  by_cases hc : 65 ≤ c.toNat ∧ c.toNat ≤ 90
  · have hcapital := lowerChar_of_capital hc.1 hc.2
    rwa [Char.ofNat_toNat] at hcapital
  · have hletter : ¬('A' ≤ c ∧ c ≤ 'Z') := hc
    have hstays : c.toLower = c := dif_neg hc
    unfold lowerChar
    rw [if_neg hletter, if_neg h, hstays]

theorem map_lowerChar_iff {cs word : List Char} (hk : 'k' ∉ word) (hsign : '\u212a' ∉ word) :
    cs.map lowerChar = word ↔ cs.map Char.toLower = word := by
  by_cases hcs : '\u212a' ∈ cs
  · -- the sign is lowered to a letter that the word lacks, or stays and is lacking itself
    constructor
    · rintro rfl
      exact absurd (List.mem_map.mpr ⟨_, hcs, by decide⟩) hk
    · rintro rfl
      exact absurd (List.mem_map.mpr ⟨_, hcs, by decide⟩) hsign
  · have hmap : cs.map lowerChar = cs.map Char.toLower :=
      List.map_congr_left fun c hc => lowerChar_eq_toLower fun h => hcs (h ▸ hc)
    rw [hmap]

end Formwright.Text
