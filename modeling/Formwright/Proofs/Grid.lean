import Formwright.Grid
import Formwright.Proofs.Text.Blanks
import Formwright.Proofs.Text.Digits

/-
  What is read as a grid position. A position is spelt by digits that denote its row and the letter of its
  column (`Spells`). The digits end where the letter stands, since no letter is a digit, so there is one
  way to take a spelling apart (`shape?_eq_some_iff`), and what it spells is what is read from it
  (`spells_iff`). Whether a position is spelt at all does not depend on its length; a spelling with too
  many digits is refused (`parse_of_spells`) and every other text lies at the origin
  (`parse_of_not_spells`). `parseValue_spelt` has both, and numerals with zeros and blanks around them.
-/

namespace Formwright.Grid

/-! ## Letters of columns -/

/-- The letter of a column: `A` for column 0, `Z` for column 25. -/
def columnLetter (column : Nat) : Char := Char.ofNat ('A'.toNat + column)

theorem index_columnLetter : ∀ column < 26, (columnLetter column).toNat - 'A'.toNat = column := by
  decide

theorem isColumn_columnLetter : ∀ column < 26, isColumn (columnLetter column) = true := by decide

theorem isDigit_columnLetter : ∀ column < 26, Text.isDigit (columnLetter column) = false := by
  decide +kernel

theorem isBlank_columnLetter : ∀ column < 26, Text.isBlank (columnLetter column) = false := by decide

theorem isColumn_iff {c : Char} : isColumn c = true ↔ ∃ column < 26, c = columnLetter column := by
  constructor
  · intro h
    rw [isColumn, Bool.and_eq_true, decide_eq_true_eq, decide_eq_true_eq] at h
    have hlow : 65 ≤ c.toNat := h.1
    have hhigh : c.toNat ≤ 90 := h.2
    refine ⟨c.toNat - 65, by omega, ?_⟩
    show c = Char.ofNat (65 + (c.toNat - 65))
    rw [Nat.add_sub_cancel' hlow, Char.ofNat_toNat]
  · rintro ⟨column, hcolumn, rfl⟩
    exact isColumn_columnLetter column hcolumn

/-! ## Spellings -/

/-- What stands for a position: digits that denote the row, and behind them the letter of the column. -/
def Spells (cs : List Char) (position : Position) : Prop :=
  ∃ digits, Text.Denotes digits position.row ∧ position.column < 26 ∧
    cs = digits ++ [columnLetter position.column]

theorem shape?_eq_some_iff {cs digits : List Char} {c : Char} : shape? cs = some (digits, c) ↔
    digits ≠ [] ∧ (∀ d ∈ digits, Text.isDigit d = true) ∧ isColumn c = true ∧ cs = digits ++ [c] := by
  constructor
  · intro h
    have htake : cs.takeWhile Text.isDigit = cs.take (cs.takeWhile Text.isDigit).length :=
      List.prefix_iff_eq_take.mp (List.takeWhile_prefix Text.isDigit)
    unfold shape? at h
    dsimp only at h
    split at h
    · rename_i d ds letter hdigits hrest
      split at h
      · rename_i hcolumn
        obtain ⟨rfl, rfl⟩ := Prod.mk.inj (Option.some.inj h)
        refine ⟨hdigits ▸ List.cons_ne_nil d ds, fun x hx => List.mem_takeWhile_imp hx, hcolumn, ?_⟩
        calc cs = cs.take (cs.takeWhile Text.isDigit).length ++
              cs.drop (cs.takeWhile Text.isDigit).length := (List.take_append_drop _ cs).symm
          _ = cs.takeWhile Text.isDigit ++ [letter] := by rw [hrest, ← htake]
      · cases h
    · cases h
  · rintro ⟨hne, hdigits, hcolumn, rfl⟩
    obtain ⟨column, hlt, rfl⟩ := isColumn_iff.mp hcolumn
    have hend : ¬Text.isDigit (columnLetter column) = true :=
      Bool.eq_false_iff.mp (isDigit_columnLetter column hlt)
    have htake : (digits ++ [columnLetter column]).takeWhile Text.isDigit = digits := by
      rw [List.takeWhile_append_of_pos hdigits, List.takeWhile_cons_of_neg hend, List.append_nil]
    obtain ⟨d, ds, rfl⟩ := List.exists_cons_of_ne_nil hne
    unfold shape?
    dsimp only
    rw [htake, List.drop_left]
    dsimp only
    rw [if_pos hcolumn]

/-- What a text spells is what is read from its digits and its letter. -/
theorem spells_iff {cs : List Char} {position : Position} : Spells cs position ↔
    ∃ digits c, shape? cs = some (digits, c) ∧ position = ⟨rowNumber digits, c.toNat - 'A'.toNat⟩ := by
  constructor
  · rintro ⟨digits, hdenotes, hcolumn, rfl⟩
    obtain ⟨hne, hdigits, hrow⟩ := Text.denotes_iff.mp hdenotes
    have hletter := isColumn_columnLetter _ hcolumn
    refine ⟨digits, columnLetter position.column,
      shape?_eq_some_iff.mpr ⟨hne, hdigits, hletter, rfl⟩, ?_⟩
    rw [index_columnLetter _ hcolumn, rowNumber, hrow]
  · rintro ⟨digits, c, hshape, rfl⟩
    obtain ⟨hne, hdigits, hletter, rfl⟩ := shape?_eq_some_iff.mp hshape
    obtain ⟨column, hcolumn, rfl⟩ := isColumn_iff.mp hletter
    rw [index_columnLetter column hcolumn]
    exact ⟨digits, Text.denotes_iff.mpr ⟨hne, hdigits, rfl⟩, hcolumn, rfl⟩

/-- A spelling has no blank at its ends, and so any blanks around it can be told from it. -/
theorem Spells.strips {cs before behind : List Char} {position : Position} (h : Spells cs position)
    (hbefore : Text.Blanks before) (hbehind : Text.Blanks behind) :
    Text.Strips (before ++ cs ++ behind) cs := by
  obtain ⟨digits, ⟨hne, ds, hds, -⟩, hcolumn, rfl⟩ := h
  refine ⟨⟨before, behind, hbefore, hbehind, rfl⟩, fun c hc => ?_, fun c hc => ?_⟩
  · cases hds with
    | nil => exact absurd rfl hne
    | cons hd _ =>
      obtain rfl := Option.some.inj hc
      exact hd.not_isBlank
  · rw [List.getLast?_concat] at hc
    obtain rfl := Option.some.inj hc
    exact isBlank_columnLetter _ hcolumn

/-! ## Reading -/

section
variable {s : String} {word : List Char} {position : Position}

/-- A spelling with more digits than an integer may have is refused, every other one is read. -/
theorem parse_of_spells (hs : Text.Strips s.toList word) (h : Spells word position) :
    parse s = if maxIntegerDigits + 1 < word.length
      then .error (.badValue (.integerTooLong (word.length - 1))) else .ok position := by
  obtain ⟨digits, c, hshape, rfl⟩ := spells_iff.mp h
  obtain ⟨-, -, -, rfl⟩ := shape?_eq_some_iff.mp hshape
  unfold parse
  rw [Text.strips_iff.mp hs, hshape, List.length_append, List.length_singleton, Nat.add_sub_cancel]
  simp only [Nat.add_lt_add_iff_right]

theorem parse_of_not_spells (hs : Text.Strips s.toList word)
    (h : ¬∃ position, Spells word position) : parse s = .ok .origin := by
  unfold parse
  rw [Text.strips_iff.mp hs]
  cases hshape : shape? word with
  | none => rfl
  | some shape => exact absurd ⟨_, spells_iff.mpr ⟨shape.1, shape.2, hshape, rfl⟩⟩ h

end

/-- The empty text spells nothing, so it needs no case of its own. -/
theorem parseValue_text_eq_parse (s : String) : parseValue (.text s) = parse s := by
  rw [parseValue_text]
  split
  · rename_i h
    rw [String.isEmpty_iff.mp h]
    rfl
  · rfl

/-- A text that spells a position between blanks, its row in 4300 digits at most, is read as that
position, and a text that spells none lies at the origin. In particular a number, with zeros in front of
it and blanks around, is read as the row that it is. -/
theorem parseValue_spelt :
    (∀ (s : String) (word : List Char), Text.Strips s.toList word → word.length ≤ 4301 →
      (∀ position, Spells word position → parseValue (.text s) = .ok position) ∧
      ((¬∃ position, Spells word position) → parseValue (.text s) = .ok ⟨0, 0⟩)) ∧
    ∀ (before behind : String) (zeros n column : Nat), Text.Blanks before.toList →
      Text.Blanks behind.toList → column < 26 → zeros + n.repr.length ≤ 4300 →
      parseValue (.text (before ++ String.ofList (List.replicate zeros '0') ++ n.repr ++
        String.singleton (columnLetter column) ++ behind)) = .ok ⟨n, column⟩ := by
  refine ⟨fun s word hs hlength => ⟨fun position hspells => ?_, fun hnone => ?_⟩, ?_⟩
  · have hfew : ¬maxIntegerDigits + 1 < word.length := Nat.not_lt.mpr hlength
    rw [parseValue_text_eq_parse, parse_of_spells hs hspells, if_neg hfew]
  · rw [parseValue_text_eq_parse, parse_of_not_spells hs hnone]
    rfl
  · intro before behind zeros n column hbefore hbehind hcolumn hdigits
    have hspells : Spells (List.replicate zeros '0' ++ n.repr.toList ++ [columnLetter column])
        ⟨n, column⟩ := ⟨_, (Text.denotes_repr n).zeros zeros, hcolumn, rfl⟩
    have hstrips := hspells.strips hbefore hbehind
    have hfew : ¬maxIntegerDigits + 1 <
        (List.replicate zeros '0' ++ n.repr.toList ++ [columnLetter column]).length := by
      rw [List.length_append, List.length_append, List.length_replicate, String.length_toList,
        List.length_singleton]
      exact Nat.not_lt.mpr (Nat.succ_le_succ hdigits)
    rw [parseValue_text_eq_parse, parse_of_spells (by simpa using hstrips) hspells, if_neg hfew]

/-- Digits of two scripts between blanks, a letter too many, and a number behind zeros. -/
theorem parseValue_spelt_scripts :
    Text.Strips "\u00a00\u0662C\n".toList "0\u0662C".toList ∧ Spells "0\u0662C".toList ⟨2, 2⟩ ∧
    parseValue (.text "\u00a00\u0662C\n") = .ok ⟨2, 2⟩ ∧
    Text.Strips "12AB".toList "12AB".toList ∧ (¬∃ position, Spells "12AB".toList position) ∧
    parseValue (.text "12AB") = .ok ⟨0, 0⟩ ∧
    parseValue (.text ("\t" ++ String.ofList (List.replicate 2 '0') ++ (27 : Nat).repr ++
      String.singleton (columnLetter 25) ++ "\u3000")) = .ok ⟨27, 25⟩ := by
  have hstrips : Text.Strips "\u00a00\u0662C\n".toList "0\u0662C".toList :=
    Text.strips_iff.mpr (by decide +kernel)
  have hspells : Spells "0\u0662C".toList ⟨2, 2⟩ :=
    spells_iff.mpr ⟨"0\u0662".toList, 'C', by decide +kernel, by decide +kernel⟩
  have hbare : Text.Strips "12AB".toList "12AB".toList := Text.strips_iff.mpr (by decide +kernel)
  have hnone : ¬∃ position, Spells "12AB".toList position := by
    have hshape : shape? "12AB".toList = none := by decide +kernel
    rintro ⟨position, h⟩
    obtain ⟨digits, c, h, -⟩ := spells_iff.mp h
    rw [hshape] at h
    cases h
  refine ⟨hstrips, hspells, (parseValue_spelt.1 _ _ hstrips (by decide)).1 _ hspells, hbare, hnone,
    (parseValue_spelt.1 _ _ hbare (by decide)).2 hnone, ?_⟩
  exact parseValue_spelt.2 "\t" "\u3000" 2 27 25 (by decide) (by decide) (by decide) (by decide)

end Formwright.Grid
