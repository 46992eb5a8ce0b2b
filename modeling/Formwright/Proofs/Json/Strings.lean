import Formwright.Json.Reader
import Formwright.Json.Writer
import Formwright.Proofs.Success
import Mathlib.Data.Nat.Digits.Defs

/-
  JSON strings are read back. The hexadecimal digits of a code unit denote it (`codeUnit?_hex`). What is
  written for one character, be it the character itself, a short escape, a code unit or a surrogate
  pair, is read as that character in one step (`stringBody_stringChar`), and so a whole string is read
  as the text that it was written for, whatever follows it (`string_bodyChars`).
-/

namespace Formwright.Json

/-! ## Hexadecimal digits -/

theorem hexValue?_digitChar {d : Nat} (h : d < 16) : Text.hexValue? d.digitChar = some d := by
  have hall : ∀ k : Fin 16, Text.hexValue? k.val.digitChar = some k.val := by decide
  exact hall ⟨d, h⟩

theorem ofHex?_append_digitChar (cs : List Char) {d : Nat} (h : d < 16) :
    Text.ofHex? (cs ++ [d.digitChar]) = (Text.ofHex? cs).map (16 * · + d) := by
  unfold Text.ofHex?
  rw [List.mapM_append]
  cases cs.mapM Text.hexValue? with
  | none => rfl
  | some ds => simp [hexValue?_digitChar h, List.foldl_append]

theorem ofHex?_zero_cons (cs : List Char) : Text.ofHex? ('0' :: cs) = Text.ofHex? cs := by
  have hzero : Text.hexValue? '0' = some 0 := by decide
  unfold Text.ofHex?
  rw [List.mapM_cons, hzero]
  cases cs.mapM Text.hexValue? <;> rfl

theorem ofHex?_toDigits (n : Nat) : Text.ofHex? (Nat.toDigits 16 n) = some n := by
  induction n using Nat.strongRecOn with
  | _ n ih =>
    rw [Nat.toDigits_eq_if (by decide)]
    split
    · rename_i hn
      rw [← List.nil_append [n.digitChar], ofHex?_append_digitChar [] hn]
      simp [Text.ofHex?]
    · rename_i hn
      rw [ofHex?_append_digitChar _ (Nat.mod_lt n (by decide)), ih (n / 16) (by omega), Option.map_some]
      congr 1
      omega

/-- A code unit is read back from its four digits. -/
theorem codeUnit?_hex {n : Nat} (h : n < 0x10000) (rest : List Char) :
    codeUnit? ((Text.hex 4 n).toList ++ rest) = some (n, rest) := by
  have hle : (Nat.toDigits 16 n).length ≤ 4 := Nat.toDigits_length 16 n 4 (by decide) h
  have hdigits : Text.ofHex? (Text.hex 4 n).toList = some n := by
    rw [Text.hex, Text.padLeft, String.toList_ofList, String.toList_ofList]
    generalize 4 - (String.ofList (Nat.toDigits 16 n)).length = k
    induction k with
    | zero => exact ofHex?_toDigits n
    | succ k ih => rw [List.replicate_succ, List.cons_append, ofHex?_zero_cons, ih]
  have hlength : (Text.hex 4 n).toList.length = 4 := by
    rw [Text.hex, Text.padLeft, String.toList_ofList, String.toList_ofList, List.length_append,
      List.length_replicate, String.length_ofList]
    omega
  match hcs : (Text.hex 4 n).toList, hlength with
  | [a, b, c, d], _ =>
    rw [hcs] at hdigits
    show (Text.ofHex? [a, b, c, d]).map (·, rest) = _
    rw [hdigits]
    rfl

/-! ## Characters -/

theorem toNat_lt (c : Char) : c.toNat < 0x110000 := by
  rcases c.valid with h | h
  · exact Nat.lt_trans h (by decide)
  · exact h.2

/-- A character of the basic plane is no surrogate. -/
theorem unitChar_toNat {c : Char} (h : c.toNat < 0x10000) (rest : List Char) :
    unitChar c.toNat rest = (c, rest) := by
  have hvalid : c.toNat < 0xD800 ∨ 0xDFFF < c.toNat := by
    rcases c.valid with hlow | hhigh
    · exact Or.inl hlow
    · exact Or.inr hhigh.1
  have hhigh : isHighSurrogate c.toNat = false := by
    rw [isHighSurrogate, Bool.and_eq_false_iff, decide_eq_false_iff_not, decide_eq_false_iff_not]
    omega
  have hlow : isLowSurrogate c.toNat = false := by
    rw [isLowSurrogate, Bool.and_eq_false_iff, decide_eq_false_iff_not, decide_eq_false_iff_not]
    omega
  simp [unitChar, hhigh, hlow, Char.ofNat_toNat]

theorem toList_unitEscape (n : Nat) : (unitEscape n).toList = '\\' :: 'u' :: (Text.hex 4 n).toList := by
  rw [unitEscape, String.toList_append]
  rfl

/-- A surrogate pair stands for the character that it was made of. -/
theorem unitChar_pair {c : Char} (h : 0x10000 ≤ c.toNat) (rest : List Char) :
    unitChar (0xD800 + (c.toNat - 0x10000) / 0x400)
      ((unitEscape (0xDC00 + (c.toNat - 0x10000) % 0x400)).toList ++ rest) = (c, rest) := by
  have hc := toNat_lt c
  have hhigh : isHighSurrogate (0xD800 + (c.toNat - 0x10000) / 0x400) = true := by
    rw [isHighSurrogate, Bool.and_eq_true, decide_eq_true_eq, decide_eq_true_eq]
    omega
  have hlow : isLowSurrogate (0xDC00 + (c.toNat - 0x10000) % 0x400) = true := by
    rw [isLowSurrogate, Bool.and_eq_true, decide_eq_true_eq, decide_eq_true_eq]
    omega
  have hunit := codeUnit?_hex (n := 0xDC00 + (c.toNat - 0x10000) % 0x400) (by omega) rest
  have hsum : 0x10000 + (0xD800 + (c.toNat - 0x10000) / 0x400 - 0xD800) * 0x400 +
      (0xDC00 + (c.toNat - 0x10000) % 0x400 - 0xDC00) = c.toNat := by omega
  rw [toList_unitEscape, List.cons_append, List.cons_append, unitChar, hhigh, if_pos rfl]
  simp only [hunit, hlow, if_true, hsum, Char.ofNat_toNat]

/-- An escaped code unit is read as its character in one step. -/
theorem stringBody_unitEscape {n : Nat} (h : n < 0x10000) (fuel : Nat) (done cs : List Char) :
    stringBody (fuel + 1) done ((unitEscape n).toList ++ cs) =
      stringBody fuel ((unitChar n cs).1 :: done) (unitChar n cs).2 := by
  rw [toList_unitEscape, List.cons_append, List.cons_append, stringBody, codeUnit?_hex h]

/-- What is written for a character is read as the character in one step. -/
theorem stringBody_stringChar (c : Char) (fuel : Nat) (done cs : List Char) :
    stringBody (fuel + 1) done ((stringChar true c).toList ++ cs) = stringBody fuel (c :: done) cs := by
  unfold stringChar
  -- the short escapes
  iterate 7
    split
    · subst c
      rfl
  split
  · rename_i hlow
    have hunit : c.toNat < 0x10000 := by omega
    rw [stringBody_unitEscape hunit, unitChar_toNat hunit]
  split
  · unfold charEscape
    split
    · rename_i hunit
      rw [stringBody_unitEscape hunit, unitChar_toNat hunit]
    · rename_i hpair
      have hc := toNat_lt c
      dsimp only
      rw [String.toList_append, List.append_assoc, stringBody_unitEscape (by omega),
        unitChar_pair (by omega)]
  · rename_i hquote hback _ _ _ _ _ hlow _
    rw [String.toList_singleton, List.singleton_append, stringBody]
    · rw [if_neg hlow]
    · exact hquote
    · exact fun _ h _ => hback h
    · exact fun _ _ h _ => hback h

/-! ## Whole strings -/

/-- The characters that are written for some characters. -/
def bodyChars (cs : List Char) : List Char := cs.flatMap fun c => (stringChar true c).toList

theorem toList_stringText (s : String) :
    (stringText true s).toList = '"' :: (bodyChars s.toList ++ ['"']) := by
  have hquote : "\"".toList = ['"'] := rfl
  rw [stringText, String.toList_append, String.toList_append, String.toList_join, List.flatMap_map,
    hquote, bodyChars, List.append_assoc, List.singleton_append]

theorem length_le_bodyChars (cs : List Char) : cs.length ≤ (bodyChars cs).length := by
  induction cs with
  | nil => exact Nat.le_refl 0
  | cons c cs ih =>
    -- if nothing was written for a character, a closing quote would be read as the character
    have hchar : 0 < (stringChar true c).toList.length := by
      rw [List.length_pos_iff]
      intro hnil
      have hread := stringBody_stringChar c 0 [] ['"']
      rw [hnil] at hread
      cases hread
    rw [bodyChars, List.flatMap_cons, List.length_append, List.length_cons]
    have : (cs.flatMap fun c => (stringChar true c).toList).length = (bodyChars cs).length := rfl
    omega

/-- One step for each character and one for the closing quote. -/
theorem stringBody_bodyChars (cs : List Char) {fuel : Nat} (h : cs.length < fuel) (done rest : List Char) :
    stringBody fuel done (bodyChars cs ++ '"' :: rest) = .ok (done.reverse ++ cs, rest) := by
  induction cs generalizing fuel done with
  | nil =>
    obtain _ | fuel := fuel
    · cases h
    · rw [List.append_nil]
      rfl
  | cons c cs ih =>
    obtain _ | fuel := fuel
    · cases h
    · have hcons : bodyChars (c :: cs) ++ '"' :: rest =
          (stringChar true c).toList ++ (bodyChars cs ++ '"' :: rest) := by
        rw [bodyChars, List.flatMap_cons, List.append_assoc]
        rfl
      rw [hcons, stringBody_stringChar, ih (by simpa using h), List.reverse_cons, List.append_assoc,
        List.singleton_append]

/-- A string is read back behind its opening quote. -/
theorem string_bodyChars (s : String) {fuel : Nat} (h : s.length < fuel) (rest : List Char) :
    string fuel (bodyChars s.toList ++ '"' :: rest) = .ok (s, rest) := by
  rw [string, stringBody_bodyChars _ (by rwa [String.length_toList]), ok_bind, List.reverse_nil,
    List.nil_append]
  dsimp only
  rw [String.ofList_toList]
  rfl

end Formwright.Json
