import Formwright.Proofs.Identifier
import Formwright.Proofs.Success

/-
  The shape of the names that are made. What is joined becomes an identifier behind a lead, and a suffix
  and a cut each keep it one (`isIdentifier_withLead`, `IsIdentifier.unreserve`, `IsIdentifier.take`), so
  table and column names are identifiers. A cut cannot bring a reserved word back, since a name with the
  suffix is too short to be cut and a cut name too long to be reserved (`lower_take_unreserve_not_mem`).
  What a variable name has behind its lead is joined words in lower case, and so it is its own variable
  name (`variableStem_variableStem`). `names_wellFormed` has all three.
-/

namespace Formwright.Identifier

/-! ## Identifiers -/

def isLetter (c : Char) : Bool := isSmallLetter c || ('A' ≤ c && c ≤ 'Z')

def StartsWithLetter (cs : List Char) : Prop := ∃ c ∈ cs.head?, isLetter c = true

theorem StartsWithLetter.append {cs : List Char} (h : StartsWithLetter cs) (ds : List Char) :
    StartsWithLetter (cs ++ ds) := by
  obtain ⟨c, hc, hletter⟩ := h
  refine ⟨c, ?_, hletter⟩
  rw [List.head?_append, Option.mem_def.mp hc]
  rfl

/-- A text that starts with a letter and goes on with letters, digits and single underscores. -/
structure IsIdentifier (cs : List Char) : Prop where
  head : StartsWithLetter cs
  chars : IsName cs
  single : SingleUnderscores cs

theorem isLetter_of_isWordChar {c : Char} (h : isWordChar c = true) (hdigit : isDigitChar c = false) :
    isLetter c = true := by
  have hword : isWordChar c = (isLetter c || isDigitChar c) := rfl
  rw [hword, hdigit, Bool.or_false] at h
  exact h

theorem IsIdentifier.ne_nil {cs : List Char} (h : IsIdentifier cs) : cs ≠ [] := by
  rintro rfl
  obtain ⟨c, hc, -⟩ := h.head
  cases hc

theorem IsIdentifier.take {cs : List Char} (h : IsIdentifier cs) {n : Nat} (hn : 0 < n) :
    IsIdentifier (cs.take n) := by
  obtain ⟨c, hc, hletter⟩ := h.head
  refine ⟨⟨c, ?_, hletter⟩, h.chars.take n, h.single.take n⟩
  obtain ⟨n, rfl⟩ := Nat.exists_eq_succ_of_ne_zero (Nat.ne_of_gt hn)
  cases cs with
  | nil => cases hc
  | cons d cs => exact hc

theorem IsIdentifier.append {cs ds : List Char} (hcs : IsIdentifier cs) (hds : IsName ds)
    (hsingle : SingleUnderscores (cs ++ ds)) : IsIdentifier (cs ++ ds) :=
  ⟨hcs.head.append ds, isName_append.mpr ⟨hcs.chars, hds⟩, hsingle⟩

/-- Joined words, behind a lead if they start with a digit. -/
theorem isIdentifier_withLead {lead : String} {cs : List Char} (hlead : IsIdentifier lead.toList)
    (hcs : IsJoined cs) (hne : cs ≠ []) : IsIdentifier (withLead lead cs) := by
  obtain ⟨c, cs, rfl⟩ := List.exists_cons_of_ne_nil hne
  have hword := hcs.head c rfl
  unfold withLead
  dsimp only
  split
  · refine hlead.append hcs.chars (hlead.single.append_of_head hcs.single fun d hd => ?_)
    exact ne_underscore_of_isWordChar (hcs.head d hd)
  · rename_i hdigit
    exact ⟨⟨c, rfl, isLetter_of_isWordChar hword (by simpa using hdigit)⟩, hcs.chars, hcs.single⟩

theorem getLast?_withLead (lead : String) {cs : List Char} (hne : cs ≠ []) :
    (withLead lead cs).getLast? = cs.getLast? := by
  obtain ⟨c, cs, rfl⟩ := List.exists_cons_of_ne_nil hne
  unfold withLead
  dsimp only
  split
  · exact List.getLast?_append_of_ne_nil _ (List.cons_ne_nil c cs)
  · rfl

/-! ## Table and column names -/

theorem IsIdentifier.orDefault {default : String} {cs : List Char}
    (hdefault : IsIdentifier default.toList) (hcs : cs = [] ∨ IsIdentifier cs) :
    IsIdentifier (orDefault default cs).toList := by
  unfold Identifier.orDefault
  split
  · exact hdefault
  · rename_i hne
    rw [String.toList_ofList]
    exact hcs.resolve_left fun hnil => hne (by rw [hnil]; rfl)

theorem length_orDefault_le {default : String} {cs : List Char} {n : Nat}
    (hdefault : default.length ≤ n) (hcs : cs.length ≤ n) : (orDefault default cs).length ≤ n := by
  unfold orDefault
  split
  · exact hdefault
  · rwa [String.length_ofList]

/-- The words of a name behind a lead: nothing, or an identifier that ends in a word character. -/
theorem withLead_joined_cases {lead : String} (hlead : IsIdentifier lead.toList) (name : String) :
    withLead lead (joined name) = [] ∨
      IsIdentifier (withLead lead (joined name)) ∧
        ∀ c ∈ (withLead lead (joined name)).getLast?, c ≠ '_' := by
  have hjoined := isJoined_joined name
  by_cases hne : joined name = []
  · rw [hne]
    exact Or.inl rfl
  · refine Or.inr ⟨isIdentifier_withLead hlead hjoined hne, fun c hc => ?_⟩
    rw [getLast?_withLead lead hne] at hc
    exact ne_underscore_of_isWordChar (hjoined.last c hc)

/-- A reserved word stays an identifier when it gets its suffix. -/
theorem IsIdentifier.unreserve {cs : List Char} (h : IsIdentifier cs)
    (hlast : ∀ c ∈ cs.getLast?, c ≠ '_') : IsIdentifier (unreserve cs) := by
  unfold Identifier.unreserve
  split
  · exact h.append (by decide) (h.single.append_of_last (by decide) hlast)
  · exact h

theorem isIdentifier_tableName (name : String) : IsIdentifier (tableName name).toList := by
  have hdefault : IsIdentifier "FormTable".toList :=
    ⟨⟨'F', rfl, rfl⟩, by decide, by decide⟩
  have hlead : IsIdentifier "Form_".toList :=
    ⟨⟨'F', rfl, rfl⟩, by decide, by decide⟩
  unfold tableName
  split
  · exact hdefault
  · refine hdefault.orDefault ?_
    rcases withLead_joined_cases hlead (Path.stem name) with hnil | ⟨hidentifier, -⟩
    · rw [hnil]
      exact Or.inl rfl
    · exact Or.inr (hidentifier.take (by decide))

theorem isIdentifier_columnName (name : String) : IsIdentifier (columnName name).toList := by
  have hdefault : IsIdentifier "Column".toList :=
    ⟨⟨'C', rfl, rfl⟩, by decide, by decide⟩
  have hlead : IsIdentifier "Col_".toList :=
    ⟨⟨'C', rfl, rfl⟩, by decide, by decide⟩
  unfold columnName
  split
  · exact hdefault
  · refine hdefault.orDefault ?_
    rcases withLead_joined_cases hlead name with hnil | ⟨hidentifier, hlast⟩
    · rw [hnil]
      exact Or.inl (by decide)
    · exact Or.inr ((hidentifier.unreserve hlast).take (by decide))

theorem length_tableName_le (name : String) : (tableName name).length ≤ maxTableName := by
  unfold tableName
  split
  · decide
  · exact length_orDefault_le (by decide) (List.length_take_le _ _)

theorem length_columnName_le (name : String) : (columnName name).length ≤ maxColumnName := by
  unfold columnName
  split
  · decide
  · exact length_orDefault_le (by decide) (List.length_take_le _ _)

theorem exists_of_tableNameOf {v : Value} {t : String} (h : tableNameOf v = .ok t) :
    ∃ name, t = tableName name := by
  unfold tableNameOf at h
  split at h
  · split at h
    · exact ⟨_, (Except.ok.inj h).symm⟩
    · cases h
  · exact ⟨"", (Except.ok.inj h).symm⟩

theorem exists_of_columnNameOf {v : Value} {n : String} (h : columnNameOf v = .ok n) :
    ∃ name, n = columnName name := by
  obtain ⟨name, -, rfl⟩ := map_eq_ok.mp h
  exact ⟨name, rfl⟩

theorem IsIdentifier.length_pos {s : String} (h : IsIdentifier s.toList) : 0 < s.length := by
  rw [← String.length_toList]
  exact List.length_pos_of_ne_nil h.ne_nil

/-! ## Reserved words -/

/-- On characters of names the lower case of ASCII is the lower case of comparison. -/
theorem toLower_of_isNameChar {c : Char} (h : isNameChar c = true) : c.toLower = Text.lowerChar c := by
  have hsmall : c.toNat < 128 := by
    simp only [isNameChar, isWordChar, Bool.or_eq_true, Bool.and_eq_true, decide_eq_true_eq,
      beq_iff_eq] at h
    rcases h with ((⟨-, hz⟩ | ⟨-, hz⟩) | ⟨-, hz⟩) | rfl
    · exact (UInt32.le_iff_toNat_le.mp hz).trans_lt (by decide)
    · exact (UInt32.le_iff_toNat_le.mp hz).trans_lt (by decide)
    · exact (UInt32.le_iff_toNat_le.mp hz).trans_lt (by decide)
    · decide
  have hall : ∀ k < 128, (Char.ofNat k).toLower = Text.lowerChar (Char.ofNat k) := by decide
  rw [← Char.ofNat_toNat c]
  exact hall c.toNat hsmall

theorem map_toLower_of_isName {s : String} (h : IsName s.toList) :
    s.toList.map Char.toLower = (Text.lower s).toList := by
  rw [Text.lower, String.toList_ofList]
  exact List.map_congr_left fun c hc => toLower_of_isNameChar (isName_iff.mp h c hc)

theorem lower_ofList_append (cs ds : List Char) :
    Text.lower (String.ofList (cs ++ ds)) =
      Text.lower (String.ofList cs) ++ Text.lower (String.ofList ds) := by
  rw [Text.lower, String.toList_ofList, List.map_append, String.ofList_append]
  simp only [Text.lower, String.toList_ofList]

/-- With its suffix a reserved word is no longer reserved, and is not so long that it is cut. -/
theorem lower_take_unreserve_not_mem (cs : List Char) :
    Text.lower (String.ofList ((unreserve cs).take maxColumnName)) ∉ reserved := by
  have hshort : ∀ r ∈ reserved, (r ++ "_field").length ≤ maxColumnName := by decide
  have hsuffix : ∀ r ∈ reserved, r ++ "_field" ∉ reserved := by decide
  unfold unreserve
  split
  · rename_i hreserved
    -- the suffix makes the word another one, and it is too short for the cut to take the suffix away
    have hmem : Text.lower (String.ofList cs) ∈ reserved := List.contains_iff_mem.mp hreserved
    have hlower : Text.lower (String.ofList (cs ++ "_Field".toList)) =
        Text.lower (String.ofList cs) ++ "_field" := lower_ofList_append cs _
    have hlength : (cs ++ "_Field".toList).length ≤ maxColumnName := by
      have hbound := hshort _ hmem
      rwa [← hlower, Text.length_lower, String.length_ofList] at hbound
    rw [List.take_of_length_le hlength, hlower]
    exact hsuffix _ hmem
  · rename_i hfree
    by_cases hlength : cs.length ≤ maxColumnName
    · rw [List.take_of_length_le hlength]
      exact fun hmem => hfree (List.contains_iff_mem.mpr hmem)
    · -- what is cut keeps the greatest length, which no reserved word has
      intro hmem
      have hbound := hshort _ hmem
      rw [String.length_append, Text.length_lower, String.length_ofList, List.length_take] at hbound
      have hsuffixLength : "_field".length = 6 := by decide
      omega

theorem lower_columnName_not_mem (name : String) : Text.lower (columnName name) ∉ reserved := by
  unfold columnName
  split
  · decide
  · unfold orDefault
    split
    · decide
    · exact lower_take_unreserve_not_mem _

/-- No column is named by a reserved word, in whichever letter case. -/
theorem columnName_not_reserved (name : String) :
    ∀ r ∈ reserved, (columnName name).toList.map Char.toLower ≠ r.toList := by
  intro r hr hsame
  rw [map_toLower_of_isName (isName_columnName name)] at hsame
  exact lower_columnName_not_mem name (String.toList_inj.mp hsame ▸ hr)

/-! ## Variable names -/

theorem lowerChar_of_isVariableChar {c : Char} (h : isVariableChar c = true) :
    Text.lowerChar c = c := by
  have hcapital : ¬ ('A' ≤ c ∧ c ≤ 'Z') := by
    rintro ⟨hlow, hhigh⟩
    have hle := UInt32.le_iff_toNat_le.mp hlow
    have hge := UInt32.le_iff_toNat_le.mp hhigh
    simp only [isVariableChar, isSmallLetter, isDigitChar, Bool.or_eq_true, Bool.and_eq_true,
      decide_eq_true_eq, beq_iff_eq] at h
    rcases h with (⟨hsmall, -⟩ | ⟨-, hdigit⟩) | rfl
    · exact absurd ((UInt32.le_iff_toNat_le.mp hsmall).trans hge) (by decide)
    · exact absurd (hle.trans (UInt32.le_iff_toNat_le.mp hdigit)) (by decide)
    · exact absurd hge (by decide)
  have hkelvin : c ≠ '\u212a' := by
    rintro rfl
    exact absurd h (by decide)
  rw [Text.lowerChar, if_neg hcapital, if_neg hkelvin]

theorem isWordChar_lowerChar {c : Char} (h : isWordChar c = true) :
    isWordChar (Text.lowerChar c) = true := by
  rw [isWordChar]
  rcases lowerChar_of_isWordChar h with hletter | hdigit
  · rw [isSmallLetter] at hletter
    rw [hletter]
    rfl
  · rw [isDigitChar] at hdigit
    rw [hdigit, Bool.or_true]

theorem IsWord.lower {w : List Char} (h : IsWord w) : IsWord (w.map Text.lowerChar) := by
  refine ⟨fun hnil => h.1 (List.map_eq_nil_iff.mp hnil), fun c hc => ?_⟩
  obtain ⟨d, hd, rfl⟩ := List.mem_map.mp hc
  exact isWordChar_lowerChar (h.2 d hd)

theorem map_intercalate (f : Char → Char) (hf : f '_' = '_') (ws : List (List Char)) :
    (['_'].intercalate ws).map f = ['_'].intercalate (ws.map (List.map f)) := by
  induction ws with
  | nil => rfl
  | cons w ws ih =>
    cases ws with
    | nil => simp only [List.map_cons, List.map_nil, List.intercalate_singleton]
    | cons v vs =>
      rw [List.map_cons] at ih
      rw [List.map_cons, List.map_cons, List.intercalate_cons_cons, List.intercalate_cons_cons,
        List.map_append, List.map_append, ih, List.map_singleton, hf]

/-- What a variable name has behind its lead is made of words too: those of the name in lower case, and
the word `field` before them if they start with a digit or there are none. -/
theorem exists_words_variableStem (name : String) :
    ∃ ws : List (List Char), (∀ w ∈ ws, IsWord w) ∧
      (variableStem name).toList = ['_'].intercalate ws := by
  have hfield : IsWord "field".toList := ⟨by decide, List.all_eq_true.mp (by decide)⟩
  have hlower : ∀ w ∈ (words name.toList).map (List.map Text.lowerChar), IsWord w := by
    intro w hw
    obtain ⟨v, hv, rfl⟩ := List.mem_map.mp hw
    exact (isWord_of_mem_words name.toList v hv).lower
  have hclean := map_intercalate Text.lowerChar (by decide) (words name.toList)
  unfold variableStem
  dsimp only
  cases hjoined : (joined name).map Text.lowerChar with
  | nil => exact ⟨["field".toList], List.forall_mem_singleton.mpr hfield, rfl⟩
  | cons c cs =>
    rw [joined, hclean] at hjoined
    dsimp only
    split
    · refine ⟨"field".toList :: (words name.toList).map (List.map Text.lowerChar),
        List.forall_mem_cons.mpr ⟨hfield, hlower⟩, ?_⟩
      cases hwords : (words name.toList).map (List.map Text.lowerChar) with
      | nil => rw [hwords] at hjoined; cases hjoined
      | cons w ws =>
        have hclean : (String.ofList (c :: cs)).toList = c :: cs := String.toList_ofList
        rw [List.intercalate_cons_cons, ← hwords, hjoined, String.toList_append, hclean]
        rfl
    · exact ⟨_, hlower, by rw [String.toList_ofList, hjoined]⟩

theorem isJoined_variableStem (name : String) : IsJoined (variableStem name).toList := by
  obtain ⟨ws, hws, hstem⟩ := exists_words_variableStem name
  rw [hstem]
  exact isJoined_intercalate hws

theorem joined_variableStem (name : String) :
    joined (variableStem name) = (variableStem name).toList := by
  obtain ⟨ws, hws, hstem⟩ := exists_words_variableStem name
  rw [joined, hstem, words_intercalate hws]

theorem IsVariableStem.isVariableChar {cs : List Char} (h : IsVariableStem cs) :
    ∀ c ∈ cs, isVariableChar c = true := by
  cases cs with
  | nil => exact h.elim
  | cons c cs =>
    refine List.forall_mem_cons.mpr ⟨?_, h.2⟩
    rw [Identifier.isVariableChar, h.1]
    rfl

theorem not_isDigitChar_of_isSmallLetter {c : Char} (h : isSmallLetter c = true) :
    ¬ isDigitChar c = true := by
  simp only [isSmallLetter, isDigitChar, Bool.and_eq_true, decide_eq_true_eq] at h ⊢
  rintro ⟨-, hnine⟩
  exact absurd ((UInt32.le_iff_toNat_le.mp h.1).trans (UInt32.le_iff_toNat_le.mp hnine)) (by decide)

/-- Nothing changes when a variable name is made of one. -/
theorem variableStem_variableStem (name : String) :
    variableStem (variableStem name) = variableStem name := by
  have hshape := isVariableStem_variableStem name
  have hlower : (variableStem name).toList.map Text.lowerChar = (variableStem name).toList :=
    (List.map_congr_left fun c hc => lowerChar_of_isVariableChar (hshape.isVariableChar c hc)).trans
      (List.map_id _)
  rw [variableStem, joined_variableStem, hlower]
  cases hstem : (variableStem name).toList with
  | nil => rw [hstem] at hshape; exact hshape.elim
  | cons c cs =>
    rw [hstem] at hshape
    dsimp only
    rw [if_neg (not_isDigitChar_of_isSmallLetter hshape.1), ← hstem, String.ofList_toList]

/-! ## All three -/

/-- A name that may be missing. -/
def nameValue : Option String → Value
  | none => .null
  | some s => .text s

theorem nameText_nameValue (name : Option String) :
    nameText (nameValue name) = .ok (name.getD "") := by
  cases name with
  | none => rfl
  | some s => exact nameText_text s

theorem tableNameOf_nameValue (name : Option String) :
    tableNameOf (nameValue name) = .ok (tableName (name.getD "")) := by
  cases name with
  | none => rfl
  | some s => exact tableNameOf_text s

/-- The three names for any name, given or not. Table and column names are identifiers within their
limits, and no column is named by a reserved word in whatever letter case. A variable name is its lead
and a stem that depends on the name alone, and making one of itself changes nothing. -/
theorem names_wellFormed (name : Option String) :
    (∃ t, tableNameOf (nameValue name) = .ok t ∧
      IsIdentifier t.toList ∧ 1 ≤ t.length ∧ t.length ≤ 64) ∧
    (∃ n, columnNameOf (nameValue name) = .ok n ∧
      IsIdentifier n.toList ∧ 1 ≤ n.length ∧ n.length ≤ 128 ∧
      ∀ r ∈ reserved, n.toList.map Char.toLower ≠ r.toList) ∧
    (∃ x, (∀ lead, variableNameOf (nameValue name) lead = .ok (lead ++ x)) ∧
      IsVariableStem x.toList ∧ SingleUnderscores x.toList ∧ x.toList.getLast? ≠ some '_') ∧
    (variableNameOf (nameValue name) "" >>= fun x => variableNameOf (.text x) "") =
      variableNameOf (nameValue name) "" := by
  have hvariable : ∀ lead, variableNameOf (nameValue name) lead =
      .ok (lead ++ variableStem (name.getD "")) := by
    intro lead
    rw [variableNameOf, nameText_nameValue]
    rfl
  refine ⟨⟨tableName (name.getD ""), tableNameOf_nameValue name, ?_⟩,
    ⟨columnName (name.getD ""), ?_, ?_⟩, ⟨variableStem (name.getD ""), hvariable, ?_⟩, ?_⟩
  · have hshape := isIdentifier_tableName (name.getD "")
    exact ⟨hshape, hshape.length_pos, length_tableName_le _⟩
  · rw [columnNameOf, nameText_nameValue]
    rfl
  · have hshape := isIdentifier_columnName (name.getD "")
    exact ⟨hshape, hshape.length_pos, length_columnName_le _, columnName_not_reserved _⟩
  · have hjoined := isJoined_variableStem (name.getD "")
    refine ⟨isVariableStem_variableStem _, hjoined.single, fun hlast => ?_⟩
    exact ne_underscore_of_isWordChar (hjoined.last _ hlast) rfl
  · have hagain : variableName (variableStem (name.getD "")) "" = variableStem (name.getD "") := by
      rw [variableName, variableStem_variableStem, String.empty_append]
    rw [hvariable, String.empty_append, ok_bind, variableNameOf, nameText_text]
    exact congrArg Except.ok hagain

end Formwright.Identifier
