import Formwright.Identifier
import Mathlib.Data.List.Chain

/-
  Identifiers and the names they are made of. Joining the words of a name gives word characters at both
  ends and single underscores between (`isJoined_joined`), and the words of what is joined are the words
  again (`words_intercalate`). So nothing stands in an identifier but ASCII letters, digits and
  underscores (`isName_tableName`, `isName_columnName`), and something does (`columnName_ne_empty`). A text
  of word characters that does not start with a digit and is not too long is its own table name
  (`tableName_of_isWord`). What a variable name has behind its lead starts with a small letter and goes on
  with small letters, digits and underscores (`isVariableStem_variableStem`).
-/

namespace Formwright

namespace Path

theorem pieces_of_not_mem {cs : List Char} (h : '/' ∉ cs) : pieces cs = [cs] := by
  induction cs with
  | nil => rfl
  | cons c cs ih =>
    rw [List.mem_cons, not_or] at h
    rw [pieces, ih h.2]
    exact if_neg (Ne.symm h.1)

/-- A text without slash and point is a name without suffix. -/
theorem stem_of_not_mem {s : String} (hslash : '/' ∉ s.toList) (hpoint : '.' ∉ s.toList) :
    stem s = s := by
  have hname : name s.toList = s.toList := by
    unfold name parts
    rw [pieces_of_not_mem hslash]
    by_cases hnil : s.toList = []
    · rw [hnil]
      rfl
    · have hone : s.toList ≠ ['.'] := by
        intro h
        rw [h] at hpoint
        exact hpoint List.mem_cons_self
      simp [hnil, hone]
  have hcontains : s.toList.contains '.' = false := by simpa using hpoint
  unfold stem split
  rw [hname, hcontains]
  simp

end Path

namespace Identifier

/-- Only a text can name a table, besides what is not given. -/
theorem eq_text_of_tableNameOf {v : Value} {t : String} (hgiven : v.isGiven = true)
    (h : tableNameOf v = .ok t) : ∃ s, v = .text s := by
  unfold tableNameOf at h
  rw [if_pos hgiven] at h
  split at h
  · exact ⟨_, rfl⟩
  · cases h

/-! ## Characters -/

/-- A character that may stand in an identifier. -/
def isNameChar (c : Char) : Bool := isWordChar c || c == '_'

/-- A text of characters that may stand in an identifier. -/
def IsName (cs : List Char) : Prop := cs.all isNameChar = true

instance (cs : List Char) : Decidable (IsName cs) := inferInstanceAs (Decidable (_ = true))

theorem isName_iff {cs : List Char} : IsName cs ↔ ∀ c ∈ cs, isNameChar c = true := List.all_eq_true

theorem isName_append {cs ds : List Char} : IsName (cs ++ ds) ↔ IsName cs ∧ IsName ds := by
  rw [IsName, List.all_append, Bool.and_eq_true]
  exact Iff.rfl

theorem IsName.take {cs : List Char} (h : IsName cs) (n : Nat) : IsName (cs.take n) :=
  isName_iff.mpr fun c hc => isName_iff.mp h c (List.mem_of_mem_take hc)

/-! ## Words -/

/-- A word: some characters, all of them word characters. -/
def IsWord (w : List Char) : Prop := w ≠ [] ∧ ∀ c ∈ w, isWordChar c = true

theorem isWord_singleton {c : Char} (h : isWordChar c = true) : IsWord [c] :=
  ⟨List.cons_ne_nil c [], List.forall_mem_singleton.mpr h⟩

theorem IsWord.cons {c : Char} {w : List Char} (h : isWordChar c = true) (hw : IsWord w) :
    IsWord (c :: w) :=
  ⟨List.cons_ne_nil c w, List.forall_mem_cons.mpr ⟨h, hw.2⟩⟩

/-- The words of a text are words. -/
theorem isWord_of_mem_words (cs : List Char) : ∀ w ∈ words cs, IsWord w := by
  fun_induction words cs with
  | case1 => exact fun w hw => absurd hw List.not_mem_nil
  | case2 c hc => exact List.forall_mem_singleton.mpr (isWord_singleton hc)
  | case3 c hc d ds hd hnone ih => exact List.forall_mem_singleton.mpr (isWord_singleton hc)
  | case4 c hc d ds hd v vs hwords ih =>
    rw [hwords, List.forall_mem_cons] at ih
    exact List.forall_mem_cons.mpr ⟨ih.1.cons hc, ih.2⟩
  | case5 c hc d ds hd ih => exact List.forall_mem_cons.mpr ⟨isWord_singleton hc, ih⟩
  | case6 c cs hc ih => exact ih

theorem words_cons_of_not {c : Char} (h : isWordChar c = false) (cs : List Char) :
    words (c :: cs) = words cs := by
  cases cs <;> simp [words, h]

/-- A run of word characters is one word. -/
theorem words_of_forall {c : Char} {cs : List Char} (h : ∀ d ∈ c :: cs, isWordChar d = true) :
    words (c :: cs) = [c :: cs] := by
  induction cs generalizing c with
  | nil => simp [words, h c List.mem_cons_self]
  | cons d ds ih =>
    have hrest := ih fun e he => h e (List.mem_cons_of_mem c he)
    have hc := h c List.mem_cons_self
    have hd := h d (List.mem_cons_of_mem c List.mem_cons_self)
    rw [words]
    simp only [hc, hd, hrest, if_true]

/-- An underscore ends a word. -/
theorem words_append {w : List Char} (hw : IsWord w) (cs : List Char) :
    words (w ++ '_' :: cs) = w :: words cs := by
  obtain ⟨hne, hchars⟩ := hw
  induction w with
  | nil => exact absurd rfl hne
  | cons c w ih =>
    obtain ⟨hc, hw⟩ := List.forall_mem_cons.mp hchars
    have hunderscore : isWordChar '_' = false := by decide
    have hskip := words_cons_of_not hunderscore cs
    cases w with
    | nil =>
      rw [List.singleton_append, words]
      simp only [hc, hunderscore, hskip, if_true, Bool.false_eq_true, if_false]
    | cons d ds =>
      have hd := hw d List.mem_cons_self
      have hrest := ih (List.cons_ne_nil d ds) hw
      rw [List.cons_append] at hrest
      rw [List.cons_append, List.cons_append, words]
      simp only [hc, hd, hrest, if_true]

/-- Words that are joined are found again. -/
theorem words_intercalate {ws : List (List Char)} (h : ∀ w ∈ ws, IsWord w) :
    words (['_'].intercalate ws) = ws := by
  induction ws with
  | nil => rfl
  | cons w ws ih =>
    obtain ⟨hw, hws⟩ := List.forall_mem_cons.mp h
    cases ws with
    | nil =>
      rw [List.intercalate_singleton]
      obtain ⟨c, cs, rfl⟩ := List.exists_cons_of_ne_nil hw.1
      exact words_of_forall hw.2
    | cons v vs =>
      rw [List.intercalate_cons_cons, List.append_assoc, List.singleton_append, words_append hw,
        ih hws]

/-! ## Joined words -/

/-- No two underscores in a row. -/
def SingleUnderscores (cs : List Char) : Prop := cs.IsChain fun a b => ¬ (a = '_' ∧ b = '_')

instance (cs : List Char) : Decidable (SingleUnderscores cs) :=
  inferInstanceAs (Decidable (cs.IsChain fun a b => ¬ (a = '_' ∧ b = '_')))

theorem SingleUnderscores.append_of_last {cs ds : List Char} (hcs : SingleUnderscores cs)
    (hds : SingleUnderscores ds) (hlast : ∀ c ∈ cs.getLast?, c ≠ '_') :
    SingleUnderscores (cs ++ ds) :=
  List.isChain_append.mpr ⟨hcs, hds, fun c hc _ _ hboth => hlast c hc hboth.1⟩

theorem SingleUnderscores.append_of_head {cs ds : List Char} (hcs : SingleUnderscores cs)
    (hds : SingleUnderscores ds) (hhead : ∀ d ∈ ds.head?, d ≠ '_') :
    SingleUnderscores (cs ++ ds) :=
  List.isChain_append.mpr ⟨hcs, hds, fun _ _ d hd hboth => hhead d hd hboth.2⟩

theorem singleUnderscores_of_not_mem {cs : List Char} (h : '_' ∉ cs) : SingleUnderscores cs := by
  refine List.Pairwise.isChain (List.pairwise_of_forall_mem_list fun a ha b _ hboth => ?_)
  exact h (hboth.1 ▸ ha)

/-- What words are when they are joined: nothing but characters of names, with word characters at both
ends and single underscores between. -/
structure IsJoined (cs : List Char) : Prop where
  chars : IsName cs
  single : SingleUnderscores cs
  head : ∀ c ∈ cs.head?, isWordChar c = true
  last : ∀ c ∈ cs.getLast?, isWordChar c = true

theorem ne_underscore_of_isWordChar {c : Char} (h : isWordChar c = true) : c ≠ '_' := by
  rintro rfl
  exact absurd h (by decide)

theorem IsWord.isJoined {w : List Char} (hw : IsWord w) : IsJoined w where
  chars := isName_iff.mpr fun c hc => by rw [isNameChar, hw.2 c hc]; rfl
  single := singleUnderscores_of_not_mem fun h => ne_underscore_of_isWordChar (hw.2 _ h) rfl
  head := fun c hc => hw.2 c (List.mem_of_mem_head? hc)
  last := fun c hc => hw.2 c (List.mem_of_getLast? hc)

/-- A word in front of joined words, with an underscore between. -/
theorem IsJoined.cons {w cs : List Char} (hw : IsWord w) (hcs : IsJoined cs) (hne : cs ≠ []) :
    IsJoined (w ++ ['_'] ++ cs) := by
  obtain ⟨c, w, rfl⟩ := List.exists_cons_of_ne_nil hw.1
  have hfirst := hw.isJoined
  have hchars : IsName (c :: w ++ ['_'] ++ cs) :=
    isName_append.mpr ⟨isName_append.mpr ⟨hfirst.chars, by decide⟩, hcs.chars⟩
  refine ⟨hchars, ?_, hfirst.head, ?_⟩
  · have hopen : SingleUnderscores (c :: w ++ ['_']) :=
      hfirst.single.append_of_last (List.isChain_singleton _)
        fun d hd => ne_underscore_of_isWordChar (hfirst.last d hd)
    exact hopen.append_of_head hcs.single fun d hd => ne_underscore_of_isWordChar (hcs.head d hd)
  · intro d hd
    rw [List.getLast?_append_of_ne_nil _ hne] at hd
    exact hcs.last d hd

theorem isJoined_intercalate {ws : List (List Char)} (h : ∀ w ∈ ws, IsWord w) :
    IsJoined (['_'].intercalate ws) := by
  induction ws with
  | nil => exact ⟨rfl, List.isChain_nil, nofun, nofun⟩
  | cons w ws ih =>
    obtain ⟨hw, hws⟩ := List.forall_mem_cons.mp h
    cases ws with
    | nil =>
      rw [List.intercalate_singleton]
      exact hw.isJoined
    | cons v vs =>
      rw [List.intercalate_cons_cons]
      refine IsJoined.cons hw (ih hws) fun hnil => ?_
      have hfound := words_intercalate hws
      rw [hnil] at hfound
      cases hfound

theorem isJoined_joined (name : String) : IsJoined (joined name) :=
  isJoined_intercalate (isWord_of_mem_words name.toList)

theorem isName_joined (name : String) : IsName (joined name) := (isJoined_joined name).chars

/-! ## Names -/

theorem isName_withLead {lead : String} {cs : List Char} (hlead : IsName lead.toList)
    (hcs : IsName cs) : IsName (withLead lead cs) := by
  unfold withLead
  split
  · rfl
  · split
    · exact isName_append.mpr ⟨hlead, hcs⟩
    · exact hcs

theorem isName_orDefault {default : String} {cs : List Char} (hdefault : IsName default.toList)
    (hcs : IsName cs) : IsName (orDefault default cs).toList := by
  unfold orDefault
  split
  · exact hdefault
  · rwa [String.toList_ofList]

theorem isName_tableName (name : String) : IsName (tableName name).toList := by
  unfold tableName
  split
  · decide
  · have hlead : IsName (withLead "Form_" (joined (Path.stem name))) :=
      isName_withLead (by decide) (isName_joined _)
    exact isName_orDefault (by decide) (hlead.take maxTableName)

theorem isName_columnName (name : String) : IsName (columnName name).toList := by
  have hlead : IsName (withLead "Col_" (joined name)) :=
    isName_withLead (by decide) (isName_joined name)
  have hfield : IsName (unreserve (withLead "Col_" (joined name))) := by
    unfold unreserve
    split
    · exact isName_append.mpr ⟨hlead, by decide⟩
    · exact hlead
  unfold columnName
  split
  · decide
  · exact isName_orDefault (by decide) (hfield.take maxColumnName)

theorem isName_of_tableNameOf {v : Value} {t : String} (h : tableNameOf v = .ok t) :
    IsName t.toList := by
  unfold tableNameOf at h
  split at h
  · split at h
    · obtain rfl := Except.ok.inj h
      exact isName_tableName _
    · cases h
  · obtain rfl := Except.ok.inj h
    exact isName_tableName _

theorem isName_of_columnNameOf {v : Value} {n : String} (h : columnNameOf v = .ok n) :
    IsName n.toList := by
  unfold columnNameOf at h
  cases hv : nameText v with
  | error e => rw [hv] at h; cases h
  | ok s =>
    rw [hv] at h
    obtain rfl := Except.ok.inj h
    exact isName_columnName s

/-! ## Names are not empty -/

theorem orDefault_ne_empty {default : String} (h : default ≠ "") (cs : List Char) :
    orDefault default cs ≠ "" := by
  unfold orDefault
  split
  · exact h
  · rename_i hne
    simpa using hne

theorem columnName_ne_empty (name : String) : columnName name ≠ "" := by
  unfold columnName
  split
  · decide
  · exact orDefault_ne_empty (by decide) _

theorem tableName_ne_empty (name : String) : tableName name ≠ "" := by
  unfold tableName
  split
  · decide
  · exact orDefault_ne_empty (by decide) _

theorem ne_empty_of_tableNameOf {v : Value} {t : String} (h : tableNameOf v = .ok t) : t ≠ "" := by
  unfold tableNameOf at h
  split at h
  · split at h
    · obtain rfl := Except.ok.inj h
      exact tableName_ne_empty _
    · cases h
  · obtain rfl := Except.ok.inj h
    exact tableName_ne_empty _

theorem ne_empty_of_columnNameOf {v : Value} {n : String} (h : columnNameOf v = .ok n) : n ≠ "" := by
  unfold columnNameOf at h
  cases hv : nameText v with
  | error e => rw [hv] at h; cases h
  | ok s =>
    rw [hv] at h
    obtain rfl := Except.ok.inj h
    exact columnName_ne_empty s

/-! ## Names that need no change -/

theorem isWordChar_of_isDigit {c : Char} (h : c.isDigit = true) : isWordChar c = true := by
  rw [Char.isDigit, Bool.and_eq_true, decide_eq_true_eq, decide_eq_true_eq] at h
  simp only [isWordChar, Bool.or_eq_true, Bool.and_eq_true, decide_eq_true_eq]
  exact Or.inr h

theorem tableName_of_isWord {s : String} {c : Char} {cs : List Char} (hs : s.toList = c :: cs)
    (hword : ∀ d ∈ c :: cs, isWordChar d = true) (hdigit : isDigitChar c = false)
    (hlength : (c :: cs).length ≤ maxTableName) : tableName s = s := by
  have hnot : ∀ d, isWordChar d = false → d ∉ s.toList := by
    intro d hd hmem
    rw [hs] at hmem
    rw [hword d hmem] at hd
    cases hd
  have hne : s ≠ "" := by
    rintro rfl
    cases hs
  have hempty : s.isEmpty = false := by simpa using hne
  have hjoined : joined s = c :: cs := by
    unfold joined
    rw [hs, words_of_forall hword, List.intercalate_singleton]
  unfold tableName
  rw [hempty, Path.stem_of_not_mem (hnot _ (by decide)) (hnot _ (by decide)), hjoined]
  have hlead : withLead "Form_" (c :: cs) = c :: cs := by
    simp only [withLead, hdigit, Bool.false_eq_true, if_false]
  rw [hlead, List.take_of_length_le hlength, ← hs]
  simp [orDefault, hne]

/-! ## Variable names -/

def isSmallLetter (c : Char) : Bool := 'a' ≤ c && c ≤ 'z'

/-- A character that may stand in a variable name behind its lead. -/
def isVariableChar (c : Char) : Bool := isSmallLetter c || isDigitChar c || c == '_'

/-- A text that a variable name may have behind its lead: a small letter, then small letters, digits
and underscores. -/
def IsVariableStem : List Char → Prop
  | [] => False
  | c :: cs => isSmallLetter c = true ∧ ∀ d ∈ cs, isVariableChar d = true

instance : DecidablePred IsVariableStem
  | [] => inferInstanceAs (Decidable False)
  | c :: cs => decidable_of_iff (isSmallLetter c = true ∧ cs.all isVariableChar = true)
      (and_congr_right fun _ => List.all_eq_true)

theorem IsVariableStem.append {cs ds : List Char} (hcs : IsVariableStem cs)
    (hds : ∀ d ∈ ds, isVariableChar d = true) : IsVariableStem (cs ++ ds) := by
  cases cs with
  | nil => exact hcs.elim
  | cons c cs => exact ⟨hcs.1, List.forall_mem_append.mpr ⟨hcs.2, hds⟩⟩

theorem isVariableChar_of_isDigit {c : Char} (h : c.isDigit = true) : isVariableChar c = true := by
  rw [Char.isDigit, Bool.and_eq_true, decide_eq_true_eq, decide_eq_true_eq] at h
  simp only [isVariableChar, isDigitChar, Bool.or_eq_true, Bool.and_eq_true, decide_eq_true_eq]
  exact Or.inl (Or.inr h)

/-- A word character in lower case is a small letter or a digit. -/
theorem lowerChar_of_isWordChar {c : Char} (h : isWordChar c = true) :
    isSmallLetter (Text.lowerChar c) = true ∨ isDigitChar (Text.lowerChar c) = true := by
  unfold Text.lowerChar
  split
  · rename_i hcapital
    have hletters : ∀ k < 26, isSmallLetter (Char.ofNat (65 + k + 32)) = true := by decide
    have hlow : 65 ≤ c.toNat := UInt32.le_iff_toNat_le.mp hcapital.1
    have hhigh : c.toNat ≤ 90 := UInt32.le_iff_toNat_le.mp hcapital.2
    have hk := hletters (c.toNat - 65) (by omega)
    rw [Nat.add_sub_cancel' hlow] at hk
    exact Or.inl hk
  · rename_i hcapital
    split
    · exact Or.inl (by decide)
    · simp only [isWordChar, Bool.or_eq_true, Bool.and_eq_true, decide_eq_true_eq] at h
      simp only [isSmallLetter, isDigitChar, Bool.and_eq_true, decide_eq_true_eq]
      rcases h with (hsmall | hbig) | hdigit
      · exact Or.inl hsmall
      · exact absurd hbig hcapital
      · exact Or.inr hdigit

theorem isVariableChar_lowerChar {c : Char} (h : isNameChar c = true) :
    isVariableChar (Text.lowerChar c) = true := by
  rw [isNameChar, Bool.or_eq_true] at h
  rcases h with hword | hunderscore
  · rcases lowerChar_of_isWordChar hword with hletter | hdigit
    · simp [isVariableChar, hletter]
    · simp [isVariableChar, hdigit]
  · rw [eq_of_beq hunderscore]
    decide

/-- Words that are joined start with a word character. -/
theorem isWordChar_of_joined {name : String} {c : Char} {cs : List Char} (h : joined name = c :: cs) :
    isWordChar c = true :=
  (isJoined_joined name).head c (by rw [h]; rfl)

theorem isVariableStem_variableStem (name : String) : IsVariableStem (variableStem name).toList := by
  have hchars : ∀ c ∈ (joined name).map Text.lowerChar, isVariableChar c = true := by
    intro c hc
    obtain ⟨d, hd, rfl⟩ := List.mem_map.mp hc
    exact isVariableChar_lowerChar (isName_iff.mp (isName_joined name) d hd)
  unfold variableStem
  dsimp only
  cases hjoined : joined name with
  | nil => decide
  | cons c cs =>
    rw [hjoined, List.map_cons] at hchars
    rw [List.map_cons]
    dsimp only
    split
    · have hlead : IsVariableStem "field_".toList := by decide
      rw [String.toList_append]
      refine hlead.append fun d hd => hchars d ?_
      rwa [String.toList_ofList] at hd
    · rename_i hdigit
      rw [String.toList_ofList]
      refine ⟨?_, fun d hd => hchars d (List.mem_cons_of_mem _ hd)⟩
      exact (lowerChar_of_isWordChar (isWordChar_of_joined hjoined)).resolve_right hdigit

end Identifier

end Formwright
