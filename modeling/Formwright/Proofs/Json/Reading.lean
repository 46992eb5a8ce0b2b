import Formwright.Proofs.Json.Documents
import Formwright.Proofs.Json.Numbers
import Formwright.Proofs.Json.Strings
import Formwright.Proofs.Value.Fields

/-
  Texts that are read as values. A text spells a value (`Spelled`) when it is read as the value wherever
  it stands inside of a longer text. So the texts of items between commas and brackets spell a list
  (`spelled_list`), and the texts of members, each behind its name and a colon, spell a record
  (`spelled_record`).
-/

namespace Formwright.Json

/-- A text that is read as a value, whatever ends it. -/
structure Spelled (s : String) (w : Value) : Prop where
  head : ∃ c cs, s.toList = c :: cs ∧ isSpace c = false ∧ c ≠ ']'
  read : ∀ fuel rest, 2 * s.length ≤ fuel → Ends rest → value fuel (s.toList ++ rest) = .ok (w, rest)

/-! ## Words, numbers and strings -/

theorem skipSpace_cons {c : Char} (h : isSpace c = false) (cs : List Char) :
    skipSpace (c :: cs) = c :: cs :=
  List.dropWhile_cons_of_neg (by simp [h])

theorem value_space (fuel : Nat) (cs : List Char) : value fuel (' ' :: cs) = value fuel cs := by
  cases fuel with
  | zero => rfl
  | succ fuel =>
    have hskip : skipSpace (' ' :: cs) = skipSpace cs := rfl
    rw [value, value, hskip]

theorem spelled_null : Spelled "null" .null where
  head := ⟨'n', _, rfl, rfl, by decide⟩
  read
    | fuel + 1, rest, _, _ => rfl

theorem spelled_bool (b : Bool) : Spelled (if b then "true" else "false") (.bool b) where
  head := by cases b <;> exact ⟨_, _, rfl, rfl, by decide⟩
  read
    | 0, _, h, _ => by cases b <;> exact absurd h (by decide)
    | fuel + 1, rest, _, _ => by cases b <;> rfl

/-- What starts with none of the letters of a word, a string or a collection is a number. -/
theorem value_number {fuel : Nat} {c : Char} {cs : List Char} (hspace : isSpace c = false)
    (hstart : c ∉ ['"', '[', '\x7b']) (hword : word? (c :: cs) = none) :
    value (fuel + 1) (c :: cs) = number (c :: cs) := by
  rw [value, skipSpace_cons hspace]
  dsimp only
  split
  · rename_i h
    cases h
  · rename_i h
    exact absurd (List.cons.inj h).1 (by rintro rfl; exact hstart (by simp))
  · rename_i h
    exact absurd (List.cons.inj h).1 (by rintro rfl; exact hstart (by simp))
  · rename_i h
    exact absurd (List.cons.inj h).1 (by rintro rfl; exact hstart (by simp))
  · rw [hword]

/-- No word starts with a digit, or with a minus and a digit. -/
theorem word?_digit {c : Char} (h : c.isDigit = true) (cs : List Char) :
    word? (c :: cs) = none ∧ word? ('-' :: c :: cs) = none := by
  have hne : ∀ d : Char, d.isDigit = false → ¬ d = c := by
    rintro d hd rfl
    rw [h] at hd
    cases hd
  have hn := hne 'n' (by decide)
  have ht := hne 't' (by decide)
  have hf := hne 'f' (by decide)
  have hN := hne 'N' (by decide)
  have hI := hne 'I' (by decide)
  have hminus := hne '-' (by decide)
  constructor
  · simp [word?, afterWord?, hn, ht, hf, hN, hI, hminus]
  · simp [word?, afterWord?, hI]

theorem isSpace_of_isDigit {c : Char} (h : c.isDigit = true) : isSpace c = false ∧ c ≠ ']' ∧
    c ∉ ['"', '[', '\x7b'] := by
  have hne : ∀ d : Char, d.isDigit = false → c ≠ d := by
    rintro d hd rfl
    rw [h] at hd
    cases hd
  simp [isSpace, hne ' ', hne '\t', hne '\n', hne '\r', hne ']', hne '"', hne '[', hne '\x7b']

theorem spelled_int {n : Int} (h : n.natAbs.repr.length ≤ maxIntegerDigits) :
    Spelled (Text.decimal n) (.int n) := by
  obtain ⟨c, cs, hc, htext⟩ := toList_decimal n
  obtain ⟨hspace, hend, hstart⟩ := isSpace_of_isDigit hc
  constructor
  · rcases htext with htext | htext
    · exact ⟨c, cs, htext, hspace, hend⟩
    · exact ⟨'-', c :: cs, htext, by decide, by decide⟩
  · intro fuel rest hfuel hrest
    have hnumber := number_decimal h hrest
    have hlength : 0 < (Text.decimal n).length := by
      rw [← String.length_toList]
      rcases htext with htext | htext <;> simp [htext]
    obtain _ | fuel := fuel
    · omega
    · rcases htext with htext | htext
      · rw [htext, List.cons_append] at hnumber ⊢
        rw [value_number hspace hstart (word?_digit hc _).1, hnumber]
      · rw [htext, List.cons_append, List.cons_append] at hnumber ⊢
        rw [value_number (by decide) (by decide) (word?_digit hc _).2, hnumber]

theorem value_quote (fuel : Nat) (cs : List Char) : value (fuel + 1) ('"' :: cs) =
    (do let (s, rest) ← string (fuel + 1) cs; return (.text s, rest)) := rfl

theorem spelled_text (s : String) : Spelled (stringText true s) (.text s) where
  head := ⟨'"', _, toList_stringText s, by decide, by decide⟩
  read := by
    intro fuel rest hfuel _
    have hbody := length_le_bodyChars s.toList
    have hlength := congrArg List.length (toList_stringText s)
    rw [String.length_toList, List.length_cons, List.length_append, List.length_singleton] at hlength
    rw [String.length_toList] at hbody
    obtain _ | fuel := fuel
    · omega
    · have hstring := string_bodyChars s (show s.length < fuel + 1 by omega) rest
      rw [toList_stringText, List.cons_append, List.append_assoc, List.singleton_append, value_quote,
        hstring]
      rfl

/-! ## Lists -/

theorem ends_cons {c : Char} (h : c = ',' ∨ c = ']' ∨ c = '\x7d') (rest : List Char) : Ends (c :: rest) :=
  fun _ hd => Option.some.inj hd ▸ h

/-- Texts between commas, in front of a closing character. -/
def joined (ss : List String) (close : Char) (rest : List Char) : List Char :=
  (", ".intercalate ss).toList ++ close :: rest

theorem joined_singleton (s : String) (close : Char) (rest : List Char) :
    joined [s] close rest = s.toList ++ close :: rest := by
  rw [joined, String.intercalate_singleton]

theorem joined_cons_cons (s t : String) (ss : List String) (close : Char) (rest : List Char) :
    joined (s :: t :: ss) close rest = s.toList ++ ',' :: ' ' :: joined (t :: ss) close rest := by
  rw [joined, String.intercalate_cons_cons, String.toList_append, String.toList_append, List.append_assoc,
    List.append_assoc]
  rfl

theorem exists_joined_cons {s : String} {c : Char} {cs : List Char} (hs : s.toList = c :: cs)
    (ss : List String) (close : Char) (rest : List Char) :
    ∃ more, joined (s :: ss) close rest = c :: more := by
  cases ss with
  | nil => exact ⟨_, by rw [joined_singleton, hs, List.cons_append]⟩
  | cons t ss => exact ⟨_, by rw [joined_cons_cons, hs, List.cons_append]⟩

theorem length_intercalate (s t : String) (ss : List String) :
    (", ".intercalate (s :: t :: ss)).length = s.length + 2 + (", ".intercalate (t :: ss)).length := by
  rw [String.intercalate_cons_cons, String.length_append, String.length_append]
  rfl

theorem items_space (fuel : Nat) (cs : List Char) : items fuel (' ' :: cs) = items fuel cs := by
  cases fuel with
  | zero => rfl
  | succ fuel => rw [items, items, value_space]

theorem items_last {fuel : Nat} {cs rest : List Char} {v : Value}
    (hv : value fuel cs = .ok (v, ']' :: rest)) : items (fuel + 1) cs = .ok ([v], rest) := by
  rw [items, hv, ok_bind]
  rfl

theorem items_more {fuel : Nat} {cs more rest : List Char} {v : Value} {vs : List Value}
    (hv : value fuel cs = .ok (v, ',' :: more)) (hvs : items fuel more = .ok (vs, rest)) :
    items (fuel + 1) cs = .ok (v :: vs, rest) := by
  rw [items, hv, ok_bind]
  show items fuel more >>= _ = _
  rw [hvs]
  rfl

/-- Items between commas are read up to the closing bracket. -/
theorem items_joined {ss : List String} {ws : List Value} (h : List.Forall₂ Spelled ss ws)
    (hne : ss ≠ []) {fuel : Nat} (hfuel : 2 * (", ".intercalate ss).length < fuel) (rest : List Char) :
    items fuel (joined ss ']' rest) = .ok (ws, rest) := by
  -- each item is ended by the comma or the bracket behind it
  induction h generalizing fuel with
  | nil => exact absurd rfl hne
  | @cons s w ss ws hs hss ih =>
    obtain _ | fuel := fuel
    · cases hfuel
    cases hss with
    | nil =>
      rw [String.intercalate_singleton] at hfuel
      rw [joined_singleton]
      exact items_last (hs.read fuel _ (by omega) (ends_cons (by decide) rest))
    | @cons t x ss ws ht hss =>
      rw [length_intercalate] at hfuel
      rw [joined_cons_cons]
      refine items_more (hs.read fuel _ (by omega) (ends_cons (by decide) _)) ?_
      rw [items_space]
      exact ih (List.cons_ne_nil _ _) (by omega)

theorem enclose_canonical (level : Nat) (opening closing : String) (parts : List String) :
    Style.canonical.enclose level opening closing parts =
      opening ++ ", ".intercalate parts ++ closing := by
  cases parts with
  | nil => simp [Style.enclose]
  | cons s ss => simp [Style.enclose, Style.lineBreak, Style.separator, Style.canonical]

theorem toList_enclose (level : Nat) (opening closing : Char) (parts : List String) (rest : List Char) :
    (Style.canonical.enclose level (String.singleton opening) (String.singleton closing) parts).toList ++
      rest = opening :: joined parts closing rest := by
  rw [enclose_canonical, String.toList_append, String.toList_append, String.toList_singleton,
    String.toList_singleton, List.append_assoc, List.append_assoc]
  rfl

theorem length_enclose (level : Nat) (opening closing : Char) (parts : List String) :
    (Style.canonical.enclose level (String.singleton opening) (String.singleton closing) parts).length =
      (", ".intercalate parts).length + 2 := by
  rw [enclose_canonical, String.length_append, String.length_append, String.length_singleton,
    String.length_singleton]
  omega

/-- What is read behind an opening character and up to a closing one. -/
theorem spelled_enclose (opening closing : Char) (hspace : isSpace opening = false)
    (hopening : opening ≠ ']') {parts : List String} {w : Value}
    (h : ∀ fuel rest, 2 * (", ".intercalate parts).length < fuel →
      value (fuel + 1) (opening :: joined parts closing rest) = .ok (w, rest)) (level : Nat) :
    Spelled (Style.canonical.enclose level (String.singleton opening) (String.singleton closing) parts)
      w := by
  have htext := toList_enclose level opening closing parts
  constructor
  · exact ⟨opening, _, (List.append_nil _).symm.trans (htext []), hspace, hopening⟩
  · intro fuel rest hfuel _
    rw [length_enclose] at hfuel
    obtain _ | fuel := fuel
    · omega
    · rw [htext]
      exact h fuel rest (by omega)

theorem value_list {fuel : Nat} {cs rest : List Char} {vs : List Value}
    (hend : (skipSpace cs).head? ≠ some ']') (h : items fuel cs = .ok (vs, rest)) :
    value (fuel + 1) ('[' :: cs) = .ok (.list 0 vs, rest) := by
  have hskip : skipSpace ('[' :: cs) = '[' :: cs := rfl
  simp only [value, hskip]
  split
  · rename_i hcs
    rw [hcs] at hend
    exact absurd rfl hend
  · rw [h]
    rfl

theorem spelled_list {ss : List String} {ws : List Value} (h : List.Forall₂ Spelled ss ws) (level : Nat) :
    Spelled (Style.canonical.enclose level "[" "]" ss) (.list 0 ws) := by
  refine spelled_enclose '[' ']' (by decide) (by decide) (fun fuel rest hfuel => ?_) level
  cases h with
  | nil => rfl
  | @cons s w ss ws hs hss =>
    refine value_list ?_ (items_joined (.cons hs hss) (List.cons_ne_nil _ _) hfuel rest)
    obtain ⟨c, cs, hc, hspace, hend⟩ := hs.head
    obtain ⟨more, hmore⟩ := exists_joined_cons hc ss ']' rest
    rw [hmore, skipSpace_cons hspace]
    simpa using hend

/-! ## Records -/

/-- The text of a member: its name, and the text of its value behind a colon. -/
def memberText (name text : String) : String := stringText true name ++ ": " ++ text

theorem members_space (fuel : Nat) (es : List (Value × Value)) (cs : List Char) :
    members fuel es (' ' :: cs) = members fuel es cs := by
  cases fuel with
  | zero => rfl
  | succ fuel =>
    have hskip : skipSpace (' ' :: cs) = skipSpace cs := rfl
    rw [members, members, hskip]

theorem toList_memberText (name text : String) (rest : List Char) :
    (memberText name text).toList ++ rest =
      '"' :: (bodyChars name.toList ++ '"' :: ':' :: ' ' :: (text.toList ++ rest)) := by
  have hcolon : ": ".toList = [':', ' '] := rfl
  rw [memberText, String.toList_append, String.toList_append, toList_stringText, hcolon]
  simp only [List.cons_append, List.append_assoc, List.nil_append]

theorem length_le_memberText (name text : String) :
    name.length + text.length + 2 ≤ (memberText name text).length := by
  have htext := congrArg List.length (toList_memberText name text [])
  have hbody := length_le_bodyChars name.toList
  rw [List.append_nil, List.append_nil] at htext
  simp only [List.length_cons, List.length_append, String.length_toList] at htext hbody
  omega

/-- The entries behind a member, after its name and its value were read. -/
theorem members_member {name text : String} {w : Value} (h : Spelled text w) {fuel : Nat}
    (hfuel : 2 * (memberText name text).length ≤ fuel) (es : List (Value × Value)) {rest : List Char}
    (hrest : Ends rest) :
    members (fuel + 1) es ((memberText name text).toList ++ rest) =
      match skipSpace rest with
      | ',' :: more => members fuel (Value.put es (.text name) w) more
      | '\x7d' :: after => .ok (Value.put es (.text name) w, after)
      | _ => .error .json := by
  have hlength := length_le_memberText name text
  rw [toList_memberText]
  show (string (fuel + 1) _ >>= _) = _
  rw [string_bodyChars name (by omega), ok_bind]
  show (value fuel (' ' :: _) >>= _) = _
  rw [value_space, h.read fuel rest (by omega) hrest, ok_bind]
  rfl

/-- A member whose value is spelled by its text. -/
def SpelledMember (f : String × String) (g : String × Value) : Prop := f.1 = g.1 ∧ Spelled f.2 g.2

/-- Members between commas are read up to the closing brace. -/
theorem members_joined {fs : List (String × String)} {gs : List (String × Value)}
    (h : List.Forall₂ SpelledMember fs gs) (hne : fs ≠ []) {fuel : Nat}
    (hfuel : 2 * (", ".intercalate (fs.map fun f => memberText f.1 f.2)).length < fuel)
    (done : List (String × Value)) (hnames : ((done ++ gs).map (·.1)).Nodup) (rest : List Char) :
    members fuel (entriesOf done) (joined (fs.map fun f => memberText f.1 f.2) '\x7d' rest) =
      .ok (entriesOf (done ++ gs), rest) := by
  -- the names are distinct, so each member is put behind those that are done
  induction h generalizing fuel done with
  | nil => exact absurd rfl hne
  | @cons f g fs gs hfg hrest ih =>
    obtain _ | fuel := fuel
    · cases hfuel
    obtain ⟨name, text⟩ := f
    obtain ⟨_, w⟩ := g
    obtain ⟨rfl, htext⟩ := hfg
    rw [List.append_cons] at hnames ⊢
    have hput : Value.put (entriesOf done) (.text name) w = entriesOf (done ++ [(name, w)]) := by
      have hname : ((done ++ [(name, w)]).map (·.1)).Nodup := by
        rw [List.map_append] at hnames
        exact (List.nodup_append.mp hnames).1
      rw [List.map_append, List.nodup_append] at hname
      rw [Value.put_entriesOf, Value.setField_of_not_mem]
      exact fun hmem => hname.2.2 name hmem name List.mem_cons_self rfl
    cases hrest with
    | nil =>
      rw [List.map_singleton, String.intercalate_singleton] at hfuel
      rw [List.map_singleton, joined_singleton,
        members_member htext (by omega) _ (ends_cons (by decide) rest), hput, List.append_nil]
      rfl
    | @cons f' g' fs gs hfg' hrest =>
      rw [List.map_cons, List.map_cons, length_intercalate] at hfuel
      rw [List.map_cons, List.map_cons, joined_cons_cons,
        members_member htext (by omega) _ (ends_cons (by decide) _), hput]
      show members fuel _ (' ' :: _) = _
      rw [members_space]
      exact ih (List.cons_ne_nil _ _) (by rw [List.map_cons]; omega) _ hnames

theorem value_record {fuel : Nat} {cs rest : List Char} {es : List (Value × Value)}
    (hend : (skipSpace cs).head? ≠ some '\x7d') (h : members fuel [] cs = .ok (es, rest)) :
    value (fuel + 1) ('\x7b' :: cs) = .ok (.map 0 es, rest) := by
  have hskip : skipSpace ('\x7b' :: cs) = '\x7b' :: cs := rfl
  simp only [value, hskip]
  split
  · rename_i hcs
    rw [hcs] at hend
    exact absurd rfl hend
  · rw [h]
    rfl

theorem spelled_record {fs : List (String × String)} {gs : List (String × Value)}
    (h : List.Forall₂ SpelledMember fs gs) (hnames : (gs.map (·.1)).Nodup) (level : Nat) :
    Spelled (Style.canonical.enclose level "\x7b" "\x7d" (fs.map fun f => memberText f.1 f.2))
      (.map 0 (entriesOf gs)) := by
  refine spelled_enclose '\x7b' '\x7d' (by decide) (by decide) (fun fuel rest hfuel => ?_) level
  cases h with
  | nil => rfl
  | @cons f g fs gs hfg hrest =>
    refine value_record ?_ (members_joined (.cons hfg hrest) (List.cons_ne_nil _ _) hfuel [] hnames rest)
    have hhead := (List.append_nil _).symm.trans (toList_memberText f.1 f.2 [])
    obtain ⟨more, hmore⟩ := exists_joined_cons hhead (fs.map fun f => memberText f.1 f.2) '\x7d' rest
    rw [List.map_cons, hmore, skipSpace_cons (by decide)]
    simp

end Formwright.Json
