import Formwright.Proofs.Identifier
import Formwright.Sql.Script

/-
  Tokens of a script. A text is read character by character, and `Mode` is all that is remembered
  between two of them. In a text literal nothing counts but quotes: two stand for one, and a single
  one ends the literal. So a literal that was written is read as the text it is of, whatever that text
  holds (`read_literalChars`). `Reads` says which tokens a piece of text has on its own; pieces put
  together have the tokens of each (`Reads.append`).
-/

namespace Formwright.Sql

inductive Token where
  | word (w : String)
  | literal (t : String)
  | mark (c : Char)
  deriving Repr, DecidableEq

/-- What has been read of a token that has not ended yet. -/
inductive Mode where
  | blank
  | word (w : List Char)
  | text (t : List Char)
  /-- A quote was read in a literal: it ends there unless another quote follows. -/
  | quoted (t : List Char)
  deriving Repr, DecidableEq

/-- Characters that are tokens of their own. -/
def marks : List Char := ['(', ')', ',', ';', '.', '[', ']', '"', '\x60']

def blanks : List Char := [' ', '\n', '\r', '\t']

/-- A character that goes on with a word: neither quote nor blank nor mark. -/
def isPart (c : Char) : Bool := c != '\'' && !blanks.contains c && !marks.contains c

/-- Reads a character where no token has begun. -/
def start (c : Char) : List Token × Mode :=
  if isPart c then ([], .word [c])
  else if c = '\'' then ([], .text [])
  else if marks.contains c then ([.mark c], .blank)
  else ([], .blank)

namespace Mode

/-- The token that ends where nothing goes on with it. -/
def pending : Mode → List Token
  | blank => []
  | word w => [.word (String.ofList w)]
  | text _ => []
  | quoted t => [.literal (String.ofList t)]

/-- Reads a character: the tokens that end before it and with it, and what is remembered. -/
def step (m : Mode) (c : Char) : List Token × Mode :=
  let next := (m.pending ++ (start c).1, (start c).2)
  match m with
  | blank => next
  | word w => if isPart c then ([], word (w ++ [c])) else next
  | text t => if c = '\'' then ([], quoted t) else ([], text (t ++ [c]))
  | quoted t => if c = '\'' then ([], text (t ++ [c])) else next

/-- Reads characters one after another. -/
def read : Mode → List Char → List Token × Mode
  | m, [] => ([], m)
  | m, c :: cs => ((m.step c).1 ++ ((m.step c).2.read cs).1, ((m.step c).2.read cs).2)

end Mode

/-- The tokens of a text; none when a literal is left open. -/
def tokens? (s : String) : Option (List Token) :=
  let p := Mode.blank.read s.toList
  match p.2 with
  | .text _ => none
  | m => some (p.1 ++ m.pending)

example : tokens? "('it''s',1);" =
    some [.mark '(', .literal "it's", .mark ',', .word "1", .mark ')', .mark ';'] := by decide +kernel

/-! ## Reading -/

namespace Mode

theorem read_append (m : Mode) (cs ds : List Char) : m.read (cs ++ ds) =
    ((m.read cs).1 ++ ((m.read cs).2.read ds).1, ((m.read cs).2.read ds).2) := by
  induction cs generalizing m with
  | nil => rfl
  | cons c cs ih =>
    rw [List.cons_append, read, ih]
    simp only [read, List.append_assoc]

/-- A word goes on as long as its characters do. -/
theorem read_word {w cs : List Char} (h : ∀ c ∈ cs, isPart c = true) :
    (word w).read cs = ([], word (w ++ cs)) := by
  induction cs generalizing w with
  | nil => rw [List.append_nil, read]
  | cons c cs ih =>
    obtain ⟨hc, hcs⟩ := List.forall_mem_cons.mp h
    have hstep : (word w).step c = ([], word (w ++ [c])) := by
      rw [step]
      exact if_pos hc
    rw [read, hstep, ih hcs, List.append_assoc]
    rfl

/-- In a literal, what was written for some characters is read as these characters, and the literal
is still open behind them. -/
theorem read_literalChars (t cs : List Char) :
    (text t).read (literalChars cs) = ([], text (t ++ cs)) := by
  induction cs generalizing t with
  | nil => rw [literalChars, List.append_nil, read]
  | cons c cs ih =>
    by_cases hc : c = '\''
    · subst hc
      -- the first quote may be the end, and the second one takes that back
      have hfirst : (text t).step '\'' = ([], quoted t) := rfl
      have hsecond : (quoted t).step '\'' = ([], text (t ++ ['\''])) := rfl
      rw [literalChars, if_pos rfl, read, hfirst, read, hsecond, ih, List.append_assoc]
      rfl
    · have hstep : (text t).step c = ([], text (t ++ [c])) := by
        rw [step]
        exact if_neg hc
      rw [literalChars, if_neg hc, read, hstep, ih, List.append_assoc]
      rfl

end Mode

theorem start_of_isPart {c : Char} (h : isPart c = true) : start c = ([], .word [c]) := if_pos h

theorem isPart_of_mem {c : Char} (hc : c ∈ marks ++ blanks) : isPart c = false := by
  rcases List.mem_append.mp hc with hc | hc
  · simp [isPart, hc]
  · simp [isPart, hc]

theorem not_quote_of_mem {c : Char} (hc : c ∈ marks ++ blanks) : c ≠ '\'' := by
  have hquote : '\'' ∉ marks ++ blanks := by decide
  rintro rfl
  exact hquote hc

/-- Names are words. -/
theorem isPart_of_isNameChar {c : Char} (h : Identifier.isNameChar c = true) : isPart c = true := by
  have hnone : ('\'' :: blanks ++ marks).all (fun e => !Identifier.isNameChar e) = true := by decide
  have hnot : ∀ e ∈ '\'' :: blanks ++ marks, c ≠ e := by
    rintro e he rfl
    have hname := List.all_eq_true.mp hnone c he
    rw [h] at hname
    cases hname
  rw [isPart, Bool.and_eq_true, Bool.and_eq_true, bne_iff_ne]
  refine ⟨⟨hnot _ List.mem_cons_self, ?_⟩, ?_⟩
  · simp only [Bool.not_eq_true', List.contains_eq_mem, decide_eq_false_iff_not]
    exact fun hc => hnot c (List.mem_append_left _ (List.mem_cons_of_mem _ hc)) rfl
  · simp only [Bool.not_eq_true', List.contains_eq_mem, decide_eq_false_iff_not]
    exact fun hc => hnot c (List.mem_append_right _ hc) rfl

/-! ## Pieces of text -/

/-- A piece of text has some tokens, which do not go on behind it. -/
def Reads (s : String) (ts : List Token) : Prop := Mode.blank.read s.toList = (ts, .blank)

instance (s : String) (ts : List Token) : Decidable (Reads s ts) :=
  inferInstanceAs (Decidable (_ = _))

/-- A text that can be written as a word. -/
def IsWord (s : String) : Prop := s.toList ≠ [] ∧ s.toList.all isPart = true

instance (s : String) : Decidable (IsWord s) := inferInstanceAs (Decidable (_ ∧ _))

theorem IsWord.append {s s' : String} (h : IsWord s) (h' : IsWord s') : IsWord (s ++ s') := by
  refine ⟨?_, ?_⟩
  · rw [String.toList_append]
    exact List.append_ne_nil_of_left_ne_nil h.1 _
  · rw [String.toList_append, List.all_append, h.2, h'.2]
    rfl

/-- Names are words, if there is something in them. -/
theorem isWord_of_isName {s : String} (hne : s ≠ "") (h : Identifier.IsName s.toList) : IsWord s := by
  refine ⟨by simpa using hne, List.all_eq_true.mpr fun c hc => ?_⟩
  exact isPart_of_isNameChar (Identifier.isName_iff.mp h c hc)

/-- A text that is known is read as the list of its characters. -/
theorem reads_ofList {cs : List Char} {ts : List Token} (h : Mode.blank.read cs = (ts, .blank)) :
    Reads (String.ofList cs) ts := by
  rw [Reads, String.toList_ofList, h]

theorem isWord_ofList {c : Char} {cs : List Char} (h : (c :: cs).all isPart = true) :
    IsWord (String.ofList (c :: cs)) := by
  rw [IsWord, String.toList_ofList]
  exact ⟨List.cons_ne_nil _ _, h⟩

theorem reads_empty : Reads "" [] := rfl

theorem Reads.append {s s' : String} {ts ts' : List Token} (h : Reads s ts) (h' : Reads s' ts') :
    Reads (s ++ s') (ts ++ ts') := by
  rw [Reads, String.toList_append, Mode.read_append, h, h']

theorem Reads.of_eq {s s' : String} {ts ts' : List Token} (h : Reads s ts) (hs : s' = s)
    (hts : ts' = ts) : Reads s' ts' := by rwa [hs, hts]

theorem reads_of_toList {s : String} {cs : List Char} (hs : s.toList = cs)
    (hblank : (Mode.blank.read cs).2 = .blank) : Reads s (Mode.blank.read cs).1 :=
  Prod.ext (congrArg (Mode.blank.read · |>.1) hs) ((congrArg (Mode.blank.read · |>.2) hs).trans hblank)

theorem Reads.tokens? {s : String} {ts : List Token} (h : Reads s ts) : tokens? s = some ts := by
  rw [Sql.tokens?, h]
  exact congrArg some (List.append_nil ts)

/-- Whether a text begins with a mark or a blank, which ends a token in front of it. -/
def EndsToken (s : String) : Prop := s.toList.head?.any (marks ++ blanks).contains = true

instance (s : String) : Decidable (EndsToken s) := inferInstanceAs (Decidable (_ = true))

theorem endsToken_ofList {c : Char} {cs : List Char} (h : (marks ++ blanks).contains c = true) :
    EndsToken (String.ofList (c :: cs)) := by
  rw [EndsToken, String.toList_ofList]
  exact h

theorem EndsToken.append {s : String} (h : EndsToken s) (s' : String) : EndsToken (s ++ s') := by
  obtain ⟨c, hhead, hend⟩ := (Option.any_eq_true _ _).mp h
  obtain ⟨cs, hcs⟩ := List.head?_eq_some_iff.mp hhead
  rw [EndsToken, String.toList_append, hcs, List.cons_append]
  exact hend

/-- Where a token is ended, it comes before the tokens of what ends it. -/
theorem read_of_endsToken {m : Mode} (hm : ∀ t, m ≠ .text t) {s : String} (hs : EndsToken s) :
    m.read s.toList =
      (m.pending ++ (Mode.blank.read s.toList).1, (Mode.blank.read s.toList).2) := by
  obtain ⟨c, hhead, hend⟩ := (Option.any_eq_true _ _).mp hs
  obtain ⟨cs, hcs⟩ := List.head?_eq_some_iff.mp hhead
  have hc : c ∈ marks ++ blanks := by simpa using hend
  have hstep : m.step c = (m.pending ++ (start c).1, (start c).2) := by
    cases m with
    | blank => rfl
    | word w =>
      rw [Mode.step]
      exact if_neg (by rw [isPart_of_mem hc]; exact Bool.false_ne_true)
    | text t => exact absurd rfl (hm t)
    | quoted t =>
      rw [Mode.step]
      exact if_neg (not_quote_of_mem hc)
  have hblank : Mode.blank.step c = start c := rfl
  rw [hcs, Mode.read, Mode.read, hstep, hblank, List.append_assoc]

theorem tokens?_eq_some {s : String} {ts : List Token} : tokens? s = some ts ↔
    (∀ t, (Mode.blank.read s.toList).2 ≠ .text t) ∧
      (Mode.blank.read s.toList).1 ++ (Mode.blank.read s.toList).2.pending = ts := by
  unfold tokens?
  cases hm : (Mode.blank.read s.toList).2 with
  | text t => simp [hm]
  | _ => simp [hm]

theorem any_tokens?_ofList {cs : List Char} {q : List Token → Bool}
    (h : (match Mode.blank.read cs with
      | (_, .text _) => false
      | (ts, m) => q (ts ++ m.pending)) = true) : (tokens? (String.ofList cs)).any q = true := by
  unfold tokens?
  rw [String.toList_ofList]
  split at h
  · cases h
  · rename_i ts m hclosed hread
    rw [hread]
    cases m with
    | text t => exact absurd rfl (hclosed t)
    | _ => exact h

/-- A text on its own, in front of what ends its last token. -/
theorem reads_append_of_tokens? {s s' : String} {ts ts' : List Token} (h : tokens? s = some ts)
    (hs' : EndsToken s') (h' : Reads s' ts') : Reads (s ++ s') (ts ++ ts') := by
  obtain ⟨hclosed, hts⟩ := tokens?_eq_some.mp h
  rw [Reads, String.toList_append, Mode.read_append, read_of_endsToken hclosed hs', h',
    ← List.append_assoc, hts]

theorem tokens?_append {s s' : String} {ts ts' : List Token} (h : tokens? s = some ts)
    (hs' : EndsToken s') (h' : tokens? s' = some ts') : tokens? (s ++ s') = some (ts ++ ts') := by
  obtain ⟨hclosed, hts⟩ := tokens?_eq_some.mp h
  obtain ⟨hclosed', hts'⟩ := tokens?_eq_some.mp h'
  rw [tokens?_eq_some, String.toList_append, Mode.read_append, read_of_endsToken hclosed hs']
  refine ⟨hclosed', ?_⟩
  rw [← List.append_assoc, hts, List.append_assoc, hts']

theorem tokens?_word {s : String} (hs : IsWord s) : tokens? s = some [.word s] := by
  obtain ⟨hne, hpart⟩ := hs
  obtain ⟨e, es, hes⟩ := List.exists_cons_of_ne_nil hne
  rw [List.all_eq_true, hes, List.forall_mem_cons] at hpart
  have hword : Mode.blank.read s.toList = ([], .word s.toList) := by
    rw [hes, Mode.read, Mode.step, start_of_isPart hpart.1, Mode.read_word hpart.2]
    rfl
  rw [tokens?, hword]
  exact congrArg (some [Token.word ·]) String.ofList_toList

theorem reads_word {s s' : String} {ts : List Token} (hs : IsWord s) (hs' : EndsToken s')
    (h : Reads s' ts) : Reads (s ++ s') (.word s :: ts) :=
  reads_append_of_tokens? (tokens?_word hs) hs' h

/-- A literal is one token, whatever the text that it is of. -/
theorem tokens?_literal (s : String) : tokens? (literal s) = some [.literal s] := by
  have hlist : (literal s).toList = '\'' :: (literalChars s.toList ++ ['\'']) := by
    simp only [literal, String.toList_append, String.toList_ofList]
    rfl
  have hopen : Mode.blank.step '\'' = ([], .text []) := rfl
  have hliteral : Mode.blank.read (literal s).toList = ([], .quoted s.toList) := by
    rw [hlist, Mode.read, hopen, Mode.read_append, Mode.read_literalChars]
    rfl
  rw [tokens?, hliteral]
  exact congrArg (some [Token.literal ·]) String.ofList_toList

theorem reads_literal (s : String) {s' : String} {ts : List Token} (hs' : EndsToken s')
    (h : Reads s' ts) : Reads (literal s ++ s') (.literal s :: ts) :=
  reads_append_of_tokens? (tokens?_literal s) hs' h

/-- Lines have the tokens of each. -/
theorem Reads.line {s : String} {ss : List String} {ts tss : List Token} (h : Reads s ts)
    (hss : Reads (lines ss) tss) : Reads (lines (s :: ss)) (ts ++ tss) := by
  cases ss with
  | nil =>
    obtain rfl : [] = tss := congrArg Prod.fst hss
    rw [lines, String.intercalate_singleton, List.append_nil]
    exact h
  | cons s' ss =>
    have hbreak : Reads "\n" [] := rfl
    rw [lines, String.intercalate_cons_cons]
    have hall := (h.append hbreak).append hss
    rwa [List.append_nil] at hall

theorem reads_lines {α : Type} {text : α → String} {tokens : α → List Token} {xs : List α}
    (h : ∀ x ∈ xs, Reads (text x) (tokens x)) : Reads (lines (xs.map text)) (xs.flatMap tokens) := by
  induction xs with
  | nil => exact reads_empty
  | cons x xs ih =>
    obtain ⟨hx, hxs⟩ := List.forall_mem_cons.mp h
    exact hx.line (ih hxs)

end Formwright.Sql
