import Formwright.Proofs.Sql.Columns
import Formwright.Proofs.Sql.Lookups

/-
  What the text of a script says about tables and columns. `readClauses` reads the clauses of a text
  from its tokens: which table it creates and with which columns, and which tables and columns it names
  besides. A quoted name is read as a name, so a table or a column may be called like a keyword. What is
  read off the text of a script is what the script was rendered from (`readClauses_body`), as long as
  its names are words.
-/

namespace Formwright.Sql

/-! ## The reader -/

/-- A token, or a name in its quotes. -/
inductive Lexeme where
  | name (n : String)
  | plain (t : Token)
  deriving Repr, DecidableEq

/-- The marks around a name. -/
def Dialect.quotes : Dialect → Char × Char
  | .sqlServer => ('[', ']')
  | .mysql => ('\x60', '\x60')
  | .postgresql => ('"', '"')

/-- A token that opens a name in no dialect. -/
def Token.isUnquoted (t : Token) : Bool := Dialect.all.all fun d => t != .mark d.quotes.1

/-- Puts names and their quotes together. -/
def lexemes (d : Dialect) : List Token → List Lexeme
  | .mark o :: .word n :: .mark c :: ts =>
    if (o, c) = d.quotes then .name n :: lexemes d ts
    else .plain (.mark o) :: .plain (.word n) :: lexemes d (.mark c :: ts)
  | t :: ts => .plain t :: lexemes d ts
  | [] => []

/-- A clause of a script that names a table or a column. -/
inductive Clause where
  /-- A table is created, -/
  | create (table : String)
  /-- with a column, -/
  | define (column : String)
  /-- of which one is tied -/
  | foreignKey (column : String)
  /-- to a column of another table. -/
  | references (table column : String)
  | index (table column : String)
  | insert (table : String)
  /-- The rows of a table are counted. -/
  | count (table : String)
  /-- A table is read under another name, -/
  | source (table short : String)
  /-- and a column is taken from what has that name. -/
  | column (short name : String)
  /-- A keyword begins what is none of these. -/
  | unread
  deriving Repr, DecidableEq

/-- The table that is named next, behind its schema, and what follows it. -/
def tableAt? (d : Dialect) (ls : List Lexeme) : Option (String × List Lexeme) :=
  match d, ls with
  | .sqlServer, .name "dbo" :: .plain (.mark '.') :: .name t :: ls => some (t, ls)
  | .mysql, .name t :: ls => some (t, ls)
  | .postgresql, .name t :: ls => some (t, ls)
  | _, _ => none

/-- The name that stands next in brackets. -/
def nameIn? : List Lexeme → Option String
  | .plain (.mark '(') :: .name n :: .plain (.mark ')') :: _ => some n
  | _ => none

/-- The words that begin a clause. -/
def keywords : List String :=
  ["TABLE", "FOREIGN", "REFERENCES", "INDEX", "INTO", "COUNT", "FROM", "m", "r"]

/-- The clause that a word begins, if it is one that begins a clause. -/
def clauseFrom (d : Dialect) (w : String) (ls : List Lexeme) : List Clause :=
  let clause (c : Option Clause) := [c.getD .unread]
  match w with
  | "TABLE" => clause do return .create (← tableAt? d ls).1
  | "FOREIGN" =>
    match ls with
    | .plain (.word "KEY") :: ls => clause do return .foreignKey (← nameIn? ls)
    | _ => [.unread]
  | "REFERENCES" => clause do
    let (table, rest) ← tableAt? d ls
    return .references table (← nameIn? rest)
  | "INDEX" =>
    match ls with
    | .name _ :: .plain (.word "ON") :: ls => clause do
      let (table, rest) ← tableAt? d ls
      return .index table (← nameIn? rest)
    | _ => [.unread]
  | "INTO" => clause do return .insert (← tableAt? d ls).1
  | "COUNT" =>
    match ls with
    | .plain (.mark '(') :: .plain (.word "*") :: .plain (.mark ')') :: .plain (.word "FROM") :: ls =>
      clause do return .count (← tableAt? d ls).1
    | _ => [.unread]
  | "FROM" => clause do
    match ← tableAt? d ls with
    | (table, .plain (.word short) :: _) => return .source table short
    | _ => none
  | "m" | "r" =>
    match ls with
    | .plain (.mark '.') :: .name n :: _ => [.column w n]
    | .plain (.mark '.') :: _ => [.unread]
    | _ => []
  | _ => []

/-- The column that is defined next: a name with a type behind it. -/
def definedNext : List Lexeme → List Clause
  | .name n :: .plain (.word _) :: _ => [.define n]
  | _ => []

/-- The clause that a lexeme begins. Columns are defined where a list begins and behind its commas. -/
def Lexeme.clauses (d : Dialect) (l : Lexeme) (ls : List Lexeme) : List Clause :=
  match l with
  | .plain (.word w) => clauseFrom d w ls
  | .plain (.mark c) => if c = '(' ∨ c = ',' then definedNext ls else []
  | _ => []

def clauses (d : Dialect) : List Lexeme → List Clause
  | [] => []
  | l :: ls => l.clauses d ls ++ clauses d ls

/-- The clauses of a text. -/
def readClauses (d : Dialect) (text : String) : Option (List Clause) :=
  (tokens? text).map fun ts => clauses d (lexemes d ts)

theorem Token.ne_of_isUnquoted {t : Token} (h : t.isUnquoted = true) (d : Dialect) :
    t ≠ .mark d.quotes.1 := bne_iff_ne.mp (List.all_eq_true.mp h d d.mem_all)

theorem lexemes_cons_of_isUnquoted (d : Dialect) {t : Token} (h : t.isUnquoted = true)
    (ts : List Token) : lexemes d (t :: ts) = .plain t :: lexemes d ts := by
  rw [lexemes.eq_def]
  split
  · rename_i o n c us heq
    obtain ⟨rfl, rfl⟩ := List.cons.inj heq
    have hopen : (o, c) ≠ d.quotes := fun hquotes => Token.ne_of_isUnquoted h d (by rw [← hquotes])
    rw [if_neg hopen]
    rfl
  · rename_i heq
    obtain ⟨rfl, rfl⟩ := List.cons.inj heq
    rfl
  · rename_i heq
    cases heq

/-! ## Pieces of text -/

/-- A piece of text is made of some lexemes, whatever follows it. -/
def Spells (d : Dialect) (s : String) (ls : List Lexeme) : Prop :=
  ∃ ts, Reads s ts ∧ ∀ us, lexemes d (ts ++ us) = ls ++ lexemes d us

/-- A piece of text is made of some lexemes where what follows it ends its last token. -/
def SpellsOpen (d : Dialect) (s : String) (ls : List Lexeme) : Prop :=
  ∀ s' ls', EndsToken s' → Spells d s' ls' → Spells d (s ++ s') (ls ++ ls')

section
variable {d : Dialect} {s s' : String} {ls ls' : List Lexeme}

theorem Spells.of_eq (h : Spells d s ls) (hs : s' = s) (hls : ls' = ls) : Spells d s' ls' := by
  rwa [hs, hls]

theorem SpellsOpen.of_eq (h : SpellsOpen d s ls) (hs : s' = s) (hls : ls' = ls) :
    SpellsOpen d s' ls' := by
  rwa [hs, hls]

theorem Spells.append (h : Spells d s ls) (h' : Spells d s' ls') :
    Spells d (s ++ s') (ls ++ ls') := by
  obtain ⟨ts, hts, hls⟩ := h
  obtain ⟨ts', hts', hls'⟩ := h'
  refine ⟨ts ++ ts', hts.append hts', fun us => ?_⟩
  rw [List.append_assoc, hls, hls', List.append_assoc]

theorem Spells.open (h : Spells d s ls) : SpellsOpen d s ls := fun _ _ _ h' => h.append h'

theorem Spells.append_open (h : Spells d s ls) (h' : SpellsOpen d s' ls') :
    SpellsOpen d (s ++ s') (ls ++ ls') := by
  intro s'' ls'' hends hs''
  rw [String.append_assoc, List.append_assoc]
  exact h.append (h' s'' ls'' hends hs'')

/-- Tokens none of which opens a name are lexemes one by one. -/
theorem lexemes_append_of_isUnquoted (d : Dialect) {ts : List Token} (h : ts.all Token.isUnquoted = true)
    (us : List Token) : lexemes d (ts ++ us) = ts.map .plain ++ lexemes d us := by
  induction ts with
  | nil => rfl
  | cons t ts ih =>
    rw [List.all_cons, Bool.and_eq_true] at h
    rw [List.cons_append, lexemes_cons_of_isUnquoted d h.1, ih h.2]
    rfl

/-- A text without names, of which the characters are known. -/
theorem spells_plain (d : Dialect) (ts : List Token) {chars : List Char}
    (h : Mode.blank.read chars = (ts, .blank)) (hplain : ts.all Token.isUnquoted = true) :
    Spells d (String.ofList chars) (ts.map .plain) :=
  ⟨ts, reads_ofList h, lexemes_append_of_isUnquoted d hplain⟩

theorem spellsOpen_plain (d : Dialect) (ts : List Token)
    (h : tokens? s = some ts ∧ ts.all Token.isUnquoted = true) : SpellsOpen d s (ts.map .plain) := by
  intro s' ls' hends hs'
  obtain ⟨ts', hts', hls'⟩ := hs'
  refine ⟨ts ++ ts', reads_append_of_tokens? h.1 hends hts', fun us => ?_⟩
  rw [List.append_assoc, lexemes_append_of_isUnquoted d h.2, hls', List.append_assoc]

theorem spellsOpen_word {w : String} (h : IsWord w) : SpellsOpen d w [.plain (.word w)] :=
  spellsOpen_plain d [.word w] ⟨tokens?_word h, by simp [Token.isUnquoted]⟩

/-- A quoted name is one lexeme. -/
theorem spells_quote {n : String} (h : IsWord n) : Spells d (d.quote n) [.name n] := by
  have hopen : Reads d.profile.quoteOpen [.mark d.quotes.1] := by cases d <;> exact reads_ofList rfl
  have hclose : Reads d.profile.quoteClose [.mark d.quotes.2] := by cases d <;> exact reads_ofList rfl
  have hends : EndsToken d.profile.quoteClose := by cases d <;> exact endsToken_ofList rfl
  refine ⟨[.mark d.quotes.1, .word n, .mark d.quotes.2], ?_, fun us => ?_⟩
  · refine (hopen.append (reads_word h hends hclose)).of_eq ?_ rfl
    rw [Dialect.quote, String.append_assoc]
  · exact if_pos rfl

/-- The lexemes of a table name with its schema. -/
def tableLexemes (d : Dialect) (t : String) : List Lexeme :=
  match d with
  | .sqlServer => [.name "dbo", .plain (.mark '.'), .name t]
  | .mysql | .postgresql => [.name t]

theorem spells_table {t : String} (h : IsWord t) : Spells d (d.table t) (tableLexemes d t) := by
  have hname := spells_quote (d := d) h
  cases d with
  | sqlServer =>
    have hdbo : Spells .sqlServer (Dialect.sqlServer.quote "dbo") [.name "dbo"] :=
      spells_quote (isWord_ofList rfl)
    have hpoint : Spells .sqlServer "." _ := spells_plain .sqlServer [.mark '.'] rfl rfl
    refine ((hdbo.append hpoint).append hname).of_eq ?_ rfl
    have hschema : Dialect.sqlServer.profile.schema = Dialect.sqlServer.quote "dbo" ++ "." := rfl
    rw [Dialect.table, hschema]
  | mysql => exact hname.of_eq (String.empty_append) rfl
  | postgresql => exact hname.of_eq (String.empty_append) rfl

end

/-! ## Pieces and their clauses -/

/-- Lexemes have some clauses, whatever follows them. -/
def Says (d : Dialect) (ls : List Lexeme) (cs : List Clause) : Prop :=
  ∀ us, clauses d (ls ++ us) = cs ++ clauses d us

/-- A piece of text has some clauses, whatever follows it. -/
def Tells (d : Dialect) (s : String) (cs : List Clause) : Prop := ∃ ls, Spells d s ls ∧ Says d ls cs

/-- Whether there is a next lexeme, and it is no name. -/
def isPlainNext : List Lexeme → Bool
  | .plain _ :: _ => true
  | _ => false

/-- Whether no lexeme begins a clause: no word is a keyword, and no list begins or goes on with a name. -/
def isSilent : List Lexeme → Bool
  | [] => true
  | .plain (.word w) :: ls => !keywords.contains w && isSilent ls
  | .plain (.mark c) :: ls => (!(c == '(' || c == ',') || isPlainNext ls) && isSilent ls
  | _ :: ls => isSilent ls

section
variable {d : Dialect} {s s' : String} {ls ls' : List Lexeme} {cs cs' : List Clause}

theorem Says.append (h : Says d ls cs) (h' : Says d ls' cs') : Says d (ls ++ ls') (cs ++ cs') := by
  intro us
  rw [List.append_assoc, h, h', List.append_assoc]

theorem says_nil : Says d [] [] := fun _ => rfl

theorem clauseFrom_of_not_mem {w : String} (h : w ∉ keywords) (ls : List Lexeme) :
    clauseFrom d w ls = [] := by
  unfold clauseFrom
  split <;> first | rfl | exact absurd (by decide) h

/-- A lexeme in a silent list begins no clause, and what follows it is silent. -/
theorem clauses_of_isSilent {l : Lexeme} (h : isSilent (l :: ls) = true) (us : List Lexeme) :
    l.clauses d (ls ++ us) = [] ∧ isSilent ls = true := by
  cases l with
  | name n => exact ⟨rfl, h⟩
  | plain t =>
    cases t with
    | literal t => exact ⟨rfl, h⟩
    | word w =>
      rw [isSilent, Bool.and_eq_true, Bool.not_eq_true', List.contains_eq_mem,
        decide_eq_false_iff_not] at h
      exact ⟨clauseFrom_of_not_mem h.1 _, h.2⟩
    | mark c =>
      rw [isSilent, Bool.and_eq_true] at h
      refine ⟨?_, h.2⟩
      unfold Lexeme.clauses
      by_cases hc : c = '(' ∨ c = ','
      · have hlist : (c == '(' || c == ',') = true := by simpa using hc
        have hnext : isPlainNext ls = true := by simpa only [hlist, Bool.not_true, Bool.false_or] using h.1
        match ls, hnext with
        | .plain _ :: _, _ => exact if_pos hc
      · exact if_neg hc

theorem says_of_isSilent (h : isSilent ls = true) : Says d ls [] := by
  induction ls with
  | nil => exact says_nil
  | cons l ls ih =>
    intro us
    obtain ⟨hnone, hrest⟩ := clauses_of_isSilent (d := d) h us
    rw [List.cons_append, clauses, hnone, ih hrest us]
    rfl

theorem Tells.of_eq (h : Tells d s cs) (hs : s' = s) (hcs : cs' = cs) : Tells d s' cs' := by
  rwa [hs, hcs]

theorem Tells.append (h : Tells d s cs) (h' : Tells d s' cs') : Tells d (s ++ s') (cs ++ cs') := by
  obtain ⟨ls, hls, hcs⟩ := h
  obtain ⟨ls', hls', hcs'⟩ := h'
  exact ⟨ls ++ ls', hls.append hls', hcs.append hcs'⟩

/-- The clauses of a text that is told whole. -/
theorem Tells.readClauses (h : Tells d s cs) : readClauses d s = some cs := by
  obtain ⟨ls, ⟨ts, hts, hls⟩, hcs⟩ := h
  have hlexemes : lexemes d ts = ls := by
    have hall := hls []
    rwa [List.append_nil, lexemes, List.append_nil] at hall
  have hclauses : clauses d ls = cs := by
    have hall := hcs []
    rwa [List.append_nil, clauses, List.append_nil] at hall
  rw [Sql.readClauses, hts.tokens?, Option.map_some, hlexemes, hclauses]

/-- A text without names and keywords, of which the characters are known. -/
theorem tells_plain (d : Dialect) (ts : List Token) {chars : List Char}
    (h : Mode.blank.read chars = (ts, .blank)) (hplain : ts.all Token.isUnquoted = true)
    (hsilent : isSilent (ts.map .plain) = true) : Tells d (String.ofList chars) [] :=
  ⟨_, spells_plain d ts h hplain, says_of_isSilent hsilent⟩

theorem tells_empty (d : Dialect) : Tells d "" [] := tells_plain d [] rfl rfl rfl

/-- Lines have the clauses of each. -/
theorem Tells.line {ss : List String} (h : Tells d s cs) (hss : Tells d (lines ss) cs') :
    Tells d (lines (s :: ss)) (cs ++ cs') := by
  cases ss with
  | nil =>
    have hnone : [] = cs' := Option.some.inj ((tells_empty d).readClauses.symm.trans hss.readClauses)
    rw [lines, String.intercalate_singleton, ← hnone, List.append_nil]
    exact h
  | cons s' ss =>
    have hbreak : Tells d "\n" [] := tells_plain d [] rfl rfl rfl
    refine ((h.append hbreak).append hss).of_eq ?_ ?_
    · rw [lines, String.intercalate_cons_cons]
      rfl
    · rw [List.append_nil]

theorem tells_lines {α : Type} {text : α → String} {said : α → List Clause} {xs : List α}
    (h : ∀ x ∈ xs, Tells d (text x) (said x)) : Tells d (lines (xs.map text)) (xs.flatMap said) := by
  induction xs with
  | nil => exact tells_empty d
  | cons x xs ih =>
    obtain ⟨hx, hxs⟩ := List.forall_mem_cons.mp h
    exact hx.line (ih hxs)

/-! ## Items of a list -/

/-- The comma between two items. -/
def comma : Lexeme := .plain (.mark ',')

/-- An item of a list has some clauses, behind what begins the list and behind a comma. -/
def TellsItem (d : Dialect) (lead : List Lexeme) (s : String) (cs : List Clause) : Prop :=
  ∃ ls, SpellsOpen d s ls ∧ Says d (lead ++ ls) cs ∧ Says d (comma :: ls) cs

/-- A list has the clauses of its items. -/
theorem tellsItem_commaLines {α : Type} {text : α → String} {said : α → List Clause} {x : α} {xs : List α}
    {lead : List Lexeme} (h : ∀ y ∈ x :: xs, TellsItem d lead (text y) (said y)) :
    TellsItem d lead (commaLines ((x :: xs).map text)) ((x :: xs).flatMap said) := by
  induction xs generalizing x lead with
  | nil =>
    have hx := h x List.mem_cons_self
    rw [List.map_singleton, commaLines, String.intercalate_singleton, List.flatMap_singleton]
    exact hx
  | cons y ys ih =>
    obtain ⟨hx, hys⟩ := List.forall_mem_cons.mp h
    obtain ⟨ls, hls, hsaid, hsaidBehind⟩ := hx
    -- the items behind the first one have a comma in front of them
    have hbehind : ∀ z ∈ y :: ys, TellsItem d [comma] (text z) (said z) := by
      intro z hz
      obtain ⟨ls, hls, -, hbehind⟩ := hys z hz
      exact ⟨ls, hls, hbehind, hbehind⟩
    obtain ⟨ls', hls', -, hsaid'⟩ := ih hbehind
    have hcomma : Spells d ",\n" [comma] := spells_plain d [.mark ','] rfl rfl
    refine ⟨ls ++ comma :: ls', ?_, ?_, ?_⟩
    · intro s' lexs hends hs'
      have hends' : EndsToken (",\n" ++ (commaLines ((y :: ys).map text) ++ s')) :=
        EndsToken.append (endsToken_ofList rfl) _
      have hall := hls _ _ hends' (hcomma.append (hls' s' lexs hends hs'))
      refine hall.of_eq ?_ ?_
      · simp only [commaLines, List.map_cons, String.intercalate_cons_cons, String.append_assoc]
      · simp only [List.append_assoc, List.cons_append, List.nil_append]
    · rw [← List.append_assoc, List.flatMap_cons]
      exact hsaid.append hsaid'
    · rw [← List.cons_append, List.flatMap_cons]
      exact hsaidBehind.append hsaid'

/-- A list between what begins it and what ends it. -/
theorem TellsItem.enclosed {lead : List Lexeme} {before behind : String} (h : TellsItem d lead s cs)
    (hlead : Spells d before lead) (hends : EndsToken behind) (hbehind : Tells d behind cs') :
    Tells d (before ++ (s ++ behind)) (cs ++ cs') := by
  obtain ⟨ls, hls, hsaid, -⟩ := h
  obtain ⟨ls', hls', hsaid'⟩ := hbehind
  refine ⟨lead ++ ls ++ ls', ?_, hsaid.append hsaid'⟩
  exact (hlead.append (hls behind ls' hends hls')).of_eq rfl (List.append_assoc ..)

/-! ## The clauses of each statement -/

theorem isSilent_append (h : isSilent ls = true) (h' : isSilent ls' = true) :
    isSilent (ls ++ ls') = true := by
  induction ls with
  | nil => exact h'
  | cons l ls ih =>
    cases l with
    | name n => exact ih h
    | plain t =>
      cases t with
      | literal t => exact ih h
      | word w =>
        rw [isSilent, Bool.and_eq_true] at h
        rw [List.cons_append, isSilent, h.1, ih h.2]
        rfl
      | mark c =>
        rw [isSilent, Bool.and_eq_true, Bool.or_eq_true] at h
        have hnext : (!(c == '(' || c == ',') || isPlainNext (ls ++ ls')) = true := by
          rw [Bool.or_eq_true]
          refine h.1.imp_right fun hplain => ?_
          match ls, hplain with
          | .plain _ :: _, _ => rfl
        rw [List.cons_append, isSilent, hnext, ih h.2]
        rfl

/-- Whether no name is quoted in some tokens, and no clause begins. -/
def isQuiet (ts : List Token) : Bool := ts.all Token.isUnquoted && isSilent (ts.map .plain)

theorem isQuiet_append {ts ts' : List Token} (h : isQuiet ts = true) (h' : isQuiet ts' = true) :
    isQuiet (ts ++ ts') = true := by
  rw [isQuiet, Bool.and_eq_true] at h h'
  rw [isQuiet, List.all_append, h.1, h'.1, List.map_append, isSilent_append h.2 h'.2]
  rfl

def beginsWithWord : List Token → Bool
  | .word _ :: _ => true
  | _ => false

/-- Whether a text is a type, or one with its constraints: it begins with a word, and nothing in it is
read as a name or as a clause. -/
def isType (s : String) : Bool := (tokens? s).any fun ts => isQuiet ts && beginsWithWord ts

/-- Whether a text can stand behind a type. -/
def isConstraint (s : String) : Bool := decide (EndsToken s) && (tokens? s).any isQuiet

theorem isConstraint_ofList {c : Char} {chars : List Char} (hc : (marks ++ blanks).contains c = true)
    (h : (match Mode.blank.read (c :: chars) with
      | (_, .text _) => false
      | (ts, m) => isQuiet (ts ++ m.pending)) = true) :
    isConstraint (String.ofList (c :: chars)) = true := by
  rw [isConstraint, decide_eq_true (endsToken_ofList hc), Bool.true_and]
  exact any_tokens?_ofList h

theorem isType_append (h : isType s = true) (h' : isConstraint s' = true) : isType (s ++ s') = true := by
  obtain ⟨ts, hts, hquiet⟩ := (Option.any_eq_true _ _).mp h
  rw [isConstraint, Bool.and_eq_true, decide_eq_true_eq] at h'
  obtain ⟨hends, h'⟩ := h'
  obtain ⟨ts', hts', hquiet'⟩ := (Option.any_eq_true _ _).mp h'
  rw [Bool.and_eq_true] at hquiet
  have hword : beginsWithWord (ts ++ ts') = true := by
    match ts, hquiet.2 with
    | .word _ :: _, _ => rfl
  rw [isType, tokens?_append hts hends hts', Option.any_some, isQuiet_append hquiet.1 hquiet', hword]
  rfl

/-- A type can stand behind another one, with a blank between the two. -/
theorem isConstraint_of_isType (h : isType s = true) : isConstraint (" " ++ s) = true := by
  obtain ⟨ts, hts, hquiet⟩ := (Option.any_eq_true _ _).mp h
  rw [Bool.and_eq_true] at hquiet
  have hends : EndsToken (" " ++ s) := EndsToken.append (endsToken_ofList rfl) s
  have htokens : tokens? (" " ++ s) = some ts := by
    rw [tokens?_eq_some, String.toList_append, Mode.read_append]
    exact tokens?_eq_some.mp hts
  rw [isConstraint, decide_eq_true hends, htokens]
  exact hquiet.1

theorem says_define {c : Char} (hc : c = '(' ∨ c = ',') {n w : String}
    (h : isSilent (.plain (.word w) :: ls) = true) :
    Says d (.plain (.mark c) :: .name n :: .plain (.word w) :: ls) [.define n] := by
  intro us
  have hmark : (Lexeme.plain (.mark c)).clauses d (.name n :: .plain (.word w) :: (ls ++ us)) =
      [.define n] := if_pos hc
  have hsilent : isSilent (.name n :: .plain (.word w) :: ls) = true := h
  have hrest := says_of_isSilent (d := d) hsilent us
  simp only [List.cons_append] at hrest ⊢
  rw [clauses, hmark, hrest]
  rfl

/-- A column of a table defines its name. -/
theorem tellsItem_field {f : Field} (hname : IsWord f.name) (htype : isType f.definition = true) :
    TellsItem d [.plain (.mark '(')] (f.text d) [.define f.name] := by
  obtain ⟨ts, htokens, hquiet⟩ := (Option.any_eq_true _ _).mp htype
  rw [Bool.and_eq_true, isQuiet, Bool.and_eq_true] at hquiet
  obtain ⟨⟨hunquoted, hsilent⟩, hword⟩ := hquiet
  match ts, hword with
  | .word w :: ts, _ =>
    have hopen := spellsOpen_plain d _ ⟨htokens, hunquoted⟩
    have hindent : Spells d "    " [] := spells_plain d [] rfl rfl
    have hspace : Spells d " " [] := spells_plain d [] rfl rfl
    refine ⟨.name f.name :: (Token.word w :: ts).map .plain, ?_, ?_, ?_⟩
    · exact ((hindent.append (spells_quote hname)).append hspace).append_open hopen
    · exact says_define (Or.inl rfl) hsilent
    · exact says_define (Or.inr rfl) hsilent

theorem tells_create {t : String} (ht : IsWord t) : Tells d ("CREATE TABLE " ++ d.table t) [.create t] := by
  have hfirst : Spells d "CREATE TABLE " _ := spells_plain d [.word "CREATE", .word "TABLE"] rfl rfl
  refine ⟨_, hfirst.append (spells_table ht), fun us => ?_⟩
  cases d <;> rfl

/-- The constraint that ties a table to another one. -/
theorem tellsItem_parent {t p : String} (ht : IsWord t) (hp : IsWord p) :
    TellsItem d [.plain (.mark '(')] (parentText d t p)
      [.foreignKey parentColumn, .references p formColumn] := by
  have hfirst : Spells d "    CONSTRAINT " _ := spells_plain d [.word "CONSTRAINT"] rfl rfl
  have hname : IsWord ("FK_" ++ t) := IsWord.append (isWord_ofList rfl) ht
  have hkey : Spells d " FOREIGN KEY (" _ :=
    spells_plain d [.word "FOREIGN", .word "KEY", .mark '('] rfl rfl
  have hparent : Spells d (d.quote parentColumn) _ := spells_quote (isWord_ofList rfl)
  have hrefers : Spells d ") REFERENCES " _ :=
    spells_plain d [.mark ')', .word "REFERENCES"] rfl rfl
  have hopen : Spells d " (" _ := spells_plain d [.mark '('] rfl rfl
  have hform : Spells d (d.quote formColumn) _ := spells_quote (isWord_ofList rfl)
  have haction : Spells d ") ON DELETE " _ :=
    spells_plain d [.mark ')', .word "ON", .word "DELETE"] rfl rfl
  have hcascade : SpellsOpen d "CASCADE" _ := spellsOpen_word (isWord_ofList rfl)
  have hlast : SpellsOpen d ") ON DELETE CASCADE" _ := (haction.append_open hcascade).of_eq rfl rfl
  have hbefore := (((hfirst.append (spells_quote hname)).append hkey).append hparent).append hrefers
  unfold parentText
  refine ⟨_, (((hbefore.append (spells_table hp)).append hopen).append hform).append_open hlast, ?_, ?_⟩
  · intro us
    cases d <;> rfl
  · intro us
    cases d <;> rfl

theorem tells_index {t c : String} (ht : IsWord t) (hc : IsWord c) :
    Tells d (indexText d t c) [.index t c] := by
  have hfirst : Spells d "CREATE INDEX " _ := spells_plain d [.word "CREATE", .word "INDEX"] rfl rfl
  have hname : IsWord ("IX_" ++ t ++ "_" ++ c) :=
    ((IsWord.append (isWord_ofList rfl) ht).append (isWord_ofList rfl)).append hc
  have hon : Spells d " ON " _ := spells_plain d [.word "ON"] rfl rfl
  have hopen : Spells d " (" _ := spells_plain d [.mark '('] rfl rfl
  have hclose : Spells d ");" _ := spells_plain d [.mark ')', .mark ';'] rfl rfl
  have hbefore := ((hfirst.append (spells_quote hname)).append hon).append (spells_table ht)
  refine ⟨_, ((hbefore.append hopen).append (spells_quote hc)).append hclose, fun us => ?_⟩
  cases d <;> rfl

/-- A column that a view takes from the main table. -/
theorem tellsItem_column {n : String} (hn : IsWord n) :
    TellsItem d [] ("    m." ++ d.quote n) [.column "m" n] := by
  have hfirst : Spells d "    m." _ := spells_plain d [.word "m", .mark '.'] rfl rfl
  exact ⟨_, (hfirst.append (spells_quote hn)).open, fun us => rfl, fun us => rfl⟩

/-- The count of the rows of a section table. -/
theorem tellsItem_count {c : SectionCount} (ht : IsWord c.table) (hl : IsWord c.label) :
    TellsItem d [] (c.text d) [.count c.table, .source c.table "r", .column "r" parentColumn,
      .column "m" formColumn] := by
  have hfirst : Spells d "    (SELECT COUNT(*) FROM " _ :=
    spells_plain d [.mark '(', .word "SELECT", .word "COUNT", .mark '(', .word "*", .mark ')', .word "FROM"]
      rfl rfl
  have hwhere : Spells d " r WHERE r." _ :=
    spells_plain d [.word "r", .word "WHERE", .word "r", .mark '.'] rfl rfl
  have hparent : Spells d (d.quote parentColumn) _ := spells_quote (isWord_ofList rfl)
  have hequals : Spells d " = m." _ := spells_plain d [.word "=", .word "m", .mark '.'] rfl rfl
  have hform : Spells d (d.quote formColumn) _ := spells_quote (isWord_ofList rfl)
  have has : Spells d ") AS " _ := spells_plain d [.mark ')', .word "AS"] rfl rfl
  have hbefore := (((hfirst.append (spells_table ht)).append hwhere).append hparent).append hequals
  have hall := ((hbefore.append hform).append has).append (spells_quote hl)
  refine ⟨_, hall.open, ?_, ?_⟩
  · intro us
    cases d <;> rfl
  · intro us
    cases d <;> rfl

theorem tells_source {t : String} (ht : IsWord t) :
    Tells d ("FROM " ++ d.table t ++ " m;") [.source t "m"] := by
  have hfirst : Spells d "FROM " _ := spells_plain d [.word "FROM"] rfl rfl
  have hlast : Spells d " m;" _ := spells_plain d [.word "m", .mark ';'] rfl rfl
  refine ⟨_, (hfirst.append (spells_table ht)).append hlast, fun us => ?_⟩
  cases d <;> rfl

/-- A list with nothing in front of it. -/
theorem tells_list {items : List (String × List Clause)} {behind : String} (hne : items ≠ [])
    (h : ∀ e ∈ items, TellsItem d [] e.1 e.2) (hends : EndsToken behind) (hbehind : Tells d behind cs) :
    Tells d (commaLines (items.map (·.1)) ++ behind) (items.flatMap (·.2) ++ cs) := by
  obtain ⟨item, items, rfl⟩ := List.exists_cons_of_ne_nil hne
  have hempty : Spells d "" [] := spells_plain d [] rfl rfl
  exact ((tellsItem_commaLines h).enclosed hempty hends hbehind).of_eq String.empty_append.symm rfl

/-- A table that is created, with what its columns and constraints say. -/
theorem tells_definition {t : String} (ht : IsWord t) {items : List (String × List Clause)}
    (hne : items ≠ []) (h : ∀ e ∈ items, TellsItem d [.plain (.mark '(')] e.1 e.2) :
    Tells d ("CREATE TABLE " ++ d.table t ++ " (" ++ "\n" ++ commaLines (items.map (·.1)) ++ "\n" ++ ");")
      (.create t :: items.flatMap (·.2)) := by
  obtain ⟨item, items, rfl⟩ := List.exists_cons_of_ne_nil hne
  have hmark : Spells d " (" _ := spells_plain d [.mark '('] rfl rfl
  have hbreak : Spells d "\n" [] := spells_plain d [] rfl rfl
  have hends : EndsToken ("\n" ++ ");") := EndsToken.append (endsToken_ofList rfl) _
  have hclose : Tells d ("\n" ++ ");") [] :=
    (tells_plain d [] rfl rfl rfl).append (tells_plain d [.mark ')', .mark ';'] rfl rfl rfl)
  have hlist := (tellsItem_commaLines h).enclosed (hmark.append hbreak) hends hclose
  refine ((tells_create ht).append hlist).of_eq ?_ ?_
  · simp only [String.append_assoc]
  · rw [List.append_nil]
    rfl

end

/-! ## The clauses of a script -/

/-- What the text of a table says. -/
def Table.clauses (t : Table) : List Clause :=
  .create t.name :: (t.fields.map fun f => .define f.name) ++
    (t.parent.toList.flatMap fun p => [.foreignKey parentColumn, .references p formColumn]) ++
    t.indexed.map (.index t.name)

/-- What the text of a lookup table says. -/
def Lookup.clauses (d : Dialect) (l : Lookup) : List Clause :=
  .create l.name :: ((lookupFields d).map fun f => .define f.name) ++ l.rows.map fun _ => .insert l.name

/-- What the text of a view says: its columns are those of the table that it calls `m`. -/
def Summary.clauses (s : Summary) : List Clause :=
  s.fields.map (.column "m") ++
    (s.counts.flatMap fun c => [.count c.table, .source c.table "r", .column "r" parentColumn,
      .column "m" formColumn]) ++
    [.source s.table "m"]

/-- What the text of a script says. -/
def Body.clauses (d : Dialect) : Body → List Clause
  | .table t => t.clauses
  | .lookup l => l.clauses d
  | .view s => s.clauses

section
variable {d : Dialect}

/-- A column of which the name is a word, and the type is one. -/
structure Field.IsReadable (f : Field) : Prop where
  name : IsWord f.name
  definition : isType f.definition = true

/-- A dialect of which all types are types. -/
structure Profile.IsReadable (p : Profile) : Prop where
  identity : isType p.identity = true
  uuid : isType p.uuid = true
  uuidDefault : isType p.uuidDefault = true
  timestamp : isType p.timestamp = true
  timestampDefault : isType p.timestampDefault = true
  longText : isType p.longText = true
  shortText : isType p.shortText = true
  truth : isType p.truth = true
  integer : isType p.integer = true
  decimal : isType p.decimal = true
  people : isType p.people = true
  binary : isType p.binary = true

theorem Dialect.isReadable_profile (d : Dialect) : d.profile.IsReadable := by
  cases d <;> constructor <;> exact any_tokens?_ofList rfl

/-- A table of which every column and every name is readable. -/
structure Table.IsReadable (t : Table) : Prop where
  name : IsWord t.name
  fields : ∀ f ∈ t.fields, f.IsReadable
  some_field : t.fields ≠ []
  parent : ∀ p, t.parent = some p → IsWord p
  indexed : ∀ c ∈ t.indexed, IsWord c

/-- Columns that are defined, with what they say. -/
def fieldItems (d : Dialect) (fs : List Field) : List (String × List Clause) :=
  fs.map fun f => (f.text d, [.define f.name])

theorem tellsItem_fieldItems {fs : List Field} (h : ∀ f ∈ fs, f.IsReadable) :
    ∀ e ∈ fieldItems d fs, TellsItem d [.plain (.mark '(')] e.1 e.2 := by
  intro e he
  obtain ⟨f, hf, rfl⟩ := List.mem_map.mp he
  exact tellsItem_field (h f hf).name (h f hf).definition

theorem map_fst_fieldItems (fs : List Field) : (fieldItems d fs).map (·.1) = fs.map (Field.text d) := by
  rw [fieldItems, List.map_map]
  rfl

theorem flatMap_snd_fieldItems (fs : List Field) :
    (fieldItems d fs).flatMap (·.2) = fs.map fun f => .define f.name := by
  rw [fieldItems, List.flatMap_map, List.map_eq_flatMap]

/-- The constraint of a table, with what it says. -/
def Table.parentItems (d : Dialect) (t : Table) : List (String × List Clause) :=
  t.parent.toList.map fun p => (parentText d t.name p, [.foreignKey parentColumn, .references p formColumn])

theorem Table.tells {t : Table} (h : t.IsReadable) : Tells d (t.text d) t.clauses := by
  have hne : fieldItems d t.fields ++ t.parentItems d ≠ [] :=
    List.append_ne_nil_of_left_ne_nil (by simpa [fieldItems] using h.some_field) _
  have hitems : ∀ e ∈ fieldItems d t.fields ++ t.parentItems d,
      TellsItem d [.plain (.mark '(')] e.1 e.2 := by
    intro e he
    rcases List.mem_append.mp he with he | he
    · exact tellsItem_fieldItems h.fields e he
    · obtain ⟨p, hp, rfl⟩ := List.mem_map.mp he
      exact tellsItem_parent h.name (h.parent p (Option.mem_toList.mp hp))
  have hbreak : Tells d ("\n" ++ "") [] := (tells_plain d [] rfl rfl rfl).append (tells_empty d)
  have hindexed := tells_lines fun c hc => tells_index (d := d) h.name (h.indexed c hc)
  refine (((tells_definition h.name hne hitems).append hbreak).line hindexed).of_eq ?_ ?_
  · have htexts : (fieldItems d t.fields ++ t.parentItems d).map (·.1) =
        t.fields.map (Field.text d) ++ (t.parent.map (parentText d t.name)).toList := by
      rw [List.map_append, map_fst_fieldItems, Table.parentItems, List.map_map]
      cases t.parent <;> rfl
    unfold Table.text
    simp only [htexts, List.cons_append, List.nil_append, lines_cons_cons, String.append_assoc]
  · rw [List.flatMap_append, flatMap_snd_fieldItems, Table.parentItems, List.flatMap_map, List.append_nil,
      ← List.map_eq_flatMap]
    rfl

/-- A row of which the place is written as a word that is no keyword. -/
def LookupRow.IsReadable (r : LookupRow) : Prop := IsWord r.order.display ∧ r.order.display ∉ keywords

/-- The columns of a lookup table in the order in which a row gives their values. -/
theorem spells_lookupFields :
    Spells d (", ".intercalate ((lookupFields d).map fun f => d.quote f.name))
      [.name "Value", comma, .name "DisplayText", comma, .name "IsDefault", comma, .name "SortOrder"] := by
  have hnames : (lookupFields d).map (fun f => d.quote f.name) =
      [d.quote "Value", d.quote "DisplayText", d.quote "IsDefault", d.quote "SortOrder"] := rfl
  have hcomma : Spells d ", " [comma] := spells_plain d [.mark ','] rfl rfl
  have hvalue : Spells d (d.quote "Value") _ := spells_quote (isWord_ofList rfl)
  have htext : Spells d (d.quote "DisplayText") _ := spells_quote (isWord_ofList rfl)
  have hdefault : Spells d (d.quote "IsDefault") _ := spells_quote (isWord_ofList rfl)
  have horder : Spells d (d.quote "SortOrder") _ := spells_quote (isWord_ofList rfl)
  have hbefore := (((hvalue.append hcomma).append htext).append hcomma).append hdefault
  refine ((hbefore.append hcomma).append horder).of_eq ?_ rfl
  rw [hnames]
  simp only [String.intercalate_cons_cons, String.intercalate_singleton, String.append_assoc]

theorem tells_insert {t : String} (ht : IsWord t) {r : LookupRow} (h : r.IsReadable) :
    Tells d (r.text d t) [.insert t] := by
  have hfirst : Spells d "INSERT INTO " _ := spells_plain d [.word "INSERT", .word "INTO"] rfl rfl
  have hopen : Spells d " (" _ := spells_plain d [.mark '('] rfl rfl
  have hvalues : Spells d ") VALUES (" _ := spells_plain d [.mark ')', .word "VALUES", .mark '('] rfl rfl
  have hcomma : Spells d ", " [comma] := spells_plain d [.mark ','] rfl rfl
  have hclose : Spells d ");" _ := spells_plain d [.mark ')', .mark ';'] rfl rfl
  have hcommaEnds : EndsToken ", " := endsToken_ofList rfl
  have hcloseEnds : EndsToken ");" := endsToken_ofList rfl
  have hliteral : ∀ s, SpellsOpen d (literal s) [.plain (.literal s)] := fun s =>
    spellsOpen_plain d [.literal s] ⟨tokens?_literal s, by simp [Token.isUnquoted]⟩
  have htexts := (hliteral r.value _ _ hcommaEnds hcomma).append
    (hliteral r.displayText _ _ hcommaEnds hcomma)
  have hwords := (spellsOpen_word (isWord_truth d r.isDefault) _ _ hcommaEnds hcomma).append
    (spellsOpen_word h.1 _ _ hcloseEnds hclose)
  have hhead := (((hfirst.append (spells_table ht)).append hopen).append spells_lookupFields).append hvalues
  -- the bracket behind the names of the columns shows that the last of them is not defined here
  have hsaid : Says d ([.plain (.word "INSERT"), .plain (.word "INTO")] ++ tableLexemes d t ++
      [.plain (.mark '('), .name "Value", comma, .name "DisplayText", comma, .name "IsDefault", comma,
        .name "SortOrder", .plain (.mark ')')]) [.insert t] := by
    intro us
    cases d <;> rfl
  have hsilent : isSilent [.plain (.word "VALUES"), .plain (.mark '('), .plain (.literal r.value), comma,
      .plain (.literal r.displayText), comma,
      .plain (.word (if r.isDefault then d.profile.trueWord else d.profile.falseWord)), comma,
      .plain (.word r.order.display), .plain (.mark ')'), .plain (.mark ';')] = true := by
    have htruth : (if r.isDefault then d.profile.trueWord else d.profile.falseWord) ∉ keywords := by
      cases d <;> cases r.isDefault <;> decide
    have hvalues : "VALUES" ∉ keywords := by decide
    simp [isSilent, isPlainNext, comma, htruth, hvalues, h.2]
  refine ⟨_, (hhead.append (htexts.append hwords)).of_eq ?_ ?_, hsaid.append (says_of_isSilent hsilent)⟩
  · unfold LookupRow.text
    simp only [String.append_assoc]
  · cases d <;> rfl

theorem isReadable_lookupFields (d : Dialect) : ∀ f ∈ lookupFields d, f.IsReadable := by
  have hprofile := d.isReadable_profile
  have hkey : isConstraint " NOT NULL PRIMARY KEY" = true := isConstraint_ofList rfl rfl
  have hnotNull : isConstraint " NOT NULL" = true := isConstraint_ofList rfl rfl
  rw [lookupFields]
  simp only [List.forall_mem_cons]
  exact ⟨⟨isWord_ofList rfl, isType_append hprofile.shortText hkey⟩,
    ⟨isWord_ofList rfl, isType_append hprofile.shortText hnotNull⟩,
    ⟨isWord_ofList rfl, isType_append hprofile.truth hnotNull⟩,
    ⟨isWord_ofList rfl, isType_append hprofile.integer hnotNull⟩, fun _ hf => absurd hf List.not_mem_nil⟩

theorem Lookup.tells {l : Lookup} (hname : IsWord l.name) (hrows : ∀ r ∈ l.rows, r.IsReadable) :
    Tells d (l.text d) (l.clauses d) := by
  have hne : fieldItems d (lookupFields d) ≠ [] := by simp [fieldItems, lookupFields]
  have hinserts := tells_lines fun r hr => tells_insert (d := d) hname (hrows r hr)
  refine ((tells_definition hname hne (tellsItem_fieldItems (isReadable_lookupFields d))).line
    hinserts).of_eq ?_ ?_
  · unfold Lookup.text
    simp only [map_fst_fieldItems, List.cons_append, List.nil_append, lines_cons_cons, String.append_assoc]
  · rw [flatMap_snd_fieldItems, ← List.map_eq_flatMap]
    rfl

/-- A view of which every name is a word. -/
structure Summary.IsReadable (s : Summary) : Prop where
  name : IsWord s.name
  table : IsWord s.table
  fields : ∀ f ∈ s.fields, IsWord f
  some_field : s.fields ≠ []
  counts : ∀ c ∈ s.counts, IsWord c.table ∧ IsWord c.label

/-- What a view selects, with what it says. -/
def Summary.items (d : Dialect) (s : Summary) : List (String × List Clause) :=
  s.fields.map (fun f => ("    m." ++ d.quote f, [.column "m" f])) ++
    s.counts.map fun c => (c.text d, [.count c.table, .source c.table "r", .column "r" parentColumn,
      .column "m" formColumn])

theorem Summary.tells {s : Summary} (h : s.IsReadable) : Tells d (s.text d) s.clauses := by
  have hitems : ∀ e ∈ s.items d, TellsItem d [] e.1 e.2 := by
    intro e he
    rcases List.mem_append.mp he with he | he
    · obtain ⟨f, hf, rfl⟩ := List.mem_map.mp he
      exact tellsItem_column (h.fields f hf)
    · obtain ⟨c, hc, rfl⟩ := List.mem_map.mp he
      exact tellsItem_count (h.counts c hc).1 (h.counts c hc).2
  have hne : s.items d ≠ [] := List.append_ne_nil_of_left_ne_nil (by simpa using h.some_field) _
  have hview : Tells d ("CREATE VIEW " ++ d.table s.name ++ (" AS" ++ "\n" ++ "SELECT" ++ "\n")) [] := by
    have hfirst : Spells d "CREATE VIEW " _ := spells_plain d [.word "CREATE", .word "VIEW"] rfl rfl
    have hlines : Spells d " AS\nSELECT\n" _ := spells_plain d [.word "AS", .word "SELECT"] rfl rfl
    have hselect : Spells d (" AS" ++ "\n" ++ "SELECT" ++ "\n") _ := hlines.of_eq rfl rfl
    refine ⟨_, (hfirst.append (spells_table h.name)).append hselect, fun us => ?_⟩
    cases d <;> rfl
  have hbreak : Tells d "\n" [] := tells_plain d [] rfl rfl rfl
  have hends : EndsToken ("\n" ++ ("FROM " ++ d.table s.table ++ " m;")) :=
    EndsToken.append (endsToken_ofList rfl) _
  have hlist := tells_list hne hitems hends (hbreak.append (tells_source h.table))
  refine (hview.append hlist).of_eq ?_ ?_
  · have htexts : (s.items d).map (·.1) =
        s.fields.map (fun f => "    m." ++ d.quote f) ++ s.counts.map (SectionCount.text d) := by
      rw [Summary.items, List.map_append, List.map_map, List.map_map]
      rfl
    unfold Summary.text
    simp only [htexts, lines, String.intercalate_cons_cons, String.intercalate_singleton,
      String.append_assoc]
  · rw [Summary.items, List.flatMap_append, List.flatMap_map, List.flatMap_map, ← List.map_eq_flatMap]
    rfl

/-- A script of which every name and every type is readable. -/
def Body.IsReadable : Body → Prop
  | .table t => t.IsReadable
  | .lookup l => IsWord l.name ∧ ∀ r ∈ l.rows, r.IsReadable
  | .view s => s.IsReadable

/-- What is read off the text of a script is what the script was rendered from. -/
theorem readClauses_body {b : Body} (h : b.IsReadable) : readClauses d (b.text d) = some (b.clauses d) := by
  cases b with
  | table t => exact (Table.tells h).readClauses
  | lookup l => exact (Lookup.tells h.1 h.2).readClauses
  | view s => exact (Summary.tells h).readClauses

example : readClauses .postgresql "CREATE TABLE \"FROM\" (\"Id\" INT, \"m\" INT DEFAULT 'REFERENCES (');" =
    some [.create "FROM", .define "Id", .define "m"] := by decide +kernel

end

end Formwright.Sql
