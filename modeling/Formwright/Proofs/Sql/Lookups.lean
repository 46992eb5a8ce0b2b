import Formwright.Proofs.Sql.Columns
import Formwright.Proofs.Sql.Tokens

/-
  Lookup tables read back. The options of a column are written as statements, and `readScript` reads
  the statements of a script from its tokens. It finds one table and in it the options of the column in
  the order of their places, whatever their texts hold (`lookupScript_readsBack`): a text is read up to
  the quote that was written behind it, so it cannot end a statement or begin another one.
-/

namespace Formwright.Sql

/-- An option of a column: its texts, whether it is the default, and its place. -/
structure Entry where
  value : String
  displayText : String
  isDefault : Bool
  order : Int
  deriving Repr, DecidableEq

namespace Entry

/-- The option that a choice is when its texts are texts and its place is an integer. -/
def ofChoice? (c : Form.Choice) : Option Entry :=
  match c.value, c.displayText, c.order with
  | .text v, .text t, .int n => some ⟨v, t, c.isDefault.isGiven, n⟩
  | _, _, _ => none

/-- Whether the place of an option has few enough digits to be written. -/
def IsWritable (e : Entry) : Prop := (Nat.toDigits 10 e.order.natAbs).length ≤ maxIntegerDigits

instance (e : Entry) : Decidable e.IsWritable := inferInstanceAs (Decidable (_ ≤ _))

/-- The row of an option. -/
def row (e : Entry) : LookupRow := ⟨e.value, e.displayText, e.isDefault, .int e.order⟩

/-- The row of an option whose place can be written. -/
def written (e : Entry) : Except Fault LookupRow :=
  if e.IsWritable then .ok e.row else .error (.badValue .integerUnwritable)

end Entry

/-! ## The reader -/

inductive Statement where
  | create (table : String)
  | insert (table : String) (e : Entry)
  deriving Repr, DecidableEq

def Token.word? : Token → Option String
  | .word w => some w
  | _ => none

def wordsOf (ts : List Token) : List String := ts.filterMap Token.word?

/-- The tokens in front of a mark and those behind it. -/
def upTo (c : Char) (ts : List Token) : List Token × List Token :=
  (ts.takeWhile (· != .mark c), (ts.dropWhile (· != .mark c)).tail)

/-- The truth value that a dialect spells with a word. -/
def Dialect.truth? (d : Dialect) (w : String) : Option Bool :=
  match d with
  | .postgresql => if w = "TRUE" then some true else if w = "FALSE" then some false else none
  | .sqlServer | .mysql => if w = "1" then some true else if w = "0" then some false else none

/-- The option that is spelt behind the names of the columns. -/
def Entry.ofTokens? (d : Dialect) : List Token → Option Entry
  | [.word "VALUES", .mark '(', .literal v, .mark ',', .literal t, .mark ',', .word b, .mark ',', .word n,
      .mark ')'] => do return ⟨v, t, ← d.truth? b, ← Text.integer? n⟩
  | _ => none

/-- The statement that some tokens spell. A table is named by its last word, behind its schema. -/
def Statement.ofTokens? (d : Dialect) : List Token → Option Statement
  | .word "CREATE" :: .word "TABLE" :: ts => (wordsOf (upTo '(' ts).1).getLast?.map .create
  | .word "INSERT" :: .word "INTO" :: ts => do
    let (table, rest) := upTo '(' ts
    let (columns, rest) := upTo ')' rest
    if wordsOf columns = ["Value", "DisplayText", "IsDefault", "SortOrder"] then
      return .insert (← (wordsOf table).getLast?) (← Entry.ofTokens? d rest)
    else none
  | _ => none

/-- The statements of a script, each with a semicolon behind it. -/
def readScript (d : Dialect) (text : String) : Option (List Statement) := do
  let parts := (← tokens? text).splitOnP (· == .mark ';')
  if parts.getLast? = some [] then parts.dropLast.mapM (Statement.ofTokens? d) else none

/-- A script is read as one table with some options in it, in the order of their places. -/
def ReadsBack (d : Dialect) (s : Script) (es : List Entry) : Prop :=
  ∃ rows, StablySorted Entry.order es rows ∧ readScript d (s.content d) =
    some (.create s.body.creates :: rows.map (.insert s.body.creates))

/-! ## The tokens of a lookup table -/

section
variable (d : Dialect) (table : String) (e : Entry)

/-- The tokens in front of a table name. -/
def openTokens : List Token :=
  match d with
  | .sqlServer => [.mark '[', .word "dbo", .mark ']', .mark '.', .mark '[']
  | .mysql => [.mark '\x60']
  | .postgresql => [.mark '"']

/-- The mark behind a name. -/
def closeMark : Token :=
  match d with
  | .sqlServer => .mark ']'
  | .mysql => .mark '\x60'
  | .postgresql => .mark '"'

def tableTokens : List Token := openTokens d ++ [.word table, closeMark d]

-- the columns as characters, on which reading is decided: the kernel is slow at putting texts together
def quotedChars (name : String) : List Char :=
  d.profile.quoteOpen.toList ++ name.toList ++ d.profile.quoteClose.toList

/-- The columns with their types. -/
def fieldChars : List Char :=
  "\n".toList ++ ",\n".toList.intercalate ((lookupFields d).map fun f =>
    "    ".toList ++ quotedChars d f.name ++ " ".toList ++ f.definition.toList) ++ "\n".toList

def fieldTokens : List Token := (Mode.blank.read (fieldChars d)).1

/-- The names of the columns. -/
def columnChars : List Char :=
  ", ".toList.intercalate ((lookupFields d).map fun f => quotedChars d f.name)

def columnTokens : List Token := (Mode.blank.read (columnChars d)).1

def entryTokens : List Token :=
  [.word "VALUES", .mark '(', .literal e.value, .mark ',', .literal e.displayText, .mark ',',
    .word (if e.isDefault then d.profile.trueWord else d.profile.falseWord), .mark ',',
    .word (Text.decimal e.order), .mark ')']

def createTokens : List Token :=
  .word "CREATE" :: .word "TABLE" :: (tableTokens d table ++ .mark '(' :: (fieldTokens d ++ [.mark ')']))

def insertTokens : List Token :=
  .word "INSERT" :: .word "INTO" :: (tableTokens d table ++
    .mark '(' :: (columnTokens d ++ .mark ')' :: entryTokens d e))

end

section
variable (d : Dialect) {table : String}

theorem isWord_decimal (n : Int) : IsWord (Text.decimal n) := by
  have hdigits : ∀ k : Nat, ∀ c ∈ k.repr.toList, isPart c = true := by
    intro k c hc
    refine isPart_of_isNameChar ?_
    rw [Identifier.isNameChar, Identifier.isWordChar_of_isDigit (Text.isDigit_of_mem_repr c hc)]
    rfl
  cases n with
  | ofNat k => exact ⟨by simp [Text.decimal], List.all_eq_true.mpr (hdigits k)⟩
  | negSucc k =>
    rw [IsWord, Text.toList_decimal_negSucc, List.all_cons, Bool.and_eq_true, List.all_eq_true]
    exact ⟨List.cons_ne_nil _ _, by decide, hdigits (k + 1)⟩

theorem isWord_truth (b : Bool) :
    IsWord (if b then d.profile.trueWord else d.profile.falseWord) := by
  cases d <;> cases b <;> exact isWord_ofList rfl

theorem reads_table (h : IsWord table) :
    Reads (d.table table) (tableTokens d table) := by
  have hopen : Reads (d.profile.schema ++ d.profile.quoteOpen) (openTokens d) := by
    cases d <;> decide +kernel
  have hclose : Reads d.profile.quoteClose [closeMark d] := by cases d <;> exact reads_ofList rfl
  have hends : EndsToken d.profile.quoteClose := by cases d <;> exact endsToken_ofList rfl
  refine (hopen.append (reads_word h hends hclose)).of_eq ?_ rfl
  simp only [Dialect.table, Dialect.quote, String.append_assoc]

/-- The columns are read on their own, and no statement ends within them. -/
theorem read_fieldChars : (Mode.blank.read (fieldChars d)).2 = .blank ∧
    .mark ';' ∉ fieldTokens d := by
  cases d <;> decide +kernel

theorem read_columnChars : (Mode.blank.read (columnChars d)).2 = .blank ∧
    (∀ t ∈ columnTokens d, t ≠ .mark ';' ∧ t ≠ .mark ')') ∧
    wordsOf (columnTokens d) = ["Value", "DisplayText", "IsDefault", "SortOrder"] := by
  cases d <;> decide +kernel

theorem reads_create (h : IsWord table) :
    Reads ("CREATE TABLE " ++ d.table table ++ " (" ++
      ("\n" ++ commaLines ((lookupFields d).map (Field.text d)) ++ "\n") ++ ");")
      (createTokens d table ++ [.mark ';']) := by
  have hchars : ("\n" ++ commaLines ((lookupFields d).map (Field.text d)) ++ "\n").toList =
      fieldChars d := by
    simp [commaLines, fieldChars, quotedChars, Field.text, Dialect.quote, String.toList_intercalate,
      Function.comp_def]
  have hfirst : Reads "CREATE TABLE " [.word "CREATE", .word "TABLE"] := reads_ofList rfl
  have hopen : Reads " (" [.mark '('] := reads_ofList rfl
  have hfields := reads_of_toList hchars (read_fieldChars d).1
  have hclose : Reads ");" [.mark ')', .mark ';'] := reads_ofList rfl
  refine ((((hfirst.append (reads_table d h)).append hopen).append hfields).append hclose).of_eq rfl ?_
  simp only [createTokens, fieldTokens, List.append_assoc, List.cons_append, List.nil_append]

theorem reads_insert (h : IsWord table) (e : Entry) :
    Reads (e.row.text d table) (insertTokens d table e ++ [.mark ';']) := by
  have hchars : (", ".intercalate ((lookupFields d).map fun f => d.quote f.name)).toList =
      columnChars d := by
    simp [columnChars, quotedChars, Dialect.quote, String.toList_intercalate, Function.comp_def]
  have hcomma : Reads ", " [.mark ','] := reads_ofList rfl
  have hcommaEnds : EndsToken ", " := endsToken_ofList rfl
  have hclose : Reads ");" [.mark ')', .mark ';'] := reads_ofList rfl
  have hcloseEnds : EndsToken ");" := endsToken_ofList rfl
  have hfirst : Reads "INSERT INTO " [.word "INSERT", .word "INTO"] := reads_ofList rfl
  have hopen : Reads " (" [.mark '('] := reads_ofList rfl
  have hcolumns := reads_of_toList hchars (read_columnChars d).1
  have hvalues : Reads ") VALUES (" [.mark ')', .word "VALUES", .mark '('] := reads_ofList rfl
  have hvalue := reads_literal e.value hcommaEnds hcomma
  have hdisplay := reads_literal e.displayText hcommaEnds hcomma
  have hdefault := reads_word (isWord_truth d e.isDefault) hcommaEnds hcomma
  have horder := reads_word (isWord_decimal e.order) hcloseEnds hclose
  have hhead := (((hfirst.append (reads_table d h)).append hopen).append hcolumns).append hvalues
  have hrow := ((hvalue.append hdisplay).append hdefault).append horder
  refine (hhead.append hrow).of_eq ?_ ?_
  · have hnumber : (Value.int e.order).display = Text.decimal e.order := by
      simp only [Value.display, Value.shown]
    unfold LookupRow.text
    simp only [Entry.row, hnumber, String.append_assoc]
    rfl
  · simp only [insertTokens, entryTokens, columnTokens, List.append_assoc, List.cons_append,
      List.nil_append]

theorem lines_cons_cons (s s' : String) (ss : List String) :
    lines (s :: s' :: ss) = lines ((s ++ "\n" ++ s') :: ss) := by
  unfold lines
  cases ss with
  | nil => rw [String.intercalate_cons_cons, String.intercalate_singleton, String.intercalate_singleton]
  | cons s'' ss =>
    simp only [String.intercalate_cons_cons, String.append_assoc]

/-- The statements of a lookup table, each up to its semicolon. -/
theorem reads_lookup (h : IsWord table) (rows : List Entry) :
    Reads (Lookup.text d ⟨table, rows.map Entry.row⟩)
      ((createTokens d table :: rows.map (insertTokens d table)).flatMap (· ++ [.mark ';'])) := by
  have hrows : Reads (lines ((rows.map Entry.row).map (LookupRow.text d table)))
      (rows.flatMap fun e => insertTokens d table e ++ [.mark ';']) := by
    rw [List.map_map]
    exact reads_lines fun e _ => reads_insert d h e
  refine ((reads_create d h).line hrows).of_eq ?_ ?_
  · unfold Lookup.text
    simp only [List.cons_append, List.nil_append, lines_cons_cons, String.append_assoc]
  · rw [List.flatMap_cons, List.flatMap_map]

/-! ## The statements that are read -/

theorem upTo_append {c : Char} {ts us : List Token} (h : ∀ t ∈ ts, t ≠ .mark c) :
    upTo c (ts ++ .mark c :: us) = (ts, us) := by
  have hpos : ∀ t ∈ ts, (t != .mark c) = true := fun t ht => bne_iff_ne.mpr (h t ht)
  rw [upTo, List.takeWhile_append_of_pos hpos, List.dropWhile_append_of_pos hpos,
    List.takeWhile_cons_of_neg (by simp), List.dropWhile_cons_of_neg (by simp), List.append_nil]
  rfl

theorem not_mem_tableTokens (table : String) :
    ∀ t ∈ tableTokens d table, t ≠ .mark '(' ∧ t ≠ .mark ';' := by
  cases d <;> simp [tableTokens, openTokens, closeMark]

/-- The last word of a table name is the name without its schema. -/
theorem getLast?_wordsOf_tableTokens (table : String) :
    (wordsOf (tableTokens d table)).getLast? = some table := by
  cases d <;> rfl

theorem truth?_word (b : Bool) :
    d.truth? (if b then d.profile.trueWord else d.profile.falseWord) = some b := by
  cases d <;> cases b <;> decide

theorem ofTokens?_entryTokens (e : Entry) :
    Entry.ofTokens? d (entryTokens d e) = some e := by
  rw [entryTokens, Entry.ofTokens?, truth?_word, Text.integer?_decimal]
  rfl

theorem ofTokens?_createTokens (table : String) :
    Statement.ofTokens? d (createTokens d table) = some (.create table) := by
  rw [createTokens, Statement.ofTokens?, upTo_append fun t ht => (not_mem_tableTokens d table t ht).1,
    getLast?_wordsOf_tableTokens]
  rfl

theorem ofTokens?_insertTokens (table : String) (e : Entry) :
    Statement.ofTokens? d (insertTokens d table e) = some (.insert table e) := by
  obtain ⟨-, hcolumns, hnames⟩ := read_columnChars d
  rw [insertTokens, Statement.ofTokens?, upTo_append fun t ht => (not_mem_tableTokens d table t ht).1]
  simp only [upTo_append fun t ht => (hcolumns t ht).2, hnames, if_true,
    getLast?_wordsOf_tableTokens, ofTokens?_entryTokens]
  rfl

theorem not_mem_createTokens (table : String) : .mark ';' ∉ createTokens d table := by
  have htable : .mark ';' ∉ tableTokens d table := fun h => (not_mem_tableTokens d table _ h).2 rfl
  have hfields := (read_fieldChars d).2
  simp [createTokens, htable, hfields]

theorem not_mem_insertTokens (table : String) (e : Entry) :
    .mark ';' ∉ insertTokens d table e := by
  have htable : .mark ';' ∉ tableTokens d table := fun h => (not_mem_tableTokens d table _ h).2 rfl
  have hcolumns : .mark ';' ∉ columnTokens d := fun h => ((read_columnChars d).2.1 _ h).1 rfl
  simp [insertTokens, entryTokens, htable, hcolumns]

/-- Where no statement holds a semicolon, statements are told apart by the semicolons behind them. -/
theorem splitOnP_statements {sts : List (List Token)} (h : ∀ st ∈ sts, .mark ';' ∉ st) :
    (sts.flatMap (· ++ [.mark ';'])).splitOnP (· == .mark ';') = sts ++ [[]] := by
  induction sts with
  | nil => rfl
  | cons st sts ih =>
    obtain ⟨hst, hsts⟩ := List.forall_mem_cons.mp h
    have hnone : ∀ t ∈ st, (t == Token.mark ';') = false := by
      rintro t ht
      rw [beq_eq_false_iff_ne]
      rintro rfl
      exact hst ht
    rw [List.flatMap_cons, List.append_assoc, List.singleton_append,
      List.splitOnP_append_cons_of_forall_mem hnone _ (beq_self_eq_true _), ih hsts]
    rfl

/-- A lookup table is read as a table and the options that were written, in their order. -/
theorem readScript_lookup (h : IsWord table) (rows : List Entry) :
    readScript d (Lookup.text d ⟨table, rows.map Entry.row⟩) =
      some (.create table :: rows.map (.insert table)) := by
  have hwhole : ∀ st ∈ createTokens d table :: rows.map (insertTokens d table), .mark ';' ∉ st := by
    refine List.forall_mem_cons.mpr ⟨not_mem_createTokens d table, fun st hst => ?_⟩
    obtain ⟨e, -, rfl⟩ := List.mem_map.mp hst
    exact not_mem_insertTokens d table e
  have hrows : (rows.map (insertTokens d table)).mapM (Statement.ofTokens? d) =
      some (rows.map (.insert table)) := by
    clear hwhole
    induction rows with
    | nil => rfl
    | cons e rows ih =>
      rw [List.map_cons, List.mapM_cons, ofTokens?_insertTokens, ih]
      rfl
  rw [readScript, (reads_lookup d h rows).tokens?]
  simp only [Option.bind_eq_bind, Option.bind_some]
  rw [splitOnP_statements hwhole, if_pos List.getLast?_concat, List.dropLast_concat, List.mapM_cons,
    ofTokens?_createTokens, hrows]
  rfl

end

/-! ## The options of a column -/

namespace Entry

theorem ofChoice?_eq_some {c : Form.Choice} {e : Entry} : ofChoice? c = some e ↔
    c.value = .text e.value ∧ c.displayText = .text e.displayText ∧
      c.isDefault.isGiven = e.isDefault ∧ c.order = .int e.order := by
  obtain ⟨v, t, b, n⟩ := c
  obtain ⟨v', t', b', n'⟩ := e
  unfold ofChoice?
  split
  · simp_all
  · rename_i hnone
    simp only [reduceCtorEq, false_iff]
    rintro ⟨rfl, rfl, -, rfl⟩
    exact hnone _ _ _ rfl rfl rfl

/-- What is read off choices and off options alike is the same for a column. -/
theorem map_eq_of_ofChoice? {γ : Type} {p : Form.Choice → γ} {q : Entry → γ}
    (hpq : ∀ c e, ofChoice? c = some e → p c = q e) {cs : List Form.Choice} {es : List Entry}
    (h : cs.map ofChoice? = es.map some) : cs.map p = es.map q := by
  induction cs generalizing es with
  | nil =>
    obtain rfl := List.map_eq_nil_iff.mp h.symm
    rfl
  | cons c cs ih =>
    obtain ⟨e, es, rfl, he, hes⟩ := List.map_eq_cons_iff.mp h.symm
    rw [List.map_cons, List.map_cons, hpq c e he.symm, ih hes.symm]

/-- Whether one option may stand in front of another; what is no option may stand anywhere. -/
def before : Option Entry → Option Entry → Bool
  | some a, some b => decide (a.order ≤ b.order)
  | _, _ => true

/-- The choices of a column can be put in the order of their places, and then they are its options in
this order. -/
theorem exists_sortOn {cs : List Form.Choice} {es : List Entry} (h : cs.map ofChoice? = es.map some) :
    ∃ cs', Value.sortOn (·.order) cs = .ok cs' ∧
      cs'.map ofChoice? = (es.mergeSort fun a b => a.order ≤ b.order).map some := by
  have hplace : ∀ c e, ofChoice? c = some e → c.order = .int e.order :=
    fun c e he => (ofChoice?_eq_some.mp he).2.2.2
  have hcheck : Value.checkOrder (cs.map (·.order)) = .ok () := by
    rw [map_eq_of_ofChoice? (q := fun e => .int e.order) hplace h]
    have hints := Value.checkOrder_int (es.map Entry.order)
    rwa [List.map_map] at hints
  refine ⟨cs.mergeSort fun a b => Value.notAfter a.order b.order, ?_, ?_⟩
  · rw [Value.sortOn, hcheck]
    rfl
  · -- both orders are seen in what the choices are read as
    have hchoices : ∀ a ∈ cs, ∀ b ∈ cs,
        Value.notAfter a.order b.order = before (ofChoice? a) (ofChoice? b) := by
      have hsome : ∀ c ∈ cs, ∃ e, ofChoice? c = some e := by
        intro c hc
        have hmem : ofChoice? c ∈ es.map some := h ▸ List.mem_map_of_mem hc
        obtain ⟨e, -, he⟩ := List.mem_map.mp hmem
        exact ⟨e, he.symm⟩
      intro a ha b hb
      obtain ⟨x, hx⟩ := hsome a ha
      obtain ⟨y, hy⟩ := hsome b hb
      rw [hplace a x hx, hplace b y hy, Value.notAfter_int, hx, hy, before]
    rw [List.map_mergeSort hchoices, h]
    exact (List.map_mergeSort (f := some) fun a _ b _ => rfl).symm

theorem ofChoice_eq_written (c : Form.Choice) (e : Entry) (h : ofChoice? c = some e) :
    LookupRow.ofChoice c = e.written := by
  obtain ⟨hvalue, hdisplay, hdefault, horder⟩ := ofChoice?_eq_some.mp h
  rw [LookupRow.ofChoice, hvalue, hdisplay, horder, hdefault, literalText, ok_bind, literalText,
    ok_bind, writtenOrder, written]
  by_cases hfew : e.IsWritable
  · rw [if_neg (Nat.not_lt.mpr hfew), if_pos hfew]
    rfl
  · rw [if_pos (Nat.not_le.mp hfew), if_neg hfew]
    rfl

theorem mapM_written_eq_ok {es : List Entry} {rows : List LookupRow} :
    es.mapM written = .ok rows ↔ rows = es.map row ∧ ∀ e ∈ es, e.IsWritable := by
  induction es generalizing rows with
  | nil =>
    rw [List.mapM_nil, pure_eq_ok, Except.ok.injEq]
    exact ⟨fun h => ⟨h.symm, fun e he => absurd he List.not_mem_nil⟩, fun h => h.1.symm⟩
  | cons e es ih =>
    rw [mapM_cons_eq_ok, List.forall_mem_cons, List.map_cons]
    constructor
    · rintro ⟨r, rs, hr, hrs, rfl⟩
      obtain ⟨rfl, hes⟩ := ih.mp hrs
      unfold written at hr
      split at hr
      · rename_i hfew
        obtain rfl := Except.ok.inj hr
        exact ⟨rfl, hfew, hes⟩
      · cases hr
    · rintro ⟨rfl, hfew, hes⟩
      exact ⟨e.row, es.map row, if_pos hfew, ih.mpr ⟨rfl, hes⟩, rfl⟩

/-- Choices can be written when the places of the options can. -/
theorem mapM_ofChoice_eq_ok {cs : List Form.Choice} {es : List Entry}
    (h : cs.map ofChoice? = es.map some) {rows : List LookupRow} :
    cs.mapM LookupRow.ofChoice = .ok rows ↔ rows = es.map row ∧ ∀ e ∈ es, e.IsWritable := by
  rw [← mapM_written_eq_ok, mapM_eq_ok, mapM_eq_ok, map_eq_of_ofChoice? ofChoice_eq_written h]

end Entry

section
variable {d : Dialect} {f : Form} {main : String} {c : Form.Column} {es : List Entry}

/-- A lookup table is read back as the options of its column. -/
theorem readsBack_lookupScript (hmain : Identifier.IsName main.toList)
    (hes : c.validValues.map Entry.ofChoice? = es.map some) {k : Nat} {s : Script}
    (h : lookupScript main c k = .ok s) : ReadsBack d s es := by
  obtain ⟨-, column, choices, rows, hcolumn, hchoices, hrows, hbody⟩ := lookupScript_eq_ok h
  obtain ⟨sorted, hsorted, hentries⟩ := Entry.exists_sortOn hes
  obtain rfl := Except.ok.inj (hsorted.symm.trans hchoices)
  obtain ⟨rfl, -⟩ := (Entry.mapM_ofChoice_eq_ok hentries).mp hrows
  have hname : Identifier.IsName (main ++ "_" ++ column ++ "_Lookup").toList := by
    simp only [String.toList_append, Identifier.isName_append]
    exact ⟨⟨⟨hmain, by decide +kernel⟩, Identifier.isName_of_columnNameOf hcolumn⟩, by decide +kernel⟩
  have hword : IsWord (main ++ "_" ++ column ++ "_Lookup") := isWord_of_isName (by simp) hname
  refine ⟨_, stablySorted_mergeSort Entry.order es, ?_⟩
  rw [Script.content, hbody]
  exact readScript_lookup d hword _

theorem exists_lookupScript_iff (hes : c.validValues.map Entry.ofChoice? = es.map some) {k : Nat} :
    (∃ s, lookupScript main c k = .ok s) ↔
      (∃ n, Identifier.columnNameOf c.name = .ok n) ∧ ∀ e ∈ es, e.IsWritable := by
  obtain ⟨sorted, hsorted, hentries⟩ := Entry.exists_sortOn hes
  have hall : (∀ e ∈ es.mergeSort fun a b => a.order ≤ b.order, e.IsWritable) ↔
      ∀ e ∈ es, e.IsWritable := by simp only [List.mem_mergeSort]
  constructor
  · rintro ⟨s, h⟩
    obtain ⟨-, column, choices, rows, hcolumn, hchoices, hrows, -⟩ := lookupScript_eq_ok h
    obtain rfl := Except.ok.inj (hsorted.symm.trans hchoices)
    exact ⟨⟨column, hcolumn⟩, hall.mp ((Entry.mapM_ofChoice_eq_ok hentries).mp hrows).2⟩
  · rintro ⟨⟨column, hcolumn⟩, hwritable⟩
    have hrows := (Entry.mapM_ofChoice_eq_ok hentries).mpr ⟨rfl, hall.mpr hwritable⟩
    rw [lookupScript, hcolumn, ok_bind, hsorted, ok_bind, hrows]
    exact ⟨_, rfl⟩

end

/-- Where the valid values of a column are options, the script of the column is read back as exactly
these options in the order of their places, those of one place in the order they had, whatever their
texts hold. It is there as soon as the column has a name and the places can be written, and it is among
the scripts of the form where these are asked for. -/
theorem lookupScript_readsBack {d : Dialect} {f : Form} {main : String} {c : Form.Column}
    {es : List Entry} (hmain : Identifier.tableNameOf f.name = .ok main)
    (hes : c.validValues.map Entry.ofChoice? = es.map some) :
    (∀ k s, lookupScript main c k = .ok s → ReadsBack d s es) ∧
    (∀ k, (∃ s, lookupScript main c k = .ok s) ↔
      (∃ n, Identifier.columnNameOf c.name = .ok n) ∧ ∀ e ∈ es, e.IsWritable) ∧
    ∀ o ss, scripts d f main o = .ok ss → o.validationRules.isGiven = true → c ∈ f.columns →
      c.validValues ≠ [] → ∃ s ∈ ss, ∃ k, lookupScript main c k = .ok s := by
  refine ⟨fun k s h => readsBack_lookupScript (Identifier.isName_of_tableNameOf hmain) hes h,
    fun k => exists_lookupScript_iff hes, fun o ss hss hgiven hc hvalues => ?_⟩
  obtain ⟨secs, table, tables, lookups, summary, hmade⟩ := scripts_eq_ok.mp hss
  have hchoice : c ∈ choiceColumns f o := mem_choiceColumns.mpr ⟨hgiven, hc, hvalues⟩
  obtain ⟨s, hs, hscript⟩ := exists_lookupScript hmade.lookupTables hchoice
  exact ⟨s, hmade.mem_iff.mpr (Or.inr (Or.inr (Or.inl hs))), hscript⟩

/-- Options whose texts hold quotes, brackets, semicolons and line breaks; two have one place. -/
def quotedEntries : List Entry :=
  [⟨"it's; DROP TABLE F;", "a\n'';b", true, 1⟩, ⟨"')", "('b', 'c');", false, -2⟩, ⟨"", "'", false, 1⟩]

/-- A column with these options. -/
def quotedColumn : Form.Column :=
  { textColumn "Reason" with
    validValues := quotedEntries.map fun e =>
      ⟨.text e.value, .text e.displayText, .bool e.isDefault, .int e.order⟩ }

theorem lookupScript_readsBack_quoted : Identifier.tableNameOf (formOf [quotedColumn]).name = .ok "F" ∧
    quotedColumn.validValues.map Entry.ofChoice? = quotedEntries.map some ∧
    ∃ s, lookupScript "F" quotedColumn 50 = .ok s ∧ ReadsBack .postgresql s quotedEntries := by
  have hname : Identifier.tableName "F" = "F" := by decide +kernel
  have hmain : Identifier.tableNameOf (formOf [quotedColumn]).name = .ok "F" :=
    (Identifier.tableNameOf_text "F").trans (congrArg Except.ok hname)
  have hes : quotedColumn.validValues.map Entry.ofChoice? = quotedEntries.map some := rfl
  obtain ⟨hreads, hexists, -⟩ := lookupScript_readsBack (d := .postgresql) hmain hes
  have hwritable : ∀ e ∈ quotedEntries, e.IsWritable := by decide +kernel
  obtain ⟨s, hs⟩ := (hexists 50).mpr ⟨⟨_, Identifier.columnNameOf_text "Reason"⟩, hwritable⟩
  exact ⟨hmain, hes, s, hs, hreads 50 s hs⟩

end Formwright.Sql
