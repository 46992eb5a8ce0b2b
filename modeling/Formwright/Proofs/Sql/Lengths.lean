import Formwright.Proofs.Identifier.Shape
import Formwright.Proofs.Sql.Names
import Formwright.Proofs.Sql.Ordering

/-
  How long the names of tables get. The tables that scripts create are the main table, those of sections
  and the lookup tables of columns with valid values (`mem_tableNames_iff`). All their names are made of
  letters, digits and underscores, a letter first (`IsTable.isName`, `IsTable.startsWithLetter`). The limit
  for the name of a table is kept by the parts that a name is put together from, and not looked at again
  after that: whether the name of a section or column leaves room for the name of the form decides whether
  the limit is kept (`product_tables_fit_iff`).
-/

namespace Formwright.Sql

/-- The names of the tables that scripts create. -/
def tableNames (ss : List Script) : List String := ss.filterMap (·.body.table?)

/-- The names of the tables of a form. -/
inductive IsTable (main : String) (f : Form) (o : Options) : String → Prop
  | main : IsTable main f o main
  | ofSection {c : Form.Column} {t : String} (hc : c ∈ f.columns) (hin : isInSection c = true)
      (ht : Identifier.tableNameOf c.repeatingSection = .ok t) : IsTable main f o (sectionObject main t)
  | ofChoices {c : Form.Column} {n : String} (hc : c ∈ choiceColumns f o)
      (hn : Identifier.columnNameOf c.name = .ok n) : IsTable main f o (lookupObject main n)

/-! ## The tables of a form -/

section
variable {d : Dialect} {f : Form} {main : String} {o : Options} {s : Script} {ss : List Script}

theorem mem_tableNames {x : String} : x ∈ tableNames ss ↔ ∃ s ∈ ss, s.body.table? = some x :=
  List.mem_filterMap

theorem table?_of_mainScript (h : mainScript d f main = .ok s) : s.body.table? = some main := by
  obtain ⟨-, fields, -, hbody⟩ := mainScript_eq_ok h
  rw [hbody]
  rfl

theorem table?_of_sectionScript {sec : SectionColumns} {k : Nat}
    (h : sectionScript d main sec k = .ok s) : ∃ t,
      Identifier.tableNameOf sec.name = .ok t ∧ s.body.table? = some (sectionObject main t) := by
  obtain ⟨-, table, fields, htable, -, hbody⟩ := sectionScript_eq_ok h
  rw [sectionTableName_eq] at htable
  obtain ⟨t, ht, rfl⟩ := map_eq_ok.mp htable
  exact ⟨t, ht, by rw [hbody]; rfl⟩

theorem table?_of_lookupScript {c : Form.Column} {k : Nat} (h : lookupScript main c k = .ok s) : ∃ n,
    Identifier.columnNameOf c.name = .ok n ∧ s.body.table? = some (lookupObject main n) := by
  obtain ⟨-, n, choices, rows, hn, -, -, hbody⟩ := lookupScript_eq_ok h
  exact ⟨n, hn, by rw [hbody]; rfl⟩

theorem table?_of_summaryScript {secs : List SectionColumns} (h : summaryScript f main secs = .ok s) :
    s.body.table? = none := by
  obtain ⟨-, names, counts, -, -, hbody⟩ := summaryScript_eq_ok h
  rw [hbody]
  rfl

/-- Scripts create the tables of their form and no others. -/
theorem mem_tableNames_iff (h : scripts d f main o = .ok ss) {x : String} :
    x ∈ tableNames ss ↔ IsTable main f o x := by
  obtain ⟨secs, table, tables, lookups, summary, hmade⟩ := scripts_eq_ok.mp h
  obtain ⟨ts, hts, -, hmem⟩ := hmade.exists_sectionNames
  rw [mem_tableNames]
  constructor
  · rintro ⟨s, hs, hx⟩
    rcases hmade.mem_iff.mp hs with rfl | hs | hs | rfl
    · obtain rfl := Option.some.inj ((table?_of_mainScript hmade.mainTable).symm.trans hx)
      exact .main
    · obtain ⟨sec, hsec, k, hscript⟩ := hmade.exists_section hs
      obtain ⟨t, ht, htable⟩ := table?_of_sectionScript hscript
      obtain rfl := Option.some.inj (htable.symm.trans hx)
      obtain ⟨t', ht', hmem'⟩ := mem_of_mapM_eq_ok hts hsec
      obtain rfl := Except.ok.inj (ht.symm.trans ht')
      obtain ⟨c, hc, hin, hct⟩ := (hmem t).mp hmem'
      exact .ofSection hc hin hct
    · have hlookups := hmade.lookupTables
      rw [lookupScripts_eq] at hlookups
      obtain ⟨p, hp, hscript⟩ := exists_of_mem_mapM_eq_ok hlookups hs
      obtain ⟨n, hn, htable⟩ := table?_of_lookupScript hscript
      obtain rfl := Option.some.inj (htable.symm.trans hx)
      exact .ofChoices (List.fst_mem_of_mem_zipIdx hp) hn
    · cases (table?_of_summaryScript hmade.view).symm.trans hx
  · rintro (_ | ⟨hc, hin, ht⟩ | ⟨hc, hn⟩)
    · exact ⟨table, hmade.mem_iff.mpr (.inl rfl), table?_of_mainScript hmade.mainTable⟩
    · obtain ⟨sec, hsec, hst⟩ := exists_of_mem_mapM_eq_ok hts ((hmem _).mpr ⟨_, hc, hin, ht⟩)
      obtain ⟨s, hs, k, hscript⟩ := hmade.exists_table hsec
      obtain ⟨t, ht', htable⟩ := table?_of_sectionScript hscript
      obtain rfl := Except.ok.inj (ht'.symm.trans hst)
      exact ⟨s, hmade.mem_iff.mpr (.inr (.inl hs)), htable⟩
    · obtain ⟨s, hs, k, hscript⟩ := exists_lookupScript hmade.lookupTables hc
      obtain ⟨n, hn', htable⟩ := table?_of_lookupScript hscript
      obtain rfl := Except.ok.inj (hn'.symm.trans hn)
      exact ⟨s, hmade.mem_iff.mpr (.inr (.inr (.inl hs))), htable⟩

end

/-! ## Their names -/

theorem length_sectionObject (main t : String) :
    (sectionObject main t).length = main.length + 1 + t.length := by
  rw [sectionObject, String.length_append, String.length_append]
  rfl

theorem length_lookupObject (main n : String) :
    (lookupObject main n).length = main.length + 1 + n.length + 7 := by
  rw [lookupObject, String.length_append, String.length_append, String.length_append]
  rfl

section
variable {main : String} {f : Form} {o : Options}

open Identifier in
theorem IsTable.isName {x : String} (h : IsTable main f o x) (hmain : IsName main.toList) :
    IsName x.toList := by
  cases h with
  | main => exact hmain
  | @ofSection c t hc hin ht =>
    rw [sectionObject, String.toList_append, String.toList_append, isName_append, isName_append]
    exact ⟨⟨hmain, by decide⟩, isName_of_tableNameOf ht⟩
  | @ofChoices c n hc hn =>
    rw [lookupObject, String.toList_append, String.toList_append, String.toList_append, isName_append,
      isName_append, isName_append]
    exact ⟨⟨⟨hmain, by decide⟩, isName_of_columnNameOf hn⟩, by decide⟩

open Identifier in
/-- The name of every table starts as that of the main table does. -/
theorem IsTable.startsWithLetter {x : String} (h : IsTable main f o x)
    (hmain : StartsWithLetter main.toList) : StartsWithLetter x.toList := by
  cases h with
  | main => exact hmain
  | ofSection hc hin ht =>
    rw [sectionObject, String.append_assoc, String.toList_append]
    exact hmain.append _
  | ofChoices hc hn =>
    rw [lookupObject, String.append_assoc, String.append_assoc, String.toList_append]
    exact hmain.append _

theorem IsTable.length_le {x : String} (h : IsTable main f o x)
    (hmain : main.length ≤ Identifier.maxTableName) : x.length ≤ 200 := by
  have hlimits : Identifier.maxTableName = 64 ∧ Identifier.maxColumnName = 128 := ⟨rfl, rfl⟩
  cases h with
  | main => omega
  | ofSection hc hin ht =>
    obtain ⟨name, rfl⟩ := Identifier.exists_of_tableNameOf ht
    have hbound := Identifier.length_tableName_le name
    rw [length_sectionObject]
    omega
  | ofChoices hc hn =>
    obtain ⟨name, rfl⟩ := Identifier.exists_of_columnNameOf hn
    have hbound := Identifier.length_columnName_le name
    rw [length_lookupObject]
    omega

variable (main f o) in
/-- Sections and columns whose names leave room for the name of the main table. -/
structure TablesFit : Prop where
  sections : ∀ c ∈ f.columns, isInSection c = true → ∀ t,
    Identifier.tableNameOf c.repeatingSection = .ok t → main.length + 1 + t.length ≤ 64
  choices : ∀ c ∈ choiceColumns f o, ∀ n,
    Identifier.columnNameOf c.name = .ok n → main.length + 1 + n.length + 7 ≤ 64

theorem forall_isTable_length_le_iff (hmain : main.length ≤ Identifier.maxTableName) :
    (∀ x, IsTable main f o x → x.length ≤ Identifier.maxTableName) ↔ TablesFit main f o := by
  constructor
  · intro h
    constructor
    · intro c hc hin t ht
      rw [← length_sectionObject]
      exact h _ (.ofSection hc hin ht)
    · intro c hc n hn
      rw [← length_lookupObject]
      exact h _ (.ofChoices hc hn)
  · rintro h x (_ | ⟨hc, hin, ht⟩ | ⟨hc, hn⟩)
    · exact hmain
    · rw [length_sectionObject]
      exact h.sections _ hc hin _ ht
    · rw [length_lookupObject]
      exact h.choices _ hc _ hn

end

/-- The tables that are created for a form: all their names are made of letters, digits and underscores,
a letter first, and that of the main table keeps the limit. The others do exactly when the names of sections
and columns leave room for it; without that they have up to 200 characters. -/
theorem product_tables_fit_iff {d : Dialect} {f : Form} {o : Options} {p : Product}
    (h : product d f o = .ok p) : ∃ main ss,
      Identifier.tableNameOf f.name = .ok main ∧ scripts d f main o = .ok ss ∧
      p.output = "\n\n".intercalate (ss.map (·.output d o)) ++ "\n" ∧
      main ∈ tableNames ss ∧ main.length ≤ Identifier.maxTableName ∧
      (∀ x ∈ tableNames ss, Identifier.IsName x.toList ∧ Identifier.StartsWithLetter x.toList ∧
        x.length ≤ 200) ∧
      ((∀ x ∈ tableNames ss, x.length ≤ Identifier.maxTableName) ↔ TablesFit main f o) := by
  obtain ⟨main, ss, hmain, hss, -, houtput⟩ := product_eq_ok h
  obtain ⟨name, rfl⟩ := Identifier.exists_of_tableNameOf hmain
  have hlength := Identifier.length_tableName_le name
  have hstart := (Identifier.isIdentifier_tableName name).head
  refine ⟨_, ss, hmain, hss, houtput, (mem_tableNames_iff hss).mpr .main, hlength, fun x hx => ?_, ?_⟩
  · have htable := (mem_tableNames_iff hss).mp hx
    exact ⟨htable.isName (Identifier.isName_tableName name), htable.startsWithLetter hstart,
      htable.length_le hlength⟩
  · simp only [mem_tableNames_iff hss]
    exact forall_isTable_length_le_iff hlength

theorem tablesFit_twoChoices_iff {a b : String} : TablesFit "F" (twoChoices a b) {} ↔
    (Identifier.columnName a).length ≤ 55 ∧ (Identifier.columnName b).length ≤ 55 := by
  have hchoices : choiceColumns (twoChoices a b) {} = [choiceColumn a, choiceColumn b] := rfl
  have hname : ∀ n, Identifier.columnNameOf (choiceColumn n).name = .ok (Identifier.columnName n) :=
    Identifier.columnNameOf_text
  have hmain : "F".length = 1 := rfl
  constructor
  · intro h
    have ha := h.choices (choiceColumn a) (hchoices ▸ List.mem_cons_self) _ (hname a)
    have hb := h.choices (choiceColumn b)
      (hchoices ▸ List.mem_cons_of_mem _ List.mem_cons_self) _ (hname b)
    omega
  · rintro ⟨ha, hb⟩
    constructor
    · intro c hc hin
      have hplain : ∀ c ∈ (twoChoices a b).columns, isInSection c = false :=
        List.forall_mem_cons.mpr ⟨rfl, List.forall_mem_singleton.mpr rfl⟩
      cases (hplain c hc).symm.trans hin
    · intro c hc n hn
      rw [hchoices, List.mem_cons, List.mem_singleton] at hc
      rcases hc with rfl | rfl
      · obtain rfl := Except.ok.inj ((hname a).symm.trans hn)
        omega
      · obtain rfl := Except.ok.inj ((hname b).symm.trans hn)
        omega

/-- The tables of two columns with short names. -/
theorem product_tables_fit_sizes : ∃ p, product .mysql (twoChoices "Size" "Colour") {} = .ok p ∧
    ∃ ss, scripts .mysql (twoChoices "Size" "Colour") "F" {} = .ok ss ∧
      ∀ x ∈ tableNames ss, x.length ≤ Identifier.maxTableName := by
  obtain ⟨p, hp⟩ := exists_product_twoChoices .mysql "Size" "Colour"
  obtain ⟨main, ss, hmain, hss, -, -, -, -, hfit⟩ := product_tables_fit_iff hp
  obtain rfl := Except.ok.inj (hmain.symm.trans (tableNameOf_twoChoices "Size" "Colour"))
  exact ⟨p, hp, ss, hss, hfit.mpr (tablesFit_twoChoices_iff.mpr (by decide +kernel))⟩

/-- The name of a column that is a question. -/
def question : String := "Reason for the travel and the approval of your line manager"

/-- What stands around the name of a column makes the name of its lookup table longer than the limit. -/
theorem product_tables_do_not_fit : ∃ p ss,
    product .mysql (twoChoices "Size" question) {} = .ok p ∧
    scripts .mysql (twoChoices "Size" question) "F" {} = .ok ss ∧
    ∃ x ∈ tableNames ss, Identifier.maxTableName < x.length := by
  obtain ⟨p, hp⟩ := exists_product_twoChoices .mysql "Size" question
  obtain ⟨main, ss, hmain, hss, -⟩ := product_eq_ok hp
  obtain rfl := Except.ok.inj (hmain.symm.trans (tableNameOf_twoChoices "Size" question))
  have hchoice : choiceColumn question ∈ choiceColumns (twoChoices "Size" question) {} :=
    List.mem_cons_of_mem _ List.mem_cons_self
  have htable : IsTable "F" (twoChoices "Size" question) {}
      (lookupObject "F" (Identifier.columnName question)) :=
    .ofChoices hchoice (Identifier.columnNameOf_text question)
  have hlength : (Identifier.columnName question).length = 59 := by decide +kernel
  refine ⟨p, ss, hp, hss, _, (mem_tableNames_iff hss).mpr htable, ?_⟩
  rw [length_lookupObject, hlength]
  decide

end Formwright.Sql
