import Formwright.Proofs.Distinct
import Formwright.Proofs.Sql.Ordering

/-
  The columns of the tables and of the summary view. Of the data columns of one table that become one
  name only the first is kept. They are not compared with the columns that a table has anyway, nor in
  the view with the counts of the sections, so no column name repeats exactly when no data column is
  named like one of these (`columns_nodup_iff`). Every data column that does not repeat has a column in
  the main table, and every one in a repeating section has one in the table of that section; one that
  repeats without a section is left out (`kept_iff`).
-/

namespace Formwright.Sql

/-- The names of the columns of what a script creates, in their order. -/
def Body.columns (d : Dialect) : Body → List String
  | .table t => t.fields.map (·.name)
  | .lookup _ => (lookupFields d).map (·.name)
  | .view v => v.fields ++ v.counts.map (·.label)

/-! ## Data columns as fields -/

section
variable {d : Dialect} {cs : List Form.Column} {fields : List Field}

/-- The fields have the names of the columns, each name once. -/
theorem fieldsOf_eq_ok (h : fieldsOf d cs = .ok fields) : (fields.map (·.name)).Nodup ∧
    (∀ c ∈ cs, ∃ n ∈ fields.map (·.name), Identifier.columnNameOf c.name = .ok n) ∧
    ∀ n ∈ fields.map (·.name), ∃ c ∈ cs, Identifier.columnNameOf c.name = .ok n := by
  obtain ⟨all, hall, h⟩ := bind_eq_ok.mp h
  obtain rfl := Except.ok.inj h
  have hnone : (([] : List Field).map Field.name).Nodup := List.nodup_nil
  obtain ⟨hnodup, hmem⟩ := nodup_foldl_keepFirst Field.name all hnone
  refine ⟨hnodup, fun c hc => ?_, fun n hn => ?_⟩
  · obtain ⟨x, hfield, hx⟩ := mem_of_mapM_eq_ok hall hc
    obtain ⟨n, hn, hfield⟩ := bind_eq_ok.mp hfield
    obtain rfl := Except.ok.inj hfield
    exact ⟨n, (hmem n).mpr (Or.inr (List.mem_map.mpr ⟨_, hx, rfl⟩)), hn⟩
  · rcases (hmem n).mp hn with hn | hn
    · cases hn
    · obtain ⟨x, hx, rfl⟩ := List.mem_map.mp hn
      obtain ⟨c, hc, hfield⟩ := exists_of_mem_mapM_eq_ok hall hx
      obtain ⟨n, hcn, hfield⟩ := bind_eq_ok.mp hfield
      obtain rfl := Except.ok.inj hfield
      exact ⟨c, hc, hcn⟩

/-- Fields behind others repeat no name when none of their columns has one of those. -/
theorem nodup_append_fields_iff (h : fieldsOf d cs = .ok fields) {before : List Field}
    (hbefore : (before.map (·.name)).Nodup) : ((before ++ fields).map (·.name)).Nodup ↔
      ∀ c ∈ cs, ∀ n, Identifier.columnNameOf c.name = .ok n → n ∉ before.map (·.name) := by
  obtain ⟨hnodup, hnamed, hfrom⟩ := fieldsOf_eq_ok h
  rw [List.map_append, List.nodup_append]
  constructor
  · rintro ⟨-, -, hdisjoint⟩ c hc n hn hold
    obtain ⟨m, hm, hcm⟩ := hnamed c hc
    exact hdisjoint n hold m hm (Except.ok.inj (hn.symm.trans hcm))
  · refine fun hfree => ⟨hbefore, hnodup, ?_⟩
    rintro n hold m hm rfl
    obtain ⟨c, hc, hn⟩ := hfrom n hm
    exact hfree c hc n hn hold

end

/-! ## Columns that repeat no name -/

/-- No data column is named like a column that is there without it: one that every table of its kind
has, or a count in the view that shows it. -/
structure NamesFree (d : Dialect) (f : Form) : Prop where
  plain : ∀ c ∈ plainColumns f, ∀ n, Identifier.columnNameOf c.name = .ok n →
    n ∉ (systemFields d).map (·.name)
  repeating : ∀ c ∈ f.columns, isInSection c = true → ∀ n, Identifier.columnNameOf c.name = .ok n →
    n ∉ (sectionFields d).map (·.name)
  counted : ∀ c ∈ (plainColumns f).take maxSummaryColumns, ∀ n,
    Identifier.columnNameOf c.name = .ok n → ∀ e ∈ f.columns, isInSection e = true → ∀ t,
      Identifier.tableNameOf e.repeatingSection = .ok t → n ≠ t ++ "Count"

section
variable {d : Dialect} {f : Form} {main : String} {o : Options} {secs : List SectionColumns}
  {table : Script} {tables lookups : List Script} {summary : Script} {ss : List Script}

theorem nodup_systemFields (d : Dialect) : ((systemFields d).map (·.name)).Nodup := by
  cases d <;> decide +kernel

theorem nodup_sectionFields (d : Dialect) : ((sectionFields d).map (·.name)).Nodup := by
  cases d <;> decide +kernel

theorem nodup_lookupFields (d : Dialect) : ((lookupFields d).map (·.name)).Nodup := by
  cases d <;> decide +kernel

/-- The view has its own columns from the main table. -/
theorem mem_systemFields_of_mem_summaryFields (d : Dialect) :
    ∀ n ∈ summaryFields, n ∈ (systemFields d).map (·.name) := by
  cases d <;> decide +kernel

theorem SectionCount.ofSection_eq (main : String) (sec : SectionColumns) :
    SectionCount.ofSection main sec =
      (fun t => ⟨main ++ "_" ++ t, t ++ "Count"⟩) <$> Identifier.tableNameOf sec.name := by
  rw [SectionCount.ofSection, sectionTableName]
  cases Identifier.tableNameOf sec.name <;> rfl

/-- A count is never labelled like one of the columns that every view shows. -/
theorem not_mem_summaryFields (t : String) : t ++ "Count" ∉ summaryFields := by
  intro h
  have hlast : ∀ n ∈ summaryFields, n.toList.getLast? ≠ some 't' := by decide +kernel
  refine hlast _ h ?_
  rw [String.toList_append, List.getLast?_append]
  rfl

namespace Made

theorem nodup_main_iff (hmade : Made d f main o secs table tables lookups summary ss) :
    (table.body.columns d).Nodup ↔ ∀ c ∈ plainColumns f, ∀ n,
      Identifier.columnNameOf c.name = .ok n → n ∉ (systemFields d).map (·.name) := by
  obtain ⟨-, fields, hfields, hbody⟩ := mainScript_eq_ok hmade.mainTable
  rw [hbody]
  exact nodup_append_fields_iff hfields (nodup_systemFields d)

theorem nodup_tables_iff (hmade : Made d f main o secs table tables lookups summary ss) :
    (∀ s ∈ tables, (s.body.columns d).Nodup) ↔ ∀ c ∈ f.columns, isInSection c = true → ∀ n,
      Identifier.columnNameOf c.name = .ok n → n ∉ (sectionFields d).map (·.name) := by
  have hone : ∀ {s sec k}, sectionScript d main sec k = .ok s → ((s.body.columns d).Nodup ↔
      ∀ c ∈ sec.columns, ∀ n, Identifier.columnNameOf c.name = .ok n →
        n ∉ (sectionFields d).map (·.name)) := by
    intro s sec k hs
    obtain ⟨-, name, fields, -, hfields, hbody⟩ := sectionScript_eq_ok hs
    rw [hbody]
    exact nodup_append_fields_iff hfields (nodup_sectionFields d)
  constructor
  · intro h c hc hin
    obtain ⟨sec, hsec, hmem⟩ := hmade.mem_section_iff.mpr ⟨hc, hin⟩
    obtain ⟨s, hs, k, hscript⟩ := hmade.exists_table hsec
    exact (hone hscript).mp (h s hs) c hmem
  · intro h s hs
    obtain ⟨sec, hsec, k, hscript⟩ := hmade.exists_section hs
    refine (hone hscript).mpr fun c hc => ?_
    obtain ⟨hmem, hin⟩ := hmade.mem_section_iff.mp ⟨sec, hsec, hc⟩
    exact h c hmem hin

/-- The labels of the view tell the sections apart, and they are made of the names that columns give
to their sections. -/
theorem labels (hmade : Made d f main o secs table tables lookups summary ss)
    {counts : List SectionCount} (hcounts : secs.mapM (SectionCount.ofSection main) = .ok counts) :
    (counts.map (·.label)).Nodup ∧ ∀ l, l ∈ counts.map (·.label) ↔ ∃ e ∈ f.columns,
      isInSection e = true ∧ ∃ t, Identifier.tableNameOf e.repeatingSection = .ok t ∧
        l = t ++ "Count" := by
  obtain ⟨ts, hts, hnodup, hmem⟩ := hmade.exists_sectionNames
  rw [funext (SectionCount.ofSection_eq main)] at hcounts
  obtain ⟨ts', hts', rfl⟩ := mapM_map_result_eq_ok.mp hcounts
  obtain rfl := Except.ok.inj (hts.symm.trans hts')
  have hinj : ∀ t t', t ++ "Count" = t' ++ "Count" → t = t' := fun t t' => (String.append_left_inj _).mp
  rw [List.map_map]
  refine ⟨(nodup_map_iff hinj).mpr hnodup, fun l => ?_⟩
  rw [List.mem_map]
  constructor
  · rintro ⟨t, ht, rfl⟩
    obtain ⟨e, he, hin, het⟩ := (hmem t).mp ht
    exact ⟨e, he, hin, t, het, rfl⟩
  · rintro ⟨e, he, hin, t, ht, rfl⟩
    exact ⟨t, (hmem t).mpr ⟨e, he, hin, ht⟩, rfl⟩

/-- The view repeats no name when no data column that it shows is named like one of its own columns
or like a count. -/
theorem nodup_summary_iff (hmade : Made d f main o secs table tables lookups summary ss) :
    (summary.body.columns d).Nodup ↔
      ∀ c ∈ (plainColumns f).take maxSummaryColumns, ∀ n, Identifier.columnNameOf c.name = .ok n →
        n ∉ summaryFields ∧ ∀ e ∈ f.columns, isInSection e = true → ∀ t,
          Identifier.tableNameOf e.repeatingSection = .ok t → n ≠ t ++ "Count" := by
  obtain ⟨-, names, counts, hnames, hcounts, hbody⟩ := summaryScript_eq_ok hmade.view
  obtain ⟨hnodup, hlabel⟩ := hmade.labels hcounts
  have hown : summaryFields.Nodup := by decide +kernel
  rw [hbody]
  show (summaryFields ++ names.eraseDups ++ counts.map (·.label)).Nodup ↔ _
  rw [List.nodup_append, List.nodup_append]
  constructor
  · rintro ⟨⟨-, -, hfields⟩, -, hlabels⟩ c hc n hn
    obtain ⟨m, hm, hshown⟩ := mem_of_mapM_eq_ok hnames hc
    obtain rfl := Except.ok.inj (hn.symm.trans hm)
    have hmem := List.mem_eraseDups.mpr hshown
    refine ⟨fun hold => hfields n hold n hmem rfl, fun e he hin t ht heq => ?_⟩
    exact hlabels n (List.mem_append_right _ hmem) n ((hlabel n).mpr ⟨e, he, hin, t, ht, heq⟩) rfl
  · refine fun h => ⟨⟨hown, nodup_eraseDups names, ?_⟩, hnodup, ?_⟩
    · rintro n hold m hm rfl
      obtain ⟨c, hc, hn⟩ := exists_of_mem_mapM_eq_ok hnames (List.mem_eraseDups.mp hm)
      exact (h c hc n hn).1 hold
    · rintro n hn l hl rfl
      obtain ⟨e, he, hin, t, ht, heq⟩ := (hlabel n).mp hl
      rcases List.mem_append.mp hn with hn | hn
      · exact not_mem_summaryFields t (heq ▸ hn)
      · obtain ⟨c, hc, hn⟩ := exists_of_mem_mapM_eq_ok hnames (List.mem_eraseDups.mp hn)
        exact (h c hc n hn).2 e he hin t ht heq

theorem nodup_columns_iff (hmade : Made d f main o secs table tables lookups summary ss) :
    (∀ s ∈ ss, (s.body.columns d).Nodup) ↔ NamesFree d f := by
  simp only [hmade.mem_iff]
  constructor
  · intro h
    refine ⟨hmade.nodup_main_iff.mp (h _ (Or.inl rfl)),
      hmade.nodup_tables_iff.mp fun s hs => h s (Or.inr (Or.inl hs)), fun c hc n hn => ?_⟩
    exact (hmade.nodup_summary_iff.mp (h _ (Or.inr (Or.inr (Or.inr rfl)))) c hc n hn).2
  · rintro h s (rfl | hs | hs | rfl)
    · exact hmade.nodup_main_iff.mpr h.plain
    · exact hmade.nodup_tables_iff.mpr h.repeating s hs
    · obtain ⟨l, hbody⟩ := hmade.exists_of_mem_lookups hs
      rw [hbody]
      exact nodup_lookupFields d
    · refine hmade.nodup_summary_iff.mpr fun c hc n hn => ⟨fun hold => ?_, h.counted c hc n hn⟩
      exact h.plain c (List.mem_of_mem_take hc) n hn (mem_systemFields_of_mem_summaryFields d n hold)

end Made

end

/-- No table and no view repeats the name of a column exactly when the names of the data columns are
free: with the names of the columns that are there anyway they are never compared. -/
theorem columns_nodup_iff {d : Dialect} {f : Form} {main : String} {o : Options} {ss : List Script}
    (h : scripts d f main o = .ok ss) : (∀ s ∈ ss, (s.body.columns d).Nodup) ↔ NamesFree d f := by
  obtain ⟨secs, table, tables, lookups, summary, hmade⟩ := scripts_eq_ok.mp h
  exact hmade.nodup_columns_iff

/-- A column that holds texts and does not repeat. -/
def textColumn (name : String) : Form.Column where
  name := .text name
  displayName := .text name
  type := .textField
  validValues := []
  isRepeating := .bool false
  repeatingSection := .null
  isConditional := .bool false
  conditionalOnField := .null
  defaultValue := .null

/-- A form with some columns and nothing else. -/
def formOf (cs : List Form.Column) : Form where
  id := .text "F"
  name := .text "F"
  formType := .null
  views := []
  columns := cs
  dynamicSections := []
  metadata := {}
  sourceWarnings := []

/-- Two columns that become one name, and a column of a section. -/
theorem columns_nodup_iff_oneName : ∃ ss, scripts .sqlServer
      (formOf [textColumn "First Name", textColumn "First_Name", sectionColumn "Items"]) "Main" {} =
        .ok ss ∧ ((∀ s ∈ ss, (s.body.columns .sqlServer).Nodup) ↔ NamesFree .sqlServer
      (formOf [textColumn "First Name", textColumn "First_Name", sectionColumn "Items"])) := by
  have hss : ∃ ss, scripts .sqlServer
      (formOf [textColumn "First Name", textColumn "First_Name", sectionColumn "Items"]) "Main" {} =
        .ok ss := ⟨_, rfl⟩
  obtain ⟨ss, hss⟩ := hss
  exact ⟨ss, hss, columns_nodup_iff hss⟩

/-- A data column with the name of the column for the state of a form: the main table has two
columns of that name. -/
theorem columns_not_nodup : ∃ ss, scripts .sqlServer (formOf [textColumn "Status"]) "Main" {} = .ok ss ∧
    ∃ s ∈ ss, ¬ (s.body.columns .sqlServer).Nodup := by
  have hss : ∃ ss, scripts .sqlServer (formOf [textColumn "Status"]) "Main" {} = .ok ss := ⟨_, rfl⟩
  obtain ⟨ss, hss⟩ := hss
  refine ⟨ss, hss, ?_⟩
  obtain ⟨secs, table, tables, lookups, summary, hmade⟩ := scripts_eq_ok.mp hss
  refine ⟨table, hmade.mem_iff.mpr (Or.inl rfl), fun hnodup => ?_⟩
  refine hmade.nodup_main_iff.mp hnodup (textColumn "Status") List.mem_cons_self _ rfl ?_
  decide +kernel

/-! ## Columns that are kept -/

/-- A table is created that has a column of a given name. -/
def Stores (ss : List Script) (table : String) (parent : Option String) (n : String) : Prop :=
  ∃ s ∈ ss, ∃ t, s.body = .table t ∧ t.name = table ∧ t.parent = parent ∧ n ∈ t.fields.map (·.name)

/-- A data column has a column of its name: in the main table when it does not repeat, else in a table
for repeating data. -/
def Kept (main : String) (ss : List Script) (c : Form.Column) : Prop :=
  ∃ n, Identifier.columnNameOf c.name = .ok n ∧
    if c.isRepeating.isGiven then ∃ table, Stores ss table (some main) n else Stores ss main none n

/-- Some repeating section has a column with the name of a data column: one for another data column,
or one that every section table has. -/
def IsCovered (d : Dialect) (f : Form) (c : Form.Column) : Prop :=
  ∃ n, Identifier.columnNameOf c.name = .ok n ∧ ∃ e ∈ f.columns, isInSection e = true ∧
    (Identifier.columnNameOf e.name = .ok n ∨ n ∈ (sectionFields d).map (·.name))

section
variable {d : Dialect} {f : Form} {main : String} {o : Options} {secs : List SectionColumns}
  {table : Script} {tables lookups : List Script} {summary : Script} {ss : List Script}

namespace Made

theorem stores_main (hmade : Made d f main o secs table tables lookups summary ss) {c : Form.Column}
    (hc : c ∈ plainColumns f) :
    ∃ n, Identifier.columnNameOf c.name = .ok n ∧ Stores ss main none n := by
  obtain ⟨-, fields, hfields, hbody⟩ := mainScript_eq_ok hmade.mainTable
  obtain ⟨-, hnamed, -⟩ := fieldsOf_eq_ok hfields
  obtain ⟨n, hn, hcn⟩ := hnamed c hc
  refine ⟨n, hcn, table, hmade.mem_iff.mpr (Or.inl rfl), _, hbody, rfl, rfl, ?_⟩
  rw [List.map_append]
  exact List.mem_append_right _ hn

/-- A column of a section is kept in the table of that section. -/
theorem stores_section (hmade : Made d f main o secs table tables lookups summary ss)
    {c : Form.Column} (hc : c ∈ f.columns) (hin : isInSection c = true) :
    ∃ n name, Identifier.columnNameOf c.name = .ok n ∧
      sectionTableName main c.repeatingSection = .ok name ∧ Stores ss name (some main) n ∧
      ∀ m ∈ (sectionFields d).map (·.name), Stores ss name (some main) m := by
  obtain ⟨sec, hsec, hcs⟩ := hmade.mem_section_iff.mpr ⟨hc, hin⟩
  obtain ⟨s, hs, k, hscript⟩ := hmade.exists_table hsec
  obtain ⟨-, name, fields, hname, hfields, hbody⟩ := sectionScript_eq_ok hscript
  obtain ⟨-, hnamed, -⟩ := fieldsOf_eq_ok hfields
  obtain ⟨n, hn, hcn⟩ := hnamed c hcs
  have hstores : ∀ m ∈ (sectionFields d ++ fields).map (·.name), Stores ss name (some main) m :=
    fun m hm => ⟨s, hmade.mem_iff.mpr (Or.inr (Or.inl hs)), _, hbody, rfl, rfl, hm⟩
  rw [List.map_append] at hstores
  refine ⟨n, name, hcn, ?_, hstores n (List.mem_append_right _ hn),
    fun m hm => hstores m (List.mem_append_left _ hm)⟩
  obtain ⟨t, ht, hname⟩ := bind_eq_ok.mp hname
  rw [sectionTableName, (gathered_sectionsOf hmade.sections).tableNameOf_eq hsec ht hcs]
  exact hname

/-- What a table for repeating data has a column for. -/
theorem exists_of_stores (hmade : Made d f main o secs table tables lookups summary ss)
    {name n : String} (h : Stores ss name (some main) n) : ∃ e ∈ f.columns, isInSection e = true ∧
      (Identifier.columnNameOf e.name = .ok n ∨ n ∈ (sectionFields d).map (·.name)) := by
  obtain ⟨s, hs, t, hbody, -, hparent, hn⟩ := h
  rcases hmade.mem_iff.mp hs with rfl | hs | hs | rfl
  · obtain ⟨t', hbody', -, hnone⟩ := hmade.isMain_table
    obtain rfl := Body.table.inj (hbody.symm.trans hbody')
    cases hparent.symm.trans hnone
  · obtain ⟨sec, hsec, k, hscript⟩ := hmade.exists_section hs
    obtain ⟨-, name, fields, -, hfields, hbody'⟩ := sectionScript_eq_ok hscript
    obtain rfl := Body.table.inj (hbody.symm.trans hbody')
    rw [List.map_append, List.mem_append] at hn
    rcases hn with hn | hn
    · obtain ⟨e, he, -⟩ := (gathered_sectionsOf hmade.sections).named sec hsec
      obtain ⟨hmem, hin⟩ := hmade.mem_section_iff.mp ⟨sec, hsec, he⟩
      exact ⟨e, hmem, hin, Or.inr hn⟩
    · obtain ⟨-, -, hfrom⟩ := fieldsOf_eq_ok hfields
      obtain ⟨e, he, hen⟩ := hfrom n hn
      obtain ⟨hmem, hin⟩ := hmade.mem_section_iff.mp ⟨sec, hsec, he⟩
      exact ⟨e, hmem, hin, Or.inl hen⟩
  · obtain ⟨l, hbody'⟩ := hmade.exists_of_mem_lookups hs
    cases hbody.symm.trans hbody'
  · obtain ⟨-, v, hbody', -⟩ := hmade.exists_view
    cases hbody.symm.trans hbody'

theorem kept_iff (hmade : Made d f main o secs table tables lookups summary ss) {c : Form.Column}
    (hc : c ∈ f.columns) : Kept main ss c ↔
      (c.isRepeating.isGiven = true → c.repeatingSection.isGiven = true ∨ IsCovered d f c) := by
  unfold Kept
  by_cases hrepeats : c.isRepeating.isGiven = true
  · simp only [if_pos hrepeats]
    constructor
    · rintro ⟨n, hn, name, hstores⟩ -
      exact Or.inr ⟨n, hn, hmade.exists_of_stores hstores⟩
    · intro h
      rcases h hrepeats with hsection | ⟨n, hn, e, he, hin, hen⟩
      · have hin : isInSection c = true := by rw [isInSection, hrepeats, hsection]; rfl
        obtain ⟨n, name, hn, -, hstores, -⟩ := hmade.stores_section hc hin
        exact ⟨n, hn, name, hstores⟩
      · obtain ⟨m, name, hm, -, hstores, hsystem⟩ := hmade.stores_section he hin
        rcases hen with hen | hen
        · obtain rfl := Except.ok.inj (hen.symm.trans hm)
          exact ⟨n, hn, name, hstores⟩
        · exact ⟨n, hn, name, hsystem n hen⟩
  · simp only [if_neg hrepeats]
    refine ⟨fun _ h => absurd h hrepeats, fun _ => ?_⟩
    exact hmade.stores_main (List.mem_filter.mpr ⟨hc, by simpa using hrepeats⟩)

end Made

end

/-- Every data column that does not repeat is kept in the main table, and every one that lies in a
repeating section in the table of that section. One that repeats without a section is left out: it is
kept exactly when a column of its name is there without it. -/
theorem column_kept_iff {d : Dialect} {f : Form} {main : String} {o : Options} {ss : List Script}
    (h : scripts d f main o = .ok ss) {c : Form.Column} (hc : c ∈ f.columns) :
    (Kept main ss c ↔
      (c.isRepeating.isGiven = true → c.repeatingSection.isGiven = true ∨ IsCovered d f c)) ∧
    (isInSection c = true → ∃ n name, Identifier.columnNameOf c.name = .ok n ∧
      sectionTableName main c.repeatingSection = .ok name ∧ Stores ss name (some main) n) := by
  obtain ⟨secs, table, tables, lookups, summary, hmade⟩ := scripts_eq_ok.mp h
  refine ⟨hmade.kept_iff hc, fun hin => ?_⟩
  obtain ⟨n, name, hn, hname, hstores, -⟩ := hmade.stores_section hc hin
  exact ⟨n, name, hn, hname, hstores⟩

/-- A column that repeats, though nothing is known of its section. -/
def looseColumn (name : String) : Form.Column := { textColumn name with isRepeating := .bool true }

/-- A column that repeats without a section, beside one of its name that lies in a section. -/
theorem column_kept_iff_covered : ∃ ss, scripts .mysql
      (formOf [looseColumn "Value", sectionColumn "Items"]) "Main" {} = .ok ss ∧
    looseColumn "Value" ∈ (formOf [looseColumn "Value", sectionColumn "Items"]).columns ∧
    isInSection (looseColumn "Value") = false ∧ Kept "Main" ss (looseColumn "Value") := by
  have hmem : looseColumn "Value" ∈
      (formOf [looseColumn "Value", sectionColumn "Items"]).columns := List.mem_cons_self
  have hcovered : IsCovered .mysql (formOf [looseColumn "Value", sectionColumn "Items"])
      (looseColumn "Value") :=
    ⟨_, Identifier.columnNameOf_text "Value", sectionColumn "Items",
      List.mem_cons_of_mem _ List.mem_cons_self, rfl, Or.inl (Identifier.columnNameOf_text "Value")⟩
  have hss : ∃ ss, scripts .mysql
      (formOf [looseColumn "Value", sectionColumn "Items"]) "Main" {} = .ok ss := ⟨_, rfl⟩
  obtain ⟨ss, hss⟩ := hss
  exact ⟨ss, hss, hmem, rfl, (column_kept_iff hss hmem).1.mpr fun _ => Or.inr hcovered⟩

/-- A column that repeats without a section leaves no trace in the tables. -/
theorem column_not_kept : ∃ ss, scripts .sqlServer (formOf [looseColumn "Note"]) "Main" {} = .ok ss ∧
    ∃ c ∈ (formOf [looseColumn "Note"]).columns, ¬ Kept "Main" ss c := by
  have hss : ∃ ss, scripts .sqlServer (formOf [looseColumn "Note"]) "Main" {} = .ok ss := ⟨_, rfl⟩
  obtain ⟨ss, hss⟩ := hss
  refine ⟨ss, hss, looseColumn "Note", List.mem_cons_self, fun hkept => ?_⟩
  obtain ⟨secs, table, tables, lookups, summary, hmade⟩ := scripts_eq_ok.mp hss
  rcases (hmade.kept_iff List.mem_cons_self).mp hkept rfl with hsection | ⟨n, hn, e, he, hin, -⟩
  · cases hsection
  · obtain rfl := List.mem_singleton.mp he
    cases hin

end Formwright.Sql
