import Formwright.Proofs.Sql.Clauses

/-
  References between scripts. Names of tables and columns are worked out anew in each script that uses
  them. All the same every table that a script of a form names is created by one of its scripts, and
  every column that it names is one of the table that it is taken from; and the view counts each section
  table once, in the order of the sections (`references_resolve`). Both are said of clauses, and where
  the main table has a word for its name these are the clauses of the texts.
-/

namespace Formwright.Sql

/-! ## References that are resolved -/

/-- One of some scripts creates a table. -/
def Creates (css : List (List Clause)) (t : String) : Prop := ∃ cs ∈ css, .create t ∈ cs

/-- One of some scripts creates a table with a column. -/
def Defines (css : List (List Clause)) (t n : String) : Prop :=
  ∃ cs ∈ css, .create t ∈ cs ∧ .define n ∈ cs

/-- What a clause of a script names is there when all scripts have run: a table is created, and a column
is defined in the table that it is taken from. -/
def Clause.Resolved (css : List (List Clause)) (cs : List Clause) : Clause → Prop
  | .create _ => True
  | .define _ => True
  | .foreignKey n => .define n ∈ cs
  | .references t n => Defines css t n
  | .index t n => .create t ∈ cs ∧ .define n ∈ cs
  | .insert t => Creates css t
  | .count t => Creates css t
  | .source t _ => Creates css t
  | .column short n => (∃ t, .source t short ∈ cs) ∧ ∀ t, .source t short ∈ cs → Defines css t n
  | .unread => False

theorem Defines.creates {css : List (List Clause)} {t n : String} (h : Defines css t n) :
    Creates css t := by
  obtain ⟨cs, hcs, ht, -⟩ := h
  exact ⟨cs, hcs, ht⟩

/-- Scripts that name nothing that is not there. -/
def Resolves (css : List (List Clause)) : Prop := ∀ cs ∈ css, ∀ c ∈ cs, c.Resolved css cs

/-- The table of which a clause counts the rows. -/
def Clause.counted? : Clause → Option String
  | .count t => some t
  | _ => none

/-! ## What each script says -/

section
variable {d : Dialect} {ss : List Script} {t : Table} {v : Summary}

theorem mem_clauses_table {c : Clause} : c ∈ t.clauses ↔ c = .create t.name ∨
    (∃ f ∈ t.fields, c = .define f.name) ∨
    (∃ p, t.parent = some p ∧ (c = .foreignKey parentColumn ∨ c = .references p formColumn)) ∨
    ∃ n ∈ t.indexed, c = .index t.name n := by
  simp only [Table.clauses, List.mem_append, List.mem_cons, List.mem_map, List.mem_flatMap,
    Option.mem_toList, List.not_mem_nil, or_false, or_assoc, eq_comm]

theorem mem_clauses_view {c : Clause} : c ∈ v.clauses ↔ (∃ n ∈ v.fields, c = .column "m" n) ∨
    (∃ e ∈ v.counts, c = .count e.table ∨ c = .source e.table "r" ∨ c = .column "r" parentColumn ∨
      c = .column "m" formColumn) ∨ c = .source v.table "m" := by
  simp only [Summary.clauses, List.mem_append, List.mem_cons, List.mem_map, List.mem_flatMap,
    List.not_mem_nil, or_false, or_assoc, eq_comm]

theorem formColumn_mem (d : Dialect) : formColumn ∈ (systemFields d).map (·.name) := by simp [systemFields]

theorem parentColumn_mem (d : Dialect) : parentColumn ∈ (sectionFields d).map (·.name) := by
  simp [sectionFields]

theorem define_mem_clauses {n : String} (h : n ∈ t.fields.map (·.name)) : .define n ∈ t.clauses := by
  obtain ⟨f, hf, rfl⟩ := List.mem_map.mp h
  exact mem_clauses_table.mpr (Or.inr (Or.inl ⟨f, hf, rfl⟩))

/-- A table that stores something defines it. -/
theorem defines_of_stores {name : String} {parent : Option String} {n : String}
    (h : Stores ss name parent n) : Defines (ss.map (·.body.clauses d)) name n := by
  obtain ⟨s, hs, t, hbody, rfl, -, hn⟩ := h
  refine ⟨_, List.mem_map_of_mem hs, ?_⟩
  rw [hbody]
  exact ⟨mem_clauses_table.mpr (Or.inl rfl), define_mem_clauses hn⟩

end

section
variable {d : Dialect} {f : Form} {main : String} {o : Options} {secs : List SectionColumns}
  {table : Script} {tables lookups : List Script} {summary : Script} {ss : List Script}

namespace Made

/-- The main table stores the columns that every main table has, -/
theorem stores_systemFields (hmade : Made d f main o secs table tables lookups summary ss) {n : String}
    (hn : n ∈ (systemFields d).map (·.name)) : Stores ss main none n := by
  obtain ⟨-, fields, -, hbody⟩ := mainScript_eq_ok hmade.mainTable
  refine ⟨table, hmade.mem_iff.mpr (Or.inl rfl), _, hbody, rfl, rfl, ?_⟩
  rw [List.map_append]
  exact List.mem_append_left _ hn

/-- and each section table those that every section table has. -/
theorem stores_sectionFields (hmade : Made d f main o secs table tables lookups summary ss) {s : Script}
    (hs : s ∈ tables) {t : String} (ht : s.IsSection main t) {n : String}
    (hn : n ∈ (sectionFields d).map (·.name)) : Stores ss t (some main) n := by
  obtain ⟨sec, -, k, hscript⟩ := hmade.exists_section hs
  obtain ⟨-, name, fields, -, -, hbody⟩ := sectionScript_eq_ok hscript
  obtain ⟨u, hu, rfl, hparent⟩ := ht
  obtain rfl := Body.table.inj (hu.symm.trans hbody)
  refine ⟨s, hmade.mem_iff.mpr (Or.inr (Or.inl hs)), _, hbody, rfl, rfl, ?_⟩
  rw [List.map_append]
  exact List.mem_append_left _ hn

theorem resolved_main (hmade : Made d f main o secs table tables lookups summary ss) :
    ∀ c ∈ table.body.clauses d, c.Resolved (ss.map (·.body.clauses d)) (table.body.clauses d) := by
  obtain ⟨-, fields, -, hbody⟩ := mainScript_eq_ok hmade.mainTable
  have hsystem : ∀ n ∈ ["CreatedDate", "Status"], n ∈ (systemFields d).map (·.name) := by
    simp [systemFields]
  intro c hc
  rw [hbody] at hc ⊢
  rcases mem_clauses_table.mp hc with rfl | ⟨g, -, rfl⟩ | ⟨p, hp, -⟩ | ⟨n, hn, rfl⟩
  · trivial
  · trivial
  · cases hp
  · refine ⟨mem_clauses_table.mpr (Or.inl rfl), define_mem_clauses ?_⟩
    rw [List.map_append]
    exact List.mem_append_left _ (hsystem n hn)

theorem resolved_section (hmade : Made d f main o secs table tables lookups summary ss) {s : Script}
    (hs : s ∈ tables) :
    ∀ c ∈ s.body.clauses d, c.Resolved (ss.map (·.body.clauses d)) (s.body.clauses d) := by
  obtain ⟨sec, -, k, hscript⟩ := hmade.exists_section hs
  obtain ⟨-, name, fields, -, -, hbody⟩ := sectionScript_eq_ok hscript
  have hparent : parentColumn ∈ (sectionFields d ++ fields).map (·.name) := by
    rw [List.map_append]
    exact List.mem_append_left _ (parentColumn_mem d)
  intro c hc
  rw [hbody] at hc ⊢
  rcases mem_clauses_table.mp hc with rfl | ⟨g, -, rfl⟩ | ⟨p, hp, rfl | rfl⟩ | ⟨n, hn, rfl⟩
  · trivial
  · trivial
  · exact define_mem_clauses hparent
  · obtain rfl := Option.some.inj hp
    exact defines_of_stores (hmade.stores_systemFields (formColumn_mem d))
  · obtain rfl := List.mem_singleton.mp hn
    exact ⟨mem_clauses_table.mpr (Or.inl rfl), define_mem_clauses hparent⟩

theorem resolved_lookup (hmade : Made d f main o secs table tables lookups summary ss) {s : Script}
    (hs : s ∈ lookups) :
    ∀ c ∈ s.body.clauses d, c.Resolved (ss.map (·.body.clauses d)) (s.body.clauses d) := by
  obtain ⟨l, hbody⟩ := hmade.exists_of_mem_lookups hs
  have hmem : s ∈ ss := hmade.mem_iff.mpr (Or.inr (Or.inr (Or.inl hs)))
  have hcreates : Creates (ss.map (·.body.clauses d)) l.name := by
    refine ⟨_, List.mem_map_of_mem hmem, ?_⟩
    rw [hbody]
    exact List.mem_append_left _ List.mem_cons_self
  intro c hc
  rw [hbody] at hc ⊢
  rcases List.mem_append.mp hc with hc | hc
  · rcases List.mem_cons.mp hc with rfl | hc
    · trivial
    · obtain ⟨g, -, rfl⟩ := List.mem_map.mp hc
      trivial
  · obtain ⟨r, -, rfl⟩ := List.mem_map.mp hc
    exact hcreates

/-- The view shows columns of the main table, -/
theorem stores_of_mem_view (hmade : Made d f main o secs table tables lookups summary ss) {v : Summary}
    (hbody : summary.body = .view v) {n : String} (hn : n ∈ v.fields) : Stores ss main none n := by
  obtain ⟨-, names, counts, hnames, -, hbody'⟩ := summaryScript_eq_ok hmade.view
  obtain rfl := Body.view.inj (hbody.symm.trans hbody')
  rcases List.mem_append.mp hn with hn | hn
  · exact hmade.stores_systemFields (mem_systemFields_of_mem_summaryFields d n hn)
  · obtain ⟨c, hc, hname⟩ := exists_of_mem_mapM_eq_ok hnames (List.mem_eraseDups.mp hn)
    obtain ⟨m, hm, hstores⟩ := hmade.stores_main (List.mem_of_mem_take hc)
    obtain rfl := Except.ok.inj (hname.symm.trans hm)
    exact hstores

/-- and what it counts has the column that ties it to them. -/
theorem stores_of_mem_counts (hmade : Made d f main o secs table tables lookups summary ss) {v : Summary}
    (hbody : summary.body = .view v) {c : SectionCount} (hc : c ∈ v.counts) :
    Stores ss c.table (some main) parentColumn := by
  obtain ⟨-, v', hbody', -, -, hcounts⟩ := hmade.exists_view
  obtain rfl := Body.view.inj (hbody.symm.trans hbody')
  obtain ⟨k, hk⟩ := List.getElem?_of_mem hc
  obtain ⟨s, hs, hsection⟩ := hcounts k c hk
  exact hmade.stores_sectionFields (List.mem_of_getElem? hs) hsection (parentColumn_mem d)

/-- In the view `m` is the main table, and `r` is one of the tables that are counted. -/
theorem resolved_view (hmade : Made d f main o secs table tables lookups summary ss) :
    ∀ c ∈ summary.body.clauses d, c.Resolved (ss.map (·.body.clauses d)) (summary.body.clauses d) := by
  obtain ⟨-, v, hbody, htable, -⟩ := hmade.exists_view
  have hmain {n : String} (hn : Stores ss main none n) :
      (Clause.column "m" n).Resolved (ss.map (·.body.clauses d)) (summary.body.clauses d) := by
    rw [hbody]
    refine ⟨⟨v.table, mem_clauses_view.mpr (Or.inr (Or.inr rfl))⟩, fun t ht => ?_⟩
    have hsource : t = v.table := by simpa using mem_clauses_view.mp ht
    rw [hsource, htable]
    exact defines_of_stores hn
  have hcounted {e : SectionCount} (he : e ∈ v.counts) :
      Defines (ss.map (·.body.clauses d)) e.table parentColumn :=
    defines_of_stores (hmade.stores_of_mem_counts hbody he)
  intro c hc
  have hmem := hc
  rw [hbody] at hmem
  rcases mem_clauses_view.mp hmem with ⟨n, hn, rfl⟩ | ⟨e, he, rfl | rfl | rfl | rfl⟩ | rfl
  · exact hmain (hmade.stores_of_mem_view hbody hn)
  · exact (hcounted he).creates
  · exact (hcounted he).creates
  · rw [hbody]
    refine ⟨⟨e.table, mem_clauses_view.mpr (Or.inr (Or.inl ⟨e, he, Or.inr (Or.inl rfl)⟩))⟩, fun t ht => ?_⟩
    obtain ⟨e', he', rfl⟩ : ∃ e' ∈ v.counts, t = e'.table := by simpa using mem_clauses_view.mp ht
    exact hcounted he'
  · exact hmain (hmade.stores_systemFields (formColumn_mem d))
  · rw [htable]
    exact (defines_of_stores (d := d) (hmade.stores_systemFields (formColumn_mem d))).creates

theorem resolves (hmade : Made d f main o secs table tables lookups summary ss) :
    Resolves (ss.map (·.body.clauses d)) := by
  intro cs hcs
  obtain ⟨s, hs, rfl⟩ := List.mem_map.mp hcs
  rcases hmade.mem_iff.mp hs with rfl | hs | hs | rfl
  · exact hmade.resolved_main
  · exact hmade.resolved_section hs
  · exact hmade.resolved_lookup hs
  · exact hmade.resolved_view

/-! ## What the view counts -/

theorem filterMap_counted?_clauses (v : Summary) :
    v.clauses.filterMap Clause.counted? = v.counts.map (·.table) := by
  have hfields : (v.fields.map (Clause.column "m")).filterMap Clause.counted? = [] := by
    rw [List.filterMap_map]
    exact List.filterMap_eq_nil_iff.mpr fun _ _ => rfl
  unfold Summary.clauses
  rw [List.filterMap_append, List.filterMap_append, hfields, List.nil_append, List.filterMap_flatMap,
    List.map_eq_flatMap]
  exact List.append_nil _

/-- The view counts each section table once, in the order of the sections. -/
theorem counted_eq (hmade : Made d f main o secs table tables lookups summary ss) :
    ∃ names, secs.mapM (fun s => sectionTableName main s.name) = .ok names ∧ names.Nodup ∧
      (∀ t, t ∈ names ↔ ∃ s ∈ ss, s.IsSection main t) ∧
      (summary.body.clauses d).filterMap Clause.counted? = names := by
  obtain ⟨names, hnames, hnodup, -⟩ := checkSections_eq_ok.mp hmade.checked
  obtain ⟨-, shown, counts, -, hcounts, hbody⟩ := summaryScript_eq_ok hmade.view
  refine ⟨names, hnames, hnodup, fun t => ⟨fun ht => ?_, ?_⟩, ?_⟩
  · obtain ⟨sec, hsec, hname⟩ := exists_of_mem_mapM_eq_ok hnames ht
    obtain ⟨s, hs, k, hscript⟩ := hmade.exists_table hsec
    obtain ⟨-, t', fields, hname', -, hbody⟩ := sectionScript_eq_ok hscript
    obtain rfl := Except.ok.inj (hname.symm.trans hname')
    exact ⟨s, hmade.mem_iff.mpr (Or.inr (Or.inl hs)), _, hbody, rfl, rfl⟩
  · rintro ⟨s, hs, hsection⟩
    obtain ⟨sec, hsec, k, hscript⟩ := hmade.exists_section (hmade.mem_tables_of_isSection hs hsection)
    obtain ⟨-, t', fields, hname, -, hbody⟩ := sectionScript_eq_ok hscript
    obtain ⟨u, hu, rfl, -⟩ := hsection
    obtain rfl := Body.table.inj (hu.symm.trans hbody)
    obtain ⟨t, ht, hmem⟩ := mem_of_mapM_eq_ok hnames hsec
    obtain rfl := Except.ok.inj (hname.symm.trans ht)
    exact hmem
  · have hone : ∀ (sec : SectionColumns) (c : SectionCount), SectionCount.ofSection main sec = .ok c →
        sectionTableName main sec.name = .ok c.table := by
      intro sec c hc
      obtain ⟨name, hname, hc⟩ := bind_eq_ok.mp hc
      obtain ⟨label, -, hc⟩ := bind_eq_ok.mp hc
      obtain rfl := Except.ok.inj hc
      exact hname
    have htables : secs.mapM (fun s => sectionTableName main s.name) = .ok (counts.map (·.table)) :=
      mapM_eq_ok_map hone hcounts
    rw [hbody]
    exact (filterMap_counted?_clauses _).trans (Except.ok.inj (htables.symm.trans hnames))

end Made

end

/-! ## Scripts that are readable -/

section
variable {d : Dialect}

theorem isType_append_blank {s s' : String} (h : isType s = true) (h' : isType s' = true) :
    isType (s ++ " " ++ s') = true := by
  rw [String.append_assoc]
  exact isType_append h (isConstraint_of_isType h')

theorem isReadable_systemFields (d : Dialect) : ∀ f ∈ systemFields d, f.IsReadable := by
  have hprofile := d.isReadable_profile
  have hunique : isConstraint " NOT NULL UNIQUE" = true := isConstraint_ofList rfl rfl
  have hnotNull : isConstraint " NOT NULL" = true := isConstraint_ofList rfl rfl
  have hstatus : isType "VARCHAR(50) DEFAULT 'Draft'" = true := any_tokens?_ofList rfl
  have huuid := isType_append (isType_append_blank hprofile.uuid hprofile.uuidDefault) hunique
  have hdate := isType_append (isType_append_blank hprofile.timestamp hprofile.timestampDefault) hnotNull
  rw [systemFields]
  simp only [List.forall_mem_cons]
  exact ⟨⟨isWord_ofList rfl, hprofile.identity⟩, ⟨isWord_ofList rfl, huuid⟩, ⟨isWord_ofList rfl, hdate⟩,
    ⟨isWord_ofList rfl, hdate⟩, ⟨isWord_ofList rfl, hprofile.shortText⟩,
    ⟨isWord_ofList rfl, hprofile.shortText⟩, ⟨isWord_ofList rfl, hstatus⟩, List.forall_mem_nil _⟩

theorem isReadable_sectionFields (d : Dialect) : ∀ f ∈ sectionFields d, f.IsReadable := by
  have hprofile := d.isReadable_profile
  have hnotNull : isConstraint " NOT NULL" = true := isConstraint_ofList rfl rfl
  have hplace : isConstraint " NOT NULL DEFAULT 0" = true := isConstraint_ofList rfl rfl
  have hdate := isType_append (isType_append_blank hprofile.timestamp hprofile.timestampDefault) hnotNull
  rw [sectionFields]
  simp only [List.forall_mem_cons]
  exact ⟨⟨isWord_ofList rfl, hprofile.identity⟩, ⟨isWord_ofList rfl, isType_append hprofile.uuid hnotNull⟩,
    ⟨isWord_ofList rfl, isType_append hprofile.integer hplace⟩, ⟨isWord_ofList rfl, hdate⟩,
    List.forall_mem_nil _⟩

theorem isType_columnType (d : Dialect) (t : ControlType) : isType (d.columnType t ++ " NULL") = true := by
  have hprofile := d.isReadable_profile
  have htype : isType (d.columnType t) = true := by
    unfold Dialect.columnType
    split
    · exact hprofile.integer
    · exact hprofile.decimal
    · exact hprofile.decimal
    · exact hprofile.timestamp
    · exact hprofile.truth
    · exact hprofile.shortText
    · exact hprofile.shortText
    · exact hprofile.people
    · exact hprofile.binary
    · exact hprofile.longText
  exact isType_append htype (isConstraint_ofList rfl rfl)

theorem isWord_of_columnNameOf {v : Value} {n : String} (h : Identifier.columnNameOf v = .ok n) :
    IsWord n :=
  isWord_of_isName (Identifier.ne_empty_of_columnNameOf h) (Identifier.isName_of_columnNameOf h)

theorem isWord_of_tableNameOf {v : Value} {t : String} (h : Identifier.tableNameOf v = .ok t) :
    IsWord t :=
  isWord_of_isName (Identifier.ne_empty_of_tableNameOf h) (Identifier.isName_of_tableNameOf h)

theorem isReadable_fieldsOf {cs : List Form.Column} {fields : List Field}
    (h : fieldsOf d cs = .ok fields) : ∀ f ∈ fields, f.IsReadable := by
  obtain ⟨all, hall, h⟩ := bind_eq_ok.mp h
  obtain rfl := Except.ok.inj h
  intro f hf
  have hmem : f ∈ all := (mem_of_mem_foldl_keepFirst Field.name hf).resolve_left List.not_mem_nil
  obtain ⟨c, -, hfield⟩ := exists_of_mem_mapM_eq_ok hall hmem
  obtain ⟨n, hn, hfield⟩ := bind_eq_ok.mp hfield
  obtain rfl := Except.ok.inj hfield
  exact ⟨isWord_of_columnNameOf hn, isType_columnType d c.type⟩

theorem decimal_not_mem_keywords (n : Int) : Text.decimal n ∉ keywords := by
  intro hmem
  have hnone : ∀ w ∈ keywords, Text.integer? w = none := by decide +kernel
  cases (Text.integer?_decimal n).symm.trans (hnone _ hmem)

/-- A choice of which the place is a whole number makes a readable row. -/
theorem isReadable_ofChoice {c : Form.Choice} {r : LookupRow} {n : Int} (hplace : c.order = .int n)
    (h : LookupRow.ofChoice c = .ok r) : r.IsReadable := by
  obtain ⟨value, -, h⟩ := bind_eq_ok.mp h
  obtain ⟨text, -, h⟩ := bind_eq_ok.mp h
  obtain ⟨order, horder, h⟩ := bind_eq_ok.mp h
  obtain rfl := Except.ok.inj h
  rw [hplace, writtenOrder] at horder
  split at horder
  · cases horder
  · obtain rfl := Except.ok.inj horder
    exact ⟨isWord_decimal n, decimal_not_mem_keywords n⟩

end

section
variable {d : Dialect} {f : Form} {main : String} {o : Options} {s : Script}

theorem isReadable_mainScript (hmain : IsWord main) (h : mainScript d f main = .ok s) :
    s.body.IsReadable := by
  obtain ⟨-, fields, hfields, hbody⟩ := mainScript_eq_ok h
  have hindexed : ∀ n ∈ ["CreatedDate", "Status"], IsWord n := by
    simp only [List.forall_mem_cons]
    exact ⟨isWord_ofList rfl, isWord_ofList rfl, List.forall_mem_nil _⟩
  rw [hbody]
  exact {
    name := hmain
    fields := List.forall_mem_append.mpr ⟨isReadable_systemFields d, isReadable_fieldsOf hfields⟩
    some_field := List.append_ne_nil_of_left_ne_nil (List.cons_ne_nil _ _) _
    parent := fun _ hp => absurd hp.symm (Option.some_ne_none _)
    indexed := hindexed }

theorem isWord_sectionTableName (hmain : IsWord main) {v : Value} {t : String}
    (h : sectionTableName main v = .ok t) : IsWord t := by
  obtain ⟨n, hn, h⟩ := bind_eq_ok.mp h
  obtain rfl := Except.ok.inj h
  exact (hmain.append (isWord_ofList rfl)).append (isWord_of_tableNameOf hn)

theorem isReadable_sectionScript (hmain : IsWord main) {sec : SectionColumns} {k : Nat}
    (h : sectionScript d main sec k = .ok s) : s.body.IsReadable := by
  obtain ⟨-, name, fields, hname, hfields, hbody⟩ := sectionScript_eq_ok h
  have hindexed : ∀ n ∈ [parentColumn], IsWord n := List.forall_mem_singleton.mpr (isWord_ofList rfl)
  rw [hbody]
  exact {
    name := isWord_sectionTableName hmain hname
    fields := List.forall_mem_append.mpr ⟨isReadable_sectionFields d, isReadable_fieldsOf hfields⟩
    some_field := List.append_ne_nil_of_left_ne_nil (List.cons_ne_nil _ _) _
    parent := fun _ hp => Option.some.inj hp ▸ hmain
    indexed := hindexed }

theorem isReadable_lookupScript (hmain : IsWord main) {c : Form.Column} {k : Nat}
    (hplaces : ∀ v ∈ c.validValues, ∃ n : Int, v.order = .int n) (h : lookupScript main c k = .ok s) :
    s.body.IsReadable := by
  obtain ⟨-, column, choices, rows, hcolumn, hchoices, hrows, hbody⟩ := lookupScript_eq_ok h
  rw [hbody]
  refine ⟨?_, fun r hr => ?_⟩
  · exact ((hmain.append (isWord_ofList rfl)).append (isWord_of_columnNameOf hcolumn)).append
      (isWord_ofList rfl)
  · obtain ⟨v, hv, hrow⟩ := exists_of_mem_mapM_eq_ok hrows hr
    obtain ⟨n, hn⟩ := hplaces v (((Value.sortOn_eq_ok hchoices).2 v).mp hv)
    exact isReadable_ofChoice hn hrow

theorem isReadable_summaryScript (hmain : IsWord main) {secs : List SectionColumns}
    (h : summaryScript f main secs = .ok s) : s.body.IsReadable := by
  obtain ⟨-, names, counts, hnames, hcounts, hbody⟩ := summaryScript_eq_ok h
  rw [hbody]
  refine ⟨(IsWord.append (isWord_ofList rfl) hmain).append (isWord_ofList rfl), hmain, fun n hn => ?_,
    List.append_ne_nil_of_left_ne_nil (List.cons_ne_nil _ _) _, fun c hc => ?_⟩
  · have hown : ∀ n ∈ summaryFields, IsWord n := by
      simp only [summaryFields, List.forall_mem_cons]
      exact ⟨isWord_ofList rfl, isWord_ofList rfl, isWord_ofList rfl, isWord_ofList rfl,
        isWord_ofList rfl, List.forall_mem_nil _⟩
    rcases List.mem_append.mp hn with hn | hn
    · exact hown n hn
    · obtain ⟨c, -, hname⟩ := exists_of_mem_mapM_eq_ok hnames (List.mem_eraseDups.mp hn)
      exact isWord_of_columnNameOf hname
  · obtain ⟨sec, -, hcount⟩ := exists_of_mem_mapM_eq_ok hcounts hc
    obtain ⟨t, ht, hcount⟩ := bind_eq_ok.mp hcount
    obtain ⟨l, hl, hcount⟩ := bind_eq_ok.mp hcount
    obtain rfl := Except.ok.inj hcount
    exact ⟨isWord_sectionTableName hmain ht, (isWord_of_tableNameOf hl).append (isWord_ofList rfl)⟩

/-- Every script of a form is readable when the main table has a word for its name and the places of
valid values are whole numbers. -/
theorem Made.isReadable {secs : List SectionColumns} {table : Script} {tables lookups : List Script}
    {summary : Script} {ss : List Script}
    (hmade : Made d f main o secs table tables lookups summary ss) (hmain : IsWord main)
    (hplaces : ∀ c ∈ choiceColumns f o, ∀ v ∈ c.validValues, ∃ n : Int, v.order = .int n) (hs : s ∈ ss) :
    s.body.IsReadable := by
  rcases hmade.mem_iff.mp hs with rfl | hs | hs | rfl
  · exact isReadable_mainScript hmain hmade.mainTable
  · obtain ⟨sec, -, k, hscript⟩ := hmade.exists_section hs
    exact isReadable_sectionScript hmain hscript
  · have hlookups := hmade.lookupTables
    rw [lookupScripts_eq] at hlookups
    obtain ⟨p, hp, hscript⟩ := exists_of_mem_mapM_eq_ok hlookups hs
    exact isReadable_lookupScript hmain (hplaces p.1 (List.fst_mem_of_mem_zipIdx hp)) hscript
  · exact isReadable_summaryScript hmain hmade.view

end

/-- In the scripts of a form every table that is referred to, indexed, filled, read or counted is created,
and every column that is named in a foreign key, in an index or by the view is defined in the table that it
is taken from. There is one view, and it counts every section table once, in the order of the sections.
These are the clauses that are read off the texts of the scripts, as long as the main table has a word for
its name, which every name made for a form is (`isWord_of_tableNameOf`), and the places of valid values are
whole numbers. -/
theorem references_resolve {d : Dialect} {f : Form} {main : String} {o : Options} {ss : List Script}
    (h : scripts d f main o = .ok ss) :
    Resolves (ss.map (·.body.clauses d)) ∧
    (∃ secs names, sectionsOf f.columns = .ok secs ∧
      secs.mapM (fun s => sectionTableName main s.name) = .ok names ∧ names.Nodup ∧
      (∀ t, t ∈ names ↔ ∃ s ∈ ss, s.IsSection main t) ∧
      ∃ v ∈ ss, (∀ s ∈ ss, s.IsView ↔ s = v) ∧ (v.body.clauses d).filterMap Clause.counted? = names) ∧
    (IsWord main → (∀ c ∈ choiceColumns f o, ∀ v ∈ c.validValues, ∃ n : Int, v.order = .int n) →
      ∀ s ∈ ss, readClauses d (s.content d) = some (s.body.clauses d)) := by
  obtain ⟨secs, table, tables, lookups, summary, hmade⟩ := scripts_eq_ok.mp h
  obtain ⟨names, hnames, hnodup, hmem, hcounted⟩ := hmade.counted_eq
  have hview : summary.IsView := by
    obtain ⟨-, v, hbody, -⟩ := hmade.exists_view
    exact ⟨v, hbody⟩
  have hsummary : summary ∈ ss := hmade.mem_iff.mpr (Or.inr (Or.inr (Or.inr rfl)))
  refine ⟨hmade.resolves, ⟨secs, names, hmade.sections, hnames, hnodup, hmem, summary, hsummary, ?_,
    hcounted⟩, fun hmain hplaces s hs => ?_⟩
  · intro s hs
    exact ⟨hmade.eq_summary hs, fun heq => heq ▸ hview⟩
  · exact readClauses_body (hmade.isReadable hmain hplaces hs)

/-- A form with a column in the main table, one with valid values and one in a section. -/
def mixedForm : Form := formOf [textColumn "First Name", quotedColumn, sectionColumn "Line Items"]

theorem choiceColumns_mixedForm : choiceColumns mixedForm {} = [quotedColumn] := rfl

theorem exists_scripts_mixedForm : ∃ ss, scripts .postgresql mixedForm "F" {} = .ok ss := by
  have hlookups : ∃ lookups, lookupScripts mixedForm "F" {} = .ok lookups := by
    have hes : quotedColumn.validValues.map Entry.ofChoice? = quotedEntries.map some := rfl
    have hwritable : ∀ e ∈ quotedEntries, e.IsWritable := by decide +kernel
    rw [lookupScripts_eq, choiceColumns_mixedForm]
    refine exists_mapM_eq_ok.mpr fun p hp => ?_
    have hcolumn : p.1 = quotedColumn := List.mem_singleton.mp (List.fst_mem_of_mem_zipIdx hp)
    rw [hcolumn]
    exact (exists_lookupScript_iff hes).mpr ⟨⟨_, Identifier.columnNameOf_text "Reason"⟩, hwritable⟩
  obtain ⟨lookups, hlookups⟩ := hlookups
  exact ⟨_, scripts_eq_ok.mpr ⟨_, _, _, lookups, _, rfl, rfl, rfl, rfl, hlookups, rfl, rfl⟩⟩

/-- The view over the main table is read off its text: it counts the rows of the one section. -/
theorem references_resolve_mixed : ∃ ss, scripts .postgresql mixedForm "F" {} = .ok ss ∧
    Resolves (ss.map (·.body.clauses .postgresql)) ∧
    ∃ v ∈ ss, ∃ cs, readClauses .postgresql (v.content .postgresql) = some cs ∧
      cs.filterMap Clause.counted? = ["F_" ++ Identifier.tableName "Line Items"] := by
  obtain ⟨ss, hss⟩ := exists_scripts_mixedForm
  obtain ⟨hresolves, ⟨secs, names, hsecs, hnames, -, -, v, hv, -, hcounted⟩, hread⟩ :=
    references_resolve hss
  have hmain : IsWord "F" := isWord_ofList rfl
  have hplaces : ∀ c ∈ choiceColumns mixedForm {}, ∀ v ∈ c.validValues, ∃ n : Int, v.order = .int n := by
    rw [choiceColumns_mixedForm]
    simp [quotedColumn, quotedEntries]
  have hsection : sectionsOf mixedForm.columns =
      .ok [⟨.text "Line Items", [sectionColumn "Line Items"]⟩] := rfl
  obtain rfl := Except.ok.inj (hsection.symm.trans hsecs)
  have hname : [sectionTableName "F" (.text "Line Items")] = names.map .ok := mapM_eq_ok.mp hnames
  rw [sectionTableName_text] at hname
  obtain ⟨n, rfl, hn⟩ := List.map_eq_singleton_iff.mp hname.symm
  obtain rfl := Except.ok.inj hn
  exact ⟨ss, hss, hresolves, v, hv, _, hread hmain hplaces v hv, hcounted⟩

end Formwright.Sql
