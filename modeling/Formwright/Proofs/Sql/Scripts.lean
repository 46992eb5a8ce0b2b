import Formwright.Proofs.Distinct
import Formwright.Proofs.Identifier
import Formwright.Proofs.Success
import Formwright.Proofs.Value.Keys
import Formwright.Proofs.Value.Texts
import Formwright.Sql.Generator

/-
  What the scripts of a form are. There is one for the main table, one for each repeating section,
  one for each column with valid values, and one for the summary view; together they are put in order
  of execution (`scripts_eq_ok`). Each column of a repeating section lies in one that has its name
  (`gathered_sectionsOf`), and the tables of the sections have different names
  (`checkSections_eq_ok`).
-/

namespace Formwright.Sql

/-! ## Sections -/

/-- Sections are accepted when their tables have names that differ and that are not taken. -/
theorem checkSections_eq_ok {main : String} {taken : List (String × Value)}
    {secs : List SectionColumns} : checkSections main taken secs = .ok () ↔
      ∃ names, secs.mapM (fun s => sectionTableName main s.name) = .ok names ∧ names.Nodup ∧
        ∀ n ∈ names, n ∉ taken.map (·.1) := by
  induction secs generalizing taken with
  | nil => exact ⟨fun _ => ⟨[], rfl, List.nodup_nil, fun _ h => absurd h List.not_mem_nil⟩, fun _ => rfl⟩
  | cons s secs ih =>
    have hfree : ∀ n, taken.find? (·.1 == n) = none ↔ n ∉ taken.map (·.1) := by
      intro n
      rw [List.find?_eq_none, List.mem_map]
      constructor
      · rintro h ⟨e, he, rfl⟩
        exact h e he (beq_self_eq_true _)
      · intro h e he heq
        exact h ⟨e, he, beq_iff_eq.mp heq⟩
    unfold checkSections
    rw [bind_eq_ok]
    constructor
    · rintro ⟨n, hn, h⟩
      split at h
      · cases h
      · rename_i hnone
        obtain ⟨names, hnames, hnodup, hnew⟩ := ih.mp h
        have hnot : n ∉ names := fun hmem => hnew n hmem (by simp)
        refine ⟨n :: names, mapM_cons_eq_ok.mpr ⟨n, names, hn, hnames, rfl⟩,
          List.nodup_cons.mpr ⟨hnot, hnodup⟩, ?_⟩
        rw [List.forall_mem_cons]
        refine ⟨(hfree n).mp hnone, fun m hm hmem => hnew m hm ?_⟩
        rw [List.map_append]
        exact List.mem_append_left _ hmem
    · rintro ⟨names, hnames, hnodup, hnew⟩
      obtain ⟨n, rest, hn, hrest, rfl⟩ := mapM_cons_eq_ok.mp hnames
      obtain ⟨hnot, hnodup⟩ := List.nodup_cons.mp hnodup
      obtain ⟨hnew, hnews⟩ := List.forall_mem_cons.mp hnew
      refine ⟨n, hn, ?_⟩
      rw [(hfree n).mpr hnew]
      refine ih.mpr ⟨rest, hrest, hnodup, fun m hm hmem => ?_⟩
      rw [List.map_append, List.mem_append] at hmem
      rcases hmem with hmem | hmem
      · exact hnews m hm hmem
      · obtain rfl : m = n := by simpa using hmem
        exact hnot hm

theorem sectionTableName_eq (main : String) (v : Value) :
    sectionTableName main v = (main ++ "_" ++ ·) <$> Identifier.tableNameOf v := by
  unfold sectionTableName
  cases Identifier.tableNameOf v <;> rfl

theorem sectionTableName_text (main s : String) :
    sectionTableName main (.text s) = .ok (main ++ "_" ++ Identifier.tableName s) := by
  rw [sectionTableName, Identifier.tableNameOf_text]
  rfl

/-- Columns that lie in sections of their own make a section each. -/
theorem sectionsOf_eq_of_pairwise {cs : List Form.Column} (hin : ∀ c ∈ cs, isInSection c = true)
    (hkeys : ∀ c ∈ cs, c.repeatingSection.unhashable? = none)
    (hdiffer : cs.Pairwise fun a b => a.repeatingSection.same b.repeatingSection = false) :
    sectionsOf cs = .ok (cs.map fun c => ⟨c.repeatingSection, [c]⟩) := by
  have hfold : ∀ before : List SectionColumns,
      (∀ s ∈ before, ∀ c ∈ cs, s.name.same c.repeatingSection = false) →
      cs.foldlM addToSection before = .ok (before ++ cs.map fun c => ⟨c.repeatingSection, [c]⟩) := by
    clear hin
    induction cs with
    | nil =>
      intro before _
      rw [List.map_nil, List.append_nil]
      rfl
    | cons c cs ih =>
      intro before hnew
      obtain ⟨hkey, hkeys⟩ := List.forall_mem_cons.mp hkeys
      obtain ⟨hfirst, hdiffer⟩ := List.pairwise_cons.mp hdiffer
      have hnone : before.any (·.name.same c.repeatingSection) = false := by
        rw [List.any_eq_false]
        intro s hs
        rw [hnew s hs c List.mem_cons_self]
        exact Bool.false_ne_true
      have hstep : addToSection before c = .ok (before ++ [⟨c.repeatingSection, [c]⟩]) := by
        rw [addToSection, Value.asKey_eq_ok.mpr ⟨hkey, rfl⟩, ok_bind, hnone]
        rfl
      rw [List.foldlM_cons, hstep, ok_bind, ih hkeys hdiffer]
      · rw [List.append_assoc]
        rfl
      · intro s hs e he
        rcases List.mem_append.mp hs with hs | hs
        · exact hnew s hs e (List.mem_cons_of_mem _ he)
        · rw [List.mem_singleton.mp hs]
          exact hfirst e he
  rw [sectionsOf, List.filter_eq_self.mpr hin]
  exact hfold [] fun s hs => absurd hs List.not_mem_nil

/-- Sections that hold some columns and no others, each column in a section of its name. -/
structure Gathered (cs : List Form.Column) (secs : List SectionColumns) : Prop where
  covers : ∀ c ∈ cs, ∃ s ∈ secs, c ∈ s.columns
  /-- A section is named by one of its columns. -/
  named : ∀ s ∈ secs, ∃ c ∈ s.columns, c.repeatingSection = s.name
  within : ∀ s ∈ secs, ∀ c ∈ s.columns,
    c ∈ cs ∧ (c.repeatingSection = s.name ∨ s.name.same c.repeatingSection = true)

/-- A section with a column more, when it has the name of the column's section. -/
def SectionColumns.gain (c : Form.Column) (s : SectionColumns) : SectionColumns :=
  if s.name.same c.repeatingSection then { s with columns := s.columns ++ [c] } else s

theorem SectionColumns.name_gain (c : Form.Column) (s : SectionColumns) :
    (s.gain c).name = s.name := by
  unfold gain
  split <;> rfl

theorem SectionColumns.mem_gain {c e : Form.Column} {s : SectionColumns} :
    e ∈ (s.gain c).columns ↔ e ∈ s.columns ∨ s.name.same c.repeatingSection = true ∧ e = c := by
  unfold gain
  split
  · rename_i hsame
    rw [List.mem_append, List.mem_singleton]
    simp only [hsame, true_and]
  · rename_i hdiffers
    exact ⟨Or.inl, fun h => h.resolve_right fun hsame => hdiffers hsame.1⟩

/-- A column joins the sections of its name or makes a section of its own behind them. -/
theorem addToSection_eq_ok {secs secs' : List SectionColumns} {c : Form.Column}
    (h : addToSection secs c = .ok secs') :
    (∃ s ∈ secs, s.name.same c.repeatingSection = true) ∧ secs' = secs.map (·.gain c) ∨
      secs' = secs ++ [⟨c.repeatingSection, [c]⟩] := by
  obtain ⟨name, hname, h⟩ := bind_eq_ok.mp h
  obtain ⟨-, rfl⟩ := Value.asKey_eq_ok.mp hname
  split at h
  · rename_i hany
    exact Or.inl ⟨List.any_eq_true.mp hany, (Except.ok.inj h).symm⟩
  · exact Or.inr (Except.ok.inj h).symm

theorem Gathered.gain {done : List Form.Column} {secs : List SectionColumns} {c : Form.Column}
    (h : Gathered done secs) (hsome : ∃ s ∈ secs, s.name.same c.repeatingSection = true) :
    Gathered (done ++ [c]) (secs.map (·.gain c)) := by
  refine ⟨fun e he => ?_, fun s' hs' => ?_, fun s' hs' e he => ?_⟩
  · rcases List.mem_append.mp he with he | he
    · obtain ⟨s, hs, hes⟩ := h.covers e he
      exact ⟨_, List.mem_map_of_mem hs, SectionColumns.mem_gain.mpr (Or.inl hes)⟩
    · obtain ⟨s, hs, hsame⟩ := hsome
      have hgain : e ∈ (s.gain c).columns :=
        SectionColumns.mem_gain.mpr (Or.inr ⟨hsame, List.mem_singleton.mp he⟩)
      exact ⟨_, List.mem_map_of_mem hs, hgain⟩
  · obtain ⟨s, hs, rfl⟩ := List.mem_map.mp hs'
    obtain ⟨e, he, hname⟩ := h.named s hs
    exact ⟨e, SectionColumns.mem_gain.mpr (Or.inl he), by rw [hname, SectionColumns.name_gain]⟩
  · obtain ⟨s, hs, rfl⟩ := List.mem_map.mp hs'
    rw [SectionColumns.name_gain]
    rcases SectionColumns.mem_gain.mp he with he | ⟨hsame, rfl⟩
    · exact ⟨List.mem_append_left _ (h.within s hs e he).1, (h.within s hs e he).2⟩
    · exact ⟨List.mem_append_right _ List.mem_cons_self, Or.inr hsame⟩

theorem Gathered.snoc {done : List Form.Column} {secs : List SectionColumns} (c : Form.Column)
    (h : Gathered done secs) : Gathered (done ++ [c]) (secs ++ [⟨c.repeatingSection, [c]⟩]) := by
  refine ⟨fun e he => ?_, fun s hs => ?_, fun s hs e he => ?_⟩
  · rcases List.mem_append.mp he with he | he
    · obtain ⟨s, hs, hes⟩ := h.covers e he
      exact ⟨s, List.mem_append_left _ hs, hes⟩
    · exact ⟨_, List.mem_append_right _ List.mem_cons_self, he⟩
  · rcases List.mem_append.mp hs with hs | hs
    · exact h.named s hs
    · obtain rfl := List.mem_singleton.mp hs
      exact ⟨c, List.mem_cons_self, rfl⟩
  · rcases List.mem_append.mp hs with hs | hs
    · exact ⟨List.mem_append_left _ (h.within s hs e he).1, (h.within s hs e he).2⟩
    · obtain rfl := List.mem_singleton.mp hs
      obtain rfl := List.mem_singleton.mp he
      exact ⟨List.mem_append_right _ List.mem_cons_self, Or.inl rfl⟩

theorem Gathered.add {done : List Form.Column} {secs secs' : List SectionColumns} {c : Form.Column}
    (h : Gathered done secs) (hadd : addToSection secs c = .ok secs') :
    Gathered (done ++ [c]) secs' := by
  rcases addToSection_eq_ok hadd with ⟨hsome, rfl⟩ | rfl
  · exact h.gain hsome
  · exact h.snoc c

theorem Gathered.addAll {done cs : List Form.Column} {secs secs' : List SectionColumns}
    (h : Gathered done secs) (hadd : cs.foldlM addToSection secs = .ok secs') :
    Gathered (done ++ cs) secs' := by
  induction cs generalizing done secs with
  | nil =>
    obtain rfl := Except.ok.inj hadd
    rwa [List.append_nil]
  | cons c cs ih =>
    rw [List.foldlM_cons] at hadd
    obtain ⟨secs₁, hfirst, hrest⟩ := bind_eq_ok.mp hadd
    rw [List.append_cons]
    exact ih (h.add hfirst) hrest

/-- The repeating sections hold the columns that lie in one. -/
theorem gathered_sectionsOf {cs : List Form.Column} {secs : List SectionColumns}
    (h : sectionsOf cs = .ok secs) : Gathered (cs.filter isInSection) secs := by
  have hnone : Gathered [] [] := ⟨fun _ hc => absurd hc List.not_mem_nil,
    fun _ hs => absurd hs List.not_mem_nil, fun _ hs => absurd hs List.not_mem_nil⟩
  exact hnone.addAll h

/-- A section whose table has a name is named as each of its columns says. -/
theorem Gathered.repeatingSection_eq {cs : List Form.Column} {secs : List SectionColumns}
    (h : Gathered (cs.filter isInSection) secs) {s : SectionColumns} (hs : s ∈ secs) {t : String}
    (ht : Identifier.tableNameOf s.name = .ok t) {c : Form.Column} (hc : c ∈ s.columns) :
    c.repeatingSection = s.name := by
  obtain ⟨e, he, hname⟩ := h.named s hs
  have hin := (List.mem_filter.mp (h.within s hs e he).1).2
  rw [isInSection, Bool.and_eq_true, hname] at hin
  obtain ⟨x, hx⟩ := Identifier.eq_text_of_tableNameOf hin.2 ht
  rcases (h.within s hs c hc).2 with heq | hsame
  · exact heq
  · obtain ⟨y, hy⟩ := Value.kind_eq_text.mp ((Value.kind_eq_text_of_same hsame).mp (hx ▸ rfl))
    rw [hx, hy, Value.same_text, beq_iff_eq] at hsame
    rw [hx, hy, hsame]

theorem Gathered.tableNameOf_eq {cs : List Form.Column} {secs : List SectionColumns}
    (h : Gathered (cs.filter isInSection) secs) {s : SectionColumns} (hs : s ∈ secs) {t : String}
    (ht : Identifier.tableNameOf s.name = .ok t) {c : Form.Column} (hc : c ∈ s.columns) :
    Identifier.tableNameOf c.repeatingSection = .ok t := by
  rw [h.repeatingSection_eq hs ht hc, ht]

/-! ## Each script -/

section
variable {d : Dialect} {f : Form} {main : String} {o : Options} {s : Script}

theorem mainScript_eq_ok (h : mainScript d f main = .ok s) : s.order = 1 ∧
    ∃ fields, fieldsOf d (plainColumns f) = .ok fields ∧
      s.body = .table ⟨main, systemFields d ++ fields, none, ["CreatedDate", "Status"]⟩ := by
  obtain ⟨fields, hfields, h⟩ := bind_eq_ok.mp h
  obtain rfl := Except.ok.inj h
  exact ⟨rfl, fields, hfields, rfl⟩

theorem sectionScript_eq_ok {sec : SectionColumns} {order : Nat}
    (h : sectionScript d main sec order = .ok s) : s.order = order ∧
    ∃ table fields, sectionTableName main sec.name = .ok table ∧
      fieldsOf d sec.columns = .ok fields ∧
      s.body = .table ⟨table, sectionFields d ++ fields, some main, [parentColumn]⟩ := by
  obtain ⟨table, htable, h⟩ := bind_eq_ok.mp h
  obtain ⟨fields, hfields, h⟩ := bind_eq_ok.mp h
  obtain rfl := Except.ok.inj h
  exact ⟨rfl, table, fields, htable, hfields, rfl⟩

theorem lookupScript_eq_ok {c : Form.Column} {order : Nat}
    (h : lookupScript main c order = .ok s) : s.order = order ∧
    ∃ column choices rows, Identifier.columnNameOf c.name = .ok column ∧
      Value.sortOn (·.order) c.validValues = .ok choices ∧
      choices.mapM LookupRow.ofChoice = .ok rows ∧
      s.body = .lookup ⟨main ++ "_" ++ column ++ "_Lookup", rows⟩ := by
  obtain ⟨column, hcolumn, h⟩ := bind_eq_ok.mp h
  obtain ⟨choices, hchoices, h⟩ := bind_eq_ok.mp h
  obtain ⟨rows, hrows, h⟩ := bind_eq_ok.mp h
  obtain rfl := Except.ok.inj h
  exact ⟨rfl, column, choices, rows, hcolumn, hchoices, hrows, rfl⟩

theorem summaryScript_eq_ok {secs : List SectionColumns} (h : summaryScript f main secs = .ok s) :
    s.order = 200 ∧ ∃ names counts,
      ((plainColumns f).take maxSummaryColumns).mapM (fun c => Identifier.columnNameOf c.name) =
        .ok names ∧
      secs.mapM (SectionCount.ofSection main) = .ok counts ∧
      s.body = .view ⟨"vw_" ++ main ++ "_Summary", main, summaryFields ++ names.eraseDups, counts⟩ := by
  obtain ⟨names, hnames, h⟩ := bind_eq_ok.mp h
  obtain ⟨counts, hcounts, h⟩ := bind_eq_ok.mp h
  obtain rfl := Except.ok.inj h
  exact ⟨rfl, names, counts, hnames, hcounts, rfl⟩

/-- The columns that have a lookup table. -/
def choiceColumns (f : Form) (o : Options) : List Form.Column :=
  if o.validationRules.isGiven then f.columns.filter fun c => !c.validValues.isEmpty else []

theorem mem_choiceColumns {c : Form.Column} : c ∈ choiceColumns f o ↔
    o.validationRules.isGiven = true ∧ c ∈ f.columns ∧ c.validValues ≠ [] := by
  unfold choiceColumns
  split
  · rename_i hgiven
    simp [hgiven]
  · rename_i hgiven
    simp [hgiven]

theorem lookupScripts_eq : lookupScripts f main o =
    (choiceColumns f o).zipIdx.mapM fun p => lookupScript main p.1 (firstLookupOrder + p.2) := by
  unfold lookupScripts choiceColumns
  split <;> rfl

/-- A script of the lookup tables is that of a column, -/
theorem exists_of_mem_lookupScripts {lookups : List Script}
    (h : lookupScripts f main o = .ok lookups) (hs : s ∈ lookups) :
    ∃ c order, c ∈ f.columns ∧ lookupScript main c order = .ok s := by
  rw [lookupScripts_eq] at h
  obtain ⟨p, hp, hscript⟩ := exists_of_mem_mapM_eq_ok h hs
  exact ⟨p.1, _, (mem_choiceColumns.mp (List.fst_mem_of_mem_zipIdx hp)).2.1, hscript⟩

/-- and each column with valid values has its script where they are asked for. -/
theorem exists_lookupScript {lookups : List Script} (h : lookupScripts f main o = .ok lookups)
    {c : Form.Column} (hc : c ∈ choiceColumns f o) :
    ∃ s ∈ lookups, ∃ k, lookupScript main c k = .ok s := by
  rw [lookupScripts_eq] at h
  obtain ⟨i, hi⟩ := List.getElem?_of_mem hc
  obtain ⟨s, hscript, hs⟩ := mem_of_mapM_eq_ok h (List.mk_mem_zipIdx_iff_getElem?.mpr hi)
  exact ⟨s, hs, _, hscript⟩

end

/-! ## All scripts -/

/-- What is made of a form: the scripts by their purpose, and all of them in order. -/
structure Made (d : Dialect) (f : Form) (main : String) (o : Options) (secs : List SectionColumns)
    (table : Script) (tables lookups : List Script) (summary : Script) (ss : List Script) : Prop where
  sections : sectionsOf f.columns = .ok secs
  checked : checkSections main [] secs = .ok ()
  mainTable : mainScript d f main = .ok table
  sectionTables :
    (secs.zipIdx.mapM fun p => sectionScript d main p.1 (firstSectionOrder + p.2)) = .ok tables
  lookupTables : lookupScripts f main o = .ok lookups
  view : summaryScript f main secs = .ok summary
  sorted : ss = ([table] ++ tables ++ lookups ++ [summary]).mergeSort fun a b => a.order ≤ b.order

/-- The scripts of a form are those that are made of it. -/
theorem scripts_eq_ok {d : Dialect} {f : Form} {main : String} {o : Options} {ss : List Script} :
    scripts d f main o = .ok ss ↔ ∃ secs table tables lookups summary,
      Made d f main o secs table tables lookups summary ss := by
  unfold scripts
  constructor
  · intro h
    obtain ⟨secs, hsecs, h⟩ := bind_eq_ok.mp h
    obtain ⟨⟨⟩, hchecked, h⟩ := bind_eq_ok.mp h
    obtain ⟨table, htable, h⟩ := bind_eq_ok.mp h
    obtain ⟨tables, htables, h⟩ := bind_eq_ok.mp h
    obtain ⟨lookups, hlookups, h⟩ := bind_eq_ok.mp h
    obtain ⟨summary, hsummary, h⟩ := bind_eq_ok.mp h
    obtain rfl := Except.ok.inj h
    exact ⟨secs, table, tables, lookups, summary,
      hsecs, hchecked, htable, htables, hlookups, hsummary, rfl⟩
  · rintro ⟨secs, table, tables, lookups, summary, hmade⟩
    rw [hmade.sections, ok_bind, hmade.checked, ok_bind, hmade.mainTable, ok_bind,
      hmade.sectionTables, ok_bind, hmade.lookupTables, ok_bind, hmade.view, ok_bind, hmade.sorted]
    rfl

namespace Made

variable {d : Dialect} {f : Form} {main : String} {o : Options} {secs : List SectionColumns}
  {table : Script} {tables lookups : List Script} {summary : Script} {ss : List Script}

/-- What the sections hold are the columns that lie in one. -/
theorem mem_section_iff (hmade : Made d f main o secs table tables lookups summary ss)
    {c : Form.Column} : (∃ s ∈ secs, c ∈ s.columns) ↔ c ∈ f.columns ∧ isInSection c = true := by
  have hgathered := gathered_sectionsOf hmade.sections
  rw [← List.mem_filter]
  exact ⟨fun ⟨s, hs, hc⟩ => (hgathered.within s hs c hc).1, hgathered.covers c⟩

/-- The names of the sections in tables differ, and they are those that columns give. -/
theorem exists_sectionNames (hmade : Made d f main o secs table tables lookups summary ss) :
    ∃ ts, secs.mapM (fun s => Identifier.tableNameOf s.name) = .ok ts ∧ ts.Nodup ∧
      ∀ t, t ∈ ts ↔ ∃ e ∈ f.columns, isInSection e = true ∧
        Identifier.tableNameOf e.repeatingSection = .ok t := by
  have hgathered := gathered_sectionsOf hmade.sections
  obtain ⟨names, hnames, hnodup, -⟩ := checkSections_eq_ok.mp hmade.checked
  simp only [sectionTableName_eq] at hnames
  obtain ⟨ts, hts, rfl⟩ := mapM_map_result_eq_ok.mp hnames
  have hinj : ∀ t t', main ++ "_" ++ t = main ++ "_" ++ t' → t = t' :=
    fun t t' => (String.append_right_inj _).mp
  refine ⟨ts, hts, (nodup_map_iff hinj).mp hnodup, fun t => ⟨fun ht => ?_, ?_⟩⟩
  · obtain ⟨s, hs, hst⟩ := exists_of_mem_mapM_eq_ok hts ht
    obtain ⟨e, he, hname⟩ := hgathered.named s hs
    obtain ⟨hmem, hin⟩ := hmade.mem_section_iff.mp ⟨s, hs, he⟩
    exact ⟨e, hmem, hin, by rw [hname, hst]⟩
  · rintro ⟨e, he, hin, ht⟩
    obtain ⟨s, hs, hes⟩ := hmade.mem_section_iff.mpr ⟨he, hin⟩
    obtain ⟨t', ht', hmem⟩ := mem_of_mapM_eq_ok hts hs
    obtain rfl := Except.ok.inj (ht.symm.trans (hgathered.tableNameOf_eq hs ht' hes))
    exact hmem

/-- Each section table is made of a section, -/
theorem exists_section (hmade : Made d f main o secs table tables lookups summary ss) {s : Script}
    (hs : s ∈ tables) : ∃ sec ∈ secs, ∃ k, sectionScript d main sec k = .ok s := by
  obtain ⟨p, hp, hscript⟩ := exists_of_mem_mapM_eq_ok hmade.sectionTables hs
  exact ⟨p.1, List.fst_mem_of_mem_zipIdx hp, _, hscript⟩

/-- and of each section one is made. -/
theorem exists_table (hmade : Made d f main o secs table tables lookups summary ss)
    {sec : SectionColumns} (hsec : sec ∈ secs) :
    ∃ s ∈ tables, ∃ k, sectionScript d main sec k = .ok s := by
  obtain ⟨i, hi⟩ := List.getElem?_of_mem hsec
  obtain ⟨s, hscript, hs⟩ :=
    mem_of_mapM_eq_ok hmade.sectionTables (List.mk_mem_zipIdx_iff_getElem?.mpr hi)
  exact ⟨s, hs, _, hscript⟩

end Made

/-! ## Products -/

/-- A form is generated when its name gives one for a table, its scripts can be made and it can be
counted. -/
theorem product_eq_ok_iff {d : Dialect} {f : Form} {o : Options} {p : Product} :
    product d f o = .ok p ↔ ∃ main ss s, Identifier.tableNameOf f.name = .ok main ∧
      scripts d f main o = .ok ss ∧ Statistics.collect f = .ok s ∧ p = {
        success := true
        target := target d
        output := "\n\n".intercalate (ss.map (·.output d o)) ++ "\n"
        outputPath := main ++ "_" ++ d.name ++ ".sql"
        artifacts := ss.foldl (fun as s => putArtifact as (s.name ++ ".sql") (s.output d o)) []
        statistics := .statistics s } := by
  unfold product
  constructor
  · intro h
    obtain ⟨main, hmain, h⟩ := bind_eq_ok.mp h
    obtain ⟨ss, hss, h⟩ := bind_eq_ok.mp h
    obtain ⟨s, hs, h⟩ := bind_eq_ok.mp h
    obtain rfl := Except.ok.inj h
    exact ⟨main, ss, s, hmain, hss, hs, rfl⟩
  · rintro ⟨main, ss, s, hmain, hss, hs, rfl⟩
    rw [hmain, ok_bind, hss, ok_bind, hs]
    rfl

end Formwright.Sql
