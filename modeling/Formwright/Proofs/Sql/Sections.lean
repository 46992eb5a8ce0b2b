import Formwright.Proofs.Form.Declared
import Formwright.Proofs.Pointwise
import Formwright.Proofs.Sql.Lookups
import Mathlib.Data.List.Induction
import Mathlib.Data.List.Nodup

/-
  The tables of a form whose fields have their declared types. The columns that name a repeating section
  are gathered by its name (`sectionsOf_eq`), and tables are told apart by the names that are made of
  these, so the scripts are refused exactly when two sections lead to one name. Otherwise each section
  has one table, in order of first appearance, and a table has a line for each of its data columns, the
  first one of each name (`scripts_tabled`). What else can fail is writing a lookup table: the place of
  an option may have too many digits.
-/

namespace Formwright.Sql

/-! ## Data columns -/

/-- The name of a data column in its table. -/
def fieldName (c : Form.Column) : String := Identifier.columnName (c.name.text?.getD "")

theorem columnNameOf_of_declared {c : Form.Column} (hc : c.Declared) :
    Identifier.columnNameOf c.name = .ok (fieldName c) := by
  obtain ⟨s, hs⟩ := hc.name
  rw [fieldName, hs, Identifier.columnNameOf_text]
  rfl

/-- A data column as a column of a table. -/
def dataField (d : Dialect) (c : Form.Column) : Field := ⟨fieldName c, d.columnType c.type ++ " NULL"⟩

/-- The line of a data column in the script of its table. -/
def columnLine (d : Dialect) (c : Form.Column) : String :=
  "    " ++ d.quote (fieldName c) ++ " " ++ (d.columnType c.type ++ " NULL")

/-- A table with the lines of some data columns, the first one of each name, behind the lines of the
columns that it has anyway. -/
def Table.Holds (d : Dialect) (own : List Field) (cs : List Form.Column) (t : Table) : Prop :=
  t.fields.map (Field.text d) =
    own.map (Field.text d) ++ (firsts fieldName cs).map (columnLine d)

section
variable {d : Dialect} {cs : List Form.Column}

theorem fieldsOf_eq (hcs : ∀ c ∈ cs, c.Declared) :
    fieldsOf d cs = .ok ((firsts fieldName cs).map (dataField d)) := by
  have hfields : (cs.mapM fun c => do
      return (⟨← Identifier.columnNameOf c.name, d.columnType c.type ++ " NULL"⟩ : Field)) =
        .ok (cs.map (dataField d)) := by
    rw [mapM_eq_ok, List.map_map]
    refine List.map_congr_left fun c hc => ?_
    rw [columnNameOf_of_declared (hcs c hc)]
    rfl
  have hfirsts : (cs.map (dataField d)).foldl (keepFirst Field.name) [] =
      (firsts fieldName cs).map (dataField d) := by
    rw [foldl_keepFirst, firsts_map]
    rfl
  rw [fieldsOf, hfields, ok_bind]
  exact congrArg Except.ok hfirsts

theorem Table.holds_append (own : List Field) (name : String) (parent : Option String)
    (indexed : List String) : Table.Holds d own cs
      ⟨name, own ++ (firsts fieldName cs).map (dataField d), parent, indexed⟩ := by
  rw [Table.Holds, List.map_append, List.map_map]
  rfl

end

/-! ## Sections -/

/-- The names of the repeating sections of some columns, in order of first appearance. -/
def sectionNames (cs : List Form.Column) : List String :=
  ((cs.filter isInSection).filterMap (·.repeatingSection.text?)).eraseDups

/-- The columns that lie in a section. -/
def columnsIn (cs : List Form.Column) (name : String) : List Form.Column :=
  cs.filter fun c => c.repeatingSection.text? == some name && isInSection c

/-- Two different sections whose tables would have one name. -/
def SectionsCollide (cs : List Form.Column) : Prop :=
  ∃ s ∈ sectionNames cs, ∃ t ∈ sectionNames cs,
    s ≠ t ∧ Identifier.tableName s = Identifier.tableName t

/-- Columns gathered by the texts that name their sections. -/
def byName (cs : List Form.Column) : List SectionColumns :=
  (cs.filterMap (·.repeatingSection.text?)).eraseDups.map fun s =>
    ⟨.text s, cs.filter (·.repeatingSection.text? == some s)⟩

/-- One more column goes to the section of its name, or it makes a section at the end. -/
theorem addToSection_byName (cs : List Form.Column) {c : Form.Column} {t : String}
    (hc : c.repeatingSection = .text t) : addToSection (byName cs) c = .ok (byName (cs ++ [c])) := by
  have htext : c.repeatingSection.text? = some t := by rw [hc]; rfl
  have hkey : c.repeatingSection.asKey = .ok (.text t) := by rw [hc]; rfl
  have hnames : (cs ++ [c]).filterMap (·.repeatingSection.text?) =
      cs.filterMap (·.repeatingSection.text?) ++ [t] := by
    rw [List.filterMap_append]
    simp [htext]
  have hjoin : ∀ s, (cs ++ [c]).filter (·.repeatingSection.text? == some s) =
      cs.filter (·.repeatingSection.text? == some s) ++ if s = t then [c] else [] := by
    intro s
    rw [List.filter_append, List.filter_cons, htext, List.filter_nil]
    by_cases hst : s = t
    · simp [hst]
    · simp [hst, Ne.symm hst]
  have hany : (byName cs).any (·.name.same (.text t)) =
      (cs.filterMap (·.repeatingSection.text?)).eraseDups.any (· == t) := by
    rw [byName, List.any_map]
    simp only [Function.comp_def, Value.same_text]
  rw [addToSection, hkey, ok_bind, hany, byName, byName, hnames, eraseDups_append_singleton, keepFirst]
  simp only [id, hjoin]
  by_cases hold : (cs.filterMap (·.repeatingSection.text?)).eraseDups.any (· == t) = true
  · rw [if_pos hold, if_pos hold, List.map_map]
    refine congrArg Except.ok (List.map_congr_left fun s _ => ?_)
    by_cases hst : s = t
    · simp [hst, Value.same_text]
    · simp [hst, Value.same_text]
  · -- the section is new, so no column before lies in it
    have hnew : t ∉ cs.filterMap (·.repeatingSection.text?) := by
      intro hmem
      exact hold (List.any_eq_true.mpr ⟨t, List.mem_eraseDups.mpr hmem, beq_self_eq_true t⟩)
    have hnone : cs.filter (·.repeatingSection.text? == some t) = [] := by
      refine List.filter_eq_nil_iff.mpr fun e he heq => hnew ?_
      exact List.mem_filterMap.mpr ⟨e, he, beq_iff_eq.mp heq⟩
    rw [if_neg hold, if_neg hold, List.map_append, List.map_singleton, hnone, if_pos rfl,
      List.nil_append]
    refine congrArg (fun ss => Except.ok (ss ++ [_])) (List.map_congr_left fun s hs => ?_)
    rw [if_neg, List.append_nil]
    rintro rfl
    exact hnew (List.mem_eraseDups.mp hs)

theorem foldlM_addToSection {cs : List Form.Column} (hcs : ∀ c ∈ cs, c.repeatingSection.IsString) :
    cs.foldlM addToSection [] = .ok (byName cs) := by
  induction cs using List.reverseRecOn with
  | nil => rfl
  | append_singleton cs c ih =>
    obtain ⟨hcs, hc⟩ := List.forall_mem_append.mp hcs
    obtain ⟨t, ht⟩ := hc c (List.mem_singleton.mpr rfl)
    rw [List.foldlM_append, ih hcs, ok_bind, List.foldlM_cons, addToSection_byName cs ht]
    rfl

/-- The sections of a form are those that its columns name, each with its columns. -/
theorem sectionsOf_eq {cs : List Form.Column} (hcs : ∀ c ∈ cs, c.Declared) :
    sectionsOf cs = .ok ((sectionNames cs).map fun s => ⟨.text s, columnsIn cs s⟩) := by
  have hnamed : ∀ c ∈ cs.filter isInSection, c.repeatingSection.IsString := by
    intro c hc
    obtain ⟨hc, hin⟩ := List.mem_filter.mp hc
    rw [isInSection, Bool.and_eq_true] at hin
    rcases (hcs c hc).repeatingSection with hnull | htext
    · rw [hnull] at hin
      cases hin.2
    · exact htext
  rw [sectionsOf, foldlM_addToSection hnamed, byName, sectionNames]
  refine congrArg Except.ok (List.map_congr_left fun s _ => ?_)
  rw [columnsIn, List.filter_filter]

theorem tableNames_eq (main : String) (cs : List Form.Column) :
    ((sectionNames cs).map fun s => (⟨.text s, columnsIn cs s⟩ : SectionColumns)).mapM
      (fun s => sectionTableName main s.name) =
        .ok ((sectionNames cs).map fun s => main ++ "_" ++ Identifier.tableName s) := by
  rw [mapM_eq_ok, List.map_map, List.map_map]
  exact List.map_congr_left fun s _ => sectionTableName_text main s

/-- Sections whose tables have names are refused only for two that would share a table. -/
theorem category_of_checkSections {main : String} {taken : List (String × Value)}
    {secs : List SectionColumns} {names : List String} {e : Fault}
    (hnames : secs.mapM (fun s => sectionTableName main s.name) = .ok names)
    (h : checkSections main taken secs = .error e) : e.category = .generation := by
  induction secs generalizing taken names with
  | nil => cases h
  | cons s secs ih =>
    obtain ⟨n, rest, hn, hrest, -⟩ := mapM_cons_eq_ok.mp hnames
    rw [checkSections, hn, ok_bind] at h
    split at h
    · obtain rfl := Except.error.inj h
      rfl
    · exact ih hrest h

/-- The sections pass the check when no two of them would share a table. -/
theorem checkSections_eq_ok_iff {main : String} {cs : List Form.Column} :
    checkSections main [] ((sectionNames cs).map fun s => ⟨.text s, columnsIn cs s⟩) = .ok () ↔
      ¬ SectionsCollide cs := by
  have hinj : ∀ s t : String, main ++ "_" ++ s = main ++ "_" ++ t → s = t :=
    fun s t => (String.append_right_inj _).mp
  have hnodup : ((sectionNames cs).map fun s => main ++ "_" ++ Identifier.tableName s).Nodup ↔
      ¬ SectionsCollide cs := by
    have hnames : (sectionNames cs).Nodup := nodup_eraseDups _
    rw [List.nodup_map_iff_inj_on hnames]
    constructor
    · rintro hall ⟨s, hs, t, ht, hne, heq⟩
      exact hne (hall s hs t ht (by rw [heq]))
    · intro hnone s hs t ht heq
      by_contra hne
      exact hnone ⟨s, hs, t, ht, hne, hinj _ _ heq⟩
  rw [checkSections_eq_ok, ← hnodup]
  constructor
  · rintro ⟨names, hnames, hdistinct, -⟩
    obtain rfl := Except.ok.inj ((tableNames_eq main cs).symm.trans hnames)
    exact hdistinct
  · exact fun hdistinct => ⟨_, tableNames_eq main cs, hdistinct, fun n _ => List.not_mem_nil⟩

/-! ## Lookup tables -/

/-- The place of every valid value has few enough digits to be written. -/
def PlacesWritable (f : Form) : Prop :=
  ∀ c ∈ f.columns, ∀ x ∈ c.validValues, ∀ n, x.order = .int n →
    (Nat.toDigits 10 n.natAbs).length ≤ maxIntegerDigits

theorem exists_ofChoice? {x : Form.Choice} (hx : x.Declared) : ∃ e, Entry.ofChoice? x = some e := by
  obtain ⟨⟨v, hv⟩, ⟨t, ht⟩, ⟨b, -⟩, ⟨n, hn⟩⟩ := hx
  exact ⟨⟨v, t, x.isDefault.isGiven, n⟩, Entry.ofChoice?_eq_some.mpr ⟨hv, ht, rfl, hn⟩⟩

/-- Choices of declared types are options. -/
theorem exists_entries {xs : List Form.Choice} (hxs : ∀ x ∈ xs, x.Declared) :
    ∃ es : List Entry, xs.map Entry.ofChoice? = es.map some := by
  induction xs with
  | nil => exact ⟨[], rfl⟩
  | cons x xs ih =>
    obtain ⟨hx, hxs⟩ := List.forall_mem_cons.mp hxs
    obtain ⟨e, he⟩ := exists_ofChoice? hx
    obtain ⟨es, hes⟩ := ih hxs
    exact ⟨e :: es, by rw [List.map_cons, List.map_cons, he, hes]⟩

section
variable {main : String} {c : Form.Column} {k : Nat}

/-- The lookup table of a column can be written when the places of its options can. -/
theorem exists_lookupScript_of_declared (hc : c.Declared) : (∃ s, lookupScript main c k = .ok s) ↔
    ∀ x ∈ c.validValues, ∀ n, x.order = .int n →
      (Nat.toDigits 10 n.natAbs).length ≤ maxIntegerDigits := by
  obtain ⟨es, hes⟩ := exists_entries hc.validValues
  rw [exists_lookupScript_iff hes]
  have hplaces := Entry.map_eq_of_ofChoice? (p := (·.order)) (q := fun e => Value.int e.order)
    (fun x e he => (Entry.ofChoice?_eq_some.mp he).2.2.2) hes
  constructor
  · rintro ⟨-, hall⟩ x hx n hn
    obtain ⟨e, he, hplace⟩ := List.mem_map.mp (hplaces ▸ List.mem_map_of_mem hx)
    obtain rfl := Value.int.inj (hplace.trans hn)
    exact hall e he
  · refine fun hall => ⟨⟨_, columnNameOf_of_declared hc⟩, fun e he => ?_⟩
    obtain ⟨x, hx, hplace⟩ := List.mem_map.mp (hplaces ▸ List.mem_map_of_mem he)
    exact hall x hx _ hplace

/-- It fails for nothing else. -/
theorem lookupScript_eq_error (hc : c.Declared) {e : Fault} (h : lookupScript main c k = .error e) :
    e = .badValue .integerUnwritable := by
  obtain ⟨es, hes⟩ := exists_entries hc.validValues
  obtain ⟨sorted, hsorted, hentries⟩ := Entry.exists_sortOn hes
  rw [lookupScript, columnNameOf_of_declared hc, ok_bind, hsorted, ok_bind] at h
  rcases bind_eq_error.mp h with h | ⟨rows, -, h⟩
  · obtain ⟨x, hx, hrow⟩ := exists_of_mapM_eq_error h
    obtain ⟨y, -, hxy⟩ := List.mem_map.mp (hentries ▸ List.mem_map_of_mem hx)
    rw [Entry.ofChoice_eq_written x y hxy.symm, Entry.written] at hrow
    split at hrow
    · cases hrow
    · exact (Except.error.inj hrow).symm
  · cases h

end

section
variable {f : Form} {main : String} {o : Options}

theorem exists_lookupScripts_iff (main : String) (hf : f.Declared) :
    (∃ ss, lookupScripts f main o = .ok ss) ↔ (o.validationRules.isGiven = true → PlacesWritable f) := by
  rw [lookupScripts_eq, exists_mapM_eq_ok]
  constructor
  · intro h hgiven c hc x hx
    have hchoice : c ∈ choiceColumns f o :=
      mem_choiceColumns.mpr ⟨hgiven, hc, List.ne_nil_of_mem hx⟩
    obtain ⟨i, hi⟩ := List.getElem?_of_mem hchoice
    have hscript := h (c, i) (List.mk_mem_zipIdx_iff_getElem?.mpr hi)
    exact (exists_lookupScript_of_declared (hf.columns c hc)).mp hscript x hx
  · intro h p hp
    obtain ⟨hgiven, hc, -⟩ := mem_choiceColumns.mp (List.fst_mem_of_mem_zipIdx hp)
    exact (exists_lookupScript_of_declared (hf.columns _ hc)).mpr (h hgiven _ hc)

theorem lookupScripts_eq_error (hf : f.Declared) {e : Fault} (h : lookupScripts f main o = .error e) :
    e = .badValue .integerUnwritable := by
  rw [lookupScripts_eq] at h
  obtain ⟨p, hp, hscript⟩ := exists_of_mapM_eq_error h
  obtain ⟨-, hc, -⟩ := mem_choiceColumns.mp (List.fst_mem_of_mem_zipIdx hp)
  exact lookupScript_eq_error (hf.columns _ hc) hscript

end

/-! ## All scripts -/

/-- All scripts but the lookup tables, none of which depends on options. -/
structure Fixed (d : Dialect) (f : Form) (main : String) (secs : List SectionColumns) (table : Script)
    (tables : List Script) (summary : Script) : Prop where
  sections : sectionsOf f.columns = .ok secs
  checked : checkSections main [] secs = .ok ()
  mainTable : mainScript d f main = .ok table
  sectionTables :
    (secs.zipIdx.mapM fun p => sectionScript d main p.1 (firstSectionOrder + p.2)) = .ok tables
  view : summaryScript f main secs = .ok summary

section
variable {d : Dialect} {f : Form} {main : String} {secs : List SectionColumns} {table : Script}
  {tables : List Script} {summary : Script}

/-- With the lookup tables, all scripts are there. -/
theorem Fixed.scripts_eq (h : Fixed d f main secs table tables summary) (o : Options) :
    scripts d f main o = (fun lookups => ([table] ++ tables ++ lookups ++ [summary]).mergeSort
      fun a b => a.order ≤ b.order) <$> lookupScripts f main o := by
  rw [scripts, h.sections, ok_bind, h.checked, ok_bind, h.mainTable, ok_bind, h.sectionTables, ok_bind]
  cases lookupScripts f main o with
  | error e => rfl
  | ok lookups =>
    rw [ok_bind, h.view]
    rfl

theorem exists_mainScript (d : Dialect) (main : String) (hf : f.Declared) :
    ∃ s, mainScript d f main = .ok s := by
  have hplain : ∀ c ∈ plainColumns f, c.Declared :=
    fun c hc => hf.columns c (List.mem_filter.mp hc).1
  rw [mainScript, fieldsOf_eq hplain]
  exact ⟨_, rfl⟩

theorem declared_of_mem_columnsIn (hf : f.Declared) {name : String} :
    ∀ c ∈ columnsIn f.columns name, c.Declared :=
  fun c hc => hf.columns c (List.mem_filter.mp hc).1

theorem exists_summaryScript (main : String) (hf : f.Declared) : ∃ s, summaryScript f main
    ((sectionNames f.columns).map fun s => ⟨.text s, columnsIn f.columns s⟩) = .ok s := by
  have hnames : ∃ names, ((plainColumns f).take maxSummaryColumns).mapM
      (fun c => Identifier.columnNameOf c.name) = .ok names := by
    refine exists_mapM_eq_ok.mpr fun c hc => ?_
    have hplain := (List.mem_filter.mp (List.mem_of_mem_take hc)).1
    exact ⟨_, columnNameOf_of_declared (hf.columns c hplain)⟩
  have hcounts : ∃ counts, ((sectionNames f.columns).map fun s =>
      (⟨.text s, columnsIn f.columns s⟩ : SectionColumns)).mapM (SectionCount.ofSection main) =
        .ok counts := by
    refine exists_mapM_eq_ok.mpr fun s hs => ?_
    obtain ⟨name, -, rfl⟩ := List.mem_map.mp hs
    rw [SectionCount.ofSection, sectionTableName_text, Identifier.tableNameOf_text]
    exact ⟨_, rfl⟩
  obtain ⟨names, hnames⟩ := hnames
  obtain ⟨counts, hcounts⟩ := hcounts
  rw [summaryScript, hnames, ok_bind, hcounts]
  exact ⟨_, rfl⟩

/-- Where no two sections would share a table, all scripts but the lookup tables can be made. -/
theorem exists_fixed (d : Dialect) (main : String) (hf : f.Declared)
    (hapart : ¬ SectionsCollide f.columns) :
    ∃ secs table tables summary, Fixed d f main secs table tables summary := by
  have htables : ∃ tables, (((sectionNames f.columns).map fun s =>
      (⟨.text s, columnsIn f.columns s⟩ : SectionColumns)).zipIdx.mapM fun p =>
        sectionScript d main p.1 (firstSectionOrder + p.2)) = .ok tables := by
    refine exists_mapM_eq_ok.mpr fun p hp => ?_
    obtain ⟨name, -, hname⟩ := List.mem_map.mp (List.fst_mem_of_mem_zipIdx hp)
    rw [← hname, sectionScript, sectionTableName_text, ok_bind,
      fieldsOf_eq (declared_of_mem_columnsIn hf)]
    exact ⟨_, rfl⟩
  obtain ⟨table, htable⟩ := exists_mainScript d main hf
  obtain ⟨tables, htables⟩ := htables
  obtain ⟨summary, hsummary⟩ := exists_summaryScript main hf
  exact ⟨_, table, tables, summary,
    sectionsOf_eq hf.columns, checkSections_eq_ok_iff.mpr hapart, htable, htables, hsummary⟩

/-- Where two would, the form is refused, whatever the options. -/
theorem scripts_of_collide (d : Dialect) (main : String) (hf : f.Declared)
    (h : SectionsCollide f.columns) :
    ∃ e, e.category = .generation ∧ ∀ o, scripts d f main o = .error e := by
  cases hcheck : checkSections main []
      ((sectionNames f.columns).map fun s => ⟨.text s, columnsIn f.columns s⟩) with
  | error e =>
    refine ⟨e, category_of_checkSections (tableNames_eq main f.columns) hcheck, fun o => ?_⟩
    rw [scripts, sectionsOf_eq hf.columns, ok_bind, hcheck]
    rfl
  | ok u => exact absurd h (checkSections_eq_ok_iff.mp hcheck)

end

section
variable {d : Dialect} {f : Form} {main : String} {o : Options}

/-- Scripts can be made when no two sections would share a table and the lookup tables that are asked
for can be written. -/
theorem exists_scripts_iff (d : Dialect) (main : String) (o : Options) (hf : f.Declared) :
    (∃ ss, scripts d f main o = .ok ss) ↔
    ¬ SectionsCollide f.columns ∧ (o.validationRules.isGiven = true → PlacesWritable f) := by
  by_cases hcollide : SectionsCollide f.columns
  · obtain ⟨e, -, he⟩ := scripts_of_collide d main hf hcollide
    simp [he, hcollide]
  · obtain ⟨secs, table, tables, summary, hfixed⟩ := exists_fixed d main hf hcollide
    rw [hfixed.scripts_eq o, ← exists_lookupScripts_iff main hf]
    simp only [map_eq_ok, hcollide, not_false_eq_true, true_and]
    exact ⟨fun ⟨_, lookups, hlookups, _⟩ => ⟨lookups, hlookups⟩,
      fun ⟨lookups, hlookups⟩ => ⟨_, lookups, hlookups, rfl⟩⟩

/-- A form is refused only for sections that would share a table. -/
theorem exists_refused_iff (hf : f.Declared) :
    (∃ e, scripts d f main o = .error e ∧ e.category = .generation) ↔ SectionsCollide f.columns := by
  constructor
  · rintro ⟨e, he, hcategory⟩
    by_contra hapart
    obtain ⟨secs, table, tables, summary, hfixed⟩ := exists_fixed d main hf hapart
    rw [hfixed.scripts_eq o, map_eq_error] at he
    rw [lookupScripts_eq_error hf he] at hcategory
    cases hcategory
  · intro hcollide
    obtain ⟨e, hcategory, he⟩ := scripts_of_collide d main hf hcollide
    exact ⟨e, he o, hcategory⟩

end

/-! ## The tables among the scripts -/

def Body.isMainTable : Body → Bool
  | .table t => t.parent.isNone
  | _ => false

def Body.isSectionTable : Body → Bool
  | .table t => t.parent.isSome
  | _ => false

def Body.isLookup : Body → Bool
  | .lookup _ => true
  | _ => false

/-- The tables among the scripts of a form: one main table with the columns that do not repeat, and one
table for each section with the columns of that section, in order of first appearance. -/
structure Tabled (d : Dialect) (f : Form) (main : String) (ss : List Script) : Prop where
  mainTable : ∃ s t, ss.filter (·.body.isMainTable) = [s] ∧ s.body = .table t ∧ t.name = main ∧
    t.Holds d (systemFields d) (plainColumns f)
  sectionTables : List.Forall₂
    (fun s name => ∃ t, s.body = .table t ∧ t.name = main ++ "_" ++ Identifier.tableName name ∧
      t.parent = some main ∧ t.Holds d (sectionFields d) (columnsIn f.columns name))
    (ss.filter (·.body.isSectionTable)) (sectionNames f.columns)

theorem filter_of_forall {α : Type} {p : α → Bool} {b : Bool} {xs : List α} (h : ∀ x ∈ xs, p x = b) :
    xs.filter p = if b then xs else [] := by
  cases b with
  | true => exact List.filter_eq_self.mpr h
  | false => exact List.filter_eq_nil_iff.mpr fun x hx => by simp [h x hx]

/-- Scripts that are numbered one after the other are in order. -/
theorem pairwise_of_order {ss : List Script} {start : Nat}
    (h : ∀ {k : Nat} {s : Script}, ss[k]? = some s → s.order = start + k) :
    ss.Pairwise fun a b => decide (a.order ≤ b.order) = true := by
  refine List.pairwise_iff_getElem.mpr fun i j hi hj hij => decide_eq_true ?_
  rw [h (List.getElem?_eq_getElem hi), h (List.getElem?_eq_getElem hj)]
  omega

namespace Made

variable {d : Dialect} {f : Form} {main : String} {o : Options} {secs : List SectionColumns}
  {table : Script} {tables lookups : List Script} {summary : Script} {ss : List Script}

/-- A property of what scripts make that is one for each purpose of a script picks the scripts of some
purposes. -/
theorem filter_body (hmade : Made d f main o secs table tables lookups summary ss) {p : Body → Bool}
    {isMain isTable isLookup isView : Bool} (hmain : ∀ t, t.parent = none → p (.table t) = isMain)
    (htables : ∀ t, t.parent = some main → p (.table t) = isTable)
    (hlookups : ∀ l, p (.lookup l) = isLookup) (hview : ∀ v, p (.view v) = isView) :
    (ss.filter fun s => p s.body) =
      ((if isMain then [table] else []) ++ (if isTable then tables else []) ++
        (if isLookup then lookups else []) ++ (if isView then [summary] else [])).mergeSort
          fun a b => a.order ≤ b.order := by
  have htable : ∀ s ∈ [table], p s.body = isMain := by
    obtain ⟨t, ht, -, hparent⟩ := hmade.isMain_table
    rw [List.forall_mem_singleton, ht]
    exact hmain t hparent
  have htables : ∀ s ∈ tables, p s.body = isTable := by
    intro s hs
    obtain ⟨t, ht, hparent⟩ := hmade.exists_of_mem_tables hs
    rw [ht]
    exact htables t hparent
  have hlookups : ∀ s ∈ lookups, p s.body = isLookup := by
    intro s hs
    obtain ⟨l, hl⟩ := hmade.exists_of_mem_lookups hs
    rw [hl]
    exact hlookups l
  have hsummary : ∀ s ∈ [summary], p s.body = isView := by
    obtain ⟨-, v, hv, -⟩ := hmade.exists_view
    rw [List.forall_mem_singleton, hv]
    exact hview v
  rw [hmade.sorted, filter_mergeSort Script.order, List.filter_append, List.filter_append,
    List.filter_append, filter_of_forall htable, filter_of_forall htables, filter_of_forall hlookups,
    filter_of_forall hsummary]

theorem filter_isMainTable (hmade : Made d f main o secs table tables lookups summary ss) :
    ss.filter (·.body.isMainTable) = [table] := by
  have hpick := hmade.filter_body (p := Body.isMainTable) (fun t ht => by rw [Body.isMainTable, ht])
    (fun t ht => by rw [Body.isMainTable, ht]) (fun _ => rfl) fun _ => rfl
  simp only [Option.isNone_none, Option.isNone_some, Bool.false_eq_true, if_false, if_true,
    List.append_nil] at hpick
  rw [hpick, List.mergeSort_singleton]

theorem filter_isSectionTable (hmade : Made d f main o secs table tables lookups summary ss) :
    ss.filter (·.body.isSectionTable) = tables := by
  have hpick := hmade.filter_body (p := Body.isSectionTable)
    (fun t ht => by rw [Body.isSectionTable, ht])
    (fun t ht => by rw [Body.isSectionTable, ht]) (fun _ => rfl) fun _ => rfl
  simp only [Option.isSome_none, Option.isSome_some, Bool.false_eq_true, if_false, if_true,
    List.nil_append, List.append_nil] at hpick
  rw [hpick, List.mergeSort_of_pairwise (pairwise_of_order fun hs => (hmade.getElem?_tables hs).1)]

theorem forall₂_tables (hmade : Made d f main o secs table tables lookups summary ss)
    (hf : f.Declared) : List.Forall₂
      (fun s name => ∃ t, s.body = .table t ∧ t.name = main ++ "_" ++ Identifier.tableName name ∧
        t.parent = some main ∧ t.Holds d (sectionFields d) (columnsIn f.columns name))
      tables (sectionNames f.columns) := by
  have htables := mapM_eq_ok.mp hmade.sectionTables
  obtain rfl := Except.ok.inj ((sectionsOf_eq hf.columns).symm.trans hmade.sections)
  rw [List.zipIdx_map, List.map_map, ← mapM_eq_ok] at htables
  rw [← List.zipIdx_map_fst 0 (sectionNames f.columns), List.forall₂_map_right_iff]
  refine forall₂_of_mapM_eq_ok (fun p _ s hs => ?_) htables
  obtain ⟨-, name, fields, hname, hfields, hbody⟩ := sectionScript_eq_ok hs
  obtain rfl := Except.ok.inj ((sectionTableName_text main p.1).symm.trans hname)
  obtain rfl := Except.ok.inj ((fieldsOf_eq (declared_of_mem_columnsIn hf)).symm.trans hfields)
  exact ⟨_, hbody, rfl, rfl, Table.holds_append _ _ _ _⟩

theorem tabled (hmade : Made d f main o secs table tables lookups summary ss) (hf : f.Declared) :
    Tabled d f main ss := by
  constructor
  · have hplain : ∀ c ∈ plainColumns f, c.Declared :=
      fun c hc => hf.columns c (List.mem_filter.mp hc).1
    obtain ⟨-, fields, hfields, hbody⟩ := mainScript_eq_ok hmade.mainTable
    obtain rfl := Except.ok.inj ((fieldsOf_eq hplain).symm.trans hfields)
    exact ⟨table, _, hmade.filter_isMainTable, hbody, rfl, Table.holds_append _ _ _ _⟩
  · rw [hmade.filter_isSectionTable]
    exact hmade.forall₂_tables hf

end Made

/-- A form whose fields have their declared types is refused exactly when two different sections would
share a table. Scripts are made exactly when it is not refused and, where lookup tables are asked for,
the places of the valid values can be written; they then have one main table and one table for each
section, in order of first appearance, and each table has a line for each of its data columns, the first
one of each name, behind those of the columns that it has anyway. -/
theorem scripts_tabled {d : Dialect} {f : Form} {main : String} {o : Options} (hf : f.Declared) :
    ((∃ e, scripts d f main o = .error e ∧ e.category = .generation) ↔ SectionsCollide f.columns) ∧
    ((∃ ss, scripts d f main o = .ok ss) ↔
      ¬ SectionsCollide f.columns ∧ (o.validationRules.isGiven = true → PlacesWritable f)) ∧
    ∀ ss, scripts d f main o = .ok ss → Tabled d f main ss := by
  refine ⟨exists_refused_iff hf, exists_scripts_iff d main o hf, fun ss hss => ?_⟩
  obtain ⟨secs, table, tables, lookups, summary, hmade⟩ := scripts_eq_ok.mp hss
  exact hmade.tabled hf

/-! ## Forms of declared types -/

theorem declared_textColumn (name : String) : (textColumn name).Declared :=
  ⟨⟨_, rfl⟩, ⟨_, rfl⟩, fun _ hx => absurd hx List.not_mem_nil, ⟨_, rfl⟩, Or.inl rfl, ⟨_, rfl⟩, Or.inl rfl,
    Or.inl rfl⟩

theorem declared_sectionColumn (sec : String) : (sectionColumn sec).Declared :=
  ⟨⟨_, rfl⟩, ⟨_, rfl⟩, fun _ hx => absurd hx List.not_mem_nil, ⟨_, rfl⟩, Or.inr ⟨_, rfl⟩, ⟨_, rfl⟩,
    Or.inl rfl, Or.inl rfl⟩

theorem declared_formOf {cs : List Form.Column} (hcs : ∀ c ∈ cs, c.Declared) : (formOf cs).Declared where
  id := ⟨_, rfl⟩
  name := ⟨_, rfl⟩
  formType := Or.inl rfl
  views := fun _ hv => absurd hv List.not_mem_nil
  columns := hcs
  dynamicSections := fun _ hs => absurd hs List.not_mem_nil
  metadata := ⟨⟨_, rfl⟩, ⟨_, rfl⟩, ⟨_, rfl⟩, ⟨_, rfl⟩, fun _ hn => absurd hn List.not_mem_nil⟩
  sourceWarnings := fun _ hw => absurd hw List.not_mem_nil

/-- A column of a section with one valid value. -/
def placedColumn (sec : String) (place : Int) : Form.Column :=
  { sectionColumn sec with validValues := [⟨.text "x", .text "X", .bool false, .int place⟩] }

theorem declared_placedColumn (sec : String) (place : Int) : (placedColumn sec place).Declared :=
  { declared_sectionColumn sec with
    validValues := List.forall_mem_singleton.mpr ⟨⟨_, rfl⟩, ⟨_, rfl⟩, ⟨_, rfl⟩, ⟨_, rfl⟩⟩ }

/-- Columns of two sections by turns, two of them with one name. -/
def mixedColumns : List Form.Column :=
  [sectionColumn "Items", textColumn "Note", placedColumn "Parts" 1, sectionColumn "Items"]

theorem declared_mixedColumns : ∀ c ∈ mixedColumns, c.Declared := by
  intro c hc
  simp only [mixedColumns, List.mem_cons, List.not_mem_nil, or_false] at hc
  rcases hc with rfl | rfl | rfl | rfl
  · exact declared_sectionColumn _
  · exact declared_textColumn _
  · exact declared_placedColumn _ _
  · exact declared_sectionColumn _

instance (cs : List Form.Column) : Decidable (SectionsCollide cs) :=
  inferInstanceAs (Decidable (∃ s ∈ sectionNames cs, ∃ t ∈ sectionNames cs, _))

theorem placesWritable_mixedColumns : PlacesWritable (formOf mixedColumns) := by
  intro c hc x hx n hn
  simp only [formOf, mixedColumns, List.mem_cons, List.not_mem_nil, or_false] at hc
  rcases hc with rfl | rfl | rfl | rfl
  · cases hx
  · cases hx
  · obtain rfl := List.mem_singleton.mp hx
    obtain rfl := Value.int.inj hn
    decide +kernel
  · cases hx

/-- The two sections do not share a table, and the place of the valid value can be written. -/
theorem exists_scripts_mixedColumns (d : Dialect) (main : String) (o : Options) :
    ∃ ss, scripts d (formOf mixedColumns) main o = .ok ss := by
  have hapart : ¬ SectionsCollide (formOf mixedColumns).columns := by decide +kernel
  exact (exists_scripts_iff d main o (declared_formOf declared_mixedColumns)).mpr
    ⟨hapart, fun _ => placesWritable_mixedColumns⟩

theorem scripts_tabled_mixed : (formOf mixedColumns).Declared ∧
    ∃ ss, scripts .mysql (formOf mixedColumns) "Main" {} = .ok ss ∧
      Tabled .mysql (formOf mixedColumns) "Main" ss := by
  have hf := declared_formOf declared_mixedColumns
  obtain ⟨ss, hss⟩ := exists_scripts_mixedColumns .mysql "Main" {}
  exact ⟨hf, ss, hss, (scripts_tabled hf).2.2 ss hss⟩

/-- A place with more digits than can be written. -/
def longPlace : Int := Int.ofNat (Nat.pow 16 3572)

theorem not_writable_longPlace : ¬ (Nat.toDigits 10 longPlace.natAbs).length ≤ maxIntegerDigits := by
  rw [Nat.length_toDigits_le_iff (by decide) (by decide)]
  decide +kernel

theorem not_placesWritable_of_mem {f : Form} {sec : String} (h : placedColumn sec longPlace ∈ f.columns) :
    ¬ PlacesWritable f :=
  fun hplaces => not_writable_longPlace (hplaces _ h _ List.mem_cons_self _ rfl)

/-- One section only, and yet no scripts: the lookup table of its column cannot be written. -/
theorem scripts_not_tabled : (formOf [placedColumn "Items" longPlace]).Declared ∧
    ¬ SectionsCollide (formOf [placedColumn "Items" longPlace]).columns ∧
    ∃ e, scripts .sqlServer (formOf [placedColumn "Items" longPlace]) "Main" {} = .error e ∧
      e.category ≠ .generation := by
  have hf := declared_formOf (List.forall_mem_singleton.mpr (declared_placedColumn "Items" longPlace))
  have hapart : ¬ SectionsCollide (formOf [placedColumn "Items" longPlace]).columns := by
    decide +kernel
  refine ⟨hf, hapart, ?_⟩
  cases hss : scripts .sqlServer (formOf [placedColumn "Items" longPlace]) "Main" {} with
  | ok ss =>
    have hplaces := ((exists_scripts_iff _ _ _ hf).mp ⟨ss, hss⟩).2 rfl
    exact absurd hplaces (not_placesWritable_of_mem List.mem_cons_self)
  | error e =>
    exact ⟨e, rfl, fun hcategory => hapart ((exists_refused_iff hf).mp ⟨e, hss, hcategory⟩)⟩

end Formwright.Sql
