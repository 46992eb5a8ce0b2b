import Formwright.Proofs.Identifier
import Formwright.Proofs.Sql.Scripts
import Formwright.Proofs.StableSort
import Formwright.Proofs.Text.Numerals

/-
  The order in which scripts run. A script may only refer to tables that are there when it runs: a
  section table is tied to the main table, and the summary view reads the main table and counts the
  rows of every section table. The place of a section table in the order grows with the number of
  sections while the place of the view is fixed, so the scripts are in order exactly when there are at
  most 199 repeating sections (`scripts_ordered_iff`); the main table always comes first.
-/

namespace Formwright.Sql

/-- The tables that the text of a script names: those that it creates, fills, is tied to or reads. -/
def Body.references : Body → List String
  | .table t => t.name :: t.parent.toList
  | .lookup l => [l.name]
  | .view v => v.table :: v.counts.map (·.table)

/-- The table that a script creates; a view is none. -/
def Body.table? : Body → Option String
  | .table t => some t.name
  | .lookup l => some l.name
  | .view _ => none

def Script.IsView (s : Script) : Prop := ∃ v, s.body = .view v

/-- A script that creates the main table. -/
def Script.IsMain (main : String) (s : Script) : Prop :=
  ∃ t, s.body = .table t ∧ t.name = main ∧ t.parent = none

/-- A script that creates the table of a section. -/
def Script.IsSection (main table : String) (s : Script) : Prop :=
  ∃ t, s.body = .table t ∧ t.name = table ∧ t.parent = some main

/-- Scripts of which each one that needs the main table comes behind it. -/
structure MainFirst (main : String) (ss : List Script) : Prop where
  tied : ∀ i s t p, ss[i]? = some s → s.body = .table t → t.parent = some p →
    p = main ∧ ∃ r ∈ ss.take i, r.IsMain main
  view : ∀ i s v, ss[i]? = some s → s.body = .view v →
    v.table = main ∧ ∃ r ∈ ss.take i, r.IsMain main

/-- Scripts that find every table they refer to when they run one after the other. -/
structure DependencyOrdered (main : String) (ss : List Script) : Prop extends MainFirst main ss where
  /-- The tables of a script are created by itself or by an earlier script, -/
  closed : ∀ i s, ss[i]? = some s → ∀ t ∈ s.body.references,
    ∃ r ∈ ss.take (i + 1), r.body.table? = some t
  /-- and those that a view counts are section tables created before it. -/
  counted : ∀ i s v, ss[i]? = some s → s.body = .view v → ∀ c ∈ v.counts,
    ∃ r ∈ ss.take i, r.IsSection main c.table

/-- Scripts that come behind the main table and, as for the view, behind what they count, find all
their tables. -/
theorem MainFirst.dependencyOrdered {main : String} {ss : List Script} (hfirst : MainFirst main ss)
    (hcounted : ∀ i s v, ss[i]? = some s → s.body = .view v → ∀ c ∈ v.counts,
      ∃ r ∈ ss.take i, r.IsSection main c.table) : DependencyOrdered main ss := by
  refine { toMainFirst := hfirst, closed := ?_, counted := hcounted }
  intro i s hs t ht
  have hown : s ∈ ss.take (i + 1) := by
    obtain ⟨hi, rfl⟩ := List.getElem?_eq_some_iff.mp hs
    exact List.mem_take_iff_getElem.mpr ⟨i, by omega, rfl⟩
  have hearlier : ∀ r ∈ ss.take i, r ∈ ss.take (i + 1) := fun r hr =>
    (List.take_sublist_take_left (Nat.le_succ i)).subset hr
  have hmain : ∀ r : Script, r.IsMain main → r.body.table? = some main := by
    rintro r ⟨t, hbody, rfl, -⟩
    rw [hbody]
    rfl
  cases hbody : s.body with
  | table u =>
    rw [hbody, Body.references] at ht
    rcases List.mem_cons.mp ht with rfl | ht
    · exact ⟨s, hown, by rw [hbody]; rfl⟩
    · rw [Option.mem_toList] at ht
      obtain ⟨rfl, r, hr, hrmain⟩ := hfirst.tied i s u t hs hbody ht
      exact ⟨r, hearlier r hr, hmain r hrmain⟩
  | lookup l =>
    rw [hbody, Body.references] at ht
    obtain rfl := List.mem_singleton.mp ht
    exact ⟨s, hown, by rw [hbody]; rfl⟩
  | view v =>
    rw [hbody, Body.references] at ht
    rcases List.mem_cons.mp ht with rfl | ht
    · obtain ⟨hname, r, hr, hrmain⟩ := hfirst.view i s v hs hbody
      rw [hname]
      exact ⟨r, hearlier r hr, hmain r hrmain⟩
    · obtain ⟨c, hc, rfl⟩ := List.mem_map.mp ht
      obtain ⟨r, hr, u, hu, hname, -⟩ := hcounted i s v hs hbody c hc
      rw [← hname]
      exact ⟨r, hearlier r hr, by rw [hu]; rfl⟩

section
variable {d : Dialect} {f : Form} {main : String} {o : Options} {secs : List SectionColumns}
  {table : Script} {tables lookups : List Script} {summary : Script} {ss : List Script}

/-! ## The scripts of a form -/

namespace Made

/-- Section table number `k` belongs to section number `k` and has its place in the order. -/
theorem getElem?_tables (hmade : Made d f main o secs table tables lookups summary ss) {k : Nat}
    {s : Script} (hs : tables[k]? = some s) : s.order = firstSectionOrder + k ∧ ∃ sec t,
      secs[k]? = some sec ∧ sectionTableName main sec.name = .ok t.name ∧
      s.body = .table t ∧ t.parent = some main := by
  obtain ⟨⟨sec, j⟩, hsec, hscript⟩ := getElem?_of_mapM_eq_ok hmade.sectionTables hs
  rw [List.getElem?_zipIdx, Option.map_eq_some_iff] at hsec
  obtain ⟨sec, hsec, hpair⟩ := hsec
  rw [Nat.zero_add, Prod.mk.injEq] at hpair
  obtain ⟨rfl, rfl⟩ := hpair
  obtain ⟨horder, name, fields, hname, -, hbody⟩ := sectionScript_eq_ok hscript
  exact ⟨horder, sec, _, hsec, hname, hbody, rfl⟩

theorem exists_of_mem_tables (hmade : Made d f main o secs table tables lookups summary ss) {s : Script}
    (hs : s ∈ tables) : ∃ t, s.body = .table t ∧ t.parent = some main := by
  obtain ⟨k, hk⟩ := List.getElem?_of_mem hs
  obtain ⟨-, sec, t, -, -, hbody, hparent⟩ := hmade.getElem?_tables hk
  exact ⟨t, hbody, hparent⟩

theorem exists_of_mem_lookups (hmade : Made d f main o secs table tables lookups summary ss) {s : Script}
    (hs : s ∈ lookups) : ∃ l, s.body = .lookup l := by
  obtain ⟨c, order, -, hscript⟩ := exists_of_mem_lookupScripts hmade.lookupTables hs
  obtain ⟨-, column, choices, rows, -, -, -, hbody⟩ := lookupScript_eq_ok hscript
  exact ⟨_, hbody⟩

theorem isMain_table (hmade : Made d f main o secs table tables lookups summary ss) :
    table.IsMain main := by
  obtain ⟨-, fields, -, hbody⟩ := mainScript_eq_ok hmade.mainTable
  exact ⟨_, hbody, rfl, rfl⟩

/-- What the view counts are the section tables, one by one. -/
theorem exists_view (hmade : Made d f main o secs table tables lookups summary ss) :
    summary.order = 200 ∧ ∃ v, summary.body = .view v ∧ v.table = main ∧
      v.counts.length = secs.length ∧ ∀ (k : Nat) (c : SectionCount), v.counts[k]? = some c →
        ∃ s, tables[k]? = some s ∧ s.IsSection main c.table := by
  obtain ⟨horder, names, counts, -, hcounts, hbody⟩ := summaryScript_eq_ok hmade.view
  refine ⟨horder, _, hbody, rfl, length_of_mapM_eq_ok hcounts, fun k c hc => ?_⟩
  obtain ⟨sec, hsec, hcount⟩ := getElem?_of_mapM_eq_ok hcounts hc
  obtain ⟨name, hname, hcount⟩ := bind_eq_ok.mp hcount
  obtain ⟨label, -, hcount⟩ := bind_eq_ok.mp hcount
  obtain rfl := Except.ok.inj hcount
  have hk : k < tables.length := by
    have hlen := length_of_mapM_eq_ok hmade.sectionTables
    rw [List.length_zipIdx] at hlen
    rw [hlen]
    exact (List.getElem?_eq_some_iff.mp hsec).1
  have hs := List.getElem?_eq_getElem hk
  obtain ⟨-, sec', t, hsec', htable, hbody', hparent⟩ := hmade.getElem?_tables hs
  obtain rfl : sec = sec' := Option.some.inj (hsec.symm.trans hsec')
  exact ⟨_, hs, t, hbody', Except.ok.inj (htable.symm.trans hname), hparent⟩

/-- Different sections have different tables. -/
theorem index_eq_of_isSection (hmade : Made d f main o secs table tables lookups summary ss)
    {j k : Nat} {r s : Script} {name : String} (hr : tables[j]? = some r) (hs : tables[k]? = some s)
    (hrname : r.IsSection main name) (hsname : s.IsSection main name) : j = k := by
  obtain ⟨names, hnames, hnodup, -⟩ := checkSections_eq_ok.mp hmade.checked
  have hat : ∀ {i : Nat} {q : Script}, tables[i]? = some q → q.IsSection main name →
      names[i]? = some name := by
    intro i q hq hname
    obtain ⟨-, sec, t, hsec, htable, hbody, -⟩ := hmade.getElem?_tables hq
    obtain ⟨t', hbody', rfl, -⟩ := hname
    obtain rfl : t = t' := Body.table.inj (hbody.symm.trans hbody')
    have hmap := congrArg (·[i]?) (mapM_eq_ok.mp hnames)
    rw [List.getElem?_map, List.getElem?_map, hsec, Option.map_some, htable] at hmap
    obtain ⟨n, hn, hni⟩ := Option.map_eq_some_iff.mp hmap.symm
    rw [hn, Except.ok.inj hni]
  have hj := hat hr hrname
  have hk := hat hs hsname
  exact (List.getElem?_inj (List.getElem?_eq_some_iff.mp hj).1 hnodup).mp (hj.trans hk.symm)

end Made

/-! ## Their order -/

namespace Made

theorem mem_iff (hmade : Made d f main o secs table tables lookups summary ss) {s : Script} :
    s ∈ ss ↔ s = table ∨ s ∈ tables ∨ s ∈ lookups ∨ s = summary := by
  rw [hmade.sorted, List.mem_mergeSort]
  simp only [List.mem_append, List.mem_singleton, or_assoc]

theorem not_isView (hmade : Made d f main o secs table tables lookups summary ss) {s : Script}
    (hs : s ∈ [table] ++ tables ++ lookups) : ¬ s.IsView := by
  rintro ⟨v, hv⟩
  simp only [List.mem_append, List.mem_singleton] at hs
  rcases hs with (rfl | hs) | hs
  · obtain ⟨t, ht, -⟩ := hmade.isMain_table
    cases hv.symm.trans ht
  · obtain ⟨t, ht, -⟩ := hmade.exists_of_mem_tables hs
    cases hv.symm.trans ht
  · obtain ⟨l, hl⟩ := hmade.exists_of_mem_lookups hs
    cases hv.symm.trans hl

/-- The summary is the only view. -/
theorem eq_summary (hmade : Made d f main o secs table tables lookups summary ss) {s : Script}
    (hs : s ∈ ss) (hview : s.IsView) : s = summary := by
  rw [hmade.sorted, List.mem_mergeSort] at hs
  rcases List.mem_append.mp hs with hs | hs
  · exact absurd hview (hmade.not_isView hs)
  · exact List.mem_singleton.mp hs

/-- Only section tables are tied to the main table. -/
theorem mem_tables_of_isSection (hmade : Made d f main o secs table tables lookups summary ss)
    {s : Script} (hs : s ∈ ss) {name : String} (hsection : s.IsSection main name) : s ∈ tables := by
  obtain ⟨t, ht, -, hparent⟩ := hsection
  rcases hmade.mem_iff.mp hs with rfl | hs | hs | rfl
  · obtain ⟨t', ht', -, hnone⟩ := hmade.isMain_table
    obtain rfl : t = t' := Body.table.inj (ht.symm.trans ht')
    cases hparent.symm.trans hnone
  · exact hs
  · obtain ⟨l, hl⟩ := hmade.exists_of_mem_lookups hs
    cases ht.symm.trans hl
  · obtain ⟨-, v, hv, -⟩ := hmade.exists_view
    cases ht.symm.trans hv

/-- Scripts ascend, and a view has no other script of the same place behind it. -/
theorem pairwise_order (hmade : Made d f main o secs table tables lookups summary ss) :
    ss.Pairwise fun a b => a.order < b.order ∨ a.order = b.order ∧ ¬ a.IsView := by
  rw [hmade.sorted]
  refine pairwise_mergeSort_of_pairwise Script.order (List.pairwise_append.mpr ⟨?_, ?_, ?_⟩)
  · exact List.pairwise_of_forall_mem_list fun a ha _ _ => hmade.not_isView ha
  · exact List.pairwise_singleton _ _
  · exact fun a ha _ _ => hmade.not_isView ha

/-- The script of the main table comes before every script of a later place. -/
theorem exists_isMain (hmade : Made d f main o secs table tables lookups summary ss) {i : Nat}
    {s : Script} (hs : ss[i]? = some s) (horder : 1 < s.order) : ∃ r ∈ ss.take i, r.IsMain main := by
  have hfirst := (mainScript_eq_ok hmade.mainTable).1
  have hmem : table ∈ ss := hmade.mem_iff.mpr (Or.inl rfl)
  have hne : table ≠ s := by
    rintro rfl
    omega
  exact ⟨table, mem_take_of_pairwise hmade.pairwise_order hs hmem hne (by omega), hmade.isMain_table⟩

theorem mainFirst (hmade : Made d f main o secs table tables lookups summary ss) :
    MainFirst main ss := by
  constructor
  · intro i s t p hs hbody hparent
    rcases hmade.mem_iff.mp (List.mem_of_getElem? hs) with rfl | hsec | hlookup | rfl
    · obtain ⟨t', hbody', -, hnone⟩ := hmade.isMain_table
      obtain rfl : t = t' := Body.table.inj (hbody.symm.trans hbody')
      cases hparent.symm.trans hnone
    · obtain ⟨k, hk⟩ := List.getElem?_of_mem hsec
      obtain ⟨horder, sec, t', -, -, hbody', hparent'⟩ := hmade.getElem?_tables hk
      obtain rfl : t = t' := Body.table.inj (hbody.symm.trans hbody')
      refine ⟨Option.some.inj (hparent.symm.trans hparent'), hmade.exists_isMain hs ?_⟩
      rw [horder, firstSectionOrder]
      omega
    · obtain ⟨l, hbody'⟩ := hmade.exists_of_mem_lookups hlookup
      cases hbody.symm.trans hbody'
    · obtain ⟨-, v, hbody', -⟩ := hmade.exists_view
      cases hbody.symm.trans hbody'
  · intro i s v hs hbody
    obtain ⟨horder, v', hbody', htable, -⟩ := hmade.exists_view
    obtain rfl := hmade.eq_summary (List.mem_of_getElem? hs) ⟨v, hbody⟩
    obtain rfl : v = v' := Body.view.inj (hbody.symm.trans hbody')
    exact ⟨htable, hmade.exists_isMain hs (by omega)⟩

/-- With at most 199 sections no section table has a place behind that of the view. -/
theorem counted (hmade : Made d f main o secs table tables lookups summary ss)
    (hfew : secs.length ≤ 199) {i : Nat} {s : Script} {v : Summary} (hs : ss[i]? = some s)
    (hbody : s.body = .view v) {c : SectionCount} (hc : c ∈ v.counts) :
    ∃ r ∈ ss.take i, r.IsSection main c.table := by
  obtain ⟨horder, v', hbody', -, hlen, hcounts⟩ := hmade.exists_view
  have hview : s.IsView := ⟨v, hbody⟩
  obtain rfl := hmade.eq_summary (List.mem_of_getElem? hs) hview
  obtain rfl : v = v' := Body.view.inj (hbody.symm.trans hbody')
  obtain ⟨k, hk⟩ := List.getElem?_of_mem hc
  have hklen := (List.getElem?_eq_some_iff.mp hk).1
  obtain ⟨r, hr, hsection⟩ := hcounts k c hk
  have hrorder := (hmade.getElem?_tables hr).1
  rw [firstSectionOrder] at hrorder
  have hmem : r ∈ ss := hmade.mem_iff.mpr (Or.inr (Or.inl (List.mem_of_getElem? hr)))
  have hne : r ≠ s := by
    rintro rfl
    obtain ⟨t, ht, -⟩ := hsection
    cases hbody.symm.trans ht
  refine ⟨r, mem_take_of_pairwise hmade.pairwise_order hs hmem hne ?_, hsection⟩
  rintro (hlt | ⟨-, hnot⟩)
  · omega
  · exact hnot hview

/-- The table of section number 199, sections being counted from 0, is created behind the view that
counts its rows. -/
theorem length_le_of_dependencyOrdered
    (hmade : Made d f main o secs table tables lookups summary ss)
    (hordered : DependencyOrdered main ss) : secs.length ≤ 199 := by
  refine Nat.not_lt.mp fun hmany => ?_
  obtain ⟨horder, v, hbody, -, hlen, hcounts⟩ := hmade.exists_view
  have hmem : summary ∈ ss := hmade.mem_iff.mpr (Or.inr (Or.inr (Or.inr rfl)))
  obtain ⟨i, hi⟩ := List.getElem?_of_mem hmem
  have hk : 199 < v.counts.length := by omega
  obtain ⟨s, hs, hsection⟩ := hcounts 199 _ (List.getElem?_eq_getElem hk)
  obtain ⟨r, hr, hrsection⟩ := hordered.counted i summary v hi hbody _ (List.getElem_mem hk)
  -- a script of that table is the one of section 199, whose place is 201
  have hrtables : r ∈ tables := hmade.mem_tables_of_isSection (List.mem_of_mem_take hr) hrsection
  obtain ⟨j, hj⟩ := List.getElem?_of_mem hrtables
  have hindex := hmade.index_eq_of_isSection hj hs hrsection hsection
  have hrorder := (hmade.getElem?_tables hj).1
  rw [hindex, firstSectionOrder] at hrorder
  have hle := rel_of_mem_take hmade.pairwise_order hi hr
  omega

end Made

end

/-- Whatever the form, the main table comes before every table that is tied to it and before the
view. Every script finds the tables that it refers to, those created by earlier scripts and by itself,
exactly when the form has at most 199 repeating sections: with more, the view is created before the
last tables that it counts. -/
theorem scripts_ordered_iff {d : Dialect} {f : Form} {main : String} {o : Options}
    {secs : List SectionColumns} {ss : List Script} (hsecs : sectionsOf f.columns = .ok secs)
    (hss : scripts d f main o = .ok ss) :
    MainFirst main ss ∧ (DependencyOrdered main ss ↔ secs.length ≤ 199) := by
  obtain ⟨secs', table, tables, lookups, summary, hmade⟩ := scripts_eq_ok.mp hss
  obtain rfl : secs = secs' := Except.ok.inj (hsecs.symm.trans hmade.sections)
  refine ⟨hmade.mainFirst, hmade.length_le_of_dependencyOrdered, fun hfew => ?_⟩
  exact hmade.mainFirst.dependencyOrdered fun i s v hs hbody c hc => hmade.counted hfew hs hbody hc

/-! ## Forms with many sections -/

/-- A data column of a repeating section. -/
def sectionColumn (sec : String) : Form.Column where
  name := .text "Value"
  displayName := .text ""
  type := .textField
  validValues := []
  isRepeating := .bool true
  repeatingSection := .text sec
  isConditional := .bool false
  conditionalOnField := .null
  defaultValue := .null

/-- The name of section number `k`. -/
def numbered (k : Nat) : String := "S" ++ k.repr

/-- A form with a number of repeating sections, which have one column each. -/
def manySections (n : Nat) : Form where
  id := .text "F"
  name := .text "F"
  formType := .null
  views := []
  columns := (List.range n).map fun k => sectionColumn (numbered k)
  dynamicSections := []
  metadata := {}
  sourceWarnings := []

theorem numbered_inj {j k : Nat} (h : numbered j = numbered k) : j = k :=
  Text.eq_of_repr_eq ((String.append_right_inj _).mp h)

theorem tableName_numbered {k : Nat} (h : k < 1000) :
    Identifier.tableName (numbered k) = numbered k := by
  have hlist : (numbered k).toList = 'S' :: Nat.toDigits 10 k := by
    rw [numbered, String.toList_append, Nat.toList_repr]
    rfl
  have hlength : k.repr.length ≤ 3 := (Nat.length_repr_le_iff (by decide)).mpr h
  refine Identifier.tableName_of_isWord hlist ?_ (by decide) ?_
  · rw [List.forall_mem_cons]
    refine ⟨by decide, fun c hc => Identifier.isWordChar_of_isDigit ?_⟩
    exact Nat.isDigit_of_mem_toDigits (by decide) (by decide) hc
  · rw [← Nat.toList_repr, List.length_cons, String.length_toList, Identifier.maxTableName]
    omega

theorem sectionTableName_numbered {k : Nat} (h : k < 1000) :
    sectionTableName "Main" (.text (numbered k)) = .ok ("Main_" ++ numbered k) := by
  rw [sectionTableName_text, tableName_numbered h]
  rfl

/-- Section number `k` with its column. -/
def numberedSection (k : Nat) : SectionColumns := ⟨.text (numbered k), [sectionColumn (numbered k)]⟩

theorem sectionsOf_manySections (n : Nat) :
    sectionsOf (manySections n).columns = .ok ((List.range n).map numberedSection) := by
  refine (sectionsOf_eq_of_pairwise ?_ ?_ ?_).trans ?_
  · intro c hc
    obtain ⟨k, -, rfl⟩ := List.mem_map.mp hc
    show (!(numbered k).isEmpty) = true
    simp [numbered]
  · intro c hc
    obtain ⟨k, -, rfl⟩ := List.mem_map.mp hc
    rfl
  · refine List.pairwise_map.mpr (List.nodup_range.imp fun hne => ?_)
    show (Value.text _).same (.text _) = false
    rw [Value.same_text, beq_eq_false_iff_ne]
    exact fun h => hne (numbered_inj h)
  · rw [manySections, List.map_map]
    rfl

theorem checkSections_manySections {n : Nat} (hn : n ≤ 1000) :
    checkSections "Main" [] ((List.range n).map numberedSection) = .ok () := by
  refine checkSections_eq_ok.mpr ⟨(List.range n).map fun k => "Main_" ++ numbered k, ?_, ?_, ?_⟩
  · refine mapM_eq_ok.mpr ?_
    rw [List.map_map, List.map_map]
    refine List.map_congr_left fun k hk => ?_
    exact sectionTableName_numbered (by have := List.mem_range.mp hk; omega)
  · refine List.pairwise_map.mpr (List.nodup_range.imp fun hne h => ?_)
    exact hne (numbered_inj ((String.append_right_inj _).mp h))
  · exact fun _ _ => List.not_mem_nil

theorem exists_scripts_manySections (d : Dialect) {n : Nat} (hn : n ≤ 1000) :
    ∃ ss, scripts d (manySections n) "Main" {} = .ok ss := by
  have hplain : plainColumns (manySections n) = [] := by
    refine List.filter_eq_nil_iff.mpr fun c hc => ?_
    obtain ⟨k, -, rfl⟩ := List.mem_map.mp hc
    exact Bool.false_ne_true
  have hmain : ∃ table, mainScript d (manySections n) "Main" = .ok table := by
    rw [mainScript, hplain]
    exact ⟨_, rfl⟩
  have htables : ∃ tables, (((List.range n).map numberedSection).zipIdx.mapM fun p =>
      sectionScript d "Main" p.1 (firstSectionOrder + p.2)) = .ok tables := by
    refine exists_mapM_eq_ok.mpr fun p hp => ?_
    obtain ⟨k, hk, hp⟩ := List.mem_map.mp (List.fst_mem_of_mem_zipIdx hp)
    rw [sectionScript, ← hp, numberedSection,
      sectionTableName_numbered (by have := List.mem_range.mp hk; omega)]
    exact ⟨_, rfl⟩
  have hlookups : lookupScripts (manySections n) "Main" {} = .ok [] := by
    have hnone : (manySections n).columns.filter (fun c => !c.validValues.isEmpty) = [] := by
      refine List.filter_eq_nil_iff.mpr fun c hc => ?_
      obtain ⟨k, -, rfl⟩ := List.mem_map.mp hc
      exact Bool.false_ne_true
    rw [lookupScripts, hnone]
    rfl
  have hsummary : ∃ summary, summaryScript (manySections n) "Main"
      ((List.range n).map numberedSection) = .ok summary := by
    have hcounts : ∃ counts,
        ((List.range n).map numberedSection).mapM (SectionCount.ofSection "Main") = .ok counts := by
      refine exists_mapM_eq_ok.mpr fun s hs => ?_
      obtain ⟨k, hk, rfl⟩ := List.mem_map.mp hs
      rw [SectionCount.ofSection, numberedSection,
        sectionTableName_numbered (by have := List.mem_range.mp hk; omega), ok_bind,
        Identifier.tableNameOf_text]
      exact ⟨_, rfl⟩
    obtain ⟨counts, hcounts⟩ := hcounts
    rw [summaryScript, hplain, hcounts]
    exact ⟨_, rfl⟩
  obtain ⟨table, htable⟩ := hmain
  obtain ⟨tables, htables⟩ := htables
  obtain ⟨summary, hsummary⟩ := hsummary
  exact ⟨_, scripts_eq_ok.mpr ⟨_, table, tables, [], summary, sectionsOf_manySections n,
    checkSections_manySections hn, htable, htables, hlookups, hsummary, rfl⟩⟩

/-- The scripts of a form with two sections are in order. -/
theorem scripts_ordered_iff_two : ∃ secs ss, sectionsOf (manySections 2).columns = .ok secs ∧
    scripts .sqlServer (manySections 2) "Main" {} = .ok ss ∧ MainFirst "Main" ss ∧
    (DependencyOrdered "Main" ss ↔ secs.length ≤ 199) := by
  have hsecs := sectionsOf_manySections 2
  obtain ⟨ss, hss⟩ := exists_scripts_manySections .sqlServer (n := 2) (by decide)
  exact ⟨_, ss, hsecs, hss, scripts_ordered_iff hsecs hss⟩

/-- A form with 200 repeating sections has scripts, but not in an order in which they can run. -/
theorem scripts_not_ordered : ∃ ss, scripts .sqlServer (manySections 200) "Main" {} = .ok ss ∧
    ¬ DependencyOrdered "Main" ss := by
  obtain ⟨ss, hss⟩ := exists_scripts_manySections .sqlServer (n := 200) (by decide)
  refine ⟨ss, hss, fun hordered => ?_⟩
  obtain ⟨secs, table, tables, lookups, summary, hmade⟩ := scripts_eq_ok.mp hss
  have hfew := hmade.length_le_of_dependencyOrdered hordered
  have hsecs := Except.ok.inj (hmade.sections.symm.trans (sectionsOf_manySections 200))
  rw [hsecs, List.length_map, List.length_range] at hfew
  omega

end Formwright.Sql
