import Formwright.Proofs.Generation.Artifacts
import Formwright.Proofs.Sql.Lookups
import Formwright.Sql.Generator

/-
  The names that scripts create and those that they have themselves. All of them are made of the name
  of the main table and of the names of sections and columns (`Made.perm_titles`). Only the tables of
  sections are kept apart. Two lookup tables get one name when their columns do, and then the script of
  the one is lost among the artifacts; a section can also take the name of a lookup table or of the
  view. Apart from this all names differ (`product_apart_iff`).
-/

namespace Formwright.Sql

/-! ## What scripts create -/

/-- The table of a section. -/
def sectionObject (main t : String) : String := main ++ "_" ++ t

/-- The lookup table of a column. -/
def lookupObject (main n : String) : String := main ++ "_" ++ n ++ "_Lookup"

/-- The view. -/
def summaryObject (main : String) : String := "vw_" ++ main ++ "_Summary"

/-- What a script creates, and its own name. -/
def Script.title (s : Script) : String × String := (s.body.creates, s.name)

def tableTitle (table : String) : String × String := (table, tableScriptName table)

def lookupTitle (table : String) : String × String := (table, "Create_" ++ table)

/-- The titles of all scripts, from the names of the sections and of the columns with valid values. -/
def titles (main : String) (ts ns : List String) : List (String × String) :=
  [tableTitle main] ++ ts.map (fun t => tableTitle (sectionObject main t)) ++
    ns.map (fun n => lookupTitle (lookupObject main n)) ++ [(summaryObject main, summaryObject main)]

section
variable {d : Dialect} {f : Form} {main : String} {o : Options} {s : Script}

theorem title_of_mainScript (h : mainScript d f main = .ok s) : s.title = tableTitle main := by
  obtain ⟨fields, -, h⟩ := bind_eq_ok.mp h
  obtain rfl := Except.ok.inj h
  rfl

theorem title_of_sectionScript {sec : SectionColumns} {k : Nat}
    (h : sectionScript d main sec k = .ok s) :
    (fun t => tableTitle (sectionObject main t)) <$> Identifier.tableNameOf sec.name =
      .ok s.title := by
  obtain ⟨table, htable, h⟩ := bind_eq_ok.mp h
  obtain ⟨fields, -, h⟩ := bind_eq_ok.mp h
  obtain rfl := Except.ok.inj h
  rw [sectionTableName_eq] at htable
  obtain ⟨t, ht, rfl⟩ := map_eq_ok.mp htable
  rw [ht]
  rfl

theorem title_of_lookupScript {c : Form.Column} {k : Nat} (h : lookupScript main c k = .ok s) :
    (fun n => lookupTitle (lookupObject main n)) <$> Identifier.columnNameOf c.name =
      .ok s.title := by
  obtain ⟨n, hn, h⟩ := bind_eq_ok.mp h
  obtain ⟨choices, -, h⟩ := bind_eq_ok.mp h
  obtain ⟨rows, -, h⟩ := bind_eq_ok.mp h
  obtain rfl := Except.ok.inj h
  rw [hn]
  rfl

theorem title_of_summaryScript {secs : List SectionColumns} (h : summaryScript f main secs = .ok s) :
    s.title = (summaryObject main, summaryObject main) := by
  obtain ⟨names, -, h⟩ := bind_eq_ok.mp h
  obtain ⟨counts, -, h⟩ := bind_eq_ok.mp h
  obtain rfl := Except.ok.inj h
  rfl

/-- The titles of the scripts of a form. -/
theorem Made.perm_titles {secs : List SectionColumns} {table : Script} {tables lookups : List Script}
    {summary : Script} {ss : List Script}
    (hmade : Made d f main o secs table tables lookups summary ss) {ts : List String}
    (hts : secs.mapM (fun s => Identifier.tableNameOf s.name) = .ok ts) :
    ∃ ns, (choiceColumns f o).mapM (fun c => Identifier.columnNameOf c.name) = .ok ns ∧
      (ss.map Script.title).Perm (titles main ts ns) := by
  have hsections : (secs.mapM fun s => (fun t => tableTitle (sectionObject main t)) <$>
      Identifier.tableNameOf s.name) = .ok (tables.map Script.title) :=
    mapM_eq_ok_of_zipIdx (fun _ _ _ => title_of_sectionScript) hmade.sectionTables
  obtain ⟨ts', hts', htables⟩ := mapM_map_result_eq_ok.mp hsections
  obtain rfl := Except.ok.inj (hts.symm.trans hts')
  have hcolumns : ((choiceColumns f o).mapM fun c => (fun n => lookupTitle (lookupObject main n)) <$>
      Identifier.columnNameOf c.name) = .ok (lookups.map Script.title) :=
    mapM_eq_ok_of_zipIdx (fun _ _ _ => title_of_lookupScript) (lookupScripts_eq ▸ hmade.lookupTables)
  obtain ⟨ns, hns, hlookups⟩ := mapM_map_result_eq_ok.mp hcolumns
  refine ⟨ns, hns, ?_⟩
  have hall : ([table] ++ tables ++ lookups ++ [summary]).map Script.title = titles main ts ns := by
    rw [List.map_append, List.map_append, List.map_append, htables, hlookups, List.map_singleton,
      List.map_singleton, title_of_mainScript hmade.mainTable, title_of_summaryScript hmade.view]
    rfl
  rw [hmade.sorted, ← hall]
  exact (List.mergeSort_perm _ _).map _

end

/-! ## Names that differ -/

/-- Texts that end with different characters differ. -/
theorem append_ne_append {x y a b : String} (h : a.toList.getLast? ≠ b.toList.getLast?)
    (ha : a ≠ "") (hb : b ≠ "") : x ++ a ≠ y ++ b := by
  intro heq
  have hlast := congrArg (fun s : String => s.toList.getLast?) heq
  have hsome : ∀ {s : String}, s ≠ "" → ∃ c, s.toList.getLast? = some c := by
    intro s hs
    have hne : s.toList ≠ [] := by simpa using hs
    exact ⟨_, List.getLast?_eq_some_getLast hne⟩
  obtain ⟨c, hc⟩ := hsome ha
  obtain ⟨e, he⟩ := hsome hb
  simp only [String.toList_append, List.getLast?_append, hc, he, Option.some_or] at hlast
  exact h (by rw [hc, he, hlast])

theorem ne_of_length_lt {x y : String} (h : x.length < y.length) : x ≠ y := by
  rintro rfl
  exact Nat.lt_irrefl _ h

theorem sectionObject_inj {main : String} : ∀ t t', sectionObject main t = sectionObject main t' →
    t = t' := fun _ _ => (String.append_right_inj _).mp

theorem lookupObject_inj {main : String} : ∀ n n', lookupObject main n = lookupObject main n' →
    n = n' := fun _ _ h => (String.append_right_inj _).mp ((String.append_left_inj _).mp h)

theorem tableScriptName_inj : ∀ t t', tableScriptName t = tableScriptName t' → t = t' :=
  fun _ _ h => (String.append_right_inj _).mp ((String.append_left_inj _).mp h)

theorem sectionObject_eq_lookupObject {main t n : String} :
    sectionObject main t = lookupObject main n ↔ t = n ++ "_Lookup" := by
  have hlookup : lookupObject main n = main ++ "_" ++ (n ++ "_Lookup") := String.append_assoc
  rw [sectionObject, hlookup, String.append_right_inj]

theorem ne_sectionObject (main t : String) : main ≠ sectionObject main t := by
  refine ne_of_length_lt ?_
  have hone : "_".length = 1 := rfl
  rw [sectionObject, String.length_append, String.length_append, hone]
  omega

theorem ne_lookupObject (main n : String) : main ≠ lookupObject main n := by
  refine ne_of_length_lt ?_
  have hseven : "_Lookup".length = 7 := rfl
  rw [lookupObject, String.length_append, String.length_append, String.length_append, hseven]
  omega

theorem ne_summaryObject (main : String) : main ≠ summaryObject main := by
  refine ne_of_length_lt ?_
  have hthree : "vw_".length = 3 := rfl
  rw [summaryObject, String.length_append, String.length_append, hthree]
  omega

theorem summaryObject_ne_lookupObject (main n : String) :
    summaryObject main ≠ lookupObject main n :=
  append_ne_append (by decide +kernel) (by decide +kernel) (by decide +kernel)

theorem tableScriptName_ne_lookup (table main n : String) :
    tableScriptName table ≠ "Create_" ++ lookupObject main n := by
  rw [lookupObject, ← String.append_assoc]
  exact append_ne_append (by decide +kernel) (by decide +kernel) (by decide +kernel)

theorem tableScriptName_ne_summaryObject (table main : String) :
    tableScriptName table ≠ summaryObject main :=
  append_ne_append (by decide +kernel) (by decide +kernel) (by decide +kernel)

theorem summaryObject_ne_lookup (main n : String) :
    summaryObject main ≠ "Create_" ++ lookupObject main n := by
  rw [lookupObject, ← String.append_assoc]
  exact append_ne_append (by decide +kernel) (by decide +kernel) (by decide +kernel)

theorem nodup_four {a e : String} {bs cs : List String} : ([a] ++ bs ++ cs ++ [e]).Nodup ↔
    bs.Nodup ∧ cs.Nodup ∧ a ∉ bs ∧ a ∉ cs ∧ a ≠ e ∧ (∀ b ∈ bs, b ∉ cs ∧ b ≠ e) ∧ e ∉ cs := by
  simp only [List.nodup_append, List.mem_append, List.mem_singleton]
  grind

theorem not_mem_map {α : Type} {x : String} {g : α → String} (h : ∀ a, x ≠ g a) (xs : List α) :
    x ∉ xs.map g := by
  intro hmem
  obtain ⟨a, -, ha⟩ := List.mem_map.mp hmem
  exact h a ha.symm

/-- What scripts create has different names when the lookup tables do and no section takes the name of
one of them or of the view. -/
theorem nodup_objects_iff {main : String} {ts ns : List String} (hts : ts.Nodup) :
    ((titles main ts ns).map (·.1)).Nodup ↔ ns.Nodup ∧ ∀ t ∈ ts,
      (∀ n ∈ ns, t ≠ n ++ "_Lookup") ∧ sectionObject main t ≠ summaryObject main := by
  have hnames : (titles main ts ns).map (·.1) = [main] ++ ts.map (sectionObject main) ++
      ns.map (lookupObject main) ++ [summaryObject main] := by
    simp [titles, tableTitle, lookupTitle, Function.comp_def]
  rw [hnames, nodup_four, nodup_map_iff sectionObject_inj, nodup_map_iff lookupObject_inj]
  constructor
  · rintro ⟨-, hns, -, -, -, hapart, -⟩
    refine ⟨hns, fun t ht => ?_⟩
    obtain ⟨hlookups, hview⟩ := hapart _ (List.mem_map_of_mem ht)
    refine ⟨fun n hn heq => hlookups ?_, hview⟩
    rw [sectionObject_eq_lookupObject.mpr heq]
    exact List.mem_map_of_mem hn
  · rintro ⟨hns, hapart⟩
    refine ⟨hts, hns, not_mem_map (ne_sectionObject main) ts, not_mem_map (ne_lookupObject main) ns,
      ne_summaryObject main, ?_, not_mem_map (summaryObject_ne_lookupObject main) ns⟩
    intro b hb
    obtain ⟨t, ht, rfl⟩ := List.mem_map.mp hb
    refine ⟨fun hmem => ?_, (hapart t ht).2⟩
    obtain ⟨n, hn, heq⟩ := List.mem_map.mp hmem
    exact (hapart t ht).1 n hn (sectionObject_eq_lookupObject.mp heq.symm)

/-- Scripts have different names when the lookup tables do. -/
theorem nodup_scriptNames_iff {main : String} {ts ns : List String} (hts : ts.Nodup) :
    ((titles main ts ns).map (·.2)).Nodup ↔ ns.Nodup := by
  have hnames : (titles main ts ns).map (·.2) = [tableScriptName main] ++
      ts.map (fun t => tableScriptName (sectionObject main t)) ++
      ns.map (fun n => "Create_" ++ lookupObject main n) ++ [summaryObject main] := by
    simp [titles, tableTitle, lookupTitle, Function.comp_def]
  have hsections : ∀ t t', tableScriptName (sectionObject main t) =
      tableScriptName (sectionObject main t') → t = t' :=
    fun _ _ h => sectionObject_inj _ _ (tableScriptName_inj _ _ h)
  have hlookups : ∀ n n', "Create_" ++ lookupObject main n = "Create_" ++ lookupObject main n' →
      n = n' := fun _ _ h => lookupObject_inj _ _ ((String.append_right_inj _).mp h)
  rw [hnames, nodup_four, nodup_map_iff hsections, nodup_map_iff hlookups]
  constructor
  · rintro ⟨-, hns, -⟩
    exact hns
  · intro hns
    refine ⟨hts, hns, ?_, not_mem_map (tableScriptName_ne_lookup main main) ns,
      tableScriptName_ne_summaryObject main main, ?_, not_mem_map (summaryObject_ne_lookup main) ns⟩
    · exact not_mem_map (fun t h => ne_sectionObject main t (tableScriptName_inj _ _ h)) ts
    · intro b hb
      obtain ⟨t, -, rfl⟩ := List.mem_map.mp hb
      exact ⟨not_mem_map (tableScriptName_ne_lookup _ main) ns, tableScriptName_ne_summaryObject _ main⟩

/-- No two columns with valid values become one name. -/
def LookupsApart (f : Form) (o : Options) : Prop :=
  ((choiceColumns f o).map fun c => Identifier.columnNameOf c.name).Nodup

/-- Lookup tables have different names, and no section takes the name of one of them or of the view. -/
structure ObjectsApart (main : String) (f : Form) (o : Options) : Prop where
  lookups : LookupsApart f o
  sections : ∀ e ∈ f.columns, isInSection e = true → ∀ t,
    Identifier.tableNameOf e.repeatingSection = .ok t →
      (∀ c ∈ choiceColumns f o, ∀ n, Identifier.columnNameOf c.name = .ok n → t ≠ n ++ "_Lookup") ∧
        sectionObject main t ≠ summaryObject main

section
variable {d : Dialect} {f : Form} {main : String} {o : Options} {ss : List Script}

theorem lookupsApart_iff {ns : List String}
    (hns : (choiceColumns f o).mapM (fun c => Identifier.columnNameOf c.name) = .ok ns) :
    LookupsApart f o ↔ ns.Nodup := by
  rw [LookupsApart, mapM_eq_ok.mp hns, nodup_map_iff fun _ _ => Except.ok.inj]

/-- What the scripts of a form create differs, and so do their names, when the names of sections and
columns are apart. -/
theorem nodup_scripts_iff (h : scripts d f main o = .ok ss) :
    ((ss.map (·.body.creates)).Nodup ↔ ObjectsApart main f o) ∧
      ((ss.map (·.name)).Nodup ↔ LookupsApart f o) := by
  obtain ⟨secs, table, tables, lookups, summary, hmade⟩ := scripts_eq_ok.mp h
  obtain ⟨ts, hts, hnodup, hmem⟩ := hmade.exists_sectionNames
  obtain ⟨ns, hns, hperm⟩ := hmade.perm_titles hts
  have hcreates := (hperm.map (·.1)).nodup_iff
  have hnames := (hperm.map (·.2)).nodup_iff
  rw [List.map_map, nodup_objects_iff hnodup] at hcreates
  rw [List.map_map, nodup_scriptNames_iff hnodup] at hnames
  refine ⟨hcreates.trans ⟨?_, ?_⟩, hnames.trans (lookupsApart_iff hns).symm⟩
  · rintro ⟨hlookups, hsections⟩
    refine ⟨(lookupsApart_iff hns).mpr hlookups, fun e he hin t ht => ?_⟩
    obtain ⟨hapart, hview⟩ := hsections t ((hmem t).mpr ⟨e, he, hin, ht⟩)
    refine ⟨fun c hc n hn => ?_, hview⟩
    obtain ⟨m, hm, hmns⟩ := mem_of_mapM_eq_ok hns hc
    obtain rfl := Except.ok.inj (hn.symm.trans hm)
    exact hapart n hmns
  · intro hapart
    refine ⟨(lookupsApart_iff hns).mp hapart.lookups, fun t ht => ?_⟩
    obtain ⟨e, he, hin, hte⟩ := (hmem t).mp ht
    obtain ⟨hlookups, hview⟩ := hapart.sections e he hin t hte
    refine ⟨fun n hn => ?_, hview⟩
    obtain ⟨c, hc, hcn⟩ := exists_of_mem_mapM_eq_ok hns hn
    exact hlookups c hc n hcn

theorem product_eq_ok {p : Product} : product d f o = .ok p → ∃ main ss,
    Identifier.tableNameOf f.name = .ok main ∧ scripts d f main o = .ok ss ∧
    p.artifacts = ss.foldl (fun as s => putArtifact as (s.name ++ ".sql") (s.output d o)) [] ∧
    p.output = "\n\n".intercalate (ss.map (·.output d o)) ++ "\n" := by
  intro h
  obtain ⟨main, ss, s, hmain, hss, -, rfl⟩ := product_eq_ok_iff.mp h
  exact ⟨main, ss, hmain, hss, rfl, rfl⟩

/-- Every script has an artifact of its own when the lookup tables are apart. -/
theorem artifacts_eq_iff (h : scripts d f main o = .ok ss) :
    ss.foldl (fun as s => putArtifact as (s.name ++ ".sql") (s.output d o)) [] =
      ss.map (fun s => (s.name ++ ".sql", s.output d o)) ↔ LookupsApart f o := by
  have hinj : ∀ n n', n ++ ".sql" = n' ++ ".sql" → n = n' := fun _ _ => (String.append_left_inj _).mp
  have hmap : (ss.map fun s => s.name ++ ".sql") = (ss.map (·.name)).map (· ++ ".sql") := by
    rw [List.map_map]
    rfl
  rw [foldl_putArtifact_eq_iff, hmap, nodup_map_iff hinj]
  exact (nodup_scripts_iff h).2

end

/-- What the scripts of a product create has different names exactly when the objects are apart, and
each script has a name and an artifact of its own exactly when the lookup tables are. The primary output
is all scripts in their order, with a blank line between two of them; it is all artifacts when no script
lost its own. -/
theorem product_apart_iff {d : Dialect} {f : Form} {o : Options} {p : Product}
    (h : product d f o = .ok p) : ∃ main ss,
      Identifier.tableNameOf f.name = .ok main ∧ scripts d f main o = .ok ss ∧
      ((ss.map (·.body.creates)).Nodup ↔ ObjectsApart main f o) ∧
      ((ss.map (·.name)).Nodup ↔ LookupsApart f o) ∧
      (p.artifacts = ss.map (fun s => (s.name ++ ".sql", s.output d o)) ↔ LookupsApart f o) ∧
      p.output = "\n\n".intercalate (ss.map (·.output d o)) ++ "\n" ∧
      (LookupsApart f o → p.output = "\n\n".intercalate (p.artifacts.map (·.2)) ++ "\n") := by
  obtain ⟨main, ss, hmain, hss, hartifacts, houtput⟩ := product_eq_ok h
  obtain ⟨hcreates, hnames⟩ := nodup_scripts_iff hss
  have hkept := artifacts_eq_iff (d := d) hss
  rw [← hartifacts] at hkept
  refine ⟨main, ss, hmain, hss, hcreates, hnames, hkept, houtput, fun hapart => ?_⟩
  rw [houtput, hkept.mpr hapart, List.map_map]
  rfl

/-- A column with one valid value. -/
def choiceColumn (name : String) : Form.Column :=
  { textColumn name with validValues := [⟨.text "x", .text "x", .bool false, .int 0⟩] }

/-- A form with two columns that have valid values. -/
def twoChoices (a b : String) : Form := formOf [choiceColumn a, choiceColumn b]

theorem exists_lookupScript_choiceColumn (main name : String) (k : Nat) :
    ∃ s, lookupScript main (choiceColumn name) k = .ok s := by
  have hes : (choiceColumn name).validValues.map Entry.ofChoice? =
      [(⟨"x", "x", false, 0⟩ : Entry)].map some := rfl
  have hwritable : ∀ e ∈ [(⟨"x", "x", false, 0⟩ : Entry)], e.IsWritable := by decide +kernel
  exact (exists_lookupScript_iff hes).mpr ⟨⟨_, Identifier.columnNameOf_text name⟩, hwritable⟩

theorem tableNameOf_twoChoices (a b : String) :
    Identifier.tableNameOf (twoChoices a b).name = .ok "F" := by
  have hname : Identifier.tableName "F" = "F" := by decide +kernel
  exact (Identifier.tableNameOf_text "F").trans (congrArg Except.ok hname)

theorem choiceColumns_twoChoices (a b : String) :
    (choiceColumns (twoChoices a b) {}).mapM (fun c => Identifier.columnNameOf c.name) =
      .ok [Identifier.columnName a, Identifier.columnName b] := by
  rw [mapM_eq_ok]
  show [Identifier.columnNameOf (.text a), Identifier.columnNameOf (.text b)] = _
  rw [Identifier.columnNameOf_text, Identifier.columnNameOf_text]
  rfl

theorem exists_product_twoChoices (d : Dialect) (a b : String) :
    ∃ p, product d (twoChoices a b) {} = .ok p := by
  have hplain : plainColumns (twoChoices a b) = [choiceColumn a, choiceColumn b] := rfl
  have hname : ∀ n, Identifier.columnNameOf (choiceColumn n).name = .ok (Identifier.columnName n) :=
    Identifier.columnNameOf_text
  have hmain : ∃ table, mainScript d (twoChoices a b) "F" = .ok table := by
    rw [mainScript, hplain, fieldsOf, List.mapM_cons, List.mapM_cons, hname, hname]
    exact ⟨_, rfl⟩
  have hsummary : ∃ summary, summaryScript (twoChoices a b) "F" [] = .ok summary := by
    have htake : [choiceColumn a, choiceColumn b].take maxSummaryColumns =
        [choiceColumn a, choiceColumn b] := rfl
    rw [summaryScript, hplain, htake, List.mapM_cons, List.mapM_cons, hname, hname]
    exact ⟨_, rfl⟩
  have hlookups : ∃ lookups, lookupScripts (twoChoices a b) "F" {} = .ok lookups := by
    rw [lookupScripts_eq]
    refine exists_mapM_eq_ok.mpr fun p hp => ?_
    have hmem : p.1 ∈ [choiceColumn a, choiceColumn b] := List.fst_mem_of_mem_zipIdx hp
    simp only [List.mem_cons, List.not_mem_nil, or_false] at hmem
    rcases hmem with heq | heq
    · rw [heq]
      exact exists_lookupScript_choiceColumn "F" a _
    · rw [heq]
      exact exists_lookupScript_choiceColumn "F" b _
  obtain ⟨table, htable⟩ := hmain
  obtain ⟨summary, hsummary⟩ := hsummary
  obtain ⟨lookups, hlookups⟩ := hlookups
  have hss := scripts_eq_ok.mpr ⟨[], table, [], lookups, summary, rfl, rfl, htable, rfl, hlookups,
    hsummary, rfl⟩
  rw [product, tableNameOf_twoChoices, ok_bind, hss]
  exact ⟨_, rfl⟩

/-- The scripts of two columns with names that differ. -/
theorem product_apart_iff_sizes : ∃ p, product .mysql (twoChoices "Size" "Colour") {} = .ok p ∧
    ∃ ss, scripts .mysql (twoChoices "Size" "Colour") "F" {} = .ok ss ∧
      p.artifacts = ss.map (fun s => (s.name ++ ".sql", s.output .mysql {})) ∧
      p.output = "\n\n".intercalate (p.artifacts.map (·.2)) ++ "\n" := by
  obtain ⟨p, hp⟩ := exists_product_twoChoices .mysql "Size" "Colour"
  obtain ⟨main, ss, hmain, hss, -, -, hkept, -, hall⟩ := product_apart_iff hp
  obtain rfl := Except.ok.inj (hmain.symm.trans (tableNameOf_twoChoices "Size" "Colour"))
  have hapart : LookupsApart (twoChoices "Size" "Colour") {} := by
    rw [lookupsApart_iff (choiceColumns_twoChoices "Size" "Colour")]
    decide +kernel
  exact ⟨p, hp, ss, hss, hkept.mpr hapart, hall hapart⟩

/-- Two columns become one name, and so do their lookup tables and the scripts of these: one of the
scripts is no artifact. -/
theorem product_not_apart : ∃ p ss, product .sqlServer (twoChoices "A b" "A_b") {} = .ok p ∧
    scripts .sqlServer (twoChoices "A b" "A_b") "F" {} = .ok ss ∧
    ¬ (ss.map (·.body.creates)).Nodup ∧ ¬ (ss.map (·.name)).Nodup ∧
    p.artifacts ≠ ss.map fun s => (s.name ++ ".sql", s.output .sqlServer {}) := by
  obtain ⟨p, hp⟩ := exists_product_twoChoices .sqlServer "A b" "A_b"
  obtain ⟨main, ss, hmain, hss, hartifacts, -⟩ := product_eq_ok hp
  obtain rfl := Except.ok.inj (hmain.symm.trans (tableNameOf_twoChoices "A b" "A_b"))
  have hclash : ¬ LookupsApart (twoChoices "A b" "A_b") {} := by
    rw [lookupsApart_iff (choiceColumns_twoChoices "A b" "A_b")]
    decide +kernel
  obtain ⟨hcreates, hnames⟩ := nodup_scripts_iff hss
  refine ⟨p, ss, hp, hss, fun h => hclash (hcreates.mp h).lookups, fun h => hclash (hnames.mp h), ?_⟩
  rw [hartifacts]
  exact fun h => hclash ((artifacts_eq_iff hss).mp h)

end Formwright.Sql
