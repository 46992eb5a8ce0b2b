import Formwright.Generation.Registry
import Formwright.Proofs.Nintex.Generating
import Formwright.Proofs.Nintex.Inventory
import Formwright.Proofs.Nintex.Switches
import Formwright.Proofs.Sql.Scripts
import Formwright.Proofs.Statistics.Merge

/-
  What the name of a form does to generation. No generator of the registry reads the form name of the
  options (`Generator.generate_formName`); a name reaches a product through the form alone. A form that
  is generated is generated under every text as name, and its statistics are those that it had
  (`Generator.exists_generate_renamed`): names of scripts, tables and files depend on the name of the
  form, but whether they differ, whether a document can be written and what is counted do not.
-/

namespace Formwright

/-! ## Scripts -/

namespace Sql

section
variable {d : Dialect} {f : Form} {main : String} {o : Options} {ss : List Script}

/-- The tables of sections differ whatever stands in front of their names. -/
theorem Made.checked_under {secs : List SectionColumns} {table : Script} {tables lookups : List Script}
    {summary : Script} (hmade : Made d f main o secs table tables lookups summary ss)
    (main' : String) : checkSections main' [] secs = .ok () := by
  obtain ⟨ts, hts, hnodup, -⟩ := hmade.exists_sectionNames
  have hinj : ∀ t t', main' ++ "_" ++ t = main' ++ "_" ++ t' → t = t' :=
    fun t t' => (String.append_right_inj _).mp
  refine checkSections_eq_ok.mpr ⟨ts.map (main' ++ "_" ++ ·), ?_, (nodup_map_iff hinj).mpr hnodup,
    fun _ _ => List.not_mem_nil⟩
  simp only [sectionTableName_eq]
  exact mapM_map_result_eq_ok.mpr ⟨ts, hts, rfl⟩

/-- The table of a section can be made under every name for the main table that gives it one, -/
theorem exists_sectionScript_under {sec : SectionColumns} {k : Nat} {s : Script} {main' t : String}
    (h : sectionScript d main sec k = .ok s) (ht : sectionTableName main' sec.name = .ok t) :
    ∃ s', sectionScript d main' sec k = .ok s' := by
  obtain ⟨-, -, fields, -, hfields, -⟩ := sectionScript_eq_ok h
  exact ⟨_, by rw [sectionScript, ht, ok_bind, hfields]; rfl⟩

/-- and so can the tables for choices, whatever the form is called, -/
theorem exists_lookupScripts_renamed {ls : List Script} (h : lookupScripts f main o = .ok ls)
    (name : Value) (main' : String) : ∃ ls', lookupScripts { f with name } main' o = .ok ls' := by
  rw [lookupScripts_eq] at h ⊢
  refine exists_mapM_eq_ok.mpr fun p hp => ?_
  obtain ⟨s, hs⟩ := exists_mapM_eq_ok.mp ⟨ls, h⟩ p hp
  obtain ⟨-, column, choices, rows, hcolumn, hchoices, hrows, -⟩ := lookupScript_eq_ok hs
  exact ⟨_, by rw [lookupScript, hcolumn, ok_bind, hchoices, ok_bind, hrows]; rfl⟩

/-- and the view, when there are names for the tables of the sections that it counts in. -/
theorem exists_summaryScript_renamed {secs : List SectionColumns} {s : Script} {main' : String}
    (h : summaryScript f main secs = .ok s) (name : Value)
    (hnamed : ∀ sec ∈ secs, ∃ t, sectionTableName main' sec.name = .ok t) :
    ∃ s', summaryScript { f with name } main' secs = .ok s' := by
  obtain ⟨-, names, counts, hnames, hcounts, -⟩ := summaryScript_eq_ok h
  obtain ⟨counts', hcounts'⟩ : ∃ cs, secs.mapM (SectionCount.ofSection main') = .ok cs := by
    refine exists_mapM_eq_ok.mpr fun sec hsec => ?_
    obtain ⟨c, hc⟩ := exists_mapM_eq_ok.mp ⟨counts, hcounts⟩ sec hsec
    obtain ⟨table, -, hc⟩ := bind_eq_ok.mp hc
    obtain ⟨label, hlabel, -⟩ := bind_eq_ok.mp hc
    obtain ⟨t, ht⟩ := hnamed sec hsec
    exact ⟨_, by rw [SectionCount.ofSection, ht, ok_bind, hlabel]; rfl⟩
  have hplain : plainColumns { f with name } = plainColumns f := rfl
  exact ⟨_, by rw [summaryScript, hplain, hnames, ok_bind, hcounts']; rfl⟩

/-- Scripts can be made under every name for the main table, whatever the form is called. -/
theorem exists_scripts_renamed (h : scripts d f main o = .ok ss) (name : Value) (main' : String) :
    ∃ ss', scripts d { f with name } main' o = .ok ss' := by
  obtain ⟨secs, table, tables, lookups, summary, hmade⟩ := scripts_eq_ok.mp h
  have hchecked := hmade.checked_under main'
  have hnamed : ∀ sec ∈ secs, ∃ t, sectionTableName main' sec.name = .ok t := by
    obtain ⟨names, hnames, -⟩ := checkSections_eq_ok.mp hchecked
    exact exists_mapM_eq_ok.mp ⟨names, hnames⟩
  obtain ⟨table', htable⟩ : ∃ s, mainScript d { f with name } main' = .ok s := by
    obtain ⟨-, fields, hfields, -⟩ := mainScript_eq_ok hmade.mainTable
    exact exists_bind_pure_eq_ok.mpr ⟨fields, hfields⟩
  obtain ⟨tables', htables⟩ : ∃ ts,
      (secs.zipIdx.mapM fun p => sectionScript d main' p.1 (firstSectionOrder + p.2)) = .ok ts := by
    refine exists_mapM_eq_ok.mpr fun p hp => ?_
    obtain ⟨s, hs⟩ := exists_mapM_eq_ok.mp ⟨tables, hmade.sectionTables⟩ p hp
    obtain ⟨t, ht⟩ := hnamed p.1 (List.fst_mem_of_mem_zipIdx hp)
    exact exists_sectionScript_under hs ht
  obtain ⟨lookups', hlookups⟩ := exists_lookupScripts_renamed hmade.lookupTables name main'
  obtain ⟨summary', hsummary⟩ := exists_summaryScript_renamed hmade.view name hnamed
  exact ⟨_, scripts_eq_ok.mpr ⟨secs, table', tables', lookups', summary',
    hmade.sections, hchecked, htable, htables, hlookups, hsummary, rfl⟩⟩

theorem exists_product_renamed {p : Product} (h : product d f o = .ok p) (x : String) :
    ∃ p', product d { f with name := .text x } o = .ok p' ∧ p'.statistics = p.statistics := by
  obtain ⟨main, ss, s, -, hss, hs, rfl⟩ := product_eq_ok_iff.mp h
  obtain ⟨ss', hss'⟩ := exists_scripts_renamed hss (.text x) (Identifier.tableName x)
  exact ⟨_, product_eq_ok_iff.mpr ⟨_, ss', s, Identifier.tableNameOf_text x, hss', hs, rfl⟩, rfl⟩

end

end Sql

/-! ## Documents -/

namespace Nintex

section
variable {f : Form} {o : Options} {ds : List Draft} {d : Document} {s : Statistics} {json : String}
  {others : List (String × String)} {main : String}

/-- The document of a form under another name has that name and an id made of it. -/
theorem build_renamed (h : build f o = .ok (ds, d)) (x : String) :
    build { f with name := .text x } o =
      .ok (ds, { d with id := Identifier.variableName x "", name := .text x }) := by
  obtain ⟨rss, hrss, h⟩ := bind_eq_ok.mp h
  obtain ⟨id, -, h⟩ := bind_eq_ok.mp h
  obtain ⟨language, hlanguage, h⟩ := bind_eq_ok.mp h
  obtain ⟨rules, hrules, h⟩ := bind_eq_ok.mp h
  obtain ⟨rfl, rfl⟩ := Prod.mk.inj (Except.ok.inj h)
  have hid : Identifier.variableNameOf (.text x) "" = .ok (Identifier.variableName x "") := by
    rw [Identifier.variableNameOf, Identifier.nameText_text]
    rfl
  unfold build
  dsimp only
  rw [hrss, ok_bind, hid, ok_bind, hlanguage, ok_bind, hrules]
  rfl

/-- A document can be written under every text as name. -/
theorem expressible_renamed {style : Json.Style} (h : Json.Expressible style d.toValue)
    (id x : String) : Json.Expressible style { d with id, name := .text x }.toValue := by
  rw [Document.toValue, Json.expressible_record_iff] at h ⊢
  simp only [List.map_append, List.map_cons, List.map_nil, Json.allExpressible_append_iff,
    Json.allExpressible_cons_iff] at h ⊢
  exact ⟨⟨.text id, .text x, h.1.2.2⟩, h.2⟩

/-- What goes with a document does not depend on the name of the form, as far as it can be written. -/
theorem exists_companions_renamed (h : companions f o d s = .ok others) (d' : Document) (name : Value) :
    ∃ others', companions { f with name } o d' s = .ok others' := by
  rw [companions_eq] at h ⊢
  refine exists_mapM_eq_ok.mpr fun n hn => exists_bind_pure_eq_ok.mpr ?_
  obtain ⟨text, htext⟩ := exists_bind_pure_eq_ok.mp (exists_mapM_eq_ok.mp ⟨others, h⟩ n hn)
  unfold companionText at htext ⊢
  by_cases hflow : n = "workflow-definition.json"
  · rw [if_pos hflow]
    exact Json.exists_write_eq_ok (writable_workflow d')
  · rw [if_neg hflow] at htext ⊢
    by_cases hmetadata : n = "metadata.json"
    · rw [if_pos hmetadata] at htext ⊢
      exact ⟨text, htext⟩
    · rw [if_neg hmetadata] at htext ⊢
      obtain ⟨use, huse⟩ := exists_bind_pure_eq_ok.mp ⟨text, htext⟩
      exact exists_bind_pure_eq_ok.mpr ⟨use, huse⟩

theorem Assembled.exists_renamed (h : Assembled f o ds d s json others main) (x : String) :
    ∃ json' others', Assembled { f with name := .text x } o ds
      { d with id := Identifier.variableName x "", name := .text x } s json' others'
      (Identifier.tableName x) := by
  have hwritten := expressible_renamed (Json.exists_write_eq_ok_iff.mp ⟨json, h.written⟩)
    (Identifier.variableName x "") x
  obtain ⟨json', hjson⟩ := Json.exists_write_eq_ok_iff.mpr hwritten
  obtain ⟨others', hothers⟩ := exists_companions_renamed h.accompanied
    { d with id := Identifier.variableName x "", name := .text x } (.text x)
  exact ⟨json', others', h.views, build_renamed h.built x, h.counted, hjson, hothers,
    Identifier.tableNameOf_text x⟩

theorem exists_product_renamed {p : Product} (h : product f o = .ok p) (x : String) :
    ∃ p', product { f with name := .text x } o = .ok p' ∧ p'.statistics = p.statistics := by
  obtain ⟨ds, d, s, json, others, main, hparts, rfl⟩ := product_eq_ok_iff.mp h
  obtain ⟨json', others', hparts'⟩ := hparts.exists_renamed x
  exact ⟨_, product_eq_ok_iff.mpr ⟨ds, _, s, json', others', _, hparts', rfl⟩, rfl⟩

end

/-- The statistics of the document of a mapped form are whole. -/
theorem whole_of_statistics {f : Form} {o : Options} {rss : List (List (Nat × List Draft))}
    {ds : List Draft} {d : Document} {n : Statistics} (hbuilt : Built f o rss ds d)
    (hf : ∀ c ∈ f.allControls, c.Mapped) (h : statistics f ds d = .ok n) : n.Whole := by
  obtain ⟨sources, widgets, hsources, hwidgets, rfl⟩ := statistics_eq_ok h
  have hkeys : ∀ v ∈ ds.map fun x => Statistics.sourceKey x.placed.control.sourceType,
      ∃ k, v.key? = some k := by
    intro v hv
    obtain ⟨c, hc, rfl⟩ := List.mem_map.mp (hbuilt.perm_sourceKeys.mem_iff.mp hv)
    exact Statistics.exists_key?_sourceKey (hf c hc).sourceType
  have hsourcesOf := Tally.tallies_of_ofKeys hkeys hsources
  have hwidgetsOf := Tally.tallies_of_ofKeys (exists_key?_text (·.control.widget) ds) hwidgets
  exact ⟨rfl, rfl, rfl, rfl, rfl, ⟨0, sources, rfl, hsourcesOf.counted.toSound⟩,
    ⟨0, widgets, rfl, hwidgetsOf.counted.toSound⟩⟩

end Nintex

/-! ## The generators of the registry -/

namespace Generator

section
variable {name : String} {g : Generator} {f : Form} {o : Options} {answer : Answer} {p : Product}
  {s : Statistics}

theorem generate_ofProducts_eq_ok {target : String} {make : Form → Options → Except Fault Product} :
    (ofProducts target make).generate f o = .ok answer ↔
      ∃ p, make f o = .ok p ∧ answer = .product p := by
  show (make f o).map Answer.product = _ ↔ _
  cases make f o with
  | error e => simp [Except.map]
  | ok p => simp [Except.map, eq_comm]

theorem generate_ofProducts_product {target : String} {make : Form → Options → Except Fault Product} :
    (ofProducts target make).generate f o = .ok (.product p) ↔ make f o = .ok p := by
  rw [generate_ofProducts_eq_ok]
  simp

/-- A generator of the registry makes products of scripts or of documents. -/
theorem cases_of_mem_registry (hg : (name, g) ∈ registry) :
    (∃ d, g = .ofProducts (Sql.target d) (Sql.product d)) ∨
      g = .ofProducts Nintex.target Nintex.product := by
  rcases List.mem_append.mp hg with hsql | hnintex
  · obtain ⟨d, -, hd⟩ := List.mem_map.mp hsql
    exact .inl ⟨d, (Prod.mk.inj hd).2.symm⟩
  · exact .inr (Prod.mk.inj (List.mem_singleton.mp hnintex)).2

/-- No generator reads the form name of the options. -/
theorem generate_formName (hg : (name, g) ∈ registry) (f : Form) (o : Options) (v : Value) :
    g.generate f { o with formName := v } = g.generate f o := by
  -- each reads fields of the options, and this is none of them
  rcases cases_of_mem_registry hg with ⟨d, rfl⟩ | rfl
  · rfl
  · rfl

/-- What a generator gives back is a success that comes with its statistics. -/
theorem exists_product_of_generate (hg : (name, g) ∈ registry) (h : g.generate f o = .ok answer) :
    ∃ p s, answer = .product p ∧ p.success = true ∧ p.statistics = .statistics s := by
  rcases cases_of_mem_registry hg with ⟨d, rfl⟩ | rfl
  · obtain ⟨p, hp, rfl⟩ := generate_ofProducts_eq_ok.mp h
    obtain ⟨_, _, s, -, -, -, rfl⟩ := Sql.product_eq_ok_iff.mp hp
    exact ⟨_, s, rfl, rfl, rfl⟩
  · obtain ⟨p, hp, rfl⟩ := generate_ofProducts_eq_ok.mp h
    obtain ⟨_, _, s, _, _, _, -, rfl⟩ := Nintex.product_eq_ok_iff.mp hp
    exact ⟨_, s, rfl, rfl, rfl⟩

/-- The statistics of a mapped form are whole. -/
theorem whole_of_generate (hg : (name, g) ∈ registry) (hf : ∀ c ∈ f.allControls, c.Mapped)
    (h : g.generate f o = .ok (.product p)) (hs : p.statistics = .statistics s) : s.Whole := by
  rcases cases_of_mem_registry hg with ⟨d, rfl⟩ | rfl
  · obtain ⟨_, _, t, -, -, ht, rfl⟩ := Sql.product_eq_ok_iff.mp (generate_ofProducts_product.mp h)
    obtain rfl := Attachment.statistics.inj hs
    exact Statistics.whole_of_collect hf ht
  · obtain ⟨ds, d, t, _, _, _, hparts, rfl⟩ :=
      Nintex.product_eq_ok_iff.mp (generate_ofProducts_product.mp h)
    obtain rfl := Attachment.statistics.inj hs
    obtain ⟨rss, hbuilt⟩ := Nintex.build_eq_ok hparts.built
    exact Nintex.whole_of_statistics hbuilt hf hparts.counted

/-- A form that is generated is generated under every text as name, with the same statistics. -/
theorem exists_generate_renamed (hg : (name, g) ∈ registry) (h : g.generate f o = .ok (.product p))
    (x : String) : ∃ p', g.generate { f with name := .text x } o = .ok (.product p') ∧
      p'.statistics = p.statistics := by
  rcases cases_of_mem_registry hg with ⟨d, rfl⟩ | rfl
  · obtain ⟨p', hp', hstatistics⟩ := Sql.exists_product_renamed (generate_ofProducts_product.mp h) x
    exact ⟨p', generate_ofProducts_product.mpr hp', hstatistics⟩
  · obtain ⟨p', hp', hstatistics⟩ := Nintex.exists_product_renamed (generate_ofProducts_product.mp h) x
    exact ⟨p', generate_ofProducts_product.mpr hp', hstatistics⟩

end

end Generator

end Formwright
