import Formwright.Proofs.Nintex.Pages
import Formwright.Proofs.Value.Records

/-
  What the switches of the options do. Each one adds content of its own: conditional logic the rules of
  the document, validation rules a mark on every control, calculations a formula on the controls that
  have one, and the others artifacts of their own. Nothing else depends on them: two products of a form
  under options that agree on what is no switch have one document up to that content, the same texts in
  artifacts that both have, and the same statistics (`product_switches`). All of it rests on one fact:
  a document without what switches add is the document under options without switches (`build_bare`).
-/

namespace Formwright

/-- Options without switches: what is left decides what every document shows. -/
def Options.bare (o : Options) : Options where
  description := o.description
  validationRules := .bool false
  conditionalLogic := .bool false
  calculations := .bool false
  defaultLanguage := o.defaultLanguage
  metadata := .bool false
  comments := .bool false
  variableLead := o.variableLead
  layoutType := o.layoutType

namespace Nintex

/-! ## Documents without what switches add -/

def Control.bare (c : Control) : Control := { c with isRequired := none, formula := none }

def Row.bare (r : Row) : Row := { r with controls := r.controls.map Control.bare }

def Page.bare (p : Page) : Page := { p with rows := p.rows.map Row.bare }

def Document.bare (d : Document) : Document := { d with pages := d.pages.map Page.bare, rules := none }

def Draft.bare (x : Draft) : Draft := { x with control := x.control.bare }

/-- Drafted rows without what switches add. -/
def bareRows (rows : List (Nat × List Draft)) : List (Nat × List Draft) :=
  rows.map fun r => (r.1, r.2.map Draft.bare)

section
variable {o : Options} {count : Nat}

theorem draft_bare {p : Placed} {x : Draft} (h : draft o count p = .ok x) :
    draft o.bare count p = .ok x.bare := by
  obtain ⟨_, hname, h⟩ := bind_eq_ok.mp h
  obtain ⟨_, hsource, h⟩ := bind_eq_ok.mp h
  obtain ⟨parent, hparent, h⟩ := bind_eq_ok.mp h
  obtain ⟨choices, hchoices, h⟩ := bind_eq_ok.mp h
  obtain ⟨wanted, hwanted, h⟩ := bind_eq_ok.mp h
  obtain rfl := Except.ok.inj h
  have hlead : wantedVariable p.control o.bare = .ok wanted := hwanted
  unfold draft
  dsimp only
  rw [hname, ok_bind, hsource, ok_bind, hparent, ok_bind, hchoices, ok_bind, hlead]
  rfl

theorem draftPage_bare {page : Nat} {v : Form.View} {rows : List (Nat × List Draft)}
    (h : draftPage o page v = .ok rows) : draftPage o.bare page v = .ok (bareRows rows) := by
  obtain ⟨ps, hps, hrows⟩ := bind_eq_ok.mp h
  have hrow : ∀ r s, draftRow o v.controls.length r = .ok s →
      draftRow o.bare v.controls.length r = .ok (s.1, s.2.map Draft.bare) := by
    intro r s hs
    obtain ⟨ds, hds, hs⟩ := bind_eq_ok.mp hs
    obtain rfl := Except.ok.inj hs
    rw [draftRow, mapM_eq_ok_map (fun p x => draft_bare) hds]
    rfl
  rw [draftPage, hps, ok_bind]
  exact mapM_eq_ok_map hrow hrows

/-- Variables do not depend on what switches add. -/
theorem variablesFrom_bare (taken : List String) (ds : List Draft) :
    variablesFrom taken (ds.map Draft.bare) = variablesFrom taken ds := by
  induction ds generalizing taken with
  | nil => rfl
  | cons x ds ih =>
    have hname : x.bare.variableName = x.variableName := rfl
    rw [List.map_cons, variablesFrom, variablesFrom, hname]
    cases x.variableName with
    | none => exact ih taken
    | some wanted =>
      dsimp only
      rw [ih]
      rfl

theorem finishPage_bare (vs : List Variable) (page : Nat) (name : Value) (rows : List (Nat × List Draft)) :
    finishPage vs page name (bareRows rows) = (finishPage vs page name rows).bare := by
  have hrow : ∀ r : (Nat × List Draft) × Nat,
      (⟨rowId page r.2, r.1.1, (r.1.2.map Draft.bare).map (Draft.finish vs)⟩ : Row) =
        Row.bare ⟨rowId page r.2, r.1.1, r.1.2.map (Draft.finish vs)⟩ := by
    intro r
    rw [Row.bare, List.map_map, List.map_map]
    rfl
  unfold finishPage Page.bare bareRows
  rw [List.zipIdx_map, List.map_map, List.map_map]
  exact congrArg (Page.mk _ _) (List.map_congr_left fun r _ => hrow r)

/-- Under options without switches the document is the same without what switches add. -/
theorem build_bare {f : Form} {ds : List Draft} {d : Document} (h : build f o = .ok (ds, d)) :
    build f o.bare = .ok (ds.map Draft.bare, d.bare) := by
  obtain ⟨rss, hrss, h⟩ := bind_eq_ok.mp h
  obtain ⟨id, hid, h⟩ := bind_eq_ok.mp h
  obtain ⟨language, hlanguage, h⟩ := bind_eq_ok.mp h
  obtain ⟨rules, -, h⟩ := bind_eq_ok.mp h
  obtain ⟨rfl, rfl⟩ := Prod.mk.inj (Except.ok.inj h)
  have hdrafted := mapM_eq_ok_map (fun p rows => draftPage_bare (o := o)) hrss
  have hdrafts : (rss.map bareRows).flatten.flatMap (·.2) =
      (rss.flatten.flatMap (·.2)).map Draft.bare := by
    have hflatten : (rss.map bareRows).flatten = bareRows rss.flatten := List.map_flatten.symm
    rw [hflatten, bareRows, List.flatMap_map, List.map_flatMap]
  have hpages : ∀ vs, ((f.views.zip (rss.map bareRows)).zipIdx.map fun p =>
      finishPage vs (p.2 + 1) p.1.1.name p.1.2) =
      ((f.views.zip rss).zipIdx.map fun p => finishPage vs (p.2 + 1) p.1.1.name p.1.2).map Page.bare := by
    intro vs
    rw [List.zip_map_right, List.zipIdx_map, List.map_map, List.map_map]
    exact List.map_congr_left fun p _ => finishPage_bare vs (p.2 + 1) p.1.1.name p.1.2
  have hrules : rulesOf ((rss.flatten.flatMap (·.2)).map Draft.bare |>.map (·.control)) o.bare
      f.dynamicSections = .ok none := rfl
  have htitles : ((rss.flatten.flatMap (·.2)).map Draft.bare).filterMap title? =
      (rss.flatten.flatMap (·.2)).filterMap title? := by
    rw [List.filterMap_map]
    rfl
  have hsame : o.bare.defaultLanguage.asKey = .ok language := hlanguage
  unfold build
  rw [hdrafted, ok_bind, hid, ok_bind, hsame, ok_bind, hdrafts, hrules, ok_bind, hpages, htitles,
    variablesFrom_bare]
  rfl

/-- Counts do not depend on what switches add. -/
theorem statistics_bare (f : Form) (ds : List Draft) (d : Document) :
    statistics f (ds.map Draft.bare) d.bare = statistics f ds d := by
  have hrows : d.bare.rows = d.rows.map Row.bare := by
    unfold Document.rows
    rw [Document.bare, List.flatMap_map, List.map_flatMap]
    rfl
  have hpages : d.bare.pages.length = d.pages.length := List.length_map _
  unfold statistics
  rw [hrows, hpages, List.map_map, List.map_map, List.length_map, List.length_map]
  rfl

end

/-! ## Documents as values -/

/-- The value of a control without the properties that switches add, -/
def bareControlValue (v : Value) : Value := v.under "properties" (.without ["required", "formula"])

def bareRowValue (v : Value) : Value := v.under "controls" (.each bareControlValue)

def barePageValue (v : Value) : Value := v.under "rows" (.each bareRowValue)

/-- and that of a document without its rules and with such controls only. -/
def bareValue (v : Value) : Value := (v.without ["rules"]).under "pages" (.each barePageValue)

theorem filter_optionalMember (names : List String) (name : String) (v : Option Value) :
    (optionalMember name v).filter (fun f => !names.contains f.1) =
      if names.contains name then [] else optionalMember name v := by
  cases v with
  | none => exact (ite_self _).symm
  | some v =>
    have hone : optionalMember name (some v) = [(name, v)] := rfl
    rw [hone, List.filter_singleton]
    cases names.contains name <;> rfl

theorem map_optionalMember {name other : String} (h : other ≠ name) (g : Value → Value) (v : Option Value) :
    (optionalMember other v).map (fun f => if f.1 = name then (f.1, g f.2) else f) =
      optionalMember other v := by
  cases v with
  | none => rfl
  | some v => simp [optionalMember, h]

theorem any_optionalMember (other name : String) (v : Option Value) :
    (optionalMember other v).any (·.1 == name) = (v.isSome && other == name) := by
  cases v <;> simp [optionalMember]

/-- A list of values in which each one is changed like what it is the value of. -/
theorem each_ofList_map {α : Type} {g : Value → Value} {value : α → Value} {bare : α → α}
    (h : ∀ x, g (value x) = value (bare x)) (xs : List α) :
    (Value.ofList (xs.map value)).each g = .ofList ((xs.map bare).map value) := by
  rw [Value.each_ofList, List.map_map, List.map_map]
  exact congrArg Value.ofList (List.map_congr_left fun x _ => h x)

theorem without_propertiesValue (c : Control) :
    c.propertiesValue.without ["required", "formula"] = c.bare.propertiesValue := by
  unfold Control.propertiesValue
  rw [Value.without_record, List.filter_append, List.filter_append, filter_optionalMember,
    filter_optionalMember]
  rfl

theorem bareControlValue_toValue (c : Control) : bareControlValue c.toValue = c.bare.toValue := by
  have hparent : "parentId" ≠ "properties" := by decide
  have hoptions : "options" ≠ "properties" := by decide
  have hsection : "repeatingSection" ≠ "properties" := by decide
  have hvariable : "variableId" ≠ "properties" := by decide
  unfold bareControlValue Control.toValue
  rw [Value.under_record, List.map_append, List.map_append, List.map_append, List.map_append,
    map_optionalMember hparent, map_optionalMember hoptions, map_optionalMember hsection,
    map_optionalMember hvariable, ← without_propertiesValue]
  rfl

theorem bareRowValue_toValue (r : Row) : bareRowValue r.toValue = r.bare.toValue := by
  unfold bareRowValue Row.toValue Row.bare
  rw [Value.under_record, ← each_ofList_map bareControlValue_toValue]
  rfl

theorem barePageValue_toValue (p : Page) : barePageValue p.toValue = p.bare.toValue := by
  unfold barePageValue Page.toValue Page.bare
  rw [Value.under_record, ← each_ofList_map bareRowValue_toValue]
  rfl

theorem bareValue_toValue (d : Document) : bareValue d.toValue = d.bare.toValue := by
  unfold bareValue Document.toValue Document.bare
  rw [Value.without_record, List.filter_append, filter_optionalMember, Value.under_record]
  simp only
  rw [← each_ofList_map barePageValue_toValue]
  rfl

theorem contains_rules (d : Document) : d.toValue.contains "rules" = .ok d.rules.isSome := by
  unfold Document.toValue
  rw [Value.contains_record, List.any_append, any_optionalMember, Option.isSome_map]
  cases d.rules.isSome <;> rfl

theorem contains_required (c : Control) :
    c.propertiesValue.contains "required" = .ok c.isRequired.isSome := by
  unfold Control.propertiesValue
  rw [Value.contains_record, List.any_append, List.any_append, any_optionalMember, any_optionalMember]
  cases c.isRequired.isSome <;> cases (c.formula.map Value.text).isSome <;> rfl

theorem contains_formula (c : Control) :
    c.propertiesValue.contains "formula" = .ok c.formula.isSome := by
  unfold Control.propertiesValue
  rw [Value.contains_record, List.any_append, List.any_append, any_optionalMember, any_optionalMember,
    Option.isSome_map]
  cases c.isRequired.isSome <;> cases c.formula.isSome <;> rfl

theorem require_properties (c : Control) : c.toValue.require "properties" = .ok c.propertiesValue :=
  Value.require_record rfl

/-! ## What each switch adds -/

/-- Whether a control has a calculation among its properties. -/
def isCalculated (c : Form.Control) : Bool :=
  (Value.lookup c.properties (.text "Calculation")).any (·.isGiven)

/-- A control of a page that shows a control of the view and is marked as the switches say. -/
structure Control.Carries (o : Options) (page : Nat) (c : Control) (x : Form.Control × Nat) : Prop
    extends c.Shows page x where
  properties : ∃ ps, c.toValue.require "properties" = .ok ps ∧
    ps.contains "required" = .ok o.validationRules.isGiven ∧
    ps.contains "formula" = .ok (o.calculations.isGiven && isCalculated x.1)

/-- The names of the artifacts besides the form definition. -/
def companionNames (o : Options) : List String :=
  (if o.workflow.isGiven then ["workflow-definition.json"] else []) ++
    if o.metadata.isGiven then ["metadata.json", "conversion-info.txt"] else []

/-- The text of the artifact of a name. -/
def companionText (f : Form) (d : Document) (s : Statistics) (name : String) : Except Fault String :=
  if name = "workflow-definition.json" then Json.write .readable (workflow d)
  else if name = "metadata.json" then Json.write .readable (metadata f s)
  else conversionNotes f s

theorem isSome_formula? (c : Form.Control) : (formula? c).isSome = isCalculated c := by
  unfold formula? isCalculated
  cases Value.lookup c.properties (.text "Calculation") with
  | none => rfl
  | some v => cases hv : v.isGiven <;> simp [hv]

theorem Draft.IsOf.carries {o : Options} {count : Nat} {p : Placed} {x : Draft} (h : x.IsOf o count p)
    (vs : List Variable) : (x.finish vs).Carries o p.page (p.control, p.index) := by
  refine ⟨h.shows vs, _, require_properties _, ?_, ?_⟩
  · have hrequired : (x.finish vs).isRequired = x.control.isRequired := rfl
    rw [contains_required, hrequired, h.isRequired]
    cases o.validationRules.isGiven <;> rfl
  · have hformula : (x.finish vs).formula = x.control.formula := rfl
    rw [contains_formula, hformula, h.formula]
    cases o.calculations.isGiven
    · rfl
    · exact congrArg Except.ok (isSome_formula? p.control)

theorem isSome_of_rulesOf {cs : List Control} {o : Options} {ss : List Form.DynamicSection}
    {rules : Option (List Rule)} (h : rulesOf cs o ss = .ok rules) :
    rules.isSome = o.conditionalLogic.isGiven := by
  unfold rulesOf at h
  split at h
  · rename_i hgiven
    obtain ⟨rs, -, rfl⟩ := map_eq_ok.mp h
    exact hgiven.symm
  · rename_i hgiven
    obtain rfl := Except.ok.inj h
    simpa using hgiven

theorem companions_eq (f : Form) (o : Options) (d : Document) (s : Statistics) :
    companions f o d s = (companionNames o).mapM fun name => do
      return (name, ← companionText f d s name) := by
  unfold companions companionNames
  cases o.workflow.isGiven <;> cases o.metadata.isGiven <;>
    cases hflow : Json.write .readable (workflow d) <;>
    cases hdata : Json.write .readable (metadata f s) <;> cases hnotes : conversionNotes f s <;>
    simp [companionText, hflow, hdata, hnotes]

/-- The companions have the names that switches give, each with its text. -/
theorem companions_eq_ok {f : Form} {o : Options} {d : Document} {s : Statistics}
    {others : List (String × String)} (h : companions f o d s = .ok others) :
    others.map (·.1) = companionNames o ∧ ∀ a ∈ others, companionText f d s a.1 = .ok a.2 := by
  have hone : ∀ name a, (do return (name, ← companionText f d s name) : Except Fault _) = .ok a →
      name = a.1 ∧ companionText f d s a.1 = .ok a.2 := by
    intro name a ha
    obtain ⟨t, ht, ha⟩ := bind_eq_ok.mp ha
    obtain rfl := Except.ok.inj ha
    exact ⟨rfl, ht⟩
  rw [companions_eq] at h
  constructor
  · have hnames := map_eq_of_mapM_eq_ok (p := id) (q := Prod.fst) (fun name a ha => (hone name a ha).1) h
    rw [← hnames, List.map_id]
  · intro a ha
    obtain ⟨name, -, htext⟩ := exists_of_mem_mapM_eq_ok h ha
    exact (hone name a htext).2

/-- A product with its document that has what the switches ask for and nothing of what they leave out. -/
structure Switched (f : Form) (o : Options) (main : String) (p : Product) (d : Document) : Prop
    extends Holds o p d where
  built : ∃ ds, build f o = .ok (ds, d)
  rules : d.toValue.contains "rules" = .ok o.conditionalLogic.isGiven
  pages : d.pages.length = f.views.length
  /-- Every control of the document is marked as the switches say, and shows a control of its view. -/
  controls : ∀ (k : Nat) (v : Form.View) (page : Page), f.views[k]? = some v → d.pages[k]? = some page →
    List.Forall₂ (Control.Carries o (k + 1)) page.controls
      (v.controls.zipIdx.mergeSort fun x y => rowOf x.1 ≤ rowOf y.1)
  artifacts : p.artifacts.map (·.1) = "form-definition.json" :: companionNames o
  outputPath : p.outputPath = main ++ "_nintex." ++ suffix o.outputFormat
  /-- Another output format changes the output and the end of its path. -/
  formats : ∀ x, ∃ text, generator.generate f { o with outputFormat := x } = .ok (.product
    { p with output := text, outputPath := main ++ "_nintex." ++ suffix x })

section
variable {f : Form} {o : Options} {ds : List Draft} {d : Document} {s : Statistics} {json : String}
  {others : List (String × String)} {main : String}

namespace Assembled

/-- The parts of a product under options without switches. -/
theorem bare (h : Assembled f o ds d s json others main) :
    build f o.bare = .ok (ds.map Draft.bare, d.bare) ∧
      statistics f (ds.map Draft.bare) d.bare = .ok s ∧ workflow d.bare = workflow d := by
  refine ⟨build_bare h.built, ?_, rfl⟩
  rw [statistics_bare]
  exact h.counted

/-- The output format is read by no part. -/
theorem reformatted (h : Assembled f o ds d s json others main) (x : OutputFormat) :
    Assembled f { o with outputFormat := x } ds d s json others main :=
  ⟨h.views, h.built, h.counted, h.written, h.accompanied, h.named⟩

theorem switched (h : Assembled f o ds d s json others main) :
    Switched f o main {
      success := true
      target
      output := d.output json o.outputFormat
      outputPath := main ++ "_nintex." ++ suffix o.outputFormat
      artifacts := ("form-definition.json", json) :: others
      statistics := .statistics s } d := by
  obtain ⟨rss, hbuilt⟩ := build_eq_ok h.built
  obtain ⟨hnames, -⟩ := companions_eq_ok h.accompanied
  refine { success := rfl, json := ⟨json, others, h.written, rfl, rfl⟩, built := ⟨ds, h.built⟩, rules := ?_,
           pages := hbuilt.length_pages, controls := ?_, artifacts := ?_, outputPath := rfl, formats := ?_ }
  · rw [contains_rules, isSome_of_rulesOf hbuilt.rules]
  · intro k v page hv hpage
    obtain ⟨w, rows, hw, -, hrows, rfl⟩ := hbuilt.getElem?_pages hpage
    obtain rfl : v = w := Option.some.inj (hv.symm.trans hw)
    exact forall₂_finishPage hrows _ _ fun p x hp hx => hp ▸ hx.carries d.formVariables
  · rw [List.map_cons, hnames]
  · intro x
    exact ⟨d.output json x, generate_eq_ok.mpr (product_eq_ok_iff.mpr
      ⟨ds, d, s, json, others, main, h.reformatted x, rfl⟩)⟩

end Assembled

end

/-- Products of a form under options that agree on all that is no switch have what the switches ask for
each, and besides that the same: their documents agree without the rules and without the marks on
controls, and so do their statistics and the texts of artifacts that both have. -/
theorem product_switches {f : Form} {o o' : Options} {p p' : Product}
    (hdescription : o.description = o'.description) (hlanguage : o.defaultLanguage = o'.defaultLanguage)
    (hlayout : o.layoutType = o'.layoutType) (hlead : o.variableLead = o'.variableLead)
    (h : generator.generate f o = .ok (.product p)) (h' : generator.generate f o' = .ok (.product p')) :
    ∃ main d d', Switched f o main p d ∧ Switched f o' main p' d' ∧
      bareValue d.toValue = bareValue d'.toValue ∧
      (∀ name t t', name ≠ "form-definition.json" → (name, t) ∈ p.artifacts → (name, t') ∈ p'.artifacts →
        t = t') ∧
      p.statistics = p'.statistics := by
  obtain ⟨ds, d, s, json, others, main, hparts, rfl⟩ := product_eq_ok_iff.mp (generate_eq_ok.mp h)
  obtain ⟨ds', d', s', json', others', main', hparts', rfl⟩ := product_eq_ok_iff.mp (generate_eq_ok.mp h')
  have hbare : o.bare = o'.bare := by
    unfold Options.bare
    rw [hdescription, hlanguage, hlayout, hlead]
  obtain ⟨hbuild, hcounts, hflow⟩ := hparts.bare
  obtain ⟨hbuild', hcounts', hflow'⟩ := hparts'.bare
  -- both runs come to one run without switches
  rw [hbare, hbuild'] at hbuild
  obtain ⟨hdrafts, hdocument⟩ := Prod.mk.inj (Except.ok.inj hbuild)
  rw [← hdrafts, ← hdocument, hcounts'] at hcounts
  obtain rfl := Except.ok.inj hcounts
  obtain rfl := Except.ok.inj (hparts.named.symm.trans hparts'.named)
  have htext : companionText f d s' = companionText f d' s' := by
    funext name
    rw [companionText, ← hflow, ← hdocument, hflow']
    rfl
  refine ⟨main, d, d', hparts.switched, hparts'.switched, ?_, ?_, rfl⟩
  · rw [bareValue_toValue, bareValue_toValue, hdocument]
  · intro name t t' hname ht ht'
    have hcompanion : ∀ {j : String} {as : List (String × String)} {u : String},
        (name, u) ∈ ("form-definition.json", j) :: as → (name, u) ∈ as := by
      intro j as u hu
      exact (List.mem_cons.mp hu).resolve_left fun heq => hname (congrArg Prod.fst heq)
    have hwritten := (companions_eq_ok hparts.accompanied).2 _ (hcompanion ht)
    have hwritten' := (companions_eq_ok hparts'.accompanied).2 _ (hcompanion ht')
    rw [htext] at hwritten
    exact Except.ok.inj (hwritten.symm.trans hwritten')

/-! ## All switches on and all off -/

/-- A form with a calculated control and a control that is none. -/
def calculatedForm : Form :=
  { rowsInTurns with views := [
      ⟨.text "first", [{ fieldAt "1A" with properties := [(.text "Calculation", .text "sum(Amount)")] },
        fieldAt "2A"], []⟩] }

theorem typed_calculatedForm : calculatedForm.Typed := by
  have hcalculated : (fieldAt "1A").Typed 2 := typed_fieldAt 2 (by decide)
  refine ⟨Value.isText_text _, Value.isText_text _, Or.inl rfl, ?_, List.forall_mem_nil _,
    List.forall_mem_nil _⟩
  refine List.forall_mem_cons.mpr ⟨⟨Value.isText_text _, ?_⟩, List.forall_mem_nil _⟩
  refine List.forall_mem_cons.mpr ⟨?_, List.forall_mem_cons.mpr
    ⟨typed_fieldAt 2 (by decide), List.forall_mem_nil _⟩⟩
  exact ⟨hcalculated.name, hcalculated.sourceType, hcalculated.label, hcalculated.position,
    hcalculated.choices, hcalculated.sectionLink, hcalculated.parent, hcalculated.isReadOnly,
    hcalculated.isRequired⟩

/-- Options with a workflow besides what is on by default. -/
def allOn : Options := { workflow := .bool true }

def allOff : Options := { Options.bare {} with outputFormat := .yaml }

theorem product_switches_onOff : ∃ p p' main d d',
    generator.generate calculatedForm allOn = .ok (.product p) ∧
    generator.generate calculatedForm allOff = .ok (.product p') ∧
    Switched calculatedForm allOn main p d ∧ Switched calculatedForm allOff main p' d' ∧
    bareValue d.toValue = bareValue d'.toValue ∧ p.statistics = p'.statistics := by
  have hviews : calculatedForm.views ≠ [] := List.cons_ne_nil _ _
  have hon : allOn.Typed := { Options.typed_default with workflow := ⟨_, rfl⟩ }
  have hoff : allOff.Typed := ⟨Or.inl rfl, Or.inl rfl, ⟨_, rfl⟩, ⟨_, rfl⟩, ⟨_, rfl⟩, ⟨_, rfl⟩, ⟨_, rfl⟩,
    ⟨_, rfl⟩, ⟨_, rfl⟩, ⟨_, rfl⟩, ⟨_, rfl⟩⟩
  obtain ⟨p, hp⟩ := exists_product_eq_ok typed_calculatedForm hon hviews
  obtain ⟨p', hp'⟩ := exists_product_eq_ok typed_calculatedForm hoff hviews
  have h := generate_eq_ok.mpr hp
  have h' := generate_eq_ok.mpr hp'
  have hdescription : allOn.description = allOff.description := rfl
  have hlanguage : allOn.defaultLanguage = allOff.defaultLanguage := rfl
  have hlayout : allOn.layoutType = allOff.layoutType := rfl
  have hlead : allOn.variableLead = allOff.variableLead := rfl
  obtain ⟨main, d, d', hd, hd', hvalue, -, hcounts⟩ :=
    product_switches hdescription hlanguage hlayout hlead h h'
  exact ⟨p, p', main, d, d', h, h', hd, hd', hvalue, hcounts⟩

end Nintex

end Formwright
