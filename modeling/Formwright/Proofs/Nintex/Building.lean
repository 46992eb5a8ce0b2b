import Formwright.Nintex.Generator
import Formwright.Proofs.Nintex.Layout
import Formwright.Proofs.Value.Keys

/-
  From a form to its document, stage by stage. A placed control is drafted (`draft_eq_ok`), the
  drafts of a view stand in rows in the order of a stable sort by row number (`draftPage_eq_ok`), the
  document gets a page for each view (`Built.getElem?_pages`) and shows the drafted controls with
  their variables (`Built.controls_eq`), and a product is put together from the document, its counts and
  its texts (`product_eq_ok_iff`).
-/

namespace Formwright.Nintex

/-! ## Drafts -/

/-- A draft that is made of a placed control. -/
structure Draft.IsOf (o : Options) (count : Nat) (p : Placed) (d : Draft) : Prop where
  placed : d.placed = p
  id : d.control.id = p.id
  name : d.control.name = p.control.name
  widget : d.control.widget = widget p.control.type
  sourceType : d.control.sourceType = p.control.sourceType
  label : d.control.label = p.control.label.orElse p.control.name
  isReadOnly : d.control.isReadOnly = p.control.isReadOnly
  isRequired : d.control.isRequired =
    if o.validationRules.isGiven then some p.control.isRequired else none
  formula : d.control.formula = if o.calculations.isGiven then formula? p.control else none
  choices : Value.sortOn (·.order) p.control.choices = .ok d.control.choices
  repeatingSection : d.control.repeatingSection = sectionName? p.control
  parent : parentId p.page count p.control.parentIndex = .ok d.control.parentId
  variableName : wantedVariable p.control o = .ok d.variableName

theorem draft_eq_ok {o : Options} {count : Nat} {p : Placed} {d : Draft}
    (h : draft o count p = .ok d) : d.IsOf o count p := by
  obtain ⟨_, -, h⟩ := bind_eq_ok.mp h
  obtain ⟨_, -, h⟩ := bind_eq_ok.mp h
  obtain ⟨parent, hparent, h⟩ := bind_eq_ok.mp h
  obtain ⟨choices, hchoices, h⟩ := bind_eq_ok.mp h
  obtain ⟨wanted, hwanted, h⟩ := bind_eq_ok.mp h
  obtain rfl := Except.ok.inj h
  exact ⟨rfl, rfl, rfl, rfl, rfl, rfl, rfl, rfl, rfl, hchoices, rfl, hparent, hwanted⟩

/-- Steps inside rows are steps for the items of all rows. -/
theorem mapM_flatMap_eq_ok {ε α β γ : Type} {f : β → Except ε γ} {rs : List (α × List β)}
    {ss : List (α × List γ)}
    (h : (rs.mapM fun r => do return (r.1, ← r.2.mapM f) : Except ε (List (α × List γ))) = .ok ss) :
    (rs.flatMap (·.2)).mapM f = .ok (ss.flatMap (·.2)) := by
  induction rs generalizing ss with
  | nil =>
    obtain rfl := Except.ok.inj h
    rfl
  | cons r rs ih =>
    obtain ⟨s, ss, hs, hss, rfl⟩ := mapM_cons_eq_ok.mp h
    obtain ⟨ys, hys, hs⟩ := bind_eq_ok.mp hs
    obtain rfl := Except.ok.inj hs
    rw [mapM_eq_ok, List.flatMap_cons, List.flatMap_cons, List.map_append, List.map_append,
      mapM_eq_ok.mp hys, mapM_eq_ok.mp (ih hss)]

/-- The drafts of a view: one for each control, in rows of ascending numbers. -/
theorem draftPage_eq_ok {o : Options} {page : Nat} {v : Form.View} {rows : List (Nat × List Draft)}
    (h : draftPage o page v = .ok rows) : ∃ ps, placeAll page v = .ok ps ∧
      rows.map (·.1) = rowNumbers ps ∧
      (ps.mergeSort fun p q => p.row ≤ q.row).mapM (draft o v.controls.length) =
        .ok (rows.flatMap (·.2)) ∧
      ∀ r ∈ rows, r.2 ≠ [] ∧ ∀ d ∈ r.2, ∃ p ∈ ps, p.row = r.1 ∧ d.IsOf o v.controls.length p := by
  obtain ⟨ps, hps, hrows⟩ := bind_eq_ok.mp h
  refine ⟨ps, hps, ?_, ?_, ?_⟩
  · rw [← map_fst_gather]
    refine (map_eq_of_mapM_eq_ok (fun r s hrs => ?_) hrows).symm
    obtain ⟨ds, -, hrs⟩ := bind_eq_ok.mp hrs
    obtain rfl := Except.ok.inj hrs
    rfl
  · rw [← flatMap_gather]
    exact mapM_flatMap_eq_ok hrows
  · intro r hr
    obtain ⟨i, hi⟩ := List.getElem?_of_mem hr
    obtain ⟨g, hg, hgr⟩ := getElem?_of_mapM_eq_ok hrows hi
    obtain ⟨ds, hds, hgr⟩ := bind_eq_ok.mp hgr
    obtain rfl := Except.ok.inj hgr
    obtain ⟨hmem, hne⟩ := mem_gather (List.mem_of_getElem? hg)
    constructor
    · intro hnil
      have hlength := length_of_mapM_eq_ok hds
      rw [show ds = [] from hnil, List.length_nil] at hlength
      exact hne (List.length_eq_zero_iff.mp hlength.symm)
    · intro d hd
      obtain ⟨j, hj⟩ := List.getElem?_of_mem hd
      obtain ⟨p, hp, hpd⟩ := getElem?_of_mapM_eq_ok hds hj
      obtain ⟨hps, hrow⟩ := hmem p (List.mem_of_getElem? hp)
      exact ⟨p, hps, hrow, draft_eq_ok hpd⟩

/-! ## Documents -/

/-- What a document is made of: the drafted rows `rss` of each view, and all drafts `ds`. -/
structure Built (f : Form) (o : Options) (rss : List (List (Nat × List Draft))) (ds : List Draft)
    (d : Document) : Prop where
  drafted : (f.views.zipIdx.mapM fun p => draftPage o (p.2 + 1) p.1) = .ok rss
  drafts : ds = rss.flatten.flatMap (·.2)
  formVariables : d.formVariables = variablesFrom [] ds
  rules : rulesOf (ds.map (·.control)) o f.dynamicSections = .ok d.rules
  pages : d.pages = (f.views.zip rss).zipIdx.map fun p =>
    finishPage d.formVariables (p.2 + 1) p.1.1.name p.1.2
  titles : d.titles = ds.filterMap title?
  name : d.name = f.name
  description : d.description = o.description.orElse (.text ("Converted from " ++ f.id.display))
  layoutType : d.layoutType = o.layoutType
  defaultLanguage : d.defaultLanguage = o.defaultLanguage

theorem build_eq_ok {f : Form} {o : Options} {ds : List Draft} {d : Document}
    (h : build f o = .ok (ds, d)) : ∃ rss, Built f o rss ds d := by
  obtain ⟨rss, hdrafted, h⟩ := bind_eq_ok.mp h
  obtain ⟨id, -, h⟩ := bind_eq_ok.mp h
  obtain ⟨language, hlanguage, h⟩ := bind_eq_ok.mp h
  obtain ⟨rules, hrules, h⟩ := bind_eq_ok.mp h
  obtain ⟨rfl, rfl⟩ := Prod.mk.inj (Except.ok.inj h)
  exact ⟨rss, hdrafted, rfl, rfl, hrules, rfl, rfl, rfl, rfl, rfl,
    (Value.asKey_eq_ok.mp hlanguage).2.symm⟩

/-- The rows of a page show its drafts. -/
theorem flatMap_finishPage (vs : List Variable) (page : Nat) (name : Value)
    (rows : List (Nat × List Draft)) :
    (finishPage vs page name rows).rows.flatMap (·.controls) =
      (rows.flatMap (·.2)).map (Draft.finish vs) := by
  have hrows : (rows.zipIdx.flatMap fun r => r.1.2.map (Draft.finish vs)) =
      (rows.zipIdx.map Prod.fst).flatMap fun r => r.2.map (Draft.finish vs) := by
    rw [List.flatMap_map]
  rw [finishPage, List.flatMap_map, hrows, List.zipIdx_map_fst, List.map_flatMap]

/-- The rows of a finished page are the drafted ones. -/
theorem exists_of_mem_finishPage {vs : List Variable} {k : Nat} {name : Value}
    {rows : List (Nat × List Draft)} {r : Row} (hr : r ∈ (finishPage vs k name rows).rows) :
    ∃ s ∈ rows, r.number = s.1 ∧ r.controls = s.2.map (Draft.finish vs) := by
  obtain ⟨s, hs, rfl⟩ := List.mem_map.mp hr
  exact ⟨s.1, List.fst_mem_of_mem_zipIdx hs, rfl, rfl⟩

section
variable {f : Form} {o : Options} {rss : List (List (Nat × List Draft))} {ds : List Draft}
  {d : Document}

namespace Built

theorem length_drafted (h : Built f o rss ds d) : rss.length = f.views.length := by
  rw [length_of_mapM_eq_ok h.drafted, List.length_zipIdx]

theorem length_pages (h : Built f o rss ds d) : d.pages.length = f.views.length := by
  rw [h.pages, List.length_map, List.length_zipIdx, List.length_zip, h.length_drafted, Nat.min_self]

/-- The page of a number is that of the view of this number. -/
theorem getElem?_pages (h : Built f o rss ds d) {k : Nat} {page : Page}
    (hpage : d.pages[k]? = some page) : ∃ v rows, f.views[k]? = some v ∧ rss[k]? = some rows ∧
      draftPage o (k + 1) v = .ok rows ∧ page = finishPage d.formVariables (k + 1) v.name rows := by
  rw [h.pages, List.getElem?_map, List.getElem?_zipIdx, Option.map_map, Option.map_eq_some_iff] at hpage
  obtain ⟨⟨v, rows⟩, hzip, rfl⟩ := hpage
  obtain ⟨hv, hrows⟩ := List.getElem?_zip_eq_some.mp hzip
  obtain ⟨⟨w, j⟩, hw, hdraft⟩ := getElem?_of_mapM_eq_ok h.drafted hrows
  rw [List.getElem?_zipIdx, hv] at hw
  obtain ⟨rfl, rfl⟩ := Prod.mk.inj (Option.some.inj hw)
  refine ⟨v, rows, hv, hrows, ?_, ?_⟩
  · simpa using hdraft
  · simp

/-- A draft is made of a control of a view. -/
theorem exists_of_mem_drafts (h : Built f o rss ds d) {x : Draft} (hx : x ∈ ds) :
    ∃ (k : Nat) (v : Form.View) (ps : List Placed) (p : Placed), f.views[k]? = some v ∧
      placeAll (k + 1) v = .ok ps ∧ p ∈ ps ∧ x.IsOf o v.controls.length p := by
  rw [h.drafts] at hx
  obtain ⟨r, hr, hx⟩ := List.mem_flatMap.mp hx
  obtain ⟨rows, hrows, hr⟩ := List.mem_flatten.mp hr
  obtain ⟨k, hk⟩ := List.getElem?_of_mem hrows
  obtain ⟨⟨v, j⟩, hv, hpage⟩ := getElem?_of_mapM_eq_ok h.drafted hk
  rw [List.getElem?_zipIdx, Option.map_eq_some_iff] at hv
  obtain ⟨w, hw, hpair⟩ := hv
  rw [Nat.zero_add, Prod.mk.injEq] at hpair
  obtain ⟨rfl, rfl⟩ := hpair
  obtain ⟨ps, hps, -, -, hdrafts⟩ := draftPage_eq_ok hpage
  obtain ⟨p, hp, -, hxp⟩ := (hdrafts r hr).2 x hx
  exact ⟨k, w, ps, p, hw, hps, hp, hxp⟩

/-- The controls of the document are the drafted ones, with their variables. -/
theorem controls_eq (h : Built f o rss ds d) :
    d.controls = ds.map (Draft.finish d.formVariables) := by
  have hpages : d.controls = d.pages.flatMap fun page => page.rows.flatMap (·.controls) := by
    rw [Document.controls, Document.rows, List.flatMap_assoc]
  have hzip : ((f.views.zip rss).zipIdx.flatMap fun p =>
      (p.1.2.flatMap (·.2)).map (Draft.finish d.formVariables)) =
      (((f.views.zip rss).zipIdx.map Prod.fst).map Prod.snd).flatMap fun rows =>
        (rows.flatMap (·.2)).map (Draft.finish d.formVariables) := by
    rw [List.map_map, List.flatMap_map]
    rfl
  rw [hpages, h.pages, List.flatMap_map]
  simp only [flatMap_finishPage]
  rw [hzip, List.zipIdx_map_fst, List.map_snd_zip (Nat.le_of_eq h.length_drafted), h.drafts,
    ← List.map_flatMap, List.flatten_eq_flatMap, List.flatMap_assoc]
  rfl

end Built

end

/-! ## Products -/

/-- A product that holds a document: its JSON text among the artifacts, and its text in the format
asked for as output. -/
structure Holds (o : Options) (p : Product) (d : Document) : Prop where
  success : p.success = true
  json : ∃ json others, Json.write .readable d.toValue = .ok json ∧
    p.artifacts = ("form-definition.json", json) :: others ∧
    p.output = match o.outputFormat with
      | .json => json
      | .yaml => Yaml.write .readable d.toValue

/-- What a product is made of: the document of a form, its counts, its JSON text, the artifacts that go
with it, and the name that the form has in file names. -/
structure Assembled (f : Form) (o : Options) (ds : List Draft) (d : Document) (s : Statistics)
    (json : String) (others : List (String × String)) (main : String) : Prop where
  views : f.views ≠ []
  built : build f o = .ok (ds, d)
  counted : statistics f ds d = .ok s
  written : Json.write .readable d.toValue = .ok json
  accompanied : companions f o d s = .ok others
  named : Identifier.tableNameOf f.name = .ok main

/-- The primary output for a document with a JSON text. -/
def Document.output (d : Document) (json : String) : OutputFormat → String
  | .json => json
  | .yaml => Yaml.write .readable d.toValue

/-- A form is generated when all parts of its product are there. -/
theorem product_eq_ok_iff {f : Form} {o : Options} {p : Product} :
    product f o = .ok p ↔ ∃ ds d s json others main, Assembled f o ds d s json others main ∧ p = {
      success := true
      target
      output := d.output json o.outputFormat
      outputPath := main ++ "_nintex." ++ suffix o.outputFormat
      artifacts := ("form-definition.json", json) :: others
      statistics := .statistics s } := by
  unfold product
  dsimp only
  constructor
  · intro h
    split at h
    · cases h
    rename_i hviews
    obtain ⟨⟨ds, d⟩, hbuild, h⟩ := bind_eq_ok.mp h
    obtain ⟨s, hs, h⟩ := bind_eq_ok.mp h
    obtain ⟨json, hjson, h⟩ := bind_eq_ok.mp h
    obtain ⟨others, hothers, h⟩ := bind_eq_ok.mp h
    obtain ⟨main, hmain, h⟩ := bind_eq_ok.mp h
    obtain rfl := Except.ok.inj h
    have hsome : f.views ≠ [] := by simpa using hviews
    exact ⟨ds, d, s, json, others, main, ⟨hsome, hbuild, hs, hjson, hothers, hmain⟩, rfl⟩
  · rintro ⟨ds, d, s, json, others, main, h, rfl⟩
    have hsome : f.views.isEmpty = false := by simpa using h.views
    rw [hsome, h.built, ok_bind]
    dsimp only
    rw [h.counted, ok_bind, h.written, ok_bind, h.accompanied, ok_bind, h.named]
    rfl

theorem product_eq_ok {f : Form} {o : Options} {p : Product} (h : product f o = .ok p) :
    ∃ ds d, build f o = .ok (ds, d) ∧ Holds o p d := by
  obtain ⟨ds, d, s, json, others, main, hparts, rfl⟩ := product_eq_ok_iff.mp h
  exact ⟨ds, d, hparts.built, rfl, json, others, hparts.written, rfl, rfl⟩

theorem generate_eq_ok {f : Form} {o : Options} {p : Product} :
    generator.generate f o = .ok (.product p) ↔ product f o = .ok p := by
  show (product f o).map Answer.product = _ ↔ _
  cases product f o with
  | error e => simp [Except.map]
  | ok q => simp [Except.map]

end Formwright.Nintex
