import Formwright.Proofs.Analysis.Declared
import Formwright.Proofs.Nintex.Pages

/-
  The references of a document. Whatever the form, a parent is a control of the same page, variables
  and controls name each other, and a rule shows controls of the document (`Built.linked`); the titles
  are those of the controls with a label (`Built.titled`). Where the form is mapped from an analysis,
  the parents of a control lead to a root in as many steps as its node is deep
  (`nested_of_ofAnalysis`).
-/

namespace Formwright.Nintex

/-- A document whose references lead to what it holds. -/
structure Linked (d : Document) : Prop where
  /-- A parent is a control of the same page. -/
  parents : ∀ page ∈ d.pages, ∀ c ∈ page.controls, ∀ id, c.parentId = some id →
    ∃ e ∈ page.controls, e.id = id
  /-- Controls and variables are known by their ids, -/
  controlIds : (d.controls.map (·.id)).Nodup
  variableIds : (d.formVariables.map (·.id)).Nodup
  /-- the control that a variable names is the one that names the variable, -/
  formVariables : ∀ v ∈ d.formVariables, ∃ c ∈ d.controls, c.id = v.controlId ∧ c.variableId = some v.id
  /-- and the variable that a control names is the one that names the control. -/
  controls : ∀ c ∈ d.controls, ∀ id, c.variableId = some id →
    ∃ v ∈ d.formVariables, v.id = id ∧ v.controlId = c.id
  /-- A rule shows controls of the document. -/
  targets : ∀ rs, d.rules = some rs → ∀ r ∈ rs, ∀ t ∈ r.targets, ∃ c ∈ d.controls, c.id = t

/-- A document with a title, in the default language, for each control of a form that has a label and
for no other one. -/
structure Titled (f : Form) (o : Options) (d : Document) : Prop where
  language : d.defaultLanguage = o.defaultLanguage
  distinct : (d.titles.map (·.1)).Nodup
  entries : ∀ key label, (key, label) ∈ d.titles ↔
    ∃ (k i : Nat) (v : Form.View) (c : Form.Control), f.views[k]? = some v ∧ v.controls[i]? = some c ∧
      c.label.isGiven = true ∧ key = titleKey (controlId (k + 1) i) ∧ label = c.label

/-- A control from which a number of steps, each to the parent, lead to a control without a parent. -/
inductive Climbs (cs : List Control) : Control → Nat → Prop where
  | root {c : Control} : c.parentId = none → Climbs cs c 0
  | step {c e : Control} {n : Nat} :
    c.parentId = some e.id → e ∈ cs → Climbs cs e n → Climbs cs c (n + 1)

/-- A document that shows the nodes of an analysis, view by view: the control of a node climbs to a root
in as many steps as the node is deep. -/
def Nested (a : Source.Definition) (d : Document) : Prop :=
  ∀ (k : Nat) (v : Source.View), a.views[k]? = some v → ∃ page, d.pages[k]? = some page ∧
    ∀ (p : Place) (s : Source.Control), v.controls.node? p = some s →
      ∃ (i : Nat) (c : Control), v.controls.places[i]? = some p ∧ c ∈ page.controls ∧
        c.id = controlId (k + 1) i ∧ c.sourceType = s.type.orElse (.text "") ∧
        Climbs page.controls c (p.length - 1)

/-! ## Controls and their parents -/

/-- A parent that is found is a control of the page. -/
theorem exists_of_parentId_eq_ok {page count : Nat} {v : Value} {id : String}
    (h : parentId page count v = .ok (some id)) : ∃ i < count, id = controlId page i := by
  unfold parentId at h
  split at h
  · cases h
  · obtain ⟨key, -, h⟩ := bind_eq_ok.mp h
    split at h
    · rename_i i hi
      obtain rfl := Option.some.inj (Except.ok.inj h)
      exact ⟨i, List.mem_range.mp (List.mem_of_find?_eq_some hi), rfl⟩
    · cases h

section
variable {f : Form} {o : Options} {rss : List (List (Nat × List Draft))} {ds : List Draft}
  {d : Document}

namespace Built

/-- The control at an index of a view is drafted, and its page shows the draft. -/
theorem exists_draft (h : Built f o rss ds d) {k i : Nat} {v : Form.View} {c : Form.Control}
    {page : Page} (hv : f.views[k]? = some v) (hc : v.controls[i]? = some c)
    (hpage : d.pages[k]? = some page) : ∃ x ∈ ds, ∃ p, x.IsOf o v.controls.length p ∧
      p.page = k + 1 ∧ p.index = i ∧ p.control = c ∧
      x.finish d.formVariables ∈ page.controls := by
  obtain ⟨w, rows, hw, hrss, hrows, rfl⟩ := h.getElem?_pages hpage
  obtain rfl : v = w := Option.some.inj (hv.symm.trans hw)
  obtain ⟨ps, hps, -, hdrafts, -⟩ := draftPage_eq_ok hrows
  obtain ⟨hlength, hat⟩ := placeAll_eq_ok hps
  have hi : i < ps.length := by
    rw [hlength]
    exact (List.getElem?_eq_some_iff.mp hc).1
  obtain ⟨hkp, hip, hcp, -⟩ := hat i _ (List.getElem?_eq_getElem hi)
  have hmem : ps[i] ∈ ps.mergeSort fun p q => p.row ≤ q.row :=
    List.mem_mergeSort.mpr (List.getElem_mem hi)
  obtain ⟨x, hx, hxs⟩ := mem_of_mapM_eq_ok hdrafts hmem
  refine ⟨x, ?_, ps[i], draft_eq_ok hx, hkp, hip, Option.some.inj (hcp.symm.trans hc), ?_⟩
  · obtain ⟨r, hr, hxr⟩ := List.mem_flatMap.mp hxs
    rw [h.drafts]
    exact List.mem_flatMap.mpr ⟨r, List.mem_flatten.mpr ⟨rows, List.mem_of_getElem? hrss, hr⟩, hxr⟩
  · rw [Page.controls, flatMap_finishPage]
    exact List.mem_map_of_mem hxs

/-- Every control of a page is that of a draft. -/
theorem exists_of_mem_page (h : Built f o rss ds d) {k : Nat} {page : Page}
    (hpage : d.pages[k]? = some page) {c : Control} (hc : c ∈ page.controls) :
    ∃ (v : Form.View) (p : Placed) (x : Draft), f.views[k]? = some v ∧ x.IsOf o v.controls.length p ∧
      p.page = k + 1 ∧ c = x.finish d.formVariables := by
  obtain ⟨v, rows, hv, -, hrows, rfl⟩ := h.getElem?_pages hpage
  obtain ⟨ps, hps, -, -, hdrafts⟩ := draftPage_eq_ok hrows
  rw [Page.controls, flatMap_finishPage] at hc
  obtain ⟨x, hx, rfl⟩ := List.mem_map.mp hc
  obtain ⟨r, hr, hxr⟩ := List.mem_flatMap.mp hx
  obtain ⟨p, hp, -, hxp⟩ := (hdrafts r hr).2 x hxr
  exact ⟨v, p, x, hv, hxp, (mem_zipIdx_of_mem_placeAll hps hp).1, rfl⟩

theorem exists_parent (h : Built f o rss ds d) {page : Page} (hpage : page ∈ d.pages) {c : Control}
    (hc : c ∈ page.controls) {id : String} (hid : c.parentId = some id) :
    ∃ e ∈ page.controls, e.id = id := by
  obtain ⟨k, hk⟩ := List.getElem?_of_mem hpage
  obtain ⟨v, p, x, hv, hxp, hkp, rfl⟩ := h.exists_of_mem_page hk hc
  have hparent := hxp.parent
  rw [show x.control.parentId = some id from hid] at hparent
  obtain ⟨i, hi, rfl⟩ := exists_of_parentId_eq_ok hparent
  obtain ⟨y, -, q, hyq, hkq, hiq, -, hmem⟩ := h.exists_draft hv (List.getElem?_eq_getElem hi) hk
  refine ⟨_, hmem, ?_⟩
  show y.control.id = _
  rw [hyq.id, Placed.id, hkq, hiq, hkp]

/-- The document shows every draft. -/
theorem finish_mem_controls (h : Built f o rss ds d) {x : Draft} (hx : x ∈ ds) :
    x.finish d.formVariables ∈ d.controls := by
  rw [h.controls_eq]
  exact List.mem_map_of_mem hx

/-! ## Variables -/

theorem nodup_draftIds (h : Built f o rss ds d) : (ds.map (·.control.id)).Nodup := by
  have hids := h.nodup_controlIds
  rw [h.controls_eq, List.map_map] at hids
  exact hids

/-- The control of a variable names it. -/
theorem exists_control_of_variable (h : Built f o rss ds d) {v : Variable} (hv : v ∈ d.formVariables) :
    ∃ c ∈ d.controls, c.id = v.controlId ∧ c.variableId = some v.id := by
  have hfound := hv
  rw [h.formVariables] at hfound
  obtain ⟨x, hx, -, hid⟩ := exists_of_mem_variablesFrom hfound
  refine ⟨x.finish d.formVariables, h.finish_mem_controls hx, hid.symm, ?_⟩
  show (d.formVariables.find? fun w => w.controlId == x.control.id).map (·.id) = _
  rw [← hid, h.formVariables, find?_variablesFrom h.nodup_draftIds hfound]
  rfl

/-- The variable that a control names is its own. -/
theorem exists_variable_of_control (h : Built f o rss ds d) {c : Control} (hc : c ∈ d.controls) {id : String}
    (hid : c.variableId = some id) : ∃ v ∈ d.formVariables, v.id = id ∧ v.controlId = c.id := by
  rw [h.controls_eq] at hc
  obtain ⟨x, -, rfl⟩ := List.mem_map.mp hc
  obtain ⟨v, hv, rfl⟩ := Option.map_eq_some_iff.mp hid
  refine ⟨v, List.mem_of_find?_eq_some hv, rfl, ?_⟩
  show v.controlId = x.control.id
  simpa using List.find?_some hv

/-! ## Rules -/

theorem exists_target (h : Built f o rss ds d) {rs : List Rule} (hrs : d.rules = some rs) {r : Rule}
    (hr : r ∈ rs) {t : String} (ht : t ∈ r.targets) : ∃ c ∈ d.controls, c.id = t := by
  obtain ⟨number, s, -, hrule⟩ := h.exists_of_mem_rules hrs hr
  obtain ⟨ids, hids, hrule⟩ := bind_eq_ok.mp hrule
  obtain rfl := Except.ok.inj hrule
  obtain ⟨keys, -, hids⟩ := bind_eq_ok.mp hids
  obtain rfl := Except.ok.inj hids
  obtain ⟨key, -, hkey⟩ := List.mem_filterMap.mp ht
  obtain ⟨c, hc, rfl⟩ := Option.map_eq_some_iff.mp hkey
  obtain ⟨x, hx, rfl⟩ := List.mem_map.mp (List.mem_of_find?_eq_some hc)
  exact ⟨x.finish d.formVariables, h.finish_mem_controls hx, rfl⟩

theorem linked (h : Built f o rss ds d) : Linked d where
  parents _ hpage _ hc _ hid := h.exists_parent hpage hc hid
  controlIds := h.nodup_controlIds
  variableIds := by
    rw [h.formVariables]
    exact (nodup_variablesFrom [] ds).1
  formVariables _ hv := h.exists_control_of_variable hv
  controls _ hc _ hid := h.exists_variable_of_control hc hid
  targets _ hrs _ hr _ ht := h.exists_target hrs hr ht

/-! ## Titles -/

/-- The keys of the titles are those of the labelled controls. -/
theorem map_fst_titles (h : Built f o rss ds d) : d.titles.map (·.1) =
    (ds.filter (·.placed.control.label.isGiven)).map fun x => titleKey x.control.id := by
  rw [h.titles]
  clear h
  induction ds with
  | nil => rfl
  | cons x ds ih =>
    rw [List.filterMap_cons, List.filter_cons, title?]
    by_cases hlabel : x.placed.control.label.isGiven = true
    · rw [if_pos hlabel, if_pos hlabel, List.map_cons, List.map_cons, ih]
    · rw [if_neg hlabel, if_neg hlabel, ih]

theorem mem_titles (h : Built f o rss ds d) {key : String} {label : Value} :
    (key, label) ∈ d.titles ↔ ∃ x ∈ ds, x.placed.control.label.isGiven = true ∧
      key = titleKey x.control.id ∧ label = x.placed.control.label := by
  rw [h.titles, List.mem_filterMap]
  refine exists_congr fun x => and_congr_right fun _ => ?_
  unfold title?
  by_cases hlabel : x.placed.control.label.isGiven = true
  · rw [if_pos hlabel, Option.some.injEq, Prod.mk.injEq]
    simp [hlabel, eq_comm]
  · simp [hlabel]

theorem titled (h : Built f o rss ds d) : Titled f o d := by
  refine ⟨h.defaultLanguage, ?_, fun key label => ?_⟩
  · rw [h.map_fst_titles, List.Nodup, List.pairwise_map]
    have hids := List.pairwise_map.mp h.nodup_draftIds
    refine (hids.sublist List.filter_sublist).imp fun hne heq => hne ?_
    exact (String.append_left_inj _).mp heq
  · rw [h.mem_titles]
    constructor
    · rintro ⟨x, hx, hlabel, rfl, rfl⟩
      obtain ⟨k, v, ps, p, hv, hps, hp, hxp⟩ := h.exists_of_mem_drafts hx
      obtain ⟨hpage, -, hmem⟩ := mem_zipIdx_of_mem_placeAll hps hp
      rw [hxp.placed] at hlabel ⊢
      refine ⟨k, p.index, v, p.control, hv, List.mk_mem_zipIdx_iff_getElem?.mp hmem, hlabel, ?_, rfl⟩
      rw [hxp.id, Placed.id, hpage]
    · rintro ⟨k, i, v, c, hv, hc, hlabel, rfl, rfl⟩
      have hk : k < d.pages.length := by
        rw [h.length_pages]
        exact (List.getElem?_eq_some_iff.mp hv).1
      obtain ⟨x, hx, p, hxp, hkp, hip, rfl, -⟩ :=
        h.exists_draft hv hc (List.getElem?_eq_getElem hk)
      refine ⟨x, hx, ?_, ?_, ?_⟩
      · rw [hxp.placed]
        exact hlabel
      · rw [hxp.id, Placed.id, hkp, hip]
      · rw [hxp.placed]

/-! ## Nodes -/

/-- The control of a node climbs to a root. The induction is on the number of the node, as its parent
has a smaller one. -/
theorem exists_climbs (h : Built f o rss ds d) {k : Nat} {v : Form.View} {page : Page}
    {g : Forest Source.Control} (hv : f.views[k]? = some v) (hpage : d.pages[k]? = some page)
    (hg : Form.mapControls g = .ok v.controls) {i : Nat} {p : Place} (hp : g.places[i]? = some p) :
    ∃ c ∈ page.controls, ∃ s, g.node? p = some s ∧ c.id = controlId (k + 1) i ∧
      c.sourceType = s.type.orElse (.text "") ∧ Climbs page.controls c (p.length - 1) := by
  induction i using Nat.strongRecOn generalizing p with
  | ind i ih =>
    have hi : i < v.controls.length := by
      rw [Form.length_of_mapControls hg, ← Forest.length_places]
      exact (List.getElem?_eq_some_iff.mp hp).1
    have hc := List.getElem?_eq_getElem hi
    have hplaced := Form.placed_of_mapControls hg hc hp
    obtain ⟨s, hs, his⟩ := hplaced.node
    obtain ⟨x, -, q, hxq, hkq, hiq, hcq, hmem⟩ := h.exists_draft hv hc hpage
    refine ⟨x.finish d.formVariables, hmem, s, hs, ?_, ?_, ?_⟩
    · show x.control.id = _
      rw [hxq.id, Placed.id, hkq, hiq]
    · show x.control.sourceType = _
      rw [hxq.sourceType, hcq, his.sourceType]
    · have hparent := hxq.parent
      rw [hcq] at hparent
      rcases Nat.lt_or_ge 1 p.length with hbelow | hroot
      · obtain ⟨j, -, -, -, hji, hjp, -, hcj, -⟩ := hplaced.parent hbelow
        obtain ⟨e, he, -, -, hid, -, hclimbs⟩ := ih j hji hjp
        rw [hcj, parentId_count (by omega), hkq, ← hid] at hparent
        rw [List.length_dropLast] at hclimbs
        rw [show p.length - 1 = (p.length - 1 - 1) + 1 by omega]
        exact .step (Except.ok.inj hparent).symm he hclimbs
      · have hne := Forest.ne_nil_of_mem_places (List.mem_of_getElem? hp)
        have hpos := List.length_pos_iff.mpr hne
        rw [hplaced.root.mpr (by omega), parentId_null] at hparent
        rw [show p.length - 1 = 0 by omega]
        exact .root (Except.ok.inj hparent).symm

end Built

end

/-- The document of a mapped form shows the nodes of its analysis. -/
theorem nested_of_ofAnalysis {a : Analysis} {b : Source.Definition} {f : Form} {o : Options}
    {rss : List (List (Nat × List Draft))} {ds : List Draft} {d : Document}
    (ha : a.definition = some b) (hf : Form.ofAnalysis (some a) = .ok f) (h : Built f o rss ds d) :
    Nested b d := by
  intro k v hv
  obtain ⟨a', b', ha', hb', -, hviews, -⟩ := Form.ofAnalysis_eq_ok hf
  obtain rfl := Option.some.inj ha'
  obtain rfl : b = b' := Option.some.inj (ha.symm.trans hb')
  have hk : k < d.pages.length := by
    rw [h.length_pages, length_of_mapM_eq_ok hviews]
    exact (List.getElem?_eq_some_iff.mp hv).1
  refine ⟨d.pages[k], List.getElem?_eq_getElem hk, fun p s hs => ?_⟩
  obtain ⟨w, hw, -⟩ := h.exists_laidOut (List.getElem?_eq_getElem hk)
  obtain ⟨v', hv', hvw⟩ := getElem?_of_mapM_eq_ok hviews hw
  obtain rfl : v = v' := Option.some.inj (hv.symm.trans hv')
  obtain ⟨cs, hcs, hvw⟩ := bind_eq_ok.mp hvw
  obtain rfl := Except.ok.inj hvw
  obtain ⟨i, hi⟩ := List.getElem?_of_mem (Forest.mem_places_of_node? hs)
  obtain ⟨c, hc, s', hs', hid, htype, hclimbs⟩ :=
    h.exists_climbs hw (List.getElem?_eq_getElem hk) hcs hi
  obtain rfl : s = s' := Option.some.inj (hs.symm.trans hs')
  exact ⟨i, c, hi, hc, hid, htype, hclimbs⟩

/-- A control with a name, a type token, a label and a position, of which each may be missing. -/
def controlWith (name type label position : Option String) : Source.Control where
  name := name.elim .null .text
  type := type.elim .null .text
  label := label.elim .null .text
  gridPosition := position.elim .null .text

theorem declared_controlWith (name type label : Option String) {position : Option String}
    (h : ∀ s ∈ position, s.length ≤ maxIntegerDigits) :
    (controlWith name type label position).Declared := by
  have htext : ∀ s : Option String, (s.elim .null .text : Value).IsText := by
    rintro (_ | s)
    · exact Or.inl rfl
    · exact Value.isText_text s
  have hrow : Grid.Readable (position.elim .null .text) := by
    obtain _ | s := position
    · exact Grid.exists_parseValue_eq_ok.mp ⟨_, rfl⟩
    · exact Grid.readable_text (h s rfl)
  exact ⟨htext _, htext _, htext _, Or.inl rfl, htext _, hrow, Or.inl rfl, Or.inl rfl,
    List.forall_mem_nil _, List.forall_mem_nil _⟩

/-- A table with a gap and an unnamed row inside it, of which the row is laid out first, a second view
with a control of the same name, and a section that shows one control of the table and one that is
nowhere. -/
def nestedTable : Analysis where
  formName := .text "Order"
  definition := some {
    views := [
      { name := .text "first"
        controls :=
          .node (controlWith "Items" "RepeatingTable" "Items" "2A")
            (.gap (.node (controlWith none none none "1B")
              (.node (controlWith "Total" "Currency" "Total" "2B") .nil .nil) .nil))
            (.node (controlWith "Note" none none "top") .nil .nil) },
      { controls := .node (controlWith "Total" none "Total" none) .nil .nil }]
    dynamicSections := [
      { caption := .text "Totals", conditionField := .text "Note", conditionValue := .text "yes"
        controls := [.text "Total", .text "Gone"] }] }

theorem declared_nestedTable : nestedTable.Declared := by
  refine ⟨Value.isText_text _, Or.inl rfl, Or.inl rfl, ?_, List.forall_mem_nil _⟩
  rintro d hd
  obtain rfl := Option.some.inj hd
  refine ⟨Or.inl rfl, ?_, List.forall_mem_nil _, ?_, fun _ hm => by cases hm⟩
  · refine List.forall_mem_cons.mpr ⟨⟨Value.isText_text _, ?_, List.forall_mem_nil _⟩,
      List.forall_mem_singleton.mpr ⟨Or.inl rfl, ?_, List.forall_mem_nil _⟩⟩
    · simp only [Forest.labels, List.append_nil, List.nil_append, List.cons_append,
        List.forall_mem_cons]
      exact ⟨declared_controlWith _ _ _ (by decide), declared_controlWith _ _ _ (by decide),
        declared_controlWith _ _ _ (by decide), declared_controlWith _ _ _ (by decide),
        List.forall_mem_nil _⟩
    · exact List.forall_mem_singleton.mpr (declared_controlWith _ _ _ (by decide))
  · refine List.forall_mem_singleton.mpr ⟨Or.inl rfl, Or.inl rfl, Value.isText_text _, Or.inl rfl,
      Value.isText_text _, Value.isText_text _, ?_⟩
    exact List.forall_mem_cons.mpr ⟨Value.isText_text _,
      List.forall_mem_singleton.mpr (Value.isText_text _)⟩

end Formwright.Nintex
