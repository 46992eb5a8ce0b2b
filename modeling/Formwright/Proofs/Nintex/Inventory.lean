import Formwright.Proofs.Form.Declared
import Formwright.Proofs.Nintex.Pages
import Formwright.Proofs.Nintex.Variables
import Formwright.Proofs.Statistics.Totals

/-
  Three inventories of one form: the statistics derived from it, the report of its inspection and the
  statistics of its document. The drafts of the document are the controls of the form in another order
  (`Built.perm_controls`), its rows are those that the grid positions of each view tell apart
  (`Built.mapM_rowCount`), and so all three count the same (`generate_inventory`).
-/

namespace Formwright.Nintex

/-- What comes of items, one by one and in another order, comes of all of them. -/
theorem perm_flatMap_of_mapM {ε α β γ : Type} {f : α → Except ε β} {g : α → List γ} {h : β → List γ}
    {xs : List α} {ys : List β} (hf : ∀ x y, f x = .ok y → (h y).Perm (g x))
    (hm : xs.mapM f = .ok ys) : (ys.flatMap h).Perm (xs.flatMap g) := by
  induction xs generalizing ys with
  | nil =>
    obtain rfl := Except.ok.inj hm
    exact List.Perm.refl _
  | cons x xs ih =>
    obtain ⟨y, zs, hy, hzs, rfl⟩ := mapM_cons_eq_ok.mp hm
    rw [List.flatMap_cons, List.flatMap_cons]
    exact (hf x y hy).append (ih hzs)

section
variable {o : Options} {page : Nat} {v : Form.View} {rows : List (Nat × List Draft)}

/-- The drafts of a view are made of its controls, in the order of their rows. -/
theorem perm_draftPage (h : draftPage o page v = .ok rows) :
    ((rows.flatMap (·.2)).map (·.placed.control)).Perm v.controls := by
  obtain ⟨ps, hps, -, hdrafts, -⟩ := draftPage_eq_ok h
  have hplaced : (ps.mergeSort fun p q => p.row ≤ q.row).map (·.control) =
      (rows.flatMap (·.2)).map (·.placed.control) :=
    map_eq_of_mapM_eq_ok (fun p d hd => by rw [(draft_eq_ok hd).placed]) hdrafts
  have hcontrols : ps.map (·.control) = v.controls := by
    have := congrArg (List.map Prod.fst) (map_placeAll hps)
    rwa [List.map_map, List.zipIdx_map_fst] at this
  rw [← hplaced, ← hcontrols]
  exact (List.mergeSort_perm ps _).map _

/-- A view has as many rows as its grid positions tell apart. -/
theorem rowCount_of_draftPage (h : draftPage o page v = .ok rows) :
    Statistics.rowCount v = .ok rows.length := by
  obtain ⟨ps, hps, hnumbers, -, -⟩ := draftPage_eq_ok h
  obtain ⟨places, hplaces⟩ := exists_mapM_eq_ok.mpr (exists_placeAll_eq_ok.mp ⟨ps, hps⟩)
  have hrows : v.controls.map rowOf = places.map (·.row) :=
    map_eq_of_mapM_eq_ok (fun c position hc => by rw [rowOf, hc]) hplaces
  have hplaced : ps.map (·.row) = v.controls.map rowOf := by
    calc ps.map (·.row) = ps.map fun p => rowOf p.control :=
          List.map_congr_left fun p hp => (mem_zipIdx_of_mem_placeAll hps hp).2.1
      _ = (ps.map fun p => (p.control, p.index)).map (rowOf ∘ Prod.fst) := by
          rw [List.map_map]
          rfl
      _ = v.controls.map rowOf := by rw [map_placeAll hps, ← List.map_map, List.zipIdx_map_fst]
  have hlength : rows.length = ((places.map (·.row)).eraseDups).length := by
    rw [← List.length_map (f := Prod.fst), hnumbers, rowNumbers, List.length_mergeSort, hplaced, hrows]
  rw [Statistics.rowCount, hplaces, hlength]
  rfl

end

section
variable {f : Form} {o : Options} {rss : List (List (Nat × List Draft))} {ds : List Draft}
  {d : Document}

namespace Built

/-- The drafts are made of the controls of the form. -/
theorem perm_controls (h : Built f o rss ds d) :
    (ds.map (·.placed.control)).Perm f.allControls := by
  have hviews : f.allControls = f.views.zipIdx.flatMap fun p => p.1.controls := by
    rw [Form.allControls, ← List.flatMap_map (f := Prod.fst), List.zipIdx_map_fst]
  rw [h.drafts, hviews, List.flatten_eq_flatMap, List.flatMap_assoc, List.map_flatMap]
  exact perm_flatMap_of_mapM (fun p rows hrows => perm_draftPage hrows) h.drafted

/-- The drafts have the keys of the controls in another order: of their source types -/
theorem perm_sourceKeys (h : Built f o rss ds d) :
    (ds.map fun x => Statistics.sourceKey x.placed.control.sourceType).Perm
      (f.allControls.map fun c => Statistics.sourceKey c.sourceType) := by
  have := h.perm_controls.map fun c => Statistics.sourceKey c.sourceType
  rwa [List.map_map] at this

/-- and of their widgets. -/
theorem perm_widgetKeys (h : Built f o rss ds d) :
    (ds.map fun x => Value.text x.control.widget).Perm
      (f.allControls.map fun c => .text (widget c.type)) := by
  have hshown : (ds.map fun x => Value.text x.control.widget) =
      (ds.map (·.placed.control)).map fun c => .text (widget c.type) := by
    rw [List.map_map]
    refine List.map_congr_left fun x hx => ?_
    obtain ⟨_, _, _, _, -, -, -, hxp⟩ := h.exists_of_mem_drafts hx
    rw [hxp.widget, Function.comp_apply, hxp.placed]
  rw [hshown]
  exact h.perm_controls.map _

/-- Each view has as many rows as its page. -/
theorem mapM_rowCount (h : Built f o rss ds d) :
    f.views.mapM Statistics.rowCount = .ok (rss.map List.length) :=
  mapM_eq_ok_of_zipIdx (fun _ _ _ => rowCount_of_draftPage) h.drafted

theorem length_rows (h : Built f o rss ds d) : d.rows.length = (rss.map List.length).sum := by
  have hrows : ∀ p : (Form.View × List (Nat × List Draft)) × Nat,
      (finishPage d.formVariables (p.2 + 1) p.1.1.name p.1.2).rows.length = p.1.2.length := fun p => by
    rw [finishPage, List.length_map, List.length_zipIdx]
  have hpages : d.pages.map (·.rows.length) = rss.map List.length := by
    calc d.pages.map (·.rows.length) =
          (((f.views.zip rss).zipIdx.map Prod.fst).map Prod.snd).map List.length := by
          rw [h.pages, List.map_map, List.map_map, List.map_map]
          exact List.map_congr_left fun p _ => hrows p
      _ = rss.map List.length := by
          rw [List.zipIdx_map_fst, List.map_snd_zip (Nat.le_of_eq h.length_drafted)]
  rw [Document.rows, List.length_flatMap, hpages]

theorem length_controls (h : Built f o rss ds d) : d.controls.length = f.totalControls := by
  rw [h.controls_eq, List.length_map, ← Form.length_allControls, ← h.perm_controls.length_eq,
    List.length_map]

/-- There is a variable for each control that holds data. -/
theorem length_formVariables (h : Built f o rss ds d) :
    d.formVariables.length = f.allControls.countP (·.type.isDataBearing) := by
  have hwanted : ∀ x ∈ ds, x.variableName.isSome = x.placed.control.type.isDataBearing := by
    intro x hx
    obtain ⟨k, v, ps, p, -, -, -, hxp⟩ := h.exists_of_mem_drafts hx
    have hname := hxp.variableName
    rw [hxp.placed]
    unfold wantedVariable at hname
    split at hname
    · rename_i hdata
      obtain ⟨name, -, hname⟩ := bind_eq_ok.mp hname
      rw [← Except.ok.inj hname, hdata]
      rfl
    · rename_i hdata
      rw [← Except.ok.inj hname, Bool.eq_false_iff.mpr hdata]
      rfl
  have hlength := congrArg List.length (map_controlId_variablesFrom [] ds)
  rw [List.length_map, List.length_map, ← h.formVariables, List.filter_congr hwanted,
    ← List.countP_eq_length_filter] at hlength
  rw [hlength, ← h.perm_controls.countP_eq, List.countP_map]
  rfl

end Built

end

/-! ## The inventories -/

/-- How many controls of a form have a type. -/
def typeCount (f : Form) (t : ControlType) : Nat := f.allControls.countP (·.type == t)

/-- The derived statistics `s`, the report `r` and the statistics `n` of the document count the same. -/
structure Inventoried (f : Form) (d : Document) (s : Statistics) (r : Report) (n : Statistics) : Prop
    where
  controls : s.totalControls = .count d.controls.length ∧ r.totalControls = d.controls.length ∧
    n.totalControls = .count d.controls.length
  /-- Source types are counted alike, -/
  sources : s.controlTypes.same n.controlTypes = true
  /-- and so are types. -/
  types : s.widgetTypes.same (.map 0 r.controlTypes) = true
  /-- Each type is counted as often as it occurs, -/
  typeCounts : ∀ t : ControlType, s.widgetTypes.getD t.name (.int 0) = .ok (.count (typeCount f t))
  /-- and a widget as often as the types that it shows. -/
  widgetCounts : ∀ w : String, n.widgetTypes.getD w (.int 0) =
    .ok (.count ((ControlType.all.filter (widget · == w)).map (typeCount f)).sum)
  pages : s.totalPages = n.totalPages ∧ n.totalPages = .count d.pages.length ∧
    r.totalViews = d.pages.length
  rows : s.totalRows = .count d.rows.length ∧ n.totalRows = .count d.rows.length
  repeating : s.totalRepeatingSections = n.totalRepeatingSections ∧
    n.totalRepeatingSections = .count r.repeatingContainers
  dataBearing : n.totalVariables = .count (f.allControls.countP (·.type.isDataBearing))
  consistent : s.isConsistent = .ok true ∧ n.isConsistent = .ok true

/-- Controls of some types are counted type by type. -/
theorem sum_countP_type {ts : List ControlType} (hts : ts.Nodup) (cs : List Form.Control) :
    (ts.map fun t => cs.countP (·.type == t)).sum = cs.countP (ts.contains ·.type) := by
  induction ts with
  | nil => simp
  | cons t ts ih =>
    obtain ⟨ht, hts⟩ := List.nodup_cons.mp hts
    rw [List.map_cons, List.sum_cons, ih hts]
    clear ih
    induction cs with
    | nil => rfl
    | cons c cs ihc =>
      rw [List.countP_cons, List.countP_cons, List.countP_cons, ← ihc]
      by_cases h : c.type = t
      · have hother : ts.contains c.type = false := by simp [h, ht]
        have hsame : (t :: ts).contains c.type = true := by simp [h]
        have htype : (c.type == t) = true := by simp [h]
        rw [hother, hsame, htype, if_pos rfl, if_neg Bool.false_ne_true]
        omega
      · have hcons : (t :: ts).contains c.type = ts.contains c.type := by simp [h]
        have htype : (c.type == t) = false := by simpa using h
        rw [hcons, htype, if_neg Bool.false_ne_true]
        omega

/-- A control is counted under its type, and under the one widget of its type. -/
theorem sum_typeCount (f : Form) (w : String) :
    ((ControlType.all.filter (widget · == w)).map (typeCount f)).sum =
      f.allControls.countP (widget ·.type == w) := by
  have hall : ControlType.all.Nodup := by decide
  have hshown : ∀ t, (ControlType.all.filter (widget · == w)).contains t = (widget t == w) := by
    intro t
    rw [Bool.eq_iff_iff, List.contains_iff_mem, List.mem_filter]
    exact and_iff_right (ControlType.mem_all t)
  rw [show typeCount f = fun t => f.allControls.countP (·.type == t) from rfl,
    sum_countP_type (hall.filter _)]
  simp only [hshown]

theorem name_beq (t u : ControlType) : (t.name == u.name) = (t == u) := by
  rw [Bool.eq_iff_iff, beq_iff_eq, beq_iff_eq]
  exact ⟨ControlType.name_injective, fun h => congrArg ControlType.name h⟩

/-- Of keys that are texts, those of a name are counted. -/
theorem count_filterMap_key? {α : Type} (name : α → String) (s : String) (xs : List α) :
    ((xs.map fun x => Value.text (name x)).filterMap (·.key?)).count (.text s) =
      xs.countP (name · == s) := by
  induction xs with
  | nil => rfl
  | cons x xs ih =>
    have hkey : (Value.text (name x)).key? = some (.text (name x)) := rfl
    have hsame : (Key.text (name x) == Key.text s) = (name x == s) := by
      rw [Bool.eq_iff_iff, beq_iff_eq, beq_iff_eq, Key.text.injEq]
    rw [List.map_cons, List.filterMap_cons_some hkey, List.count_cons, List.countP_cons, ih, hsame]

theorem exists_key?_text {α : Type} (name : α → String) (xs : List α) :
    ∀ v ∈ xs.map fun x => Value.text (name x), ∃ k, v.key? = some k := by
  intro v hv
  obtain ⟨x, -, rfl⟩ := List.mem_map.mp hv
  exact ⟨_, rfl⟩

theorem exists_key?_sourceKey {f : Form} (hf : f.Declared) {c : Form.Control} (hc : c ∈ f.allControls) :
    ∃ k, (Statistics.sourceKey c.sourceType).key? = some k := by
  obtain ⟨s, hs⟩ := (hf.control hc).sourceType
  exact Statistics.exists_key?_sourceKey (Or.inl (by rw [hs]; rfl))

/-- What the statistics of a document are made of. -/
theorem statistics_eq_ok {f : Form} {ds : List Draft} {d : Document} {n : Statistics}
    (h : statistics f ds d = .ok n) : ∃ sources widgets,
      Tally.ofKeys (ds.map fun x => Statistics.sourceKey x.placed.control.sourceType) = .ok sources ∧
      Tally.ofKeys (ds.map fun x => .text x.control.widget) = .ok widgets ∧ n = {
        totalControls := .count ds.length
        totalVariables := .count d.formVariables.length
        totalPages := .count d.pages.length
        totalRows := .count d.rows.length
        totalRepeatingSections := .count (f.allControls.filter (·.isRepeatingContainer)).length
        controlTypes := .map 0 sources
        widgetTypes := .map 0 widgets } := by
  obtain ⟨sources, hsources, h⟩ := bind_eq_ok.mp h
  obtain ⟨widgets, hwidgets, h⟩ := bind_eq_ok.mp h
  exact ⟨sources, widgets, hsources, hwidgets, (Except.ok.inj h).symm⟩

theorem declared_fieldAt (position : String) : (fieldAt position).Declared :=
  ⟨⟨_, rfl⟩, ⟨_, rfl⟩, Or.inl rfl, Or.inl rfl, Or.inr ⟨_, rfl⟩, List.forall_mem_nil _, nofun, Or.inl rfl,
    ⟨_, rfl⟩, ⟨_, rfl⟩, List.forall_mem_nil _, .nil, List.forall_mem_nil _, ⟨_, rfl⟩, ⟨_, rfl⟩⟩

theorem declared_rowsInTurns : rowsInTurns.Declared := by
  have hview : ∀ (name : String) (positions : List String),
      (Form.View.mk (.text name) (positions.map fieldAt) []).Declared := by
    refine fun name positions => ⟨⟨_, rfl⟩, fun c hc => ?_, List.forall_mem_nil _⟩
    obtain ⟨s, -, rfl⟩ := List.mem_map.mp hc
    exact declared_fieldAt s
  refine ⟨⟨_, rfl⟩, ⟨_, rfl⟩, Or.inl rfl, ?_, List.forall_mem_nil _, List.forall_mem_nil _,
    ⟨⟨_, rfl⟩, ⟨_, rfl⟩, ⟨_, rfl⟩, ⟨_, rfl⟩, List.forall_mem_nil _⟩, List.forall_mem_nil _⟩
  exact List.forall_mem_cons.mpr ⟨hview _ _, List.forall_mem_cons.mpr ⟨hview _ _, List.forall_mem_nil _⟩⟩

end Formwright.Nintex
