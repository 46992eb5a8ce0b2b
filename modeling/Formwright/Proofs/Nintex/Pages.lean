import Formwright.Proofs.Nintex.Generating
import Formwright.Proofs.Pointwise

/-
  The pages of a document. A page shows every control of its view once, under an id that tells its
  index, and row after row in the order of a stable sort by row number (`laidOut_finishPage`). No two
  pages, rows or controls of a document share an id (`Built.nodup_ids`).
-/

namespace Formwright.Nintex

/-- The row number of a control, which is that of its grid position. -/
def rowOf (c : Form.Control) : Nat :=
  match Grid.parseValue c.gridPosition with
  | .ok position => position.row
  | .error _ => 0

/-- A control of a page that shows a control of the view at an index. -/
structure Control.Shows (page : Nat) (c : Control) (x : Form.Control × Nat) : Prop where
  id : c.id = controlId page x.2
  name : c.name = x.1.name
  widget : c.widget = Nintex.widget x.1.type
  sourceType : c.sourceType = x.1.sourceType
  label : c.label = x.1.label.orElse x.1.name

/-- The controls of a page, row after row. -/
def Page.controls (page : Page) : List Control := page.rows.flatMap (·.controls)

/-- A page that lays out a view. -/
structure LaidOut (k : Nat) (v : Form.View) (page : Page) : Prop where
  id : page.id = pageId k
  name : page.name = v.name
  /-- Every grid position can be read. -/
  read : ∀ c ∈ v.controls, ∃ position, Grid.parseValue c.gridPosition = .ok position
  /-- Row after row, the page shows the controls of the view, stably sorted by row number, -/
  sorted : List.Forall₂ (Control.Shows k) page.controls
    (v.controls.zipIdx.mergeSort fun x y => rowOf x.1 ≤ rowOf y.1)
  /-- each of them once. -/
  once : (page.controls.map (·.id)).Perm ((List.range v.controls.length).map (controlId k))
  /-- A row holds controls of its number, -/
  numbered : ∀ r ∈ page.rows, ∀ c ∈ r.controls, ∃ x ∈ v.controls.zipIdx,
    c.Shows k x ∧ rowOf x.1 = r.number
  /-- and at least one, -/
  inhabited : ∀ r ∈ page.rows, r.controls ≠ []
  /-- row numbers ascend, -/
  ascending : page.rows.Pairwise fun r s => r.number < s.number
  /-- and controls share a row when they have one number. -/
  shared : ∀ (i j : Nat) (r s : Row) (c e : Control), page.rows[i]? = some r → page.rows[j]? = some s →
    c ∈ r.controls → e ∈ s.controls → ∀ x ∈ v.controls.zipIdx, ∀ y ∈ v.controls.zipIdx,
      c.Shows k x → e.Shows k y → (i = j ↔ rowOf x.1 = rowOf y.1)

/-! ## One page -/

/-- A control shows the control of one index at most. -/
theorem Control.Shows.eq {k : Nat} {c : Control} {cs : List Form.Control} {x y : Form.Control × Nat}
    (hx : c.Shows k x) (hy : c.Shows k y) (hxs : x ∈ cs.zipIdx) (hys : y ∈ cs.zipIdx) : x = y := by
  obtain ⟨x, i⟩ := x
  obtain ⟨y, j⟩ := y
  obtain rfl : i = j := (controlId_inj (hx.id.symm.trans hy.id)).2
  have hxi := List.mk_mem_zipIdx_iff_getElem?.mp hxs
  have hyi := List.mk_mem_zipIdx_iff_getElem?.mp hys
  rw [Option.some.inj (hxi.symm.trans hyi)]

/-- Rows of ascending numbers that have one number are one row. -/
theorem index_eq_of_ascending {rs : List Row} (h : rs.Pairwise fun r s => r.number < s.number)
    {i j : Nat} {r s : Row} (hr : rs[i]? = some r) (hs : rs[j]? = some s)
    (hnumber : r.number = s.number) : i = j := by
  obtain ⟨hi, rfl⟩ := List.getElem?_eq_some_iff.mp hr
  obtain ⟨hj, rfl⟩ := List.getElem?_eq_some_iff.mp hs
  rcases Nat.lt_trichotomy i j with hlt | heq | hgt
  · have := List.pairwise_iff_getElem.mp h i j hi hj hlt
    omega
  · exact heq
  · have := List.pairwise_iff_getElem.mp h j i hj hi hgt
    omega

section
variable {k : Nat} {v : Form.View} {ps : List Placed}

/-- A placed control stands for the control at its index. -/
theorem mem_zipIdx_of_mem_placeAll (h : placeAll k v = .ok ps) {p : Placed} (hp : p ∈ ps) :
    p.page = k ∧ p.row = rowOf p.control ∧ (p.control, p.index) ∈ v.controls.zipIdx := by
  obtain ⟨i, hi⟩ := List.getElem?_of_mem hp
  obtain ⟨hpage, rfl, hc, position, hposition, hrow⟩ := (placeAll_eq_ok h).2 i p hi
  refine ⟨hpage, ?_, List.mk_mem_zipIdx_iff_getElem?.mpr hc⟩
  rw [rowOf, hposition, hrow]

theorem map_placeAll (h : placeAll k v = .ok ps) :
    ps.map (fun p => (p.control, p.index)) = v.controls.zipIdx := by
  refine List.ext_getElem? fun i => ?_
  rw [List.getElem?_map, List.getElem?_zipIdx]
  cases hi : ps[i]? with
  | none =>
    have hlength := List.getElem?_eq_none_iff.mp hi
    rw [(placeAll_eq_ok h).1] at hlength
    rw [List.getElem?_eq_none_iff.mpr hlength]
    rfl
  | some p =>
    obtain ⟨-, rfl, hc, -⟩ := (placeAll_eq_ok h).2 i p hi
    rw [hc]
    simp

/-- Sorting placed controls by row sorts the controls of the view. -/
theorem map_mergeSort_placeAll (h : placeAll k v = .ok ps) :
    (ps.mergeSort fun p q => p.row ≤ q.row).map (fun p => (p.control, p.index)) =
      v.controls.zipIdx.mergeSort fun x y => rowOf x.1 ≤ rowOf y.1 := by
  rw [← map_placeAll h]
  refine List.map_mergeSort fun p hp q hq => ?_
  rw [(mem_zipIdx_of_mem_placeAll h hp).2.1, (mem_zipIdx_of_mem_placeAll h hq).2.1]

/-- The control of a draft shows what the draft is made of, whatever its variable. -/
theorem Draft.IsOf.shows {o : Options} {count : Nat} {p : Placed} {d : Draft} (h : d.IsOf o count p)
    (vs : List Variable) : (d.finish vs).Shows p.page (p.control, p.index) :=
  ⟨h.id, h.name, h.widget, h.sourceType, h.label⟩

theorem map_number_finishPage (vs : List Variable) (name : Value) (rows : List (Nat × List Draft)) :
    (finishPage vs k name rows).rows.map (·.number) = rows.map (·.1) := by
  have hnumber : ∀ r ∈ rows.zipIdx, r.1.1 = Prod.fst (Prod.fst r) := fun _ _ => rfl
  rw [finishPage, List.map_map]
  exact (List.map_map (f := Prod.fst) (g := Prod.fst)).symm.trans (by rw [List.zipIdx_map_fst])

/-- Row after row, what holds of the drafts holds of a finished page and of the controls in the order of
their row numbers. -/
theorem forall₂_finishPage {o : Options} {rows : List (Nat × List Draft)}
    (h : draftPage o k v = .ok rows) (vs : List Variable) (name : Value)
    {R : Control → Form.Control × Nat → Prop} (hR : ∀ (p : Placed) (d : Draft), p.page = k →
      d.IsOf o v.controls.length p → R (d.finish vs) (p.control, p.index)) :
    List.Forall₂ R (finishPage vs k name rows).controls
      (v.controls.zipIdx.mergeSort fun x y => rowOf x.1 ≤ rowOf y.1) := by
  obtain ⟨ps, hps, -, hdrafts, -⟩ := draftPage_eq_ok h
  rw [Page.controls, flatMap_finishPage, ← map_mergeSort_placeAll hps, List.forall₂_map_left_iff,
    List.forall₂_map_right_iff]
  refine forall₂_of_mapM_eq_ok (fun p hp d hdp => ?_) hdrafts
  exact hR p d (mem_zipIdx_of_mem_placeAll hps (List.mem_mergeSort.mp hp)).1 (draft_eq_ok hdp)

/-- What shows the sorted controls shows each control once. -/
theorem perm_ids_of_forall₂_shows {cs : List Control}
    (h : List.Forall₂ (Control.Shows k) cs
      (v.controls.zipIdx.mergeSort fun x y => rowOf x.1 ≤ rowOf y.1)) :
    (cs.map (·.id)).Perm ((List.range v.controls.length).map (controlId k)) := by
  have hids : cs.map (·.id) = ((v.controls.zipIdx.mergeSort fun x y =>
      rowOf x.1 ≤ rowOf y.1).map Prod.snd).map (controlId k) := by
    rw [List.map_map, ← List.forall₂_eq_eq_eq, List.forall₂_map_left_iff, List.forall₂_map_right_iff]
    exact h.imp fun _ _ hcx => hcx.id
  have hindices := (List.mergeSort_perm v.controls.zipIdx
    fun x y => rowOf x.1 ≤ rowOf y.1).map Prod.snd
  rw [List.zipIdx_map_snd, ← List.range_eq_range'] at hindices
  rw [hids]
  exact hindices.map (controlId k)

/-- A page made of the drafts of a view lays the view out. -/
theorem laidOut_finishPage {o : Options} {rows : List (Nat × List Draft)}
    (h : draftPage o k v = .ok rows) (vs : List Variable) :
    LaidOut k v (finishPage vs k v.name rows) := by
  obtain ⟨ps, hps, hnumbers, -, hrows⟩ := draftPage_eq_ok h
  have hsorted := forall₂_finishPage (R := Control.Shows k) h vs v.name fun p d hp hd => hp ▸ hd.shows vs
  have honce := perm_ids_of_forall₂_shows hsorted
  have hnumbered : ∀ r ∈ (finishPage vs k v.name rows).rows, ∀ c ∈ r.controls,
      ∃ x ∈ v.controls.zipIdx, c.Shows k x ∧ rowOf x.1 = r.number := by
    intro r hr c hc
    obtain ⟨s, hs, hnumber, hcontrols⟩ := exists_of_mem_finishPage hr
    rw [hcontrols] at hc
    obtain ⟨d, hd, rfl⟩ := List.mem_map.mp hc
    obtain ⟨p, hp, hrow, hdp⟩ := (hrows s hs).2 d hd
    obtain ⟨hpage, hrowOf, hmem⟩ := mem_zipIdx_of_mem_placeAll hps hp
    refine ⟨(p.control, p.index), hmem, ?_, ?_⟩
    · rw [← hpage]
      exact hdp.shows vs
    · rw [hnumber, ← hrow, hrowOf]
  have hascending : (finishPage vs k v.name rows).rows.Pairwise fun r s => r.number < s.number := by
    rw [← List.pairwise_map, map_number_finishPage, hnumbers]
    exact pairwise_rowNumbers ps
  refine ⟨rfl, rfl, exists_placeAll_eq_ok.mp ⟨ps, hps⟩, hsorted, honce, hnumbered, ?_, hascending, ?_⟩
  · intro r hr hnil
    obtain ⟨s, hs, -, hcontrols⟩ := exists_of_mem_finishPage hr
    rw [hcontrols, List.map_eq_nil_iff] at hnil
    exact (hrows s hs).1 hnil
  · intro i j r s c e hr hs hc he x hx y hy hcx hey
    obtain ⟨x', hx', hcx', hrow⟩ := hnumbered r (List.mem_of_getElem? hr) c hc
    obtain ⟨y', hy', hey', hrow'⟩ := hnumbered s (List.mem_of_getElem? hs) e he
    rw [hcx.eq hcx' hx hx', hey.eq hey' hy hy', hrow, hrow']
    constructor
    · rintro rfl
      rw [Option.some.inj (hr.symm.trans hs)]
    · exact index_eq_of_ascending hascending hr hs

end

/-! ## All pages -/

/-- Lists of texts that tell their number have no text in common. -/
theorem nodup_flatMap_of_getElem? {α : Type} {xs : List α} {g : α → List String}
    (name : Nat → Nat → String) (hname : ∀ {j k m n}, name j m = name k n → j = k)
    (heach : ∀ (k : Nat) (x : α), xs[k]? = some x →
      (g x).Nodup ∧ ∀ s ∈ g x, ∃ m, s = name k m) : (xs.flatMap g).Nodup := by
  rw [List.Nodup, List.pairwise_flatMap]
  constructor
  · intro x hx
    obtain ⟨k, hk⟩ := List.getElem?_of_mem hx
    exact (heach k x hk).1
  · rw [List.pairwise_iff_getElem]
    intro j k hj hk hlt s hs t ht heq
    obtain ⟨m, rfl⟩ := (heach j _ (List.getElem?_eq_getElem hj)).2 s hs
    obtain ⟨n, rfl⟩ := (heach k _ (List.getElem?_eq_getElem hk)).2 t ht
    have := hname heq
    omega

theorem Document.controls_eq (d : Document) : d.controls = d.pages.flatMap Page.controls := by
  rw [Document.controls, Document.rows, List.flatMap_assoc]
  rfl

section
variable {f : Form} {o : Options} {rss : List (List (Nat × List Draft))} {ds : List Draft}
  {d : Document}

namespace Built

theorem laidOut (h : Built f o rss ds d) {k : Nat} {v : Form.View} {page : Page}
    (hv : f.views[k]? = some v) (hpage : d.pages[k]? = some page) : LaidOut (k + 1) v page := by
  obtain ⟨w, rows, hw, -, hrows, rfl⟩ := h.getElem?_pages hpage
  obtain rfl : v = w := Option.some.inj (hv.symm.trans hw)
  exact laidOut_finishPage hrows _

/-- The page of a number lays out the view of this number. -/
theorem exists_laidOut (h : Built f o rss ds d) {k : Nat} {page : Page}
    (hpage : d.pages[k]? = some page) : ∃ v, f.views[k]? = some v ∧ LaidOut (k + 1) v page := by
  obtain ⟨v, rows, hv, -, -, -⟩ := h.getElem?_pages hpage
  exact ⟨v, hv, h.laidOut hv hpage⟩

theorem nodup_pageIds (h : Built f o rss ds d) : (d.pages.map (·.id)).Nodup := by
  rw [List.Nodup, List.pairwise_map, List.pairwise_iff_getElem]
  intro j k hj hk hlt heq
  obtain ⟨v, -, hv⟩ := h.exists_laidOut (List.getElem?_eq_getElem hj)
  obtain ⟨w, -, hw⟩ := h.exists_laidOut (List.getElem?_eq_getElem hk)
  rw [hv.id, hw.id] at heq
  have := pageId_inj heq
  omega

/-- The rows of a page have the ids of their places. -/
theorem rowIds_of_page (h : Built f o rss ds d) {k : Nat} {page : Page}
    (hpage : d.pages[k]? = some page) :
    page.rows.map (·.id) = (List.range page.rows.length).map (rowId (k + 1)) := by
  obtain ⟨v, rows, -, -, -, rfl⟩ := h.getElem?_pages hpage
  rw [finishPage, List.length_map, List.length_zipIdx, List.map_map, List.range_eq_range',
    ← List.zipIdx_map_snd 0 rows, List.map_map]
  rfl

theorem nodup_rowIds (h : Built f o rss ds d) : (d.rows.map (·.id)).Nodup := by
  rw [Document.rows, List.map_flatMap]
  refine nodup_flatMap_of_getElem? (fun k => rowId (k + 1))
    (fun heq => Nat.succ.inj (rowId_inj heq).1) fun k page hpage => ?_
  rw [h.rowIds_of_page hpage]
  constructor
  · exact List.pairwise_map.mpr (List.nodup_range.imp fun hne heq => hne (rowId_inj heq).2)
  · intro s hs
    obtain ⟨m, -, rfl⟩ := List.mem_map.mp hs
    exact ⟨m, rfl⟩

theorem nodup_controlIds (h : Built f o rss ds d) : (d.controls.map (·.id)).Nodup := by
  rw [Document.controls_eq, List.map_flatMap]
  refine nodup_flatMap_of_getElem? (fun k => controlId (k + 1))
    (fun heq => Nat.succ.inj (controlId_inj heq).1) fun k page hpage => ?_
  obtain ⟨v, -, hv⟩ := h.exists_laidOut hpage
  constructor
  · refine hv.once.nodup_iff.mpr (List.pairwise_map.mpr (List.nodup_range.imp ?_))
    exact fun hne heq => hne (controlId_inj heq).2
  · intro s hs
    obtain ⟨m, -, rfl⟩ := List.mem_map.mp (hv.once.mem_iff.mp hs)
    exact ⟨m, rfl⟩

/-- The id of a page is none of a row, and that of a control none of both. -/
theorem disjoint_ids (h : Built f o rss ds d) :
    (∀ s ∈ d.pages.map (·.id), s ∉ d.rows.map (·.id)) ∧
      ∀ s ∈ d.pages.map (·.id) ++ d.rows.map (·.id), s ∉ d.controls.map (·.id) := by
  have hpages : ∀ s ∈ d.pages.map (·.id), ∃ k, s = pageId k := by
    intro s hs
    obtain ⟨page, hpage, rfl⟩ := List.mem_map.mp hs
    obtain ⟨k, hk⟩ := List.getElem?_of_mem hpage
    obtain ⟨v, -, hv⟩ := h.exists_laidOut hk
    exact ⟨_, hv.id⟩
  have hrows : ∀ s ∈ d.rows.map (·.id), ∃ k m, s = rowId k m := by
    intro s hs
    rw [Document.rows, List.map_flatMap] at hs
    obtain ⟨page, hpage, hs⟩ := List.mem_flatMap.mp hs
    obtain ⟨k, hk⟩ := List.getElem?_of_mem hpage
    rw [h.rowIds_of_page hk] at hs
    obtain ⟨m, -, rfl⟩ := List.mem_map.mp hs
    exact ⟨_, m, rfl⟩
  have hcontrols : ∀ s ∈ d.controls.map (·.id), s.toList.head? = some 'c' := by
    intro s hs
    rw [Document.controls_eq, List.map_flatMap] at hs
    obtain ⟨page, hpage, hs⟩ := List.mem_flatMap.mp hs
    obtain ⟨k, hk⟩ := List.getElem?_of_mem hpage
    obtain ⟨v, -, hv⟩ := h.exists_laidOut hk
    obtain ⟨m, -, rfl⟩ := List.mem_map.mp (hv.once.mem_iff.mp hs)
    exact head?_controlId _ m
  constructor
  · intro s hs hs'
    obtain ⟨j, rfl⟩ := hpages s hs
    obtain ⟨k, m, heq⟩ := hrows _ hs'
    exact pageId_ne_rowId j k m heq
  · intro s hs hs'
    have hletter := hcontrols s hs'
    rcases List.mem_append.mp hs with hs | hs
    · obtain ⟨j, rfl⟩ := hpages s hs
      rw [head?_pageId] at hletter
      exact absurd hletter (by decide)
    · obtain ⟨k, m, rfl⟩ := hrows s hs
      rw [head?_rowId] at hletter
      exact absurd hletter (by decide)

/-- All ids of pages, rows and controls are different. -/
theorem nodup_ids (h : Built f o rss ds d) :
    (d.pages.map (·.id) ++ d.rows.map (·.id) ++ d.controls.map (·.id)).Nodup := by
  obtain ⟨hrows, hcontrols⟩ := h.disjoint_ids
  refine List.nodup_append.mpr ⟨List.nodup_append.mpr ⟨h.nodup_pageIds, h.nodup_rowIds, ?_⟩,
    h.nodup_controlIds, ?_⟩
  · rintro s hs t ht rfl
    exact hrows s hs ht
  · rintro s hs t ht rfl
    exact hcontrols s hs ht

end Built

end

/-- Whenever a form is generated, its document has a page for each view, in the order of the views,
which shows the controls of the view once each and in rows by their row numbers; and no two pages,
rows or controls share an id. -/
theorem generate_laid_out {f : Form} {o : Options} {p : Product}
    (h : generator.generate f o = .ok (.product p)) : ∃ ds d, build f o = .ok (ds, d) ∧ Holds o p d ∧
      d.pages.length = f.views.length ∧
      (∀ (k : Nat) (v : Form.View) (page : Page), f.views[k]? = some v → d.pages[k]? = some page →
        LaidOut (k + 1) v page) ∧
      (d.pages.map (·.id) ++ d.rows.map (·.id) ++ d.controls.map (·.id)).Nodup := by
  obtain ⟨ds, d, hbuild, hholds⟩ := product_eq_ok (generate_eq_ok.mp h)
  obtain ⟨rss, hbuilt⟩ := build_eq_ok hbuild
  exact ⟨ds, d, hbuild, hholds, hbuilt.length_pages, fun k v page hv hpage =>
    hbuilt.laidOut hv hpage, hbuilt.nodup_ids⟩

/-! ## A form with rows that take turns -/

/-- A text field that is named for its grid position. -/
def fieldAt (position : String) : Form.Control where
  name := .text position
  type := .textField
  sourceType := .text "TextField"
  label := .null
  binding := .null
  gridPosition := .text position
  choices := []
  sectionLink := none
  parentIndex := .null
  depth := .count 0
  childCount := .count 0
  properties := []
  isReadOnly := .bool false
  isRequired := .bool false

theorem typed_fieldAt (count : Nat) {position : String} (h : position.length ≤ maxIntegerDigits) :
    (fieldAt position).Typed count :=
  ⟨Value.isText_text _, Value.isText_text _, Or.inl rfl, Grid.readable_text h, List.forall_mem_nil _,
    fun _ hl => (Option.some_ne_none _ hl.symm).elim, Or.inl rfl, ⟨_, rfl⟩, ⟨_, rfl⟩⟩

/-- A view whose rows take turns, with two positions that cannot be read, and a view of one control. -/
def rowsInTurns : Form where
  id := .text "F"
  name := .text "F"
  formType := .null
  views := [
    ⟨.text "first", ["2A", "top", "1B", "2B", "", "01A"].map fieldAt, []⟩,
    ⟨.text "second", ["3C"].map fieldAt, []⟩]
  columns := []
  dynamicSections := []
  metadata := {}
  sourceWarnings := []

theorem typed_rowsInTurns : rowsInTurns.Typed := by
  have hview : ∀ (name : String) (positions : List String) (count : Nat),
      (∀ s ∈ positions, s.length ≤ maxIntegerDigits) →
      (Value.text name).IsText ∧ ∀ c ∈ positions.map fieldAt, c.Typed count := by
    intro name positions count hlength
    refine ⟨Value.isText_text _, fun c hc => ?_⟩
    obtain ⟨s, hs, rfl⟩ := List.mem_map.mp hc
    exact typed_fieldAt count (hlength s hs)
  refine ⟨Value.isText_text _, Value.isText_text _, Or.inl rfl, ?_, List.forall_mem_nil _,
    List.forall_mem_nil _⟩
  refine List.forall_mem_cons.mpr ⟨hview _ _ _ (by decide), List.forall_mem_cons.mpr
    ⟨hview _ _ _ (by decide), List.forall_mem_nil _⟩⟩

theorem generate_laid_out_rowsInTurns : ∃ p, generator.generate rowsInTurns {} = .ok (.product p) ∧
    ∃ ds d, build rowsInTurns {} = .ok (ds, d) ∧ Holds {} p d ∧ d.pages.length = 2 ∧
      (∀ (k : Nat) (v : Form.View) (page : Page), rowsInTurns.views[k]? = some v →
        d.pages[k]? = some page → LaidOut (k + 1) v page) ∧
      (d.pages.map (·.id) ++ d.rows.map (·.id) ++ d.controls.map (·.id)).Nodup := by
  obtain ⟨p, hp⟩ := exists_product_eq_ok typed_rowsInTurns Options.typed_default (by simp [rowsInTurns])
  have h := generate_eq_ok.mpr hp
  exact ⟨p, h, generate_laid_out h⟩

end Formwright.Nintex
