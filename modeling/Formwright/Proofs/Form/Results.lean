import Formwright.Form.OfResult
import Formwright.Proofs.Analysis.Declared
import Formwright.Proofs.Form.Sharing
import Formwright.Proofs.Pointwise

/-
  Mapping what an analyzer hands over. The types of its records rule out everything that mapping could
  stumble on but two things: a result from which no form can be made, as it lacks a definition or views,
  and a control of some view that lies inside itself. Each of the two has a fault of its own, the first
  one is looked for before the second, and all other results are mapped (`Form.ofResult_outcome`). A form
  keeps every item of every list that is there, in order (`Form.Keeps`).
-/

namespace Formwright

/-! ## Texts that may be missing -/

namespace Analyzer

/-- A text that is there and not empty, else another one. -/
def orText : Option String → String → String
  | none, other => other
  | some s, other => if s = "" then other else s

theorem orText_ne_empty (s : Option String) {other : String} (h : other ≠ "") : orText s other ≠ "" := by
  cases s with
  | none => exact h
  | some s =>
    rw [orText]
    split
    · exact h
    · assumption

theorem isText_textOf (s : Option String) : (textOf s).IsText := by
  cases s with
  | none => exact Or.inl rfl
  | some s => exact Value.isText_text s

theorem textOf_orElse_text (s : Option String) (other : String) :
    (textOf s).orElse (.text other) = .text (orText s other) := by
  cases s with
  | none => rfl
  | some s =>
    rw [textOf, orText, Value.orElse]
    by_cases hs : s = ""
    · simp [hs]
    · simp [hs]

theorem mappable_read (c : Control) : c.read.Mappable :=
  ⟨fun _ => (isText_textOf c.name).unhashable?,
    fun h => Or.inl ((isText_textOf c.type).kind_of_isGiven h)⟩

/-! ## Results -/

/-- No form can be made of a result: it is missing, or its definition, or there is no view in that. -/
def Lacking (r : Option Result) : Prop :=
  r = none ∨ (∃ b, r = some b ∧ b.definition = none) ∨
    ∃ b d, r = some b ∧ b.definition = some d ∧ present d.views = []

/-- A control that lies inside itself can be reached in a view. -/
def View.Cyclic (cs : List Control) (v : View) : Prop :=
  ∃ i, (objects cs).Reachable (present v.controls) i ∧ (objects cs).OnCycle i

/-- Some view of a result has a control that lies inside itself. -/
def Cyclic (cs : List Control) (r : Option Result) : Prop :=
  ∃ b d, r = some b ∧ b.definition = some d ∧ ∃ v ∈ present d.views, v.Cyclic cs

/-- No way from a control of a view down to another one meets more than 300 different controls. -/
def View.Shallow (cs : List Control) (v : View) : Prop :=
  ∀ p, ((objects cs).node? p (present v.controls)).isSome →
    ((objects cs).trail p (present v.controls)).Nodup → p.length ≤ 300

def Shallow (cs : List Control) (r : Option Result) : Prop :=
  ∀ b d, r = some b → b.definition = some d → ∀ v ∈ present d.views, v.Shallow cs

/-! ## Controls -/

theorem exists_of_object? {cs : List Control} {i : Nat} {a : Source.Control}
    {links : Links Source.Control} (h : (objects cs).object? i = some (a, links)) :
    ∃ o ∈ cs, a = o.read ∧ links = .objects (present o.controls) := by
  have hmem := List.mem_of_getElem? (Option.join_eq_some_iff.mp h)
  obtain ⟨o, ho, hread⟩ := List.mem_map.mp hmem
  rw [Option.some.injEq, Prod.mk.injEq] at hread
  exact ⟨o, ho, hread.1.symm, hread.2.symm⟩

/-- What stands at a place of a view is one of the controls. -/
theorem exists_of_node? {cs : List Control} {p : Place} {roots : List Nat} {a : Source.Control}
    (h : (objects cs).node? p roots = some a) : ∃ o ∈ cs, a = o.read := by
  induction p generalizing roots with
  | nil => cases h
  | cons k p ih =>
    obtain ⟨i, b, links, hk, hobject⟩ := Graph.exists_object_of_node? (by rw [h]; rfl)
    obtain ⟨o, ho, hread, hlinks⟩ := exists_of_object? hobject
    by_cases hp : p = []
    · rw [hp, Graph.node?_root hk hobject] at h
      exact ⟨o, ho, (Option.some.inj h).symm.trans hread⟩
    · rw [hlinks] at hobject
      rw [Graph.node?_objects hk hobject hp] at h
      exact ih h

/-- Few controls are never nested deeply. -/
theorem shallow_of_length_le {cs : List Control} (h : cs.length ≤ 300) (v : View) : v.Shallow cs := by
  have hlinked : ∀ i a children, (objects cs).object? i = some (a, .own children) →
      children = .nil := by
    intro i a children hobject
    obtain ⟨o, -, -, hlinks⟩ := exists_of_object? hobject
    cases hlinks
  intro p hp hnodup
  have hlength := Graph.length_le_of_nodup hlinked hp hnodup
  rw [objects, List.length_map] at hlength
  exact Nat.le_trans hlength h

/-- A view that a view of a result is unfolded to: its controls are a forest, not too high, that has at
each place the control that is met there. -/
structure View.UnfoldsTo (cs : List Control) (v : View) (s : Source.View) : Prop where
  name : s.name = textOf v.name
  sections : s.sections = (present v.sections).map Section.read
  height : s.controls.height ≤ maxDepth
  holds : ∀ p, s.controls.node? p = (objects cs).node? p (present v.controls)

/-- The controls of a view are unfolded unless one of them lies inside itself. -/
theorem View.unfold_cases {cs : List Control} {v : View} (hv : v.Shallow cs) :
    (v.Cyclic cs ∧ ∃ e, v.unfold (objects cs) = .error e ∧ e.category = .mapping) ∨
      (¬ v.Cyclic cs ∧ ∃ s, v.unfold (objects cs) = .ok s ∧ v.UnfoldsTo cs s) := by
  have hout : (objects cs).Outcome Form.calledName [] (present v.controls)
      ((objects cs).unfold Form.calledName maxDepth [] (present v.controls)) :=
    Graph.unfold_outcome List.nodup_nil fun p hp hnodup => Nat.le_trans (hv p hp hnodup) (by decide)
  unfold View.unfold
  cases hunfold : (objects cs).unfold Form.calledName maxDepth [] (present v.controls) with
  | error e =>
    rw [hunfold] at hout
    obtain ⟨i, a, links, -, rfl, hrepeat⟩ := hout
    exact Or.inl ⟨hrepeat.exists_onCycle, _, rfl, rfl⟩
  | ok t =>
    rw [hunfold] at hout
    have hheight : t.height ≤ maxDepth := by
      rw [Forest.height_le_iff]
      intro p hp
      rw [hout.holds] at hp
      exact Nat.le_trans (hv p hp (hout.nodup p hp)) (by decide)
    exact Or.inr ⟨hout.not_exists_onCycle, _, rfl, rfl, rfl, hheight, hout.holds⟩

theorem View.UnfoldsTo.mappable {cs : List Control} {v : View} {s : Source.View}
    (h : v.UnfoldsTo cs s) : ∀ c ∈ s.controls.labels, c.Mappable := by
  intro c hc
  obtain ⟨p, hp⟩ := Forest.mem_labels.mp hc
  rw [h.holds] at hp
  obtain ⟨o, -, rfl⟩ := exists_of_node? hp
  exact mappable_read o

/-! ## Definitions and results -/

section
variable {cs : List Control} {b : Result} {d : Definition}

/-- The analysis that a result with a definition is, when the views have been unfolded. -/
def Result.withViews (b : Result) (d : Definition) (views : List Source.View) : Analysis where
  formName := textOf b.formName
  formType := textOf b.formType
  analyzer := textOf b.analyzer
  definition := some {
    fileName := textOf d.fileName
    views
    columns := (present d.columns).map Column.read
    dynamicSections := (present d.dynamicSections).map DynamicSection.read
    metadata := d.metadata.map Metadata.read }
  messages := b.messages.map Message.read

theorem Result.unfold_eq (hd : b.definition = some d) : b.unfold cs =
    b.withViews d <$> (present d.views).mapM (View.unfold (objects cs)) := by
  rw [Result.unfold, hd]
  dsimp only [Definition.unfold]
  cases (present d.views).mapM (View.unfold (objects cs)) <;> rfl

/-- The views of a definition are unfolded unless one of them has a control that lies inside itself. -/
theorem unfold_views_cases (hd : ∀ v ∈ present d.views, v.Shallow cs) :
    ((∃ v ∈ present d.views, v.Cyclic cs) ∧
      ∃ e, (present d.views).mapM (View.unfold (objects cs)) = .error e ∧ e.category = .mapping) ∨
    ((¬ ∃ v ∈ present d.views, v.Cyclic cs) ∧
      ∃ views, (present d.views).mapM (View.unfold (objects cs)) = .ok views ∧
        List.Forall₂ (fun s v => v.UnfoldsTo cs s) views (present d.views)) := by
  have hone : ∀ v ∈ present d.views, ∀ s, v.unfold (objects cs) = .ok s →
      ¬ v.Cyclic cs ∧ v.UnfoldsTo cs s := by
    intro v hv s hs
    rcases View.unfold_cases (hd v hv) with ⟨-, e, he, -⟩ | ⟨hacyclic, s', hs', hto⟩
    · cases hs.symm.trans he
    · obtain rfl := Except.ok.inj (hs.symm.trans hs')
      exact ⟨hacyclic, hto⟩
  cases hviews : (present d.views).mapM (View.unfold (objects cs)) with
  | error e =>
    obtain ⟨v, hv, hunfold⟩ := exists_of_mapM_eq_error hviews
    rcases View.unfold_cases (hd v hv) with ⟨hcyclic, e', he', hcategory⟩ | ⟨-, s, hs, -⟩
    · obtain rfl := Except.error.inj (hunfold.symm.trans he')
      exact Or.inl ⟨⟨v, hv, hcyclic⟩, e, rfl, hcategory⟩
    · cases hunfold.symm.trans hs
  | ok views =>
    refine Or.inr ⟨?_, views, rfl, forall₂_of_mapM_eq_ok (fun v hv s hs => (hone v hv s hs).2) hviews⟩
    rintro ⟨v, hv, hcyclic⟩
    obtain ⟨s, hs, -⟩ := mem_of_mapM_eq_ok hviews hv
    exact (hone v hv s hs).1 hcyclic

end

end Analyzer

namespace Form

open Analyzer

section
variable {cs : List Analyzer.Control} {r : Option Result} {b : Result} {d : Definition}

/-! ## The three outcomes -/

theorem ofResult_of_lacking (cs : List Analyzer.Control) (h : Lacking r) :
    ∃ e, ofResult cs r = .error e ∧ e.category = .validation := by
  rcases h with rfl | ⟨b, rfl, hnone⟩ | ⟨b, d, rfl, hd, hviews⟩
  · exact ⟨_, rfl, rfl⟩
  · rw [ofResult, Result.unfold, hnone]
    exact ⟨_, rfl, rfl⟩
  · rw [ofResult, Result.unfold_eq hd, hviews]
    exact ⟨_, rfl, rfl⟩

/-- A result of which all views can be unfolded is mapped. -/
theorem exists_ofAnalysis_withViews {views : List Source.View}
    (hviews : List.Forall₂ (fun s v => v.UnfoldsTo cs s) views (present d.views))
    (hne : present d.views ≠ []) : ∃ f, ofAnalysis (some (b.withViews d views)) = .ok f := by
  have hunfolded : ∀ s ∈ views, ∃ v, View.UnfoldsTo cs v s := by
    intro s hs
    obtain ⟨v, -, hv⟩ := exists_of_mem_forall₂ hviews hs
    exact ⟨v, hv⟩
  have hmappable : (b.withViews d views).Mappable := by
    refine ⟨isText_textOf _, ?_, ?_, ?_⟩
    · rintro _ ⟨rfl⟩
      exact isText_textOf _
    · rintro _ ⟨rfl⟩ s hs
      obtain ⟨v, hv⟩ := hunfolded s hs
      exact hv.mappable
    · rintro _ ⟨rfl⟩ c hc
      obtain ⟨x, -, rfl⟩ := List.mem_map.mp hc
      exact (isText_textOf _).orElse (isText_textOf _)
  refine (exists_ofAnalysis_iff hmappable).mpr ⟨_, rfl, ?_, fun s hs => ?_⟩
  · rintro rfl
    exact hne (List.forall₂_nil_left_iff.mp hviews)
  · obtain ⟨v, hv⟩ := hunfolded s hs
    exact hv.height

/-- Of a result that lacks nothing, either a form is made or some view has a control that lies inside
itself. -/
theorem ofResult_cases (hr : ¬ Lacking r) (hshallow : Shallow cs r) :
    (Cyclic cs r ∧ ∃ e, ofResult cs r = .error e ∧ e.category = .mapping) ∨
      (¬ Cyclic cs r ∧ ∃ f, ofResult cs r = .ok f) := by
  obtain _ | b := r
  · exact absurd (Or.inl rfl) hr
  cases hd : b.definition with
  | none => exact absurd (Or.inr (Or.inl ⟨b, rfl, hd⟩)) hr
  | some d =>
    have hne : present d.views ≠ [] := fun hnil => hr (Or.inr (Or.inr ⟨b, d, rfl, hd, hnil⟩))
    have hcyclic : Cyclic cs (some b) ↔ ∃ v ∈ present d.views, v.Cyclic cs := by
      constructor
      · rintro ⟨_, d', ⟨rfl⟩, hd', hv⟩
        obtain rfl := Option.some.inj (hd.symm.trans hd')
        exact hv
      · exact fun hv => ⟨b, d, rfl, hd, hv⟩
    rw [hcyclic, ofResult, Result.unfold_eq hd]
    rcases unfold_views_cases (hshallow b d rfl hd) with ⟨hcycle, e, he, hcategory⟩ | ⟨hnone, vs, hvs, hto⟩
    · rw [he]
      exact Or.inl ⟨hcycle, e, rfl, hcategory⟩
    · rw [hvs]
      exact Or.inr ⟨hnone, exists_ofAnalysis_withViews hto hne⟩

end

/-! ## What a form keeps -/

/-- A text that is not empty. -/
def IsNamed (v : Value) : Prop := ∃ s, s ≠ "" ∧ v = .text s

/-- The controls of a form's view: one for each place where a control object is met, in pre-order, with
one choice for each one of that object. -/
def KeepsControls (cs : List Analyzer.Control) (v : Analyzer.View) (ws : List Control) : Prop :=
  ∃ ps : List Place, ps.Pairwise (· < ·) ∧
    (∀ p, p ∈ ps ↔ ((objects cs).node? p (present v.controls)).isSome) ∧
    List.Forall₂ (fun w p => ∃ o ∈ cs, (objects cs).node? p (present v.controls) = some o.read ∧
      w.IsOf o.read ∧ w.choices = (present o.choices).map fun x => .ofSource x.read) ws ps

structure KeepsView (cs : List Analyzer.Control) (v : Analyzer.View) (w : View) : Prop where
  name : w.name = .text (orText v.name defaultViewName)
  isNamed : IsNamed w.name
  controls : KeepsControls cs v w.controls
  sections : w.sections = (present v.sections).map fun s => .ofSource s.read

structure KeepsColumn (c : Analyzer.Column) (w : Column) : Prop where
  name : w.name = .text (orText c.name "")
  /-- The name stands in for a display name that is missing or empty. -/
  displayName : w.displayName = .text (orText c.displayName (orText c.name ""))
  validValues : w.validValues = (present c.validValues).map fun x => .ofSource x.read

/-- A form with an id and a name that keeps every view, section, column, choice and dynamic section of a
result that is there, in order. -/
structure Keeps (cs : List Analyzer.Control) (b : Result) (d : Definition) (f : Form) : Prop where
  id : f.id = .text (orText d.fileName (orText b.formName defaultFormName))
  hasId : IsNamed f.id
  hasName : IsNamed f.name
  views : List.Forall₂ (fun w v => KeepsView cs v w) f.views (present d.views)
  columns : List.Forall₂ (fun w c => KeepsColumn c w) f.columns (present d.columns)
  dynamicSections : f.dynamicSections = (present d.dynamicSections).map fun s => .ofSource s.read

section
variable {cs : List Analyzer.Control} {r : Option Result} {b : Result} {d : Definition}

theorem keepsView {v : Analyzer.View} {s : Source.View} {w : View} (hs : v.UnfoldsTo cs s)
    (h : View.ofSource s = .ok w) : KeepsView cs v w := by
  obtain ⟨controls, hcontrols, h⟩ := bind_eq_ok.mp h
  obtain rfl := Except.ok.inj h
  have hname : s.name.orElse (.text defaultViewName) = .text (orText v.name defaultViewName) := by
    rw [hs.name, textOf_orElse_text]
  have hne : orText v.name defaultViewName ≠ "" := orText_ne_empty _ (by decide)
  refine ⟨hname, ⟨_, hne, hname⟩, ?_, ?_⟩
  · obtain ⟨ps, hsorted, hplaces, hof⟩ := unfolding_of_mapControls hs.holds hcontrols
    refine ⟨ps, hsorted, hplaces, hof.imp fun c p => ?_⟩
    rintro ⟨a, ha, hc⟩
    obtain ⟨o, ho, rfl⟩ := exists_of_node? ha
    exact ⟨o, ho, ha, hc, by rw [hc.choices, Control.read, List.map_map]; rfl⟩
  · rw [hs.sections, List.map_map]
    rfl

theorem keepsColumn {c : Analyzer.Column} {w : Column} (h : Column.ofSource c.read = .ok w) :
    KeepsColumn c w := by
  obtain ⟨t, -, h⟩ := bind_eq_ok.mp h
  obtain rfl := Except.ok.inj h
  have hname : c.read.name.orElse (.text "") = .text (orText c.name "") := textOf_orElse_text _ _
  refine ⟨hname, ?_, by rw [Column.read, List.map_map]; rfl⟩
  dsimp only
  rw [hname]
  exact textOf_orElse_text _ _

/-- The name of a form is the one given, the stem of its id, or its id. -/
theorem isNamed_of_nameOf {a : Analysis} {id name : Value} (ha : a.formName.IsText) (hid : IsNamed id)
    (h : nameOf a id = .ok name) : IsNamed name := by
  unfold nameOf at h
  split at h
  · rename_i hgiven
    obtain rfl := Except.ok.inj h
    rcases ha with hnull | ⟨s, hs⟩
    · rw [hnull] at hgiven
      cases hgiven
    · rw [hs, Value.isGiven_text, Bool.not_eq_true', String.isEmpty_eq_false_iff] at hgiven
      exact ⟨s, hgiven, hs⟩
  · obtain ⟨stem, -, h⟩ := bind_eq_ok.mp h
    obtain rfl := Except.ok.inj h
    by_cases hstem : stem = ""
    · rwa [hstem, Value.orElse_of_not_isGiven rfl]
    · rw [Value.orElse_of_isGiven (by simpa using hstem)]
      exact ⟨stem, hstem, rfl⟩

theorem keeps_of_ofAnalysis {views : List Source.View} {f : Form}
    (hviews : List.Forall₂ (fun s v => v.UnfoldsTo cs s) views (present d.views))
    (h : ofAnalysis (some (b.withViews d views)) = .ok f) : Keeps cs b d f := by
  obtain ⟨_, _, ⟨rfl⟩, ⟨rfl⟩, -, hvs, hcs, hsections, -, hid, hname, -⟩ := ofAnalysis_eq_ok h
  have hidText : f.id = .text (orText d.fileName (orText b.formName defaultFormName)) := by
    rw [hid]
    change (textOf d.fileName).orElse ((textOf b.formName).orElse (.text defaultFormName)) = _
    rw [textOf_orElse_text, textOf_orElse_text]
  have hidNamed : IsNamed f.id :=
    ⟨_, orText_ne_empty _ (orText_ne_empty _ (by decide)), hidText⟩
  have hmapped := forall₂_of_mapM_eq_ok (fun s _ w hw => hw) hvs
  have hcolumns := forall₂_of_mapM_eq_ok (fun c _ w hw => hw) hcs
  refine ⟨hidText, hidNamed, isNamed_of_nameOf (isText_textOf _) hidNamed hname, ?_, ?_, ?_⟩
  · exact forall₂_trans hmapped hviews fun hw hs => keepsView hs hw
  · exact (List.forall₂_map_right_iff.mp hcolumns).imp fun w c hw => keepsColumn hw
  · rw [hsections]
    exact List.map_map

theorem keeps_of_ofResult {f : Form} (hshallow : Shallow cs r) (h : ofResult cs r = .ok f) :
    ∃ b d, r = some b ∧ b.definition = some d ∧ Keeps cs b d f := by
  obtain _ | b := r
  · cases h
  cases hd : b.definition with
  | none =>
    rw [ofResult, Result.unfold, hd] at h
    cases h
  | some d =>
    rw [ofResult, Result.unfold_eq hd] at h
    rcases unfold_views_cases (hshallow b d rfl hd) with ⟨-, e, he, -⟩ | ⟨-, views, hviews, hto⟩
    · rw [he] at h
      cases h
    · rw [hviews] at h
      exact ⟨b, d, rfl, hd, keeps_of_ofAnalysis hto h⟩

end

/-- Two groups, the first of which holds a field and a gap, and the second one itself. -/
def groupedControls : List Analyzer.Control :=
  [{ name := some "Group", type := some "Section", controls := some [none, some 1] },
    { type := none, properties := none, choices := some [none, some { value := some "x" }] },
    { name := some "Loop", controls := some [some 2] }]

/-- A result with gaps in all its lists, whose view has some of these controls. -/
def gappedResult (controls : List (Option Nat)) : Result where
  definition := some {
    views := some [none, some { controls := some controls, sections := some [none, some {}] }]
    columns := some [some { name := some "Total", validValues := none }, none]
    dynamicSections := some [none, some { isVisible := none }] }

end Form

end Formwright
