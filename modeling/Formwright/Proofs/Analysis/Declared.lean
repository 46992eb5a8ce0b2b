import Formwright.Proofs.Form.Typed
import Formwright.Value.Integers

/-
  Analyses whose fields have their declared types. Most fields are declared as texts, some as
  integers, and each of them may be missing; flags and lists cannot be anything else here. A property
  of a control may be any value. Integers and row numbers have at most as many digits as an integer
  may have, and texts are made of characters, so there are no lone surrogates in them. A form that is
  mapped from such an analysis is typed (`Form.typed_of_ofAnalysis`), and it is mapped unless there is
  nothing to show or a view is nested too deeply (`Form.exists_ofAnalysis_eq_ok`).
-/

namespace Formwright

namespace Value

/-- An integer of not too many digits, or nothing. -/
def IsInteger (v : Value) : Prop := v = .null ∨ (∃ n, v.whole? = some n) ∧ v.integersFit = true

theorem IsInteger.exists_whole?_orElse {v : Value} (h : v.IsInteger) :
    ∃ n, (v.orElse (.int 0)).whole? = some n := by
  rcases h with rfl | ⟨hwhole, -⟩
  · exact ⟨0, rfl⟩
  · unfold Value.orElse
    split
    · exact hwhole
    · exact ⟨0, rfl⟩

end Value

/-! ## Declared types -/

namespace Source

structure Message.Declared (m : Message) : Prop where
  message : m.message.IsText
  details : m.details.IsText
  source : m.source.IsText

structure Choice.Declared (c : Choice) : Prop where
  value : c.value.IsText
  displayText : c.displayText.IsText
  order : c.order.IsInteger

structure Control.Declared (c : Control) : Prop where
  name : c.name.IsText
  type : c.type.IsText
  label : c.label.IsText
  binding : c.binding.IsText
  gridPosition : c.gridPosition.IsText
  /-- The row number of a position has not too many digits. -/
  row : Grid.Readable c.gridPosition
  sectionName : c.sectionName.IsText
  sectionBinding : c.sectionBinding.IsText
  properties : ∀ e ∈ c.properties, (∃ s, e.1 = .text s) ∧ e.2.integersFit = true
  choices : ∀ x ∈ c.choices, x.Declared

structure Section.Declared (s : Section) : Prop where
  name : s.name.IsText
  type : s.type.IsText
  ctrlId : s.ctrlId.IsText
  startRow : s.startRow.IsInteger
  endRow : s.endRow.IsInteger
  controlIds : ∀ n ∈ s.controlIds, n.IsText

structure View.Declared (v : View) : Prop where
  name : v.name.IsText
  controls : ∀ c ∈ v.controls.labels, c.Declared
  sections : ∀ s ∈ v.sections, s.Declared

structure Column.Declared (c : Column) : Prop where
  name : c.name.IsText
  type : c.type.IsText
  dataType : c.dataType.IsText
  displayName : c.displayName.IsText
  repeatingSection : c.repeatingSection.IsText
  conditionalOnField : c.conditionalOnField.IsText
  validValues : ∀ x ∈ c.validValues, x.Declared
  defaultValue : c.defaultValue.IsText

structure DynamicSection.Declared (s : DynamicSection) : Prop where
  mode : s.mode.IsText
  ctrlId : s.ctrlId.IsText
  caption : s.caption.IsText
  condition : s.condition.IsText
  conditionField : s.conditionField.IsText
  conditionValue : s.conditionValue.IsText
  controls : ∀ n ∈ s.controls, n.IsText

structure Metadata.Declared (m : Metadata) : Prop where
  totalControls : m.totalControls.IsInteger
  totalSections : m.totalSections.IsInteger
  dynamicSections : m.dynamicSections.IsInteger
  repeatingSections : m.repeatingSections.IsInteger
  conditionalFields : ∀ n ∈ m.conditionalFields, n.IsText

structure Definition.Declared (d : Definition) : Prop where
  fileName : d.fileName.IsText
  views : ∀ v ∈ d.views, v.Declared
  columns : ∀ c ∈ d.columns, c.Declared
  dynamicSections : ∀ s ∈ d.dynamicSections, s.Declared
  metadata : ∀ m, d.metadata = some m → m.Declared

end Source

structure Analysis.Declared (a : Analysis) : Prop where
  formName : a.formName.IsText
  formType : a.formType.IsText
  analyzer : a.analyzer.IsText
  definition : ∀ d, a.definition = some d → d.Declared
  messages : ∀ m ∈ a.messages, m.Declared

/-! ## Mapped forms -/

namespace Form

theorem Choice.typed_ofSource {c : Source.Choice} (h : c.Declared) : (Choice.ofSource c).Typed := by
  have hvalue : (c.value.orElse (.text "")).IsText := h.value.orElse (Value.isText_text "")
  refine ⟨hvalue, ?_, ⟨_, rfl⟩, h.order.exists_whole?_orElse⟩
  unfold Choice.ofSource
  rcases h.displayText with hnull | ⟨s, hs⟩
  · rw [hnull]
    exact hvalue
  · rw [hs]
    exact Value.isText_text s

theorem DynamicSection.typed_ofSource {s : Source.DynamicSection} (h : s.Declared) :
    (DynamicSection.ofSource s).Typed :=
  ⟨h.ctrlId.orElse (Value.isText_text ""), h.caption, h.condition.orElse (Value.isText_text ""),
    h.conditionField.orElse (Value.isText_text ""), h.conditionValue.orElse (Value.isText_text ""),
    h.controls⟩

/-- Controls are typed; their parents are among them. -/
theorem typed_of_mapControls {g : Forest Source.Control} {cs : List Control}
    (hg : ∀ a ∈ g.labels, a.Declared) (h : mapControls g = .ok cs) :
    ∀ c ∈ cs, c.Typed cs.length := by
  intro c hc
  obtain ⟨i, hi⟩ := List.getElem?_of_mem hc
  have his := (List.getElem?_eq_some_iff.mp hi).1
  have hplaces : i < g.places.length := by
    rw [Forest.length_places, ← length_of_mapControls h]
    exact his
  have hplaced := placed_of_mapControls h hi (List.getElem?_eq_getElem hplaces)
  have hparent : c.parentIndex = .null ∨ ∃ j < cs.length, c.parentIndex = .count j := by
    rcases Nat.lt_or_ge 1 g.places[i].length with hbelow | hroot
    · obtain ⟨j, -, -, -, hj, -, -, hparent, -⟩ := hplaced.parent hbelow
      exact Or.inr ⟨j, by omega, hparent⟩
    · have hne := Forest.ne_nil_of_mem_places (List.getElem_mem hplaces)
      have hpos := List.length_pos_iff.mpr hne
      exact Or.inl (hplaced.root.mpr (by omega))
  -- the other fields come from the entry that the control is made of
  obtain ⟨names, hnames, hcs⟩ := bind_eq_ok.mp (ofEntries_of_mapControls h)
  obtain ⟨⟨e, name⟩, hpair, hce⟩ := getElem?_of_mapM_eq_ok hcs hi
  obtain ⟨he, hname⟩ := List.of_mem_zip (List.mem_of_getElem? hpair)
  have hlabels : ∀ e ∈ g.flatten, e.label ∈ g.labels := by
    intro e he
    rw [← Forest.map_label_flattenAt g none 0 0]
    exact List.mem_map_of_mem he
  have hdeclared := hg _ (hlabels e he)
  have htext : name.IsText := by
    rw [assignNames_eq_ok hnames] at hname
    rcases mem_nameFrom hname with ⟨hgiven, -⟩ | ⟨s, rfl⟩
    · obtain ⟨e', he', rfl⟩ := List.mem_map.mp hgiven
      exact (hg _ (hlabels e' he')).name
    · exact Value.isText_text s
  obtain ⟨t, -, hce⟩ := bind_eq_ok.mp hce
  obtain rfl := Except.ok.inj hce
  refine ⟨htext, hdeclared.type.orElse (Value.isText_text ""), hdeclared.label, hdeclared.row, ?_, ?_,
    hparent, ⟨_, rfl⟩, ⟨_, rfl⟩⟩
  · intro x hx
    obtain ⟨y, hy, rfl⟩ := List.mem_map.mp hx
    exact Choice.typed_ofSource (hdeclared.choices y hy)
  · intro l hl
    have hlink : SectionLink.ofSource e.label = some l := hl
    unfold SectionLink.ofSource at hlink
    split at hlink
    · obtain rfl := Option.some.inj hlink
      exact hdeclared.sectionName
    · cases hlink

/-- Names and tokens of the declared types can be given and read. -/
theorem mappable_of_declared {c : Source.Control} (h : c.Declared) : c.Mappable := by
  refine ⟨fun _ => h.name.unhashable?, fun hgiven => Or.inl ?_⟩
  exact h.type.kind_of_isGiven hgiven

theorem exists_view_eq_ok {v : Source.View} (h : ∀ c ∈ v.controls.labels, c.Mappable) :
    (∃ w, View.ofSource v = .ok w) ↔ v.controls.height ≤ maxDepth := by
  rw [View.ofSource, exists_bind_pure_eq_ok, exists_mapControls_eq_ok]
  exact and_iff_left h

theorem exists_column_eq_ok {c : Source.Column} (h : (c.type.orElse c.dataType).IsText) :
    ∃ w, Column.ofSource c = .ok w := by
  obtain ⟨t, ht⟩ := (ControlType.exists_ofValue_eq_ok .ofDataToken _).mpr fun hgiven =>
    Or.inl (h.kind_of_isGiven hgiven)
  exact exists_bind_pure_eq_ok.mpr ⟨t, ht⟩

/-- The name of a form is the one given, or its id is a path that it can be taken from. -/
theorem exists_nameOf_eq_ok {a : Analysis} {d : Source.Definition} (ha : a.formName.IsText)
    (hd : d.fileName.IsText) : ∃ name, nameOf a (idOf a d) = .ok name := by
  obtain ⟨fallback, hfallback⟩ := ha.exists_orElse_text defaultFormName
  obtain ⟨id, hid⟩ := hd.exists_orElse_text fallback
  rw [← hfallback] at hid
  unfold nameOf
  split
  · exact ⟨_, rfl⟩
  · rw [idOf, hid]
    exact ⟨_, rfl⟩

end Form

/-- What mapping asks of an analysis, besides its views: names that are texts, controls that can be
named and typed, and type tokens of columns that can be read. -/
structure Analysis.Mappable (a : Analysis) : Prop where
  formName : a.formName.IsText
  fileName : ∀ d, a.definition = some d → d.fileName.IsText
  controls : ∀ d, a.definition = some d → ∀ v ∈ d.views, ∀ c ∈ v.controls.labels, c.Mappable
  tokens : ∀ d, a.definition = some d → ∀ c ∈ d.columns, (c.type.orElse c.dataType).IsText

theorem Analysis.Declared.mappable {a : Analysis} (ha : a.Declared) : a.Mappable where
  formName := ha.formName
  fileName := fun d hd => (ha.definition d hd).fileName
  controls := fun d hd v hv c hc =>
    Form.mappable_of_declared (((ha.definition d hd).views v hv).controls c hc)
  tokens := fun d hd c hc =>
    ((ha.definition d hd).columns c hc).type.orElse ((ha.definition d hd).columns c hc).dataType

namespace Form

/-- Such an analysis is mapped exactly when it has views and none of them is nested too deeply. -/
theorem exists_ofAnalysis_iff {a : Analysis} (ha : a.Mappable) :
    (∃ f, ofAnalysis (some a) = .ok f) ↔ ∃ d, a.definition = some d ∧ d.views ≠ [] ∧
      ∀ v ∈ d.views, v.controls.height ≤ maxDepth := by
  constructor
  · rintro ⟨f, h⟩
    obtain ⟨b, d, hb, hd, hne, hviews, -⟩ := ofAnalysis_eq_ok h
    obtain rfl := Option.some.inj hb
    refine ⟨d, hd, hne, fun v hv => ?_⟩
    exact (exists_view_eq_ok (ha.controls d hd v hv)).mp (exists_mapM_eq_ok.mp ⟨_, hviews⟩ v hv)
  · rintro ⟨d, hd, hne, hheight⟩
    obtain ⟨name, hname⟩ := exists_nameOf_eq_ok ha.formName (ha.fileName d hd)
    obtain ⟨views, hviews⟩ := exists_mapM_eq_ok.mpr fun v hv =>
      (exists_view_eq_ok (ha.controls d hd v hv)).mpr (hheight v hv)
    obtain ⟨columns, hcolumns⟩ := exists_mapM_eq_ok.mpr fun c hc =>
      exists_column_eq_ok (ha.tokens d hd c hc)
    simp [ofAnalysis, hd, hne, hname, hviews, hcolumns]

/-- An analysis of declared types is mapped exactly when it has views and none of them is nested too
deeply. -/
theorem exists_ofAnalysis_eq_ok {a : Analysis} (ha : a.Declared) :
    (∃ f, ofAnalysis (some a) = .ok f) ↔ ∃ d, a.definition = some d ∧ d.views ≠ [] ∧
      ∀ v ∈ d.views, v.controls.height ≤ maxDepth :=
  exists_ofAnalysis_iff ha.mappable

/-- A form that is mapped from an analysis of declared types is typed and has a view. -/
theorem typed_of_ofAnalysis {a : Analysis} {f : Form} (ha : a.Declared)
    (h : ofAnalysis (some a) = .ok f) : f.Typed ∧ f.views ≠ [] := by
  obtain ⟨b, d, hb, hd, hne, hviews, -, hsections, -, hid, hname, hwarnings, htype⟩ :=
    ofAnalysis_eq_ok h
  obtain rfl := Option.some.inj hb
  have hdeclared := ha.definition d hd
  have hidText : f.id.IsText := by
    rw [hid]
    exact hdeclared.fileName.orElse (ha.formName.orElse (Value.isText_text _))
  constructor
  · constructor
    · exact hidText
    · unfold nameOf at hname
      split at hname
      · rw [← Except.ok.inj hname]
        exact ha.formName
      · obtain ⟨stem, -, hname⟩ := bind_eq_ok.mp hname
        rw [← Except.ok.inj hname]
        exact (Value.isText_text stem).orElse hidText
    · rw [htype]
      exact ha.formType
    · intro v hv
      obtain ⟨i, hi⟩ := List.getElem?_of_mem hv
      obtain ⟨s, hs, hsv⟩ := getElem?_of_mapM_eq_ok hviews hi
      obtain ⟨cs, hcs, hsv⟩ := bind_eq_ok.mp hsv
      obtain rfl := Except.ok.inj hsv
      have hview := hdeclared.views s (List.mem_of_getElem? hs)
      exact ⟨hview.name.orElse (Value.isText_text _), typed_of_mapControls hview.controls hcs⟩
    · rw [hsections]
      intro s hs
      obtain ⟨t, ht, rfl⟩ := List.mem_map.mp hs
      exact DynamicSection.typed_ofSource (hdeclared.dynamicSections t ht)
    · rw [hwarnings]
      intro w hw
      obtain ⟨m, hm, rfl⟩ := List.mem_map.mp hw
      exact (ha.messages m (List.mem_filter.mp hm).1).message
  · intro hnil
    have hlength := length_of_mapM_eq_ok hviews
    rw [hnil] at hlength
    exact hne (List.length_eq_zero_iff.mp hlength.symm)

end Form

end Formwright
