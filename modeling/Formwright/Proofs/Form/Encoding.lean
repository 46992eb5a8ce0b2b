import Formwright.Form.Text
import Formwright.Proofs.Analysis.Declared
import Formwright.Proofs.Form.Alike
import Formwright.Proofs.Json.Canonical

/-
  JSON texts of forms. A portable form (`Portable`) has fields of their declared types, no doubles among
  its properties, and no integer of too many digits; texts are made of characters, so there are no lone
  surrogates in them. The document of a portable form is plain (`Portable.plain`), so it has one
  canonical text, which is read back as a form that is like it. So the texts of two forms are the same
  exactly when the forms are equal up to the order of properties (`json_faithful`); a truth value, a
  number and a text are never the same value, nor are their texts.
-/

namespace Formwright

namespace Json

/-- A value that is plain if no integer in it has too many digits. -/
def Carried (v : Value) : Prop := v.integersFit = true → Plain v

theorem Atom.carried {v : Value} (h : Atom v) : Carried v := by
  intro hfit
  cases h with
  | null => exact .null
  | bool b => exact .bool b
  | int n => exact .int (of_decide_eq_true hfit)
  | text s => exact .text s

theorem carried_ofList {vs : List Value} (h : ∀ v ∈ vs, Carried v) : Carried (.ofList vs) := by
  intro hfit
  refine .list 0 ?_
  change Value.allIntegersFit vs = true at hfit
  induction vs with
  | nil => exact List.forall_mem_nil _
  | cons v vs ih =>
    obtain ⟨hv, hvs⟩ := List.forall_mem_cons.mp h
    rw [Value.allIntegersFit, Bool.and_eq_true] at hfit
    exact List.forall_mem_cons.mpr ⟨hv hfit.1, ih hvs hfit.2⟩

theorem carried_parts {α : Type} {write : α → Value} {xs : List α} (h : ∀ x ∈ xs, Carried (write x)) :
    Carried (.ofList (xs.map write)) :=
  carried_ofList (List.forall_mem_map.mpr h)

theorem carried_map {fields : List (String × Value)} (hnames : (fields.map (·.1)).Nodup)
    (h : ∀ f ∈ fields, Carried f.2) : Carried (.map 0 (entriesOf fields)) := by
  intro hfit
  refine .record 0 hnames ?_
  change Value.entriesFit (entriesOf fields) = true at hfit
  clear hnames
  induction fields with
  | nil => exact List.forall_mem_nil _
  | cons f fields ih =>
    obtain ⟨hf, hfields⟩ := List.forall_mem_cons.mp h
    rw [entriesOf, List.map_cons, Value.entriesFit, Bool.and_eq_true, Bool.and_eq_true] at hfit
    exact List.forall_mem_cons.mpr ⟨hf hfit.1.2, ih hfields hfit.2⟩

end Json

namespace Form

open Json

theorem Choice.carried {c : Choice} (h : c.Declared) : Carried c.toValue := by
  refine carried_map (by simp) ?_
  simp only [List.forall_mem_cons]
  exact ⟨h.value.atom.carried, h.displayText.atom.carried, h.isDefault.atom.carried,
    h.order.atom.carried, List.forall_mem_nil _⟩

theorem SectionLink.carried {l : SectionLink} (h : l.Declared) : Carried l.toValue := by
  refine carried_map (by simp) ?_
  simp only [List.forall_mem_cons]
  exact ⟨h.name.atom_string.carried, h.binding.atom_string.carried, List.forall_mem_nil _⟩

theorem SectionLink.carried_elim {l : Option SectionLink} (h : ∀ x ∈ l, x.Declared) :
    Carried (l.elim .null (·.toValue)) := by
  cases l with
  | none => exact Atom.null.carried
  | some l => exact SectionLink.carried (h l rfl)

theorem pairwise_entriesOf_iff {fields : List (String × Value)} :
    ((entriesOf fields).Pairwise fun d e => d.1 ≠ e.1) ↔ (fields.map (·.1)).Nodup := by
  rw [entriesOf, List.pairwise_map, List.Nodup, List.pairwise_map]
  simp only [ne_eq, Value.text.injEq]

theorem Control.carried_properties {c : Control} (h : c.Declared) (hfloat : c.FloatFree) :
    Carried (.map 0 c.properties) := by
  have hatoms : ∀ e ∈ c.properties, Atom e.2 := fun e he =>
    atom_iff_isProperty.mpr ⟨h.properties e he, hfloat e he⟩
  have hdistinct := h.distinct
  obtain ⟨fields, hfields⟩ := exists_entriesOf h.keys
  rw [hfields] at hatoms hdistinct ⊢
  exact carried_map (pairwise_entriesOf_iff.mp hdistinct) fun f hf =>
    (hatoms _ (List.mem_map_of_mem hf)).carried

theorem Control.carried {c : Control} (h : c.Declared) (hfloat : c.FloatFree) : Carried c.toValue := by
  refine carried_map (by simp) ?_
  simp only [List.forall_mem_cons]
  exact ⟨h.name.atom.carried, (Atom.text _).carried, h.sourceType.atom.carried,
    h.label.atom_string.carried, h.binding.atom_string.carried, h.gridPosition.atom_string.carried,
    carried_parts fun x hx => Choice.carried (h.choices x hx), SectionLink.carried_elim h.sectionLink,
    h.parentIndex.atom_int.carried, h.depth.atom.carried, h.childCount.atom.carried,
    Control.carried_properties h hfloat, h.isReadOnly.atom.carried, h.isRequired.atom.carried,
    List.forall_mem_nil _⟩

theorem Section.carried {s : Section} (h : s.Declared) : Carried s.toValue := by
  refine carried_map (by simp) ?_
  simp only [List.forall_mem_cons]
  exact ⟨h.name.atom.carried, h.type.atom.carried, h.ownerControlId.atom_string.carried,
    h.startRow.atom.carried, h.endRow.atom.carried, h.controlCount.atom.carried, List.forall_mem_nil _⟩

theorem View.carried {v : View} (h : v.Declared) (hfloat : ∀ c ∈ v.controls, c.FloatFree) :
    Carried v.toValue := by
  refine carried_map (by simp) ?_
  simp only [List.forall_mem_cons]
  exact ⟨h.name.atom.carried, carried_parts fun c hc => Control.carried (h.controls c hc) (hfloat c hc),
    carried_parts fun s hs => Section.carried (h.sections s hs), List.forall_mem_nil _⟩

theorem Column.carried {c : Column} (h : c.Declared) : Carried c.toValue := by
  refine carried_map (by simp) ?_
  simp only [List.forall_mem_cons]
  exact ⟨h.name.atom.carried, h.displayName.atom.carried, (Atom.text _).carried,
    carried_parts fun x hx => Choice.carried (h.validValues x hx), h.isRepeating.atom.carried,
    h.repeatingSection.atom_string.carried, h.isConditional.atom.carried,
    h.conditionalOnField.atom_string.carried, h.defaultValue.atom_string.carried, List.forall_mem_nil _⟩

theorem DynamicSection.carried {s : DynamicSection} (h : s.Declared) : Carried s.toValue := by
  refine carried_map (by simp) ?_
  simp only [List.forall_mem_cons]
  exact ⟨h.name.atom.carried, h.mode.atom.carried, h.ctrlId.atom_string.carried,
    h.caption.atom_string.carried, h.condition.atom.carried, h.conditionField.atom.carried,
    h.conditionValue.atom.carried, carried_ofList fun v hv => (h.controls v hv).atom.carried,
    h.isVisible.atom.carried, List.forall_mem_nil _⟩

theorem Metadata.carried {m : Metadata} (h : m.Declared) : Carried m.toValue := by
  refine carried_map (by simp) ?_
  simp only [List.forall_mem_cons]
  exact ⟨h.totalControls.atom.carried, h.totalSections.atom.carried, h.dynamicSections.atom.carried,
    h.repeatingSections.atom.carried,
    carried_ofList fun v hv => (h.conditionalFields v hv).atom.carried, List.forall_mem_nil _⟩

theorem carried_toValue {f : Form} (h : f.Declared)
    (hfloat : ∀ v ∈ f.views, ∀ c ∈ v.controls, c.FloatFree) : Carried f.toValue := by
  refine carried_map (by simp) ?_
  simp only [List.forall_mem_cons]
  exact ⟨h.id.atom.carried, h.name.atom.carried, h.formType.atom_string.carried,
    carried_parts fun v hv => View.carried (h.views v hv) (hfloat v hv),
    carried_parts fun c hc => Column.carried (h.columns c hc),
    carried_parts fun s hs => DynamicSection.carried (h.dynamicSections s hs),
    Metadata.carried h.metadata, carried_ofList fun v hv => (h.sourceWarnings v hv).atom.carried,
    List.forall_mem_nil _⟩

/-! ## Texts of forms -/

/-- A form that a JSON text can carry. -/
structure Portable (f : Form) : Prop where
  declared : f.Declared
  floatFree : ∀ v ∈ f.views, ∀ c ∈ v.controls, c.FloatFree
  /-- No integer in the document has too many digits. -/
  integers : f.toValue.integersFit = true

theorem Portable.plain {f : Form} (h : f.Portable) : Plain f.toValue :=
  carried_toValue h.declared h.floatFree h.integers

/-- A portable form has a text, which forms that are like it share, and which is read as such a form. -/
theorem exists_toJson {f : Form} (h : f.Portable) :
    ∃ s, (∀ g, f.Alike g → g.toJson = .ok s) ∧ ∃ f', f.Alike f' ∧ ofJson s = .ok f' := by
  obtain ⟨s, hwritten, w, hw, hread⟩ := write_faithful h.plain
  obtain ⟨f', hf', hlike⟩ := ofValue_mirrors h.declared h.floatFree hw
  refine ⟨s, fun g hg => hwritten _ (mirrors_toValue h.declared hg), f', hlike, ?_⟩
  rw [ofJson, hread, ok_bind, hf']

/-- JSON texts are canonical and faithful. A portable form has a text, the text is read as a form that
is equal to it up to the order of properties, and two portable forms have the same text exactly when
they are equal up to this order. -/
theorem json_faithful {f g : Form} (hf : f.Portable) (hg : g.Portable) :
    ∃ s t, f.toJson = .ok s ∧ g.toJson = .ok t ∧ (∃ f', ofJson s = .ok f' ∧ f.Alike f') ∧
      (s = t ↔ f.Alike g) := by
  obtain ⟨s, hwritten, f', hlike, hread⟩ := exists_toJson hf
  obtain ⟨t, hwritten', g', hlike', hread'⟩ := exists_toJson hg
  have hs := hwritten f (.refl f)
  refine ⟨s, t, hs, hwritten' g (.refl g), ⟨f', hread, hlike⟩, ?_, fun hfg => ?_⟩
  · -- one text is read as one form, and both forms are like it
    rintro rfl
    obtain rfl : f' = g' := Except.ok.inj (hread.symm.trans hread')
    exact hlike.trans hlike'.symm
  · have ht := hwritten' f hfg.symm
    exact Except.ok.inj (hs.symm.trans ht)

/-- A form of one control with some properties, and with a label that has to be escaped. -/
def labelled (properties : List (String × Value)) : Form where
  id := .text "F"
  name := .text "F"
  formType := .null
  views := [{
    name := .text "V"
    controls := [{
      name := .text "size", type := .number, sourceType := .text "number", label := .text "\"größe\" 📏\n"
      binding := .null, gridPosition := .text "1A"
      choices := [⟨.text "s", .text "S", .bool true, .int 0⟩], sectionLink := some ⟨.null, .text "b"⟩
      parentIndex := .null, depth := .int 0, childCount := .int 0, properties := entriesOf properties
      isReadOnly := .bool false, isRequired := .bool true }]
    sections := [] }]
  columns := []
  dynamicSections := []
  metadata := {}
  sourceWarnings := [.text "w"]

theorem portable_labelled {properties : List (String × Value)} (hnames : (properties.map (·.1)).Nodup)
    (hatoms : ∀ p ∈ properties, Atom p.2) (hfit : (labelled properties).toValue.integersFit = true) :
    (labelled properties).Portable where
  declared := by
    refine ⟨⟨_, rfl⟩, ⟨_, rfl⟩, Or.inl rfl, ?_, nofun, nofun,
      ⟨⟨_, rfl⟩, ⟨_, rfl⟩, ⟨_, rfl⟩, ⟨_, rfl⟩, nofun⟩, List.forall_mem_singleton.mpr ⟨_, rfl⟩⟩
    refine List.forall_mem_singleton.mpr ⟨⟨_, rfl⟩, List.forall_mem_singleton.mpr ?_, nofun⟩
    refine ⟨⟨_, rfl⟩, ⟨_, rfl⟩, Or.inr ⟨_, rfl⟩, Or.inl rfl, Or.inr ⟨_, rfl⟩,
      List.forall_mem_singleton.mpr ⟨⟨_, rfl⟩, ⟨_, rfl⟩, ⟨_, rfl⟩, ⟨_, rfl⟩⟩, ?_, Or.inl rfl, ⟨_, rfl⟩,
      ⟨_, rfl⟩, ?_, ?_, ?_, ⟨_, rfl⟩, ⟨_, rfl⟩⟩
    · rintro l ⟨⟩
      exact ⟨Or.inl rfl, Or.inr ⟨_, rfl⟩⟩
    · exact List.forall_mem_map.mpr fun p _ => ⟨p.1, rfl⟩
    · exact pairwise_entriesOf_iff.mpr hnames
    · exact List.forall_mem_map.mpr fun p hp => (atom_iff_isProperty.mp (hatoms p hp)).1
  floatFree := by
    refine List.forall_mem_singleton.mpr (List.forall_mem_singleton.mpr ?_)
    exact List.forall_mem_map.mpr fun p hp => (atom_iff_isProperty.mp (hatoms p hp)).2
  integers := hfit

theorem alike_labelled_iff {properties other : List (String × Value)} :
    (labelled properties).Alike (labelled other) ↔ other.Perm properties := by
  constructor
  · rintro ⟨vs, hvs, heq⟩
    obtain rfl := congrArg Form.views heq
    obtain ⟨⟨cs, hcs, heq⟩, -⟩ := List.forall₂_cons.mp hvs
    obtain rfl := congrArg View.controls heq
    obtain ⟨⟨ps, hps, heq⟩, -⟩ := List.forall₂_cons.mp hcs
    obtain rfl := congrArg Control.properties heq
    exact (List.map_perm_map_iff entry_injective).mp hps
  · intro hperm
    exact ⟨_, .cons ⟨_, .cons ⟨_, hperm.map _, rfl⟩ .nil, rfl⟩ .nil, rfl⟩

/-- The order of properties does not matter to the text, but a truth value is no number. -/
theorem json_faithful_labelled :
    let f := labelled [("a", .bool true), ("b", .int (-12))]
    let g := labelled [("b", .int (-12)), ("a", .bool true)]
    let h := labelled [("a", .int 1), ("b", .int (-12))]
    f.Portable ∧ g.Portable ∧ h.Portable ∧ ∃ s t, f.toJson = .ok s ∧ g.toJson = .ok s ∧
      h.toJson = .ok t ∧ s ≠ t ∧ ∃ f', ofJson s = .ok f' ∧ f.Alike f' := by
  intro f g h
  have hf : f.Portable := portable_labelled (by decide) (by simp [Atom.bool, Atom.int]) rfl
  have hg : g.Portable := portable_labelled (by decide) (by simp [Atom.bool, Atom.int]) rfl
  have hh : h.Portable := portable_labelled (by decide) (by simp [Atom.int]) rfl
  have hfg : f.Alike g := alike_labelled_iff.mpr (.swap _ _ _)
  have hfh : ¬ f.Alike h := fun hlike => by
    have hmem := (alike_labelled_iff.mp hlike).mem_iff.mpr (List.mem_cons_self)
    simp at hmem
  obtain ⟨s, s', hs, hs', hread, hsame⟩ := json_faithful hf hg
  obtain ⟨s'', t, hs'', ht, -, hother⟩ := json_faithful hf hh
  obtain rfl := hsame.mpr hfg
  obtain rfl := Except.ok.inj (hs.symm.trans hs'')
  exact ⟨hf, hg, hh, s, t, hs, hs', ht, mt hother.mp hfh, hread⟩

end Form

end Formwright
