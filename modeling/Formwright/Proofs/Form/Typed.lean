import Formwright.Identifier
import Formwright.Options
import Formwright.Proofs.Statistics.Collecting

/-
  Fields of known types. Most fields hold a text or nothing, and where a whole number is expected it
  can be put in order with others (`Value.checkOrder_of_whole`). `Form.Typed` and `Options.Typed` say
  which kind of value each field holds that a generator reads.
-/

namespace Formwright

namespace Value

/-- A text, or nothing. -/
def IsText (v : Value) : Prop := v = .null ∨ ∃ s, v = .text s

theorem isText_text (s : String) : IsText (.text s) := Or.inr ⟨s, rfl⟩

theorem IsText.unhashable? {v : Value} (h : v.IsText) : v.unhashable? = none := by
  rcases h with rfl | ⟨s, rfl⟩ <;> rfl

theorem IsText.orElse {v w : Value} (hv : v.IsText) (hw : w.IsText) : (v.orElse w).IsText := by
  unfold Value.orElse
  split
  · exact hv
  · exact hw

/-- With a text to fall back on there is always a text. -/
theorem IsText.exists_orElse_text {v : Value} (h : v.IsText) (t : String) :
    ∃ s, v.orElse (.text t) = .text s := by
  rcases h with rfl | ⟨s, rfl⟩
  · exact ⟨t, rfl⟩
  · unfold Value.orElse
    split
    · exact ⟨s, rfl⟩
    · exact ⟨t, rfl⟩

theorem IsText.kind_of_isGiven {v : Value} (h : v.IsText) (hgiven : v.isGiven = true) :
    v.kind = .text := by
  rcases h with rfl | ⟨s, rfl⟩
  · cases hgiven
  · rfl

theorem IsText.exists_nameText_eq_ok {v : Value} (h : v.IsText) :
    ∃ s, Identifier.nameText v = .ok s := by
  rcases h with rfl | ⟨s, rfl⟩
  · exact ⟨_, rfl⟩
  · exact ⟨s, Identifier.nameText_text s⟩

theorem IsText.exists_variableNameOf_eq_ok {v : Value} (h : v.IsText) (lead : String) :
    ∃ s, Identifier.variableNameOf v lead = .ok s := by
  obtain ⟨s, hs⟩ := h.exists_nameText_eq_ok
  exact ⟨Identifier.variableName s lead, by rw [Identifier.variableNameOf, hs]; rfl⟩

theorem IsText.exists_tableNameOf_eq_ok {v : Value} (h : v.IsText) :
    ∃ s, Identifier.tableNameOf v = .ok s := by
  rcases h with rfl | ⟨s, rfl⟩
  · exact ⟨_, rfl⟩
  · exact ⟨_, Identifier.tableNameOf_text s⟩

/-- Whole numbers can always be put in order. -/
theorem checkOrder_of_whole {vs : List Value} (h : ∀ v ∈ vs, ∃ n, v.whole? = some n) :
    checkOrder vs = .ok () := by
  induction vs with
  | nil => rfl
  | cons a vs ih =>
    obtain _ | ⟨b, vs⟩ := vs
    · rfl
    · obtain ⟨m, hm⟩ := h a List.mem_cons_self
      obtain ⟨n, hn⟩ := h b (List.mem_cons_of_mem _ List.mem_cons_self)
      have hrest := ih fun v hv => h v (List.mem_cons_of_mem _ hv)
      have hless : ∃ before, b.less a = .ok before := by
        cases b <;> cases hn <;> exact ⟨_, by rw [less, numberLess, numeric?_of_whole? hm]⟩
      obtain ⟨before, hbefore⟩ := hless
      rw [checkOrder, hbefore]
      exact hrest

end Value

/-! ## Forms -/

namespace Form

structure Choice.Typed (c : Choice) : Prop where
  value : c.value.IsText
  displayText : c.displayText.IsText
  isDefault : ∃ b, c.isDefault = .bool b
  order : ∃ n, c.order.whole? = some n

/-- A control of a view with a number of controls. -/
structure Control.Typed (count : Nat) (c : Control) : Prop where
  name : c.name.IsText
  sourceType : c.sourceType.IsText
  label : c.label.IsText
  position : Grid.Readable c.gridPosition
  choices : ∀ x ∈ c.choices, x.Typed
  sectionLink : ∀ l, c.sectionLink = some l → l.name.IsText
  /-- A parent is one of the controls of the view. -/
  parent : c.parentIndex = .null ∨ ∃ j < count, c.parentIndex = .count j
  isReadOnly : ∃ b, c.isReadOnly = .bool b
  isRequired : ∃ b, c.isRequired = .bool b

structure DynamicSection.Typed (s : DynamicSection) : Prop where
  name : s.name.IsText
  caption : s.caption.IsText
  condition : s.condition.IsText
  conditionField : s.conditionField.IsText
  conditionValue : s.conditionValue.IsText
  controls : ∀ n ∈ s.controls, n.IsText

end Form

structure Form.Typed (f : Form) : Prop where
  id : f.id.IsText
  name : f.name.IsText
  formType : f.formType.IsText
  views : ∀ v ∈ f.views, v.name.IsText ∧ ∀ c ∈ v.controls, c.Typed v.controls.length
  dynamicSections : ∀ s ∈ f.dynamicSections, s.Typed
  sourceWarnings : ∀ w ∈ f.sourceWarnings, w.IsText

/-! ## Options -/

/-- Options of which each one holds what it is for; the name and the description may be missing. -/
structure Options.Typed (o : Options) : Prop where
  formName : o.formName.IsText
  description : o.description.IsText
  validationRules : ∃ b, o.validationRules = .bool b
  conditionalLogic : ∃ b, o.conditionalLogic = .bool b
  calculations : ∃ b, o.calculations = .bool b
  workflow : ∃ b, o.workflow = .bool b
  metadata : ∃ b, o.metadata = .bool b
  comments : ∃ b, o.comments = .bool b
  defaultLanguage : ∃ s, o.defaultLanguage = .text s
  variableLead : ∃ s, o.variableLead = .text s
  layoutType : ∃ s, o.layoutType = .text s

theorem Options.typed_default : ({} : Options).Typed :=
  ⟨Or.inl rfl, Or.inl rfl, ⟨_, rfl⟩, ⟨_, rfl⟩, ⟨_, rfl⟩, ⟨_, rfl⟩, ⟨_, rfl⟩, ⟨_, rfl⟩, ⟨_, rfl⟩,
    ⟨_, rfl⟩, ⟨_, rfl⟩⟩

end Formwright
