import Formwright.Form.Basic

/-
  Forms whose fields have their declared types. A field is declared as a text, a truth value or an
  integer, or as one of these that may be missing; a property of a control may also be a double.
-/

namespace Formwright

namespace Value

def IsString (v : Value) : Prop := ∃ s, v = .text s

def IsBool (v : Value) : Prop := ∃ b, v = .bool b

def IsInt (v : Value) : Prop := ∃ n, v = .int n

/-- A value of a declared type, or nothing. -/
def IsOptional (p : Value → Prop) (v : Value) : Prop := v = .null ∨ p v

/-- A value that a property of a control may have. -/
def IsProperty (v : Value) : Prop :=
  v = .null ∨ v.IsString ∨ v.IsBool ∨ v.IsInt ∨ ∃ x, v = .float x

end Value

namespace Form

structure Choice.Declared (c : Choice) : Prop where
  value : c.value.IsString
  displayText : c.displayText.IsString
  isDefault : c.isDefault.IsBool
  order : c.order.IsInt

structure SectionLink.Declared (l : SectionLink) : Prop where
  name : l.name.IsOptional Value.IsString
  binding : l.binding.IsOptional Value.IsString

structure Control.Declared (c : Control) : Prop where
  name : c.name.IsString
  sourceType : c.sourceType.IsString
  label : c.label.IsOptional Value.IsString
  binding : c.binding.IsOptional Value.IsString
  gridPosition : c.gridPosition.IsOptional Value.IsString
  choices : ∀ x ∈ c.choices, x.Declared
  sectionLink : ∀ l ∈ c.sectionLink, l.Declared
  parentIndex : c.parentIndex.IsOptional Value.IsInt
  depth : c.depth.IsInt
  childCount : c.childCount.IsInt
  /-- The properties are a map from texts. -/
  keys : ∀ e ∈ c.properties, e.1.IsString
  distinct : c.properties.Pairwise fun d e => d.1 ≠ e.1
  properties : ∀ e ∈ c.properties, e.2.IsProperty
  isReadOnly : c.isReadOnly.IsBool
  isRequired : c.isRequired.IsBool

structure Section.Declared (s : Section) : Prop where
  name : s.name.IsString
  type : s.type.IsString
  ownerControlId : s.ownerControlId.IsOptional Value.IsString
  startRow : s.startRow.IsInt
  endRow : s.endRow.IsInt
  controlCount : s.controlCount.IsInt

structure View.Declared (v : View) : Prop where
  name : v.name.IsString
  controls : ∀ c ∈ v.controls, c.Declared
  sections : ∀ s ∈ v.sections, s.Declared

structure Column.Declared (c : Column) : Prop where
  name : c.name.IsString
  displayName : c.displayName.IsString
  validValues : ∀ x ∈ c.validValues, x.Declared
  isRepeating : c.isRepeating.IsBool
  repeatingSection : c.repeatingSection.IsOptional Value.IsString
  isConditional : c.isConditional.IsBool
  conditionalOnField : c.conditionalOnField.IsOptional Value.IsString
  defaultValue : c.defaultValue.IsOptional Value.IsString

structure DynamicSection.Declared (s : DynamicSection) : Prop where
  name : s.name.IsString
  mode : s.mode.IsString
  ctrlId : s.ctrlId.IsOptional Value.IsString
  caption : s.caption.IsOptional Value.IsString
  condition : s.condition.IsString
  conditionField : s.conditionField.IsString
  conditionValue : s.conditionValue.IsString
  controls : ∀ n ∈ s.controls, n.IsString
  isVisible : s.isVisible.IsBool

structure Metadata.Declared (m : Metadata) : Prop where
  totalControls : m.totalControls.IsInt
  totalSections : m.totalSections.IsInt
  dynamicSections : m.dynamicSections.IsInt
  repeatingSections : m.repeatingSections.IsInt
  conditionalFields : ∀ n ∈ m.conditionalFields, n.IsString

end Form

structure Form.Declared (f : Form) : Prop where
  id : f.id.IsString
  name : f.name.IsString
  formType : f.formType.IsOptional Value.IsString
  views : ∀ v ∈ f.views, v.Declared
  columns : ∀ c ∈ f.columns, c.Declared
  dynamicSections : ∀ s ∈ f.dynamicSections, s.Declared
  metadata : f.metadata.Declared
  sourceWarnings : ∀ w ∈ f.sourceWarnings, w.IsString

theorem Form.Declared.control {f : Form} (hf : f.Declared) {c : Form.Control} (hc : c ∈ f.allControls) :
    c.Declared := by
  obtain ⟨v, hv, hcv⟩ := List.mem_flatMap.mp hc
  exact (hf.views v hv).controls c hcv

end Formwright
