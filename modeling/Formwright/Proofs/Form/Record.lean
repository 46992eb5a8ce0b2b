import Formwright.Form.Record
import Formwright.Proofs.Success
import Formwright.Proofs.Value.Records

/-
  Forms and their documents. Each part of a form is read back from its record: a field that is left
  out of a record would be read as its default, so this says that no field is left out, confused
  with another or given another kind. A list is read back item by item, a missing link to a section
  differs from a link without name and binding, and a control type is found by its name. So a form
  is read back from its document (`ofValue_toValue`), and what was read and written once is not
  changed by reading and writing it again (`document_lossless`).
-/

namespace Formwright

theorem ControlType.named_name (t : ControlType) : named (.text t.name) = .ok t := by
  rw [named, named?_name]

namespace Form

/-! ## Parts -/

/-- A field that lists written parts is read back as the list of the parts. -/
theorem parts_record {α : Type} {fields : List (String × Value)} {name : String} {write : α → Value}
    {read : Value → Except Fault α} {xs : List α}
    (hfield : fields.lookup name = some (.ofList (xs.map write)))
    (hread : ∀ x ∈ xs, read (write x) = .ok x) : parts (.record fields) name read = .ok xs := by
  unfold parts
  rw [Value.getD_record, hfield, ok_bind]
  exact mapM_map_eq_ok hread

theorem Choice.ofValue_toValue (c : Choice) : Choice.ofValue c.toValue = .ok c := by
  unfold Choice.toValue Choice.ofValue
  rw [Value.require_record rfl]
  simp only [Value.getD_record, ok_bind]
  rfl

theorem SectionLink.ofValue_toValue (l : SectionLink) : SectionLink.ofValue l.toValue = .ok l := by
  unfold SectionLink.toValue SectionLink.ofValue
  simp only [Value.get_record, ok_bind]
  rfl

/-- No link is null, and any link is a record. -/
theorem SectionLink.ofOptional_elim (l : Option SectionLink) :
    SectionLink.ofOptional (l.elim .null (·.toValue)) = .ok l := by
  cases l with
  | none => rfl
  | some l =>
    show some <$> SectionLink.ofValue l.toValue = _
    rw [SectionLink.ofValue_toValue]
    rfl

theorem Control.ofValue_toValue (c : Control) : Control.ofValue c.toValue = .ok c := by
  have hchoices : parts c.toValue "data_options" Choice.ofValue = .ok c.choices :=
    parts_record rfl fun x _ => Choice.ofValue_toValue x
  have htype := ControlType.named_name c.type
  have hlink := SectionLink.ofOptional_elim c.sectionLink
  have hproperties := Value.asEntries_map 0 c.properties
  unfold Control.ofValue
  rw [hchoices]
  unfold Control.toValue
  rw [Value.require_record rfl]
  simp only [Value.getD_record, Value.get_record, ok_bind]
  -- the fields that are not just looked up: type, link and properties
  exact bind_eq_ok.mpr ⟨_, htype, bind_eq_ok.mpr ⟨_, hlink, bind_eq_ok.mpr ⟨_, hproperties, rfl⟩⟩⟩

theorem Section.ofValue_toValue (s : Section) : Section.ofValue s.toValue = .ok s := by
  unfold Section.toValue Section.ofValue
  rw [Value.require_record rfl]
  simp only [Value.getD_record, Value.get_record, ok_bind]
  rfl

theorem View.ofValue_toValue (w : View) : View.ofValue w.toValue = .ok w := by
  have hcontrols : parts w.toValue "controls" Control.ofValue = .ok w.controls :=
    parts_record rfl fun x _ => Control.ofValue_toValue x
  have hsections : parts w.toValue "sections" Section.ofValue = .ok w.sections :=
    parts_record rfl fun x _ => Section.ofValue_toValue x
  unfold View.ofValue
  rw [hcontrols, hsections]
  unfold View.toValue
  rw [Value.require_record rfl]
  rfl

theorem Column.ofValue_toValue (c : Column) : Column.ofValue c.toValue = .ok c := by
  have hvalues : parts c.toValue "valid_values" Choice.ofValue = .ok c.validValues :=
    parts_record rfl fun x _ => Choice.ofValue_toValue x
  have htype := ControlType.named_name c.type
  unfold Column.ofValue
  rw [hvalues]
  unfold Column.toValue
  rw [Value.require_record rfl]
  simp only [Value.getD_record, Value.get_record, ok_bind]
  exact bind_eq_ok.mpr ⟨_, htype, rfl⟩

theorem DynamicSection.ofValue_toValue (s : DynamicSection) :
    DynamicSection.ofValue s.toValue = .ok s := by
  have hcontrols := Value.elements_list 0 s.controls
  unfold DynamicSection.toValue DynamicSection.ofValue
  simp only [Value.getD_record, Value.get_record, ok_bind]
  exact bind_eq_ok.mpr ⟨_, hcontrols, rfl⟩

theorem Metadata.ofValue_toValue (m : Metadata) : Metadata.ofValue m.toValue = .ok m := by
  have hfields := Value.elements_list 0 m.conditionalFields
  have hnull : m.toValue = .null → False := Value.noConfusion
  rw [Metadata.ofValue]
  · unfold Metadata.toValue
    simp only [Value.getD_record, ok_bind]
    exact bind_eq_ok.mpr ⟨_, hfields, rfl⟩
  · exact hnull

/-! ## Whole forms -/

/-- A form is read back from its document, whatever values its fields hold. -/
theorem ofValue_toValue (f : Form) : ofValue f.toValue = .ok f := by
  have hviews : parts f.toValue "views" View.ofValue = .ok f.views :=
    parts_record rfl fun x _ => View.ofValue_toValue x
  have hcolumns : parts f.toValue "data_columns" Column.ofValue = .ok f.columns :=
    parts_record rfl fun x _ => Column.ofValue_toValue x
  have hdynamic : parts f.toValue "dynamic_sections" DynamicSection.ofValue = .ok f.dynamicSections :=
    parts_record rfl fun x _ => DynamicSection.ofValue_toValue x
  have hmetadata := Metadata.ofValue_toValue f.metadata
  have hwarnings := Value.elements_list 0 f.sourceWarnings
  unfold ofValue
  rw [hviews, hcolumns, hdynamic]
  unfold toValue
  rw [Value.require_record rfl]
  simp only [Value.getD_record, Value.get_record, ok_bind]
  exact bind_eq_ok.mpr ⟨_, hmetadata, bind_eq_ok.mpr ⟨_, hwarnings, rfl⟩⟩

/-- Documents lose nothing. Any form is read back from its document, with every field of every part
as it was; so a document that was written from what was read is read and written without change. -/
theorem document_lossless :
    (∀ f : Form, ofValue f.toValue = .ok f) ∧
      ∀ v w : Value, toValue <$> ofValue v = .ok w → toValue <$> ofValue w = .ok w := by
  constructor
  · exact ofValue_toValue
  · intro v w h
    obtain ⟨f, -, rfl⟩ := map_eq_ok.mp h
    rw [ofValue_toValue]
    rfl

/-- A document with parts in a tuple and in a text, properties as pairs, and a link that says
neither name nor binding. -/
theorem document_lossless_sparse :
    let v := Value.record [("id", .int 7), ("source_warnings", .text "ab"), ("views", .tuple 3 [.record [
      ("name", .null), ("sections", .text ""), ("controls", .ofList [.record [("name", .int 1),
        ("repeating_section", .record []), ("properties", .ofList [.ofTexts ["a", "b"]])]])]])]
    ∃ w, toValue <$> ofValue v = .ok w ∧ toValue <$> ofValue w = .ok w := by
  intro v
  exact ⟨_, rfl, document_lossless.2 v _ rfl⟩

end Form

end Formwright
