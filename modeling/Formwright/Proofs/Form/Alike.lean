import Formwright.Form.Record
import Formwright.Proofs.Form.Declared
import Formwright.Proofs.Form.Record
import Formwright.Proofs.Json.Documents
import Formwright.Proofs.Pointwise
import Mathlib.Data.List.Perm.Basic

/-
  Forms that are equal up to the order of properties (`Form.Alike`). The documents of such forms mirror
  each other (`mirrors_toValue`), and what mirrors the document of a form with declared fields is read
  as a form that is like it (`ofValue_mirrors`): every field is found under its name in whatever order
  the members stand, and only the properties of a control show the order in which they were found.
-/

namespace Formwright

/-! ## Fields -/

namespace Value

theorem IsString.atom {v : Value} : v.IsString → Json.Atom v := by
  rintro ⟨s, rfl⟩
  exact .text s

theorem IsBool.atom {v : Value} : v.IsBool → Json.Atom v := by
  rintro ⟨b, rfl⟩
  exact .bool b

theorem IsInt.atom {v : Value} : v.IsInt → Json.Atom v := by
  rintro ⟨n, rfl⟩
  exact .int n

theorem IsOptional.atom_string {v : Value} : v.IsOptional IsString → Json.Atom v := by
  rintro (rfl | h)
  · exact .null
  · exact h.atom

theorem IsOptional.atom_int {v : Value} : v.IsOptional IsInt → Json.Atom v := by
  rintro (rfl | h)
  · exact .null
  · exact h.atom

end Value

namespace Json

theorem eq_of_atoms {vs ws : List Value} (h : List.Forall₂ Mirrors vs ws) (ha : ∀ v ∈ vs, Atom v) :
    ws = vs := by
  have hboth := (List.forall₂_and_left vs ws).mpr ⟨ha, h⟩
  have heq : List.Forall₂ Eq vs ws := hboth.imp fun v w hvw => (hvw.2.eq_of_atom hvw.1).symm
  rw [List.forall₂_eq_eq_eq] at heq
  exact heq.symm

theorem eq_of_member_atoms {fields found : List (String × Value)} (h : List.Forall₂ Member fields found)
    (ha : ∀ f ∈ fields, Atom f.2) : found = fields := by
  have hboth := (List.forall₂_and_left fields found).mpr ⟨ha, h⟩
  have heq : List.Forall₂ Eq fields found :=
    hboth.imp fun f g hfg => Prod.ext hfg.2.1 (hfg.2.2.eq_of_atom hfg.1).symm
  rw [List.forall₂_eq_eq_eq] at heq
  exact heq.symm

theorem exists_entriesOf {es : List (Value × Value)} (h : ∀ e ∈ es, e.1.IsString) :
    ∃ fields, es = entriesOf fields := by
  induction es with
  | nil => exact ⟨[], rfl⟩
  | cons e es ih =>
    obtain ⟨⟨s, hs⟩, hes⟩ := List.forall_mem_cons.mp h
    obtain ⟨fields, rfl⟩ := ih hes
    exact ⟨(s, e.2) :: fields, congrArg (· :: entriesOf fields) (Prod.ext hs rfl)⟩

/-- A value from which the fields of a record can be read. -/
def Fields (fields : List (String × Value)) (w : Value) : Prop :=
  ∀ name v, (name, v) ∈ fields →
    ∃ x, Mirrors v x ∧ w.require name = .ok x ∧ ∀ default, w.getD name default = .ok x

theorem Mirrors.fields {fields : List (String × Value)} {w : Value} (h : Mirrors (.record fields) w)
    (hnames : (fields.map (·.1)).Nodup) : Fields fields w :=
  fun _ _ hv => h.member hnames hv

namespace Fields

variable {fields : List (String × Value)} {w : Value} (h : Fields fields w) (name : String)

include h

theorem require_atom {v : Value} (hv : (name, v) ∈ fields) (ha : Atom v) : w.require name = .ok v := by
  obtain ⟨x, hx, hrequire, -⟩ := h name v hv
  rw [hrequire, hx.eq_of_atom ha]

theorem getD_atom {v : Value} (hv : (name, v) ∈ fields) (ha : Atom v) (default : Value) :
    w.getD name default = .ok v := by
  obtain ⟨x, hx, -, hgetD⟩ := h name v hv
  rw [hgetD, hx.eq_of_atom ha]

/-- A list of values without parts is read as it is. -/
theorem atoms {vs : List Value} (hvs : (name, .ofList vs) ∈ fields) (ha : ∀ v ∈ vs, Atom v)
    (default : Value) : ∃ n, w.getD name default = .ok (.list n vs) := by
  obtain ⟨x, hx, -, hgetD⟩ := h name _ hvs
  obtain ⟨n, ws, rfl, hws⟩ := hx.exists_list
  exact ⟨n, by rw [hgetD, eq_of_atoms hws ha]⟩

/-- The parts of a list field are read one by one. -/
theorem parts {α : Type} {R : α → α → Prop} {write : α → Value} {read : Value → Except Fault α}
    {xs : List α} (hxs : (name, .ofList (xs.map write)) ∈ fields)
    (hread : ∀ x ∈ xs, ∀ w, Mirrors (write x) w → ∃ y, read w = .ok y ∧ R x y) :
    ∃ ys, Form.parts w name read = .ok ys ∧ List.Forall₂ R xs ys := by
  obtain ⟨x, hx, -, hgetD⟩ := h name _ hxs
  obtain ⟨n, ws, rfl, hws⟩ := hx.exists_list
  rw [List.forall₂_map_left_iff] at hws
  obtain ⟨ys, hys, hR⟩ : ∃ ys, ws.mapM read = .ok ys ∧ List.Forall₂ R xs ys := by
    clear hx hgetD hxs
    induction hws with
    | nil => exact ⟨[], rfl, .nil⟩
    | @cons x w xs ws hxw _ ih =>
      obtain ⟨hx, hxs⟩ := List.forall_mem_cons.mp hread
      obtain ⟨y, hy, hxy⟩ := hx w hxw
      obtain ⟨ys, hys, hR⟩ := ih hxs
      exact ⟨y :: ys, mapM_cons_eq_ok.mpr ⟨y, ys, hy, hys, rfl⟩, .cons hxy hR⟩
  refine ⟨ys, ?_, hR⟩
  unfold Form.parts
  rw [hgetD, ok_bind]
  exact hys

/-- Parts that are read as they are. -/
theorem parts_eq {α : Type} {write : α → Value} {read : Value → Except Fault α} {xs : List α}
    (hxs : (name, .ofList (xs.map write)) ∈ fields)
    (hread : ∀ x ∈ xs, ∀ w, Mirrors (write x) w → read w = .ok x) :
    Form.parts w name read = .ok xs := by
  obtain ⟨ys, hys, heq⟩ := h.parts (R := Eq) name hxs fun x hx w hw => ⟨x, hread x hx w hw, rfl⟩
  rw [List.forall₂_eq_eq_eq] at heq
  rw [hys, heq]

end Fields

end Json

namespace Form

open Json

theorem Choice.ofValue_mirrors {c : Choice} (h : c.Declared) {w : Value} (hw : Mirrors c.toValue w) :
    Choice.ofValue w = .ok c := by
  have hw := hw.fields (by simp)
  unfold Choice.ofValue
  rw [hw.require_atom "value" (by simp) h.value.atom, ok_bind,
    hw.getD_atom "display_text" (by simp) h.displayText.atom, ok_bind,
    hw.getD_atom "is_default" (by simp) h.isDefault.atom, ok_bind,
    hw.getD_atom "order" (by simp) h.order.atom]
  rfl

theorem SectionLink.ofValue_mirrors {l : SectionLink} (h : l.Declared) {w : Value}
    (hw : Mirrors l.toValue w) : SectionLink.ofValue w = .ok l := by
  have hw := hw.fields (by simp)
  unfold SectionLink.ofValue Value.get
  rw [hw.getD_atom "name" (by simp) h.name.atom_string, ok_bind,
    hw.getD_atom "binding" (by simp) h.binding.atom_string]
  rfl

theorem SectionLink.ofOptional_mirrors {l : Option SectionLink} (h : ∀ x ∈ l, x.Declared) {w : Value}
    (hw : Mirrors (l.elim .null (·.toValue)) w) : SectionLink.ofOptional w = .ok l := by
  cases l with
  | none => rw [hw.eq_of_atom .null]; rfl
  | some l =>
    obtain ⟨n, -, found, rfl, -⟩ := Mirrors.exists_record hw
    show some <$> SectionLink.ofValue _ = _
    rw [SectionLink.ofValue_mirrors (h l rfl) hw]
    rfl

theorem Section.ofValue_mirrors {s : Section} (h : s.Declared) {w : Value} (hw : Mirrors s.toValue w) :
    Section.ofValue w = .ok s := by
  have hw := hw.fields (by simp)
  unfold Section.ofValue Value.get
  rw [hw.require_atom "name" (by simp) h.name.atom, ok_bind,
    hw.getD_atom "type" (by simp) h.type.atom, ok_bind,
    hw.getD_atom "owner_control_id" (by simp) h.ownerControlId.atom_string, ok_bind,
    hw.getD_atom "start_row" (by simp) h.startRow.atom, ok_bind,
    hw.getD_atom "end_row" (by simp) h.endRow.atom, ok_bind,
    hw.getD_atom "control_count" (by simp) h.controlCount.atom]
  rfl

theorem Column.ofValue_mirrors {c : Column} (h : c.Declared) {w : Value} (hw : Mirrors c.toValue w) :
    Column.ofValue w = .ok c := by
  have hw := hw.fields (by simp)
  have htype := ControlType.named_name c.type
  unfold Column.ofValue Value.get
  rw [hw.require_atom "name" (by simp) h.name.atom, ok_bind,
    hw.getD_atom "display_name" (by simp) h.displayName.atom, ok_bind,
    hw.getD_atom "type" (by simp) (.text c.type.name), ok_bind, htype, ok_bind,
    hw.parts_eq "valid_values" (by simp) fun x hx _ => Choice.ofValue_mirrors (h.validValues x hx), ok_bind,
    hw.getD_atom "is_repeating" (by simp) h.isRepeating.atom, ok_bind,
    hw.getD_atom "repeating_section" (by simp) h.repeatingSection.atom_string, ok_bind,
    hw.getD_atom "is_conditional" (by simp) h.isConditional.atom, ok_bind,
    hw.getD_atom "conditional_on_field" (by simp) h.conditionalOnField.atom_string, ok_bind,
    hw.getD_atom "default_value" (by simp) h.defaultValue.atom_string]
  rfl

theorem DynamicSection.ofValue_mirrors {s : DynamicSection} (h : s.Declared) {w : Value}
    (hw : Mirrors s.toValue w) : DynamicSection.ofValue w = .ok s := by
  have hw := hw.fields (by simp)
  obtain ⟨n, hcontrols⟩ := hw.atoms "controls" (by simp) (fun v hv => (h.controls v hv).atom) (.ofList [])
  unfold DynamicSection.ofValue Value.get
  rw [hw.getD_atom "name" (by simp) h.name.atom, ok_bind,
    hw.getD_atom "mode" (by simp) h.mode.atom, ok_bind,
    hw.getD_atom "ctrl_id" (by simp) h.ctrlId.atom_string, ok_bind,
    hw.getD_atom "caption" (by simp) h.caption.atom_string, ok_bind,
    hw.getD_atom "condition" (by simp) h.condition.atom, ok_bind,
    hw.getD_atom "condition_field" (by simp) h.conditionField.atom, ok_bind,
    hw.getD_atom "condition_value" (by simp) h.conditionValue.atom, ok_bind,
    hcontrols, ok_bind, Value.elements_list, ok_bind,
    hw.getD_atom "is_visible" (by simp) h.isVisible.atom]
  rfl

theorem Metadata.ofValue_mirrors {m : Metadata} (h : m.Declared) {w : Value} (hw : Mirrors m.toValue w) :
    Metadata.ofValue w = .ok m := by
  obtain ⟨n, -, found, rfl, -⟩ := Mirrors.exists_record hw
  have hw := hw.fields (by simp)
  obtain ⟨k, hfields⟩ := hw.atoms "conditional_fields" (by simp)
    (fun v hv => (h.conditionalFields v hv).atom) (.ofList [])
  rw [Metadata.ofValue]
  · rw [hw.getD_atom "total_controls" (by simp) h.totalControls.atom, ok_bind,
      hw.getD_atom "total_sections" (by simp) h.totalSections.atom, ok_bind,
      hw.getD_atom "dynamic_section_count" (by simp) h.dynamicSections.atom, ok_bind,
      hw.getD_atom "repeating_section_count" (by simp) h.repeatingSections.atom, ok_bind,
      hfields, ok_bind, Value.elements_list]
    rfl
  · exact Value.noConfusion

/-! ## Properties in another order -/

/-- Controls that are equal up to the order of their properties. -/
def Control.Alike (c d : Control) : Prop := ∃ ps, ps.Perm c.properties ∧ d = { c with properties := ps }

def View.Alike (v w : View) : Prop :=
  ∃ cs, List.Forall₂ Control.Alike v.controls cs ∧ w = { v with controls := cs }

/-- Forms that are equal up to the order of properties. -/
def Alike (f g : Form) : Prop := ∃ vs, List.Forall₂ View.Alike f.views vs ∧ g = { f with views := vs }

/-- No property of the control is a double. -/
def Control.FloatFree (c : Control) : Prop := ∀ e ∈ c.properties, ∀ x, e.2 ≠ .float x

/-- A property is a value without parts, or a double. -/
theorem atom_iff_isProperty {v : Value} : Atom v ↔ v.IsProperty ∧ ∀ x, v ≠ .float x := by
  constructor
  · intro h
    cases h with
    | null => exact ⟨Or.inl rfl, fun _ => Value.noConfusion⟩
    | bool b => exact ⟨Or.inr (Or.inr (Or.inl ⟨b, rfl⟩)), fun _ => Value.noConfusion⟩
    | int n => exact ⟨Or.inr (Or.inr (Or.inr (Or.inl ⟨n, rfl⟩))), fun _ => Value.noConfusion⟩
    | text s => exact ⟨Or.inr (Or.inl ⟨s, rfl⟩), fun _ => Value.noConfusion⟩
  · rintro ⟨rfl | h | h | h | ⟨x, rfl⟩, hfloat⟩
    · exact .null
    · exact h.atom
    · exact h.atom
    · exact h.atom
    · exact absurd rfl (hfloat x)

/-- Properties are read in the order in which they are found. -/
theorem Control.exists_properties {c : Control} (h : c.Declared) (hfloat : c.FloatFree) {x : Value}
    (hx : Mirrors (.map 0 c.properties) x) : ∃ n ps, x = .map n ps ∧ ps.Perm c.properties := by
  have hatoms : ∀ e ∈ c.properties, Atom e.2 := fun e he =>
    atom_iff_isProperty.mpr ⟨h.properties e he, hfloat e he⟩
  obtain ⟨fields, hfields⟩ := exists_entriesOf h.keys
  rw [hfields] at hx hatoms ⊢
  obtain ⟨n, chosen, found, rfl, hperm, hmembers⟩ := hx.exists_record
  obtain rfl := eq_of_member_atoms hmembers fun f hf =>
    hatoms _ (List.mem_map_of_mem (hperm.mem_iff.mp hf))
  exact ⟨n, _, rfl, hperm.map _⟩

theorem Control.ofValue_mirrors {c : Control} (h : c.Declared) (hfloat : c.FloatFree) {w : Value}
    (hw : Mirrors c.toValue w) : ∃ d, Control.ofValue w = .ok d ∧ c.Alike d := by
  have hw := hw.fields (by simp)
  have htype := ControlType.named_name c.type
  obtain ⟨y, hy, -, hproperties⟩ := hw "properties" (.map 0 c.properties) (by simp)
  obtain ⟨n, ps, rfl, hperm⟩ := Control.exists_properties h hfloat hy
  obtain ⟨x, hx, -, hlink⟩ := hw "repeating_section" (c.sectionLink.elim .null (·.toValue)) (by simp)
  refine ⟨_, ?_, ps, hperm, rfl⟩
  unfold Control.ofValue Value.get
  rw [hlink, ok_bind, hw.require_atom "name" (by simp) h.name.atom, ok_bind,
    hw.getD_atom "type" (by simp) (.text c.type.name), ok_bind, htype, ok_bind,
    hw.getD_atom "source_type" (by simp) h.sourceType.atom, ok_bind,
    hw.getD_atom "label" (by simp) h.label.atom_string, ok_bind,
    hw.getD_atom "binding" (by simp) h.binding.atom_string, ok_bind,
    hw.getD_atom "grid_position" (by simp) h.gridPosition.atom_string, ok_bind,
    hw.parts_eq "data_options" (by simp) fun x hx _ => Choice.ofValue_mirrors (h.choices x hx), ok_bind,
    SectionLink.ofOptional_mirrors h.sectionLink hx, ok_bind,
    hw.getD_atom "parent_index" (by simp) h.parentIndex.atom_int, ok_bind,
    hw.getD_atom "depth" (by simp) h.depth.atom, ok_bind,
    hw.getD_atom "child_count" (by simp) h.childCount.atom, ok_bind,
    hproperties, ok_bind, Value.asEntries_map, ok_bind,
    hw.getD_atom "is_read_only" (by simp) h.isReadOnly.atom, ok_bind,
    hw.getD_atom "is_required" (by simp) h.isRequired.atom]
  rfl

theorem View.ofValue_mirrors {v : View} (h : v.Declared) (hfloat : ∀ c ∈ v.controls, c.FloatFree)
    {w : Value} (hw : Mirrors v.toValue w) : ∃ v', View.ofValue w = .ok v' ∧ v.Alike v' := by
  have hw := hw.fields (by simp)
  obtain ⟨cs, hcs, hlike⟩ := hw.parts "controls" (by simp)
    fun c hc _ => Control.ofValue_mirrors (h.controls c hc) (hfloat c hc)
  refine ⟨_, ?_, cs, hlike, rfl⟩
  unfold View.ofValue
  rw [hw.require_atom "name" (by simp) h.name.atom, ok_bind, hcs, ok_bind,
    hw.parts_eq "sections" (by simp) fun s hs _ => Section.ofValue_mirrors (h.sections s hs)]
  rfl

/-- What mirrors the document of a form is read as a form that is like it. -/
theorem ofValue_mirrors {f : Form} (h : f.Declared)
    (hfloat : ∀ v ∈ f.views, ∀ c ∈ v.controls, c.FloatFree) {w : Value} (hw : Mirrors f.toValue w) :
    ∃ f', ofValue w = .ok f' ∧ f.Alike f' := by
  have hw := hw.fields (by simp)
  obtain ⟨vs, hvs, hlike⟩ := hw.parts "views" (by simp)
    fun v hv _ => View.ofValue_mirrors (h.views v hv) (hfloat v hv)
  obtain ⟨x, hx, -, hmetadata⟩ := hw "metadata" f.metadata.toValue (by simp)
  obtain ⟨n, hwarnings⟩ := hw.atoms "source_warnings" (by simp)
    (fun v hv => (h.sourceWarnings v hv).atom) (.ofList [])
  refine ⟨_, ?_, vs, hlike, rfl⟩
  unfold ofValue Value.get
  rw [hw.require_atom "id" (by simp) h.id.atom, ok_bind,
    hw.getD_atom "name" (by simp) h.name.atom, ok_bind,
    hw.getD_atom "form_type" (by simp) h.formType.atom_string, ok_bind, hvs, ok_bind,
    hw.parts_eq "data_columns" (by simp) fun c hc _ => Column.ofValue_mirrors (h.columns c hc), ok_bind,
    hw.parts_eq "dynamic_sections" (by simp)
      fun s hs _ => DynamicSection.ofValue_mirrors (h.dynamicSections s hs), ok_bind,
    hmetadata, ok_bind, Metadata.ofValue_mirrors h.metadata hx, ok_bind,
    hwarnings, ok_bind, Value.elements_list]
  rfl

theorem Control.Alike.refl (c : Control) : c.Alike c := ⟨c.properties, .refl _, rfl⟩

theorem Control.Alike.symm {c d : Control} : c.Alike d → d.Alike c := by
  rintro ⟨ps, hps, rfl⟩
  exact ⟨c.properties, hps.symm, rfl⟩

theorem Control.Alike.trans {c d e : Control} : c.Alike d → d.Alike e → c.Alike e := by
  rintro ⟨ps, hps, rfl⟩ ⟨qs, hqs, rfl⟩
  exact ⟨qs, hqs.trans hps, rfl⟩

theorem View.Alike.refl (v : View) : v.Alike v :=
  ⟨v.controls, List.forall₂_same.mpr fun c _ => .refl c, rfl⟩

theorem View.Alike.symm {v w : View} : v.Alike w → w.Alike v := by
  rintro ⟨cs, hcs, rfl⟩
  exact ⟨v.controls, (hcs.imp fun _ _ => Control.Alike.symm).flip, rfl⟩

theorem View.Alike.trans {v w x : View} : v.Alike w → w.Alike x → v.Alike x := by
  rintro ⟨cs, hcs, rfl⟩ ⟨ds, hds, rfl⟩
  exact ⟨ds, forall₂_trans hcs hds Control.Alike.trans, rfl⟩

theorem Alike.refl (f : Form) : f.Alike f :=
  ⟨f.views, List.forall₂_same.mpr fun v _ => .refl v, rfl⟩

theorem Alike.symm {f g : Form} : f.Alike g → g.Alike f := by
  rintro ⟨vs, hvs, rfl⟩
  exact ⟨f.views, (hvs.imp fun _ _ => View.Alike.symm).flip, rfl⟩

theorem Alike.trans {f g h : Form} : f.Alike g → g.Alike h → f.Alike h := by
  rintro ⟨vs, hvs, rfl⟩ ⟨ws, hws, rfl⟩
  exact ⟨ws, forall₂_trans hvs hws View.Alike.trans, rfl⟩

/-! ## Documents of forms that are alike -/

theorem Control.mirrors_toValue {c d : Control} (hkeys : ∀ e ∈ c.properties, e.1.IsString)
    (h : c.Alike d) : Mirrors c.toValue d.toValue := by
  obtain ⟨ps, hperm, rfl⟩ := h
  obtain ⟨fields, hfields⟩ := exists_entriesOf hkeys
  obtain ⟨found, rfl⟩ := exists_entriesOf fun e he => hkeys e (hperm.mem_iff.mp he)
  have hproperties : Mirrors (.map 0 c.properties) (.map 0 (entriesOf found)) := by
    rw [hfields] at hperm ⊢
    exact .of_members 0 0 ((List.map_perm_map_iff entry_injective).mp hperm)
      (List.forall₂_same.mpr fun f _ => ⟨rfl, .refl f.2⟩)
  refine .of_members 0 0 (.refl _) ?_
  simp [Member, Mirrors.refl, hproperties]

theorem View.mirrors_toValue {v w : View}
    (hkeys : ∀ c ∈ v.controls, ∀ e ∈ c.properties, e.1.IsString) (h : v.Alike w) :
    Mirrors v.toValue w.toValue := by
  obtain ⟨cs, hcs, rfl⟩ := h
  have hcontrols : List.Forall₂ Mirrors (v.controls.map (·.toValue)) (cs.map (·.toValue)) := by
    rw [List.forall₂_map_left_iff, List.forall₂_map_right_iff]
    exact ((List.forall₂_and_left v.controls cs).mpr ⟨hkeys, hcs⟩).imp fun c d hcd =>
      Control.mirrors_toValue hcd.1 hcd.2
  refine .of_members 0 0 (.refl _) ?_
  simp [Member, Mirrors.refl, Mirrors.list, Value.ofList, hcontrols]

/-- The documents of forms that are alike mirror each other. -/
theorem mirrors_toValue {f g : Form} (h : f.Declared) (hlike : f.Alike g) :
    Mirrors f.toValue g.toValue := by
  obtain ⟨vs, hvs, rfl⟩ := hlike
  have hkeys : ∀ v ∈ f.views, ∀ c ∈ v.controls, ∀ e ∈ c.properties, e.1.IsString :=
    fun v hv c hc => ((h.views v hv).controls c hc).keys
  have hviews : List.Forall₂ Mirrors (f.views.map (·.toValue)) (vs.map (·.toValue)) := by
    rw [List.forall₂_map_left_iff, List.forall₂_map_right_iff]
    exact ((List.forall₂_and_left f.views vs).mpr ⟨hkeys, hvs⟩).imp fun v w hvw =>
      View.mirrors_toValue hvw.1 hvw.2
  refine .of_members 0 0 (.refl _) ?_
  simp [Member, Mirrors.refl, Mirrors.list, Value.ofList, hviews]

end Form

end Formwright
