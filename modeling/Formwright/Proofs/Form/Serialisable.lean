import Formwright.Analysis.Reader
import Formwright.Form.Text
import Formwright.Proofs.Analysis.Declared
import Formwright.Proofs.Json.Expressible

/-
  Which mapped forms have a JSON text. Mapping turns the properties of controls into simple values and
  makes texts, numbers and truth values of its own, but most values it passes on as the source gave
  them, and where a value is not given a default stands for it. The values that are passed on are the
  kept ones (`Analysis.kept`). A form has a JSON text exactly when all of these can be written
  (`toJson_of_yaml`), and that is not always so: a document may hold dates, bytes and sets, and maps
  whose keys have no order (`toJson_dated`).
-/

namespace Formwright

/-- The value, unless a default stands for it. -/
def Value.ifGiven (v : Value) : List Value := if v.isGiven then [v] else []

/-! ## Kept values -/

namespace Source

/-- The values of a choice that mapping passes on. -/
def Choice.kept (c : Choice) : List Value := c.value.ifGiven ++ [c.displayText] ++ c.order.ifGiven

/-- The values of a control that mapping passes on; no property is among them. -/
def Control.kept (c : Control) : List Value :=
  c.name.ifGiven ++ c.type.ifGiven ++ [c.label, c.binding, c.gridPosition] ++
    c.choices.flatMap Choice.kept ++
    if c.inRepeatingSection then [c.sectionName, c.sectionBinding] else []

def Section.kept (s : Section) : List Value :=
  s.name.ifGiven ++ s.type.ifGiven ++ [s.ctrlId] ++ s.startRow.ifGiven ++ s.endRow.ifGiven

def View.kept (v : View) : List Value :=
  v.name.ifGiven ++ v.controls.labels.flatMap Control.kept ++ v.sections.flatMap Section.kept

def Column.kept (c : Column) : List Value :=
  c.name.ifGiven ++ c.displayName.ifGiven ++ c.validValues.flatMap Choice.kept ++
    [c.repeatingSection, c.conditionalOnField, c.defaultValue]

def DynamicSection.kept (s : DynamicSection) : List Value :=
  s.mode.ifGiven ++ [s.ctrlId, s.caption] ++ s.condition.ifGiven ++ s.conditionField.ifGiven ++
    s.conditionValue.ifGiven ++ s.controls

def Metadata.kept (m : Metadata) : List Value :=
  m.totalControls.ifGiven ++ m.totalSections.ifGiven ++ m.dynamicSections.ifGiven ++
    m.repeatingSections.ifGiven ++ m.conditionalFields

def Definition.kept (d : Definition) : List Value :=
  d.views.flatMap View.kept ++ d.columns.flatMap Column.kept ++
    d.dynamicSections.flatMap DynamicSection.kept ++ d.metadata.toList.flatMap Metadata.kept

end Source

namespace Analysis

/-- The values of an analysis that mapping passes on. Without a definition nothing is mapped. -/
def kept (a : Analysis) : List Value :=
  match a.definition with
  | none => []
  | some d => d.fileName.ifGiven ++ a.formName.ifGiven ++ [a.formType] ++ d.kept ++ a.warnings

/-- An analysis that a YAML text is loaded as. No integer in the text has too many digits to be
written again. -/
def LoadedFrom (a : Analysis) (text : String) : Prop :=
  ∃ doc, Yaml.read text = .ok doc ∧ doc.integersFit = true ∧ read doc = .ok a

end Analysis

/-! ## Simple values -/

namespace Form

open Json

section
variable {style : Style}

/-- A value with a default for it can be written when it can be written where it is given. -/
theorem expressible_orElse_iff {v w : Value} (hw : Expressible style w) :
    Expressible style (v.orElse w) ↔ AllExpressible style v.ifGiven := by
  unfold Value.orElse Value.ifGiven
  split
  · exact List.forall_mem_singleton.symm
  · exact ⟨fun _ => allExpressible_nil, fun _ => hw⟩

@[simp] theorem expressible_orText_iff {v : Value} (s : String) :
    Expressible style (v.orElse (.text s)) ↔ AllExpressible style v.ifGiven :=
  expressible_orElse_iff (.text s)

@[simp] theorem expressible_orInt_iff {v : Value} (n : Int) :
    Expressible style (v.orElse (.int n)) ↔ AllExpressible style v.ifGiven :=
  expressible_orElse_iff (.int n)

theorem allExpressible_ifGiven {v : Value} (h : Expressible style v) :
    AllExpressible style v.ifGiven := by
  unfold Value.ifGiven
  split
  · exact List.forall_mem_singleton.mpr h
  · exact allExpressible_nil

/-! ## Properties -/

/-- Entries that can be written in every style: simple values under texts. -/
def Plain (style : Style) (es : List (Value × Value)) : Prop :=
  ∀ e ∈ es, e.1.kind = .text ∧ Expressible style e.2

theorem expressible_coerce (v : Value) : Expressible style (coerce v) := by
  cases v <;> constructor

theorem Plain.put {es : List (Value × Value)} (h : Plain style es) (name : String) {v : Value}
    (hv : Expressible style v) : Plain style (Value.put es (.text name) v) := by
  intro e he
  rcases Value.mem_put he with hold | ⟨hvalue, hkey | ⟨d, hd, hkey⟩⟩
  · exact h e hold
  · exact ⟨hkey ▸ rfl, hvalue ▸ hv⟩
  · exact ⟨hkey ▸ (h d hd).1, hvalue ▸ hv⟩

theorem Plain.settle {es : List (Value × Value)} (h : Plain style es) (flag : String × String) :
    Plain style (Form.settle es flag) := by
  unfold Form.settle
  split
  · exact h.put _ (.bool _)
  · exact h.put _ (.bool _)
  · exact h

/-- Properties are simple values under texts, whatever the source has. -/
theorem plain_mapProperties (es : List (Value × Value)) : Plain style (mapProperties es) := by
  have hfold : ∀ acc, Plain style acc → Plain style
      (es.foldl (fun acc e => Value.put acc (.text e.1.display) (coerce e.2)) acc) := by
    induction es with
    | nil => exact fun _ hacc => hacc
    | cons e es ih => exact fun acc hacc => ih _ (hacc.put _ (expressible_coerce e.2))
  exact ((hfold [] (List.forall_mem_nil _)).settle _).settle _

@[simp] theorem expressible_mapProperties (es : List (Value × Value)) :
    Expressible style (.map 0 (mapProperties es)) := by
  have h : Plain style (mapProperties es) := plain_mapProperties es
  refine (expressible_map_of_texts fun e he => (h e he).1).mpr ?_
  exact allExpressible_map_iff.mpr fun e he => (h e he).2

/-! ## Parts of forms -/

@[simp] theorem Choice.expressible_iff (c : Source.Choice) :
    Expressible style (Choice.ofSource c).toValue ↔ AllExpressible style c.kept := by
  have hdisplay : AllExpressible style c.value.ifGiven →
      (Expressible style (Choice.ofSource c).displayText ↔ Expressible style c.displayText) := by
    intro hvalue
    have hnull : Expressible style (c.value.orElse (.text "")) := (expressible_orText_iff "").mpr hvalue
    unfold Choice.ofSource
    cases c.displayText <;> first | exact Iff.rfl | exact ⟨fun _ => .null, fun _ => hnull⟩
  have hfields : Expressible style (Choice.ofSource c).toValue ↔
      AllExpressible style c.value.ifGiven ∧ Expressible style (Choice.ofSource c).displayText ∧
        AllExpressible style c.order.ifGiven := by
    simp [Choice.toValue, Choice.ofSource]
  have hkept : AllExpressible style c.kept ↔ AllExpressible style c.value.ifGiven ∧
      Expressible style c.displayText ∧ AllExpressible style c.order.ifGiven := by
    simp [Source.Choice.kept]
  rw [hfields, hkept]
  exact and_congr_right fun hvalue => and_congr_left fun _ => hdisplay hvalue

@[simp] theorem Section.expressible_iff (s : Source.Section) :
    Expressible style (Section.ofSource s).toValue ↔ AllExpressible style s.kept := by
  simp [Section.toValue, Section.ofSource, Source.Section.kept]

@[simp] theorem DynamicSection.expressible_iff (s : Source.DynamicSection) :
    Expressible style (DynamicSection.ofSource s).toValue ↔ AllExpressible style s.kept := by
  -- the name is the control id where that is given, so it can be written when the id can
  by_cases hctrl : Expressible style s.ctrlId
  · simp [DynamicSection.toValue, DynamicSection.ofSource, Source.DynamicSection.kept, hctrl,
      allExpressible_ifGiven hctrl]
  · simp [DynamicSection.toValue, DynamicSection.ofSource, Source.DynamicSection.kept, hctrl]

@[simp] theorem Metadata.expressible_iff (m : Option Source.Metadata) :
    Expressible style (Metadata.ofSource m).toValue ↔
      AllExpressible style (m.toList.flatMap Source.Metadata.kept) := by
  cases m with
  | none => simp [Metadata.toValue, Metadata.ofSource]
  | some m => simp [Metadata.toValue, Metadata.ofSource, Source.Metadata.kept]

theorem Column.expressible_iff {c : Source.Column} {w : Column} (h : Column.ofSource c = .ok w) :
    Expressible style w.toValue ↔ AllExpressible style c.kept := by
  obtain ⟨t, -, h⟩ := bind_eq_ok.mp h
  obtain rfl := Except.ok.inj h
  by_cases hname : AllExpressible style c.name.ifGiven
  · have hdisplay : Expressible style (c.displayName.orElse (c.name.orElse (.text ""))) ↔
        AllExpressible style c.displayName.ifGiven :=
      expressible_orElse_iff ((expressible_orText_iff "").mpr hname)
    simp [Column.toValue, Source.Column.kept, hdisplay]
  · simp [Column.toValue, Source.Column.kept, hname]

/-! ## Controls -/

/-- A name is made where none is given, and any other is passed on. -/
theorem expressible_nameFrom_iff (index : Nat) (used : List String) (vs : List Value) :
    ∀ p ∈ vs.zip (nameFrom index used vs),
      (Expressible style p.2 ↔ AllExpressible style p.1.ifGiven) := by
  induction vs generalizing index used with
  | nil => exact List.forall_mem_nil _
  | cons v vs ih =>
    rw [nameFrom]
    split
    · rename_i hgiven
      refine List.forall_mem_cons.mpr ⟨?_, ih (index + 1) used⟩
      simp [Value.ifGiven, hgiven]
    · rename_i hmissing
      refine List.forall_mem_cons.mpr ⟨?_, ih (index + 1) _⟩
      simp [Value.ifGiven, hmissing]

@[simp] theorem SectionLink.expressible_iff (c : Source.Control) :
    Expressible style ((SectionLink.ofSource c).elim .null (·.toValue)) ↔
      AllExpressible style (if c.inRepeatingSection then [c.sectionName, c.sectionBinding] else []) := by
  unfold SectionLink.ofSource
  cases c.inRepeatingSection <;> simp [SectionLink.toValue]

theorem Control.expressible_iff {e : Entry Source.Control} {name : Value} {c : Control}
    (h : ofEntry e name = .ok c)
    (hname : Expressible style name ↔ AllExpressible style e.label.name.ifGiven) :
    Expressible style c.toValue ↔ AllExpressible style e.label.kept := by
  obtain ⟨t, -, h⟩ := bind_eq_ok.mp h
  obtain rfl := Except.ok.inj h
  have hparent : Expressible style (e.parent.elim .null Value.count) := by
    cases e.parent <;> simp
  simp [Control.toValue, Source.Control.kept, hname, hparent]

theorem Control.allExpressible_iff {es : List (Entry Source.Control)} {cs : List Control}
    (h : ofEntries es = .ok cs) :
    (∀ c ∈ cs, Expressible style c.toValue) ↔ ∀ e ∈ es, AllExpressible style e.label.kept := by
  obtain ⟨names, hnames, hcs⟩ := bind_eq_ok.mp h
  have hlength : names.length = es.length := by
    rw [assignNames_eq_ok hnames, length_nameFrom, List.length_map]
  have hname : ∀ p ∈ es.zip names,
      (Expressible style p.2 ↔ AllExpressible style p.1.label.name.ifGiven) := by
    intro p hp
    have hmem : (p.1.label.name, p.2) ∈ (es.map (·.label.name)).zip names := by
      rw [List.zip_map_left]
      exact List.mem_map_of_mem hp
    rw [assignNames_eq_ok hnames] at hmem
    exact expressible_nameFrom_iff _ _ _ _ hmem
  calc (∀ c ∈ cs, Expressible style c.toValue)
      ↔ ∀ p ∈ es.zip names, AllExpressible style p.1.label.kept :=
        forall_mem_iff_of_mapM_eq_ok (fun p hp c hc => expressible_iff hc (hname p hp)) hcs
    _ ↔ ∀ e ∈ (es.zip names).map Prod.fst, AllExpressible style e.label.kept := by
        rw [List.forall_mem_map]
    _ ↔ ∀ e ∈ es, AllExpressible style e.label.kept := by
        rw [List.map_fst_zip (Nat.le_of_eq hlength.symm)]

/-! ## Forms -/

theorem View.expressible_iff {v : Source.View} {w : View} (h : View.ofSource v = .ok w) :
    Expressible style w.toValue ↔ AllExpressible style v.kept := by
  obtain ⟨cs, hcs, h⟩ := bind_eq_ok.mp h
  obtain rfl := Except.ok.inj h
  have hcontrols : (∀ c ∈ cs, Expressible style c.toValue) ↔
      ∀ a ∈ v.controls.labels, AllExpressible style a.kept := by
    rw [Control.allExpressible_iff (ofEntries_of_mapControls hcs), Forest.flatten,
      ← Forest.map_label_flattenAt v.controls none 0 0, List.forall_mem_map]
  simp [View.toValue, Source.View.kept, hcontrols]

/-- The id of a form is its file name or its form name, and its name is its form name or a text. -/
theorem expressible_id_and_name_iff {a : Analysis} {d : Source.Definition} {name : Value}
    (h : nameOf a (idOf a d) = .ok name) : Expressible style (idOf a d) ∧ Expressible style name ↔
      AllExpressible style d.fileName.ifGiven ∧ AllExpressible style a.formName.ifGiven := by
  unfold nameOf at h
  split at h
  · rename_i hgiven
    obtain rfl := Except.ok.inj h
    have hform : AllExpressible style a.formName.ifGiven ↔ Expressible style a.formName := by
      simp [Value.ifGiven, hgiven]
    rw [hform]
    refine and_congr_left fun hname => ?_
    rw [idOf, Value.orElse_of_isGiven hgiven, expressible_orElse_iff hname]
  · rename_i hmissing
    obtain ⟨stem, -, h⟩ := bind_eq_ok.mp h
    obtain rfl := Except.ok.inj h
    have hform : AllExpressible style a.formName.ifGiven := by simp [Value.ifGiven, hmissing]
    have hid : Expressible style (idOf a d) ↔ AllExpressible style d.fileName.ifGiven :=
      expressible_orElse_iff ((expressible_orText_iff defaultFormName).mpr hform)
    rw [hid]
    refine and_congr_right fun hfile => iff_of_true ?_ hform
    exact (expressible_orElse_iff (hid.mpr hfile)).mpr (allExpressible_ifGiven (.text stem))

/-- The document of a mapped form can be written when the kept values can. -/
theorem expressible_toValue_iff {a : Analysis} {f : Form} (h : ofAnalysis (some a) = .ok f) :
    Expressible style f.toValue ↔ AllExpressible style a.kept := by
  obtain ⟨b, d, hb, hd, -, hviews, hcolumns, hsections, hmetadata, hid, hname, hwarnings, htype⟩ :=
    ofAnalysis_eq_ok h
  obtain rfl := Option.some.inj hb
  rw [hid] at hname
  have hvs : (∀ w ∈ f.views, Expressible style w.toValue) ↔
      ∀ v ∈ d.views, AllExpressible style v.kept :=
    forall_mem_iff_of_mapM_eq_ok (fun _ _ _ hw => View.expressible_iff hw) hviews
  have hcs : (∀ w ∈ f.columns, Expressible style w.toValue) ↔
      ∀ c ∈ d.columns, AllExpressible style c.kept :=
    forall_mem_iff_of_mapM_eq_ok (fun _ _ _ hw => Column.expressible_iff hw) hcolumns
  calc Expressible style f.toValue
      ↔ (Expressible style (idOf a d) ∧ Expressible style f.name) ∧
          AllExpressible style ([a.formType] ++ d.kept ++ a.warnings) := by
        simp [toValue, hid, hsections, hmetadata, hwarnings, htype, Source.Definition.kept, hvs, hcs,
          and_assoc]
    _ ↔ (AllExpressible style d.fileName.ifGiven ∧ AllExpressible style a.formName.ifGiven) ∧
          AllExpressible style ([a.formType] ++ d.kept ++ a.warnings) := by
        rw [expressible_id_and_name_iff hname]
    _ ↔ AllExpressible style a.kept := by simp [Analysis.kept, hd, and_assoc]

end

/-- A form that is mapped from a YAML text has a JSON text exactly when every value that mapping passes
on can be written. The properties of controls are not among these values: they never stand in the way. -/
theorem toJson_of_yaml (text : String) : ∀ (a : Analysis) (f : Form), a.LoadedFrom text →
    ofAnalysis (some a) = .ok f →
      ((∃ s, f.toJson = .ok s) ↔ ∀ v ∈ a.kept, Expressible .canonical v) := by
  intro a f _ hf
  exact exists_write_eq_ok_iff.trans (expressible_toValue_iff hf)

/-! ## Texts with and without a JSON text -/

/-- Whether a YAML text is loaded and mapped to a form with a property. -/
def mapsTo (text : String) (p : Form → Bool) : Bool :=
  match Yaml.read text with
  | .error _ => false
  | .ok doc =>
    match Analysis.read doc with
    | .error _ => false
    | .ok a =>
      match ofAnalysis (some a) with
      | .error _ => false
      | .ok f => doc.integersFit && p f

theorem exists_of_mapsTo {text : String} {p : Form → Bool} (h : mapsTo text p = true) :
    ∃ a f, a.LoadedFrom text ∧ ofAnalysis (some a) = .ok f ∧ p f = true := by
  unfold mapsTo at h
  split at h
  · cases h
  · rename_i doc hdoc
    split at h
    · cases h
    · rename_i a ha
      split at h
      · cases h
      · rename_i f hf
        rw [Bool.and_eq_true] at h
        exact ⟨a, f, ⟨doc, hdoc, h.1, ha⟩, hf, h.2⟩

/-- An analysis with an integer as label and a map as condition, and with a date among the
properties. -/
def mixedText : String := "\n".intercalate [
  "FormName: F",
  "FormDefinition:",
  "  Views:",
  "  - Controls:",
  "    - Label: 7",
  "      Properties:",
  "        Since: 2024-01-01",
  "  DynamicSections:",
  "  - Condition:",
  "      any: [a]"]

theorem toJson_of_yaml_mixed : ∃ a f, a.LoadedFrom mixedText ∧ ofAnalysis (some a) = .ok f ∧
    (∀ v ∈ a.kept, Expressible .canonical v) ∧ ∃ s, f.toJson = .ok s := by
  have hmaps : mapsTo mixedText (fun f => f.toJson.isOk) = true := by decide +kernel
  obtain ⟨a, f, hloaded, hf, hok⟩ := exists_of_mapsTo hmaps
  have hjson : ∃ s, f.toJson = .ok s := by
    cases hs : f.toJson with
    | error e =>
      rw [hs] at hok
      cases hok
    | ok s => exact ⟨s, rfl⟩
  exact ⟨a, f, hloaded, hf, (toJson_of_yaml mixedText a f hloaded hf).mp hjson, hjson⟩

/-- An analysis with a date as the default of a column. -/
def datedText : String := "\n".intercalate [
  "FormName: F",
  "FormDefinition:",
  "  Views:",
  "  - ViewName: v",
  "  Data:",
  "  - ColumnName: c",
  "    DefaultValue: 2024-01-01"]

/-- A form that was mapped from a text has no JSON text, as its column has a date as default. -/
theorem toJson_dated : ∃ a f, a.LoadedFrom datedText ∧ ofAnalysis (some a) = .ok f ∧
    f.toJson = .error (.misuse (.unserialisable .date)) := by
  have hmaps : mapsTo datedText
      (fun f => decide (f.toJson = .error (.misuse (.unserialisable .date)))) = true := by
    decide +kernel
  obtain ⟨a, f, hloaded, hf, herror⟩ := exists_of_mapsTo hmaps
  exact ⟨a, f, hloaded, hf, of_decide_eq_true herror⟩

end Form

end Formwright
