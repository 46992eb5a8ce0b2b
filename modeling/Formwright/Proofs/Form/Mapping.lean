import Formwright.Proofs.Form.Flattening

/-
  What mapping guarantees. Whatever an analysis holds, the controls of its form have names that can
  be keys, source tokens that are texts or bytes, and whole numbers for depth and descendants
  (`mapped_of_ofAnalysis`). The rest of a form is as untyped as its source.
-/

namespace Formwright.Form

/-- What holds of every control of a mapped form. -/
structure Control.Mapped (c : Control) : Prop where
  name : c.name.unhashable? = none
  sourceType : c.sourceType.kind = .text ∨ c.sourceType.kind = .bytes
  depth : ∃ n, c.depth = .count n
  childCount : ∃ n, c.childCount = .count n

/-- A name is one that was given, or it is made. -/
theorem mem_nameFrom {index : Nat} {used : List String} {vs : List Value} {w : Value}
    (hw : w ∈ nameFrom index used vs) :
    (w ∈ vs ∧ w.isGiven = true) ∨ ∃ s, w = .text s := by
  induction vs generalizing index used with
  | nil => exact absurd hw List.not_mem_nil
  | cons v vs ih =>
    have hrest : ∀ {index used}, w ∈ nameFrom index used vs →
        (w ∈ v :: vs ∧ w.isGiven = true) ∨ ∃ s, w = .text s := fun hw =>
      (ih hw).imp_left (And.imp_left (List.mem_cons_of_mem v))
    rw [nameFrom] at hw
    split at hw
    · rename_i hv
      rcases List.mem_cons.mp hw with rfl | hw
      · exact Or.inl ⟨List.mem_cons_self, hv⟩
      · exact hrest hw
    · rcases List.mem_cons.mp hw with rfl | hw
      · exact Or.inr ⟨_, rfl⟩
      · exact hrest hw

theorem Control.mapped_of_ofEntries {es : List (Entry Source.Control)} {cs : List Control}
    (h : ofEntries es = .ok cs) : ∀ c ∈ cs, c.Mapped := by
  intro c hc
  obtain ⟨names, hnames, hcs⟩ := bind_eq_ok.mp h
  obtain ⟨i, hi⟩ := List.getElem?_of_mem hc
  obtain ⟨⟨e, name⟩, hpair, hce⟩ := getElem?_of_mapM_eq_ok hcs hi
  have hname : name ∈ names := (List.of_mem_zip (List.mem_of_getElem? hpair)).2
  rw [assignNames_eq_ok hnames] at hname
  have htype := exists_ofEntry_eq_ok.mp ⟨c, hce⟩
  obtain ⟨t, -, hce⟩ := bind_eq_ok.mp hce
  obtain rfl := Except.ok.inj hce
  refine ⟨?_, ?_, ⟨_, rfl⟩, ⟨_, rfl⟩⟩
  · rcases mem_nameFrom hname with ⟨hgiven, hsome⟩ | ⟨s, rfl⟩
    · exact exists_assignNames_eq_ok.mp ⟨names, hnames⟩ name hgiven hsome
    · rfl
  · show (e.label.type.orElse (.text "")).kind = _ ∨ _
    by_cases hgiven : e.label.type.isGiven = true
    · rw [Value.orElse_of_isGiven hgiven]
      exact htype hgiven
    · rw [Value.orElse_of_not_isGiven (Bool.eq_false_iff.mpr hgiven)]
      exact Or.inl rfl

/-- The parts of a form that an analysis is mapped to. -/
theorem ofAnalysis_eq_ok {a : Option Analysis} {f : Form} (h : ofAnalysis a = .ok f) :
    ∃ b d, a = some b ∧ b.definition = some d ∧ d.views ≠ [] ∧
      d.views.mapM View.ofSource = .ok f.views ∧ d.columns.mapM Column.ofSource = .ok f.columns ∧
      f.dynamicSections = d.dynamicSections.map .ofSource ∧ f.metadata = .ofSource d.metadata ∧
      f.id = idOf b d ∧ nameOf b f.id = .ok f.name ∧ f.sourceWarnings = b.warnings ∧
      f.formType = b.formType := by
  obtain _ | b := a
  · cases h
  obtain hd | ⟨d, hd⟩ : b.definition = none ∨ ∃ d, b.definition = some d := by
    cases b.definition with
    | none => exact Or.inl rfl
    | some d => exact Or.inr ⟨d, rfl⟩
  · simp [ofAnalysis, hd] at h
  · simp only [ofAnalysis, hd] at h
    split at h
    · cases h
    · rename_i hviews
      obtain ⟨name, hname, h⟩ := bind_eq_ok.mp h
      obtain ⟨views, hvs, h⟩ := bind_eq_ok.mp h
      obtain ⟨columns, hcols, h⟩ := bind_eq_ok.mp h
      obtain rfl := Except.ok.inj h
      refine ⟨b, d, rfl, hd, ?_, hvs, hcols, rfl, rfl, rfl, hname, rfl, rfl⟩
      rintro hnil
      rw [hnil] at hviews
      exact hviews rfl

theorem mapped_of_ofAnalysis {a : Option Analysis} {f : Form} (h : ofAnalysis a = .ok f) :
    ∀ c ∈ f.allControls, c.Mapped := by
  intro c hc
  obtain ⟨b, d, -, -, -, hvs, -⟩ := ofAnalysis_eq_ok h
  obtain ⟨v, hv, hcv⟩ := List.mem_flatMap.mp hc
  obtain ⟨i, hi⟩ := List.getElem?_of_mem hv
  obtain ⟨s, -, hs⟩ := getElem?_of_mapM_eq_ok hvs hi
  obtain ⟨cs, hcs, hs⟩ := bind_eq_ok.mp hs
  obtain rfl := Except.ok.inj hs
  exact Control.mapped_of_ofEntries (ofEntries_of_mapControls hcs) c hcv

end Formwright.Form
