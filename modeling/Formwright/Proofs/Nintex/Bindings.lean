import Formwright.Proofs.Identifier
import Formwright.Proofs.Nintex.References
import Formwright.Proofs.Nintex.Switches

/-
  Which controls of a document are bound to variables. The controls stand in the order of the pages and
  rows (`inOrder`), and in this order there is one variable for each that is neither presentation nor a
  plain section; such a control and its variable name each other, and no other control names one. The
  ids of the variables differ, whatever the names of the controls: each is the first candidate behind
  the name that is wanted which no variable before it has (`Bound`). The workflow of the form stores
  these variables (`Stores`).
-/

namespace Formwright.Nintex

/-! ## The order of a document -/

/-- The controls of a form at their places, page after page and row after row. -/
def inOrder (f : Form) : List Placed :=
  f.views.zipIdx.flatMap fun v =>
    (v.1.controls.zipIdx.mergeSort fun x y => rowOf x.1 ≤ rowOf y.1).map fun x =>
      ⟨v.2 + 1, x.2, rowOf x.1, x.1⟩

/-- The drafts of a view stand for its controls, row after row. -/
theorem map_placed_draftPage {o : Options} {page : Nat} {v : Form.View}
    {rows : List (Nat × List Draft)} (h : draftPage o page v = .ok rows) :
    (rows.flatMap (·.2)).map (·.placed) =
      (v.controls.zipIdx.mergeSort fun x y => rowOf x.1 ≤ rowOf y.1).map fun x =>
        ⟨page, x.2, rowOf x.1, x.1⟩ := by
  obtain ⟨ps, hps, -, hdrafts, -⟩ := draftPage_eq_ok h
  have hplaced : ∀ p d, draft o v.controls.length p = .ok d → id p = d.placed :=
    fun p d hd => (draft_eq_ok hd).placed.symm
  rw [← map_eq_of_mapM_eq_ok hplaced hdrafts, List.map_id, ← map_mergeSort_placeAll hps, List.map_map]
  refine ((List.map_congr_left fun p hp => ?_).trans (List.map_id _)).symm
  obtain ⟨hpage, hrow, -⟩ := mem_zipIdx_of_mem_placeAll hps (List.mem_mergeSort.mp hp)
  rw [Function.comp_apply, ← hrow, ← hpage]
  rfl

section
variable {f : Form} {o : Options} {rss : List (List (Nat × List Draft))} {ds : List Draft}
  {d : Document}

namespace Built

/-- The drafts stand for the controls of the form, in the order of the document. -/
theorem map_placed (h : Built f o rss ds d) : ds.map (·.placed) = inOrder f := by
  have hviews : ∀ (vs : List (Form.View × Nat)) (rss : List (List (Nat × List Draft))),
      vs.mapM (fun p => draftPage o (p.2 + 1) p.1) = .ok rss →
      (rss.flatten.flatMap (·.2)).map (·.placed) = vs.flatMap fun v =>
        (v.1.controls.zipIdx.mergeSort fun x y => rowOf x.1 ≤ rowOf y.1).map fun x =>
          ⟨v.2 + 1, x.2, rowOf x.1, x.1⟩ := by
    intro vs
    induction vs with
    | nil =>
      rintro rss hrss
      obtain rfl := Except.ok.inj hrss
      rfl
    | cons v vs ih =>
      intro rss hrss
      obtain ⟨rows, rest, hrows, hrest, rfl⟩ := mapM_cons_eq_ok.mp hrss
      rw [List.flatten_cons, List.flatMap_append, List.map_append, map_placed_draftPage hrows,
        ih rest hrest, List.flatMap_cons]
  rw [h.drafts]
  exact hviews _ _ h.drafted

/-- A draft is made of the control that it stands for. -/
theorem isOf_placed (h : Built f o rss ds d) {x : Draft} (hx : x ∈ ds) :
    ∃ count, x.IsOf o count x.placed := by
  obtain ⟨k, v, ps, p, -, -, -, hxp⟩ := h.exists_of_mem_drafts hx
  exact ⟨v.controls.length, hxp.placed ▸ hxp⟩

/-- The document shows the controls of the form in their order. -/
theorem shown (h : Built f o rss ds d) :
    List.Forall₂ (fun c p => c.Shows p.page (p.control, p.index)) d.controls (inOrder f) := by
  rw [h.controls_eq, ← h.map_placed, List.forall₂_map_left_iff, List.forall₂_map_right_iff,
    List.forall₂_same]
  intro x hx
  obtain ⟨count, hxo⟩ := h.isOf_placed hx
  exact hxo.shows _

/-- The controls of the document with what they show. -/
theorem zip_inOrder (h : Built f o rss ds d) :
    d.controls.zip (inOrder f) = ds.map fun x => (x.finish d.formVariables, x.placed) := by
  rw [h.controls_eq, ← h.map_placed, List.zip_map']

end Built

end

/-! ## Bindings -/

/-- The variables of the document of a form, and the controls that are bound to them. -/
structure Bound (f : Form) (lead : String) (d : Document) : Prop where
  /-- The document shows the controls of the form in their order, each under its own id. -/
  shown : List.Forall₂ (fun c p => c.Shows p.page (p.control, p.index)) d.controls (inOrder f)
  controlIds : (d.controls.map (·.id)).Nodup
  /-- In this order, there is a variable for each that is neither presentation nor a plain section.
  It names its control, and its control names it. -/
  bound : List.Forall₂ (fun v (x : Control × Placed) => v.controlId = x.1.id ∧
      x.1.variableId = some v.id ∧ v.name = x.1.name ∧ v.dataType = variableType x.2.control.type)
    d.formVariables ((d.controls.zip (inOrder f)).filter fun x =>
      !x.2.control.type.isPresentation && x.2.control.type != .plainSection)
  /-- No other control names a variable. -/
  unbound : ∀ x ∈ d.controls.zip (inOrder f),
    x.2.control.type.isPresentation = true ∨ x.2.control.type = .plainSection → x.1.variableId = none
  /-- The ids of the variables differ. -/
  variableIds : (d.formVariables.map (·.id)).Nodup
  /-- Behind the lead, each has a text of small letters, digits and underscores. -/
  shaped : ∀ v ∈ d.formVariables, ∃ t : String, v.id = lead ++ t ∧ Identifier.IsVariableStem t.toList
  /-- The search for an id ends with the first candidate that no variable before has. -/
  found : ∀ (i : Nat) (v : Variable), d.formVariables[i]? = some v →
    ∃ wanted, Identifier.variableNameOf v.name lead = .ok wanted ∧
      Found ((d.formVariables.take i).map (·.id)) wanted v.id

/-- A product whose workflow, if the switch asks for one, stores the variables of the document. -/
structure Stores (o : Options) (p : Product) (d : Document) : Prop where
  switched : (∃ text, ("workflow-definition.json", text) ∈ p.artifacts) ↔ o.workflow.isGiven = true
  /-- The workflow has one action, which lists the ids of the variables in their order. -/
  listed : ∀ text, ("workflow-definition.json", text) ∈ p.artifacts →
    ∃ flow action, Json.write .readable flow = .ok text ∧
      flow.require "actions" = .ok (.ofList [action]) ∧
      action.require "variables" = .ok (.ofTexts (d.formVariables.map (·.id)))

/-! ## One draft -/

section
variable {o : Options} {count : Nat} {p : Placed} {x : Draft}

/-- A draft asks for a variable when its control holds data. -/
theorem Draft.IsOf.isSome_variableName (h : x.IsOf o count p) :
    x.variableName.isSome = p.control.type.isDataBearing := by
  have hwanted := h.variableName
  unfold wantedVariable at hwanted
  split at hwanted
  · rename_i hdata
    obtain ⟨name, -, hname⟩ := bind_eq_ok.mp hwanted
    rw [← Except.ok.inj hname, hdata]
    rfl
  · rename_i hdata
    rw [← Except.ok.inj hwanted]
    simpa using hdata

theorem Draft.IsOf.variableNameOf (h : x.IsOf o count p) {lead wanted : String}
    (hlead : o.variableLead = .text lead) (hwanted : x.variableName = some wanted) :
    Identifier.variableNameOf x.control.name lead = .ok wanted := by
  have hname := h.variableName
  unfold wantedVariable at hname
  split at hname
  · obtain ⟨name, hok, hname⟩ := bind_eq_ok.mp hname
    obtain rfl : name = wanted := Option.some.inj ((Except.ok.inj hname).trans hwanted)
    rwa [hlead, Value.display_text, ← h.name] at hok
  · rw [hwanted] at hname
    cases hname

end

/-- A candidate behind the variable name of a control is the lead with a proper text. -/
theorem exists_stem_of_candidate {name : Value} {lead wanted : String} (k : Nat)
    (h : Identifier.variableNameOf name lead = .ok wanted) :
    ∃ t : String, variableCandidate wanted k = lead ++ t ∧ Identifier.IsVariableStem t.toList := by
  obtain ⟨s, -, rfl⟩ := map_eq_ok.mp h
  have hstem := Identifier.isVariableStem_variableStem s
  obtain _ | k := k
  · exact ⟨_, rfl, hstem⟩
  · refine ⟨Identifier.variableStem s ++ ("_" ++ (k + 2).repr), ?_, ?_⟩
    · rw [variableCandidate_succ, Identifier.variableName, String.append_assoc]
    · rw [String.toList_append]
      refine hstem.append fun c hc => ?_
      rw [String.toList_append] at hc
      rcases List.mem_append.mp hc with hc | hc
      · obtain rfl : c = '_' := by simpa using hc
        decide
      · exact Identifier.isVariableChar_of_isDigit (Text.isDigit_of_mem_repr c hc)

/-! ## All drafts -/

section
variable {f : Form} {o : Options} {rss : List (List (Nat × List Draft))} {ds : List Draft}
  {d : Document} {lead : String}

namespace Built

/-- The drafts that ask for a variable are those of controls that hold data. -/
theorem filter_isSome (h : Built f o rss ds d) : (ds.filter (·.variableName.isSome)) =
    ds.filter fun x => x.placed.control.type.isDataBearing := by
  refine List.filter_congr fun x hx => ?_
  obtain ⟨count, hxo⟩ := h.isOf_placed hx
  exact hxo.isSome_variableName

/-- A draft that asks for no variable has none. -/
theorem variableId_eq_none (h : Built f o rss ds d) {x : Draft} (hx : x ∈ ds)
    (hnone : x.variableName = none) : (x.finish d.formVariables).variableId = none := by
  show (d.formVariables.find? fun v => v.controlId == x.control.id).map (·.id) = none
  rw [Option.map_eq_none_iff, List.find?_eq_none]
  intro v hv heq
  have hmem : v.controlId ∈ d.formVariables.map (·.controlId) := List.mem_map_of_mem hv
  rw [h.formVariables, map_controlId_variablesFrom] at hmem
  obtain ⟨y, hy, hyv⟩ := List.mem_map.mp hmem
  obtain ⟨hyd, hsome⟩ := List.mem_filter.mp hy
  have hsame : y = x := List.inj_on_of_nodup_map h.nodup_draftIds hyd hx (hyv.trans (eq_of_beq heq))
  rw [hsame, hnone] at hsome
  cases hsome

/-- The variables and their controls name each other, in the order of the drafts. -/
theorem forall₂_drafts (h : Built f o rss ds d) :
    List.Forall₂ (fun v x => v.controlId = x.control.id ∧
        (x.finish d.formVariables).variableId = some v.id ∧ v.name = x.control.name ∧
        v.dataType = variableType x.placed.control.type)
      d.formVariables (ds.filter (·.variableName.isSome)) := by
  have hall : List.Forall₂ (fun v x => v ∈ d.formVariables ∧ v.controlId = x.control.id ∧
      v.name = x.control.name ∧ v.dataType = variableType x.placed.control.type)
      d.formVariables (ds.filter (·.variableName.isSome)) := by
    refine (List.forall₂_and_left _ _).mpr ⟨fun v hv => hv, ?_⟩
    rw [h.formVariables]
    exact forall₂_variablesFrom [] ds
  refine hall.imp fun v x ⟨hv, hcontrol, hname, htype⟩ => ⟨hcontrol, ?_, hname, htype⟩
  show (d.formVariables.find? fun w => w.controlId == x.control.id).map (·.id) = _
  rw [h.formVariables] at hv
  rw [← hcontrol, h.formVariables, find?_variablesFrom h.nodup_draftIds hv]
  rfl

theorem found (h : Built f o rss ds d) (hlead : o.variableLead = .text lead) {i : Nat} {v : Variable}
    (hv : d.formVariables[i]? = some v) :
    ∃ wanted, Identifier.variableNameOf v.name lead = .ok wanted ∧
      Found ((d.formVariables.take i).map (·.id)) wanted v.id := by
  rw [h.formVariables] at hv ⊢
  obtain ⟨x, hx, wanted, hwanted, hname, hfound⟩ := found_variablesFrom hv
  obtain ⟨count, hxo⟩ := h.isOf_placed hx
  rw [List.append_nil] at hfound
  exact ⟨wanted, hname ▸ hxo.variableNameOf hlead hwanted, hfound.reverse⟩

theorem bound (h : Built f o rss ds d) (hlead : o.variableLead = .text lead) : Bound f lead d where
  shown := h.shown
  controlIds := h.nodup_controlIds
  bound := by
    rw [h.zip_inOrder, List.filter_map, List.forall₂_map_right_iff]
    have hdrafts := h.forall₂_drafts
    rw [h.filter_isSome] at hdrafts
    exact hdrafts
  unbound := by
    intro y hy htype
    rw [h.zip_inOrder] at hy
    obtain ⟨x, hx, rfl⟩ := List.mem_map.mp hy
    dsimp only at htype
    obtain ⟨count, hxo⟩ := h.isOf_placed hx
    refine h.variableId_eq_none hx (Option.not_isSome_iff_eq_none.mp ?_)
    rw [hxo.isSome_variableName, ControlType.isDataBearing]
    rcases htype with htype | htype <;> simp [htype]
  variableIds := by
    rw [h.formVariables]
    exact (nodup_variablesFrom [] ds).1
  shaped := by
    intro v hv
    obtain ⟨i, hi⟩ := List.getElem?_of_mem hv
    obtain ⟨wanted, hwanted, k, -, hid, -⟩ := h.found hlead hi
    rw [hid]
    exact exists_stem_of_candidate k hwanted
  found := fun _ _ hv => h.found hlead hv

end Built

/-- The workflow is among the artifacts when the switch asks for it. -/
theorem Assembled.stores {s : Statistics} {json : String} {others : List (String × String)}
    {main : String} (h : Assembled f o ds d s json others main) {p : Product}
    (hp : p.artifacts = ("form-definition.json", json) :: others) : Stores o p d := by
  obtain ⟨hnames, htexts⟩ := companions_eq_ok h.accompanied
  have hmem : ∀ text, ("workflow-definition.json", text) ∈ p.artifacts ↔
      ("workflow-definition.json", text) ∈ others := by
    intro text
    rw [hp, List.mem_cons]
    exact or_iff_right fun heq => absurd (Prod.mk.inj heq).1 (by decide)
  constructor
  · have hname : (∃ text, ("workflow-definition.json", text) ∈ others) ↔
        "workflow-definition.json" ∈ companionNames o := by
      rw [← hnames, List.mem_map]
      exact ⟨fun ⟨text, h⟩ => ⟨_, h, rfl⟩, fun ⟨⟨_, text⟩, h, rfl⟩ => ⟨text, h⟩⟩
    simp only [hmem]
    rw [hname, companionNames]
    cases o.workflow.isGiven <;> cases o.metadata.isGiven <;> decide
  · intro text htext
    have hwritten := htexts _ ((hmem text).mp htext)
    exact ⟨workflow d, _, hwritten, Value.require_record rfl, Value.require_record rfl⟩

end

/-- A form that is generated has its variables, whatever its names. -/
theorem generate_bound {f : Form} {o : Options} {lead : String} {p : Product}
    (hlead : o.variableLead = .text lead) (h : generator.generate f o = .ok (.product p)) :
    ∃ ds d, build f o = .ok (ds, d) ∧ Holds o p d ∧ Bound f lead d ∧ Stores o p d := by
  obtain ⟨ds, d, s, json, others, main, hparts, rfl⟩ := product_eq_ok_iff.mp (generate_eq_ok.mp h)
  obtain ⟨rss, hbuilt⟩ := build_eq_ok hparts.built
  exact ⟨ds, d, hparts.built, ⟨rfl, json, others, hparts.written, rfl, rfl⟩, hbuilt.bound hlead,
    hparts.stores rfl⟩

/-! ## Names that are alike -/

/-- A control of a name and a type at a position. -/
def typedField (name : String) (type : ControlType) (position : String) : Form.Control :=
  { fieldAt position with name := .text name, type }

theorem typed_typedField (count : Nat) (name : String) (type : ControlType) {position : String}
    (h : position.length ≤ maxIntegerDigits) : (typedField name type position).Typed count :=
  { typed_fieldAt count h with name := Value.isText_text _ }

/-- Views whose controls share names, have names that come to the same, or names that look like those
that others get, among them two that hold no data. -/
def alikeNames : Form :=
  { rowsInTurns with views := [
    ⟨.text "first", [typedField "Total" .currency "2A", typedField "total_2" .number "1A",
      typedField "Total" .label "1B", typedField "TOTAL!" .textField "3A"], []⟩,
    ⟨.text "second", [typedField "Total 2" .textField "1A", typedField "Total" .plainSection "1A",
      typedField "2" .dropDown "1A"], []⟩] }

theorem typed_alikeNames : alikeNames.Typed := by
  refine { typed_rowsInTurns with views := ?_ }
  refine List.forall_mem_cons.mpr ⟨⟨Value.isText_text _, ?_⟩, List.forall_mem_singleton.mpr
    ⟨Value.isText_text _, ?_⟩⟩
  · simp only [List.forall_mem_cons]
    exact ⟨typed_typedField _ _ _ (by decide), typed_typedField _ _ _ (by decide),
      typed_typedField _ _ _ (by decide), typed_typedField _ _ _ (by decide), List.forall_mem_nil _⟩
  · simp only [List.forall_mem_cons]
    exact ⟨typed_typedField _ _ _ (by decide), typed_typedField _ _ _ (by decide),
      typed_typedField _ _ _ (by decide), List.forall_mem_nil _⟩

theorem generate_bound_alikeNames : ({} : Options).variableLead = .text "se_" ∧
    ∃ p, generator.generate alikeNames {} = .ok (.product p) ∧
      ∃ ds d, build alikeNames {} = .ok (ds, d) ∧ Holds {} p d ∧ Bound alikeNames "se_" d ∧
        Stores {} p d := by
  obtain ⟨p, hp⟩ := exists_product_eq_ok typed_alikeNames Options.typed_default (by simp [alikeNames])
  have h := generate_eq_ok.mpr hp
  exact ⟨rfl, p, h, generate_bound rfl h⟩

example : (build alikeNames {}).map (fun x => x.2.formVariables.map (·.id)) =
    .ok ["se_total_2", "se_total", "se_total_3", "se_total_2_2", "se_field_2"] := by
  cbv

end Formwright.Nintex
