import Formwright.Proofs.Analysis.Schema
import Formwright.Proofs.Pointwise

/-
  Documents that load equally. Two documents agree at one level when the fields of a mapping hold
  related values and the items of a list that are not null are related one by one (`Agree`). A
  relation of which related documents agree, level by level, is a correspondence; all readers lead to
  equal outcomes on documents that correspond (`Correspondence.read_eq`), success or not. A control
  is read to a number of levels that its value cannot exceed, so that the number does not matter
  (`readControl_eq_of_depth_lt`).
-/

namespace Formwright

/-! ## Levels of a value -/

namespace Value

theorem depth_le_depthAll {vs : List Value} {v : Value} (hv : v ∈ vs) : v.depth ≤ depthAll vs := by
  induction vs with
  | nil => exact absurd hv List.not_mem_nil
  | cons w vs ih =>
    rw [depthAll]
    rcases List.mem_cons.mp hv with rfl | hv
    · exact Nat.le_max_left _ _
    · exact Nat.le_trans (ih hv) (Nat.le_max_right _ _)

theorem depth_le_depthEntries {es : List (Value × Value)} {e : Value × Value} (he : e ∈ es) :
    e.1.depth ≤ depthEntries es ∧ e.2.depth ≤ depthEntries es := by
  induction es with
  | nil => exact absurd he List.not_mem_nil
  | cons d es ih =>
    rw [depthEntries]
    rcases List.mem_cons.mp he with rfl | he
    · omega
    · have := ih he
      omega

theorem depth_le_of_mem_elements {v x : Value} {xs : List Value} (h : v.elements = .ok xs)
    (hx : x ∈ xs) : x.depth ≤ v.depth := by
  cases v with
  | list _ vs | tuple _ vs | set _ vs =>
    obtain rfl := Except.ok.inj h
    rw [depth]
    exact Nat.le_succ_of_le (depth_le_depthAll hx)
  | map _ es =>
    obtain rfl := Except.ok.inj h
    obtain ⟨e, he, rfl⟩ := List.mem_map.mp hx
    rw [depth]
    exact Nat.le_succ_of_le (depth_le_depthEntries he).1
  | text s | bytes bs =>
    obtain rfl := Except.ok.inj h
    obtain ⟨_, -, rfl⟩ := List.mem_map.mp hx
    exact Nat.zero_le _
  | _ => cases h

end Value

namespace Source

/-- What is held under a field has fewer levels than the mapping. -/
theorem depth_held_le {es : List (Value × Value)} {field : String} {v : Value}
    (h : held es field = some v) : v.depth ≤ Value.depthEntries es := by
  have hmem : ∀ name, Value.member? es name = some v → v.depth ≤ Value.depthEntries es := by
    intro name hname
    obtain ⟨e, he, rfl⟩ := Option.map_eq_some_iff.mp hname
    exact (Value.depth_le_depthEntries (List.mem_of_find?_eq_some he)).2
  rcases Option.or_eq_some_iff.mp h with h | ⟨-, h⟩
  · exact hmem _ h
  · exact hmem _ h

theorem depth_lt_of_mem_pickItems {v x : Value} {field : String} {xs : List Value}
    (h : v.pickItems field = .ok xs) (hx : x ∈ xs) : x.depth < v.depth := by
  obtain ⟨u, hu, h⟩ := bind_eq_ok.mp h
  obtain ⟨ys, hys, h⟩ := bind_eq_ok.mp h
  obtain rfl := Except.ok.inj h
  obtain ⟨n, es, rfl, rfl⟩ := pickD_eq_ok hu
  rw [Value.depth]
  unfold Value.itemsIfGiven at hys
  split at hys
  · refine Nat.lt_succ_of_le
      (Nat.le_trans (Value.depth_le_of_mem_elements hys (List.mem_of_mem_filter hx)) ?_)
    cases hheld : held es field with
    | none => exact Nat.zero_le _
    | some w => exact depth_held_le hheld
  · obtain rfl := Except.ok.inj hys
    exact absurd (List.mem_of_mem_filter hx) List.not_mem_nil

/-- A control is read to any number of levels that its value does not exceed. -/
theorem readControl_eq_of_depth_lt {m n : Nat} {v : Value} (hm : v.depth < m) (hn : v.depth < n) :
    readControl m v = readControl n v := by
  induction m generalizing n v with
  | zero => omega
  | succ m ih =>
    obtain _ | n := n
    · omega
    · have hitems : (v.pickItems "controls" >>= (·.mapM (readControl m))) =
          (v.pickItems "controls" >>= (·.mapM (readControl n))) := by
        cases hxs : v.pickItems "controls" with
        | error e => rfl
        | ok xs =>
          refine mapM_eq_of_forall₂ (List.forall₂_same.mpr fun x hx => ?_)
          have := depth_lt_of_mem_pickItems hxs hx
          exact ih (by omega) (by omega)
      unfold readControl
      simp only [bind_bind_congr hitems]

/-! ## Correspondences -/

/-- Values that agree at one level, with related values inside. -/
inductive Agree (R : Content → Value → Value → Prop) : Content → Value → Value → Prop
  | same (c : Content) (v : Value) : Agree R c v v
  | record {p : Part} {m n : Nat} {es fs : List (Value × Value)}
      (fields : ∀ f c, (f, c) ∈ p.fields → Option.Rel (R c) (held es f) (held fs f)) :
      Agree R (.record p) (.map m es) (.map n fs)
  | records {p : Part} {m n : Nat} {vs ws : List Value}
      (items : List.Forall₂ (R (.record p)) (vs.filter (!·.isNull)) (ws.filter (!·.isNull))) :
      Agree R (.records p) (.list m vs) (.list n ws)

/-- A relation of values that agree level by level. -/
def Correspondence (R : Content → Value → Value → Prop) : Prop :=
  ∀ {c v w}, R c v w → Agree R c v w

namespace Correspondence

variable {R : Content → Value → Value → Prop} {p : Part} {v w : Value}

theorem eq_of_plain (hR : Correspondence R) (h : R .plain v w) : v = w := by
  cases hR h
  rfl

theorem isNull_eq (hR : Correspondence R) (h : R (.record p) v w) : v.isNull = w.isNull := by
  cases hR h <;> rfl

/-- Fields of mappings that correspond lead to one outcome, or to values that correspond. -/
theorem pick_eq_or (hR : Correspondence R) (h : R (.record p) v w) {f : String} {c : Content}
    (hf : (f, c) ∈ p.fields) (default : Value) :
    v.pickD f default = w.pickD f default ∨
      ∃ x y, v.pickD f default = .ok x ∧ w.pickD f default = .ok y ∧ R c x y := by
  cases hR h with
  | same => exact Or.inl rfl
  | @record _ m n es fs hfields =>
    have hheld := hfields f c hf
    rw [pickD_map, pickD_map]
    generalize held es f = x at hheld
    generalize held fs f = y at hheld
    cases hheld with
    | none => exact Or.inl rfl
    | some hxy => exact Or.inr ⟨_, _, rfl, rfl, hxy⟩

theorem pickD_eq (hR : Correspondence R) (h : R (.record p) v w) {f : String}
    (hf : (f, .plain) ∈ p.fields) (default : Value) : v.pickD f default = w.pickD f default := by
  rcases hR.pick_eq_or h hf default with hsame | ⟨x, y, hx, hy, hxy⟩
  · exact hsame
  · rw [hx, hy, hR.eq_of_plain hxy]

theorem pickItems_list {n : Nat} {vs : List Value} {v : Value} {f : String}
    (h : v.pick f = .ok (.list n vs)) : v.pickItems f = .ok (vs.filter (!·.isNull)) := by
  unfold Value.pickItems
  rw [h]
  cases vs <;> rfl

/-- Items of lists that correspond lead to the same when they do so one by one. -/
theorem pickItems_mapM_eq (hR : Correspondence R) (h : R (.record p) v w) {f : String} {q : Part}
    (hf : (f, .records q) ∈ p.fields) {α : Type} {g : Value → Except Fault α}
    (hg : ∀ x y, R (.record q) x y → g x = g y) :
    (v.pickItems f >>= (·.mapM g)) = (w.pickItems f >>= (·.mapM g)) := by
  rcases hR.pick_eq_or h hf .null with hsame | ⟨x, y, hx, hy, hxy⟩
  · unfold Value.pickItems Value.pick
    rw [hsame]
  · cases hR hxy with
    | same =>
      unfold Value.pickItems Value.pick
      rw [hx, hy]
    | records hitems =>
      rw [pickItems_list hx, pickItems_list hy]
      exact mapM_eq_of_forall₂ (hitems.imp hg)

/-! ### Readers -/

theorem choice_read_eq (hR : Correspondence R) (h : R (.record .choice) v w) :
    Choice.read v = Choice.read w := by
  have hplain := fun f hf => hR.pickD_eq h (f := f) hf
  unfold Choice.read Value.pickFlag Value.pickCount Value.pick
  simp (disch := decide) only [hplain]

theorem section_read_eq (hR : Correspondence R) (h : R (.record .viewSection) v w) :
    Section.read v = Section.read w := by
  have hplain := fun f hf => hR.pickD_eq h (f := f) hf
  unfold Section.read Value.pickCount Value.pickAll Value.pick
  simp (disch := decide) only [hplain]

theorem dynamicSection_read_eq (hR : Correspondence R) (h : R (.record .dynamicSection) v w) :
    DynamicSection.read v = DynamicSection.read w := by
  have hplain := fun f hf => hR.pickD_eq h (f := f) hf
  unfold DynamicSection.read Value.pickFlag Value.pickAll Value.pick
  simp (disch := decide) only [hplain]

theorem metadata_read_eq (hR : Correspondence R) (h : R (.record .metadata) v w) :
    Metadata.read v = Metadata.read w := by
  have hplain := fun f hf => hR.pickD_eq h (f := f) hf
  unfold Metadata.read Value.pickCount Value.pickAll Value.pick
  simp (disch := decide) only [hplain]

theorem message_read_eq (hR : Correspondence R) (h : R (.record .message) v w) :
    Message.read v = Message.read w := by
  have hplain := fun f hf => hR.pickD_eq h (f := f) hf
  unfold Message.read Value.pick
  simp (disch := decide) only [hplain]

theorem column_read_eq (hR : Correspondence R) (h : R (.record .column) v w) :
    Column.read v = Column.read w := by
  have hplain := fun f hf => hR.pickD_eq h (f := f) hf
  have hvalues := hR.pickItems_mapM_eq h (f := "valid_values") (by decide) fun x y => hR.choice_read_eq
  unfold Column.read Value.pickFlag Value.pick
  simp (disch := decide) only [hplain, bind_bind_congr hvalues]

theorem readControl_eq (hR : Correspondence R) (h : R (.record .control) v w) (n : Nat) :
    readControl n v = readControl n w := by
  induction n generalizing v w with
  | zero => rfl
  | succ n ih =>
    have hplain := fun f hf => hR.pickD_eq h (f := f) hf
    have hcontrols := hR.pickItems_mapM_eq h (f := "controls") (by decide) fun x y hxy => ih hxy
    have hchoices := hR.pickItems_mapM_eq h (f := "data_options") (by decide) fun x y =>
      hR.choice_read_eq
    unfold readControl readProperties Value.pickFlag Value.pick
    simp (disch := decide) only [hplain, bind_bind_congr hcontrols, bind_bind_congr hchoices]

theorem control_read_eq (hR : Correspondence R) (h : R (.record .control) v w) :
    Control.read v = Control.read w := by
  have hv : v.depth < max v.depth w.depth + 1 := by omega
  have hw : w.depth < max v.depth w.depth + 1 := by omega
  calc Control.read v = readControl (max v.depth w.depth + 1) v :=
        readControl_eq_of_depth_lt (Nat.lt_succ_self _) hv
    _ = readControl (max v.depth w.depth + 1) w := hR.readControl_eq h _
    _ = Control.read w := readControl_eq_of_depth_lt hw (Nat.lt_succ_self _)

theorem view_read_eq (hR : Correspondence R) (h : R (.record .view) v w) :
    View.read v = View.read w := by
  have hplain := fun f hf => hR.pickD_eq h (f := f) hf
  have hcontrols := hR.pickItems_mapM_eq h (f := "controls") (by decide) fun x y => hR.control_read_eq
  have hsections := hR.pickItems_mapM_eq h (f := "sections") (by decide) fun x y => hR.section_read_eq
  unfold View.read Value.pick
  simp (disch := decide) only [hplain, bind_bind_congr hcontrols, bind_bind_congr hsections]

theorem definition_read_eq (hR : Correspondence R) (h : R (.record .definition) v w) :
    Definition.read v = Definition.read w := by
  have hplain := fun f hf => hR.pickD_eq h (f := f) hf
  have hviews := hR.pickItems_mapM_eq h (f := "views") (by decide) fun x y => hR.view_read_eq
  have hcolumns := hR.pickItems_mapM_eq h (f := "data") (by decide) fun x y => hR.column_read_eq
  have hdynamic := hR.pickItems_mapM_eq h (f := "dynamic_sections") (by decide) fun x y =>
    hR.dynamicSection_read_eq
  have hmetadata := hR.pick_eq_or h (f := "metadata") (c := .record .metadata) (by decide) .null
  unfold Definition.read Value.pick
  simp (disch := decide) only [hplain, bind_bind_congr hviews, bind_bind_congr hcolumns,
    bind_bind_congr hdynamic]
  rcases hmetadata with hsame | ⟨x, y, hx, hy, hxy⟩
  · rw [hsame]
  · rw [hx, hy, ok_bind, ok_bind, hR.isNull_eq hxy, hR.metadata_read_eq hxy]

/-- Documents that correspond load equally. -/
theorem read_eq (hR : Correspondence R) (h : R (.record .analysis) v w) :
    Analysis.read v = Analysis.read w := by
  have hplain := fun f hf => hR.pickD_eq h (f := f) hf
  have hmessages := hR.pickItems_mapM_eq h (f := "messages") (by decide) fun x y =>
    hR.message_read_eq
  have hdefinition := hR.pick_eq_or h (f := "form_definition") (c := .record .definition) (by decide)
    .null
  unfold Analysis.read Value.pick
  simp (disch := decide) only [hplain, bind_bind_congr hmessages]
  rcases hdefinition with hsame | ⟨x, y, hx, hy, hxy⟩
  · rw [hsame]
  · rw [hx, hy]
    simp only [ok_bind, hR.isNull_eq hxy, hR.definition_read_eq hxy]

end Correspondence

end Source

end Formwright
