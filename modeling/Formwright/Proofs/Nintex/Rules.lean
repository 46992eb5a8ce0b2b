import Formwright.Proofs.Form.Warnings
import Formwright.Proofs.Nintex.Bindings
import Formwright.Proofs.Nintex.Inventory
import Formwright.Proofs.Pointwise

/-
  The rules of a document and the report of an inspection. Rules are made from the controls of the
  document, the report from the names in the views of the form; of controls that share a name a rule
  shows the first one in the order of the document (`Built.find?_controls`), and the names that it
  leaves out are those that the report has for unknown (`Built.governs`).
-/

namespace Formwright.Nintex

/-- The first control of a name. -/
structure IsFirst (ps : List Placed) (n : Value) (p : Placed) : Prop where
  name : p.control.name = n
  first : ∃ before behind, ps = before ++ p :: behind ∧ ∀ q ∈ before, q.control.name ≠ n

/-- The rule of a dynamic section with an index. -/
structure Governs (f : Form) (report : Report) (d : Document) (s : Form.DynamicSection × Nat) (r : Rule) :
    Prop where
  id : r.id = "rule_" ++ (s.2 + 1).repr
  name : r.name = s.1.caption.orElse (s.1.name.orElse (.text r.id))
  condition : r.condition = s.1.condition
  field : r.field = s.1.conditionField
  value : r.value = s.1.conditionValue
  /-- The names that are not reported stand for the first controls of the document that have them. -/
  targets : List.Forall₂ (fun n t => ∃ p, IsFirst (inOrder f) n p ∧ t = p.id)
    (s.1.controls.filter fun n => !n.occursIn report.unknownTargets) r.targets
  /-- A name is missing exactly when it is reported. -/
  missing : ∀ n ∈ s.1.controls,
    n ∈ report.unknownTargets ↔ ¬∃ c ∈ d.controls, c.name = n ∧ c.id ∈ r.targets

/-- A document whose rules are those of the dynamic sections of a form, as far as a report knows their
targets. -/
structure Agrees (f : Form) (report : Report) (d : Document) (rs : List Rule) : Prop where
  shown : List.Forall₂ (fun c p => c.Shows p.page (p.control, p.index)) d.controls (inOrder f)
  rules : List.Forall₂ (Governs f report d) f.dynamicSections.zipIdx rs
  /-- What is reported is governed by a section, and no control has it for a name. -/
  unknown : ∀ n ∈ report.unknownTargets, (∃ s ∈ f.dynamicSections, n ∈ s.controls) ∧
    ∀ v ∈ f.views, ∀ c ∈ v.controls, c.name ≠ n

/-! ## Controls by name -/

theorem map_find?_congr {α β : Type} {p q : α → Bool} {g g' : α → β} {xs : List α}
    (h : ∀ x ∈ xs, p x = q x ∧ g x = g' x) : (xs.find? p).map g = (xs.find? q).map g' := by
  induction xs with
  | nil => rfl
  | cons x xs ih =>
    obtain ⟨⟨hp, hg⟩, hxs⟩ := List.forall_mem_cons.mp h
    rw [List.find?_cons, List.find?_cons, hp]
    cases q x with
    | true => exact congrArg some hg
    | false => exact ih hxs

/-- The controls that are placed are those of the form. -/
theorem exists_mem_inOrder_iff {f : Form} {c : Form.Control} :
    (∃ p ∈ inOrder f, p.control = c) ↔ ∃ v ∈ f.views, c ∈ v.controls := by
  constructor
  · rintro ⟨p, hp, rfl⟩
    obtain ⟨⟨v, k⟩, hv, hp⟩ := List.mem_flatMap.mp hp
    obtain ⟨⟨c, i⟩, hc, rfl⟩ := List.mem_map.mp hp
    exact ⟨v, List.fst_mem_of_mem_zipIdx hv, List.fst_mem_of_mem_zipIdx (List.mem_mergeSort.mp hc)⟩
  · rintro ⟨v, hv, hc⟩
    obtain ⟨k, hk⟩ := List.getElem?_of_mem hv
    obtain ⟨i, hi⟩ := List.getElem?_of_mem hc
    have hplaced : (c, i) ∈ v.controls.zipIdx.mergeSort fun x y => rowOf x.1 ≤ rowOf y.1 :=
      List.mem_mergeSort.mpr (List.mk_mem_zipIdx_iff_getElem?.mpr hi)
    exact ⟨⟨k + 1, i, rowOf c, c⟩, List.mem_flatMap.mpr ⟨(v, k), List.mk_mem_zipIdx_iff_getElem?.mpr hk,
      List.mem_map.mpr ⟨(c, i), hplaced, rfl⟩⟩, rfl⟩

theorem isFirst_of_find? {ps : List Placed} {s : String} {p : Placed}
    (h : ps.find? (·.control.name.same (.text s)) = some p) : IsFirst ps (.text s) p := by
  obtain ⟨hname, before, behind, hps, hbefore⟩ := List.find?_eq_some_iff_append.mp h
  refine ⟨Value.same_text_right.mp hname, before, behind, hps, fun q hq heq => ?_⟩
  have hq := hbefore q hq
  rw [Bool.not_eq_true', Value.same_text_right.mpr heq] at hq
  cases hq

/-- A name is placed when a view has a control of this name. -/
theorem exists_find?_inOrder_iff {f : Form} {s : String} :
    (∃ p, (inOrder f).find? (·.control.name.same (.text s)) = some p) ↔
      ∃ v ∈ f.views, ∃ c ∈ v.controls, c.name = .text s := by
  rw [← Option.isSome_iff_exists, List.find?_isSome]
  constructor
  · rintro ⟨p, hp, hname⟩
    obtain ⟨v, hv, hc⟩ := exists_mem_inOrder_iff.mp ⟨p, hp, rfl⟩
    exact ⟨v, hv, p.control, hc, Value.same_text_right.mp hname⟩
  · rintro ⟨v, hv, c, hc, hname⟩
    obtain ⟨p, hp, rfl⟩ := exists_mem_inOrder_iff.mpr ⟨v, hv, hc⟩
    exact ⟨p, hp, Value.same_text_right.mpr hname⟩

section
variable {f : Form} {o : Options} {rss : List (List (Nat × List Draft))} {ds : List Draft}
  {d : Document} {report : Report}

/-- A governed name is reported unless it is placed. -/
theorem mem_unknown_iff (hf : f.Declared) (hr : f.inspect = .ok report) {s : Form.DynamicSection}
    (hs : s ∈ f.dynamicSections) {n : Value} (hn : n ∈ s.controls) :
    n ∈ report.unknownTargets ↔ (inOrder f).find? (·.control.name.same n) = none := by
  obtain ⟨t, rfl⟩ := (hf.dynamicSections s hs).controls n hn
  rw [Inspection.mem_unknownTargets_iff hf hr, and_iff_right ⟨s, hs, hn⟩, ← Option.not_isSome_iff_eq_none,
    Option.isSome_iff_exists, exists_find?_inOrder_iff]
  simp only [not_exists, not_and, ne_eq]

theorem occursIn_unknown_iff (hf : f.Declared) {s : Form.DynamicSection} (hs : s ∈ f.dynamicSections)
    {n : Value} (hn : n ∈ s.controls) :
    n.occursIn report.unknownTargets = true ↔ n ∈ report.unknownTargets := by
  obtain ⟨t, rfl⟩ := (hf.dynamicSections s hs).controls n hn
  exact Value.occursIn_text

namespace Built

/-- A control that is looked up by name among the drafted ones is found where it is placed. -/
theorem find?_controls (h : Built f o rss ds d) (n : Value) :
    ((ds.map (·.control)).find? fun c => c.name.same n).map (·.id) =
      ((inOrder f).find? fun p => p.control.name.same n).map (·.id) := by
  rw [← h.map_placed, List.find?_map, List.find?_map, Option.map_map, Option.map_map]
  refine map_find?_congr fun x hx => ?_
  obtain ⟨count, hxo⟩ := h.isOf_placed hx
  exact ⟨congrArg (·.same n) hxo.name, hxo.id⟩

/-- The names that are not reported are looked up as the first controls that are placed with them. -/
theorem targets (h : Built f o rss ds d) (hf : f.Declared) (hr : f.inspect = .ok report)
    {s : Form.DynamicSection} (hs : s ∈ f.dynamicSections) :
    List.Forall₂ (fun n t => ∃ p, IsFirst (inOrder f) n p ∧ t = p.id)
      (s.controls.filter fun n => !n.occursIn report.unknownTargets)
      (s.controls.filterMap fun n => ((ds.map (·.control)).find? fun c => c.name.same n).map (·.id)) := by
  refine forall₂_filter_filterMap (fun n hn hknown => ?_) fun n hn hunknown => ?_
  · rw [Bool.not_eq_true', Bool.eq_false_iff, ne_eq, occursIn_unknown_iff hf hs hn,
      mem_unknown_iff hf hr hs hn] at hknown
    obtain ⟨p, hp⟩ := Option.ne_none_iff_exists'.mp hknown
    obtain ⟨t, rfl⟩ := (hf.dynamicSections s hs).controls n hn
    exact ⟨p.id, by rw [h.find?_controls, hp]; rfl, p, isFirst_of_find? hp, rfl⟩
  · rw [Bool.not_eq_false', occursIn_unknown_iff hf hs hn, mem_unknown_iff hf hr hs hn] at hunknown
    rw [h.find?_controls, hunknown]
    rfl

/-- A governed name is reported when no control of this name is among the targets. -/
theorem missing_iff (h : Built f o rss ds d) (hf : f.Declared) (hr : f.inspect = .ok report)
    {s : Form.DynamicSection} (hs : s ∈ f.dynamicSections) {ts : List String}
    (hts : List.Forall₂ (fun n t => ∃ p, IsFirst (inOrder f) n p ∧ t = p.id)
      (s.controls.filter fun n => !n.occursIn report.unknownTargets) ts) {n : Value} (hn : n ∈ s.controls) :
    n ∈ report.unknownTargets ↔ ¬∃ c ∈ d.controls, c.name = n ∧ c.id ∈ ts := by
  constructor
  · rintro hunknown ⟨c, hc, hname, -⟩
    obtain ⟨p, hp, hshows⟩ := exists_of_mem_forall₂ h.shown hc
    obtain ⟨v, hv, hcv⟩ := exists_mem_inOrder_iff.mp ⟨p, hp, rfl⟩
    exact ((Inspection.mem_unknownTargets_iff hf hr).mp hunknown).2 v hv _ hcv
      (hshows.name.symm.trans hname)
  · intro hmissing
    by_contra hknown
    have hkept : n ∈ s.controls.filter fun n => !n.occursIn report.unknownTargets := by
      refine List.mem_filter.mpr ⟨hn, ?_⟩
      rw [Bool.not_eq_true', Bool.eq_false_iff]
      exact mt (occursIn_unknown_iff hf hs hn).mp hknown
    obtain ⟨t, ht, p, ⟨hname, before, behind, hplaced, -⟩, rfl⟩ := exists_of_mem_forall₂ hts hkept
    have hp : p ∈ inOrder f := hplaced ▸ List.mem_append_right _ List.mem_cons_self
    obtain ⟨c, hc, hshows⟩ := exists_of_mem_forall₂ h.shown.flip hp
    exact hmissing ⟨c, hc, hshows.name.trans hname, hshows.id ▸ ht⟩

/-- A rule shows what the report knows. -/
theorem governs (h : Built f o rss ds d) (hf : f.Declared) (hr : f.inspect = .ok report)
    {s : Form.DynamicSection} (hs : s ∈ f.dynamicSections) {k : Nat} {r : Rule}
    (hrule : ruleOf (ds.map (·.control)) (k + 1) s = .ok r) : Governs f report d (s, k) r := by
  obtain ⟨ts, hts, hrule⟩ := bind_eq_ok.mp hrule
  obtain rfl := Except.ok.inj hrule
  obtain ⟨keys, hkeys, hts⟩ := bind_eq_ok.mp hts
  obtain ⟨-, rfl⟩ := Value.mapM_asKey_eq_ok.mp hkeys
  obtain rfl := Except.ok.inj hts
  have htargets := h.targets hf hr hs
  exact ⟨rfl, rfl, rfl, rfl, rfl, htargets, fun n hn => h.missing_iff hf hr hs htargets hn⟩

end Built

end

/-- Controls that share a name within a view and across views, and sections that govern them again and
again, among names that no control has. -/
def governed : Form :=
  { rowsInTurns with
    views := [
      ⟨.text "first", [typedField "Total" .currency "2A", typedField "Total" .number "1A"], []⟩,
      ⟨.text "second", [typedField "Net" .textField "1A", typedField "Total" .textField "1B"], []⟩]
    dynamicSections := [Form.governing ["Net", "Gone", "Total", "Total", "Gone"], Form.governing ["Lost"]] }

theorem declared_typedField (name : String) (type : ControlType) (position : String) :
    (typedField name type position).Declared :=
  { declared_fieldAt position with name := ⟨_, rfl⟩ }

theorem declared_governed : governed.Declared := by
  have hview : ∀ (name : String) (c e : Form.Control), c.Declared → e.Declared →
      (Form.View.mk (.text name) [c, e] []).Declared := fun name c e hc he =>
    ⟨⟨_, rfl⟩, List.forall_mem_cons.mpr ⟨hc, List.forall_mem_singleton.mpr he⟩, List.forall_mem_nil _⟩
  refine { declared_rowsInTurns with views := ?_, dynamicSections := ?_ }
  · exact List.forall_mem_cons.mpr ⟨hview _ _ _ (declared_typedField _ _ _) (declared_typedField _ _ _),
      List.forall_mem_singleton.mpr (hview _ _ _ (declared_typedField _ _ _) (declared_typedField _ _ _))⟩
  · exact List.forall_mem_cons.mpr ⟨Form.declared_governing _,
      List.forall_mem_singleton.mpr (Form.declared_governing _)⟩

theorem typed_governed : governed.Typed := by
  have hview : ∀ (name : String) (c e : Form.Control), c.Typed 2 → e.Typed 2 →
      (Value.text name).IsText ∧ ∀ x ∈ [c, e], x.Typed 2 := fun name c e hc he =>
    ⟨Value.isText_text _, List.forall_mem_cons.mpr ⟨hc, List.forall_mem_singleton.mpr he⟩⟩
  have hsection : ∀ names, (Form.governing names).Typed := fun names =>
    ⟨Value.isText_text _, Or.inl rfl, Value.isText_text _, Value.isText_text _, Value.isText_text _,
      List.forall_mem_map.mpr fun n _ => Value.isText_text n⟩
  refine { typed_rowsInTurns with views := ?_, dynamicSections := ?_ }
  · refine List.forall_mem_cons.mpr ⟨hview _ _ _ ?_ ?_, List.forall_mem_singleton.mpr (hview _ _ _ ?_ ?_)⟩ <;>
      exact typed_typedField _ _ _ (by decide)
  · exact List.forall_mem_cons.mpr ⟨hsection _, List.forall_mem_singleton.mpr (hsection _)⟩

example : (build governed {}).map (fun x => x.2.rules.map fun rs => rs.map (·.targets)) =
    .ok (some [["ctrl_2_1", "ctrl_1_2", "ctrl_1_2"], []]) := by
  cbv

end Formwright.Nintex
