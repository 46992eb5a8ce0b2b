import Formwright.Inspection
import Formwright.Proofs.Form.Declared
import Formwright.Proofs.Form.Mapping
import Formwright.Proofs.Statistics.Counts
import Formwright.Proofs.Value.Texts

/-
  When a form can be inspected. Inspection counts names, puts them in order and joins them, which
  the values of an untyped source need not allow. What it demands is `Inspectable`, and a mapped
  form is inspected when it meets this and not otherwise (`exists_inspect_eq_ok`), as is every form in
  which all depths are integers (`exists_inspect_iff`).
-/

namespace Formwright

namespace Inspection

/-! ## Stages -/

theorem exists_greater_eq_ok (m n : Int) : ∃ k : Int, greater (.int m) (.int n) = .ok (.int k) := by
  unfold greater
  simp only [Value.less, Value.numberLess, Value.numeric?, ok_bind]
  split
  · exact ⟨n, rfl⟩
  · exact ⟨m, rfl⟩

theorem exists_deepest_eq_ok {cs : List Form.Control} (h : ∀ c ∈ cs, ∃ n, c.depth = .int n) :
    ∃ d, deepest cs = .ok d := by
  suffices ∀ k : Int, ∃ d, cs.foldlM (fun d c => greater d c.depth) (.int k) = .ok d from this 0
  induction cs with
  | nil => exact fun k => ⟨_, rfl⟩
  | cons c cs ih =>
    intro k
    obtain ⟨n, hn⟩ := h c List.mem_cons_self
    obtain ⟨m, hm⟩ := exists_greater_eq_ok k n
    rw [List.foldlM_cons, hn, hm, ok_bind]
    exact ih (fun c hc => h c (List.mem_cons_of_mem _ hc)) m

/-- A view is checked for repeated names when these can be put in order and, unless there are none,
noted under the name of the view. -/
theorem exists_addRepeated_eq_ok (es : List (Value × List Value)) (v : Form.View) :
    (∃ es', addRepeated es v = .ok es') ↔
      ∃ names, repeatedNames v = .ok names ∧ (names ≠ [] → v.name.unhashable? = none) := by
  unfold addRepeated
  constructor
  · rintro ⟨es', h⟩
    obtain ⟨names, hnames, h⟩ := bind_eq_ok.mp h
    refine ⟨names, hnames, fun hne => ?_⟩
    rw [if_neg (by simpa using hne)] at h
    obtain ⟨k, hk, -⟩ := bind_eq_ok.mp h
    exact (Value.asKey_eq_ok.mp hk).1
  · rintro ⟨names, hnames, hkey⟩
    rw [hnames, ok_bind]
    split
    · exact ⟨es, rfl⟩
    · rename_i hne
      rw [Value.asKey_eq_ok.mpr ⟨hkey (by simpa using hne), rfl⟩]
      exact ⟨_, rfl⟩

/-- Among texts, the names that repeat can be put in order. -/
theorem exists_repeatedNames_eq_ok {v : Form.View} (h : ∀ c ∈ v.controls, c.name.kind = .text) :
    ∃ names, repeatedNames v = .ok names ∧ ∀ n ∈ names, n.kind = .text := by
  have hnames : ∀ n ∈ v.controls.map (·.name), n.kind = .text := by
    intro n hn
    obtain ⟨c, hc, rfl⟩ := List.mem_map.mp hn
    exact h c hc
  obtain ⟨t, ht⟩ := Tally.exists_ofKeys_eq_ok.mpr fun n hn => by
    obtain ⟨s, rfl⟩ := Value.kind_eq_text.mp (hnames n hn)
    rfl
  have hrepeated : ∀ n ∈ (t.filter fun e => !e.2.same (.int 1)).map (·.1), n.kind = .text := by
    intro n hn
    obtain ⟨e, he, rfl⟩ := List.mem_map.mp hn
    exact hnames _ (Tally.key_of_mem_ofKeys ht (List.mem_filter.mp he).1)
  have hsorted := Value.sorted_eq_ok.mpr ⟨Value.checkOrder_of_texts hrepeated, rfl⟩
  refine ⟨_, bind_eq_ok.mpr ⟨t, ht, hsorted⟩, fun n hn => ?_⟩
  exact hrepeated n ((Value.mem_of_sorted_eq_ok hsorted n).mp hn)

/-- Names that were noted for views are among those that the views repeat. -/
theorem noted_of_addRepeated {P : Value → Prop} {vs : List Form.View}
    {es : List (Value × List Value)}
    (hP : ∀ v ∈ vs, ∀ names, repeatedNames v = .ok names → ∀ n ∈ names, P n)
    (h : vs.foldlM addRepeated [] = .ok es) : ∀ e ∈ es, ∀ n ∈ e.2, P n := by
  suffices ∀ before : List (Value × List Value), (∀ e ∈ before, ∀ n ∈ e.2, P n) →
      vs.foldlM addRepeated before = .ok es → ∀ e ∈ es, ∀ n ∈ e.2, P n from
    this [] (fun e he => absurd he List.not_mem_nil) h
  clear h
  induction vs with
  | nil =>
    intro before hbefore h
    obtain rfl := Except.ok.inj h
    exact hbefore
  | cons v vs ih =>
    intro before hbefore h
    rw [List.foldlM_cons] at h
    obtain ⟨next, hnext, h⟩ := bind_eq_ok.mp h
    refine ih (fun w hw => hP w (List.mem_cons_of_mem _ hw)) next ?_ h
    obtain ⟨names, hnames, hnext⟩ := bind_eq_ok.mp hnext
    have hnew := hP v List.mem_cons_self names hnames
    split at hnext
    · obtain rfl := Except.ok.inj hnext
      exact hbefore
    · obtain ⟨k, -, hnext⟩ := bind_eq_ok.mp hnext
      obtain rfl := Except.ok.inj hnext
      intro e he
      unfold putNames at he
      split at he
      · obtain ⟨d, hd, rfl⟩ := List.mem_map.mp he
        split
        · exact hnew
        · exact hbefore d hd
      · rcases List.mem_append.mp he with he | he
        · exact hbefore e he
        · rw [List.mem_singleton.mp he]
          exact hnew

/-- Names are listed in a warning when all of them are texts. -/
theorem exists_listWarning_eq_ok {lead : String} {names : List Value} :
    (∃ ws, listWarning lead names = .ok ws) ↔ ∀ n ∈ names, n.kind = .text := by
  unfold listWarning
  split
  · rename_i hnil
    rw [List.isEmpty_iff.mp hnil]
    exact ⟨fun _ n hn => absurd hn List.not_mem_nil, fun _ => ⟨[], rfl⟩⟩
  · rw [exists_bind_pure_eq_ok, Value.exists_joinTexts_eq_ok]

theorem missing_eq_ok {vs known names : List Value} :
    missing vs known = .ok names ↔ (∀ v ∈ vs, v.unhashable? = none) ∧
      names = Value.distinct (vs.filter fun v => !v.occursIn known) := by
  unfold missing
  rw [bind_eq_ok]
  constructor
  · rintro ⟨ws, hws, h⟩
    obtain ⟨hvs, rfl⟩ := Value.mapM_asKey_eq_ok.mp hws
    exact ⟨hvs, (Except.ok.inj h).symm⟩
  · rintro ⟨hvs, rfl⟩
    exact ⟨vs, Value.mapM_asKey_eq_ok.mpr ⟨hvs, rfl⟩, rfl⟩

/-- References to what is missing are found and listed when all references can be keys and those to
what is missing are texts. -/
theorem exists_missing_listed (lead : String) {vs known : List Value} :
    (∃ names sorted ws, missing vs known = .ok names ∧ Value.sorted names = .ok sorted ∧
        listWarning lead sorted = .ok ws) ↔
      ∀ v ∈ vs, v.unhashable? = none ∧ (v.occursIn known = false → v.kind = .text) := by
  have htexts : (∀ v ∈ Value.distinct (vs.filter fun v => !v.occursIn known), v.kind = .text) ↔
      ∀ v ∈ vs, v.occursIn known = false → v.kind = .text := by
    rw [Value.forall_mem_distinct fun v w h => (Value.kind_eq_text_of_same h).mpr]
    simp only [List.mem_filter, Bool.not_eq_true', and_imp]
  constructor
  · rintro ⟨names, sorted, ws, hnames, hsorted, hws⟩ v hv
    obtain ⟨hkeys, rfl⟩ := missing_eq_ok.mp hnames
    refine ⟨hkeys v hv, htexts.mp (fun w hw => ?_) v hv⟩
    exact exists_listWarning_eq_ok.mp ⟨ws, hws⟩ w ((Value.mem_of_sorted_eq_ok hsorted w).mpr hw)
  · intro h
    have hall := htexts.mpr fun v hv => (h v hv).2
    have hsorted := Value.sorted_eq_ok.mpr ⟨Value.checkOrder_of_texts hall, rfl⟩
    obtain ⟨ws, hws⟩ : ∃ ws, listWarning lead _ = .ok ws :=
      exists_listWarning_eq_ok.mpr fun n hn => hall n ((Value.mem_of_sorted_eq_ok hsorted n).mp hn)
    exact ⟨_, _, ws, missing_eq_ok.mpr ⟨fun v hv => (h v hv).1, rfl⟩, hsorted, hws⟩

end Inspection

/-! ## The whole inspection -/

open Inspection

/-- What an inspection demands of a form. -/
structure Form.Inspectable (f : Form) : Prop where
  /-- The names that a view repeats can be put in order and noted under the name of the view, -/
  repeated : ∀ v ∈ f.views, ∃ names, repeatedNames v = .ok names ∧
    (names ≠ [] → v.name.unhashable? = none)
  /-- and those that are noted in the end are texts, -/
  noted : ∀ es, f.views.foldlM addRepeated [] = .ok es → ∀ e ∈ es, ∀ n ∈ e.2, n.kind = .text
  /-- as are the names of empty containers. -/
  empties : ∀ c ∈ f.allControls, isEmptyContainer c = true → c.name.kind = .text
  /-- References to controls can be keys, and those to no control are texts. -/
  targets : ∀ s ∈ f.dynamicSections, ∀ n ∈ s.controls, n.unhashable? = none ∧
    (n.occursIn (f.allControls.map (·.name)) = false → n.kind = .text)
  columns : ∀ c ∈ f.columns, c.name.unhashable? = none
  /-- References to fields can be keys, and those to no column are texts. -/
  fields : ∀ n ∈ conditionalFields f, n.unhashable? = none ∧
    (n.occursIn (f.columns.map (·.name)) = false → n.kind = .text)

/-- A form whose names and references are texts is inspectable. -/
theorem Form.inspectable_of_texts {f : Form} (hcontrols : ∀ c ∈ f.allControls, c.name.kind = .text)
    (hviews : ∀ v ∈ f.views, v.name.kind = .text)
    (htargets : ∀ s ∈ f.dynamicSections, ∀ n ∈ s.controls, n.kind = .text)
    (hcolumns : ∀ c ∈ f.columns, c.name.kind = .text)
    (hfields : ∀ n ∈ conditionalFields f, n.kind = .text) : f.Inspectable := by
  have hkey : ∀ {v : Value}, v.kind = .text → v.unhashable? = none := by
    intro v hv
    obtain ⟨s, rfl⟩ := Value.kind_eq_text.mp hv
    rfl
  have hview : ∀ v ∈ f.views, ∀ c ∈ v.controls, c.name.kind = .text := fun v hv c hc =>
    hcontrols c (List.mem_flatMap.mpr ⟨v, hv, hc⟩)
  constructor
  · intro v hv
    obtain ⟨names, hnames, -⟩ := exists_repeatedNames_eq_ok (hview v hv)
    exact ⟨names, hnames, fun _ => hkey (hviews v hv)⟩
  · intro es hes
    refine noted_of_addRepeated (fun v hv names hnames => ?_) hes
    obtain ⟨names', hnames', htexts⟩ := exists_repeatedNames_eq_ok (hview v hv)
    obtain rfl := Except.ok.inj (hnames.symm.trans hnames')
    exact htexts
  · exact fun c hc _ => hcontrols c hc
  · exact fun s hs n hn => ⟨hkey (htargets s hs n hn), fun _ => htargets s hs n hn⟩
  · exact fun c hc => hkey (hcolumns c hc)
  · exact fun n hn => ⟨hkey (hfields n hn), fun _ => hfields n hn⟩

/-- The stages of an inspection, of which each one has to succeed. -/
theorem Form.inspect_eq_ok {f : Form} {report : Report} (h : f.inspect = .ok report) :
    deepest f.allControls = .ok report.maxDepth ∧
      Tally.ofKeys (f.allControls.map fun c => .text c.type.name) = .ok report.controlTypes ∧
      f.views.foldlM addRepeated [] = .ok report.duplicateNames ∧
      missing (f.dynamicSections.flatMap (·.controls)) (f.allControls.map (·.name)) =
        .ok report.unknownTargets ∧
      (∃ columns, (f.columns.map (·.name)).mapM (·.asKey) = .ok columns ∧
        missing (conditionalFields f) columns = .ok report.unknownFields) ∧
      ∃ repeated empties sortedTargets targets sortedFields fields,
        (report.duplicateNames.mapM fun e =>
          return "Duplicate control names in view " ++ e.1.display ++ ": " ++
            (← Value.joinTexts ", " e.2)) = .ok repeated ∧
        listWarning "Containers without controls: "
          ((f.allControls.filter isEmptyContainer).map (·.name)) = .ok empties ∧
        Value.sorted report.unknownTargets = .ok sortedTargets ∧
        listWarning "Dynamic sections reference unknown controls: " sortedTargets = .ok targets ∧
        Value.sorted report.unknownFields = .ok sortedFields ∧
        listWarning "Conditional fields without data columns: " sortedFields = .ok fields := by
  unfold inspect at h
  obtain ⟨depth, hdepth, h1⟩ := bind_eq_ok.mp h
  obtain ⟨types, htypes, h2⟩ := bind_eq_ok.mp h1
  obtain ⟨es, hes, h3⟩ := bind_eq_ok.mp h2
  obtain ⟨unknownTargets, hunknown, h4⟩ := bind_eq_ok.mp h3
  obtain ⟨columns, hcolumns, h5⟩ := bind_eq_ok.mp h4
  obtain ⟨unknownFields, hmissing, h6⟩ := bind_eq_ok.mp h5
  obtain ⟨repeated, hrepeated, h7⟩ := bind_eq_ok.mp h6
  obtain ⟨empties, hempties, h8⟩ := bind_eq_ok.mp h7
  obtain ⟨sortedTargets, hst, h9⟩ := bind_eq_ok.mp h8
  obtain ⟨targets, htargets, h10⟩ := bind_eq_ok.mp h9
  obtain ⟨sortedFields, hsf, h11⟩ := bind_eq_ok.mp h10
  obtain ⟨fields, hfields, h12⟩ := bind_eq_ok.mp h11
  obtain rfl := Except.ok.inj h12
  exact ⟨hdepth, htypes, hes, hunknown, ⟨columns, hcolumns, hmissing⟩, repeated, empties,
    sortedTargets, targets, sortedFields, fields, hrepeated, hempties, hst, htargets, hsf, hfields⟩

/-- A form in which every depth is an integer is inspected exactly when it is inspectable. -/
theorem Form.exists_inspect_iff {f : Form} (hf : ∀ c ∈ f.allControls, ∃ n, c.depth = .int n) :
    (∃ report, f.inspect = .ok report) ↔ f.Inspectable := by
  have hnoted : ∀ es : List (Value × List Value), (∃ ws, (es.mapM fun e =>
      (return "Duplicate control names in view " ++ e.1.display ++ ": " ++
        (← Value.joinTexts ", " e.2) : Except Fault String)) = .ok ws) ↔
      ∀ e ∈ es, ∀ n ∈ e.2, n.kind = .text := by
    intro es
    rw [exists_mapM_eq_ok]
    simp only [exists_bind_pure_eq_ok, Value.exists_joinTexts_eq_ok]
  have htargets : (∀ n ∈ f.dynamicSections.flatMap (·.controls), n.unhashable? = none ∧
      (n.occursIn (f.allControls.map (·.name)) = false → n.kind = .text)) ↔
      ∀ s ∈ f.dynamicSections, ∀ n ∈ s.controls, n.unhashable? = none ∧
        (n.occursIn (f.allControls.map (·.name)) = false → n.kind = .text) := by
    simp only [List.mem_flatMap, forall_exists_index, and_imp]
    exact ⟨fun h s hs n hn => h n s hs hn, fun h n s hs hn => h s hs n hn⟩
  constructor
  · rintro ⟨report, h⟩
    obtain ⟨-, -, hes, hunknown, ⟨columns, hcolumns, hmissing⟩, repeated, empties, sortedTargets,
      targets, sortedFields, fields, hrepeated, hempties, hst, htl, hsf, hfl⟩ := inspect_eq_ok h
    obtain ⟨hkeys, rfl⟩ := Value.mapM_asKey_eq_ok.mp hcolumns
    constructor
    · exact (exists_foldlM_eq_ok fun es v _ => exists_addRepeated_eq_ok es v).mp ⟨_, hes⟩
    · intro es hes'
      obtain rfl := Except.ok.inj (hes.symm.trans hes')
      exact (hnoted _).mp ⟨_, hrepeated⟩
    · intro c hc hempty
      have hmem := List.mem_map_of_mem (f := (·.name)) (List.mem_filter.mpr ⟨hc, hempty⟩)
      exact exists_listWarning_eq_ok.mp ⟨_, hempties⟩ _ hmem
    · exact htargets.mp ((exists_missing_listed _).mp ⟨_, _, _, hunknown, hst, htl⟩)
    · exact fun c hc => hkeys _ (List.mem_map_of_mem hc)
    · exact (exists_missing_listed _).mp ⟨_, _, _, hmissing, hsf, hfl⟩
  · intro h
    obtain ⟨depth, hdepth⟩ := exists_deepest_eq_ok hf
    obtain ⟨types, htypes⟩ :
        ∃ t, Tally.ofKeys (f.allControls.map fun c => .text c.type.name) = .ok t := by
      refine Tally.exists_ofKeys_eq_ok.mpr fun k hk => ?_
      obtain ⟨c, -, rfl⟩ := List.mem_map.mp hk
      rfl
    obtain ⟨es, hes⟩ : ∃ es, f.views.foldlM addRepeated [] = .ok es :=
      (exists_foldlM_eq_ok fun es v _ => exists_addRepeated_eq_ok es v).mpr h.repeated
    obtain ⟨repeated, hrepeated⟩ := (hnoted es).mpr (h.noted es hes)
    obtain ⟨empties, hempties⟩ : ∃ ws, listWarning "Containers without controls: "
        ((f.allControls.filter isEmptyContainer).map (·.name)) = .ok ws := by
      refine exists_listWarning_eq_ok.mpr fun n hn => ?_
      obtain ⟨c, hc, rfl⟩ := List.mem_map.mp hn
      exact h.empties c (List.mem_filter.mp hc).1 (List.mem_filter.mp hc).2
    have hcolumns : (f.columns.map (·.name)).mapM (·.asKey) = .ok (f.columns.map (·.name)) := by
      refine Value.mapM_asKey_eq_ok.mpr ⟨fun n hn => ?_, rfl⟩
      obtain ⟨c, hc, rfl⟩ := List.mem_map.mp hn
      exact h.columns c hc
    obtain ⟨unknownTargets, sortedTargets, targets, hunknown, hst, htl⟩ :=
      (exists_missing_listed "Dynamic sections reference unknown controls: ").mpr
        (htargets.mpr h.targets)
    obtain ⟨unknownFields, sortedFields, fields, hmissing, hsf, hfl⟩ :=
      (exists_missing_listed "Conditional fields without data columns: ").mpr h.fields
    unfold inspect
    simp only [hdepth, htypes, hes, hunknown, hcolumns, hmissing, hrepeated, hempties, hst, htl,
      hsf, hfl, ok_bind]
    exact ⟨_, rfl⟩

/-- A mapped form is inspected exactly when it is inspectable. -/
theorem Form.exists_inspect_eq_ok {f : Form} (hf : ∀ c ∈ f.allControls, c.Mapped) :
    (∃ report, f.inspect = .ok report) ↔ f.Inspectable :=
  exists_inspect_iff fun c hc => (hf c hc).depth.imp' Int.ofNat fun _ h => h

/-- A form whose fields have their declared types is inspected. -/
theorem Form.Declared.exists_inspect {f : Form} (hf : f.Declared) : ∃ r, f.inspect = .ok r := by
  have htext : ∀ {v : Value}, v.IsString → v.kind = .text := fun ⟨s, hs⟩ => by rw [hs]; rfl
  refine (Form.exists_inspect_iff fun c hc => (hf.control hc).depth).mpr
    (Form.inspectable_of_texts (fun c hc => htext (hf.control hc).name)
      (fun v hv => htext (hf.views v hv).name)
      (fun s hs n hn => htext ((hf.dynamicSections s hs).controls n hn))
      (fun c hc => htext (hf.columns c hc).name) fun n hn => ?_)
  rcases List.mem_append.mp hn with hn | hn
  · exact htext (hf.metadata.conditionalFields n hn)
  · obtain ⟨hn, hgiven⟩ := List.mem_filter.mp hn
    obtain ⟨c, hc, rfl⟩ := List.mem_map.mp hn
    rcases (hf.columns c hc).conditionalOnField with hnull | hstring
    · rw [hnull] at hgiven
      cases hgiven
    · exact htext hstring

/-- The numbers in a report are those of the form. -/
theorem Form.inspect_totals {f : Form} {report : Report} (h : f.inspect = .ok report) :
    report.totalViews = f.views.length ∧ report.totalControls = f.totalControls ∧
      report.repeatingContainers = (f.allControls.filter (·.isRepeatingContainer)).length := by
  unfold inspect at h
  -- the stages before the report is put together
  iterate 12 obtain ⟨_, -, h⟩ := bind_eq_ok.mp h
  obtain rfl := Except.ok.inj h
  exact ⟨rfl, rfl, rfl⟩

end Formwright
