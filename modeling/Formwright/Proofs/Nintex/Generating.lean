import Formwright.Proofs.Form.Typed
import Formwright.Proofs.Json.Writing
import Formwright.Proofs.Nintex.Building
import Formwright.Proofs.Nintex.Variables

/-
  When a form is generated. A form whose fields have their types and that has a view passes every
  stage: its controls are drafted (`exists_draft_eq_ok`), its document is built
  (`exists_build_eq_ok`), and the document and all that goes with it have a text
  (`Built.writable_toValue`, `exists_companions_eq_ok`); so there is a product
  (`exists_product_eq_ok`).
-/

namespace Formwright.Nintex

/-! ## Documents -/

theorem exists_draft_eq_ok (o : Options) {count : Nat} {p : Placed} (h : p.control.Typed count) :
    ∃ d, draft o count p = .ok d := by
  have hname : p.control.name.asKey = .ok p.control.name :=
    Value.asKey_eq_ok.mpr ⟨h.name.unhashable?, rfl⟩
  have hsource : (Statistics.sourceKey p.control.sourceType).asKey =
      .ok (Statistics.sourceKey p.control.sourceType) :=
    Value.asKey_eq_ok.mpr ⟨(h.sourceType.orElse (Value.isText_text _)).unhashable?, rfl⟩
  obtain ⟨parent, hparent⟩ : ∃ id, parentId p.page count p.control.parentIndex = .ok id := by
    rcases h.parent with hnull | ⟨j, hj, hcount⟩
    · exact ⟨none, by rw [hnull, parentId_null]⟩
    · exact ⟨_, by rw [hcount, parentId_count hj]⟩
  have horder : Value.checkOrder (p.control.choices.map (·.order)) = .ok () := by
    refine Value.checkOrder_of_whole fun v hv => ?_
    obtain ⟨x, hx, rfl⟩ := List.mem_map.mp hv
    exact (h.choices x hx).order
  obtain ⟨wanted, hwanted⟩ : ∃ s, wantedVariable p.control o = .ok s := by
    unfold wantedVariable
    split
    · obtain ⟨s, hs⟩ := h.name.exists_variableNameOf_eq_ok o.variableLead.display
      exact ⟨some s, by rw [hs]; rfl⟩
    · exact ⟨none, rfl⟩
  unfold draft Value.sortOn
  dsimp only
  rw [hname, hsource, hparent, horder, hwanted]
  exact ⟨_, rfl⟩

theorem exists_draftPage_eq_ok (o : Options) (page : Nat) {v : Form.View}
    (h : ∀ c ∈ v.controls, c.Typed v.controls.length) : ∃ rows, draftPage o page v = .ok rows := by
  obtain ⟨ps, hps⟩ : ∃ ps, placeAll page v = .ok ps := exists_placeAll_eq_ok.mpr fun c hc =>
    Grid.exists_parseValue_eq_ok.mpr (h c hc).position
  obtain ⟨rows, hrows⟩ : ∃ rows, (gather ps).mapM (draftRow o v.controls.length) = .ok rows := by
    refine exists_mapM_eq_ok.mpr fun r hr => ?_
    have hdrafts : ∃ ds, r.2.mapM (draft o v.controls.length) = .ok ds := by
      refine exists_mapM_eq_ok.mpr fun p hp => exists_draft_eq_ok o ?_
      exact h _ (mem_of_mem_placeAll hps ((mem_gather hr).1 p hp).1)
    obtain ⟨ds, hds⟩ := hdrafts
    exact ⟨_, by rw [draftRow, hds]; rfl⟩
  exact ⟨rows, by rw [draftPage, hps]; exact hrows⟩

theorem exists_rulesOf_eq_ok (cs : List Control) (o : Options) {ss : List Form.DynamicSection}
    (h : ∀ s ∈ ss, s.Typed) : ∃ rules, rulesOf cs o ss = .ok rules := by
  unfold rulesOf
  split
  · have hrules : ∃ rs, (ss.zipIdx.mapM fun p => ruleOf cs (p.2 + 1) p.1) = .ok rs := by
      refine exists_mapM_eq_ok.mpr fun p hp => ?_
      have htyped := h p.1 (List.fst_mem_of_mem_zipIdx hp)
      have hkeys := Value.mapM_asKey_eq_ok.mpr
        ⟨fun n hn => (htyped.controls n hn).unhashable?, rfl⟩
      exact ⟨_, by rw [ruleOf, targetIds, hkeys]; rfl⟩
    obtain ⟨rs, hrs⟩ := hrules
    exact ⟨some rs, by rw [hrs]; rfl⟩
  · exact ⟨none, rfl⟩

theorem exists_build_eq_ok {f : Form} {o : Options} (hf : f.Typed) (ho : o.Typed) :
    ∃ ds d, build f o = .ok (ds, d) := by
  obtain ⟨rss, hrss⟩ : ∃ rss,
      (f.views.zipIdx.mapM fun p => draftPage o (p.2 + 1) p.1) = .ok rss := by
    refine exists_mapM_eq_ok.mpr fun p hp => exists_draftPage_eq_ok o _ ?_
    exact (hf.views p.1 (List.fst_mem_of_mem_zipIdx hp)).2
  obtain ⟨id, hid⟩ := hf.name.exists_variableNameOf_eq_ok ""
  obtain ⟨language, hlanguage⟩ := ho.defaultLanguage
  obtain ⟨rules, hrules⟩ := exists_rulesOf_eq_ok
    ((rss.flatten.flatMap (·.2)).map (·.control)) o hf.dynamicSections
  unfold build
  rw [hrss, ok_bind, hid, ok_bind, hlanguage, Value.asKey_text, ok_bind, hrules]
  exact ⟨_, _, rfl⟩

/-! ## Texts of documents -/

open Json

theorem writable_of_isText {v : Value} (h : v.IsText) : Writable v := by
  rcases h with rfl | ⟨s, rfl⟩
  · exact writable_null
  · exact writable_text s

theorem writable_of_isBool {v : Value} (h : ∃ b, v = .bool b) : Writable v := by
  obtain ⟨b, rfl⟩ := h
  exact writable_bool b

theorem writable_optionalMember {name : String} {v : Option Value} (h : ∀ w, v = some w → Writable w) :
    ∀ e ∈ optionalMember name v, Writable e.2 := by
  intro e he
  obtain ⟨w, hw, rfl⟩ := Option.map_eq_some_iff.mp (Option.mem_toList.mp he)
  exact h w hw

/-- A member that is a text, if it is there. -/
theorem writable_optionalText (name : String) (s : Option String) :
    ∀ e ∈ optionalMember name (s.map .text), Writable e.2 := by
  refine writable_optionalMember fun w hw => ?_
  obtain ⟨t, -, rfl⟩ := Option.map_eq_some_iff.mp hw
  exact writable_text t

section
variable {o : Options} {count : Nat} {p : Placed} {d : Draft}

theorem Draft.IsOf.writable_propertiesValue (h : d.IsOf o count p) (htyped : p.control.Typed count)
    (vs : List Variable) : Writable (d.finish vs).propertiesValue := by
  refine writable_record ?_
  simp only [List.forall_mem_append, List.forall_mem_singleton]
  refine ⟨⟨?_, writable_optionalMember fun w hw => ?_⟩, writable_optionalText _ _⟩
  · show Writable d.control.isReadOnly
    rw [h.isReadOnly]
    exact writable_of_isBool htyped.isReadOnly
  · have hrequired : d.control.isRequired = some w := hw
    rw [h.isRequired] at hrequired
    split at hrequired
    · obtain rfl := Option.some.inj hrequired
      exact writable_of_isBool htyped.isRequired
    · cases hrequired

theorem Draft.IsOf.writable_choicesValue (h : d.IsOf o count p) (htyped : p.control.Typed count)
    (vs : List Variable) {w : Value} (hw : (d.finish vs).choicesValue? = some w) : Writable w := by
  unfold Control.choicesValue? at hw
  split at hw
  · cases hw
  · obtain rfl := Option.some.inj hw
    refine writable_ofList fun v hv => ?_
    obtain ⟨x, hx, rfl⟩ := List.mem_map.mp hv
    have hchoice := htyped.choices x (((Value.sortOn_eq_ok h.choices).2 x).mp hx)
    refine writable_record ?_
    simp only [List.forall_mem_cons]
    exact ⟨writable_of_isText hchoice.value, writable_of_isText hchoice.displayText,
      writable_of_isBool hchoice.isDefault, List.forall_mem_nil _⟩

theorem Draft.IsOf.writable_toValue (h : d.IsOf o count p) (htyped : p.control.Typed count)
    (vs : List Variable) : Writable (d.finish vs).toValue := by
  refine writable_record ?_
  simp only [List.forall_mem_append, List.forall_mem_cons]
  refine ⟨⟨⟨⟨⟨writable_text _, ?_, writable_text _, ?_, ?_, h.writable_propertiesValue htyped vs,
    List.forall_mem_nil _⟩, writable_optionalText _ _⟩, writable_optionalMember
    fun w hw => h.writable_choicesValue htyped vs hw⟩, writable_optionalMember fun w hw => ?_⟩,
    writable_optionalText _ _⟩
  · show Writable d.control.name
    rw [h.name]
    exact writable_of_isText htyped.name
  · show Writable d.control.sourceType
    rw [h.sourceType]
    exact writable_of_isText htyped.sourceType
  · show Writable d.control.label
    rw [h.label]
    exact writable_of_isText (htyped.label.orElse htyped.name)
  · have hsection : d.control.repeatingSection = some w := hw
    rw [h.repeatingSection, sectionName?] at hsection
    split at hsection
    · rename_i l hl
      split at hsection
      · obtain rfl := Option.some.inj hsection
        exact writable_of_isText (htyped.sectionLink l hl)
      · cases hsection
    · cases hsection

end

theorem writable_rule {cs : List Control} {number : Nat} {s : Form.DynamicSection} {r : Rule}
    (hs : s.Typed) (h : ruleOf cs number s = .ok r) : Writable r.toValue := by
  obtain ⟨targets, -, h⟩ := bind_eq_ok.mp h
  obtain rfl := Except.ok.inj h
  refine writable_record ?_
  simp only [List.forall_mem_cons]
  exact ⟨writable_text _,
    writable_of_isText (hs.caption.orElse (hs.name.orElse (Value.isText_text _))), writable_text _,
    writable_of_isText hs.condition, writable_of_isText hs.conditionField,
    writable_of_isText hs.conditionValue, writable_ofTexts _,
    List.forall_mem_nil _⟩

section
variable {f : Form} {o : Options} {rss : List (List (Nat × List Draft))} {ds : List Draft}
  {d : Document}

namespace Built

/-- A draft of a typed form is made of a typed control. -/
theorem exists_typed (h : Built f o rss ds d) (hf : f.Typed) {x : Draft} (hx : x ∈ ds) :
    ∃ count p, x.IsOf o count p ∧ p.control.Typed count := by
  obtain ⟨k, v, ps, p, hv, hps, hp, hxp⟩ := h.exists_of_mem_drafts hx
  have hcontrol := (hf.views v (List.mem_of_getElem? hv)).2 _ (mem_of_mem_placeAll hps hp)
  exact ⟨_, p, hxp, hcontrol⟩

theorem writable_page (h : Built f o rss ds d) (hf : f.Typed) {page : Page} (hpage : page ∈ d.pages) :
    Writable page.toValue := by
  obtain ⟨k, hk⟩ := List.getElem?_of_mem hpage
  obtain ⟨v, rows, hv, -, hdraft, rfl⟩ := h.getElem?_pages hk
  obtain ⟨hname, hcontrols⟩ := hf.views v (List.mem_of_getElem? hv)
  obtain ⟨ps, hps, -, -, hdrafts⟩ := draftPage_eq_ok hdraft
  have hrows : ∀ w ∈ (finishPage d.formVariables (k + 1) v.name rows).rows.map (·.toValue),
      Writable w := by
    intro w hw
    obtain ⟨r, hr, rfl⟩ := List.mem_map.mp hw
    obtain ⟨s, hs, -, hrs⟩ := exists_of_mem_finishPage hr
    refine writable_record ?_
    simp only [List.forall_mem_cons]
    refine ⟨writable_text _, writable_ofList fun u hu => ?_, List.forall_mem_nil _⟩
    obtain ⟨c, hc, rfl⟩ := List.mem_map.mp hu
    rw [hrs] at hc
    obtain ⟨x, hx, rfl⟩ := List.mem_map.mp hc
    obtain ⟨p, hp, -, hxp⟩ := (hdrafts s hs).2 x hx
    exact hxp.writable_toValue (hcontrols _ (mem_of_mem_placeAll hps hp)) _
  refine writable_record ?_
  simp only [List.forall_mem_cons]
  exact ⟨writable_text _, writable_of_isText hname, writable_ofList hrows,
    List.forall_mem_nil _⟩

theorem writable_variable (h : Built f o rss ds d) (hf : f.Typed) {v : Variable}
    (hv : v ∈ d.formVariables) : Writable v.toValue := by
  rw [h.formVariables] at hv
  obtain ⟨x, hx, hname, -⟩ := exists_of_mem_variablesFrom hv
  obtain ⟨count, p, hxp, htyped⟩ := h.exists_typed hf hx
  refine writable_record ?_
  simp only [List.forall_mem_cons]
  refine ⟨writable_text _, ?_, writable_text _, writable_text _,
    List.forall_mem_nil _⟩
  rw [hname, hxp.name]
  exact writable_of_isText htyped.name

theorem writable_titles (h : Built f o rss ds d) (hf : f.Typed) : Writable (.record d.titles) := by
  refine writable_record fun e he => ?_
  rw [h.titles] at he
  obtain ⟨x, hx, hxe⟩ := List.mem_filterMap.mp he
  obtain ⟨count, p, hxp, htyped⟩ := h.exists_typed hf hx
  unfold title? at hxe
  split at hxe
  · obtain rfl := Option.some.inj hxe
    rw [hxp.placed]
    exact writable_of_isText htyped.label
  · cases hxe

/-- The rules of a document are those of the dynamic sections. -/
theorem exists_of_mem_rules (h : Built f o rss ds d) {rs : List Rule} (hrs : d.rules = some rs)
    {r : Rule} (hr : r ∈ rs) : ∃ number, ∃ s ∈ f.dynamicSections,
      ruleOf (ds.map (·.control)) number s = .ok r := by
  have hrules := h.rules
  rw [hrs, rulesOf] at hrules
  split at hrules
  · obtain ⟨rs', hmap, heq⟩ := map_eq_ok.mp hrules
    obtain rfl := Option.some.inj heq
    obtain ⟨i, hi⟩ := List.getElem?_of_mem hr
    obtain ⟨p, hp, hpr⟩ := getElem?_of_mapM_eq_ok hmap hi
    exact ⟨_, p.1, List.fst_mem_of_mem_zipIdx (List.mem_of_getElem? hp), hpr⟩
  · cases hrules

/-- The document of a typed form has a JSON text. -/
theorem writable_toValue (h : Built f o rss ds d) (hf : f.Typed) (ho : o.Typed) :
    Writable d.toValue := by
  have hlanguage : ∃ s, d.defaultLanguage = .text s := by
    rw [h.defaultLanguage]
    exact ho.defaultLanguage
  have hlayout : Writable d.layoutType := by
    rw [h.layoutType]
    exact writable_of_isText (Or.inr ho.layoutType)
  refine writable_record ?_
  simp only [List.forall_mem_append, List.forall_mem_cons]
  refine ⟨⟨writable_text _, ?_, ?_, writable_text _, ?_, writable_ofList fun v hv => ?_,
    writable_ofList fun v hv => ?_, writable_map fun e he => ?_,
    List.forall_mem_nil _⟩, writable_optionalMember fun w hw => ?_⟩
  · rw [h.name]
    exact writable_of_isText hf.name
  · rw [h.description]
    exact writable_of_isText (ho.description.orElse (Value.isText_text _))
  · refine writable_record ?_
    simp only [List.forall_mem_cons]
    exact ⟨hlayout, writable_of_isText (Or.inr hlanguage), List.forall_mem_nil _⟩
  · obtain ⟨page, hpage, rfl⟩ := List.mem_map.mp hv
    exact h.writable_page hf hpage
  · obtain ⟨x, hx, rfl⟩ := List.mem_map.mp hv
    exact h.writable_variable hf hx
  · obtain rfl := List.mem_singleton.mp he
    obtain ⟨s, hs⟩ := hlanguage
    exact ⟨⟨s, by rw [hs]; rfl⟩, h.writable_titles hf⟩
  · obtain ⟨rs, hrs, rfl⟩ := Option.map_eq_some_iff.mp hw
    refine writable_ofList fun v hv => ?_
    obtain ⟨r, hr, rfl⟩ := List.mem_map.mp hv
    obtain ⟨number, s, hs, hrule⟩ := h.exists_of_mem_rules hrs hr
    exact writable_rule (hf.dynamicSections s hs) hrule

end Built

/-! ## Companions and products -/

/-- The counts of a document can be taken. -/
theorem exists_statistics_eq_ok (h : Built f o rss ds d) (hf : f.Typed) :
    ∃ s, statistics f ds d = .ok s ∧ s.totalControls = .count ds.length ∧
      ∃ t, s.widgetTypes = .map 0 t ∧ ∀ e ∈ t, e.1.kind = .text := by
  obtain ⟨sources, hsources⟩ : ∃ t,
      Tally.ofKeys (ds.map fun x => Statistics.sourceKey x.placed.control.sourceType) = .ok t := by
    refine Tally.exists_ofKeys_eq_ok.mpr fun k hk => ?_
    obtain ⟨x, hx, rfl⟩ := List.mem_map.mp hk
    obtain ⟨count, p, hxp, htyped⟩ := h.exists_typed hf hx
    rw [hxp.placed]
    exact (htyped.sourceType.orElse (Value.isText_text _)).unhashable?
  obtain ⟨widgets, hwidgets⟩ : ∃ t, Tally.ofKeys (ds.map fun x => .text x.control.widget) = .ok t := by
    refine Tally.exists_ofKeys_eq_ok.mpr fun k hk => ?_
    obtain ⟨x, -, rfl⟩ := List.mem_map.mp hk
    rfl
  refine ⟨_, by rw [statistics, hsources, ok_bind, hwidgets]; rfl, rfl, widgets, rfl, fun e he => ?_⟩
  obtain ⟨x, -, hkey⟩ := List.mem_map.mp (Tally.key_of_mem_ofKeys hwidgets he)
  rw [← hkey]
  rfl

theorem writable_workflow (d : Document) : Writable (workflow d) := by
  refine writable_record ?_
  simp only [List.forall_mem_cons]
  refine ⟨writable_text _, writable_text _, writable_ofList fun v hv => ?_, List.forall_mem_nil _⟩
  obtain rfl := List.mem_singleton.mp hv
  refine writable_record ?_
  simp only [List.forall_mem_cons]
  exact ⟨writable_text _, writable_ofTexts _, List.forall_mem_nil _⟩

theorem writable_metadata (hf : f.Typed) {s : Statistics} {n : Nat} (hs : s.totalControls = .count n) :
    Writable (metadata f s) := by
  refine writable_record ?_
  simp only [List.forall_mem_cons]
  refine ⟨writable_of_isText hf.id, writable_of_isText hf.formType, writable_text _, writable_int _, ?_,
    writable_int _, writable_ofList fun w hw => writable_of_isText (hf.sourceWarnings w hw),
    List.forall_mem_nil _⟩
  rw [hs]
  exact writable_int _

/-- Widgets can be listed by name. -/
theorem exists_widgetUse_eq_ok {s : Statistics} {t : Tally} (ht : s.widgetTypes = .map 0 t)
    (htexts : ∀ e ∈ t, e.1.kind = .text) : ∃ ls, widgetUse s = .ok ls := by
  have horder : Value.checkOrder (t.map (·.1)) = .ok () := by
    refine Value.checkOrder_of_texts fun k hk => ?_
    obtain ⟨e, he, rfl⟩ := List.mem_map.mp hk
    exact htexts e he
  unfold widgetUse Value.sortOn
  rw [ht, Value.entriesFor, ok_bind, horder]
  exact ⟨_, rfl⟩

theorem exists_companions_eq_ok (hf : f.Typed) (o : Options) (d : Document) {s : Statistics} {n : Nat}
    {t : Tally} (hs : s.totalControls = .count n) (ht : s.widgetTypes = .map 0 t)
    (htexts : ∀ e ∈ t, e.1.kind = .text) : ∃ as, companions f o d s = .ok as := by
  obtain ⟨flow, hflow⟩ := exists_write_eq_ok (writable_workflow d)
  obtain ⟨notes, hnotes⟩ := exists_write_eq_ok (writable_metadata hf hs)
  obtain ⟨ls, hls⟩ := exists_widgetUse_eq_ok ht htexts
  unfold companions conversionNotes
  rw [hflow, hnotes, hls]
  cases o.workflow.isGiven <;> cases o.metadata.isGiven <;> exact ⟨_, rfl⟩

end

/-- A form is generated when it has a view and its fields and the options have their types. -/
theorem exists_product_eq_ok {f : Form} {o : Options} (hf : f.Typed) (ho : o.Typed)
    (hviews : f.views ≠ []) : ∃ p, product f o = .ok p := by
  obtain ⟨ds, d, hbuild⟩ := exists_build_eq_ok hf ho
  obtain ⟨rss, hbuilt⟩ := build_eq_ok hbuild
  obtain ⟨s, hs, htotal, t, ht, htexts⟩ := exists_statistics_eq_ok hbuilt hf
  obtain ⟨json, hjson⟩ := exists_write_eq_ok (hbuilt.writable_toValue hf ho)
  obtain ⟨others, hothers⟩ := exists_companions_eq_ok hf o d htotal ht htexts
  obtain ⟨name, hname⟩ := hf.name.exists_tableNameOf_eq_ok
  exact ⟨_, product_eq_ok_iff.mpr ⟨ds, d, s, json, others, name,
    ⟨hviews, hbuild, hs, hjson, hothers, hname⟩, rfl⟩⟩

end Formwright.Nintex
