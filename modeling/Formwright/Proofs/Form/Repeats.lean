import Formwright.Proofs.Form.Warnings

/-
  Repeated names in the report of an inspection. The report notes the names that a view repeats under
  the name of the view, and of views with one name the last one that repeats anything decides
  (`noted_iff`): what earlier ones repeat is overwritten. So nothing is reported wrongly, what is noted
  is warned about, and every repeated name is reported exactly when the deciding views repeat it too
  (`Form.inspect_repeats`); `Form.inspect_loses_repeats` is a form whose first view is forgotten.
-/

namespace Formwright

namespace Form

/-- Whether a view repeats one of its names. -/
def View.repeatsAny (v : View) : Bool := v.controls.any fun c => decide (v.Repeats c.name)

/-- The last view of some name that repeats anything. -/
def deciding (vs : List View) (name : Value) : Option View :=
  (vs.filter fun v => v.name.same name && v.repeatsAny).getLast?

/-- A view whose name and whose control names are keys; only doubles have equalities that say nothing
about identity. -/
structure View.Keyed (v : View) : Prop where
  name : ∃ k, v.name.key? = some k
  controls : ∀ c ∈ v.controls, ∃ k, c.name.key? = some k

theorem View.repeatsAny_iff {v : View} : v.repeatsAny = true ↔ ∃ c ∈ v.controls, v.Repeats c.name := by
  rw [repeatsAny, List.any_eq_true]
  simp only [decide_eq_true_eq]

theorem deciding_append_singleton (vs : List View) (v : View) (name : Value) :
    deciding (vs ++ [v]) name =
      if v.name.same name && v.repeatsAny then some v else deciding vs name := by
  unfold deciding
  rw [List.filter_append, List.filter_singleton]
  cases v.name.same name && v.repeatsAny <;> simp

end Form

namespace Inspection

open Form (deciding)

/-- After names were put, entries of other views are as before, and there is one with the names: it has
the key that is equal to the view, or the view itself where there is none. -/
theorem mem_putNames {es : List (Value × List Value)} {view : Value} {names : List Value}
    {e : Value × List Value} :
    e ∈ putNames es view names ↔ e ∈ es ∧ ¬e.1.same view = true ∨
      e.2 = names ∧ ((∃ d ∈ es, d.1.same view = true ∧ d.1 = e.1) ∨
        (∀ d ∈ es, ¬d.1.same view = true) ∧ view = e.1) := by
  unfold putNames
  split
  · rename_i hany
    have hnone : ¬∀ d ∈ es, ¬d.1.same view = true := fun h => by
      obtain ⟨d, hd, hdv⟩ := List.any_eq_true.mp hany
      exact h d hd hdv
    simp only [hnone, false_and, or_false, List.mem_map]
    constructor
    · rintro ⟨d, hd, rfl⟩
      by_cases hdv : d.1.same view = true
      · rw [if_pos hdv]
        exact Or.inr ⟨rfl, d, hd, hdv, rfl⟩
      · rw [if_neg hdv]
        exact Or.inl ⟨hd, hdv⟩
    · rintro (⟨he, hev⟩ | ⟨rfl, d, hd, hdv, hde⟩)
      · exact ⟨e, he, if_neg hev⟩
      · exact ⟨d, hd, by rw [if_pos hdv, hde]⟩
  · rename_i hany
    have hnone : ∀ d ∈ es, ¬d.1.same view = true := fun d hd hdv =>
      hany (List.any_eq_true.mpr ⟨d, hd, hdv⟩)
    rw [List.mem_append, List.mem_singleton]
    constructor
    · rintro (he | rfl)
      · exact Or.inl ⟨he, hnone e he⟩
      · exact Or.inr ⟨rfl, Or.inr ⟨hnone, rfl⟩⟩
    · rintro (⟨he, -⟩ | ⟨rfl, ⟨d, hd, hdv, -⟩ | ⟨-, rfl⟩⟩)
      · exact Or.inl he
      · exact absurd hdv (hnone d hd)
      · exact Or.inr rfl

/-- What is noted under a name after names were put: those names if the view is called so, else what
was noted before. -/
theorem exists_putNames_iff {es : List (Value × List Value)} (hes : ∀ e ∈ es, ∃ k, e.1.key? = some k)
    {view name : Value} (hview : ∃ k, view.key? = some k) (hname : ∃ k, name.key? = some k)
    {names found : List Value} :
    (∃ e ∈ putNames es view names, e.1.same name = true ∧ e.2 = found) ↔
      if view.same name = true then found = names else ∃ e ∈ es, e.1.same name = true ∧ e.2 = found := by
  have hcalled : ∀ {key : Value}, (∃ k, key.key? = some k) → key.same view = true →
      (key.same name = true ↔ view.same name = true) := by
    intro key hkey hsame
    rw [Value.same_iff_key?_eq hkey hview] at hsame
    rw [Value.same_iff_key?_eq hkey hname, Value.same_iff_key?_eq hview hname, hsame]
  simp only [mem_putNames]
  split
  · rename_i hvn
    constructor
    · rintro ⟨e, ⟨he, hev⟩ | ⟨rfl, -⟩, hen, rfl⟩
      · rw [Value.same_iff_key?_eq (hes e he) hname] at hen
        rw [Value.same_iff_key?_eq hview hname] at hvn
        exact absurd ((Value.same_iff_key?_eq (hes e he) hview).mpr (hen.trans hvn.symm)) hev
      · rfl
    · rintro rfl
      by_cases hany : ∃ d ∈ es, d.1.same view = true
      · obtain ⟨d, hd, hdv⟩ := hany
        exact ⟨(d.1, found), Or.inr ⟨rfl, Or.inl ⟨d, hd, hdv, rfl⟩⟩, (hcalled (hes d hd) hdv).mpr hvn, rfl⟩
      · refine ⟨(view, found), Or.inr ⟨rfl, Or.inr ⟨fun d hd hdv => hany ⟨d, hd, hdv⟩, rfl⟩⟩, hvn, rfl⟩
  · rename_i hvn
    constructor
    · rintro ⟨e, ⟨he, hev⟩ | ⟨rfl, ⟨d, hd, hdv, hde⟩ | ⟨-, rfl⟩⟩, hen, rfl⟩
      · exact ⟨e, he, hen, rfl⟩
      · exact absurd ((hcalled (hes d hd) hdv).mp (hde ▸ hen)) hvn
      · exact absurd hen hvn
    · rintro ⟨e, he, hen, rfl⟩
      exact ⟨e, Or.inl ⟨he, fun hev => hvn ((hcalled (hes e he) hev).mp hen)⟩, hen, rfl⟩

/-- What is noted under a name is what the deciding view repeats. -/
theorem noted_iff {vs : List Form.View} (hvs : ∀ v ∈ vs, v.Keyed) {es : List (Value × List Value)}
    (h : vs.foldlM addRepeated [] = .ok es) :
    (∀ e ∈ es, ∃ v ∈ vs, v.name = e.1) ∧
      ∀ name, (∃ k, name.key? = some k) → ∀ found,
        (∃ e ∈ es, e.1.same name = true ∧ e.2 = found) ↔
          ∃ v, deciding vs name = some v ∧ repeatedNames v = .ok found := by
  induction vs using List.reverseRecOn generalizing es with
  | nil =>
    obtain rfl := Except.ok.inj h
    exact ⟨List.forall_mem_nil _, fun name _ found => by simp [deciding]⟩
  | append_singleton vs v ih =>
    rw [List.foldlM_append] at h
    obtain ⟨before, hbefore, h⟩ := bind_eq_ok.mp h
    obtain ⟨after, hafter, h⟩ := bind_eq_ok.mp h
    obtain rfl := Except.ok.inj h
    rw [List.forall_mem_append, List.forall_mem_singleton] at hvs
    obtain ⟨hfrom, hnoted⟩ := ih hvs.1 hbefore
    obtain ⟨names, hnames, hcases⟩ := addRepeated_eq_ok.mp hafter
    have hany : v.repeatsAny = true ↔ names ≠ [] := by
      rw [Form.View.repeatsAny_iff, ne_eq, repeatedNames_nil_iff hvs.2.controls hnames]
      simp only [not_forall, not_not, exists_prop]
    rcases hcases with ⟨hnil, rfl⟩ | ⟨hne, -, rfl⟩
    · have hquiet : ∀ name, ¬(v.name.same name && v.repeatsAny) = true := fun name hv =>
        hany.mp (Bool.and_eq_true_iff.mp hv).2 hnil
      refine ⟨fun e he => ?_, fun name hname found => ?_⟩
      · obtain ⟨w, hw, hwe⟩ := hfrom e he
        exact ⟨w, List.mem_append_left _ hw, hwe⟩
      · rw [Form.deciding_append_singleton, if_neg (hquiet name), hnoted name hname]
    · have hkeys : ∀ e ∈ before, ∃ k, e.1.key? = some k := by
        intro e he
        obtain ⟨w, hw, hwe⟩ := hfrom e he
        exact hwe ▸ (hvs.1 w hw).name
      refine ⟨fun e he => ?_, fun name hname found => ?_⟩
      · rcases mem_putNames.mp he with ⟨he, -⟩ | ⟨-, ⟨d, hd, -, hde⟩ | ⟨-, hve⟩⟩
        · obtain ⟨w, hw, hwe⟩ := hfrom e he
          exact ⟨w, List.mem_append_left _ hw, hwe⟩
        · obtain ⟨w, hw, hwd⟩ := hfrom d hd
          exact ⟨w, List.mem_append_left _ hw, hwd.trans hde⟩
        · exact ⟨v, List.mem_concat_self, hve⟩
      · rw [exists_putNames_iff hkeys hvs.2.name hname, Form.deciding_append_singleton, hany.mpr hne,
          Bool.and_true]
        split
        · simp [hnames, eq_comm]
        · exact hnoted name hname found

end Inspection

/-! ## Reports -/

/-- A name stands in the list of a view name. -/
def Report.Lists (r : Report) (view n : Value) : Prop :=
  ∃ e ∈ r.duplicateNames, e.1.same view = true ∧ n.occursIn e.2 = true

/-- A warning is about the repeated names of a view, and a name is among them. -/
def Report.WarnsOf (r : Report) (view n : Value) : Prop :=
  ∃ (key : Value) (s : String) (ss : List String), key.same view = true ∧ n = .text s ∧ s ∈ ss ∧
    "Duplicate control names in view " ++ key.display ++ ": " ++ ", ".intercalate ss ∈ r.warnings

namespace Form

theorem mem_of_deciding {vs : List View} {name : Value} {v : View} (h : deciding vs name = some v) :
    v ∈ vs ∧ v.name.same name = true := by
  obtain ⟨hv, hname⟩ := List.mem_filter.mp (List.mem_of_getLast? h)
  exact ⟨hv, (Bool.and_eq_true_iff.mp hname).1⟩

/-- Where a view repeats a name, there is a view that decides. -/
theorem exists_deciding {vs : List View} {v : View} (hv : v ∈ vs) (hkeyed : v.Keyed) {c : Control}
    (hc : c ∈ v.controls) (hrepeats : v.Repeats c.name) : ∃ w, deciding vs v.name = some w := by
  have hself : v.name.same v.name = true := (Value.same_iff_key?_eq hkeyed.name hkeyed.name).mpr rfl
  have hany : v.repeatsAny = true := View.repeatsAny_iff.mpr ⟨c, hc, hrepeats⟩
  have hmem : v ∈ vs.filter fun u => u.name.same v.name && u.repeatsAny :=
    List.mem_filter.mpr ⟨hv, Bool.and_eq_true_iff.mpr ⟨hself, hany⟩⟩
  exact ⟨_, List.getLast?_eq_getLast_of_ne_nil (List.ne_nil_of_mem hmem)⟩

variable {f : Form} {r : Report}

open Inspection

/-- A name is listed under that of a view when the deciding view repeats it. -/
theorem lists_iff (hf : ∀ v ∈ f.views, v.Keyed) (h : f.inspect = .ok r) {view n : Value}
    (hview : ∃ k, view.key? = some k) (hn : ∃ k, n.key? = some k) :
    r.Lists view n ↔ ∃ v, deciding f.views view = some v ∧ v.Repeats n := by
  obtain ⟨-, -, hes, -⟩ := inspect_eq_ok h
  obtain ⟨-, hnoted⟩ := noted_iff hf hes
  obtain ⟨k, hk⟩ := hn
  constructor
  · rintro ⟨e, he, hev, hlisted⟩
    obtain ⟨v, hv, hnames⟩ := (hnoted view hview e.2).mp ⟨e, he, hev, rfl⟩
    have hcontrols := (hf v (mem_of_deciding hv).1).controls
    exact ⟨v, hv, ((mem_repeatedNames hcontrols hnames).2 n k hk).mp hlisted⟩
  · rintro ⟨v, hv, hrepeats⟩
    have hmem := (mem_of_deciding hv).1
    obtain ⟨names, hnames, -⟩ :=
      (exists_foldlM_eq_ok fun es v _ => exists_addRepeated_eq_ok es v).mp ⟨_, hes⟩ v hmem
    obtain ⟨e, he, hev, rfl⟩ := (hnoted view hview names).mpr ⟨v, hv, hnames⟩
    exact ⟨e, he, hev, ((mem_repeatedNames (hf v hmem).controls hnames).2 n k hk).mpr hrepeats⟩

/-- What is listed is warned about. -/
theorem warnsOf_of_lists (h : f.inspect = .ok r) {view n : Value} (hlists : r.Lists view n) :
    r.WarnsOf view n := by
  obtain ⟨p, hp⟩ := exists_warned h
  obtain ⟨e, he, hev, hlisted⟩ := hlists
  obtain ⟨w, hwarning, hw⟩ := mem_of_mapM_eq_ok hp.repeated he
  obtain ⟨joined, hjoined, hwarning⟩ := bind_eq_ok.mp hwarning
  obtain rfl := Except.ok.inj hwarning
  obtain ⟨ss, hss, rfl⟩ := Value.joinTexts_eq_ok.mp hjoined
  rw [hss] at hlisted
  obtain ⟨m, hm, hsame⟩ := List.any_eq_true.mp hlisted
  obtain ⟨s, hs, rfl⟩ := List.mem_map.mp hm
  refine ⟨e.1, s, ss, hev, Value.same_text_right.mp hsame, hs, ?_⟩
  rw [hp.warnings, List.mem_eraseDups]
  simp only [List.mem_append]
  exact Or.inl (Or.inl (Or.inl (Or.inl hw)))

/-- Nothing is listed that is not repeated. -/
theorem repeats_of_listed (hf : ∀ v ∈ f.views, v.Keyed) (h : f.inspect = .ok r) :
    ∀ e ∈ r.duplicateNames, ∀ n ∈ e.2, ∃ v ∈ f.views, v.name.same e.1 = true ∧ v.Repeats n := by
  obtain ⟨-, -, hes, -⟩ := inspect_eq_ok h
  obtain ⟨hfrom, hnoted⟩ := noted_iff hf hes
  intro e he n hn
  obtain ⟨u, hu, hue⟩ := hfrom e he
  have hkey : ∃ k, e.1.key? = some k := hue ▸ (hf u hu).name
  obtain ⟨v, hv, hnames⟩ :=
    (hnoted e.1 hkey e.2).mp ⟨e, he, (Value.same_iff_key?_eq hkey hkey).mpr rfl, rfl⟩
  obtain ⟨hmem, hve⟩ := mem_of_deciding hv
  obtain ⟨hcontrols, hrepeats⟩ := mem_repeatedNames (hf v hmem).controls hnames
  obtain ⟨c, hc, rfl⟩ := List.mem_map.mp (hcontrols n hn)
  obtain ⟨k, hk⟩ := (hf v hmem).controls c hc
  exact ⟨v, hmem, hve, (hrepeats c.name k hk).mp (Value.occursIn_of_mem ⟨k, hk⟩ hn)⟩

/-- Every name that is listed is repeated by a view of that name. Every name that is repeated is listed
and warned about exactly when the deciding views repeat it too. -/
theorem inspect_repeats (hf : ∀ v ∈ f.views, v.Keyed) (h : f.inspect = .ok r) :
    (∀ e ∈ r.duplicateNames, ∀ n ∈ e.2, ∃ v ∈ f.views, v.name.same e.1 = true ∧ v.Repeats n) ∧
      ((∀ v ∈ f.views, ∀ c ∈ v.controls, v.Repeats c.name →
          r.Lists v.name c.name ∧ r.WarnsOf v.name c.name) ↔
        ∀ v ∈ f.views, ∀ w, deciding f.views v.name = some w →
          ∀ c ∈ v.controls, v.Repeats c.name → w.Repeats c.name) := by
  have hlists : ∀ v ∈ f.views, ∀ c ∈ v.controls, (r.Lists v.name c.name ↔
      ∃ w, deciding f.views v.name = some w ∧ w.Repeats c.name) := fun v hv c hc =>
    lists_iff hf h (hf v hv).name ((hf v hv).controls c hc)
  refine ⟨repeats_of_listed hf h, fun hall v hv w hw c hc hrepeats => ?_, fun hall v hv c hc hrepeats => ?_⟩
  · obtain ⟨u, hu, hrepeats⟩ := (hlists v hv c hc).mp (hall v hv c hc hrepeats).1
    obtain rfl := Option.some.inj (hu.symm.trans hw)
    exact hrepeats
  · obtain ⟨w, hw⟩ := exists_deciding hv (hf v hv) hc hrepeats
    have hlisted := (hlists v hv c hc).mpr ⟨w, hw, hall v hv w hw c hc hrepeats⟩
    exact ⟨hlisted, warnsOf_of_lists h hlisted⟩

/-- Two views that were left unnamed, each with a name that it repeats. -/
def namesakes : Form where
  id := .text "F"
  name := .text "F"
  formType := .null
  views := [⟨.text "view1.xsl", [bare "Total" .textField, bare "Total" .textField], []⟩,
    ⟨.text "view1.xsl", [bare "Net" .textField, bare "Net" .textField], []⟩]
  columns := []
  dynamicSections := []
  metadata := {}
  sourceWarnings := []

theorem keyed_namesakes : ∀ v ∈ namesakes.views, v.Keyed := by
  have hview : ∀ name n : String,
      View.Keyed ⟨.text name, [bare n .textField, bare n .textField], []⟩ := by
    refine fun name n => ⟨⟨_, rfl⟩, fun c hc => ?_⟩
    simp only [List.mem_cons, List.not_mem_nil, or_false, or_self] at hc
    exact hc ▸ ⟨_, rfl⟩
  exact List.forall_mem_cons.mpr ⟨hview _ _, List.forall_mem_singleton.mpr (hview _ _)⟩

theorem exists_inspect_namesakes : ∃ r, namesakes.inspect = .ok r ∧
    r.warnings = ["Duplicate control names in view view1.xsl: Net"] := by
  have h : (namesakes.inspect.map (·.warnings)).toOption =
      some ["Duplicate control names in view view1.xsl: Net"] := by
    decide +kernel
  cases hr : namesakes.inspect with
  | error e =>
    rw [hr] at h
    cases h
  | ok r =>
    rw [hr] at h
    exact ⟨r, rfl, Option.some.inj h⟩

theorem inspect_repeats_namesakes : (∀ v ∈ namesakes.views, v.Keyed) ∧
    ∃ r, namesakes.inspect = .ok r ∧
      (∀ e ∈ r.duplicateNames, ∀ n ∈ e.2,
        ∃ v ∈ namesakes.views, v.name.same e.1 = true ∧ v.Repeats n) ∧
      ((∀ v ∈ namesakes.views, ∀ c ∈ v.controls, v.Repeats c.name →
          r.Lists v.name c.name ∧ r.WarnsOf v.name c.name) ↔
        ∀ v ∈ namesakes.views, ∀ w, deciding namesakes.views v.name = some w →
          ∀ c ∈ v.controls, v.Repeats c.name → w.Repeats c.name) := by
  obtain ⟨r, hr, -⟩ := exists_inspect_namesakes
  exact ⟨keyed_namesakes, r, hr, inspect_repeats keyed_namesakes hr⟩

/-- What the first of two views of one name repeats is neither listed nor warned about. -/
theorem inspect_loses_repeats : ∃ r, namesakes.inspect = .ok r ∧
    r.warnings = ["Duplicate control names in view view1.xsl: Net"] ∧
    ∃ v ∈ namesakes.views, ∃ c ∈ v.controls, v.Repeats c.name ∧ ¬r.Lists v.name c.name := by
  obtain ⟨r, hr, hwarnings⟩ := exists_inspect_namesakes
  refine ⟨r, hr, hwarnings, _, List.mem_cons_self, _, List.mem_cons_self, by decide, fun hlists => ?_⟩
  obtain ⟨v, hv, hrepeats⟩ := (lists_iff keyed_namesakes hr ⟨_, rfl⟩ ⟨_, rfl⟩).mp hlists
  have hdeciding : deciding namesakes.views (.text "view1.xsl") =
      some ⟨.text "view1.xsl", [bare "Net" .textField, bare "Net" .textField], []⟩ := by cbv
  obtain rfl := Option.some.inj (hv.symm.trans hdeciding)
  exact absurd hrepeats (by decide)

end Form

end Formwright
