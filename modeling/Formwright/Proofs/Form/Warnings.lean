import Formwright.Proofs.Distinct
import Formwright.Proofs.Form.Declared
import Formwright.Proofs.Form.Inspection
import Formwright.Proofs.Statistics.Totals
import Mathlib.Data.List.Induction

/-
  The warnings of an inspection. They are what five checks say, and nothing is said twice
  (`Form.exists_warned`). A view repeats a name when two of its controls have it, and the names that
  are listed of a view are those (`mem_repeatedNames`); the other checks list empty containers,
  references to what is not there and a count that differs. Each of them says nothing exactly when
  there is nothing to say, so there are no warnings about a form whose fields have their declared types
  exactly when it is clean (`Form.inspect_warnings`).
-/

namespace Formwright

open Inspection

/-! ## Names that a view repeats -/

/-- A name that at least two controls of a view have. -/
def Form.View.Repeats (v : Form.View) (n : Value) : Prop :=
  2 ≤ (v.controls.map (·.name)).countP (·.same n)

instance (v : Form.View) (n : Value) : Decidable (v.Repeats n) := by
  unfold Form.View.Repeats
  infer_instance

/-- What is listed of a view are those of its names that it repeats. -/
theorem mem_repeatedNames {v : Form.View} (hv : ∀ c ∈ v.controls, ∃ k, c.name.key? = some k)
    {names : List Value} (h : repeatedNames v = .ok names) :
    (∀ n ∈ names, n ∈ v.controls.map (·.name)) ∧
      ∀ n k, n.key? = some k → (n.occursIn names = true ↔ v.Repeats n) := by
  obtain ⟨t, ht, hsorted⟩ := bind_eq_ok.mp h
  have hkeys : ∀ n ∈ v.controls.map (·.name), ∃ k, n.key? = some k := List.forall_mem_map.mpr hv
  have htallies := Tally.tallies_of_ofKeys hkeys ht
  have hmem : ∀ n, n ∈ names ↔ ∃ e ∈ t, e.2.same (.int 1) = false ∧ e.1 = n := by
    intro n
    rw [Value.mem_of_sorted_eq_ok hsorted n, List.mem_map]
    simp only [List.mem_filter, Bool.not_eq_true', and_assoc]
  have hone : ∀ n : Int, (Value.int n).same (.int 1) = false ↔ n ≠ 1 := by
    intro n
    rw [Bool.eq_false_iff, Value.same]
    exact not_congr (Value.sameNumber_whole (v := .int 1) rfl)
  refine ⟨fun n hn => ?_, fun n k hk => ?_⟩
  · obtain ⟨e, he, -, rfl⟩ := (hmem n).mp hn
    exact Tally.key_of_mem_ofKeys ht he
  · have hentry := htallies.exists_entry_iff hkeys hk
    rw [Value.occursIn, List.any_eq_true, Form.View.Repeats]
    constructor
    · rintro ⟨m, hm, hsame⟩
      obtain ⟨e, he, hcount, rfl⟩ := (hmem m).mp hm
      obtain ⟨l, hl⟩ := htallies.counted.ints e he
      rw [hl, hone] at hcount
      obtain ⟨hpos, hl⟩ := (hentry l).mp ⟨e, he, hsame, hl⟩
      omega
    · intro hrepeats
      obtain ⟨e, he, hsame, hcount⟩ := (hentry _).mpr ⟨by omega, rfl⟩
      refine ⟨e.1, (hmem e.1).mpr ⟨e, he, ?_, rfl⟩, hsame⟩
      rw [hcount, hone]
      omega

/-- Nothing is listed when no name is repeated. -/
theorem repeatedNames_nil_iff {v : Form.View} (hv : ∀ c ∈ v.controls, ∃ k, c.name.key? = some k)
    {names : List Value} (h : repeatedNames v = .ok names) :
    names = [] ↔ ∀ c ∈ v.controls, ¬v.Repeats c.name := by
  obtain ⟨hfrom, hrepeats⟩ := mem_repeatedNames hv h
  constructor
  · rintro rfl c hc hc2
    obtain ⟨k, hk⟩ := hv c hc
    cases (hrepeats c.name k hk).mpr hc2
  · intro hnone
    refine List.eq_nil_iff_forall_not_mem.mpr fun n hn => ?_
    obtain ⟨c, hc, rfl⟩ := List.mem_map.mp (hfrom n hn)
    obtain ⟨k, hk⟩ := hv c hc
    exact hnone c hc ((hrepeats c.name k hk).mp (Value.occursIn_of_mem ⟨k, hk⟩ hn))

/-! ## Parts of the warnings -/

namespace Inspection

/-- What the checks of an inspection say, one after the other. -/
structure Parts where
  repeated : List String
  empties : List String
  targets : List String
  fields : List String

/-- The message about the names that are repeated under the name of a view. -/
def repeatedWarning (e : Value × List Value) : Except Fault String := do
  return "Duplicate control names in view " ++ e.1.display ++ ": " ++ (← Value.joinTexts ", " e.2)

/-- The message about the number of controls that the source reported, if it is a wrong one. -/
def countWarning (f : Form) : List String :=
  if mismatch f then
    ["Analyzer reported " ++ f.metadata.totalControls.display ++ " controls, flattened form has " ++
      f.totalControls.repr]
  else []

/-- The warnings of a report are what the checks say, and nothing is said twice. -/
structure Warned (f : Form) (r : Report) (p : Parts) : Prop where
  repeated : r.duplicateNames.mapM repeatedWarning = .ok p.repeated
  empties : listWarning "Containers without controls: "
    ((f.allControls.filter isEmptyContainer).map (·.name)) = .ok p.empties
  targets : ∃ names, Value.sorted r.unknownTargets = .ok names ∧
    listWarning "Dynamic sections reference unknown controls: " names = .ok p.targets
  fields : ∃ names, Value.sorted r.unknownFields = .ok names ∧
    listWarning "Conditional fields without data columns: " names = .ok p.fields
  warnings : r.warnings =
    (p.repeated ++ p.empties ++ p.targets ++ p.fields ++ countWarning f).eraseDups

theorem foldl_addWarning (ws : List String) : ws.foldl addWarning [] = ws.eraseDups := by
  induction ws using List.reverseRecOn with
  | nil => rfl
  | append_singleton ws w ih =>
    have hany : ws.eraseDups.any (id · == id w) = ws.eraseDups.contains w := by
      rw [List.contains_eq_any_beq]
      exact congrArg ws.eraseDups.any (funext fun _ => BEq.comm)
    rw [List.foldl_append, ih, eraseDups_append_singleton, keepFirst, hany]
    rfl

end Inspection

theorem Form.exists_warned {f : Form} {r : Report} (h : f.inspect = .ok r) : ∃ p, Warned f r p := by
  unfold inspect at h
  obtain ⟨_, -, h⟩ := bind_eq_ok.mp h
  obtain ⟨_, -, h⟩ := bind_eq_ok.mp h
  obtain ⟨_, -, h⟩ := bind_eq_ok.mp h
  obtain ⟨_, -, h⟩ := bind_eq_ok.mp h
  obtain ⟨_, -, h⟩ := bind_eq_ok.mp h
  obtain ⟨_, -, h⟩ := bind_eq_ok.mp h
  obtain ⟨repeated, hrepeated, h⟩ := bind_eq_ok.mp h
  obtain ⟨empties, hempties, h⟩ := bind_eq_ok.mp h
  obtain ⟨_, hst, h⟩ := bind_eq_ok.mp h
  obtain ⟨targets, htargets, h⟩ := bind_eq_ok.mp h
  obtain ⟨_, hsf, h⟩ := bind_eq_ok.mp h
  obtain ⟨fields, hfields, h⟩ := bind_eq_ok.mp h
  obtain rfl := Except.ok.inj h
  exact ⟨⟨repeated, empties, targets, fields⟩, hrepeated, hempties, ⟨_, hst, htargets⟩,
    ⟨_, hsf, hfields⟩, foldl_addWarning _⟩

/-! ## Checks that say nothing -/

namespace Inspection

/-- A view adds nothing, or the names that it repeats under its own name. -/
theorem addRepeated_eq_ok {es es' : List (Value × List Value)} {v : Form.View} :
    addRepeated es v = .ok es' ↔ ∃ names, repeatedNames v = .ok names ∧
      (names = [] ∧ es' = es ∨
        names ≠ [] ∧ v.name.unhashable? = none ∧ es' = putNames es v.name names) := by
  unfold addRepeated
  rw [bind_eq_ok]
  refine exists_congr fun names => and_congr_right fun _ => ?_
  have hput : (v.name.asKey >>= fun key => .ok (putNames es key names)) = .ok es' ↔
      v.name.unhashable? = none ∧ es' = putNames es v.name names := by
    unfold Value.asKey
    cases v.name.unhashable? <;> simp [eq_comm]
  cases names with
  | nil => simp [eq_comm]
  | cons n names => simpa using hput

theorem putNames_ne_nil (es : List (Value × List Value)) (view : Value) (names : List Value) :
    putNames es view names ≠ [] := by
  unfold putNames
  split
  · rename_i hany
    rintro hnil
    rw [List.map_eq_nil_iff.mp hnil] at hany
    cases hany
  · simp

/-- Nothing is noted when no view repeats a name. -/
theorem noted_eq_nil_iff {vs : List Form.View} {es : List (Value × List Value)}
    (h : vs.foldlM addRepeated [] = .ok es) : es = [] ↔ ∀ v ∈ vs, repeatedNames v = .ok [] := by
  induction vs using List.reverseRecOn generalizing es with
  | nil =>
    obtain rfl := Except.ok.inj h
    simp
  | append_singleton vs v ih =>
    rw [List.foldlM_append] at h
    obtain ⟨before, hbefore, h⟩ := bind_eq_ok.mp h
    obtain ⟨after, hafter, h⟩ := bind_eq_ok.mp h
    obtain rfl := Except.ok.inj h
    obtain ⟨names, hnames, ⟨rfl, rfl⟩ | ⟨hne, -, rfl⟩⟩ := addRepeated_eq_ok.mp hafter
    · rw [ih hbefore, List.forall_mem_append, List.forall_mem_singleton]
      exact (and_iff_left hnames).symm
    · rw [List.forall_mem_append, List.forall_mem_singleton, hnames]
      refine iff_of_false (putNames_ne_nil _ _ _) fun hall => hne (Except.ok.inj hall.2)

theorem listWarning_eq_nil_iff {lead : String} {names : List Value} {ws : List String}
    (h : listWarning lead names = .ok ws) : ws = [] ↔ names = [] := by
  unfold listWarning at h
  split at h
  · rename_i hnil
    obtain rfl := Except.ok.inj h
    exact iff_of_true rfl (List.isEmpty_iff.mp hnil)
  · rename_i hne
    obtain ⟨s, -, h⟩ := bind_eq_ok.mp h
    obtain rfl := Except.ok.inj h
    exact iff_of_false (List.cons_ne_nil _ _) (mt List.isEmpty_iff.mpr hne)

/-- Nothing is missing when everything occurs. -/
theorem missing_eq_nil_iff {vs known names : List Value} (h : missing vs known = .ok names) :
    names = [] ↔ ∀ v ∈ vs, v.occursIn known = true := by
  obtain ⟨-, rfl⟩ := missing_eq_ok.mp h
  have hdistinct : ∀ ws : List Value, Value.distinct ws = [] ↔ ws = [] := by
    intro ws
    rw [List.eq_nil_iff_forall_not_mem, List.eq_nil_iff_forall_not_mem]
    exact Value.forall_mem_distinct (P := fun _ => False) fun _ _ _ h => h
  rw [hdistinct, List.filter_eq_nil_iff]
  simp only [Bool.not_eq_true', Bool.not_eq_false]

/-- References that are listed after they were sorted are not listed when all of them are known. -/
theorem listWarning_missing {lead : String} {vs known names sorted : List Value} {ws : List String}
    (hmissing : missing vs known = .ok names) (hsorted : Value.sorted names = .ok sorted)
    (h : listWarning lead sorted = .ok ws) : ws = [] ↔ ∀ v ∈ vs, v.occursIn known = true := by
  have hnil : sorted = [] ↔ names = [] := by
    rw [List.eq_nil_iff_forall_not_mem, List.eq_nil_iff_forall_not_mem]
    exact forall_congr' fun v => not_congr (Value.mem_of_sorted_eq_ok hsorted v)
  rw [listWarning_eq_nil_iff h, hnil, missing_eq_nil_iff hmissing]

end Inspection

/-! ## Forms without faults -/

/-- A form about which there is nothing to warn. -/
structure Form.Clean (f : Form) : Prop where
  names : ∀ v ∈ f.views, (v.controls.map (·.name)).Nodup
  containers : ∀ c ∈ f.allControls, c.isContainer = true → c.childCount ≠ .int 0
  targets : ∀ s ∈ f.dynamicSections, ∀ n ∈ s.controls, ∃ v ∈ f.views, ∃ c ∈ v.controls, c.name = n
  metadataFields : ∀ n ∈ f.metadata.conditionalFields, ∃ c ∈ f.columns, c.name = n
  columnFields : ∀ d ∈ f.columns, d.conditionalOnField ≠ .null → d.conditionalOnField ≠ .text "" →
    ∃ c ∈ f.columns, c.name = d.conditionalOnField
  /-- Zero means that the source did not report a count. -/
  count : f.metadata.totalControls = .int 0 ∨ f.metadata.totalControls = .count f.allControls.length

namespace Inspection

variable {f : Form}

/-- Texts are the distinct names of a view when no one of them is repeated. -/
theorem nodup_names_iff {v : Form.View} (hv : ∀ c ∈ v.controls, c.name.kind = .text) :
    (v.controls.map (·.name)).Nodup ↔ ∀ c ∈ v.controls, ¬v.Repeats c.name := by
  obtain ⟨ss, hss⟩ : ∃ ss : List String, v.controls.map (·.name) = ss.map .text :=
    Value.exists_map_text (List.forall_mem_map.mpr hv)
  have hcount : ∀ s, v.Repeats (.text s) ↔ 2 ≤ ss.count s := by
    intro s
    rw [Form.View.Repeats, hss, List.countP_map, List.count]
    exact iff_of_eq (congrArg (2 ≤ ss.countP ·) (funext fun t => Value.same_text t s))
  have hall : (∀ c ∈ v.controls, ¬v.Repeats c.name) ↔ ∀ n ∈ v.controls.map (·.name), ¬v.Repeats n := by
    rw [List.forall_mem_map]
  rw [hall, hss, nodup_map_iff fun _ _ => Value.text.inj, List.nodup_iff_count, List.forall_mem_map]
  constructor
  · intro h s _
    rw [hcount]
    exact Nat.not_le.mpr (Nat.lt_succ_of_le (h s))
  · intro h s
    by_cases hs : s ∈ ss
    · have hnot := h s hs
      rw [hcount] at hnot
      omega
    · rw [List.count_eq_zero_of_not_mem hs]
      exact Nat.zero_le 1

/-- Among texts, a view repeats nothing when its names are distinct. -/
theorem repeatedNames_eq_nil_iff {v : Form.View} (hv : ∀ c ∈ v.controls, c.name.kind = .text) :
    repeatedNames v = .ok [] ↔ (v.controls.map (·.name)).Nodup := by
  obtain ⟨names, hnames, -⟩ := exists_repeatedNames_eq_ok hv
  have hkeys : ∀ c ∈ v.controls, ∃ k, c.name.key? = some k := by
    intro c hc
    obtain ⟨s, hs⟩ := Value.kind_eq_text.mp (hv c hc)
    exact ⟨.text s, by rw [hs]; rfl⟩
  rw [hnames, Except.ok.injEq, repeatedNames_nil_iff hkeys hnames, nodup_names_iff hv]

theorem emptyContainers_eq_nil_iff (hf : f.Declared) :
    (f.allControls.filter isEmptyContainer).map (·.name) = [] ↔
      ∀ c ∈ f.allControls, c.isContainer = true → c.childCount ≠ .int 0 := by
  rw [List.map_eq_nil_iff, List.filter_eq_nil_iff]
  refine forall_congr' fun c => forall_congr' fun hc => ?_
  obtain ⟨n, hn⟩ := (hf.control hc).childCount
  rw [isEmptyContainer, Bool.and_eq_true, not_and, hn, Value.same, Value.sameNumber_whole (v := .int 0) rfl]
  simp

/-- A text is among the names of all controls when a view has a control of this name. -/
theorem borne_iff {s : String} : (Value.text s).occursIn (f.allControls.map (·.name)) = true ↔
    ∃ v ∈ f.views, ∃ c ∈ v.controls, c.name = .text s := by
  rw [Value.occursIn_text, List.mem_map]
  constructor
  · rintro ⟨c, hc, hname⟩
    obtain ⟨v, hv, hcv⟩ := List.mem_flatMap.mp hc
    exact ⟨v, hv, c, hcv, hname⟩
  · rintro ⟨v, hv, c, hcv, hname⟩
    exact ⟨c, List.mem_flatMap.mpr ⟨v, hv, hcv⟩, hname⟩

theorem targets_known_iff (hf : f.Declared) :
    (∀ n ∈ f.dynamicSections.flatMap (·.controls), n.occursIn (f.allControls.map (·.name)) = true) ↔
      ∀ s ∈ f.dynamicSections, ∀ n ∈ s.controls, ∃ v ∈ f.views, ∃ c ∈ v.controls, c.name = n := by
  rw [List.forall_mem_flatMap]
  refine forall_congr' fun s => forall_congr' fun hs => forall_congr' fun n => forall_congr' fun hn => ?_
  obtain ⟨t, rfl⟩ := (hf.dynamicSections s hs).controls n hn
  exact borne_iff

/-- Unknown targets are the governed names that no control has. -/
theorem mem_unknownTargets_iff (hf : f.Declared) {r : Report} (h : f.inspect = .ok r) {n : Value} :
    n ∈ r.unknownTargets ↔ (∃ s ∈ f.dynamicSections, n ∈ s.controls) ∧
      ∀ v ∈ f.views, ∀ c ∈ v.controls, c.name ≠ n := by
  obtain ⟨-, -, -, hmissing, -⟩ := Form.inspect_eq_ok h
  obtain ⟨-, hunknown⟩ := missing_eq_ok.mp hmissing
  have htext : ∀ s, Value.text s ∈ r.unknownTargets ↔
      (∃ d ∈ f.dynamicSections, .text s ∈ d.controls) ∧ ∀ v ∈ f.views, ∀ c ∈ v.controls, c.name ≠ .text s := by
    intro s
    rw [hunknown, Value.text_mem_distinct, List.mem_filter, List.mem_flatMap, Bool.not_eq_true',
      Bool.eq_false_iff, ne_eq, borne_iff]
    simp only [not_exists, not_and, ne_eq]
  have hall : ∀ m ∈ r.unknownTargets, m.kind = .text := by
    rw [hunknown, Value.forall_mem_distinct fun v w h => (Value.kind_eq_text_of_same h).mpr]
    intro m hm
    obtain ⟨d, hd, hmd⟩ := List.mem_flatMap.mp (List.mem_filter.mp hm).1
    exact Value.kind_eq_text.mpr ((hf.dynamicSections d hd).controls m hmd)
  constructor
  · intro hn
    obtain ⟨s, rfl⟩ := Value.kind_eq_text.mp (hall n hn)
    exact (htext s).mp hn
  · rintro ⟨⟨d, hd, hn⟩, hnone⟩
    obtain ⟨s, rfl⟩ := (hf.dynamicSections d hd).controls n hn
    exact (htext s).mpr ⟨⟨d, hd, hn⟩, hnone⟩

theorem fields_known_iff (hf : f.Declared) :
    (∀ n ∈ conditionalFields f, n.occursIn (f.columns.map (·.name)) = true) ↔
      (∀ n ∈ f.metadata.conditionalFields, ∃ c ∈ f.columns, c.name = n) ∧
        ∀ d ∈ f.columns, d.conditionalOnField ≠ .null → d.conditionalOnField ≠ .text "" →
          ∃ c ∈ f.columns, c.name = d.conditionalOnField := by
  have hborne : ∀ t, (Value.text t).occursIn (f.columns.map (·.name)) = true ↔
      ∃ c ∈ f.columns, c.name = .text t := fun t => by rw [Value.occursIn_text, List.mem_map]
  rw [conditionalFields, List.forall_mem_append]
  refine and_congr (forall_congr' fun n => forall_congr' fun hn => ?_) ?_
  · obtain ⟨t, rfl⟩ := hf.metadata.conditionalFields n hn
    exact hborne t
  · simp only [List.mem_filter, and_imp, List.forall_mem_map]
    refine forall_congr' fun d => forall_congr' fun hd => ?_
    rcases (hf.columns d hd).conditionalOnField with hnull | ⟨t, ht⟩
    · rw [hnull]
      simp [Value.isGiven]
    · rw [ht, hborne]
      simp [Value.isGiven]

theorem countWarning_eq_nil_iff (hf : f.Declared) :
    countWarning f = [] ↔ f.metadata.totalControls = .int 0 ∨
      f.metadata.totalControls = .count f.allControls.length := by
  obtain ⟨n, hn⟩ := hf.metadata.totalControls
  have hmismatch : countWarning f = [] ↔ mismatch f = false := by
    unfold countWarning
    cases mismatch f <;> simp
  rw [hmismatch, mismatch, hn, f.length_allControls, Bool.and_eq_false_iff, Bool.not_eq_false', Value.same,
    Value.sameNumber_whole (v := .count f.totalControls) rfl]
  simp [Value.isGiven, Value.count]

end Inspection

namespace Form

/-- A control with nothing but a name and a type. -/
def bare (name : String) (type : ControlType) : Control where
  name := .text name
  type := type
  sourceType := .text ""
  label := .null
  binding := .null
  gridPosition := .null
  choices := []
  sectionLink := none
  parentIndex := .null
  depth := .int 0
  childCount := .int 0
  properties := []
  isReadOnly := .bool false
  isRequired := .bool false

/-- A section that governs some controls. -/
def governing (names : List String) : DynamicSection where
  name := .text "Region"
  mode := .text "show"
  ctrlId := .null
  caption := .null
  condition := .text "a = 1"
  conditionField := .text "a"
  conditionValue := .text "1"
  controls := names.map .text
  isVisible := .bool true

/-- A form with a fault of each kind. -/
def flawed : Form where
  id := .text "F"
  name := .text "F"
  formType := .null
  views := [⟨.text "V", [bare "a" .textField, bare "a" .group], []⟩, ⟨.text "W", [bare "b" .textField], []⟩]
  columns := []
  dynamicSections := [governing ["c", "b"]]
  metadata := { totalControls := .int 2, conditionalFields := [.text "d"] }
  sourceWarnings := []

theorem declared_bare (name : String) (type : ControlType) : (bare name type).Declared :=
  ⟨⟨_, rfl⟩, ⟨_, rfl⟩, Or.inl rfl, Or.inl rfl, Or.inl rfl, List.forall_mem_nil _, nofun, Or.inl rfl,
    ⟨_, rfl⟩, ⟨_, rfl⟩, List.forall_mem_nil _, .nil, List.forall_mem_nil _, ⟨_, rfl⟩, ⟨_, rfl⟩⟩

theorem declared_governing (names : List String) : (governing names).Declared :=
  ⟨⟨_, rfl⟩, ⟨_, rfl⟩, Or.inl rfl, Or.inl rfl, ⟨_, rfl⟩, ⟨_, rfl⟩, ⟨_, rfl⟩,
    List.forall_mem_map.mpr fun s _ => ⟨s, rfl⟩, ⟨_, rfl⟩⟩

theorem declared_flawed : flawed.Declared := by
  have hview : ∀ (name : String) (cs : List Control), (∀ c ∈ cs, c.Declared) →
      (View.mk (.text name) cs []).Declared := fun name cs hcs => ⟨⟨_, rfl⟩, hcs, List.forall_mem_nil _⟩
  refine ⟨⟨_, rfl⟩, ⟨_, rfl⟩, Or.inl rfl, ?_, List.forall_mem_nil _,
    List.forall_mem_singleton.mpr (declared_governing _),
    ⟨⟨_, rfl⟩, ⟨_, rfl⟩, ⟨_, rfl⟩, ⟨_, rfl⟩, List.forall_mem_singleton.mpr ⟨_, rfl⟩⟩, List.forall_mem_nil _⟩
  refine List.forall_mem_cons.mpr ⟨hview _ _ ?_, List.forall_mem_singleton.mpr (hview _ _ ?_)⟩
  · exact List.forall_mem_cons.mpr ⟨declared_bare _ _, List.forall_mem_singleton.mpr (declared_bare _ _)⟩
  · exact List.forall_mem_singleton.mpr (declared_bare _ _)

example : (flawed.inspect.map (·.warnings)).toOption = some [
    "Duplicate control names in view V: a",
    "Containers without controls: a",
    "Dynamic sections reference unknown controls: c",
    "Conditional fields without data columns: d",
    "Analyzer reported 2 controls, flattened form has 3"] := by
  decide +kernel

end Form

end Formwright
