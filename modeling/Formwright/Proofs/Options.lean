import Formwright.Options
import Formwright.Proofs.Value.Comparing
import Formwright.Proofs.Value.Records
import Formwright.Proofs.Value.Texts

/-
  Reading options. A document says its options when every key names one and the output format is named
  in letters of either case or not given (`Says`). It is refused with a reason when it is of another kind,
  or has unknown names or an unsupported format (`Refused`). The names of unknown options are put in order
  and joined, and a format is raised to upper case, before they are checked; so a key that is no text, or
  a format that has no upper case, ends reading before a reason is given (`Unexpected`). There is nothing
  else in a document (`document_cases`), and each of the three is what reading does (`read_faults`).
-/

namespace Formwright

namespace OutputFormat

/-- A value that names a format: the name in letters of either case, or nothing for JSON. -/
def Names (v : Value) (f : OutputFormat) : Prop :=
  v.isGiven = false ∧ f = .json ∨ ∃ s, v = .text s ∧ Text.upper s = f.name

theorem named_eq_ok {s : String} {f : OutputFormat} : named s = .ok f ↔ s = f.name := by
  unfold named
  constructor
  · intro h
    split at h
    · rename_i g hg
      obtain rfl := Except.ok.inj h
      have hname : (g.name == s) = true := List.find?_some (p := fun k : OutputFormat => k.name == s) hg
      exact (beq_iff_eq.mp hname).symm
    · cases h
  · rintro rfl
    cases f <;> rfl

theorem category_of_named {s : String} {e : Fault} (h : named s = .error e) :
    e.category = .options := by
  unfold named at h
  split at h
  · cases h
  · obtain rfl := Except.error.inj h
    rfl

theorem ofValue_eq_ok {v : Value} {f : OutputFormat} : ofValue v = .ok f ↔ Names v f := by
  unfold ofValue Names
  by_cases hgiven : v.isGiven = true
  · rw [if_pos hgiven]
    cases v with
    | text s => simp [named_eq_ok, hgiven]
    | _ => simp [hgiven]
  · have hempty : ∀ s, v = .text s → Text.upper s ≠ f.name := by
      rintro s rfl
      obtain rfl : s = "" := by simpa using hgiven
      cases f <;> decide
    rw [if_neg hgiven]
    constructor
    · intro h
      exact .inl ⟨by simpa using hgiven, (Except.ok.inj h).symm⟩
    · rintro (⟨-, rfl⟩ | ⟨s, hs, hname⟩)
      · rfl
      · exact absurd hname (hempty s hs)

/-- A format that is not supported is refused when it is named by characters or bytes; no other value
can be a name. -/
theorem category_of_ofValue {v : Value} {e : Fault} (h : ofValue v = .error e) :
    e.category = .options ↔ v.kind = .text ∨ v.kind = .bytes := by
  unfold ofValue at h
  split at h
  · cases v with
    | text s => simp [category_of_named h, Value.kind]
    | bytes bs =>
      obtain rfl := Except.error.inj h
      simp [Fault.category, Value.kind]
    | _ =>
      obtain rfl := Except.error.inj h
      simp [Fault.category, Value.kind]
  · cases h

end OutputFormat

namespace Options

/-! ## Keys -/

/-- A key that names an option. -/
def IsOption (k : Value) : Prop := ∃ n ∈ names, k = .text n

theorem occursIn_names_iff {k : Value} : k.occursIn (names.map .text) = true ↔ IsOption k := by
  rw [Value.occursIn, List.any_map, List.any_eq_true]
  exact exists_congr fun n => and_congr_right fun _ => Value.same_text_right

theorem IsOption.kind {k : Value} (h : IsOption k) : k.kind = .text := by
  obtain ⟨n, -, rfl⟩ := h
  rfl

variable {es : List (Value × Value)}

theorem mem_unknownKeys {k : Value} : k ∈ unknownKeys es ↔ (∃ e ∈ es, e.1 = k) ∧ ¬ IsOption k := by
  rw [unknownKeys, List.mem_filter, List.mem_map, Bool.not_eq_true', ← occursIn_names_iff,
    Bool.not_eq_true]

theorem checkKeys_of_known (h : ∀ e ∈ es, IsOption e.1) : checkKeys es = .ok () := by
  have hnone : unknownKeys es = [] := by
    refine List.eq_nil_iff_forall_not_mem.mpr fun k hk => ?_
    obtain ⟨⟨e, he, rfl⟩, hunknown⟩ := mem_unknownKeys.mp hk
    exact hunknown (h e he)
  have hsorted : Value.sorted [] = .ok [] := by simpa using Value.sorted_texts []
  rw [checkKeys, hnone, hsorted]
  rfl

/-- Unknown keys that are texts are named in ascending order. -/
theorem checkKeys_of_texts {ss : List String} (h : unknownKeys es = ss.map .text) (hne : ss ≠ []) :
    checkKeys es = .error (.unknownOptions (ss.mergeSort fun a b => a ≤ b)) := by
  have hempty : ((ss.mergeSort fun a b => a ≤ b).map Value.text).isEmpty = false := by
    rw [List.isEmpty_eq_false_iff, ne_eq, List.map_eq_nil_iff]
    exact fun hnil => hne (List.perm_nil.mp (hnil ▸ (List.mergeSort_perm ss _).symm))
  have hjoin : Value.joinTexts ", " ((ss.mergeSort fun a b => a ≤ b).map Value.text) = .ok _ :=
    Value.joinTexts_eq_ok.mpr ⟨_, rfl, rfl⟩
  have hdisplay : ((ss.mergeSort fun a b => a ≤ b).map Value.text).map Value.display =
      ss.mergeSort fun a b => a ≤ b := by
    rw [List.map_map]
    exact List.map_id _
  rw [checkKeys, h, Value.sorted_texts, ok_bind, hempty, Bool.not_false, if_pos rfl, hjoin, hdisplay]
  rfl

/-- Other unknown keys have no order, or they cannot be joined. -/
theorem checkKeys_of_unnamed {e : Value × Value} (he : e ∈ es) (hkind : e.1.kind ≠ .text) :
    ∃ f, checkKeys es = .error f ∧ f.category = .misuse := by
  have hmem : e.1 ∈ unknownKeys es := mem_unknownKeys.mpr ⟨⟨e, he, rfl⟩, fun h => hkind h.kind⟩
  rw [checkKeys]
  cases hsorted : Value.sorted (unknownKeys es) with
  | error f => exact ⟨f, rfl, Value.category_of_sorted hsorted⟩
  | ok ks =>
    -- sorting loses no key, so joining comes upon the one that is no text
    have hmem' : e.1 ∈ ks := (Value.mem_of_sorted_eq_ok hsorted e.1).mpr hmem
    have hne : ks.isEmpty = false := List.isEmpty_eq_false_iff.mpr (List.ne_nil_of_mem hmem')
    rw [ok_bind, hne, Bool.not_false, if_pos rfl]
    cases hjoin : Value.joinTexts ", " ks with
    | error f => exact ⟨f, rfl, Value.category_of_joinTexts hjoin⟩
    | ok s => exact absurd (Value.exists_joinTexts_eq_ok.mp ⟨s, hjoin⟩ _ hmem') hkind

/-! ## Entries -/

/-- The value of an option, by its name. -/
def setting (o : Options) (n : String) : Option Value :=
  match o.toValue with
  | .map _ fs => Value.member? fs n
  | _ => none

/-- Options that are those of some entries, or the defaults. -/
structure Follows (es : List (Value × Value)) (o : Options) : Prop where
  format : OutputFormat.Names ((Value.member? es "output_format").getD .null) o.outputFormat
  others : ∀ n ∈ names, n ≠ "output_format" →
    o.setting n = (Value.member? es n).or (({} : Options).setting n)

theorem setting_eq (o : Options) (n : String) : o.setting n = List.lookup n [
    ("form_name", o.formName), ("description", o.description),
    ("include_validation_rules", o.validationRules), ("include_conditional_logic", o.conditionalLogic),
    ("include_calculations", o.calculations), ("generate_workflow", o.workflow),
    ("output_format", .text o.outputFormat.name), ("default_language", o.defaultLanguage),
    ("include_metadata", o.metadata), ("include_comments", o.comments),
    ("variable_prefix", o.variableLead), ("layout_type", o.layoutType)] :=
  Value.member?_record _ n

/-- Options are known from their format and the values of the others. -/
theorem eq_of_setting {o p : Options} (hformat : o.outputFormat = p.outputFormat)
    (h : ∀ n ∈ names, n ≠ "output_format" → o.setting n = p.setting n) : o = p := by
  simp only [setting_eq] at h
  -- each name but that of the format gives one field, so `h` has an equation for every field
  cases o
  cases p
  simp_all [names, List.lookup_cons]

theorem names_default_iff {v : Option Value} {f : OutputFormat} :
    OutputFormat.Names (v.getD (.text OutputFormat.json.name)) f ↔
      OutputFormat.Names (v.getD .null) f := by
  cases v with
  | none =>
    have hsame : OutputFormat.ofValue (.text OutputFormat.json.name) = OutputFormat.ofValue .null := rfl
    show OutputFormat.Names (.text OutputFormat.json.name) f ↔ OutputFormat.Names .null f
    rw [← OutputFormat.ofValue_eq_ok, ← OutputFormat.ofValue_eq_ok, hsame]
  | some v => exact Iff.rfl

/-- Entries with known keys are read when they name a format, as options that follow them. -/
theorem exists_ofEntries (hknown : ∀ e ∈ es, IsOption e.1) {f : OutputFormat}
    (hf : OutputFormat.Names ((Value.member? es "output_format").getD .null) f) :
    ∃ o, ofEntries es = .ok o ∧ o.outputFormat = f ∧ Follows es o := by
  have hvalue := OutputFormat.ofValue_eq_ok.mpr (names_default_iff.mpr hf)
  rw [ofEntries, checkKeys_of_known hknown, ok_bind]
  refine ⟨_, bind_eq_ok.mpr ⟨f, hvalue, rfl⟩, rfl, hf, ?_⟩
  simp [setting_eq, names, List.lookup_cons]

theorem ofEntries_eq_ok (hknown : ∀ e ∈ es, IsOption e.1) {o : Options} :
    ofEntries es = .ok o ↔ Follows es o := by
  constructor
  · intro h
    have hformat := h
    rw [ofEntries, checkKeys_of_known hknown, ok_bind] at hformat
    obtain ⟨f, hf, -⟩ := bind_eq_ok.mp hformat
    obtain ⟨p, hp, -, hfollows⟩ :=
      exists_ofEntries hknown (names_default_iff.mp (OutputFormat.ofValue_eq_ok.mp hf))
    obtain rfl := Except.ok.inj (h.symm.trans hp)
    exact hfollows
  · intro h
    obtain ⟨p, hp, hformat, hfollows⟩ := exists_ofEntries hknown h.format
    have hsame : p = o := eq_of_setting hformat fun n hn hne => by
      rw [hfollows.others n hn hne, h.others n hn hne]
    exact hsame ▸ hp

/-! ## Documents -/

/-- The options that a document stands for. -/
inductive Says : Value → Options → Prop
  | null : Says .null {}
  | map {node : Nat} {es : List (Value × Value)} {o : Options} (known : ∀ e ∈ es, IsOption e.1)
      (follows : Follows es o) : Says (.map node es) o

/-- Documents that reading refuses with a reason. -/
inductive Refused : Value → Prop
  | kind {d : Value} (hnull : d.kind ≠ .null) (hmap : d.kind ≠ .map) : Refused d
  | keys {node : Nat} {es : List (Value × Value)} (texts : ∀ e ∈ es, e.1.kind = .text)
      (unknown : ∃ e ∈ es, ¬ IsOption e.1) : Refused (.map node es)
  | format {node : Nat} {es : List (Value × Value)} {v : Value} (known : ∀ e ∈ es, IsOption e.1)
      (hv : Value.member? es "output_format" = some v) (hkind : v.kind = .text ∨ v.kind = .bytes)
      (unsupported : ∀ f, ¬ OutputFormat.Names v f) : Refused (.map node es)

/-- Documents that no check expects: with a key that is no text, or with a format that is neither
characters nor bytes. -/
inductive Unexpected : Value → Prop
  | key {node : Nat} {es : List (Value × Value)} {e : Value × Value} (he : e ∈ es)
      (hkind : e.1.kind ≠ .text) : Unexpected (.map node es)
  | format {node : Nat} {es : List (Value × Value)} {v : Value} (known : ∀ e ∈ es, IsOption e.1)
      (hv : Value.member? es "output_format" = some v) (hkind : ¬ (v.kind = .text ∨ v.kind = .bytes))
      (given : v.isGiven = true) : Unexpected (.map node es)

/-- What stands for a format names one, or it is given and names none. -/
theorem format_cases (v : Option Value) : (∃ f, OutputFormat.Names (v.getD .null) f) ∨
    ∃ w, v = some w ∧ w.isGiven = true ∧ ∀ f, ¬ OutputFormat.Names w f := by
  cases v with
  | none => exact .inl ⟨.json, .inl ⟨rfl, rfl⟩⟩
  | some w =>
    by_cases hnamed : ∃ f, OutputFormat.Names w f
    · exact .inl hnamed
    · cases hgiven : w.isGiven with
      | false => exact absurd ⟨.json, .inl ⟨hgiven, rfl⟩⟩ hnamed
      | true => exact .inr ⟨w, rfl, hgiven, fun f hf => hnamed ⟨f, hf⟩⟩

theorem entries_cases (node : Nat) (es : List (Value × Value)) :
    (∃ o, Says (.map node es) o) ∨ Refused (.map node es) ∨ Unexpected (.map node es) := by
  by_cases htexts : ∀ e ∈ es, e.1.kind = .text
  · by_cases hknown : ∀ e ∈ es, IsOption e.1
    · rcases format_cases (Value.member? es "output_format") with ⟨f, hf⟩ | ⟨v, hv, hgiven, hnone⟩
      · obtain ⟨o, -, -, hfollows⟩ := exists_ofEntries hknown hf
        exact .inl ⟨o, .map hknown hfollows⟩
      · by_cases hkind : v.kind = .text ∨ v.kind = .bytes
        · exact .inr (.inl (.format hknown hv hkind hnone))
        · exact .inr (.inr (.format hknown hv hkind hgiven))
    · simp only [Classical.not_forall, exists_prop] at hknown
      exact .inr (.inl (.keys htexts hknown))
  · simp only [Classical.not_forall, exists_prop] at htexts
    obtain ⟨e, he, hkind⟩ := htexts
    exact .inr (.inr (.key he hkind))

/-- There are no other documents. -/
theorem document_cases (d : Value) : (∃ o, Says d o) ∨ Refused d ∨ Unexpected d := by
  cases d with
  | null => exact .inl ⟨{}, .null⟩
  | map node es => exact entries_cases node es
  | _ => exact .inr (.inl (.kind Kind.noConfusion Kind.noConfusion))

theorem Says.read_eq_ok {d : Value} {o : Options} (h : Says d o) : read d = .ok o := by
  cases h with
  | null => rfl
  | map hknown hfollows => exact (ofEntries_eq_ok hknown).mpr hfollows

/-- A format that is none is what reading ends with when all keys are known. -/
theorem read_of_unnamed_format {node : Nat} {v : Value} (hknown : ∀ e ∈ es, IsOption e.1)
    (hv : Value.member? es "output_format" = some v) (hnone : ∀ f, ¬ OutputFormat.Names v f) :
    ∃ e, read (.map node es) = .error e ∧ OutputFormat.ofValue v = .error e := by
  cases hvalue : OutputFormat.ofValue v with
  | ok f => exact absurd (OutputFormat.ofValue_eq_ok.mp hvalue) (hnone f)
  | error e =>
    refine ⟨e, ?_, rfl⟩
    show ofEntries es = _
    rw [ofEntries, checkKeys_of_known hknown, ok_bind]
    refine bind_eq_error.mpr (.inl ?_)
    dsimp only
    rw [hv]
    exact hvalue

theorem exists_unknownNames (h : ∀ e ∈ es, e.1.kind = .text) (hunknown : ∃ e ∈ es, ¬ IsOption e.1) :
    ∃ ss, unknownKeys es = ss.map .text ∧ ss ≠ [] := by
  have htexts : ∀ k ∈ unknownKeys es, k.kind = .text := by
    intro k hk
    obtain ⟨⟨e, he, rfl⟩, -⟩ := mem_unknownKeys.mp hk
    exact h e he
  obtain ⟨ss, hss⟩ := Value.exists_map_text htexts
  obtain ⟨e, he, hnot⟩ := hunknown
  have hmem : e.1 ∈ unknownKeys es := mem_unknownKeys.mpr ⟨⟨e, he, rfl⟩, hnot⟩
  refine ⟨ss, hss, ?_⟩
  rintro rfl
  rw [hss] at hmem
  cases hmem

theorem Refused.read_eq_error {d : Value} (h : Refused d) :
    ∃ e, read d = .error e ∧ e.category = .options := by
  cases h with
  | kind hnull hmap =>
    refine ⟨.optionsNotMapping d.kind, ?_, rfl⟩
    cases d <;> first | rfl | simp [Value.kind] at hnull hmap
  | keys htexts hunknown =>
    obtain ⟨ss, hss, hne⟩ := exists_unknownNames htexts hunknown
    refine ⟨.unknownOptions (ss.mergeSort fun a b => a ≤ b), ?_, rfl⟩
    show ofEntries _ = _
    rw [ofEntries, checkKeys_of_texts hss hne]
    rfl
  | format hknown hv hkind hnone =>
    obtain ⟨e, he, hvalue⟩ := read_of_unnamed_format hknown hv hnone
    exact ⟨e, he, (OutputFormat.category_of_ofValue hvalue).mpr hkind⟩

theorem Unexpected.read_eq_error {d : Value} (h : Unexpected d) :
    ∃ e, read d = .error e ∧ e.category ≠ .options := by
  cases h with
  | key he hkind =>
    obtain ⟨e, hkeys, hcategory⟩ := checkKeys_of_unnamed he hkind
    refine ⟨e, ?_, by rw [hcategory]; decide⟩
    show ofEntries _ = _
    rw [ofEntries, hkeys]
    rfl
  | @format _ _ v hknown hv hkind hgiven =>
    have hnone : ∀ f, ¬ OutputFormat.Names v f := by
      rintro f (⟨hempty, -⟩ | ⟨s, rfl, -⟩)
      · exact Bool.noConfusion (hempty.symm.trans hgiven)
      · exact hkind (.inl rfl)
    obtain ⟨e, he, hvalue⟩ := read_of_unnamed_format hknown hv hnone
    exact ⟨e, he, fun hcategory => hkind ((OutputFormat.category_of_ofValue hvalue).mp hcategory)⟩

/-- A document is read exactly as what it says, it is refused with a reason exactly when it is of
another kind, has an unknown name or an unsupported format, and it fails in another way exactly when it
has a key that is no text or a format that is no name at all. -/
theorem read_faults (d : Value) :
    (∀ o, read d = .ok o ↔ Says d o) ∧
    ((∃ e, read d = .error e ∧ e.category = .options) ↔ Refused d) ∧
    ((∃ e, read d = .error e ∧ e.category ≠ .options) ↔ Unexpected d) := by
  refine ⟨fun o => ⟨fun h => ?_, Says.read_eq_ok⟩, ⟨?_, Refused.read_eq_error⟩,
    ⟨?_, Unexpected.read_eq_error⟩⟩
  · rcases document_cases d with ⟨p, hp⟩ | hrefused | hunexpected
    · obtain rfl := Except.ok.inj (h.symm.trans (Says.read_eq_ok hp))
      exact hp
    · obtain ⟨e, he, -⟩ := Refused.read_eq_error hrefused
      cases h.symm.trans he
    · obtain ⟨e, he, -⟩ := Unexpected.read_eq_error hunexpected
      cases h.symm.trans he
  · rintro ⟨e, he, hcategory⟩
    rcases document_cases d with ⟨p, hp⟩ | hrefused | hunexpected
    · cases he.symm.trans (Says.read_eq_ok hp)
    · exact hrefused
    · obtain ⟨e', he', hother⟩ := Unexpected.read_eq_error hunexpected
      obtain rfl := Except.error.inj (he.symm.trans he')
      exact absurd hcategory hother
  · rintro ⟨e, he, hcategory⟩
    rcases document_cases d with ⟨p, hp⟩ | hrefused | hunexpected
    · cases he.symm.trans (Says.read_eq_ok hp)
    · obtain ⟨e', he', hreason⟩ := Refused.read_eq_error hrefused
      obtain rfl := Except.error.inj (he.symm.trans he')
      exact absurd hreason hcategory
    · exact hunexpected

/-- A year as a key, and a truth value as a format: the faults are not those of options. -/
theorem read_unnamed :
    read (.map 1 [(.int 2024, .bool true)]) = .error (.misuse (.notText 0 .int)) ∧
    read (.map 1 [(.text "output_format", .bool true)]) = .error (.noMember .bool "upper") ∧
    (Fault.misuse (.notText 0 .int)).category ≠ .options ∧
    (Fault.noMember .bool "upper").category ≠ .options := by
  refine ⟨?_, ?_, by decide, by decide⟩
  · have hkeys : unknownKeys [(.int 2024, .bool true)] = [.int 2024] := rfl
    have hsorted : Value.sorted [.int 2024] = .ok [.int 2024] :=
      Value.sorted_eq_ok.mpr ⟨rfl, (List.mergeSort_singleton _).symm⟩
    show ofEntries _ = _
    rw [ofEntries, checkKeys, hkeys, hsorted]
    rfl
  · have hknown : ∀ e ∈ [(Value.text "output_format", Value.bool true)], IsOption e.1 :=
      List.forall_mem_singleton.mpr ⟨"output_format", by decide, rfl⟩
    have hv : Value.member? [(.text "output_format", .bool true)] "output_format" =
      some (.bool true) := Value.member?_record [("output_format", .bool true)] _
    show ofEntries _ = _
    rw [ofEntries, checkKeys_of_known hknown, ok_bind]
    dsimp only
    rw [hv]
    rfl

end Options
end Formwright
