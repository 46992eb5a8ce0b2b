import Formwright.Proofs.Sql.Names

/-
  Scripts with and without comments. With comments every script is handed out under a comment line that
  describes it, and nothing else of a product changes (`product_comments`). The description is put there
  as it is. So a script really stands under comments exactly when the texts that are described by their
  name, which are the form, its sections and its columns with valid values, do not leave the line
  (`CommentSafe`): where one goes on behind a line break without starting a comment of its own, what it
  goes on with is read as SQL.
-/

namespace Formwright.Sql

/-! ## Comments -/

/-- A text of comments: each of its lines is one. -/
def IsComment (s : String) : Prop := ∀ l ∈ s.toList.splitOn '\n', ['-', '-'] <+: l

/-- A text that can be put into a comment line: where it goes on behind it, there are comments again. -/
def StaysInComment (s : String) : Prop := ∀ l ∈ (s.toList.splitOn '\n').tail, ['-', '-'] <+: l

instance (s : String) : Decidable (StaysInComment s) := inferInstanceAs (Decidable (∀ l ∈ _, _))

/-- A text that is another one under comments. -/
def AddsComment (commented plain : String) : Prop := ∃ c, IsComment c ∧ commented = c ++ "\n" ++ plain

/-- What stands in front of a line stands in front of the first one. -/
theorem splitOn_append_of_not_mem {lead : List Char} (h : '\n' ∉ lead) (cs : List Char) :
    (lead ++ cs).splitOn '\n' = (cs.splitOn '\n').modifyHead (lead ++ ·) := by
  induction lead with
  | nil =>
    rw [List.nil_append]
    cases cs.splitOn '\n' <;> rfl
  | cons c lead ih =>
    rw [List.mem_cons, not_or] at h
    have hc : (c == '\n') = false := beq_eq_false_iff_ne.mpr (Ne.symm h.1)
    rw [List.cons_append, List.splitOn_cons_eq_if_modifyHead, hc, ih h.2]
    cases cs.splitOn '\n' <;> rfl

theorem staysInComment_append {lead : String} (h : '\n' ∉ lead.toList) (s : String) :
    StaysInComment (lead ++ s) ↔ StaysInComment s := by
  unfold StaysInComment
  rw [String.toList_append, splitOn_append_of_not_mem h, List.tail_modifyHead]

/-- A text without line breaks stays in a comment line. -/
theorem staysInComment_of_not_mem {s : String} (h : '\n' ∉ s.toList) : StaysInComment s := by
  have hempty : StaysInComment "" := by decide
  have hself := (staysInComment_append h "").mpr hempty
  rwa [String.append_empty] at hself

theorem isComment_append (s : String) : IsComment ("-- " ++ s) ↔ StaysInComment s := by
  have hlead : '\n' ∉ "-- ".toList := by decide
  have hlines : ("-- " ++ s).toList.splitOn '\n' =
      (s.toList.splitOn '\n').modifyHead ("-- ".toList ++ ·) := by
    rw [String.toList_append, splitOn_append_of_not_mem hlead]
  unfold IsComment StaysInComment
  rw [hlines]
  obtain ⟨l, ls, hl⟩ := List.exists_cons_of_ne_nil (List.splitOn_ne_nil '\n' s.toList)
  rw [hl, List.modifyHead_cons, List.forall_mem_cons, List.tail_cons]
  have hfirst : ['-', '-'] <+: "-- ".toList ++ l := ⟨' ' :: l, rfl⟩
  exact ⟨And.right, And.intro hfirst⟩

/-- A script under its description stands under comments when the description stays in its line. -/
theorem addsComment_iff (d : Dialect) (s : Script) :
    AddsComment (s.commented d) (s.content d) ↔ StaysInComment s.description := by
  rw [← isComment_append]
  constructor
  · intro h
    obtain ⟨c, hc, heq⟩ := h
    have hlead : "-- " ++ s.description = c := by
      have heq : "-- " ++ s.description ++ ("\n" ++ s.content d) = c ++ ("\n" ++ s.content d) := by
        rw [← String.append_assoc, ← String.append_assoc]
        exact heq
      exact (String.append_left_inj _).mp heq
    rwa [hlead]
  · intro h
    exact ⟨_, h, rfl⟩

/-! ## What scripts are described by -/

/-- The name that the lookup table of a column is described by. -/
def lookupLabel (c : Form.Column) : String := (c.displayName.orElse c.name).display

/-- The names that scripts are described by stay in their comment lines. -/
structure CommentSafe (f : Form) (o : Options) : Prop where
  form : StaysInComment f.name.display
  sections : ∀ c ∈ f.columns, isInSection c = true → StaysInComment c.repeatingSection.display
  lookups : ∀ c ∈ choiceColumns f o, StaysInComment (lookupLabel c)

section
variable {d : Dialect} {f : Form} {main : String} {o : Options} {s : Script}

theorem staysInComment_mainScript (h : mainScript d f main = .ok s) :
    StaysInComment s.description ↔ StaysInComment f.name.display := by
  obtain ⟨fields, -, h⟩ := bind_eq_ok.mp h
  obtain rfl := Except.ok.inj h
  exact staysInComment_append (by decide +kernel) _

theorem staysInComment_sectionScript {sec : SectionColumns} {k : Nat}
    (h : sectionScript d main sec k = .ok s) :
    StaysInComment s.description ↔ StaysInComment sec.name.display := by
  obtain ⟨table, -, h⟩ := bind_eq_ok.mp h
  obtain ⟨fields, -, h⟩ := bind_eq_ok.mp h
  obtain rfl := Except.ok.inj h
  exact staysInComment_append (by decide +kernel) _

theorem staysInComment_lookupScript {c : Form.Column} {k : Nat} (h : lookupScript main c k = .ok s) :
    StaysInComment s.description ↔ StaysInComment (lookupLabel c) := by
  obtain ⟨n, -, h⟩ := bind_eq_ok.mp h
  obtain ⟨choices, -, h⟩ := bind_eq_ok.mp h
  obtain ⟨rows, -, h⟩ := bind_eq_ok.mp h
  obtain rfl := Except.ok.inj h
  exact staysInComment_append (by decide +kernel) _

theorem staysInComment_summaryScript {secs : List SectionColumns}
    (h : summaryScript f main secs = .ok s) :
    StaysInComment s.description ↔ StaysInComment f.name.display := by
  obtain ⟨names, -, h⟩ := bind_eq_ok.mp h
  obtain ⟨counts, -, h⟩ := bind_eq_ok.mp h
  obtain rfl := Except.ok.inj h
  exact staysInComment_append (by decide +kernel) _

end

section
variable {d : Dialect} {f : Form} {main : String} {o : Options} {secs : List SectionColumns}
  {table : Script} {tables lookups : List Script} {summary : Script} {ss : List Script}

namespace Made

theorem staysInComment_tables_iff (hmade : Made d f main o secs table tables lookups summary ss) :
    (∀ s ∈ tables, StaysInComment s.description) ↔
      ∀ c ∈ f.columns, isInSection c = true → StaysInComment c.repeatingSection.display := by
  have hgathered := gathered_sectionsOf hmade.sections
  obtain ⟨ts, hts, -, -⟩ := hmade.exists_sectionNames
  constructor
  · intro h c hc hin
    obtain ⟨sec, hsec, hmem⟩ := hmade.mem_section_iff.mpr ⟨hc, hin⟩
    obtain ⟨s, hs, k, hscript⟩ := hmade.exists_table hsec
    obtain ⟨t, ht, -⟩ := mem_of_mapM_eq_ok hts hsec
    rw [hgathered.repeatingSection_eq hsec ht hmem]
    exact (staysInComment_sectionScript hscript).mp (h s hs)
  · intro h s hs
    obtain ⟨sec, hsec, k, hscript⟩ := hmade.exists_section hs
    obtain ⟨c, hmem, hname⟩ := hgathered.named sec hsec
    obtain ⟨hc, hin⟩ := hmade.mem_section_iff.mp ⟨sec, hsec, hmem⟩
    rw [staysInComment_sectionScript hscript, ← hname]
    exact h c hc hin

theorem staysInComment_lookups_iff (hmade : Made d f main o secs table tables lookups summary ss) :
    (∀ s ∈ lookups, StaysInComment s.description) ↔
      ∀ c ∈ choiceColumns f o, StaysInComment (lookupLabel c) := by
  constructor
  · intro h c hc
    obtain ⟨s, hs, k, hscript⟩ := exists_lookupScript hmade.lookupTables hc
    exact (staysInComment_lookupScript hscript).mp (h s hs)
  · intro h s hs
    have hlookups := hmade.lookupTables
    rw [lookupScripts_eq] at hlookups
    obtain ⟨p, hp, hscript⟩ := exists_of_mem_mapM_eq_ok hlookups hs
    exact (staysInComment_lookupScript hscript).mpr (h p.1 (List.fst_mem_of_mem_zipIdx hp))

/-- The descriptions of the scripts stay in their lines when the names do that they tell. -/
theorem staysInComment_iff (hmade : Made d f main o secs table tables lookups summary ss) :
    (∀ s ∈ ss, StaysInComment s.description) ↔ CommentSafe f o := by
  have htable := staysInComment_mainScript hmade.mainTable
  have hsummary := staysInComment_summaryScript hmade.view
  simp only [hmade.mem_iff]
  constructor
  · intro h
    exact ⟨htable.mp (h _ (Or.inl rfl)),
      hmade.staysInComment_tables_iff.mp fun s hs => h s (Or.inr (Or.inl hs)),
      hmade.staysInComment_lookups_iff.mp fun s hs => h s (Or.inr (Or.inr (Or.inl hs)))⟩
  · intro h s hs
    rcases hs with rfl | hs | hs | rfl
    · exact htable.mpr h.form
    · exact hmade.staysInComment_tables_iff.mpr h.sections s hs
    · exact hmade.staysInComment_lookups_iff.mpr h.lookups s hs
    · exact hsummary.mpr h.form

end Made

end

/-! ## Two runs -/

/-- The same options, but for what they say about comments. -/
def withComments (o : Options) (v : Value) : Options := { o with comments := v }

section
variable {d : Dialect} {f : Form} {main : String} {o : Options} {yes no : Value} {ss : List Script}

/-- Which scripts there are does not depend on comments. -/
theorem scripts_withComments (v : Value) : scripts d f main (withComments o v) = scripts d f main o := rfl

theorem output_comments (hyes : yes.isGiven = true) (s : Script) :
    s.output d (withComments o yes) = s.commented d := if_pos hyes

theorem output_noComments (hno : no.isGiven = false) (s : Script) :
    s.output d (withComments o no) = s.content d :=
  if_neg (by rw [withComments, hno]; exact Bool.false_ne_true)

/-- The artifacts of scripts. -/
def artifactsOf (d : Dialect) (o : Options) (ss : List Script) : List (String × String) :=
  ss.foldl (fun as s => putArtifact as (s.name ++ ".sql") (s.output d o)) []

/-- Artifacts with comments and without, from what holds of each script. -/
theorem alike_artifactsOf {R : String → String → Prop} (hyes : yes.isGiven = true)
    (hno : no.isGiven = false) (h : ∀ s ∈ ss, R (s.commented d) (s.content d)) :
    Alike R (artifactsOf d (withComments o yes) ss) (artifactsOf d (withComments o no) ss) := by
  refine Alike.putAll (fun s hs => ?_) List.Forall₂.nil
  rw [output_comments hyes, output_noComments hno]
  exact h s hs

/-- Where every script has an artifact of its own, all are under comments when all descriptions stay in
their lines. -/
theorem alike_addsComment_iff (hyes : yes.isGiven = true) (hno : no.isGiven = false)
    (h : scripts d f main o = .ok ss) (hapart : LookupsApart f o) :
    Alike AddsComment (artifactsOf d (withComments o yes) ss) (artifactsOf d (withComments o no) ss) ↔
      ∀ s ∈ ss, StaysInComment s.description := by
  have hmap : ∀ v, artifactsOf d (withComments o v) ss =
      ss.map fun s => (s.name ++ ".sql", s.output d (withComments o v)) := fun v =>
    (artifacts_eq_iff (o := withComments o v) h).mpr hapart
  rw [hmap, hmap, Alike, List.forall₂_map_left_iff, List.forall₂_map_right_iff, List.forall₂_same]
  refine forall₂_congr fun s _ => ?_
  rw [output_comments hyes, output_noComments hno, addsComment_iff]
  exact and_iff_right rfl

end

/-- With comments and without, a form either has no product, for the same reason, or two that differ in
their texts only. Their artifacts have the same names in the same order, each under one line of `--` and
its description. This adds comments and nothing else when the names that are told stay in their comment
lines, and, where every script has an artifact of its own, exactly then. -/
theorem product_comments (d : Dialect) (f : Form) (o : Options) {yes no : Value}
    (hyes : yes.isGiven = true) (hno : no.isGiven = false) :
    (∃ e, product d f (withComments o yes) = .error e ∧ product d f (withComments o no) = .error e) ∨
    ∃ p q, product d f (withComments o yes) = .ok p ∧ product d f (withComments o no) = .ok q ∧
      p = { q with output := p.output, artifacts := p.artifacts } ∧
      p.artifacts.map (·.1) = q.artifacts.map (·.1) ∧
      Alike (fun commented plain => ∃ t, commented = "-- " ++ t ++ "\n" ++ plain)
        p.artifacts q.artifacts ∧
      (CommentSafe f o → Alike AddsComment p.artifacts q.artifacts) ∧
      (LookupsApart f o → (Alike AddsComment p.artifacts q.artifacts ↔ CommentSafe f o)) := by
  unfold product
  cases Identifier.tableNameOf f.name with
  | error e => exact Or.inl ⟨e, rfl, rfl⟩
  | ok main =>
    rw [ok_bind, ok_bind, scripts_withComments, scripts_withComments]
    cases hss : scripts d f main o with
    | error e => exact Or.inl ⟨e, rfl, rfl⟩
    | ok ss =>
      rw [ok_bind, ok_bind]
      cases Statistics.collect f with
      | error e => exact Or.inl ⟨e, rfl, rfl⟩
      | ok stats =>
        obtain ⟨secs, table, tables, lookups, summary, hmade⟩ := scripts_eq_ok.mp hss
        have hsafe := hmade.staysInComment_iff
        have hdescribed : Alike (fun commented plain => ∃ t, commented = "-- " ++ t ++ "\n" ++ plain)
            (artifactsOf d (withComments o yes) ss) (artifactsOf d (withComments o no) ss) :=
          alike_artifactsOf hyes hno fun s _ => ⟨s.description, rfl⟩
        refine Or.inr ⟨_, _, rfl, rfl, rfl, hdescribed.map_fst, hdescribed, fun h => ?_, fun h => ?_⟩
        · exact alike_artifactsOf hyes hno fun s hs => (addsComment_iff d s).mpr (hsafe.mpr h s hs)
        · exact (alike_addsComment_iff hyes hno hss h).trans hsafe

/-- A form without columns. -/
def namedForm (name : String) : Form := { formOf [] with name := .text name }

theorem exists_product_namedForm (d : Dialect) (name : String) (v : Value) :
    ∃ p, product d (namedForm name) (withComments {} v) = .ok p := by
  have hname : Identifier.tableNameOf (namedForm name).name = .ok (Identifier.tableName name) :=
    Identifier.tableNameOf_text name
  rw [product, hname, ok_bind]
  exact ⟨_, rfl⟩

theorem commentSafe_namedForm {name : String} :
    CommentSafe (namedForm name) {} ↔ StaysInComment name := by
  have hdisplay : (namedForm name).name.display = name := Value.display_text name
  constructor
  · intro h
    exact hdisplay ▸ h.form
  · intro h
    exact ⟨hdisplay.symm ▸ h, fun c hc => absurd hc List.not_mem_nil,
      fun c hc => absurd (mem_choiceColumns.mp hc).2.1 List.not_mem_nil⟩

/-- The product of a form, with comments and without, when its name has two lines of which the second
one is a comment as well. -/
theorem product_comments_twoLines : ∃ p q,
    product .mysql (namedForm "Orders\n-- and returns") (withComments {} (.bool true)) = .ok p ∧
    product .mysql (namedForm "Orders\n-- and returns") (withComments {} (.bool false)) = .ok q ∧
    p.artifacts.map (·.1) = q.artifacts.map (·.1) ∧ Alike AddsComment p.artifacts q.artifacts := by
  obtain ⟨p, hp⟩ := exists_product_namedForm .mysql "Orders\n-- and returns" (.bool true)
  rcases product_comments .mysql (namedForm "Orders\n-- and returns") {}
    (rfl : (Value.bool true).isGiven = true) (rfl : (Value.bool false).isGiven = false) with
    ⟨e, he, -⟩ | ⟨p', q, hp', hq, -, hnames, -, hsafe, -⟩
  · cases hp.symm.trans he
  · have hstays : StaysInComment "Orders\n-- and returns" := by decide +kernel
    exact ⟨p', q, hp', hq, hnames, hsafe (commentSafe_namedForm.mpr hstays)⟩

/-- A form whose name goes on behind a line break: what it goes on with leaves the comment. -/
theorem product_comments_left : ∃ p q,
    product .sqlServer (namedForm "Orders\nDROP TABLE Users;") (withComments {} (.bool true)) = .ok p ∧
    product .sqlServer (namedForm "Orders\nDROP TABLE Users;") (withComments {} (.bool false)) = .ok q ∧
    ¬ Alike AddsComment p.artifacts q.artifacts := by
  obtain ⟨p, hp⟩ := exists_product_namedForm .sqlServer "Orders\nDROP TABLE Users;" (.bool true)
  obtain ⟨q, hq⟩ := exists_product_namedForm .sqlServer "Orders\nDROP TABLE Users;" (.bool false)
  obtain ⟨main, ss, hmain, hss, hp', -⟩ := product_eq_ok hp
  obtain ⟨main', ss', hmain', hss', hq', -⟩ := product_eq_ok hq
  obtain rfl := Except.ok.inj (hmain.symm.trans hmain')
  rw [scripts_withComments] at hss hss'
  obtain rfl := Except.ok.inj (hss.symm.trans hss')
  refine ⟨p, q, hp, hq, fun halike => ?_⟩
  rw [hp', hq'] at halike
  have hapart : LookupsApart (namedForm "Orders\nDROP TABLE Users;") {} := List.nodup_nil
  have hstay := (alike_addsComment_iff rfl rfl hss hapart).mp halike
  obtain ⟨secs, table, tables, lookups, summary, hmade⟩ := scripts_eq_ok.mp hss
  have hname := commentSafe_namedForm.mp (hmade.staysInComment_iff.mp hstay)
  have hleaves : ¬ StaysInComment "Orders\nDROP TABLE Users;" := by decide +kernel
  exact hleaves hname

end Formwright.Sql
