import Formwright.Proofs.Sql.Sections

/-
  What the switch for validation rules does to the scripts. Without lookup tables the list is the list
  with them less those scripts: they are left out before the scripts are put in order of execution, and
  that comes to the same as leaving them out afterwards (`Made.without_lookups`). Nothing else in the
  options matters to the scripts. The two runs can still differ in failing, as a lookup table whose
  places have too many digits cannot be written: they fail alike exactly when the form is refused or
  no place is that long (`scripts_switched`).
-/

namespace Formwright.Sql

/-- The data columns with valid values. -/
def listColumns (f : Form) : List Form.Column := f.columns.filter fun c => !c.validValues.isEmpty

/-- Of the scripts under some options those under others are known: the lookup tables are left out, of
which there is one for each column with valid values, in column order. -/
structure Without (d : Dialect) (f : Form) (main : String) (others : Options) (ss : List Script) :
    Prop where
  rest : scripts d f main others = .ok (ss.filter (!·.body.isLookup))
  lookups : List.Forall₂ (fun s c => ∃ k, lookupScript main c k = .ok s)
    (ss.filter (·.body.isLookup)) (listColumns f)

section
variable {d : Dialect} {f : Form} {main : String} {o yes no : Options} {secs : List SectionColumns}
  {table : Script} {tables lookups : List Script} {summary : Script} {ss : List Script}

theorem lookupScripts_of_not (hno : no.validationRules.isGiven = false) :
    lookupScripts f main no = .ok [] := by
  rw [lookupScripts, hno]
  rfl

theorem lookupScripts_of_given (hyes : yes.validationRules.isGiven = true) :
    lookupScripts f main yes =
      (listColumns f).zipIdx.mapM fun p => lookupScript main p.1 (firstLookupOrder + p.2) := by
  rw [lookupScripts, hyes]
  rfl

namespace Made

/-- Lookup table number `k` has its place in the order. -/
theorem order_of_getElem?_lookups (hmade : Made d f main o secs table tables lookups summary ss)
    {k : Nat} {s : Script} (hs : lookups[k]? = some s) : s.order = firstLookupOrder + k := by
  have hlookups := hmade.lookupTables
  rw [lookupScripts_eq] at hlookups
  obtain ⟨⟨c, j⟩, hc, hscript⟩ := getElem?_of_mapM_eq_ok hlookups hs
  rw [List.getElem?_zipIdx, Option.map_eq_some_iff] at hc
  obtain ⟨c, -, hpair⟩ := hc
  rw [Nat.zero_add, Prod.mk.injEq] at hpair
  obtain ⟨rfl, rfl⟩ := hpair
  exact (lookupScript_eq_ok hscript).1

theorem filter_isLookup (hmade : Made d f main o secs table tables lookups summary ss) :
    ss.filter (·.body.isLookup) = lookups := by
  have hpick := hmade.filter_body (p := Body.isLookup) (fun _ _ => rfl) (fun _ _ => rfl) (fun _ => rfl)
    fun _ => rfl
  simp only [Bool.false_eq_true, if_false, if_true, List.nil_append, List.append_nil] at hpick
  rw [hpick, List.mergeSort_of_pairwise (pairwise_of_order hmade.order_of_getElem?_lookups)]

/-- Leaving the lookup tables out of the list is making none. -/
theorem without_lookups (hmade : Made d f main o secs table tables lookups summary ss)
    (hno : no.validationRules.isGiven = false) :
    Made d f main no secs table tables [] summary (ss.filter (!·.body.isLookup)) := by
  have hkept := hmade.filter_body (p := (!·.isLookup)) (fun _ _ => rfl) (fun _ _ => rfl) (fun _ => rfl)
    fun _ => rfl
  exact { hmade with lookupTables := lookupScripts_of_not hno, sorted := hkept }

theorem without (hmade : Made d f main yes secs table tables lookups summary ss)
    (hyes : yes.validationRules.isGiven = true) (hno : no.validationRules.isGiven = false) :
    Without d f main no ss := by
  constructor
  · exact scripts_eq_ok.mpr ⟨secs, table, tables, [], summary, hmade.without_lookups hno⟩
  · have hlookups := hmade.lookupTables
    rw [lookupScripts_of_given hyes] at hlookups
    rw [hmade.filter_isLookup, ← List.zipIdx_map_fst 0 (listColumns f), List.forall₂_map_right_iff]
    exact forall₂_of_mapM_eq_ok (fun p _ s hs => ⟨_, hs⟩) hlookups

end Made

/-- A run fails when two sections would share a table, or when a lookup table is asked for that cannot
be written. -/
theorem exists_error_iff (d : Dialect) (main : String) (o : Options) (hf : f.Declared) :
    (∃ e, scripts d f main o = .error e) ↔
      SectionsCollide f.columns ∨ o.validationRules.isGiven = true ∧ ¬ PlacesWritable f := by
  have hexists := exists_scripts_iff d main o hf
  cases hss : scripts d f main o with
  | ok ss =>
    obtain ⟨hapart, hplaces⟩ := hexists.mp ⟨ss, hss⟩
    refine iff_of_false (fun ⟨e, he⟩ => nomatch he) ?_
    rintro (hcollide | ⟨hgiven, hlong⟩)
    · exact hapart hcollide
    · exact hlong (hplaces hgiven)
  | error e =>
    refine iff_of_true ⟨e, rfl⟩ ?_
    by_contra hnone
    rw [not_or, not_and, not_not] at hnone
    obtain ⟨ss, hok⟩ := hexists.mpr hnone
    cases hss.symm.trans hok

end

/-- Of two runs that differ in asking for lookup tables, the one without them is refused exactly when
two sections would share a table, and then the other one fails in the same way. They fail alike exactly
when this is so or every place of a valid value can be written. When the run with lookup tables succeeds,
so does the other one: its scripts are the same less the lookup tables, of which there is one for each
column with valid values, and the statistics of the products are the same. -/
theorem scripts_switched {d : Dialect} {f : Form} {yes no : Options} (hf : f.Declared)
    (hyes : yes.validationRules.isGiven = true) (hno : no.validationRules.isGiven = false) :
    (∀ main, (((∃ e, scripts d f main yes = .error e) ↔ ∃ e, scripts d f main no = .error e) ↔
      SectionsCollide f.columns ∨ PlacesWritable f)) ∧
    (∀ main e, scripts d f main no = .error e → scripts d f main yes = .error e) ∧
    (∀ main ss, scripts d f main yes = .ok ss → Without d f main no ss) ∧
    ∀ p, product d f yes = .ok p → ∃ q, product d f no = .ok q ∧ q.statistics = p.statistics := by
  refine ⟨fun main => ?_, fun main e he => ?_, fun main ss hss => ?_, fun p hp => ?_⟩
  · rw [exists_error_iff d main yes hf, exists_error_iff d main no hf, hyes, hno]
    by_cases hcollide : SectionsCollide f.columns
    · simp [hcollide]
    · simp [hcollide]
  · have hcollide : SectionsCollide f.columns := by
      simpa [hno] using (exists_error_iff d main no hf).mp ⟨e, he⟩
    obtain ⟨e', -, hall⟩ := scripts_of_collide d main hf hcollide
    obtain rfl := Except.error.inj (he.symm.trans (hall no))
    exact hall yes
  · obtain ⟨secs, table, tables, lookups, summary, hmade⟩ := scripts_eq_ok.mp hss
    exact hmade.without hyes hno
  · obtain ⟨main, ss, s, hmain, hss, hs, rfl⟩ := product_eq_ok_iff.mp hp
    obtain ⟨secs, table, tables, lookups, summary, hmade⟩ := scripts_eq_ok.mp hss
    have hrest := (hmade.without hyes hno).rest
    exact ⟨_, product_eq_ok_iff.mpr ⟨main, _, s, hmain, hrest, hs, rfl⟩, rfl⟩

/-- Options that ask for nothing that can be left out. -/
def plainOptions : Options := { validationRules := .bool false, comments := .bool false }

theorem scripts_switched_mixed : (formOf mixedColumns).Declared ∧
    ({} : Options).validationRules.isGiven = true ∧ plainOptions.validationRules.isGiven = false ∧
    ∃ ss, scripts .postgresql (formOf mixedColumns) "Main" {} = .ok ss ∧
      Without .postgresql (formOf mixedColumns) "Main" plainOptions ss := by
  have hf := declared_formOf declared_mixedColumns
  have hyes : ({} : Options).validationRules.isGiven = true := rfl
  have hno : plainOptions.validationRules.isGiven = false := rfl
  obtain ⟨ss, hss⟩ := exists_scripts_mixedColumns .postgresql "Main" {}
  exact ⟨hf, hyes, hno, ss, hss, (scripts_switched hf hyes hno).2.2.1 "Main" ss hss⟩

/-- The lookup table of one column cannot be written, so only the run without lookup tables succeeds. -/
theorem scripts_not_switched : (formOf [placedColumn "Items" longPlace]).Declared ∧
    (∃ e, scripts .sqlServer (formOf [placedColumn "Items" longPlace]) "Main" {} = .error e) ∧
    ∃ ss, scripts .sqlServer (formOf [placedColumn "Items" longPlace]) "Main" plainOptions = .ok ss := by
  have hf := declared_formOf (List.forall_mem_singleton.mpr (declared_placedColumn "Items" longPlace))
  have hapart : ¬ SectionsCollide (formOf [placedColumn "Items" longPlace]).columns := by
    decide +kernel
  refine ⟨hf, ?_, ?_⟩
  · exact (exists_error_iff _ _ _ hf).mpr (Or.inr ⟨rfl, not_placesWritable_of_mem List.mem_cons_self⟩)
  · exact (exists_scripts_iff _ _ _ hf).mpr ⟨hapart, fun h => absurd h Bool.false_ne_true⟩

end Formwright.Sql
