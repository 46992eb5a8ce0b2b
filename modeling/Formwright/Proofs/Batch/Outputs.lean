import Formwright.Demo
import Formwright.Proofs.Batch.Renaming
import Formwright.Proofs.Generation.Artifacts
import Mathlib.Data.List.Nodup

/-
  What a batch leaves on disk. The file name of an output is the table name for the form with a suffix
  that all items share (`Generator.exists_pathSuffix`), and no item knows of the others. So two items
  get one path exactly when their forms get one table name, and saving keeps the last output of a path
  (`lookup_outputs`). A run saves the output of every success exactly when successes that share a path
  share their output too (`run_outputs_iff`).
-/

namespace Formwright

open Identifier

/-! ## File names -/

theorem Sql.generate_eq_ok {d : Sql.Dialect} {f : Form} {o : Options} {p : Product} :
    (Sql.generator d).generate f o = .ok (.product p) ↔ Sql.product d f o = .ok p := by
  show (Sql.product d f o).map Answer.product = _ ↔ _
  cases Sql.product d f o with
  | error e => simp [Except.map]
  | ok q => simp [Except.map]

/-- The files that a generator of the registry names under the same options differ in the table name
only. -/
theorem Generator.exists_pathSuffix {name : String} {g : Generator} (hg : (name, g) ∈ registry)
    (o : Options) : ∃ suffix, ∀ f p, g.generate f o = .ok (.product p) →
      ∃ main, tableNameOf f.name = .ok main ∧ p.outputPath = main ++ suffix := by
  rcases cases_of_mem_registry hg with ⟨d, rfl⟩ | rfl
  · refine ⟨"_" ++ d.name ++ ".sql", fun f p h => ?_⟩
    obtain ⟨main, ss, s, hmain, -, -, rfl⟩ := Sql.product_eq_ok_iff.mp (Sql.generate_eq_ok.mp h)
    exact ⟨main, hmain, by simp only [String.append_assoc]⟩
  · refine ⟨"_nintex." ++ Nintex.suffix o.outputFormat, fun f p h => ?_⟩
    obtain ⟨ds, d, s, json, others, main, hparts, rfl⟩ :=
      Nintex.product_eq_ok_iff.mp (Nintex.generate_eq_ok.mp h)
    exact ⟨main, hparts.named, String.append_assoc⟩

namespace Batch

/-! ## Successes -/

/-- The products of the forms that succeeded, by form id. -/
def Result.successes (r : Result) : List (String × Product) := r.products.filter (·.2.success)

/-- The table name for the form of an item. -/
def itemTable (formName : Value) (item : Item) : Except Fault String := do
  tableNameOf (renamed (← Form.ofAnalysis item.2) formName).name

section
variable {name : String} {g : Generator} {o : Options} {formName : Value}

/-- The product of a success is what the generator makes of the form. -/
theorem exists_generate_of_success (hg : (name, g) ∈ Generator.registry) {item : Item} {out : Outcome}
    (h : processItem g o formName item = .ok out) (hsuccess : out.product.success = true) :
    ∃ f, Form.ofAnalysis item.2 = .ok f ∧
      g.generate (renamed f formName) o = .ok (.product out.product) := by
  rcases process_eq_ok_iff.mp h with ⟨e, -, rfl⟩ | ⟨f, report, hf, hr, -⟩
  · cases hsuccess
  · obtain ⟨out', hout', -, -, hgives⟩ := exists_process_gives item.1 hg hf hr formName
    obtain rfl := Except.ok.inj (h.symm.trans hout')
    generalize out.product = p, out.gains = ss at hgives hsuccess
    cases hgives with
    | made hp hs => exact ⟨f, hf, hp⟩
    | failed he => cases hsuccess

variable {items : List Item} {asked : Nat → Bool} {startTime now : Calendar.Moment} {r : Recorder}

/-- Successes come from items. -/
theorem exists_item_of_success (hg : (name, g) ∈ Generator.registry)
    (distinct : (items.map (·.1)).Nodup) (h : run items g o asked startTime now = .ok r) :
    ∃ suffix, ∀ e ∈ r.result.successes, ∃ item ∈ items, item.1 = e.1 ∧ ∃ main,
      itemTable (formNameFor items o) item = .ok main ∧ e.2.outputPath = main ++ suffix := by
  obtain ⟨suffix, hsuffix⟩ := Generator.exists_pathSuffix hg o
  refine ⟨suffix, fun e he => ?_⟩
  obtain ⟨os, hos, hproducts, -⟩ := accounts_of_run distinct h
  obtain ⟨hmem, hsuccess⟩ := List.mem_filter.mp he
  rw [hproducts] at hmem
  obtain ⟨out, hout, rfl⟩ := List.mem_map.mp hmem
  obtain ⟨item, hitem, hprocess⟩ := exists_of_mem_mapM_eq_ok hos hout
  obtain ⟨f, hf, hgenerate⟩ := exists_generate_of_success hg hprocess hsuccess
  obtain ⟨main, hmain, hpath⟩ := hsuffix _ _ hgenerate
  refine ⟨item, List.mem_of_mem_take hitem, (process_eq_ok hprocess).1.symm, main, ?_, hpath⟩
  rw [itemTable, hf]
  exact hmain

theorem nodup_successes (distinct : (items.map (·.1)).Nodup)
    (h : run items g o asked startTime now = .ok r) : (r.result.successes.map (·.1)).Nodup := by
  obtain ⟨os, hos, hproducts, -⟩ := accounts_of_run distinct h
  have hids : r.result.products.map (·.1) = (items.take (reached asked 0 items.length)).map (·.1) := by
    rw [hproducts, List.map_map]
    exact map_formId_of_mapM_processItem hos
  have hnodup : (r.result.products.map (·.1)).Nodup := by
    rw [hids]
    exact distinct.sublist ((List.take_sublist _ items).map _)
  exact hnodup.sublist (List.filter_sublist.map _)

end

/-! ## Apart on disk -/

/-- No two successes have one file name. -/
def PathsApart (r : Result) : Prop := (r.successes.map (·.2.outputPath)).Nodup

instance (r : Result) : Decidable (PathsApart r) :=
  inferInstanceAs (Decidable (r.successes.map (·.2.outputPath)).Nodup)

/-- No two items that succeeded have forms of one table name. -/
def TablesApart (items : List Item) (formName : Value) (r : Result) : Prop :=
  ∀ i ∈ items, ∀ j ∈ items, i.1 ∈ r.successes.map (·.1) → j.1 ∈ r.successes.map (·.1) →
    itemTable formName i = itemTable formName j → i.1 = j.1

/-- After all outputs are saved, each success finds its own under its file name. -/
def Saved (r : Result) : Prop :=
  ∀ e ∈ r.successes, (Demo.outputs r).lookup e.2.outputPath = some e.2.output

instance (r : Result) : Decidable (Saved r) :=
  inferInstanceAs (Decidable (∀ e ∈ r.successes,
    (Demo.outputs r).lookup e.2.outputPath = some e.2.output))

theorem pathsApart_iff {name : String} {g : Generator} (hg : (name, g) ∈ Generator.registry)
    {items : List Item} {o : Options} {asked : Nat → Bool} {startTime now : Calendar.Moment}
    {r : Recorder} (distinct : (items.map (·.1)).Nodup)
    (h : run items g o asked startTime now = .ok r) :
    PathsApart r.result ↔ TablesApart items (formNameFor items o) r.result := by
  obtain ⟨suffix, hitems⟩ := exists_item_of_success hg distinct h
  have hids := nodup_successes distinct h
  rw [PathsApart, List.nodup_map_iff_inj_on hids.of_map]
  constructor
  · intro hpaths i hi j hj hisucceeded hjsucceeded htable
    obtain ⟨e, he, hei⟩ := List.mem_map.mp hisucceeded
    obtain ⟨e', he', hej⟩ := List.mem_map.mp hjsucceeded
    obtain ⟨i', hi', hie, main, hmain, hpath⟩ := hitems e he
    obtain ⟨j', hj', hje, main', hmain', hpath'⟩ := hitems e' he'
    -- ids are distinct, so the items of the two successes are the given ones
    obtain rfl := List.inj_on_of_nodup_map distinct hi' hi (hie.trans hei)
    obtain rfl := List.inj_on_of_nodup_map distinct hj' hj (hje.trans hej)
    obtain rfl := Except.ok.inj (hmain.symm.trans (htable.trans hmain'))
    rw [← hei, ← hej, hpaths e he e' he' (hpath.trans hpath'.symm)]
  · intro htables e he e' he' hsame
    obtain ⟨i, hi, hie, main, hmain, hpath⟩ := hitems e he
    obtain ⟨j, hj, hje, main', hmain', hpath'⟩ := hitems e' he'
    obtain rfl := (String.append_left_inj suffix).mp (hpath.symm.trans (hsame.trans hpath'))
    have hij := htables i hi j hj (hie ▸ List.mem_map_of_mem he) (hje ▸ List.mem_map_of_mem he')
      (hmain.trans hmain'.symm)
    exact List.inj_on_of_nodup_map hids he he' (hie.symm.trans (hij.trans hje))

/-- A file holds the output of the last success that has its name. -/
theorem lookup_outputs (r : Result) (path : String) : (Demo.outputs r).lookup path =
    (r.successes.map fun e => (e.2.outputPath, e.2.output)).reverse.lookup path := by
  have hputs := lookup_foldl_putArtifact (fun e : String × Product => e.2.outputPath)
    (fun e => e.2.output) r.successes [] path
  rw [List.append_nil] at hputs
  exact hputs

/-- The outputs of all successes are saved when those with one file name have one output. -/
theorem saved_iff {r : Result} : Saved r ↔ ∀ e ∈ r.successes, ∀ e' ∈ r.successes,
    e.2.outputPath = e'.2.outputPath → e.2.output = e'.2.output := by
  constructor
  · intro hsaved e he e' he' hpath
    have hfound := hsaved e he
    rw [hpath, hsaved e' he'] at hfound
    exact (Option.some.inj hfound).symm
  · intro hagree e he
    rw [lookup_outputs]
    have hmem : e.2.outputPath ∈ ((r.successes.map fun e => (e.2.outputPath, e.2.output)).reverse).map
        (·.1) := by
      rw [List.map_reverse, List.map_map, List.mem_reverse]
      exact List.mem_map_of_mem he
    obtain ⟨text, htext⟩ := Option.isSome_iff_exists.mp (lookup_isSome_iff.mpr hmem)
    obtain ⟨before, after, hsplit, -⟩ := List.lookup_eq_some_iff.mp htext
    have hin : (e.2.outputPath, text) ∈ (r.successes.map fun e => (e.2.outputPath, e.2.output)).reverse := by
      rw [hsplit]
      exact List.mem_append_right _ List.mem_cons_self
    obtain ⟨e', he', heq⟩ := List.mem_map.mp (List.mem_reverse.mp hin)
    obtain ⟨hpath, rfl⟩ := Prod.mk.inj heq
    rw [htext, hagree e he e' he' hpath.symm]

/-- A run with a generator of the registry names files by the table names of the forms, all with one
suffix. The file names of its successes differ exactly when these table names do, and then all outputs
are saved. Else a file holds the output of the last success of its name, so that the outputs of all are
saved exactly when successes with one file name have the same output. -/
theorem run_outputs_iff {name : String} {g : Generator} (hg : (name, g) ∈ Generator.registry)
    {items : List Item} {o : Options} {asked : Nat → Bool} {startTime now : Calendar.Moment}
    {r : Recorder} (distinct : (items.map (·.1)).Nodup)
    (h : run items g o asked startTime now = .ok r) :
    (∃ suffix, ∀ e ∈ r.result.successes, ∃ item ∈ items, item.1 = e.1 ∧ ∃ main,
      itemTable (formNameFor items o) item = .ok main ∧ e.2.outputPath = main ++ suffix) ∧
    (PathsApart r.result ↔ TablesApart items (formNameFor items o) r.result) ∧
    (PathsApart r.result → Saved r.result) ∧
    (∀ path, (Demo.outputs r.result).lookup path =
      (r.result.successes.map fun e => (e.2.outputPath, e.2.output)).reverse.lookup path) ∧
    (Saved r.result ↔ ∀ e ∈ r.result.successes, ∀ e' ∈ r.result.successes,
      e.2.outputPath = e'.2.outputPath → e.2.output = e'.2.output) := by
  refine ⟨exists_item_of_success hg distinct h, pathsApart_iff hg distinct h, fun hpaths => ?_,
    lookup_outputs r.result, saved_iff⟩
  refine saved_iff.mpr fun e he e' he' hpath => ?_
  rw [List.inj_on_of_nodup_map hpaths he he' hpath]

/-- Two items with a form each. -/
def twoForms (first second : String) : List Item :=
  [("a", some (oneField (.text first))), ("b", some (oneField (.text second)))]

/-- The morning on which a run starts and ends. -/
def morning : Calendar.Moment := ⟨⟨2024, 1, 1⟩, 9, 0, 0, 0, none⟩

/-- Two forms whose names differ in tables. -/
theorem run_outputs_apart : ("nintex", Nintex.generator) ∈ Generator.registry ∧
    ∃ r, run (twoForms "Expense Report" "Travel") Nintex.generator {} (fun _ => false) morning morning =
      .ok r ∧ TablesApart (twoForms "Expense Report" "Travel") .null r.result ∧ Saved r.result := by
  have hg : ("nintex", Nintex.generator) ∈ Generator.registry :=
    List.mem_append_right _ (List.mem_singleton.mpr rfl)
  have htest : (run (twoForms "Expense Report" "Travel") Nintex.generator {} (fun _ => false) morning
      morning).toOption.any (fun r => decide (PathsApart r.result)) = true := by decide +kernel
  obtain ⟨r, hr, hpaths⟩ := exists_of_toOption_any htest
  obtain ⟨-, hiff, hsaved, -⟩ := run_outputs_iff hg (by decide) hr
  have hapart := of_decide_eq_true hpaths
  exact ⟨hg, r, hr, hiff.mp hapart, hsaved hapart⟩

/-- Two forms whose names differ, but not in tables: both succeed, and one output is all that is saved. -/
theorem run_outputs_lost : ∃ r, run (twoForms "Expense Report" "Expense-Report") Nintex.generator {}
      (fun _ => false) morning morning = .ok r ∧
    r.result.successes.map (·.2.outputPath) =
      ["Expense_Report_nintex.json", "Expense_Report_nintex.json"] ∧
    ¬ PathsApart r.result ∧ ¬ Saved r.result ∧ (Demo.outputs r.result).length = 1 := by
  have htest : (run (twoForms "Expense Report" "Expense-Report") Nintex.generator {} (fun _ => false)
      morning morning).toOption.any (fun r => decide (r.result.successes.map (·.2.outputPath) =
        ["Expense_Report_nintex.json", "Expense_Report_nintex.json"] ∧
      ¬ PathsApart r.result ∧ ¬ Saved r.result ∧ (Demo.outputs r.result).length = 1)) = true := by
    decide +kernel
  obtain ⟨r, hr, hlost⟩ := exists_of_toOption_any htest
  exact ⟨r, hr, of_decide_eq_true hlost⟩

end Batch
end Formwright
