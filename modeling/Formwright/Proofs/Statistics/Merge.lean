import Formwright.Proofs.Statistics.Collecting
import Formwright.Proofs.Statistics.Counts

/-
  Merging statistics. Statistics whose counters are all whole stand for `Totals`, which form a
  commutative monoid. Merging such statistics always succeeds and adds what they stand for
  (`Statistics.Whole.exists_merge_eq_ok`), so any number of them has one sum, in whatever order they
  are merged (`Statistics.exists_mergeAll_eq_ok`). The statistics that are derived from a mapped
  form are whole (`Statistics.whole_of_collect`).
-/

namespace Formwright

/-- What whole statistics stand for. -/
@[ext] structure Totals where
  totalControls : Int
  totalVariables : Int
  totalPages : Int
  totalRows : Int
  totalRepeatingSections : Int
  controlTypes : Counts
  widgetTypes : Counts

namespace Totals

instance : Zero Totals := ⟨⟨0, 0, 0, 0, 0, 0, 0⟩⟩

instance : Add Totals := ⟨fun a b => {
  totalControls := a.totalControls + b.totalControls
  totalVariables := a.totalVariables + b.totalVariables
  totalPages := a.totalPages + b.totalPages
  totalRows := a.totalRows + b.totalRows
  totalRepeatingSections := a.totalRepeatingSections + b.totalRepeatingSections
  controlTypes := a.controlTypes + b.controlTypes
  widgetTypes := a.widgetTypes + b.widgetTypes }⟩

instance : AddCommMonoid Totals where
  add_assoc _ _ _ := Totals.ext (add_assoc _ _ _) (add_assoc _ _ _) (add_assoc _ _ _)
    (add_assoc _ _ _) (add_assoc _ _ _) (add_assoc _ _ _) (add_assoc _ _ _)
  zero_add _ := Totals.ext (zero_add _) (zero_add _) (zero_add _) (zero_add _) (zero_add _)
    (zero_add _) (zero_add _)
  add_zero _ := Totals.ext (add_zero _) (add_zero _) (add_zero _) (add_zero _) (add_zero _)
    (add_zero _) (add_zero _)
  add_comm _ _ := Totals.ext (add_comm _ _) (add_comm _ _) (add_comm _ _) (add_comm _ _)
    (add_comm _ _) (add_comm _ _) (add_comm _ _)
  nsmul := nsmulRec

end Totals

namespace Value

/-- What a counter counts. -/
def total (v : Value) : Int := v.whole?.getD 0

/-- What a tally counts. -/
def counts : Value → Counts
  | map _ t => Tally.counts t
  | _ => 0

/-- A value that is a whole number. -/
def IsWhole (v : Value) : Prop := v.whole? = some v.total

/-- A value that is a tally with whole counts. -/
def IsTally (v : Value) : Prop := ∃ n t, v = .map n t ∧ Tally.Sound t

/-- Whole numbers are added. -/
theorem IsWhole.add {v w : Value} (hv : v.IsWhole) (hw : w.IsWhole) :
    v.add w = .ok (.int (v.total + w.total)) := add_of_whole? hv hw

theorem IsWhole.same {v w : Value} (hv : v.IsWhole) (hw : w.IsWhole) (h : v.total = w.total) :
    v.same w = true := same_of_whole? hv (h ▸ hw)

/-- Tallies are merged by adding what they count. -/
theorem IsTally.exists_merge_eq_ok {v w : Value} (hv : v.IsTally) (hw : w.IsTally) :
    ∃ u, Tally.merge v w = .ok u ∧ u.IsTally ∧ u.counts = v.counts + w.counts := by
  obtain ⟨m, t, rfl, ht⟩ := hv
  obtain ⟨n, s, rfl, hs⟩ := hw
  obtain ⟨r, hr, hsound, hcounts⟩ := Tally.exists_foldlM_addEntry_eq_ok ht hs
  refine ⟨.map 0 r, ?_, ⟨0, r, rfl, hsound⟩, hcounts⟩
  rw [Tally.merge, asEntries_map, ok_bind, entriesFor, ok_bind, hr]
  rfl

theorem IsTally.same {v w : Value} (hv : v.IsTally) (hw : w.IsTally) (h : v.counts = w.counts) :
    v.same w = true := by
  obtain ⟨m, t, rfl, ht⟩ := hv
  obtain ⟨n, s, rfl, hs⟩ := hw
  exact Tally.same_of_counts_eq ht hs h m n

end Value

namespace Statistics

/-- Statistics with whole counters. -/
structure Whole (s : Statistics) : Prop where
  totalControls : s.totalControls.IsWhole
  totalVariables : s.totalVariables.IsWhole
  totalPages : s.totalPages.IsWhole
  totalRows : s.totalRows.IsWhole
  totalRepeatingSections : s.totalRepeatingSections.IsWhole
  controlTypes : s.controlTypes.IsTally
  widgetTypes : s.widgetTypes.IsTally

/-- What statistics stand for. -/
def totals (s : Statistics) : Totals where
  totalControls := s.totalControls.total
  totalVariables := s.totalVariables.total
  totalPages := s.totalPages.total
  totalRows := s.totalRows.total
  totalRepeatingSections := s.totalRepeatingSections.total
  controlTypes := s.controlTypes.counts
  widgetTypes := s.widgetTypes.counts

/-- Statistics that are equal, tallies as maps. -/
structure Same (a b : Statistics) : Prop where
  totalControls : a.totalControls.same b.totalControls = true
  totalVariables : a.totalVariables.same b.totalVariables = true
  totalPages : a.totalPages.same b.totalPages = true
  totalRows : a.totalRows.same b.totalRows = true
  totalRepeatingSections : a.totalRepeatingSections.same b.totalRepeatingSections = true
  controlTypes : a.controlTypes.same b.controlTypes = true
  widgetTypes : a.widgetTypes.same b.widgetTypes = true

theorem whole_empty : Whole {} :=
  ⟨rfl, rfl, rfl, rfl, rfl, ⟨0, [], rfl, Tally.Sound.nil⟩, ⟨0, [], rfl, Tally.Sound.nil⟩⟩

theorem totals_empty : totals {} = 0 := rfl

/-- Whole statistics that stand for the same are equal. -/
theorem Whole.same {a b : Statistics} (ha : a.Whole) (hb : b.Whole) (h : a.totals = b.totals) :
    a.Same b where
  totalControls := ha.totalControls.same hb.totalControls (congrArg Totals.totalControls h)
  totalVariables := ha.totalVariables.same hb.totalVariables (congrArg Totals.totalVariables h)
  totalPages := ha.totalPages.same hb.totalPages (congrArg Totals.totalPages h)
  totalRows := ha.totalRows.same hb.totalRows (congrArg Totals.totalRows h)
  totalRepeatingSections := ha.totalRepeatingSections.same hb.totalRepeatingSections
    (congrArg Totals.totalRepeatingSections h)
  controlTypes := ha.controlTypes.same hb.controlTypes (congrArg Totals.controlTypes h)
  widgetTypes := ha.widgetTypes.same hb.widgetTypes (congrArg Totals.widgetTypes h)

/-- Whole statistics are merged by adding what they stand for. -/
theorem Whole.exists_merge_eq_ok {a b : Statistics} (ha : a.Whole) (hb : b.Whole) :
    ∃ s, a.merge b = .ok s ∧ s.Whole ∧ s.totals = a.totals + b.totals := by
  obtain ⟨c, hc, hctally, hccounts⟩ := ha.controlTypes.exists_merge_eq_ok hb.controlTypes
  obtain ⟨w, hw, hwtally, hwcounts⟩ := ha.widgetTypes.exists_merge_eq_ok hb.widgetTypes
  have hmerge : a.merge b = .ok {
      totalControls := .int (a.totalControls.total + b.totalControls.total)
      totalVariables := .int (a.totalVariables.total + b.totalVariables.total)
      totalPages := .int (a.totalPages.total + b.totalPages.total)
      totalRows := .int (a.totalRows.total + b.totalRows.total)
      totalRepeatingSections :=
        .int (a.totalRepeatingSections.total + b.totalRepeatingSections.total)
      controlTypes := c
      widgetTypes := w } := by
    rw [merge, ha.totalControls.add hb.totalControls, ha.totalVariables.add hb.totalVariables,
      ha.totalPages.add hb.totalPages, ha.totalRows.add hb.totalRows,
      ha.totalRepeatingSections.add hb.totalRepeatingSections, hc, hw]
    rfl
  exact ⟨_, hmerge, ⟨rfl, rfl, rfl, rfl, rfl, hctally, hwtally⟩,
    Totals.ext rfl rfl rfl rfl rfl hccounts hwcounts⟩

/-- Any number of whole statistics has a sum, which stands for the sum of what they stand for. -/
theorem exists_mergeAll_eq_ok {xs : List Statistics} (h : ∀ x ∈ xs, x.Whole) :
    ∃ s, mergeAll xs = .ok s ∧ s.Whole ∧ s.totals = (xs.map totals).sum := by
  suffices ∀ a : Statistics, a.Whole →
      ∃ s, xs.foldlM merge a = .ok s ∧ s.Whole ∧ s.totals = a.totals + (xs.map totals).sum by
    obtain ⟨s, hs, hwhole, htotals⟩ := this {} whole_empty
    exact ⟨s, hs, hwhole, by rw [htotals, totals_empty, zero_add]⟩
  induction xs with
  | nil =>
    intro a ha
    exact ⟨a, rfl, ha, by rw [List.map_nil, List.sum_nil, add_zero]⟩
  | cons x xs ih =>
    intro a ha
    obtain ⟨b, hb, hbwhole, hbtotals⟩ := ha.exists_merge_eq_ok (h x List.mem_cons_self)
    obtain ⟨s, hs, hswhole, hstotals⟩ := ih (fun y hy => h y (List.mem_cons_of_mem x hy)) b hbwhole
    refine ⟨s, ?_, hswhole, ?_⟩
    · rw [List.foldlM_cons, hb]
      exact hs
    · rw [hstotals, hbtotals, List.map_cons, List.sum_cons, add_assoc]

/-- The sum does not depend on the order of merging. -/
theorem same_of_perm {xs ys : List Statistics} (hperm : xs.Perm ys) (h : ∀ x ∈ xs, x.Whole)
    {s t : Statistics} (hs : mergeAll xs = .ok s) (ht : mergeAll ys = .ok t) : s.Same t := by
  obtain ⟨s', hs', hswhole, hstotals⟩ := exists_mergeAll_eq_ok h
  obtain ⟨t', ht', htwhole, httotals⟩ :=
    exists_mergeAll_eq_ok fun y hy => h y (hperm.mem_iff.mpr hy)
  obtain rfl := Except.ok.inj (hs.symm.trans hs')
  obtain rfl := Except.ok.inj (ht.symm.trans ht')
  refine hswhole.same htwhole ?_
  rw [hstotals, httotals]
  exact (hperm.map totals).sum_eq

/-- Statistics that are derived from a mapped form are whole. -/
theorem whole_of_collect {f : Form} (hf : ∀ c ∈ f.allControls, c.Mapped) {s : Statistics}
    (h : collect f = .ok s) : s.Whole := by
  obtain ⟨⟨rows, sources, types⟩, hviews, h⟩ := bind_eq_ok.mp h
  obtain rfl := Except.ok.inj h
  have hcounted : Tally.Counted sources ∧ Tally.Counted types := by
    have hnil : Tally.Counted [] := ⟨Tally.Sound.nil, fun _ he => absurd he List.not_mem_nil⟩
    refine foldlM_preserves
      (P := fun acc : Nat × Tally × Tally => Tally.Counted acc.2.1 ∧ Tally.Counted acc.2.2)
      (fun acc v hv acc' hacc hstep => ?_) ⟨hnil, hnil⟩ hviews
    obtain ⟨n, -, hstep⟩ := bind_eq_ok.mp hstep
    obtain ⟨sources', hsources, hstep⟩ := bind_eq_ok.mp hstep
    obtain ⟨types', htypes, hstep⟩ := bind_eq_ok.mp hstep
    obtain rfl := Except.ok.inj hstep
    refine ⟨hacc.1.of_foldlM_add (fun k hk => ?_) hsources,
      hacc.2.of_foldlM_add (fun k hk => ?_) htypes⟩
    · obtain ⟨c, hc, rfl⟩ := List.mem_map.mp hk
      exact exists_key?_sourceKey (hf c (List.mem_flatMap.mpr ⟨v, hv, hc⟩)).sourceType
    · obtain ⟨c, -, rfl⟩ := List.mem_map.mp hk
      exact ⟨_, rfl⟩
  exact ⟨rfl, rfl, rfl, rfl, rfl, ⟨0, sources, rfl, hcounted.1.toSound⟩,
    ⟨0, types, rfl, hcounted.2.toSound⟩⟩

end Statistics

end Formwright
