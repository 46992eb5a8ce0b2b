import Formwright.Nintex.Layout
import Formwright.Proofs.Distinct
import Formwright.Proofs.StableSort
import Formwright.Proofs.Success
import Formwright.Proofs.Text.Numerals
import Formwright.Proofs.Value.Keys

/-
  Where the controls of a view lie. Each control is placed by its index and by the row number of its
  grid position (`placeAll_eq_ok`). Gathered into rows of ascending numbers (`pairwise_rowNumbers`),
  the controls stand as a stable sort by row number would put them (`flatMap_gather`). An id tells
  the place that it was made for (`controlId_inj`, `rowId_inj`), and the ids of pages, rows and
  controls have no text in common.
-/

namespace Formwright.Nintex

/-! ## Ids -/

theorem pageId_inj {m n : Nat} (h : pageId m = pageId n) : m = n :=
  Text.eq_of_repr_eq ((String.append_right_inj _).mp h)

theorem endsNumeral_row (s : String) : Text.EndsNumeral ("_row_" ++ s) :=
  Or.inr ⟨"row_" ++ s, by rw [← String.append_assoc]; rfl⟩

theorem rowId_inj {m n j k : Nat} (h : rowId m j = rowId n k) : m = n ∧ j = k := by
  unfold rowId pageId at h
  simp only [String.append_assoc] at h
  obtain ⟨hpage, hrow⟩ := Text.repr_append_inj (endsNumeral_row _) (endsNumeral_row _)
    ((String.append_right_inj _).mp h)
  have hnumber := Text.eq_of_repr_eq ((String.append_right_inj _).mp hrow)
  exact ⟨hpage, by omega⟩

theorem controlId_inj {m n i j : Nat} (h : controlId m i = controlId n j) : m = n ∧ i = j := by
  unfold controlId at h
  simp only [String.append_assoc] at h
  obtain ⟨hpage, hindex⟩ := Text.repr_append_inj (Text.endsNumeral_underscore _)
    (Text.endsNumeral_underscore _) ((String.append_right_inj _).mp h)
  have hnumber := Text.eq_of_repr_eq ((String.append_right_inj _).mp hindex)
  exact ⟨hpage, by omega⟩

theorem pageId_ne_rowId (m n k : Nat) : pageId m ≠ rowId n k := by
  intro h
  have hrow : pageId m = "page_" ++ (n.repr ++ ("_row_" ++ (k + 1).repr)) := by
    rw [h, rowId, pageId]
    simp only [String.append_assoc]
  have hpage : "page_" ++ (m.repr ++ "") = pageId m := by rw [String.append_empty, pageId]
  rw [← hpage] at hrow
  obtain ⟨-, hempty⟩ := Text.repr_append_inj Text.endsNumeral_empty (endsNumeral_row _)
    ((String.append_right_inj _).mp hrow)
  have hlength := congrArg String.length hempty
  have hfive : "_row_".length = 5 := by decide
  rw [String.length_append, String.length_empty, hfive] at hlength
  omega

/-- The first letter of an id tells controls from pages and rows. -/
theorem head?_controlId (m i : Nat) : (controlId m i).toList.head? = some 'c' := by
  simp [controlId, String.toList_append]

theorem head?_pageId (m : Nat) : (pageId m).toList.head? = some 'p' := by
  simp [pageId, String.toList_append]

theorem head?_rowId (m k : Nat) : (rowId m k).toList.head? = some 'p' := by
  simp [rowId, pageId, String.toList_append]

/-! ## Places -/

/-- Controls are placed when their positions can be read: in their order, each by its index and by
the row of its position. -/
theorem placeAll_eq_ok {page : Nat} {v : Form.View} {ps : List Placed} (h : placeAll page v = .ok ps) :
    ps.length = v.controls.length ∧ ∀ (i : Nat) (p : Placed), ps[i]? = some p →
      p.page = page ∧ p.index = i ∧ v.controls[i]? = some p.control ∧
        ∃ position, Grid.parseValue p.control.gridPosition = .ok position ∧ p.row = position.row := by
  constructor
  · rw [length_of_mapM_eq_ok h, List.length_zipIdx]
  · intro i p hp
    obtain ⟨⟨c, j⟩, hc, hplaced⟩ := getElem?_of_mapM_eq_ok h hp
    rw [List.getElem?_zipIdx, Option.map_eq_some_iff] at hc
    obtain ⟨c, hc, hpair⟩ := hc
    rw [Nat.zero_add, Prod.mk.injEq] at hpair
    obtain ⟨rfl, rfl⟩ := hpair
    obtain ⟨position, hposition, hplaced⟩ := bind_eq_ok.mp hplaced
    obtain rfl := Except.ok.inj hplaced
    exact ⟨rfl, rfl, hc, position, hposition, rfl⟩

theorem mem_of_mem_placeAll {page : Nat} {v : Form.View} {ps : List Placed}
    (h : placeAll page v = .ok ps) {p : Placed} (hp : p ∈ ps) : p.control ∈ v.controls := by
  obtain ⟨i, hi⟩ := List.getElem?_of_mem hp
  obtain ⟨-, -, hc, -⟩ := (placeAll_eq_ok h).2 i p hi
  exact List.mem_of_getElem? hc

theorem exists_placeAll_eq_ok {page : Nat} {v : Form.View} :
    (∃ ps, placeAll page v = .ok ps) ↔
      ∀ c ∈ v.controls, ∃ position, Grid.parseValue c.gridPosition = .ok position := by
  unfold placeAll
  rw [exists_mapM_eq_ok]
  constructor
  · intro h c hc
    obtain ⟨i, hi⟩ := List.getElem?_of_mem hc
    obtain ⟨p, hp⟩ := h (c, i) (List.mk_mem_zipIdx_iff_getElem?.mpr hi)
    obtain ⟨position, hposition, -⟩ := bind_eq_ok.mp hp
    exact ⟨position, hposition⟩
  · intro h p hp
    obtain ⟨position, hposition⟩ := h p.1 (List.fst_mem_of_mem_zipIdx hp)
    exact ⟨_, bind_eq_ok.mpr ⟨position, hposition, rfl⟩⟩

/-! ## Parents -/

theorem parentId_null (page count : Nat) : parentId page count .null = .ok none := rfl

/-- A parent that is named by its index is found. -/
theorem parentId_count {page count j : Nat} (h : j < count) :
    parentId page count (.count j) = .ok (some (controlId page j)) := by
  have hsame : ∀ i, (Value.count i).same (.count j) = true ↔ i = j := by
    intro i
    rw [Value.count, Value.count, Value.same, Value.sameNumber_whole (n := (j : Int)) rfl]
    exact Int.ofNat_inj
  have hfind : (List.range count).find? (fun i => (Value.count i).same (.count j)) = some j := by
    rw [List.find?_range_eq_some]
    refine ⟨(hsame j).mpr rfl, List.mem_range.mpr h, fun i hi => ?_⟩
    have hne : (Value.count i).same (.count j) = false := by
      rw [Bool.eq_false_iff]
      exact fun heq => Nat.ne_of_lt hi ((hsame i).mp heq)
    rw [hne]
    rfl
  have hkey : (Value.count j).asKey = .ok (.count j) := Value.asKey_eq_ok.mpr ⟨rfl, rfl⟩
  unfold parentId
  dsimp only [Value.count] at hkey hfind ⊢
  rw [hkey, ok_bind, hfind]
  rfl

/-! ## Rows -/

theorem mem_rowNumbers {ps : List Placed} {n : Nat} : n ∈ rowNumbers ps ↔ ∃ p ∈ ps, p.row = n := by
  rw [rowNumbers, List.mem_mergeSort, List.mem_eraseDups, List.mem_map]

/-- Row numbers ascend, and none comes twice. -/
theorem pairwise_rowNumbers (ps : List Placed) : (rowNumbers ps).Pairwise (· < ·) := by
  have hle := pairwise_le_mergeSort id ((ps.map (·.row)).eraseDups)
  have hne : (rowNumbers ps).Nodup :=
    (List.mergeSort_perm _ _).nodup_iff.mpr (nodup_eraseDups _)
  refine (List.pairwise_and_iff.mpr ⟨hle, hne⟩).imp fun h => ?_
  exact Nat.lt_of_le_of_ne h.1 h.2

/-- The controls, row after row, are sorted by the numbers of their rows and keep their order
otherwise. -/
theorem flatMap_gather (ps : List Placed) :
    (gather ps).flatMap (·.2) = ps.mergeSort fun p q => p.row ≤ q.row := by
  have hrows : ∀ n ∈ rowNumbers ps, ps.filter (·.row == n) =
      (ps.mergeSort fun p q => p.row ≤ q.row).filter (·.row == n) := fun n _ =>
    (filter_mergeSort_eq Placed.row ps n).symm
  have hall : ∀ p ∈ ps.mergeSort (fun p q => decide (p.row ≤ q.row)), p.row ∈ rowNumbers ps := by
    intro p hp
    exact mem_rowNumbers.mpr ⟨p, List.mem_mergeSort.mp hp, rfl⟩
  rw [gather, List.flatMap_map, List.flatMap_def, List.map_congr_left hrows, ← List.flatMap_def]
  exact flatMap_filter_eq_of_pairwise Placed.row (pairwise_rowNumbers ps)
    (pairwise_le_mergeSort Placed.row ps) hall

/-- A row holds the controls of its number, and there is one for it to hold. -/
theorem mem_gather {ps : List Placed} {r : Nat × List Placed} (h : r ∈ gather ps) :
    (∀ p ∈ r.2, p ∈ ps ∧ p.row = r.1) ∧ r.2 ≠ [] := by
  obtain ⟨n, hn, rfl⟩ := List.mem_map.mp h
  constructor
  · intro p hp
    obtain ⟨hmem, hrow⟩ := List.mem_filter.mp hp
    exact ⟨hmem, eq_of_beq hrow⟩
  · obtain ⟨p, hp, hrow⟩ := mem_rowNumbers.mp hn
    exact List.ne_nil_of_mem (List.mem_filter.mpr ⟨hp, beq_iff_eq.mpr hrow⟩)

theorem map_fst_gather (ps : List Placed) : (gather ps).map (·.1) = rowNumbers ps := by
  rw [gather, List.map_map]
  exact List.map_id _

end Formwright.Nintex
