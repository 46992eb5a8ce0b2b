import Formwright.Proofs.Forest.Places

/-
  The links of a flattened forest are those of its places. Entry number `i` belongs to the place of
  number `i`: its depth is the length of the place (`depth_add_one`), its parent is the entry of the
  place above (`parent_of_root`, `exists_parent`), and its descendants are the places below, which
  stand directly behind it (`descendants_eq_countP`, `prefix_iff_between`).
-/

namespace Formwright.Forest

variable {α : Type}

theorem map_label_flattenAt (f : Forest α) (parent : Option Nat) (depth start : Nat) :
    (f.flattenAt parent depth start).map (·.label) = f.labels := by
  induction f generalizing parent depth start with
  | nil => rfl
  | gap rest ih => exact ih parent depth start
  | node a children rest ihc ihr =>
    simp only [flattenAt, labels, List.map_cons, List.map_append, ihc, ihr]

/-! ## Entries and places side by side -/

/-- An entry and a place of one number, for a flattened forest. -/
def At (f : Forest α) (parent : Option Nat) (depth start i : Nat) (e : Entry α) (p : Place) :
    Prop :=
  (f.flattenAt parent depth start)[i]? = some e ∧ f.places[i]? = some p

section
variable {parent : Option Nat} {depth start i : Nat} {e : Entry α} {p : Place}

theorem At.lt_size {f : Forest α} (h : f.At parent depth start i e p) : i < f.size := by
  rw [← length_places f]
  exact (List.getElem?_eq_some_iff.mp h.2).1

theorem At.mem_places {f : Forest α} (h : f.At parent depth start i e p) : p ∈ f.places :=
  List.mem_of_getElem? h.2

theorem At.gap_cases {rest : Forest α} (h : (gap rest).At parent depth start i e p) :
    ∃ q, rest.At parent depth start i e q ∧ p = q.later := by
  have hp := h.2
  rw [places, List.getElem?_map, Option.map_eq_some_iff] at hp
  obtain ⟨q, hq, rfl⟩ := hp
  exact ⟨q, ⟨h.1, hq⟩, rfl⟩

/-- What stands at a number of a list made of a head and two blocks. -/
theorem block_cases {β : Type} {x v : β} {xs ys : List β} {i : Nat}
    (h : (x :: (xs ++ ys))[i]? = some v) :
    (i = 0 ∧ v = x) ∨ (∃ j, i = j + 1 ∧ j < xs.length ∧ xs[j]? = some v) ∨
      ∃ j, i = xs.length + 1 + j ∧ ys[j]? = some v := by
  obtain _ | j := i
  · exact Or.inl ⟨rfl, by simpa using h.symm⟩
  · rw [List.getElem?_cons_succ] at h
    by_cases hj : j < xs.length
    · exact Or.inr (Or.inl ⟨j, rfl, hj, by rwa [List.getElem?_append_left hj] at h⟩)
    · rw [List.getElem?_append_right (by omega)] at h
      exact Or.inr (Or.inr ⟨j - xs.length, by omega, h⟩)

/-- The entries of a forest that starts with a node: the node, those of its children, the others. -/
theorem At.node_cases {a : α} {children rest : Forest α}
    (h : (node a children rest).At parent depth start i e p) :
    (i = 0 ∧ e = ⟨a, parent, depth, children.size⟩ ∧ p = [0]) ∨
      (∃ j q, i = j + 1 ∧ children.At (some start) (depth + 1) (start + 1) j e q ∧ p = 0 :: q) ∨
      ∃ j q, i = children.size + 1 + j ∧ rest.At parent depth (start + 1 + children.size) j e q ∧
        p = q.later := by
  obtain ⟨he, hp⟩ := h
  simp only [flattenAt, length_flattenAt] at he
  rw [places] at hp
  rcases block_cases he with ⟨rfl, rfl⟩ | ⟨j, rfl, hj, hc⟩ | ⟨j, rfl, hr⟩
  · exact Or.inl ⟨rfl, rfl, by simpa using hp.symm⟩
  · rw [length_flattenAt] at hj
    rw [List.getElem?_cons_succ, List.getElem?_append_left (by simpa using hj),
      List.getElem?_map, Option.map_eq_some_iff] at hp
    obtain ⟨q, hq, rfl⟩ := hp
    exact Or.inr (Or.inl ⟨j, q, rfl, ⟨hc, hq⟩, rfl⟩)
  · rw [length_flattenAt, show children.size + 1 + j = (children.size + j) + 1 by omega,
      List.getElem?_cons_succ, List.getElem?_append_right (by simp), List.length_map, length_places,
      Nat.add_sub_cancel_left, List.getElem?_map, Option.map_eq_some_iff] at hp
    obtain ⟨q, hq, rfl⟩ := hp
    exact Or.inr (Or.inr ⟨j, q, by rw [length_flattenAt], ⟨hr, hq⟩, rfl⟩)

theorem getElem?_places_below (a : α) {children : Forest α} (rest : Forest α) {j : Nat} {q : Place}
    (h : children.places[j]? = some q) : (node a children rest).places[j + 1]? = some (0 :: q) := by
  have hj : j < children.places.length := (List.getElem?_eq_some_iff.mp h).1
  rw [places, List.getElem?_cons_succ, List.getElem?_append_left (by simpa using hj),
    List.getElem?_map, h]
  rfl

theorem getElem?_places_beside (a : α) (children : Forest α) {rest : Forest α} {j : Nat} {q : Place}
    (h : rest.places[j]? = some q) :
    (node a children rest).places[children.size + 1 + j]? = some q.later := by
  rw [places, show children.size + 1 + j = (children.size + j) + 1 by omega,
    List.getElem?_cons_succ, List.getElem?_append_right (by simp), List.length_map, length_places,
    Nat.add_sub_cancel_left, List.getElem?_map, h]
  rfl

/-! ## Depths and parents -/

/-- The depth of an entry is one less than the length of its place. -/
theorem At.depth_add_one {f : Forest α} (h : f.At parent depth start i e p) :
    e.depth + 1 = depth + p.length := by
  induction f generalizing parent depth start i p with
  | nil => simp [At, flattenAt] at h
  | gap rest ih =>
    obtain ⟨q, hq, rfl⟩ := h.gap_cases
    rw [Place.length_later]
    exact ih hq
  | node a children rest ihc ihr =>
    rcases h.node_cases with ⟨-, rfl, rfl⟩ | ⟨j, q, -, hq, rfl⟩ | ⟨j, q, -, hq, rfl⟩
    · rfl
    · rw [ihc hq, List.length_cons]
      omega
    · rw [Place.length_later]
      exact ihr hq

/-- A root has the parent that the whole forest has. -/
theorem At.parent_of_root {f : Forest α} (h : f.At parent depth start i e p) (hp : p.length = 1) :
    e.parent = parent := by
  induction f generalizing parent depth start i p with
  | nil => simp [At, flattenAt] at h
  | gap rest ih =>
    obtain ⟨q, hq, rfl⟩ := h.gap_cases
    exact ih hq (by simpa using hp)
  | node a children rest ihc ihr =>
    rcases h.node_cases with ⟨-, rfl, rfl⟩ | ⟨j, q, -, hq, rfl⟩ | ⟨j, q, -, hq, rfl⟩
    · rfl
    · have hne := ne_nil_of_mem_places hq.mem_places
      rw [List.length_cons, Nat.add_eq_right, List.length_eq_zero_iff] at hp
      exact absurd hp hne
    · exact ihr hq (by simpa using hp)

/-- Any other node has the entry of the place above as its parent, and that stands before it. -/
theorem At.exists_parent {f : Forest α} (h : f.At parent depth start i e p) (hp : 1 < p.length) :
    ∃ j, j < i ∧ f.places[j]? = some p.dropLast ∧ e.parent = some (start + j) := by
  induction f generalizing parent depth start i p with
  | nil => simp [At, flattenAt] at h
  | gap rest ih =>
    obtain ⟨q, hq, rfl⟩ := h.gap_cases
    obtain ⟨j, hj, hjp, hje⟩ := ih hq (by simpa using hp)
    refine ⟨j, hj, ?_, hje⟩
    rw [places, List.getElem?_map, hjp, Place.dropLast_later]
    rfl
  | node a children rest ihc ihr =>
    rcases h.node_cases with ⟨-, rfl, rfl⟩ | ⟨j, q, rfl, hq, rfl⟩ | ⟨j, q, rfl, hq, rfl⟩
    · simp at hp
    · have hne : q ≠ [] := ne_nil_of_mem_places hq.mem_places
      rw [List.dropLast_cons_of_ne_nil hne]
      by_cases hl : q.length = 1
      · -- the place above is the node itself
        obtain ⟨k, rfl⟩ := List.length_eq_one_iff.mp hl
        exact ⟨0, Nat.succ_pos j, rfl, hq.parent_of_root hl⟩
      · obtain ⟨m, hm, hmp, hme⟩ := ihc hq (by have := List.length_pos_iff.mpr hne; omega)
        exact ⟨m + 1, by omega, getElem?_places_below a rest hmp, by rw [hme]; congr 1; omega⟩
    · obtain ⟨m, hm, hmp, hme⟩ := ihr hq (by simpa using hp)
      refine ⟨children.size + 1 + m, by omega, ?_, by rw [hme]; congr 1; omega⟩
      rw [Place.dropLast_later]
      exact getElem?_places_beside a children hmp

/-! ## Descendants -/

/-- The descendants of an entry lie inside the list. -/
theorem At.add_descendants_lt {f : Forest α} (h : f.At parent depth start i e p) :
    i + e.descendants < f.size := by
  induction f generalizing parent depth start i p with
  | nil => simp [At, flattenAt] at h
  | gap rest ih =>
    obtain ⟨q, hq, -⟩ := h.gap_cases
    exact ih hq
  | node a children rest ihc ihr =>
    rw [size]
    rcases h.node_cases with ⟨rfl, rfl, -⟩ | ⟨j, q, rfl, hq, -⟩ | ⟨j, q, rfl, hq, -⟩
    · simp only
      omega
    · have := ihc hq
      omega
    · have := ihr hq
      omega

/-- What starts with the place of an entry is the entry and the descendants directly behind it. -/
theorem At.prefix_iff_between {f : Forest α} {j : Nat} {e' : Entry α} {q : Place}
    (h : f.At parent depth start i e p) (h' : f.At parent depth start j e' q) :
    p <+: q ↔ i ≤ j ∧ j ≤ i + e.descendants := by
  induction f generalizing parent depth start i j p q with
  | nil => simp [At, flattenAt] at h
  | gap rest ih =>
    obtain ⟨p', hp, rfl⟩ := h.gap_cases
    obtain ⟨q', hq, rfl⟩ := h'.gap_cases
    rw [Place.later_prefix_later]
    exact ih hp hq
  | node a children rest ihc ihr =>
    rcases h.node_cases with ⟨rfl, rfl, rfl⟩ | ⟨k, p', rfl, hp, rfl⟩ | ⟨k, p', rfl, hp, rfl⟩ <;>
    rcases h'.node_cases with ⟨rfl, rfl, rfl⟩ | ⟨m, q', rfl, hq, rfl⟩ | ⟨m, q', rfl, hq, rfl⟩
    · simp
    · have := hq.lt_size
      simp only [List.cons_prefix_cons, List.nil_prefix, and_self, true_iff]
      omega
    · simp only [Place.not_zero_cons_prefix_later, false_iff]
      omega
    · have hne := ne_nil_of_mem_places hp.mem_places
      simp only [List.cons_prefix_cons, List.prefix_nil, hne, and_false, false_iff]
      omega
    · rw [List.cons_prefix_cons, ihc hp hq]
      omega
    · have := hp.add_descendants_lt
      simp only [Place.not_zero_cons_prefix_later, false_iff]
      omega
    · simp only [Place.not_later_prefix_zero_cons (ne_nil_of_mem_places hp.mem_places), false_iff]
      omega
    · have := hq.lt_size
      simp only [Place.not_later_prefix_zero_cons (ne_nil_of_mem_places hp.mem_places), false_iff]
      omega
    · rw [Place.later_prefix_later, ihr hp hq]
      omega

theorem exists_at (f : Forest α) (parent : Option Nat) (depth start : Nat) {i : Nat}
    (hi : i < f.size) : ∃ e p, f.At parent depth start i e p :=
  ⟨_, _, List.getElem?_eq_getElem (by rwa [length_flattenAt]),
    List.getElem?_eq_getElem (by rwa [length_places])⟩

/-- What lies below an entry has its own descendants inside. -/
theorem At.descendants_within {f : Forest α} {j : Nat} {e' : Entry α} {q : Place}
    (h : f.At parent depth start i e p) (h' : f.At parent depth start j e' q)
    (hij : i ≤ j) (hji : j ≤ i + e.descendants) : j + e'.descendants ≤ i + e.descendants := by
  -- the last descendant starts with the place of `e'`, hence with that of `e`
  obtain ⟨e'', r, hr⟩ := exists_at f parent depth start h'.add_descendants_lt
  have hqr : q <+: r := (h'.prefix_iff_between hr).mpr ⟨by omega, by omega⟩
  have hpq : p <+: q := (h.prefix_iff_between h').mpr ⟨hij, hji⟩
  exact ((h.prefix_iff_between hr).mp (hpq.trans hqr)).2

/-- The ranges of two entries with their descendants are nested or disjoint. -/
theorem At.laminar {f : Forest α} {j : Nat} {e' : Entry α} {q : Place}
    (h : f.At parent depth start i e p) (h' : f.At parent depth start j e' q) :
    (i ≤ j ∧ j + e'.descendants ≤ i + e.descendants) ∨
      (j ≤ i ∧ i + e.descendants ≤ j + e'.descendants) ∨
      i + e.descendants < j ∨ j + e'.descendants < i := by
  by_cases hij : i ≤ j
  · by_cases hji : j ≤ i + e.descendants
    · exact Or.inl ⟨hij, h.descendants_within h' hij hji⟩
    · omega
  · by_cases hji : i ≤ j + e'.descendants
    · exact Or.inr (Or.inl ⟨by omega, h'.descendants_within h (by omega) hji⟩)
    · omega

/-- An entry has as many descendants as there are places below its own. -/
theorem At.descendants_eq_countP {f : Forest α} (h : f.At parent depth start i e p) :
    e.descendants = f.places.countP (·.isBelow p) := by
  induction f generalizing parent depth start i p with
  | nil => simp [At, flattenAt] at h
  | gap rest ih =>
    obtain ⟨q, hq, rfl⟩ := h.gap_cases
    rw [ih hq, places, List.countP_map]
    exact List.countP_congr fun x _ => by simp [Place.isBelow_later]
  | node a children rest ihc ihr =>
    rw [places, List.countP_cons, List.countP_append, List.countP_map, List.countP_map]
    rcases h.node_cases with ⟨-, rfl, rfl⟩ | ⟨j, q, -, hq, rfl⟩ | ⟨j, q, -, hq, rfl⟩
    · have hc : ∀ x ∈ children.places, ((Place.isBelow · [0]) ∘ (0 :: ·)) x = true := by
        intro x hx
        have := List.length_pos_iff.mpr (ne_nil_of_mem_places hx)
        simpa [Place.isBelow_iff, List.cons_prefix_cons] using this
      have hr : ∀ x ∈ rest.places, ¬ ((·.isBelow [0]) ∘ Place.later) x = true := by
        intro x _ hx
        exact Place.not_zero_cons_prefix_later (Place.isBelow_iff.mp hx).1
      rw [List.countP_eq_length.mpr hc, List.countP_eq_zero.mpr hr, length_places]
      rfl
    · have hr : ∀ x ∈ rest.places, ¬ ((·.isBelow (0 :: q)) ∘ Place.later) x = true := by
        intro x _ hx
        exact Place.not_zero_cons_prefix_later (Place.isBelow_iff.mp hx).1
      have h0 : Place.isBelow [0] (0 :: q) = false := by
        simp [Place.isBelow]
      rw [ihc hq, List.countP_eq_zero.mpr hr, h0]
      exact List.countP_congr fun x _ => by simp [Place.isBelow_cons]
    · have hne := ne_nil_of_mem_places hq.mem_places
      have hc : ∀ x ∈ children.places, ¬ ((Place.isBelow · q.later) ∘ (0 :: ·)) x = true := by
        intro x _ hx
        exact Place.not_later_prefix_zero_cons hne (Place.isBelow_iff.mp hx).1
      have h0 : Place.isBelow [0] q.later = false := by
        rw [Bool.eq_false_iff]
        exact fun h0 => Place.not_later_prefix_zero_cons hne (Place.isBelow_iff.mp h0).1
      rw [ihr hq, List.countP_eq_zero.mpr hc, h0, if_neg (by simp), Nat.zero_add, Nat.add_zero]
      exact List.countP_congr fun x _ => by simp [Place.isBelow_later]

end

end Formwright.Forest
