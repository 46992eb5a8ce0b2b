import Formwright.Forest.Basic

/-
  Places of a forest. A node is found by its position among its siblings, gaps counted, below the
  place of its parent; so a place is a list of positions. `places` lists the places of all nodes in
  pre-order, which is the lexicographic order (`pairwise_places`), and it lists the places that hold
  a node and no others (`mem_places`).
-/

namespace Formwright

/-- A place in a forest: a position among the roots, then positions among children. -/
abbrev Place := List Nat

namespace Place

/-- The same place, one position later among the first siblings. -/
def later : Place → Place
  | [] => []
  | k :: p => (k + 1) :: p

@[simp] theorem length_later (p : Place) : p.later.length = p.length := by
  cases p <;> rfl

@[simp] theorem later_eq_nil {p : Place} : p.later = [] ↔ p = [] := by
  cases p <;> simp [later]

theorem dropLast_later (p : Place) : List.dropLast p.later = later p.dropLast := by
  obtain _ | ⟨k, _ | ⟨j, q⟩⟩ := p <;> rfl

@[simp] theorem later_prefix_later {p q : Place} : p.later <+: q.later ↔ p <+: q := by
  cases p <;> cases q <;> simp [later, List.cons_prefix_cons]

theorem later_lt_later {p q : Place} (h : p < q) : p.later < q.later := by
  obtain _ | ⟨j, p⟩ := p
  · obtain _ | ⟨k, q⟩ := q
    · exact absurd h (List.lt_irrefl _)
    · exact List.nil_lt_cons _ _
  · obtain _ | ⟨k, q⟩ := q
    · exact absurd h (List.not_lt_nil _)
    · rcases List.cons_lt_cons_iff.mp h with hjk | ⟨rfl, hpq⟩
      · exact List.cons_lt_cons_iff.mpr (Or.inl (Nat.succ_lt_succ hjk))
      · exact List.cons_lt_cons_iff.mpr (Or.inr ⟨rfl, hpq⟩)

/-- What starts at the first position comes before what starts later. -/
theorem zero_cons_lt_later {p q : Place} (hq : q ≠ []) : 0 :: p < q.later := by
  obtain _ | ⟨k, q⟩ := q
  · exact absurd rfl hq
  · exact List.cons_lt_cons_iff.mpr (Or.inl (Nat.succ_pos k))

theorem not_zero_cons_prefix_later {p q : Place} : ¬ 0 :: p <+: q.later := by
  cases q <;> simp [later, List.cons_prefix_cons]

theorem not_later_prefix_zero_cons {p q : Place} (hp : p ≠ []) : ¬ p.later <+: 0 :: q := by
  obtain _ | ⟨k, p⟩ := p
  · exact absurd rfl hp
  · simp [later, List.cons_prefix_cons]

/-- Whether a place lies properly below another one. -/
def isBelow (q p : Place) : Bool := p.isPrefixOf q && decide (p.length < q.length)

theorem isBelow_iff {q p : Place} : q.isBelow p = true ↔ p <+: q ∧ p.length < q.length := by
  simp [isBelow]

theorem isBelow_cons (k : Nat) (q p : Place) : isBelow (k :: q) (k :: p) = q.isBelow p := by
  rw [Bool.eq_iff_iff, isBelow_iff, isBelow_iff, List.cons_prefix_cons]
  simp

theorem isBelow_later (q p : Place) : q.later.isBelow p.later = q.isBelow p := by
  rw [Bool.eq_iff_iff, isBelow_iff, isBelow_iff]
  simp

end Place

namespace Forest

variable {α : Type}

/-- The label of the node at a place. -/
def node? : Forest α → Place → Option α
  | node a _ _, [0] => some a
  | node _ children _, 0 :: p => children.node? p
  | node _ _ rest, (k + 1) :: p => rest.node? (k :: p)
  | gap rest, (k + 1) :: p => rest.node? (k :: p)
  | _, _ => none

/-- The labels of a forest in pre-order. -/
def labels : Forest α → List α
  | nil => []
  | gap rest => rest.labels
  | node a children rest => a :: (children.labels ++ rest.labels)

/-- The places of the nodes in pre-order. -/
def places : Forest α → List Place
  | nil => []
  | gap rest => rest.places.map Place.later
  | node _ children rest => [0] :: (children.places.map (0 :: ·) ++ rest.places.map Place.later)

@[simp] theorem length_places (f : Forest α) : f.places.length = f.size := by
  induction f with
  | nil => rfl
  | gap rest ih => simpa [places, size] using ih
  | node a children rest ihc ihr =>
    simp only [places, List.length_cons, List.length_append, List.length_map, ihc, ihr, size]
    omega

/-! ## The places are those of the nodes -/

@[simp] theorem node?_empty (f : Forest α) : f.node? [] = none := by
  cases f <;> rfl

@[simp] theorem node?_root (a : α) (children rest : Forest α) :
    (node a children rest).node? [0] = some a := by
  simp [node?]

theorem node?_below (a : α) (children rest : Forest α) {p : Place} (hp : p ≠ []) :
    (node a children rest).node? (0 :: p) = children.node? p := by
  cases p with
  | nil => exact absurd rfl hp
  | cons j q => simp [node?]

@[simp] theorem node?_gap_later (rest : Forest α) (p : Place) :
    (gap rest).node? p.later = rest.node? p := by
  cases p <;> simp [node?, Place.later]

@[simp] theorem node?_node_later (a : α) (children rest : Forest α) (p : Place) :
    (node a children rest).node? p.later = rest.node? p := by
  cases p <;> simp [node?, Place.later]

theorem ne_nil_of_mem_places {f : Forest α} {p : Place} (h : p ∈ f.places) : p ≠ [] := by
  induction f generalizing p with
  | nil => simp [places] at h
  | gap rest ih =>
    obtain ⟨q, hq, rfl⟩ := List.mem_map.mp h
    exact mt Place.later_eq_nil.mp (ih hq)
  | node a children rest ihc ihr =>
    simp only [places, List.mem_cons, List.mem_append, List.mem_map] at h
    rcases h with rfl | ⟨q, -, rfl⟩ | ⟨q, hq, rfl⟩
    · exact List.cons_ne_nil _ _
    · exact List.cons_ne_nil _ _
    · exact mt Place.later_eq_nil.mp (ihr hq)

/-- The places hold the labels, one by one. -/
theorem map_node?_places (f : Forest α) : f.places.map f.node? = f.labels.map some := by
  induction f with
  | nil => rfl
  | gap rest ih =>
    rw [places, List.map_map, labels, ← ih]
    exact List.map_congr_left fun p _ => node?_gap_later rest p
  | node a children rest ihc ihr =>
    have hc : (children.places.map (0 :: ·)).map (node a children rest).node? =
        children.labels.map some := by
      rw [List.map_map, ← ihc]
      exact List.map_congr_left fun p hp => node?_below a children rest (ne_nil_of_mem_places hp)
    have hr : (rest.places.map Place.later).map (node a children rest).node? =
        rest.labels.map some := by
      rw [List.map_map, ← ihr]
      exact List.map_congr_left fun p _ => node?_node_later a children rest p
    simp only [places, labels, List.map_cons, List.map_append, hc, hr, node?_root]

/-- Every place that holds a node is listed. -/
theorem mem_places_of_node? {f : Forest α} {p : Place} {a : α} (h : f.node? p = some a) :
    p ∈ f.places := by
  induction f generalizing p with
  | nil => cases p <;> simp [node?] at h
  | gap rest ih =>
    obtain _ | ⟨k, q⟩ := p
    · simp at h
    obtain _ | k := k
    · simp [node?] at h
    · exact List.mem_map.mpr ⟨k :: q, ih (by simpa [node?] using h), rfl⟩
  | node b children rest ihc ihr =>
    simp only [places, List.mem_cons, List.mem_append, List.mem_map]
    obtain _ | ⟨k, q⟩ := p
    · simp at h
    obtain _ | k := k
    · by_cases hq : q = []
      · exact Or.inl (by rw [hq])
      · rw [node?_below b children rest hq] at h
        exact Or.inr (Or.inl ⟨q, ihc h, rfl⟩)
    · exact Or.inr (Or.inr ⟨k :: q, ihr (by simpa [node?] using h), rfl⟩)

/-- The listed places are those that hold a node. -/
theorem mem_places {f : Forest α} {p : Place} : p ∈ f.places ↔ (f.node? p).isSome := by
  constructor
  · intro h
    have hm : f.node? p ∈ f.labels.map some := by
      rw [← map_node?_places]
      exact List.mem_map_of_mem h
    obtain ⟨a, -, ha⟩ := List.mem_map.mp hm
    rw [← ha]
    rfl
  · intro h
    obtain ⟨a, ha⟩ := Option.isSome_iff_exists.mp h
    exact mem_places_of_node? ha

/-- The node at a listed place is the label of the same number. -/
theorem node?_of_getElem? {f : Forest α} {i : Nat} {p : Place} {a : α} (hp : f.places[i]? = some p)
    (ha : f.labels[i]? = some a) : f.node? p = some a := by
  have h := congrArg (·[i]?) (map_node?_places f)
  simpa [hp, ha] using h

theorem mem_labels {f : Forest α} {a : α} : a ∈ f.labels ↔ ∃ p, f.node? p = some a := by
  have hmem : a ∈ f.labels ↔ some a ∈ f.places.map f.node? := by
    rw [map_node?_places]
    simp
  rw [hmem, List.mem_map]
  exact ⟨fun ⟨p, _, hp⟩ => ⟨p, hp⟩, fun ⟨p, hp⟩ => ⟨p, mem_places_of_node? hp, hp⟩⟩

/-! ## The order of the places -/

/-- The places stand in lexicographic order, so a node comes before what lies below it, and that
before its later siblings. -/
theorem pairwise_places (f : Forest α) : f.places.Pairwise (· < ·) := by
  induction f with
  | nil => exact List.Pairwise.nil
  | gap rest ih => exact ih.map Place.later fun _ _ h => Place.later_lt_later h
  | node a children rest ihc ihr =>
    refine List.pairwise_cons.mpr ⟨?_, List.pairwise_append.mpr ⟨?_, ?_, ?_⟩⟩
    · intro p hp
      rcases List.mem_append.mp hp with hp | hp
      · obtain ⟨q, hq, rfl⟩ := List.mem_map.mp hp
        obtain ⟨k, q, rfl⟩ := List.exists_cons_of_ne_nil (ne_nil_of_mem_places hq)
        exact List.cons_lt_cons_iff.mpr (Or.inr ⟨rfl, List.nil_lt_cons k q⟩)
      · obtain ⟨q, hq, rfl⟩ := List.mem_map.mp hp
        exact Place.zero_cons_lt_later (ne_nil_of_mem_places hq)
    · exact ihc.map (0 :: ·) fun _ _ h => List.cons_lt_cons_iff.mpr (Or.inr ⟨rfl, h⟩)
    · exact ihr.map Place.later fun _ _ h => Place.later_lt_later h
    · intro p hp q hq
      obtain ⟨p', -, rfl⟩ := List.mem_map.mp hp
      obtain ⟨q', hq', rfl⟩ := List.mem_map.mp hq
      exact Place.zero_cons_lt_later (ne_nil_of_mem_places hq')

end Forest

end Formwright
