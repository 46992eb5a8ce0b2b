import Formwright.Proofs.Forest.Links
import Formwright.Proofs.Forest.Rebuilding
import Mathlib.Data.List.Forall2

/-
  What lies below a node. The entries behind the one of a node, as many as it has descendants, are
  those of its children and what lies below them (`At.take_located`). Among these, the entries that have
  the node for a parent are the children (`map_filter_located`). And they are made of the stretches of the
  children, one after the other (`eq_flatMap_spans`), each as long as its own entry says
  (`forall₂_spans`).
-/

namespace Formwright

theorem Place.later_append {p : Place} (hp : p ≠ []) (q : Place) : later (p ++ q) = p.later ++ q := by
  obtain ⟨k, p, rfl⟩ := List.exists_cons_of_ne_nil hp
  rfl

namespace Forest

variable {α β : Type}

/-- The children of the node at a place, with what lies below them. -/
def childrenAt : Forest α → Place → Forest α
  | node _ children _, [0] => children
  | node _ children _, 0 :: p => children.childrenAt p
  | node _ _ rest, (k + 1) :: p => rest.childrenAt (k :: p)
  | gap rest, (k + 1) :: p => rest.childrenAt (k :: p)
  | _, _ => nil

/-- The positions of the roots, from left to right. -/
def roots : Forest α → List Nat
  | nil => []
  | gap rest => rest.roots.map (· + 1)
  | node _ _ rest => 0 :: rest.roots.map (· + 1)

/-- Where each root stands among the flattened nodes, and how many descendants stand behind it. -/
def spans : Forest α → List (Nat × Nat)
  | nil => []
  | gap rest => rest.spans
  | node _ children rest =>
    (0, children.size) :: rest.spans.map fun s => (children.size + 1 + s.1, s.2)

/-- The entries of a flattened forest, each with the place of its node. -/
def located (f : Forest α) (parent : Option Nat) (depth start : Nat) : List (Entry α × Place) :=
  (f.flattenAt parent depth start).zip f.places

/-! ## Children -/

@[simp] theorem childrenAt_root (a : α) (children rest : Forest α) :
    (node a children rest).childrenAt [0] = children := by
  simp [childrenAt]

theorem childrenAt_below (a : α) (children rest : Forest α) {p : Place} (hp : p ≠ []) :
    (node a children rest).childrenAt (0 :: p) = children.childrenAt p := by
  obtain ⟨k, p, rfl⟩ := List.exists_cons_of_ne_nil hp
  simp [childrenAt]

@[simp] theorem childrenAt_gap_later (rest : Forest α) (p : Place) :
    (gap rest).childrenAt p.later = rest.childrenAt p := by
  cases p <;> cases rest <;> simp [childrenAt, Place.later]

@[simp] theorem childrenAt_node_later (a : α) (children rest : Forest α) (p : Place) :
    (node a children rest).childrenAt p.later = rest.childrenAt p := by
  cases p <;> cases rest <;> simp [childrenAt, Place.later]

/-- A place among the children of a node, behind its own place, is a place of the whole forest. -/
theorem node?_childrenAt (f : Forest α) {p q : Place} (hp : p ≠ []) (hq : q ≠ []) :
    (f.childrenAt p).node? q = f.node? (p ++ q) := by
  obtain ⟨k, p, rfl⟩ := List.exists_cons_of_ne_nil hp
  induction f generalizing k p with
  | nil => simp [childrenAt, node?]
  | gap rest ih =>
    obtain _ | k := k
    · simp [childrenAt, node?]
    · exact ih k p (List.cons_ne_nil _ _)
  | node a children rest ihc ihr =>
    obtain _ | k := k
    · obtain _ | ⟨j, p⟩ := p
      · rw [childrenAt_root, List.singleton_append, node?_below a children rest hq]
      · rw [childrenAt_below a children rest (List.cons_ne_nil _ _), ihc j p (List.cons_ne_nil _ _)]
        exact (node?_below a children rest (List.cons_ne_nil _ _)).symm
    · exact ihr k p (List.cons_ne_nil _ _)

/-- A root stands where there is a node and no gap. -/
theorem mem_roots {f : Forest α} {k : Nat} : k ∈ f.roots ↔ (f.node? [k]).isSome := by
  induction f generalizing k with
  | nil => simp [roots, node?]
  | gap rest ih => cases k <;> simp [roots, node?, ih]
  | node a children rest _ ihr => cases k <;> simp [roots, node?, ihr]

/-! ## Entries with their places -/

theorem located_gap (rest : Forest α) (parent : Option Nat) (depth start : Nat) :
    (gap rest).located parent depth start =
      (rest.located parent depth start).map (Prod.map id Place.later) := by
  rw [located, flattenAt, places, List.zip_map_right]
  rfl

theorem located_node (a : α) (children rest : Forest α) (parent : Option Nat) (depth start : Nat) :
    (node a children rest).located parent depth start =
      (⟨a, parent, depth, children.size⟩, [0]) ::
        ((children.located (some start) (depth + 1) (start + 1)).map (Prod.map id (0 :: ·)) ++
          (rest.located parent depth (start + 1 + children.size)).map (Prod.map id Place.later)) := by
  simp only [located, flattenAt, places, length_flattenAt]
  rw [List.zip_cons_cons, List.zip_append (by simp), List.zip_map_right, List.zip_map_right]

@[simp] theorem length_located (f : Forest α) (parent : Option Nat) (depth start : Nat) :
    (f.located parent depth start).length = f.size := by
  simp [located]

section
variable {parent : Option Nat} {depth start i : Nat} {e : Entry α} {p : Place}

theorem at_iff_located {f : Forest α} :
    f.At parent depth start i e p ↔ (f.located parent depth start)[i]? = some (e, p) := by
  rw [located, List.getElem?_zip_eq_some]
  rfl

/-- A part of the first of two lists is a part of both together. -/
theorem take_drop_append_left {xs : List β} {i n : Nat} (h : i + n ≤ xs.length) (ys : List β) :
    ((xs ++ ys).drop i).take n = (xs.drop i).take n := by
  rw [List.drop_append_of_le_length (by omega), List.take_append_of_le_length]
  rw [List.length_drop]
  omega

/-- A part of the second of two lists is a part of both together. -/
theorem take_drop_append_right {xs : List β} {m : Nat} (h : xs.length = m) (ys : List β) (i n : Nat) :
    ((xs ++ ys).drop (m + i)).take n = (ys.drop i).take n := by
  rw [← h, List.drop_length_add_append]

/-- Behind the entry of a node stand those of its children and what lies below them. -/
theorem At.take_located {f : Forest α} (h : f.At parent depth start i e p) :
    ((f.located parent depth start).drop (i + 1)).take e.descendants =
      ((f.childrenAt p).located (some (start + i)) (e.depth + 1) (start + i + 1)).map
        (Prod.map id (p ++ ·)) := by
  induction f generalizing parent depth start i p with
  | nil => simp [At, flattenAt] at h
  | gap rest ih =>
    obtain ⟨q, hq, rfl⟩ := h.gap_cases
    have hne := ne_nil_of_mem_places hq.mem_places
    rw [located_gap, ← List.map_drop, ← List.map_take, ih hq, List.map_map, childrenAt_gap_later]
    refine List.map_congr_left fun z _ => ?_
    exact Prod.ext rfl (Place.later_append hne z.2)
  | node a children rest ihc ihr =>
    rw [located_node, List.drop_succ_cons]
    rcases h.node_cases with ⟨rfl, rfl, rfl⟩ | ⟨j, q, rfl, hq, rfl⟩ | ⟨j, q, rfl, hq, rfl⟩
    · rw [List.drop_zero, List.take_left' (by simp), childrenAt_root]
      rfl
    · have hne := ne_nil_of_mem_places hq.mem_places
      have hlt := hq.add_descendants_lt
      rw [take_drop_append_left (by rw [List.length_map, length_located]; omega), ← List.map_drop,
        ← List.map_take, ihc hq, List.map_map, childrenAt_below a children rest hne,
        show start + 1 + j = start + (j + 1) by omega]
      rfl
    · have hne := ne_nil_of_mem_places hq.mem_places
      rw [show children.size + 1 + j = children.size + (j + 1) by omega,
        take_drop_append_right (by simp), ← List.map_drop, ← List.map_take, ihr hq, List.map_map,
        childrenAt_node_later,
        show start + 1 + children.size + j = start + (children.size + (j + 1)) by omega]
      refine List.map_congr_left fun z _ => ?_
      exact Prod.ext rfl (Place.later_append hne z.2)

/-! ## Roots -/

/-- The entries that have the parent of the whole forest are those of the roots. -/
theorem map_filter_located (f : Forest α) (parent : Option Nat) (depth start : Nat)
    (hparent : ∀ j, parent = some j → j < start) :
    ((f.located parent depth start).filter fun z => z.1.parent = parent).map (·.2) =
      f.roots.map ([·]) := by
  induction f generalizing start with
  | nil => rfl
  | gap rest ih =>
    rw [located_gap, List.filter_map, List.map_map, roots, List.map_map]
    have h := congrArg (List.map Place.later) (ih start hparent)
    rw [List.map_map, List.map_map] at h
    exact h
  | node a children rest _ ihr =>
    have hbelow : ((children.located (some start) (depth + 1) (start + 1)).map
        (Prod.map id (0 :: ·))).filter (fun z => z.1.parent = parent) = [] := by
      refine List.filter_eq_nil_iff.mpr fun z hz heq => ?_
      obtain ⟨y, hy, rfl⟩ := List.mem_map.mp hz
      have hparent' : y.1.parent = parent := by simpa using heq
      rcases parent_of_mem_flattenAt (List.of_mem_zip hy).1 with hstart | ⟨j, hj, hlow, -⟩
      · have := hparent start (hparent'.symm.trans hstart)
        omega
      · have := hparent j (hparent'.symm.trans hj)
        omega
    have hrest := congrArg (List.map Place.later)
      (ihr (start + 1 + children.size) fun j hj => by have := hparent j hj; omega)
    rw [List.map_map, List.map_map] at hrest
    rw [located_node, List.filter_cons_of_pos (by simp), List.filter_append, hbelow, List.nil_append,
      List.filter_map, List.map_cons, List.map_map, roots, List.map_cons, List.map_map]
    exact congrArg ([0] :: ·) hrest

/-- A root stands where its span says, with as many descendants. -/
theorem forall₂_spans (f : Forest α) (parent : Option Nat) (depth start : Nat) :
    List.Forall₂ (fun s k => ∃ e, (f.located parent depth start)[s.1]? = some (e, [k]) ∧
      e.descendants = s.2) f.spans f.roots := by
  induction f generalizing start with
  | nil => exact List.Forall₂.nil
  | gap rest ih =>
    rw [spans, roots, List.forall₂_map_right_iff]
    refine (ih start).imp fun s k ⟨e, he, hs⟩ => ⟨e, ?_, hs⟩
    rw [located_gap, List.getElem?_map, he]
    rfl
  | node a children rest _ ihr =>
    rw [spans, roots, located_node]
    refine List.Forall₂.cons ⟨_, rfl, rfl⟩ ?_
    rw [List.forall₂_map_left_iff, List.forall₂_map_right_iff]
    refine (ihr (start + 1 + children.size)).imp fun s k ⟨e, he, hs⟩ => ⟨e, ?_, hs⟩
    have hlength : ((children.located (some start) (depth + 1) (start + 1)).map
        (Prod.map id (0 :: ·))).length = children.size := by simp
    rw [show children.size + 1 + s.1 = children.size + s.1 + 1 by omega, List.getElem?_cons_succ,
      List.getElem?_append_right (by omega), hlength, Nat.add_sub_cancel_left, List.getElem?_map, he]
    rfl

/-- What stands somewhere in a part of a list stands in the list. -/
theorem getElem?_of_take_drop {xs : List β} {i j n : Nat} {x : β}
    (h : ((xs.drop i).take n)[j]? = some x) : xs[i + j]? = some x := by
  rw [List.getElem?_take, List.getElem?_drop] at h
  split at h
  · exact h
  · cases h

/-- The children of a node stand behind it where their spans say, with as many descendants. -/
theorem At.forall₂_spans {f : Forest α} (h : f.At parent depth start i e p) :
    List.Forall₂ (fun s k => ∃ e', f.At parent depth start (i + 1 + s.1) e' (p ++ [k]) ∧
      e'.descendants = s.2) (f.childrenAt p).spans (f.childrenAt p).roots := by
  refine ((f.childrenAt p).forall₂_spans (some (start + i)) (e.depth + 1) (start + i + 1)).imp
    fun s k ⟨e', he', hs⟩ => ⟨e', at_iff_located.mpr ?_, hs⟩
  refine getElem?_of_take_drop (n := e.descendants) ?_
  rw [h.take_located, List.getElem?_map, he']
  rfl

/-- A list with an item for each node is made of the stretches of the roots. -/
theorem eq_flatMap_spans (f : Forest α) {xs : List β} (h : xs.length = f.size) :
    xs = f.spans.flatMap fun s => (xs.drop s.1).take (s.2 + 1) := by
  induction f generalizing xs with
  | nil => exact List.length_eq_zero_iff.mp h
  | gap rest ih => exact ih h
  | node a children rest _ ihr =>
    rw [size] at h
    have hrest := ihr (show (xs.drop (children.size + 1)).length = rest.size by
      rw [List.length_drop]
      omega)
    rw [spans, List.flatMap_cons, List.flatMap_map, List.drop_zero]
    simp only [List.drop_drop] at hrest
    rw [← hrest, List.take_append_drop]

end

end Forest

end Formwright
