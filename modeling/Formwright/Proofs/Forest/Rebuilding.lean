import Formwright.Forest.Basic

/-
  Forests from flattened ones. The labels of the entries together with one link of each, be it the
  depth (`ofDepths`), the number of descendants (`ofDescendants`) or the parent (`ofParents`), say what
  the forest was, up to gaps (`ofDepths_flatten`, `ofDescendants_flatten`, `ofParents_flatten`). So any
  one of the links says what the other two are: each decides the shape of the forest, and is decided by
  it (`map_depth_flatten_inj`, `map_descendants_flatten_inj`, `map_parent_flatten_inj`).
-/

namespace Formwright.Forest

variable {α β : Type}

/-- A forest without its gaps. -/
def pruned : Forest α → Forest α
  | nil => nil
  | gap rest => rest.pruned
  | node a children rest => node a children.pruned rest.pruned

/-- A forest without gaps and labels. -/
def shape : Forest α → Forest Unit
  | nil => nil
  | gap rest => rest.shape
  | node _ children rest => node () children.shape rest.shape

/-- The forest of nodes with their depths: below a node lie the nodes behind it, up to one that is not
deeper. -/
def ofDepths : List (α × Nat) → Forest α
  | [] => nil
  | (a, d) :: es =>
    node a (ofDepths (es.takeWhile fun e => d < e.2)) (ofDepths (es.dropWhile fun e => d < e.2))
termination_by es => es.length
decreasing_by
  · exact Nat.lt_succ_of_le (List.takeWhile_sublist _).length_le
  · exact Nat.lt_succ_of_le (List.dropWhile_sublist _).length_le

/-- The forest of nodes with the numbers of their descendants, which stand directly behind them. -/
def ofDescendants : List (α × Nat) → Forest α
  | [] => nil
  | (a, n) :: es => node a (ofDescendants (es.take n)) (ofDescendants (es.drop n))
termination_by es => es.length
decreasing_by
  · exact Nat.lt_succ_of_le (List.take_sublist n es).length_le
  · exact Nat.lt_succ_of_le (List.drop_sublist n es).length_le

/-- The nodes of one parent among nodes from place `start` on, each with what lies below it. -/
def ofParentsFrom (parent : Option Nat) (start : Nat) : List (α × Option Nat) → Forest α
  | [] => nil
  | (a, p) :: es =>
    if p = parent then
      node a (ofParentsFrom (some start) (start + 1) es) (ofParentsFrom parent (start + 1) es)
    else ofParentsFrom parent (start + 1) es

/-- The forest of nodes with the places of their parents. -/
def ofParents (es : List (α × Option Nat)) : Forest α := ofParentsFrom none 0 es

/-! ## From depths -/

theorem le_depth_of_mem_flattenAt {f : Forest α} {parent : Option Nat} {depth start : Nat}
    {e : Entry α} (he : e ∈ f.flattenAt parent depth start) : depth ≤ e.depth := by
  induction f generalizing parent depth start with
  | nil => exact absurd he List.not_mem_nil
  | gap rest ih => exact ih he
  | node a children rest ihc ihr =>
    simp only [flattenAt, List.mem_cons, List.mem_append] at he
    rcases he with rfl | he | he
    · exact Nat.le_refl _
    · exact Nat.le_of_succ_le (ihc he)
    · exact ihr he

/-- A forest starts with a node of its least depth. -/
theorem head?_flattenAt (f : Forest α) (parent : Option Nat) (depth start : Nat) :
    ∀ e ∈ (f.flattenAt parent depth start).head?, e.depth = depth := by
  induction f with
  | nil => exact fun e he => nomatch he
  | gap rest ih => exact ih
  | node a children rest _ _ =>
    intro e he
    obtain rfl := Option.some.inj he
    rfl

/-- Items with a property end where a list follows that starts with one without it. -/
theorem span_append {p : β → Bool} {xs ys : List β} (hxs : ∀ x ∈ xs, p x = true)
    (hys : ∀ y ∈ ys.head?, p y = false) :
    (xs ++ ys).takeWhile p = xs ∧ (xs ++ ys).dropWhile p = ys := by
  rw [List.takeWhile_append_of_pos hxs, List.dropWhile_append_of_pos hxs]
  cases ys with
  | nil => exact ⟨List.append_nil xs, rfl⟩
  | cons y ys =>
    have hy : ¬ p y = true := by simp [hys y rfl]
    rw [List.takeWhile_cons_of_neg hy, List.dropWhile_cons_of_neg hy, List.append_nil]
    exact ⟨rfl, rfl⟩

theorem ofDepths_flattenAt (f : Forest α) (parent : Option Nat) (depth start : Nat) :
    ofDepths ((f.flattenAt parent depth start).map fun e => (e.label, e.depth)) = f.pruned := by
  induction f generalizing parent depth start with
  | nil => rw [flattenAt, List.map_nil, ofDepths, pruned]
  | gap rest ih => exact ih parent depth start
  | node a children rest ihc ihr =>
    simp only [flattenAt, List.map_cons, List.map_append]
    rw [ofDepths]
    have hinside : ∀ x ∈ (children.flattenAt (some start) (depth + 1) (start + 1)).map
        (fun e => (e.label, e.depth)), decide (depth < x.2) = true := by
      intro x hx
      obtain ⟨e, he, rfl⟩ := List.mem_map.mp hx
      exact decide_eq_true (le_depth_of_mem_flattenAt he)
    have hnext : ∀ y ∈ ((rest.flattenAt parent depth
        (start + 1 + (children.flattenAt (some start) (depth + 1) (start + 1)).length)).map
          fun e => (e.label, e.depth)).head?, decide (depth < y.2) = false := by
      intro y hy
      rw [List.head?_map] at hy
      obtain ⟨e, he, rfl⟩ := Option.map_eq_some_iff.mp hy
      have := head?_flattenAt rest parent depth _ e he
      exact decide_eq_false (by omega)
    obtain ⟨htake, hdrop⟩ := span_append hinside hnext
    rw [htake, hdrop, ihc, ihr, pruned]

theorem ofDepths_flatten (f : Forest α) :
    ofDepths (f.flatten.map fun e => (e.label, e.depth)) = f.pruned :=
  ofDepths_flattenAt f none 0 0

/-! ## From numbers of descendants -/

theorem ofDescendants_flattenAt (f : Forest α) (parent : Option Nat) (depth start : Nat) :
    ofDescendants ((f.flattenAt parent depth start).map fun e => (e.label, e.descendants)) =
      f.pruned := by
  induction f generalizing parent depth start with
  | nil => rw [flattenAt, List.map_nil, ofDescendants, pruned]
  | gap rest ih => exact ih parent depth start
  | node a children rest ihc ihr =>
    simp only [flattenAt, List.map_cons, List.map_append]
    rw [ofDescendants, List.take_left' (List.length_map _), List.drop_left' (List.length_map _), ihc, ihr,
      pruned]

theorem ofDescendants_flatten (f : Forest α) :
    ofDescendants (f.flatten.map fun e => (e.label, e.descendants)) = f.pruned :=
  ofDescendants_flattenAt f none 0 0

/-! ## From parents -/

/-- The parent of an entry is the one that the whole forest has, or an entry of the forest. -/
theorem parent_of_mem_flattenAt {f : Forest α} {parent : Option Nat} {depth start : Nat}
    {e : Entry α} (he : e ∈ f.flattenAt parent depth start) :
    e.parent = parent ∨ ∃ j, e.parent = some j ∧ start ≤ j ∧ j < start + f.size := by
  induction f generalizing parent depth start with
  | nil => exact absurd he List.not_mem_nil
  | gap rest ih => exact ih he
  | node a children rest ihc ihr =>
    simp only [flattenAt, List.mem_cons, List.mem_append, length_flattenAt] at he
    rw [size]
    rcases he with rfl | he | he
    · exact Or.inl rfl
    · rcases ihc he with hparent | ⟨j, hparent, hlow, hhigh⟩
      · exact Or.inr ⟨start, hparent, by omega, by omega⟩
      · exact Or.inr ⟨j, hparent, by omega, by omega⟩
    · rcases ihr he with hparent | ⟨j, hparent, hlow, hhigh⟩
      · exact Or.inl hparent
      · exact Or.inr ⟨j, hparent, by omega, by omega⟩

/-- Nodes of other parents are passed over. -/
theorem ofParentsFrom_append {parent : Option Nat} {xs : List (α × Option Nat)}
    (h : ∀ x ∈ xs, x.2 ≠ parent) (start : Nat) (ys : List (α × Option Nat)) :
    ofParentsFrom parent start (xs ++ ys) = ofParentsFrom parent (start + xs.length) ys := by
  induction xs generalizing start with
  | nil => rfl
  | cons x xs ih =>
    obtain ⟨hx, hxs⟩ := List.forall_mem_cons.mp h
    rw [List.cons_append, ofParentsFrom, if_neg hx, ih hxs, List.length_cons, Nat.add_right_comm,
      Nat.add_assoc]

/-- A forest is found in front of nodes that lie neither beside nor inside of it. -/
theorem ofParentsFrom_flattenAt (f : Forest α) {parent : Option Nat} {depth start : Nat}
    {ys : List (α × Option Nat)} (hparent : ∀ j, parent = some j → j < start)
    (hys : ∀ y ∈ ys, y.2 ≠ parent ∧ ∀ j, y.2 = some j → j < start ∨ start + f.size ≤ j) :
    ofParentsFrom parent start
      ((f.flattenAt parent depth start).map (fun e => (e.label, e.parent)) ++ ys) = f.pruned := by
  induction f generalizing parent depth start ys with
  | nil =>
    have hskip := ofParentsFrom_append (fun y hy => (hys y hy).1) start []
    rw [List.append_nil] at hskip
    rw [flattenAt, List.map_nil, List.nil_append, hskip, ofParentsFrom, pruned]
  | gap rest ih => exact ih hparent hys
  | node a children rest ihc ihr =>
    simp only [flattenAt, List.map_cons, List.map_append, List.cons_append, List.append_assoc,
      length_flattenAt]
    rw [size] at hys
    -- what lies below the node does not lie beside it
    have hbelow : ∀ x ∈ (children.flattenAt (some start) (depth + 1) (start + 1)).map
        (fun e => (e.label, e.parent)), x.2 ≠ parent := by
      intro x hx heq
      obtain ⟨e, he, rfl⟩ := List.mem_map.mp hx
      rcases parent_of_mem_flattenAt he with hstart | ⟨j, hj, hlow, -⟩
      · have := hparent start (heq.symm.trans hstart)
        omega
      · have := hparent j (heq.symm.trans hj)
        omega
    -- and what lies beside it does not lie below it
    have hbeside : ∀ y ∈ (rest.flattenAt parent depth (start + 1 + children.size)).map
        (fun e => (e.label, e.parent)) ++ ys, y.2 ≠ some start ∧
        ∀ j, y.2 = some j → j < start + 1 ∨ start + 1 + children.size ≤ j := by
      intro y hy
      rcases List.mem_append.mp hy with hy | hy
      · obtain ⟨e, he, rfl⟩ := List.mem_map.mp hy
        rcases parent_of_mem_flattenAt he with hsame | ⟨j, hj, hlow, -⟩
        · have hlt : ∀ j, e.parent = some j → j < start := fun j hj => hparent j (hsame ▸ hj)
          exact ⟨fun heq => by have := hlt start heq; omega,
            fun j hj => Or.inl (Nat.lt_succ_of_lt (hlt j hj))⟩
        · exact ⟨fun heq => by have := Option.some.inj (hj.symm.trans heq); omega,
            fun k hk => by have := Option.some.inj (hj.symm.trans hk); omega⟩
      · exact ⟨fun heq => by have := (hys y hy).2 start heq; omega,
          fun j hj => by have := (hys y hy).2 j hj; omega⟩
    rw [ofParentsFrom, if_pos rfl, pruned]
    congr 1
    · exact ihc (fun j hj => by have := Option.some.inj hj; omega) hbeside
    · rw [ofParentsFrom_append hbelow, List.length_map, length_flattenAt]
      exact ihr (fun j hj => by have := hparent j hj; omega)
        fun y hy => ⟨(hys y hy).1, fun j hj => by have := (hys y hy).2 j hj; omega⟩

theorem ofParents_flatten (f : Forest α) :
    ofParents (f.flatten.map fun e => (e.label, e.parent)) = f.pruned := by
  have h : ofParentsFrom none 0 (f.flatten.map (fun e => (e.label, e.parent)) ++ []) = f.pruned :=
    ofParentsFrom_flattenAt f (fun j hj => nomatch hj) (List.forall_mem_nil _)
  rwa [List.append_nil] at h

/-! ## Shapes -/

/-- Links do not depend on labels and gaps. -/
theorem flattenAt_shape (f : Forest α) (parent : Option Nat) (depth start : Nat) :
    f.shape.flattenAt parent depth start =
      (f.flattenAt parent depth start).map fun e => ⟨(), e.parent, e.depth, e.descendants⟩ := by
  induction f generalizing parent depth start with
  | nil => rfl
  | gap rest ih => exact ih parent depth start
  | node a children rest ihc ihr =>
    simp only [shape, flattenAt, ihc, ihr, List.map_cons, List.map_append, List.length_map]

theorem pruned_shape (f : Forest α) : f.shape.pruned = f.shape := by
  induction f with
  | nil => rfl
  | gap rest ih => exact ih
  | node a children rest ihc ihr => rw [shape, pruned, ihc, ihr]

/-- A link from which forests can be rebuilt decides their shape, and is decided by it. -/
theorem map_flatten_inj {γ : Type} {link : {α : Type} → Entry α → γ}
    (hlink : ∀ {α : Type} (e : Entry α),
      link e = link (⟨(), e.parent, e.depth, e.descendants⟩ : Entry Unit))
    {rebuild : List (Unit × γ) → Forest Unit}
    (h : ∀ f : Forest Unit, rebuild (f.flatten.map fun e => (e.label, link e)) = f.pruned)
    {f : Forest α} {g : Forest β} :
    f.flatten.map link = g.flatten.map link ↔ f.shape = g.shape := by
  have hshape : ∀ {δ : Type} (f : Forest δ), f.shape.flatten.map link = f.flatten.map link := by
    intro δ f
    rw [flatten, flattenAt_shape, List.map_map]
    exact List.map_congr_left fun e _ => (hlink e).symm
  have hrebuild : ∀ {δ : Type} (f : Forest δ),
      rebuild ((f.flatten.map link).map fun x => ((), x)) = f.shape := by
    intro δ f
    calc rebuild ((f.flatten.map link).map fun x => ((), x))
        = rebuild ((f.shape.flatten.map link).map fun x => ((), x)) := by rw [hshape]
      _ = rebuild (f.shape.flatten.map fun e => (e.label, link e)) := by rw [List.map_map]; rfl
      _ = f.shape := by rw [h, pruned_shape]
  constructor
  · intro heq
    rw [← hrebuild, heq, hrebuild]
  · intro heq
    rw [← hshape, heq, hshape]

theorem map_depth_flatten_inj {f : Forest α} {g : Forest β} :
    f.flatten.map (·.depth) = g.flatten.map (·.depth) ↔ f.shape = g.shape :=
  map_flatten_inj (fun _ => rfl) ofDepths_flatten

theorem map_descendants_flatten_inj {f : Forest α} {g : Forest β} :
    f.flatten.map (·.descendants) = g.flatten.map (·.descendants) ↔ f.shape = g.shape :=
  map_flatten_inj (fun _ => rfl) ofDescendants_flatten

theorem map_parent_flatten_inj {f : Forest α} {g : Forest β} :
    f.flatten.map (·.parent) = g.flatten.map (·.parent) ↔ f.shape = g.shape :=
  map_flatten_inj (fun _ => rfl) ofParents_flatten

end Formwright.Forest
