import Formwright.Forest.Graph
import Formwright.Proofs.Forest.Places
import Formwright.Proofs.Success
import Mathlib.Data.List.Chain
import Mathlib.Data.List.Duplicate
import Mathlib.Data.List.Perm.Subperm
import Mathlib.Logic.Relation
import Mathlib.Order.Defs.LinearOrder
import Mathlib.Order.RelClasses

/-
  Unfolding graphs of objects. A place of the unfolding is a way through the graph: a position among
  the roots, then positions among children, as long as there are any. `Graph.node?` says what stands
  at a place and `Graph.trail` which objects are met on the way to it, so an object that is reached
  in two ways stands at two places.

  Unfolding has one of two outcomes (`unfold_outcome`), given enough levels for the places whose
  trails meet no object twice. Either no trail meets an object twice and the forest has at each place
  what the unfolding has there (`UnfoldsTo`), or the fault names the object that is the first in
  pre-order to be met again on its own trail (`FirstRepeat`). The second happens exactly when an
  object on a cycle can be reached (`exists_repeat_iff`).
-/

namespace Formwright

/-! ## Places of a forest under one more tree -/

namespace Place

/-- A place is empty, or it starts at the first position, or at a later one. -/
theorem cases_later (p : Place) : p = [] ∨ (∃ q, p = 0 :: q) ∨ ∃ q, q ≠ [] ∧ p = later q := by
  obtain _ | ⟨_ | k, q⟩ := p
  · exact Or.inl rfl
  · exact Or.inr (Or.inl ⟨q, rfl⟩)
  · exact Or.inr (Or.inr ⟨k :: q, List.cons_ne_nil k q, rfl⟩)

theorem not_later_lt_zero_cons {p q : Place} (hp : p ≠ []) : ¬ p.later < 0 :: q := by
  intro h
  exact List.lt_irrefl _ (List.lt_trans h (zero_cons_lt_later hp))

theorem later_lt_later_iff {p q : Place} : p.later < q.later ↔ p < q := by
  refine ⟨fun h => ?_, later_lt_later⟩
  rcases lt_trichotomy p q with hlt | rfl | hgt
  · exact hlt
  · exact absurd h (List.lt_irrefl _)
  · exact absurd (List.lt_trans h (later_lt_later hgt)) (List.lt_irrefl _)

theorem zero_cons_lt_zero_cons {p q : Place} : (0 :: p : Place) < 0 :: q ↔ p < q := by
  simp

end Place

namespace Forest

/-- A forest has as many levels as its longest place has positions. -/
theorem height_le_iff {α : Type} {f : Forest α} {n : Nat} :
    f.height ≤ n ↔ ∀ p, (f.node? p).isSome → p.length ≤ n := by
  induction f generalizing n with
  | nil => simp [height, node?]
  | gap rest ih =>
    rw [height, ih]
    constructor
    · intro h p hp
      obtain rfl | ⟨q, rfl⟩ | ⟨q, -, rfl⟩ := p.cases_later
      · exact Nat.zero_le n
      · simp [node?] at hp
      · rw [node?_gap_later] at hp
        rw [Place.length_later]
        exact h q hp
    · intro h p hp
      rw [← Place.length_later]
      exact h p.later (by rwa [node?_gap_later])
  | node a children rest ihc ihr =>
    obtain _ | n := n
    · refine iff_of_false (by simp [height]) fun h => ?_
      exact absurd (h [0] (by simp)) (by simp)
    rw [height, Nat.max_le, Nat.succ_le_succ_iff, ihc, ihr]
    constructor
    · rintro ⟨hc, hr⟩ p hp
      obtain rfl | ⟨q, rfl⟩ | ⟨q, -, rfl⟩ := p.cases_later
      · exact Nat.zero_le _
      · by_cases hq : q = []
        · rw [hq]
          exact Nat.succ_le_succ (Nat.zero_le n)
        · rw [node?_below a children rest hq] at hp
          exact Nat.succ_le_succ (hc q hp)
      · rw [node?_node_later] at hp
        rw [Place.length_later]
        exact hr q hp
    · refine fun h => ⟨fun p hp => ?_, fun p hp => ?_⟩
      · have hne : p ≠ [] := by
          rintro rfl
          simp at hp
        exact Nat.le_of_succ_le_succ (h (0 :: p) (by rwa [node?_below a children rest hne]))
      · rw [← Place.length_later]
        exact h p.later (by rwa [node?_node_later])

end Forest

namespace Graph

variable {α : Type} {g : Graph α}

/-! ## What the unfolding has at a place -/

/-- The label at a place of the unfolding of a list of objects. The first position is one in the
list, each further one is among the children of what stands above. -/
def node? (g : Graph α) : Place → List Nat → Option α
  | [], _ => none
  | k :: p, places =>
    match (places[k]?).bind g.object? with
    | none => none
    | some (a, links) =>
      if p = [] then some a
      else
        match links with
        | .own children => children.node? p
        | .objects js => g.node? p js

/-- The objects that are met on the way to a place, from the root on. -/
def trail (g : Graph α) : Place → List Nat → List Nat
  | [], _ => []
  | k :: p, places =>
    match places[k]? with
    | none => []
    | some i =>
      match g.object? i with
      | some (_, .objects js) => i :: g.trail p js
      | _ => [i]

@[simp] theorem node?_empty (places : List Nat) : g.node? [] places = none := rfl

@[simp] theorem node?_later (p : Place) (i : Nat) (places : List Nat) :
    g.node? p.later (i :: places) = g.node? p places := by
  cases p <;> rfl

@[simp] theorem trail_later (p : Place) (i : Nat) (places : List Nat) :
    g.trail p.later (i :: places) = g.trail p places := by
  cases p <;> rfl

theorem node?_missing {i k : Nat} {places : List Nat} (hk : places[k]? = some i)
    (h : g.object? i = none) (p : Place) : g.node? (k :: p) places = none := by
  rw [node?, hk, Option.bind_some, h]

theorem node?_root {i k : Nat} {places : List Nat} {a : α} {links : Links α}
    (hk : places[k]? = some i) (h : g.object? i = some (a, links)) :
    g.node? [k] places = some a := by
  rw [node?, hk, Option.bind_some, h]
  exact if_pos rfl

theorem node?_own {i k : Nat} {places : List Nat} {a : α} {children : Forest α} {p : Place}
    (hk : places[k]? = some i) (h : g.object? i = some (a, .own children)) (hp : p ≠ []) :
    g.node? (k :: p) places = children.node? p := by
  rw [node?, hk, Option.bind_some, h]
  exact if_neg hp

theorem node?_objects {i k : Nat} {places js : List Nat} {a : α} {p : Place}
    (hk : places[k]? = some i) (h : g.object? i = some (a, .objects js)) (hp : p ≠ []) :
    g.node? (k :: p) places = g.node? p js := by
  rw [node?, hk, Option.bind_some, h]
  exact if_neg hp

theorem trail_own {i k : Nat} {places : List Nat} {a : α} {children : Forest α}
    (hk : places[k]? = some i) (h : g.object? i = some (a, .own children)) (p : Place) :
    g.trail (k :: p) places = [i] := by
  simp only [trail, hk, h]

theorem trail_objects {i k : Nat} {places js : List Nat} {a : α}
    (hk : places[k]? = some i) (h : g.object? i = some (a, .objects js)) (p : Place) :
    g.trail (k :: p) places = i :: g.trail p js := by
  simp only [trail, hk, h]

theorem trail_root {i k : Nat} {places : List Nat} (hk : places[k]? = some i) :
    g.trail [k] places = [i] := by
  simp only [trail, hk]
  split <;> rfl

theorem ne_nil_of_node? {p : Place} {places : List Nat} (h : (g.node? p places).isSome) :
    p ≠ [] := by
  rintro rfl
  simp at h

theorem ne_nil_of_trail {p : Place} {places : List Nat} {i : Nat} (h : i ∈ g.trail p places) :
    p ≠ [] := by
  rintro rfl
  simp [trail] at h

/-! ## Trails and cycles -/

/-- Of two objects, the second is a child of the first. -/
def Child (g : Graph α) (i j : Nat) : Prop := ∃ a js, g.object? i = some (a, .objects js) ∧ j ∈ js

/-- An object that is a root or lies below one. -/
def Reachable (g : Graph α) (roots : List Nat) (i : Nat) : Prop :=
  ∃ r ∈ roots, Relation.ReflTransGen g.Child r i

/-- An object that lies below itself. -/
def OnCycle (g : Graph α) (i : Nat) : Prop := Relation.TransGen g.Child i i

/-- Each object of a trail is a child of the one before it. -/
theorem isChain_trail (p : Place) (places : List Nat) :
    (g.trail p places).IsChain g.Child ∧ ∀ i ∈ (g.trail p places).head?, i ∈ places := by
  induction p generalizing places with
  | nil => simp [trail]
  | cons k p ih =>
    unfold trail
    cases hk : places[k]? with
    | none => simp
    | some i =>
      have hi : i ∈ places := List.mem_of_getElem? hk
      dsimp only
      split
      · rename_i a js hobject
        obtain ⟨hchain, hhead⟩ := ih js
        refine ⟨List.isChain_cons.mpr ⟨fun j hj => ⟨a, js, hobject, hhead j hj⟩, hchain⟩, ?_⟩
        simpa using hi
      · simpa using hi

/-- What is met on the way to a place can be reached. -/
theorem reachable_of_mem_trail {p : Place} {places : List Nat} {i : Nat}
    (h : i ∈ g.trail p places) : g.Reachable places i := by
  obtain ⟨hchain, hhead⟩ := g.isChain_trail p places
  obtain ⟨r, is, hris⟩ := List.exists_cons_of_ne_nil (List.ne_nil_of_mem h)
  rw [hris] at h hchain hhead
  refine ⟨r, hhead r rfl, ?_⟩
  have hpairs := List.isChain_iff_pairwise.mp
    (hchain.imp fun _ _ hab => Relation.ReflTransGen.single hab)
  rcases List.mem_cons.mp h with rfl | hi
  · exact Relation.ReflTransGen.refl
  · exact List.rel_of_pairwise_cons hpairs hi

/-- An object that is met twice on the way to a place lies on a cycle. -/
theorem exists_onCycle_of_not_nodup {p : Place} {places : List Nat}
    (h : ¬ (g.trail p places).Nodup) : ∃ i ∈ g.trail p places, g.OnCycle i := by
  obtain ⟨i, hi⟩ := List.exists_duplicate_iff_not_nodup.mpr h
  refine ⟨i, hi.mem, ?_⟩
  have hpairs := List.isChain_iff_pairwise.mp
    ((g.isChain_trail p places).1.imp fun _ _ hab => Relation.TransGen.single hab)
  exact List.rel_of_pairwise_cons (hpairs.sublist (List.duplicate_iff_sublist.mp hi))
    (List.mem_singleton.mpr rfl)

/-- What stands below a child of an object stands below the object. -/
theorem exists_place_of_child {places js : List Nat} {i : Nat} {a : α} {p : Place}
    (hi : i ∈ places) (h : g.object? i = some (a, .objects js)) (hp : (g.node? p js).isSome) :
    ∃ q, (g.node? q places).isSome ∧ g.trail q places = i :: g.trail p js := by
  obtain ⟨k, hk⟩ := List.getElem?_of_mem hi
  refine ⟨k :: p, ?_, trail_objects hk h p⟩
  rwa [node?_objects hk h (ne_nil_of_node? hp)]

/-- What can be reached is met on the way to a place. -/
theorem exists_trail_of_reachable {r i : Nat} {places : List Nat} (hr : r ∈ places)
    (hri : Relation.ReflTransGen g.Child r i) (hi : (g.object? i).isSome) :
    ∃ p, (g.node? p places).isSome ∧ i ∈ g.trail p places := by
  induction hri using Relation.ReflTransGen.head_induction_on generalizing places with
  | refl =>
    obtain ⟨k, hk⟩ := List.getElem?_of_mem hr
    obtain ⟨⟨a, links⟩, hobject⟩ := Option.isSome_iff_exists.mp hi
    refine ⟨[k], ?_, ?_⟩
    · rw [node?_root hk hobject]
      rfl
    · rw [trail_root hk]
      exact List.mem_singleton.mpr rfl
  | head hchild _ ih =>
    obtain ⟨a, js, hobject, hj⟩ := hchild
    obtain ⟨p, hp, hmem⟩ := ih hj
    obtain ⟨q, hq, htrail⟩ := exists_place_of_child hr hobject hp
    refine ⟨q, hq, ?_⟩
    rw [htrail]
    exact List.mem_cons_of_mem _ hmem

/-- Some trail meets an object twice exactly when an object on a cycle can be reached. -/
theorem exists_repeat_iff {roots : List Nat} :
    (∃ p, (g.node? p roots).isSome ∧ ¬ (g.trail p roots).Nodup) ↔
      ∃ i, g.Reachable roots i ∧ g.OnCycle i := by
  constructor
  · rintro ⟨p, -, hp⟩
    obtain ⟨i, hi, hcycle⟩ := exists_onCycle_of_not_nodup hp
    exact ⟨i, reachable_of_mem_trail hi, hcycle⟩
  · rintro ⟨i, ⟨r, hr, hri⟩, hcycle⟩
    -- once around the cycle, then back along the way from the root
    induction hri using Relation.ReflTransGen.head_induction_on generalizing roots with
    | refl =>
      obtain ⟨j, ⟨a, js, hobject, hj⟩, hji⟩ := Relation.TransGen.head'_iff.mp hcycle
      have hpresent : (g.object? i).isSome := by rw [hobject]; rfl
      obtain ⟨p, hp, hmem⟩ := exists_trail_of_reachable hj hji hpresent
      obtain ⟨q, hq, htrail⟩ := exists_place_of_child hr hobject hp
      refine ⟨q, hq, ?_⟩
      rw [htrail]
      exact fun h => (List.nodup_cons.mp h).1 hmem
    | head hchild _ ih =>
      obtain ⟨a, js, hobject, hj⟩ := hchild
      obtain ⟨p, hp, hrepeat⟩ := ih hj
      obtain ⟨q, hq, htrail⟩ := exists_place_of_child hr hobject hp
      refine ⟨q, hq, ?_⟩
      rw [htrail]
      exact fun h => hrepeat (List.nodup_cons.mp h).2

/-! ## The recursion of unfolding -/

section
variable {name : α → String} {fuel : Nat} {path places : List Nat} {i : Nat} {a : α}

@[simp] theorem unfold_nil : g.unfold name fuel path [] = .ok .nil := by
  cases fuel <;> simp [unfold, Forest.ofTrees]

theorem unfold_missing (h : g.object? i = none) :
    g.unfold name fuel path (i :: places) = (do
      let rest ← g.unfold name fuel path places
      return .gap rest) := by
  cases fuel <;> simp [unfold, tree, h, Forest.ofTrees]

theorem unfold_open {links : Links α} (h : g.object? i = some (a, links)) (hi : i ∈ path) :
    g.unfold name fuel path (i :: places) = .error (.containsItself (name a)) := by
  cases fuel <;> simp [unfold, tree, h, hi]

theorem unfold_own {children : Forest α} (h : g.object? i = some (a, .own children))
    (hi : i ∉ path) :
    g.unfold name fuel path (i :: places) = (do
      let rest ← g.unfold name fuel path places
      return .node a children rest) := by
  cases fuel <;> simp [unfold, tree, h, hi, Forest.ofTrees]

theorem unfold_objects {js : List Nat} (h : g.object? i = some (a, .objects js)) (hi : i ∉ path) :
    g.unfold name (fuel + 1) path (i :: places) = (do
      let children ← g.unfold name fuel (i :: path) js
      let rest ← g.unfold name (fuel + 1) path places
      return .node a children rest) := by
  cases js <;> simp [unfold, tree, h, hi, Forest.ofTrees]

end

/-! ## The two outcomes -/

/-- The forest that a list of objects below the objects `path` unfolds to. -/
structure UnfoldsTo (g : Graph α) (path places : List Nat) (t : Forest α) : Prop where
  /-- Each place holds what the unfolding has there, -/
  holds : ∀ p, t.node? p = g.node? p places
  /-- and no object is met twice on the way to it. -/
  nodup : ∀ p, (g.node? p places).isSome → (path ++ g.trail p places).Nodup

/-- The object that is met again on its own trail, below the objects `path`, at the first place in
pre-order where that happens. -/
def FirstRepeat (g : Graph α) (path places : List Nat) (i : Nat) : Prop :=
  ∃ p is, (g.node? p places).isSome ∧ g.trail p places = is ++ [i] ∧ i ∈ path ++ is ∧
    ∀ q < p, (g.node? q places).isSome → (path ++ g.trail q places).Nodup

/-- What unfolding a list of objects may give: their forest, or a fault that names the first object
that is met again. -/
def Outcome (g : Graph α) (name : α → String) (path places : List Nat) :
    Except Fault (Forest α) → Prop
  | .ok t => g.UnfoldsTo path places t
  | .error e => ∃ i a links, g.object? i = some (a, links) ∧ e = .containsItself (name a) ∧
      g.FirstRepeat path places i

section
variable {name : α → String} {fuel : Nat} {path places js : List Nat} {i j : Nat} {a : α}

theorem UnfoldsTo.nil : g.UnfoldsTo path [] .nil := by
  have hnone : ∀ p, g.node? p [] = none := fun p => by cases p <;> rfl
  refine ⟨fun p => ?_, fun p hp => ?_⟩
  · rw [hnone, Forest.node?]
    all_goals simp
  · rw [hnone] at hp
    exact absurd hp (by simp)

/-- An object is met again at once where it is met below itself. -/
theorem FirstRepeat.root {links : Links α} (h : g.object? i = some (a, links)) (hi : i ∈ path) :
    g.FirstRepeat path (i :: places) i := by
  refine ⟨[0], [], ?_, trail_root rfl, by simpa using hi, fun q hq hnode => ?_⟩
  · rw [node?_root rfl h]
    rfl
  · obtain rfl | ⟨q, rfl⟩ | ⟨q, hne, rfl⟩ := q.cases_later
    · exact absurd hnode (by simp)
    · exact absurd (Place.zero_cons_lt_zero_cons.mp hq) (List.not_lt_nil q)
    · exact absurd hq (Place.not_later_lt_zero_cons hne)

/-- A trail below an object, with the object in front. -/
theorem nodup_trail_objects (h : g.object? i = some (a, .objects js)) (p : Place) :
    (path ++ g.trail (0 :: p) (i :: places)).Nodup ↔ (i :: path ++ g.trail p js).Nodup := by
  rw [trail_objects rfl h]
  exact List.perm_middle.nodup_iff

theorem nodup_root (hpath : path.Nodup) (hi : i ∉ path) : (path ++ [i]).Nodup :=
  List.nodup_append.mpr ⟨hpath, List.nodup_singleton i, by
    rintro a ha b hb rfl
    exact hi (List.mem_singleton.mp hb ▸ ha)⟩

/-- What is met again below the first object is met again. -/
theorem FirstRepeat.child (h : g.object? i = some (a, .objects js)) (hpath : path.Nodup)
    (hi : i ∉ path) (hj : g.FirstRepeat (i :: path) js j) : g.FirstRepeat path (i :: places) j := by
  obtain ⟨p, is, hnode, htrail, hmem, hbefore⟩ := hj
  refine ⟨0 :: p, i :: is, ?_, ?_, ?_, fun q hq hq' => ?_⟩
  · rwa [node?_objects rfl h (ne_nil_of_node? hnode)]
  · rw [trail_objects rfl h, htrail, List.cons_append]
  · exact List.perm_middle.symm.mem_iff.mp hmem
  · obtain rfl | ⟨q, rfl⟩ | ⟨q, hne, rfl⟩ := q.cases_later
    · exact absurd hq' (by simp)
    · by_cases hempty : q = []
      · rw [hempty, trail_root rfl]
        exact nodup_root hpath hi
      · rw [node?_objects rfl h hempty] at hq'
        exact (nodup_trail_objects h q).mpr (hbefore q (Place.zero_cons_lt_zero_cons.mp hq) hq')
    · exact absurd hq (Place.not_later_lt_zero_cons hne)

/-- What is met again below a later object is met again, unless something is below the first. -/
theorem FirstRepeat.later
    (hfirst : ∀ q, (g.node? (0 :: q) (i :: places)).isSome →
      (path ++ g.trail (0 :: q) (i :: places)).Nodup)
    (hj : g.FirstRepeat path places j) : g.FirstRepeat path (i :: places) j := by
  obtain ⟨p, is, hnode, htrail, hmem, hbefore⟩ := hj
  refine ⟨p.later, is, by rwa [node?_later], by rw [trail_later, htrail], hmem, fun q hq hq' => ?_⟩
  obtain rfl | ⟨q, rfl⟩ | ⟨q, -, rfl⟩ := q.cases_later
  · exact absurd hq' (by simp)
  · exact hfirst q hq'
  · rw [node?_later] at hq'
    rw [trail_later]
    exact hbefore q (Place.later_lt_later_iff.mp hq) hq'

/-- One more object in front, whose tree is put there by `f`. -/
theorem Outcome.cons {r : Except Fault (Forest α)} {f : Forest α → Forest α}
    (hrest : g.Outcome name path places r)
    (hfirst : ∀ q, (g.node? (0 :: q) (i :: places)).isSome →
      (path ++ g.trail (0 :: q) (i :: places)).Nodup)
    (hzero : ∀ t q, (f t).node? (0 :: q) = g.node? (0 :: q) (i :: places))
    (hlater : ∀ t (q : Place), (f t).node? q.later = t.node? q) :
    g.Outcome name path (i :: places) (do let t ← r; return f t) := by
  cases r with
  | error e =>
    obtain ⟨j, b, links, hobject, he, hj⟩ := hrest
    exact ⟨j, b, links, hobject, he, hj.later hfirst⟩
  | ok t =>
    constructor
    · intro p
      obtain rfl | ⟨q, rfl⟩ | ⟨q, -, rfl⟩ := p.cases_later
      · exact Forest.node?_empty _
      · exact hzero t q
      · rw [hlater, node?_later, hrest.holds]
    · intro p hp
      obtain rfl | ⟨q, rfl⟩ | ⟨q, -, rfl⟩ := p.cases_later
      · exact absurd hp (by simp)
      · exact hfirst q hp
      · rw [node?_later] at hp
        rw [trail_later]
        exact hrest.nodup q hp

theorem Outcome.missing {r : Except Fault (Forest α)} (h : g.object? i = none)
    (hrest : g.Outcome name path places r) :
    g.Outcome name path (i :: places) (do let t ← r; return .gap t) := by
  have hnone : ∀ q, g.node? (0 :: q) (i :: places) = none := node?_missing rfl h
  refine hrest.cons (fun q hq => ?_) (fun t q => ?_) Forest.node?_gap_later
  · rw [hnone] at hq
    exact absurd hq (by simp)
  · rw [hnone]
    simp [Forest.node?]

theorem Outcome.own {r : Except Fault (Forest α)} {children : Forest α}
    (h : g.object? i = some (a, .own children)) (hroot : (path ++ [i]).Nodup)
    (hrest : g.Outcome name path places r) :
    g.Outcome name path (i :: places) (do let t ← r; return .node a children t) := by
  refine hrest.cons (fun q _ => ?_) (fun t q => ?_) (Forest.node?_node_later a children)
  · rw [trail_own rfl h]
    exact hroot
  · by_cases hq : q = []
    · rw [hq, Forest.node?_root, node?_root rfl h]
    · rw [Forest.node?_below _ _ _ hq, node?_own rfl h hq]

/-- The children of an object come before the objects behind it, so a repeat among them is first. -/
theorem Outcome.objects {b r : Except Fault (Forest α)} (h : g.object? i = some (a, .objects js))
    (hpath : path.Nodup) (hi : i ∉ path) (hbelow : g.Outcome name (i :: path) js b)
    (hrest : g.Outcome name path places r) :
    g.Outcome name path (i :: places)
      (do let children ← b; let t ← r; return .node a children t) := by
  cases b with
  | error e =>
    obtain ⟨j, c, links, hj, he, hrepeat⟩ := hbelow
    exact ⟨j, c, links, hj, he, hrepeat.child h hpath hi⟩
  | ok children =>
    refine hrest.cons (fun q hq => ?_) (fun t q => ?_) (Forest.node?_node_later a children)
    · by_cases hempty : q = []
      · rw [hempty, trail_root rfl]
        exact nodup_root hpath hi
      · rw [node?_objects rfl h hempty] at hq
        exact (nodup_trail_objects h q).mpr (hbelow.nodup q hq)
    · by_cases hq : q = []
      · rw [hq, Forest.node?_root, node?_root rfl h]
      · rw [Forest.node?_below _ _ _ hq, node?_objects rfl h hq, hbelow.holds]

/-- Objects unfold to their forest, or a fault names the first of them that is met again, when there
are enough levels for the places on whose trails none is met again. -/
theorem unfold_outcome (hpath : path.Nodup)
    (hshort : ∀ p, (g.node? p places).isSome → (path ++ g.trail p places).Nodup → p.length ≤ fuel) :
    g.Outcome name path places (g.unfold name fuel path places) := by
  -- on the levels that are left, then on the objects of one level
  induction fuel using Nat.strong_induction_on generalizing path places with
  | h fuel ihFuel =>
  induction places with
  | nil =>
    rw [unfold_nil]
    exact UnfoldsTo.nil
  | cons i places ihPlaces =>
    have hrest : g.Outcome name path places (g.unfold name fuel path places) := by
      refine ihPlaces fun p hp hnodup => ?_
      rw [← Place.length_later]
      exact hshort p.later (by rwa [node?_later]) (by rwa [trail_later])
    match hobject : g.object? i with
    | none =>
      rw [unfold_missing hobject]
      exact hrest.missing hobject
    | some (a, links) =>
      by_cases hi : i ∈ path
      · rw [unfold_open hobject hi]
        exact ⟨i, a, links, hobject, rfl, FirstRepeat.root hobject hi⟩
      have hroot : (path ++ [i]).Nodup := nodup_root hpath hi
      cases links with
      | own children =>
        rw [unfold_own hobject hi]
        exact hrest.own hobject hroot
      | objects js =>
        obtain _ | fuel := fuel
        · -- the object itself stands at a place that is too long
          have hlong := hshort [0] (by rw [node?_root rfl hobject]; rfl) (by rwa [trail_root rfl])
          exact absurd hlong (by simp)
        have hbelow : g.Outcome name (i :: path) js (g.unfold name fuel (i :: path) js) := by
          refine ihFuel fuel (Nat.lt_succ_self fuel) (List.nodup_cons.mpr ⟨hi, hpath⟩)
            fun p hp hnodup => ?_
          have hlong := hshort (0 :: p) (by rwa [node?_objects rfl hobject (ne_nil_of_node? hp)])
            ((nodup_trail_objects hobject p).mpr hnodup)
          exact Nat.le_of_succ_le_succ hlong
        rw [unfold_objects hobject hi]
        exact hbelow.objects hobject hpath hi hrest

end

/-- What is met again lies on a cycle that can be reached, -/
theorem FirstRepeat.exists_onCycle {roots : List Nat} {i : Nat} (h : g.FirstRepeat [] roots i) :
    ∃ i, g.Reachable roots i ∧ g.OnCycle i := by
  obtain ⟨p, is, hp, htrail, hmem, -⟩ := h
  refine exists_repeat_iff.mp ⟨p, hp, fun hnodup => ?_⟩
  rw [htrail, List.nodup_append] at hnodup
  exact hnodup.2.2 i hmem i (List.mem_singleton.mpr rfl) rfl

/-- and where there is a forest, no cycle can be reached. -/
theorem UnfoldsTo.not_exists_onCycle {roots : List Nat} {t : Forest α}
    (h : g.UnfoldsTo [] roots t) : ¬ ∃ i, g.Reachable roots i ∧ g.OnCycle i := by
  rw [← exists_repeat_iff]
  rintro ⟨p, hp, hrepeat⟩
  exact hrepeat (h.nodup p hp)

/-! ## How long trails get -/

/-- What stands at a place is an object of the list or lies below one. -/
theorem exists_object_of_node? {k : Nat} {p : Place} {places : List Nat}
    (hp : (g.node? (k :: p) places).isSome) :
    ∃ i a links, places[k]? = some i ∧ g.object? i = some (a, links) := by
  cases hk : places[k]? with
  | none =>
    rw [node?, hk] at hp
    exact absurd hp (by simp)
  | some i =>
    match hobject : g.object? i with
    | none =>
      rw [node?_missing hk hobject] at hp
      exact absurd hp (by simp)
    | some (a, links) => exact ⟨i, a, links, rfl, hobject⟩

/-- Where objects have no children of their own, a place has one position for each object that is met
on the way to it. -/
theorem length_trail (hlinked : ∀ i a children, g.object? i = some (a, .own children) → children = .nil)
    {p : Place} {places : List Nat} (hp : (g.node? p places).isSome) :
    (g.trail p places).length = p.length := by
  induction p generalizing places with
  | nil => rfl
  | cons k p ih =>
    obtain ⟨i, a, links, hk, hobject⟩ := exists_object_of_node? hp
    by_cases hne : p = []
    · rw [hne, trail_root hk, List.length_singleton, List.length_singleton]
    cases links with
    | own children =>
      rw [node?_own hk hobject hne, hlinked i a children hobject] at hp
      simp [Forest.node?] at hp
    | objects js =>
      rw [node?_objects hk hobject hne] at hp
      rw [trail_objects hk hobject, List.length_cons, List.length_cons, ih hp]

theorem isSome_object?_of_mem_trail {p : Place} {places : List Nat} {i : Nat}
    (hp : (g.node? p places).isSome) (hi : i ∈ g.trail p places) : (g.object? i).isSome := by
  induction p generalizing places with
  | nil => exact absurd hp (by simp)
  | cons k p ih =>
    obtain ⟨j, a, links, hk, hobject⟩ := exists_object_of_node? hp
    have hj : (g.object? j).isSome := by
      rw [hobject]
      rfl
    cases links with
    | own children =>
      rw [trail_own hk hobject, List.mem_singleton] at hi
      rwa [hi]
    | objects js =>
      rw [trail_objects hk hobject] at hi
      rcases List.mem_cons.mp hi with rfl | hi
      · exact hj
      · rw [node?_objects hk hobject (ne_nil_of_trail hi)] at hp
        exact ih hp hi

/-- A way on which no object is met twice is no longer than there are objects. -/
theorem length_le_of_nodup
    (hlinked : ∀ i a children, g.object? i = some (a, .own children) → children = .nil)
    {p : Place} {places : List Nat} (hp : (g.node? p places).isSome)
    (hnodup : (g.trail p places).Nodup) : p.length ≤ g.objects.length := by
  have hrange : g.trail p places ⊆ List.range g.objects.length := by
    intro i hi
    rw [List.mem_range]
    by_contra hout
    have hpresent := isSome_object?_of_mem_trail hp hi
    rw [object?, List.getElem?_eq_none (Nat.le_of_not_lt hout)] at hpresent
    exact absurd hpresent (by simp)
  rw [← length_trail hlinked hp, ← List.length_range (n := g.objects.length)]
  exact (hnodup.subperm hrange).length_le

end Graph

end Formwright
